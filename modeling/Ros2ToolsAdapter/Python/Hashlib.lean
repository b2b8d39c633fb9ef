import Ros2ToolsAdapter.Python.Json

/-!
# hashlib

`hashlib.sha256`. The results about digests hold for any function in its place; this is the one they
are used at.

Words are natural numbers below `2 ^ 32`.
-/

namespace Python.Sha256

def add (a b : ℕ) : ℕ := (a + b) % 2 ^ 32

/-- Rotation to the right. -/
def rotr (n x : ℕ) : ℕ := x >>> n ||| (x <<< (32 - n)) % 2 ^ 32

def constants : List ℕ :=
  [0x428a2f98, 0x71374491, 0xb5c0fbcf, 0xe9b5dba5, 0x3956c25b, 0x59f111f1, 0x923f82a4, 0xab1c5ed5,
    0xd807aa98, 0x12835b01, 0x243185be, 0x550c7dc3, 0x72be5d74, 0x80deb1fe, 0x9bdc06a7, 0xc19bf174,
    0xe49b69c1, 0xefbe4786, 0x0fc19dc6, 0x240ca1cc, 0x2de92c6f, 0x4a7484aa, 0x5cb0a9dc, 0x76f988da,
    0x983e5152, 0xa831c66d, 0xb00327c8, 0xbf597fc7, 0xc6e00bf3, 0xd5a79147, 0x06ca6351, 0x14292967,
    0x27b70a85, 0x2e1b2138, 0x4d2c6dfc, 0x53380d13, 0x650a7354, 0x766a0abb, 0x81c2c92e, 0x92722c85,
    0xa2bfe8a1, 0xa81a664b, 0xc24b8b70, 0xc76c51a3, 0xd192e819, 0xd6990624, 0xf40e3585, 0x106aa070,
    0x19a4c116, 0x1e376c08, 0x2748774c, 0x34b0bcb5, 0x391c0cb3, 0x4ed8aa4a, 0x5b9cca4f, 0x682e6ff3,
    0x748f82ee, 0x78a5636f, 0x84c87814, 0x8cc70208, 0x90befffa, 0xa4506ceb, 0xbef9a3f7, 0xc67178f2]

/-- The eight words of the hash. -/
structure State where
  a : ℕ
  b : ℕ
  c : ℕ
  d : ℕ
  e : ℕ
  f : ℕ
  g : ℕ
  h : ℕ

def initial : State :=
  ⟨0x6a09e667, 0xbb67ae85, 0x3c6ef372, 0xa54ff53a, 0x510e527f, 0x9b05688c, 0x1f83d9ab, 0x5be0cd19⟩

/-- The words of the schedule after the first sixteen, the last one first. -/
def extend : ℕ → List ℕ → List ℕ
  | 0, schedule => schedule
  | rounds + 1, schedule =>
    let x := schedule.getD 14 0
    let y := schedule.getD 1 0
    let s₀ := rotr 7 x ^^^ rotr 18 x ^^^ x >>> 3
    let s₁ := rotr 17 y ^^^ rotr 19 y ^^^ y >>> 10
    extend rounds
      (add (add (schedule.getD 15 0) s₀) (add (schedule.getD 6 0) s₁) :: schedule)

def round (s : State) (k w : ℕ) : State :=
  let s₁ := rotr 6 s.e ^^^ rotr 11 s.e ^^^ rotr 25 s.e
  let choice := s.e &&& s.f ^^^ (s.e ^^^ (2 ^ 32 - 1)) &&& s.g
  let t₁ := add (add s.h s₁) (add choice (add k w))
  let s₀ := rotr 2 s.a ^^^ rotr 13 s.a ^^^ rotr 22 s.a
  let majority := s.a &&& s.b ^^^ s.a &&& s.c ^^^ s.b &&& s.c
  ⟨add t₁ (add s₀ majority), s.a, s.b, s.c, add s.d t₁, s.e, s.f, s.g⟩

def rounds : State → List ℕ → List ℕ → State
  | s, k :: ks, w :: ws => rounds (round s k w) ks ws
  | s, _, _ => s

/-- The hash after a block of sixteen words. -/
def compress (s : State) (block : List ℕ) : State :=
  let t := rounds s constants (extend 48 block.reverse).reverse
  ⟨add s.a t.a, add s.b t.b, add s.c t.c, add s.d t.d, add s.e t.e, add s.f t.f, add s.g t.g,
    add s.h t.h⟩

/-- The words of a sequence of bytes, the first byte of a word the highest. -/
def words : List UInt8 → List ℕ
  | a :: b :: c :: d :: bytes =>
    (((a.toNat * 256 + b.toNat) * 256 + c.toNat) * 256 + d.toNat) :: words bytes
  | _ => []

/-- The words of a message that is padded to whole blocks. -/
def padded (message : List UInt8) : List ℕ :=
  let bits := 8 * message.length
  words (message ++ 0x80 :: List.replicate ((119 - message.length % 64) % 64) 0) ++
    [bits / 2 ^ 32 % 2 ^ 32, bits % 2 ^ 32]

/-- The blocks of a message, of which there are no more than words. -/
def blocks : ℕ → State → List ℕ → State
  | 0, s, _ => s
  | _, s, [] => s
  | fuel + 1, s, message => blocks fuel (compress s (message.take 16)) (message.drop 16)

/-- `hashlib.sha256(message).digest()` -/
def digest (message : ByteArray) : Vector UInt8 32 :=
  let message := padded message.data.toList
  let s := blocks message.length initial message
  let result := [s.a, s.b, s.c, s.d, s.e, s.f, s.g, s.h]
  Vector.ofFn fun i ↦ UInt8.ofNat (result.getD (i.val / 4) 0 >>> (8 * (3 - i.val % 4)))

/-- The digest of no bytes at all begins with these. -/
example : (digest .empty).toList.take 4 = [0xe3, 0xb0, 0xc4, 0x42] := by decide +kernel

example : (digest "abc".toByteArray).toList.drop 28 = [0xf2, 0x00, 0x15, 0xad] := by decide +kernel

end Python.Sha256

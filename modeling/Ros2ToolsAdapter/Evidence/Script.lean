import Mathlib.Data.List.DropRight
import Ros2ToolsAdapter.Generator.RuntimeManifests

/-!
# Dependency evidence

`write_dependency_evidence.py`: from the lock of the two dependencies and from what `dpkg-query`
says is installed, it writes down which version of each package a build has used and where the
source of it is. In the mode `locked-source` the versions have to be those of the lock; in the mode
`staging-apt` they are what the overlay had.

What the path of the lock leads to is an argument, as are the arguments `argparse` has let through.
`dpkg-query` is a call, and so are the two writes.
-/

namespace Ros2ToolsAdapter.Evidence

open Interaction Python RegularExpression
open Artifact (Argument Tools orRaise hexdigest FileOp)

/-! ## The script -/

/-- The choices of `--prepare-action`. -/
inductive PrepareAction
  | ci
  | release
  | compatibility_verify
  deriving DecidableEq

def PrepareAction.text : PrepareAction → Text
  | .ci => "ci"
  | .release => "release"
  | .compatibility_verify => "compatibility-verify"

/-- The choices of `--dependency-mode`. -/
inductive DependencyMode
  | locked_source
  | staging_apt
  deriving DecidableEq

def DependencyMode.text : DependencyMode → Text
  | .locked_source => "locked-source"
  | .staging_apt => "staging-apt"

/-- The choices of `--architecture`. -/
inductive Architecture
  | amd64
  | arm64

def Architecture.text : Architecture → Text
  | .amd64 => "amd64"
  | .arm64 => "arm64"

/-- The arguments; that of the lock is what its path leads to, and `--distribution` has only one
choice. -/
structure Arguments where
  lock : Option Node
  output : PurePath
  prepare_action : PrepareAction
  dependency_mode : DependencyMode
  dependency_set_digest : Argument
  architecture : Architecture
  apt_overlay_url : Argument

/-- What ends the script. -/
inductive Raised
  | exn (e : PyExn)
  /-- `parser.error(message)` -/
  | usage (message : Text)

/-- A call out of the script. -/
inductive Op
  | dpkg_query (package : Text)
  | write (op : FileOp)

/-- What `dpkg-query` prints, and whether a write happened. -/
@[reducible] def Op.Answer : Op → Type
  | .dpkg_query _ => Except PyExn ByteArray
  | .write _ => Bool

abbrev Run := Trace Op Op.Answer

abbrev Evidencing := Proc Raised Op Op.Answer

def isHex (c : ℕ) : Bool := 0x30 ≤ c && c ≤ 0x39 || 0x61 ≤ c && c ≤ 0x66

def HEX40 (t : Text) : Bool := t.length == 40 && t.all isHex

def HEX64 (t : Text) : Bool := t.length == 64 && t.all isHex

section Pattern

open Generator (codeRange)

/-- `[A-Za-z0-9.-]` -/
def hostChar : RegularExpression ℕ :=
  oneOf (codeRange 0x41 0x5A ++ codeRange 0x61 0x7A ++ codeRange 0x30 0x39 ++ (".-" : Text))

def digit : RegularExpression ℕ := oneOf (codeRange 0x30 0x39)

/-- `[A-Za-z0-9._~%+:/=-]` -/
def pathChar : RegularExpression ℕ :=
  oneOf (codeRange 0x41 0x5A ++ codeRange 0x61 0x7A ++ codeRange 0x30 0x39 ++ ("._~%+:/=-" : Text))

def HTTPS_URL : RegularExpression ℕ :=
  literal ("https://" : Text) * (hostChar * hostChar.star) *
    (1 + literal (":" : Text) *
      (digit * (1 + digit * (1 + digit * (1 + digit * (1 + digit)))))) *
    (1 + literal ("/" : Text) * pathChar.star)

end Pattern

def LOCK_FIELDS : List Text := ["schema", "planDependencySetDigest", "dependencies"]

def DEPENDENCY_FIELDS : List Text :=
  ["id", "planAction", "policy", "repository", "sourceSha", "version", "package", "packageVersion"]

abbrev Dependency := Record DEPENDENCY_FIELDS

/-- A lock that was loaded, with its dependencies. -/
structure Lock where
  value : Record LOCK_FIELDS
  dependencies : List Dependency

/-- The items of a list of two. -/
def two? : Value → Option (List Value)
  | .list [a, b] => some [a, b]
  | _ => none

/-- The characters `str.strip` takes away. -/
def isSpace (c : ℕ) : Bool :=
  0x09 ≤ c && c ≤ 0x0D || 0x1C ≤ c && c ≤ 0x20 || c == 0x85 || c == 0xA0 || c == 0x1680 ||
    0x2000 ≤ c && c ≤ 0x200A || c == 0x2028 || c == 0x2029 || c == 0x202F || c == 0x205F ||
    c == 0x3000

def strip (t : Text) : Text := (t.dropWhile isSpace).rdropWhile isSpace

/-- An installed package. -/
structure Entry where
  package : Text
  version : Text
  source : Text

def Entry.toValue (entry : Entry) : Value :=
  .dict [("package", .str entry.package), ("version", .str entry.version),
    ("source", .str entry.source)]

section Script

variable (python : Interpreter) (tools : Tools)

def canonical_digest (value : Value) : Except PyExn Text := do
  let encoded ← encodeUtf8 (← Json.Style.dumps python
    { ensure_ascii := false, sort_keys := true, indent := false } value)
  return hexdigest (tools.sha256 encoded)

/-- The loop of `load_lock` over the dependencies. -/
def checkDependency (v : Value) : Except PyExn Dependency := do
  let dependency ← orRaise (Record.ofValue? DEPENDENCY_FIELDS v)
    "locked dependency fields are not exact"
  throwIf (Value.eq python (dependency.get "planAction") (.str "verify") = false ∨
      Value.eq python (dependency.get "policy") (.str "rebuild") = false)
    (PyExn.valueError "locked dependency plan identity is invalid")
  let sourceSha ← Value.toStr python (dependency.get "sourceSha")
  throwIf (HEX40 sourceSha = false) (PyExn.valueError "locked dependency source SHA is invalid")
  return dependency

/-- The part of a dependency that the plan is about. -/
def planEntry (dependency : Dependency) : Value :=
  .dict [("id", dependency.get "id"), ("action", dependency.get "planAction"),
    ("source_sha", dependency.get "sourceSha"), ("version", dependency.get "version"),
    ("policy", dependency.get "policy")]

/-- `plan_identity` -/
def planIdentity (dependencies : List Dependency) : Except PyExn Value := do
  let keyed ← dependencies.mapM fun dependency ↦ do
    return (← Value.toStr python (dependency.get "id"), dependency)
  return .list ((keyed.mergeSort fun a b ↦ a.1 ≤ b.1).map fun entry ↦ planEntry entry.2)

def load_lock (path : Option Node) : Except PyExn Lock := do
  let node ← path.elim (.error .osError) .ok
  let value ← Json.loads python (← node.readText)
  let value ← orRaise (Record.ofValue? LOCK_FIELDS value) "dependency lock fields are not exact"
  throwIf (Value.eq python (value.get "schema") (.str "xgc2.dependency-lock.v1") = false)
    (PyExn.valueError "unsupported dependency lock schema")
  let items ← orRaise (two? (value.get "dependencies"))
    "dependency lock must contain exactly two providers"
  let dependencies ← items.mapM (checkDependency python)
  let actual_digest ← canonical_digest python tools (← planIdentity python dependencies)
  throwIf (Value.eq python (value.get "planDependencySetDigest") (.str actual_digest) = false)
    (PyExn.valueError "dependency lock plan digest is invalid")
  return ⟨value, dependencies⟩

/-- `subprocess.check_output(["dpkg-query", …], text=True).strip()` -/
def installed_version (package : Text) : Evidencing Text :=
  Proc.invoke (.dpkg_query package) fun stdout ↦
    raising Raised.exn (do return strip (universalNewlines false (← decodeUtf8 (← stdout))))

def write (op : FileOp) : Evidencing Unit :=
  Proc.attempt (.write op) id (.exn .osError)

variable (args : Arguments)

def checkDigest : Except Raised Unit :=
  throwIf (HEX64 args.dependency_set_digest.1 = false)
    (Raised.usage "dependency-set-digest must be 64 lowercase hexadecimal characters")

/-- The checks of the mode. -/
def checkMode (lock : Lock) : Except Raised Unit :=
  match args.dependency_mode with
  | .locked_source => do
    throwIf (args.apt_overlay_url.1 ≠ [])
      (Raised.usage "locked-source mode forbids apt-overlay-url")
    throwIf (Value.eq python (.str args.dependency_set_digest.1)
        (lock.value.get "planDependencySetDigest") = false)
      (Raised.usage "locked-source dependency-set digest does not match the lock")
  | .staging_apt => do
    throwIf (HTTPS_URL.rmatch args.apt_overlay_url.1 = false)
      (Raised.usage "staging-apt mode requires a strict HTTPS overlay URL")
    throwIf (args.prepare_action = .ci) (Raised.usage "CI cannot use staging-apt dependency mode")

/-- In the mode `locked-source` the installed version is that of the lock. -/
def checkVersion (dependency : Dependency) (package version : Text) : Except Raised Unit :=
  if args.dependency_mode = .locked_source ∧
      Value.eq python (.str version) (dependency.get "packageVersion") = false then do
    let locked ← raising Raised.exn (Value.toStr python (dependency.get "packageVersion"))
    throw (.usage (package ++ (" version " : Text) ++ version ++ (" != locked " : Text) ++ locked))
  else pure ()

/-- `source` -/
def sourceOf (dependency : Dependency) : Except PyExn Text :=
  match args.dependency_mode with
  | .locked_source => do
    let repository ← Value.toStr python (dependency.get "repository")
    let sourceSha ← Value.toStr python (dependency.get "sourceSha")
    return ("https://github.com/" : Text) ++ repository ++ (".git@" : Text) ++ sourceSha
  | .staging_apt => return args.apt_overlay_url.1.rdropWhile (· == 0x2F)

/-- The loop of `main` over the dependencies. -/
def gather : List Dependency → Evidencing (List Entry)
  | [] => pure []
  | dependency :: dependencies => do
    let package ← liftM (raising Raised.exn (Value.toStr python (dependency.get "package")))
    let version ← installed_version package
    liftM (checkVersion python args dependency package version)
    let source ← liftM (raising Raised.exn (sourceOf python args dependency))
    let entries ← gather dependencies
    pure (⟨package, version, source⟩ :: entries)

def evidenceValue (entries : List Entry) : Value :=
  .dict [("schema", .str "xgc2.dependency-evidence.v1"),
    ("prepareAction", .str args.prepare_action.text),
    ("dependencySetDigest", .str args.dependency_set_digest.1),
    ("dependencyMode", .str args.dependency_mode.text), ("distribution", .str "noble"),
    ("architecture", .str args.architecture.text),
    ("dependencies", .list ((entries.mergeSort fun a b ↦ a.package ≤ b.package).map Entry.toValue))]

/-- The end of `main`. -/
def write_evidence (output : PurePath) (value : Value) : Evidencing Unit := do
  write (.mkdir (Generator.parent output))
  let content ← liftM (raising Raised.exn (Artifact.jsonContent python value))
  write (.write_text output content)

def main : Evidencing Unit := do
  liftM (checkDigest args)
  let lock ← liftM (raising Raised.exn (load_lock python tools args.lock))
  liftM (checkMode python args lock)
  let evidence ← gather python args lock.dependencies
  write_evidence python args.output (evidenceValue args evidence)

end Script

end Ros2ToolsAdapter.Evidence

import Ros2ToolsAdapter.Adapter.Error
import Ros2ToolsAdapter.Foundation.Throwing
import Ros2ToolsAdapter.Python.Files
import Ros2ToolsAdapter.Python.Json

/-!
# Build manifests

`xgc2_artifact_manifest.py`: `build` writes a manifest about the one Deb of a directory, and
`verify-build` looks in a tree of downloaded artifacts for the one manifest of the requested build,
checks the Deb it declares, and copies both out.

What the file system holds when the script starts is an argument. The script reads everything it
needs before its first write, and a write either happens or raises an `OSError`; `FileOp` are the
writes. `dpkg-deb` and the digest are the two `Tools` that are not under study.
-/

namespace Ros2ToolsAdapter.Artifact

open Interaction Python

/-- A command-line argument. -/
abbrev Argument := { t : Text // t.Decoded }

/-- The arguments of `add_identity_arguments`. -/
structure IdentityArguments where
  product : Argument
  expected_package : Argument
  product_version : Argument
  distribution : Argument
  architecture : Argument
  source_sha : Argument
  ci_run_id : Argument

structure BuildArguments extends IdentityArguments where
  deb_dir : Argument
  output_dir : Argument
  ci_workflow : Argument
  ci_workflow_ref : Argument

structure VerifyArguments extends IdentityArguments where
  deb_output_dir : Argument
  manifest_output_dir : Argument

structure Tools where
  /-- What `dpkg-deb --show` prints about a file: package, version and architecture. -/
  dpkgDeb : ByteArray → Except PyExn ByteArray
  sha256 : ByteArray → Vector UInt8 32

/-! ## Fields -/

def BUILD_SCHEMA : Text := "xgc2.build-artifact.v1"

def BUILD_FIELDS : List Text :=
  ["schema", "product", "version", "source_sha", "distribution", "architecture", "created_at", "ci",
    "debs"]

def CI_FIELDS : List Text := ["run_id", "workflow", "workflow_ref"]

def DEB_FIELDS : List Text := ["file", "package", "version", "architecture", "sha256", "size"]

/-- `raise ValueError(message)` where there is nothing to go on with. -/
def orRaise {α : Type} (x : Option α) (message : Text) : Except PyExn α :=
  match x with
  | some a => .ok a
  | none => .error (.valueError message)

/-- The element of a list of length one. -/
def only? {α : Type} : List α → Option α
  | [a] => some a
  | _ => none

/-! ## The Deb -/

/-- `str.splitlines` -/
def splitlines (t : Text) : List Text :=
  let breaks : List ℕ := [0x0A, 0x0B, 0x0C, 0x1C, 0x1D, 0x1E, 0x85, 0x2028, 0x2029]
  let lines := (universalNewlines false t).splitOnP fun c ↦ c ∈ breaks
  -- nothing follows the last line break
  if lines.getLast? = some [] then lines.dropLast else lines

/-- `hashlib`'s `hexdigest`. -/
def hexdigest (digest : Vector UInt8 32) : Text :=
  digest.toList.flatMap fun b ↦ [Json.hexDigit (b.toNat / 16), Json.hexDigit (b.toNat % 16)]

/-- The entry of a Deb in a manifest. -/
structure DebMetadata where
  file : Text
  package : Text
  version : Text
  architecture : Text
  sha256 : Text
  size : ℕ
  deriving DecidableEq

def DebMetadata.toValue (entry : DebMetadata) : Value :=
  .dict [("file", .str entry.file), ("package", .str entry.package),
    ("version", .str entry.version), ("architecture", .str entry.architecture),
    ("sha256", .str entry.sha256), ("size", .int entry.size)]

variable (python : Interpreter) (tools : Tools)

/-- Package, version and architecture, each on a line. -/
def debFields (stdout : Text) : Option (Text × Text × Text) :=
  match splitlines stdout with
  | [package, version, architecture] =>
    if package ≠ [] ∧ version ≠ [] ∧ architecture ≠ [] then some (package, version, architecture)
    else none
  | _ => none

def deb_metadata (path : PurePath) : Node → Except PyExn DebMetadata
  | .file content => do
    let stdout ← tools.dpkgDeb content
    let fields ← orRaise (debFields (← decodeUtf8 stdout))
      (("invalid Debian metadata: " : Text) ++ path.str)
    return {
      file := path.name
      package := fields.1
      version := fields.2.1
      architecture := fields.2.2
      sha256 := hexdigest (tools.sha256 content)
      size := content.size }
  -- dpkg-deb reads regular files only
  | _ => throw .calledProcessError

def SOURCE_SHA (t : Text) : Bool :=
  (t.length == 40 || t.length == 64) &&
    t.all fun c ↦ 0x30 ≤ c && c ≤ 0x39 || 0x61 ≤ c && c ≤ 0x66

def validate_identity (args : IdentityArguments) : Except PyExn Unit := do
  throwIf (args.product.1 ≠ "xgc2-ros2-tools-adapter")
    (PyExn.valueError "product identity is not xgc2-ros2-tools-adapter")
  throwIf (args.expected_package.1 ≠ "ros-jazzy-xgc2-ros2-tools-adapter")
    (PyExn.valueError "expected package identity is invalid")
  throwIf (args.distribution.1 ≠ "noble") (PyExn.valueError "distribution must be noble")
  throwIf (args.architecture.1 ≠ "amd64" ∧ args.architecture.1 ≠ "arm64")
    (PyExn.valueError "architecture must be amd64 or arm64")
  throwIf (SOURCE_SHA args.source_sha.1 = false)
    (PyExn.valueError "source SHA must be 40 or 64 lowercase hexadecimal characters")

def validated_deb (args : IdentityArguments) (path : PurePath) (node : Node) :
    Except PyExn DebMetadata := do
  let entry ← deb_metadata tools path node
  throwIf (entry.package ≠ args.expected_package.1)
    (PyExn.valueError (path.str ++ (": package identity mismatch" : Text)))
  throwIf (entry.version ≠ args.product_version.1)
    (PyExn.valueError (path.str ++ (": version mismatch" : Text)))
  throwIf (entry.architecture ≠ args.architecture.1 ∧ entry.architecture ≠ "all")
    (PyExn.valueError (path.str ++ (": architecture mismatch" : Text)))
  return entry

/-! ## Writes -/

/-- A write to the file system. -/
inductive FileOp
  | mkdir (directory : PurePath)
  | write_text (path : PurePath) (content : ByteArray)
  | replace (source target : PurePath)
  | copy2 (source target : PurePath)

/-- Programs that write; the answer is whether the write happened. -/
abbrev Writing := Proc PyExn FileOp (fun _ ↦ Bool)

def perform (op : FileOp) : Writing Unit :=
  Proc.attempt op id .osError

/-! ## create_build -/

/-- The manifest about a Deb. -/
def buildManifest (args : BuildArguments) (created_at : Argument) (deb : DebMetadata) : Value :=
  .dict [("schema", .str BUILD_SCHEMA), ("product", .str args.product.1),
    ("version", .str args.product_version.1), ("source_sha", .str args.source_sha.1),
    ("distribution", .str args.distribution.1), ("architecture", .str args.architecture.1),
    ("created_at", .str created_at.1),
    ("ci", .dict [("run_id", .str args.ci_run_id.1), ("workflow", .str args.ci_workflow.1),
      ("workflow_ref", .str args.ci_workflow_ref.1)]),
    ("debs", .list [deb.toValue])]

/-- The checks of `create_build`, up to its first write. -/
def checkedManifest (args : BuildArguments) (created_at : Argument) (debs : Tree) :
    Except PyExn Value := do
  validate_identity args.toIdentityArguments
  let found := sortEntries (debs.glob python "*.deb")
  let deb ← orRaise (only? found)
    (("expected exactly one Deb, found " : Text) ++ Text.decimal found.length)
  throwIf (args.ci_run_id.1 = [] ∨ args.ci_workflow.1 = [] ∨ args.ci_workflow_ref.1 = [])
    (PyExn.valueError "CI identity is incomplete")
  let path := (PurePath.ofText args.deb_dir.1).child deb.1
  return buildManifest args created_at (← validated_deb tools args.toIdentityArguments path deb.2)

/-- The content of a JSON file. -/
def jsonContent (value : Value) : Except PyExn ByteArray := do
  let t ← Json.Style.dumps python { ensure_ascii := true, sort_keys := true, indent := true } value
  encodeUtf8 (t ++ [0x0A])

/-- `write_json` into a directory. -/
def write_json (directory : PurePath) (name : Text) (value : Value) : Writing Unit := do
  perform (.mkdir directory)
  -- the suffix of the name is kept and another one added
  let temporary := directory.child [name ++ (".tmp" : Text)]
  let content ← liftM (jsonContent python value)
  perform (.write_text temporary content)
  perform (.replace temporary (directory.child [name]))

/-- The name of the file the manifest is written to. -/
def manifestName (args : IdentityArguments) : Text :=
  args.product.1 ++ ("_" : Text) ++ args.distribution.1 ++ ("_" : Text) ++ args.architecture.1 ++
    (".build.json" : Text)

/-- `create_build` at a given time, with the directory of Debs as it finds it. -/
def create_build (args : BuildArguments) (created_at : Argument) (debs : Tree) : Writing Unit := do
  let manifest ← liftM (checkedManifest python tools args created_at debs)
  write_json python (PurePath.ofText args.output_dir.1) (manifestName args.toIdentityArguments)
    manifest

/-! ## verify_build -/

/-- A directory and what is below it. -/
structure Directory where
  path : PurePath
  tree : Tree

section Verify

variable (args : IdentityArguments) (root : Directory)

/-- The manifest in a file, when its fields are exact and its schema is the supported one. -/
def readManifest (file : Entry) : Except PyExn (Record BUILD_FIELDS) := do
  let manifest_path := root.path.child file.1
  let manifest ← Json.loads python (← file.2.readText)
  let manifest ← orRaise (Record.ofValue? BUILD_FIELDS manifest)
    (("build manifest fields are not exact: " : Text) ++ manifest_path.str)
  throwIf (Value.eq python (manifest.get "schema") (.str BUILD_SCHEMA) = false)
    (PyExn.valueError (("unsupported build manifest schema: " : Text) ++ manifest_path.str))
  return manifest

/-- No expected value differs from the manifest's. -/
def sameIdentity (manifest : Record BUILD_FIELDS) : Bool :=
  Value.eq python (manifest.get "product") (.str args.product.1) &&
  Value.eq python (manifest.get "version") (.str args.product_version.1) &&
  Value.eq python (manifest.get "source_sha") (.str args.source_sha.1) &&
  Value.eq python (manifest.get "distribution") (.str args.distribution.1) &&
  Value.eq python (manifest.get "architecture") (.str args.architecture.1)

/-- The CI run the manifest names. -/
def readRunId (manifest_path : PurePath) (manifest : Record BUILD_FIELDS) : Except PyExn Text := do
  let message := ("CI identity is invalid: " : Text) ++ manifest_path.str
  let ci ← orRaise (Record.ofValue? CI_FIELDS (manifest.get "ci")) message
  throwIf (ci.1.all (fun entry ↦ entry.2.truth python) = false) (PyExn.valueError message)
  (ci.get "run_id").toStr python

/-- `isinstance(v, list) and len(v) == 1` -/
def onlyItem? : Value → Option Value
  | .list items => only? items
  | _ => none

/-- A string that is a file name of its own. -/
def filename? : Value → Option Text
  | .str s => if (PurePath.ofText s).name = s then some s else none
  | _ => none

def readFilename (declared : Record DEB_FIELDS) : Except PyExn Text :=
  match filename? (declared.get "file") with
  | some filename => .ok filename
  | none => do
    let shown ← python.repr (declared.get "file")
    throw (.valueError (("unsafe Deb filename: " : Text) ++ shown))

/-- The one file in the tree that bears the declared name, when it is the declared Deb. -/
def findDeb (manifest_path : PurePath) (manifest : Record BUILD_FIELDS) : Except PyExn Entry := do
  let entry ← orRaise (onlyItem? (manifest.get "debs"))
    (("manifest must contain exactly one Deb: " : Text) ++ manifest_path.str)
  let declared ← orRaise (Record.ofValue? DEB_FIELDS entry)
    (("Deb manifest fields are not exact: " : Text) ++ manifest_path.str)
  let filename ← readFilename python declared
  let named ← root.tree.rglob python filename
  let candidate ← orRaise (only? (sortEntries (named.filter fun file ↦ file.2.isFile)))
    (("expected exactly one artifact named " : Text) ++ filename)
  let actual ← validated_deb tools args (root.path.child candidate.1) candidate.2
  throwIf (Value.eq python actual.toValue declared.toValue = false)
    (PyExn.valueError (("Deb metadata or digest mismatch: " : Text) ++ filename))
  return candidate

/-- One round of the loop over the manifests; where the source has `continue`, nothing matches. -/
def matchManifest (file : Entry) : Except PyExn (Option (Entry × Entry)) := do
  let manifest_path := root.path.child file.1
  let manifest ← readManifest python root file
  if sameIdentity python args manifest then
    let run_id ← readRunId python manifest_path manifest
    if run_id = args.ci_run_id.1 then
      let candidate ← findDeb python tools args root manifest_path manifest
      return some (file, candidate)
    else return none
  else return none

def collectMatches : List Entry → Except PyExn (List (Entry × Entry))
  | [] => return []
  | file :: files => do
    let found ← matchManifest python tools args root file
    return found.toList ++ (← collectMatches files)

/-- The checks of `verify_build`, up to its first write: the directory, the manifest and its Deb. -/
def selectBuild (artifact_dir : Option Directory) : Except PyExn (Directory × Entry × Entry) := do
  validate_identity args
  match artifact_dir with
  | none => throw .osError
  | some root =>
    let files ← root.tree.rglob python "*.build.json"
    let found ← collectMatches python tools args root (sortEntries files)
    let selected ← orRaise (only? found)
      (("expected exactly one matching build manifest, found " : Text) ++
        Text.decimal found.length)
    return (root, selected)

end Verify

/-- `verify_build`, with the artifact directory it resolves to, if there is one. -/
def verify_build (args : VerifyArguments) (artifact_dir : Option Directory) : Writing Unit := do
  let selected ← liftM (selectBuild python tools args.toIdentityArguments artifact_dir)
  let manifest_path := selected.1.path.child selected.2.1.1
  let deb_path := selected.1.path.child selected.2.2.1
  let deb_output := PurePath.ofText args.deb_output_dir.1
  let manifest_output := PurePath.ofText args.manifest_output_dir.1
  perform (.mkdir deb_output)
  perform (.mkdir manifest_output)
  perform (.copy2 deb_path (deb_output.child [deb_path.name]))
  perform (.copy2 manifest_path (manifest_output.child [manifest_path.name]))

end Ros2ToolsAdapter.Artifact

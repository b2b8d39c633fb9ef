import Ros2ToolsAdapter.Foundation.Total
import Ros2ToolsAdapter.Generator.Agreement

/-!
# What the generators write

A manifest that is written is read back as it was built, and its digests are those a reader can
recompute from it (`DigestsHold`). The generator of manifests writes nothing before everything is
checked, and then fails at nothing but a write (`manifests_written`).
-/

namespace Ros2ToolsAdapter.Generator

open Interaction Python
open Artifact (Tools FileOp hexdigest)
open Except (bind_eq_ok)

variable {python : Interpreter} {tools : Tools}

/-! ## Digests -/

theorem foldl_chunks (content : ByteArray) (position : ℕ) (hasher : Hasher) :
    ((chunks content position).foldl Hasher.update hasher).data =
      hasher.data ++ content.extract position content.size := by
  induction position using chunks.induct content generalizing hasher with
  | case1 position chunk hempty =>
    have hend : content.size ≤ position := by
      simp only [chunk, ByteArray.size_extract] at hempty
      omega
    have hrest : content.extract position content.size = .empty := by
      rw [ByteArray.extract_eq_empty_iff]
      omega
    rw [chunks, if_pos hempty, hrest, List.foldl_nil, ByteArray.append_empty]
  | case2 position chunk hnonempty ih =>
    have hsize : chunk.size = min (position + 1024 * 1024) content.size - position :=
      ByteArray.size_extract
    -- the chunk ends where the next one begins, also at the end of the file
    have hchunk : chunk = content.extract position (position + chunk.size) := by
      simp only [chunk, ByteArray.ext_iff, ByteArray.data_extract, Array.extract_eq_extract_right,
        ByteArray.size_extract, ByteArray.size_data]
      omega
    have hnext : chunk ++ content.extract (position + chunk.size) content.size =
        content.extract position content.size := by
      conv_lhs => enter [1]; rw [hchunk]
      exact (ByteArray.extract_eq_extract_append_extract _ (by omega) (by omega)).symm
    rw [chunks, if_neg hnonempty, List.foldl_cons, ih, Hasher.update, ByteArray.append_assoc, hnext]

variable (tools) in
/-- Feeding a file by chunks comes to the same as digesting it whole. -/
theorem digest_file_eq (content : ByteArray) :
    digest_file tools content = digest_bytes tools content := by
  rw [digest_file, digest_bytes, foldl_chunks, ByteArray.extract_zero_size, ByteArray.empty_append]

/-! ## Reading it back -/

variable (python) in
/-- What is written is read as it was. -/
theorem manifestContent_ok {v : Value} (hv : v.all ascii short = true) (hkeyed : v.Keyed)
    (hdepth : v.depth ≤ python.recursionLimit) : ∃ content,
      manifestContent python v = .ok content ∧
        (Node.file content).readText >>= Json.loads python = .ok v := by
  obtain ⟨t, ht, hchars⟩ := dumps_ok python ⟨false, false, true⟩ hv
  have hline : ∀ c ∈ t ++ [0x0A], c = 0x0A ∨ 0x20 ≤ c ∧ c < 0x80 := by
    rw [List.forall_mem_append]
    exact ⟨hchars, by decide⟩
  obtain ⟨content, hcontent⟩ := encodeUtf8_eq_ok fun c hc ↦ by
    have := hline c hc
    omega
  have hreturn : 0x0D ∉ t ++ [0x0A] := fun hmem ↦ by
    have := hline 0x0D hmem
    omega
  refine ⟨content, bind_eq_ok.mpr ⟨t, ht, hcontent⟩, ?_⟩
  refine bind_eq_ok.mpr ⟨_, readText_encodeUtf8 hcontent hreturn, ?_⟩
  rw [Json.Style.loads_dumps python _ (fun c _ ↦ Json.Style.keeps_of_raw rfl c) hkeyed hv hdepth
    (by decide) ht, Json.Style.arrange_of_unsorted _ rfl]

private theorem within_processValue (ros_package ros_executable version : Text) :
    Json.Within 9 (processValue ros_package ros_executable version) := by
  refine ⟨?_, Nat.le_of_ble_eq_true rfl⟩
  simp [processValue, commandArgs, strings, Value.Keyed, Value.KeyedEntries, Value.KeyedItems,
    ofString_inj]

private theorem within_adapterValue (version buildDigest trustedManifestDigest : Text)
    (configuration : Reference) {publish call : CapabilityEntry} {value value' : EndpointEntry}
    (hpublish : publish.endpoints = [value]) (hcall : call.endpoints = [value']) :
    Json.Within 9 (adapterValue (definitionValue version buildDigest trustedManifestDigest
      configuration) [call, publish]) := by
  obtain ⟨_, _, _, _⟩ := publish
  obtain ⟨_, _, _, _⟩ := call
  obtain rfl := hpublish
  obtain rfl := hcall
  refine ⟨?_, Nat.le_of_ble_eq_true rfl⟩
  simp [adapterValue, definitionValue, capabilityManifest, CapabilityEntry.toValue,
    CapabilityEntry.refValue, EndpointEntry.toValue, Reference.toValue, LimitsEntry.toValue,
    strings, Value.Keyed, Value.KeyedEntries, Value.KeyedItems, ofString_inj]

/-! ## The digests -/

/-- The digest of a value is in a field of another. -/
def Digested (python : Interpreter) (tools : Tools) (holder : Value) (name : String)
    (value : Value) : Prop :=
  ∃ bytes, canonical_json python value = .ok bytes ∧
    textField holder name = some (digest_bytes tools bytes)

/-- A dictionary without one of its entries. -/
def without (name : String) : Value → Value
  | .dict entries => .dict (entries.filter fun entry ↦ entry.1 ≠ (name : Text))
  | v => v

/-- The digests in a manifest are those of the executable, of the manifest of the capabilities, and,
for each capability, of everything else in its contract. -/
def DigestsHold (python : Interpreter) (tools : Tools) (executable : ByteArray)
    (adapter : Value) : Prop :=
  ∃ entry definition manifest capabilities, listField adapter "adapters" = some [entry] ∧
    field entry "definition" = some definition ∧
    field entry "capabilityManifest" = some manifest ∧
    listField manifest "capabilities" = some capabilities ∧
    textField definition "buildDigest" = some (digest_bytes tools executable) ∧
    Digested python tools definition "trustedManifestDigest" manifest ∧
    ∀ capability ∈ capabilities,
      Digested python tools capability "contractDigest" (without "contractDigest" capability)

private theorem without_toValue (entry : CapabilityEntry) :
    without "contractDigest" entry.toValue = entry.body := by
  simp [without, CapabilityEntry.toValue, CapabilityEntry.body, ofString_inj]

theorem IsCapability.digested {capability_id : Text} {value : EndpointEntry}
    {entry : CapabilityEntry} (h : IsCapability python tools capability_id value entry) :
    Digested python tools entry.toValue "contractDigest"
      (without "contractDigest" entry.toValue) := by
  obtain ⟨bytes, hbytes, hdigest⟩ := h.contractDigest
  refine ⟨bytes, by rwa [without_toValue], ?_⟩
  simp [textField, CapabilityEntry.toValue, hdigest]

private theorem digestsHold_adapterValue {definition : Value} {contracts : List CapabilityEntry}
    {executable : ByteArray}
    (hbuild : textField definition "buildDigest" = some (digest_bytes tools executable))
    (htrusted : Digested python tools definition "trustedManifestDigest"
      (capabilityManifest contracts))
    (hcontracts : ∀ entry ∈ contracts, Digested python tools entry.toValue "contractDigest"
      (without "contractDigest" entry.toValue)) :
    DigestsHold python tools executable (adapterValue definition contracts) := by
  refine ⟨.dict [("definition", definition), ("capabilityManifest", capabilityManifest contracts)],
    definition, capabilityManifest contracts, contracts.map CapabilityEntry.toValue, ?_, ?_, ?_, ?_,
    hbuild, htrusted, List.forall_mem_map.mpr hcontracts⟩
  · simp [listField, adapterValue]
  · simp
  · simp
  · simp [listField, capabilityManifest]

/-! ## Runs of the generator -/

/-- Runs that make the calls in order, up to the first that fails. -/
inductive Attempted : List FileOp → Trace FileOp (fun _ ↦ Bool) → Except Raised Unit → Prop
  | done : Attempted [] [] (.ok ())
  | failed (op : FileOp) (ops : List FileOp) :
    Attempted (op :: ops) [⟨op, false⟩] (.error (.exn .osError))
  | next (op : FileOp) {ops : List FileOp} {run : Trace FileOp fun _ ↦ Bool}
    {result : Except Raised Unit} (h : Attempted ops run result) :
    Attempted (op :: ops) (⟨op, true⟩ :: run) result

theorem Attempted.append {ops ops' : List FileOp} {run run' : Trace FileOp fun _ ↦ Bool}
    {result : Except Raised Unit} (h : Attempted ops run (.ok ()))
    (h' : Attempted ops' run' result) : Attempted (ops ++ ops') (run ++ run') result := by
  generalize hresult : (Except.ok () : Except Raised Unit) = r at h
  induction h with
  | done => exact h'
  | failed op ops => cases hresult
  | next op _ ih => exact (ih hresult).next op

private theorem Attempted.of_error {ops : List FileOp} {run : Trace FileOp fun _ ↦ Bool}
    {e : Raised} (h : Attempted ops run (.error e)) (ops' : List FileOp) :
    Attempted (ops ++ ops') run (.error e) := by
  generalize hresult : (Except.error e : Except Raised Unit) = r at h
  induction h with
  | done => cases hresult
  | failed op ops => exact hresult ▸ .failed op (ops ++ ops')
  | next op _ ih => exact (ih hresult).next op

/-- A program that only attempts these calls. -/
def Attempts (p : Generating Unit) (ops : List FileOp) : Prop :=
  ∀ h, Proc.wp (fun _ _ ↦ True) p
    (fun h' _ ↦ ∃ run, h' = h ++ run ∧ Attempted ops run (.ok ()))
    (fun h' e ↦ ∃ run, h' = h ++ run ∧ Attempted ops run (.error e)) h

private theorem attempts_perform (op : FileOp) : Attempts (perform op) [op] := by
  intro h
  refine Proc.wp_attempt (fun _ ↦ trivial) ?_ ?_
  · rintro _ rfl
    exact ⟨[⟨op, true⟩], rfl, Attempted.done.next op⟩
  · rintro _ rfl
    exact ⟨[⟨op, false⟩], rfl, .failed op []⟩

theorem Attempts.bind {p q : Generating Unit} {ops ops' : List FileOp} (hp : Attempts p ops)
    (hq : Attempts q ops') : Attempts (p >>= fun _ ↦ q) (ops ++ ops') := by
  intro h
  rw [Proc.wp_bind]
  refine Proc.wp_mono ?_ ?_ (hp h)
  · rintro _ _ ⟨run, rfl, hrun⟩
    refine Proc.wp_mono ?_ ?_ (hq (h ++ run))
    · rintro _ _ ⟨run', rfl, hrun'⟩
      exact ⟨run ++ run', List.append_assoc .., hrun.append hrun'⟩
    · rintro _ e ⟨run', rfl, hrun'⟩
      exact ⟨run ++ run', List.append_assoc .., hrun.append hrun'⟩
  · rintro _ e ⟨run, rfl, hrun⟩
    exact ⟨run, rfl, hrun.of_error ops'⟩

private theorem write_json_eq {value : Value} {content : ByteArray}
    (h : manifestContent python value = .ok content) (path : PurePath) :
    write_json python path value =
      perform (.mkdir (parent path)) >>= fun _ ↦ perform (.write_text path content) := by
  rw [write_json, h]
  rfl

private theorem attempts_write_json {value : Value} {content : ByteArray}
    (h : manifestContent python value = .ok content) (path : PurePath) :
    Attempts (write_json python path value) [.mkdir (parent path), .write_text path content] := by
  rw [write_json_eq h]
  exact (attempts_perform _).bind (attempts_perform _)

private theorem main_eq {args : ManifestArguments} {adapter process : Value}
    (h : build_manifests python tools args = .ok (adapter, process))
    (adapter_output process_output : PurePath) :
    main python tools args adapter_output process_output =
      write_json python adapter_output adapter >>= fun _ ↦
        write_json python process_output process := by
  rw [main, h]
  rfl

/-- What is built can be written and read, and its digests hold. -/
theorem manifestContents_ok (hlimit : 9 ≤ python.recursionLimit) {args : ManifestArguments}
    {adapter process : Value}
    (h : build_manifests python tools args = .ok (adapter, process)) :
    ∃ executable content content', args.executable_node = some (.file executable) ∧
      DigestsHold python tools executable adapter ∧
      (manifestContent python adapter = .ok content ∧
        (Node.file content).readText >>= Json.loads python = .ok adapter) ∧
      (manifestContent python process = .ok content' ∧
        (Node.file content').readText >>= Json.loads python = .ok process) := by
  obtain ⟨executable, references, publish, call, trusted, hmade⟩ := build_manifests_spec h
  have hbuilt := hmade.built
  obtain rfl := hmade.adapter
  obtain rfl := hmade.process
  have hversionAll := all_of_rmatch over_semanticVersion hmade.version
  have hadapter := all_adapterValue (all_definitionValue hversionAll
    (digest_file_eq tools executable ▸ all_digest_bytes tools executable)
    (all_digest_bytes tools trusted) (hbuilt.referenced .configuration).all) hbuilt.all
  have hprocess := all_processValue (all_of_rmatch over_canonicalName hmade.ros_package)
    (all_of_rmatch over_canonicalName hmade.ros_executable) hversionAll
  have hadapterWithin := within_adapterValue args.version (digest_file tools executable)
    (digest_bytes tools trusted) (references .configuration) hbuilt.publish.endpoints
    hbuilt.call.endpoints
  have hprocessWithin := within_processValue args.ros_package args.ros_executable args.version
  obtain ⟨content, hcontent⟩ := manifestContent_ok python hadapter hadapterWithin.1
    (hadapterWithin.2.trans hlimit)
  obtain ⟨content', hcontent'⟩ := manifestContent_ok python hprocess hprocessWithin.1
    (hprocessWithin.2.trans hlimit)
  refine ⟨executable, content, content', hmade.executable_node, ?_, hcontent, hcontent'⟩
  refine digestsHold_adapterValue ?_ ⟨trusted, hmade.digested, ?_⟩ ?_
  · simp [textField, definitionValue, digest_file_eq]
  · simp [textField, definitionValue]
  · rw [List.forall_mem_cons, List.forall_mem_singleton]
    exact ⟨hbuilt.call.digested, hbuilt.publish.digested⟩

/-- **The generator of manifests writes what can be trusted, or nothing.** A run either raises what
building the manifests raised, without a call, or writes two files, one after the other, and stops
early only at a call that failed. What is in the files is read as what was built, and the digests in
it are those of the executable and of what else is in it. -/
theorem manifests_written (hlimit : 9 ≤ python.recursionLimit) (args : ManifestArguments)
    (adapter_output process_output : PurePath) (run : Trace FileOp fun _ ↦ Bool)
    (result : Except Raised Unit)
    (hrun : Prog.Returns (main python tools args adapter_output process_output).run run result) :
    (∃ e, build_manifests python tools args = .error e ∧ result = .error e ∧ run = []) ∨
      ∃ adapter process executable content content',
        build_manifests python tools args = .ok (adapter, process) ∧
        args.executable_node = some (.file executable) ∧
        Attempted [.mkdir (parent adapter_output), .write_text adapter_output content,
          .mkdir (parent process_output), .write_text process_output content'] run result ∧
        (Node.file content).readText >>= Json.loads python = .ok adapter ∧
        (Node.file content').readText >>= Json.loads python = .ok process ∧
        DigestsHold python tools executable adapter := by
  cases hmanifests : build_manifests python tools args with
  | error e =>
    have hwp : Proc.wp (fun _ _ ↦ True) (main python tools args adapter_output process_output)
        (fun _ _ ↦ False) (fun h e' ↦ e' = e ∧ h = []) [] := by
      rw [main, Proc.wp_bind, Proc.wp_lift, hmanifests]
      exact ⟨rfl, rfl⟩
    have hpost := Prog.wp_returns hwp hrun
    cases result with
    | ok _ => exact hpost.elim
    | error e' => exact Or.inl ⟨e, rfl, congrArg Except.error hpost.1, hpost.2⟩
  | ok manifests =>
    obtain ⟨adapter, process⟩ := manifests
    obtain ⟨executable, content, content', hexecutable, hdigests, ⟨hcontent, hread⟩, hcontent',
      hread'⟩ := manifestContents_ok hlimit hmanifests
    have hwp := (attempts_write_json hcontent adapter_output).bind
      (attempts_write_json hcontent' process_output) []
    rw [main_eq hmanifests] at hrun
    have hpost := Prog.wp_returns hwp hrun
    refine Or.inr ⟨adapter, process, executable, content, content', rfl, hexecutable, ?_, hread,
      hread', hdigests⟩
    cases result with
    | ok _ =>
      obtain ⟨_, rfl, hattempted⟩ := hpost
      exact hattempted
    | error e =>
      obtain ⟨_, rfl, hattempted⟩ := hpost
      exact hattempted

/-- A run in which every write happens. -/
theorem manifests_written_oneTitle : ∃ run,
    Prog.Returns (main Artifact.plainPython hashTools oneTitleArguments ⟨"/", ["a", "adapter.json"]⟩
      ⟨"/", ["p", "process.json"]⟩).run run (.ok ()) ∧
    ∃ adapter process executable content content',
      build_manifests Artifact.plainPython hashTools oneTitleArguments = .ok (adapter, process) ∧
      oneTitleArguments.executable_node = some (.file executable) ∧
      Attempted [.mkdir ⟨"/", ["a"]⟩, .write_text ⟨"/", ["a", "adapter.json"]⟩ content,
        .mkdir ⟨"/", ["p"]⟩, .write_text ⟨"/", ["p", "process.json"]⟩ content'] run (.ok ()) ∧
      (Node.file content).readText >>= Json.loads Artifact.plainPython = .ok adapter ∧
      (Node.file content').readText >>= Json.loads Artifact.plainPython = .ok process ∧
      DigestsHold Artifact.plainPython hashTools executable adapter := by
  obtain ⟨adapter, process, hmanifests⟩ := build_manifests_oneTitle
  obtain ⟨_, content, content', -, -, ⟨hcontent, -⟩, hcontent', -⟩ :=
    manifestContents_ok (by decide) hmanifests
  have hrun : Prog.Returns (main Artifact.plainPython hashTools oneTitleArguments
      ⟨"/", ["a", "adapter.json"]⟩ ⟨"/", ["p", "process.json"]⟩).run
      [⟨.mkdir ⟨"/", ["a"]⟩, true⟩, ⟨.write_text ⟨"/", ["a", "adapter.json"]⟩ content, true⟩,
        ⟨.mkdir ⟨"/", ["p"]⟩, true⟩, ⟨.write_text ⟨"/", ["p", "process.json"]⟩ content', true⟩]
      (.ok ()) := by
    rw [main_eq hmanifests, write_json_eq hcontent, write_json_eq hcontent']
    exact Proc.returns_bind (s := [_, _])
      (Proc.returns_bind (s := [_]) (Proc.returns_attempt rfl) (Proc.returns_attempt rfl))
      (Proc.returns_bind (s := [_]) (Proc.returns_attempt rfl) (Proc.returns_attempt rfl))
  refine ⟨_, hrun, ?_⟩
  rcases manifests_written (by decide) _ _ _ _ _ hrun with ⟨e, -, hresult, -⟩ | hwritten
  · cases hresult
  · exact hwritten

end Ros2ToolsAdapter.Generator

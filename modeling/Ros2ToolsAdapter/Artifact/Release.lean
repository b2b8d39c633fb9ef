import Ros2ToolsAdapter.Artifact.Verification
import Ros2ToolsAdapter.Python.JsonStyle

/-!
# What create_build writes, verify_build accepts

The manifest is written as a dictionary in the order of the source and read back in the order of its
keys, so the two sides meet in the values under each field (`manifestRecord`, `debRecord`). That the
reader finds the Deb again rests on its name: a name of Debian characters is a pattern for itself
and nothing else.
-/

namespace Ros2ToolsAdapter.Artifact

open Interaction Python
open Except (bind_eq_ok)

variable {python : Interpreter} {tools : Tools}

/-! ## What is written, as it is read back -/

def debRecord (deb : DebMetadata) : Record DEB_FIELDS :=
  ⟨[("file", .str deb.file), ("package", .str deb.package), ("version", .str deb.version),
    ("architecture", .str deb.architecture), ("sha256", .str deb.sha256), ("size", .int deb.size)],
    .of_map_fst rfl⟩

def ciRecord (args : BuildArguments) : Record CI_FIELDS :=
  ⟨[("run_id", .str args.ci_run_id.1), ("workflow", .str args.ci_workflow.1),
    ("workflow_ref", .str args.ci_workflow_ref.1)], .of_map_fst rfl⟩

def manifestRecord (args : BuildArguments) (created_at : Argument) (deb : DebMetadata) :
    Record BUILD_FIELDS :=
  ⟨[("schema", .str BUILD_SCHEMA), ("product", .str args.product.1),
    ("version", .str args.product_version.1), ("source_sha", .str args.source_sha.1),
    ("distribution", .str args.distribution.1), ("architecture", .str args.architecture.1),
    ("created_at", .str created_at.1), ("ci", (ciRecord args).toValue),
    ("debs", .list [(debRecord deb).toValue])], .of_map_fst rfl⟩

private theorem buildManifest_eq (args : BuildArguments) (created_at : Argument)
    (deb : DebMetadata) :
    buildManifest args created_at deb = (manifestRecord args created_at deb).toValue := rfl

/-- The texts of the entry are what `os.fsdecode` makes. -/
structure DebMetadata.Decoded (deb : DebMetadata) : Prop where
  file : deb.file.Decoded
  package : deb.package.Decoded
  version : deb.version.Decoded
  architecture : deb.architecture.Decoded
  sha256 : deb.sha256.Decoded

private theorem keyed_manifestRecord (args : BuildArguments) (created_at : Argument)
    (deb : DebMetadata) : (manifestRecord args created_at deb).toValue.Keyed := by
  have hci : (ciRecord args).toValue.Keyed := by
    refine ⟨?_, trivial, trivial, trivial, trivial⟩
    show CI_FIELDS.Nodup
    decide
  have hentry : (debRecord deb).toValue.Keyed := by
    refine ⟨?_, trivial, trivial, trivial, trivial, trivial, trivial, trivial⟩
    show DEB_FIELDS.Nodup
    decide
  refine ⟨?_, trivial, trivial, trivial, trivial, trivial, trivial, trivial, hci, ⟨hentry, trivial⟩,
    trivial⟩
  show BUILD_FIELDS.Nodup
  decide

private theorem all_manifestRecord (args : BuildArguments) (created_at : Argument)
    {deb : DebMetadata} (hdeb : deb.Decoded) :
    (manifestRecord args created_at deb).toValue.all Json.decodedChar (fun _ ↦ true) = true := by
  have hstr {t : Text} (ht : t.Decoded) := Json.all_decodedChar ht
  simp only [manifestRecord, ciRecord, debRecord, Record.toValue, Value.all, Value.allEntries,
    Value.allItems, Bool.and_eq_true, and_assoc, and_true]
  exact ⟨by decide, hstr (by decide : BUILD_SCHEMA.Decoded), by decide, hstr args.product.2,
    by decide, hstr args.product_version.2, by decide, hstr args.source_sha.2, by decide,
    hstr args.distribution.2, by decide, hstr args.architecture.2, by decide, hstr created_at.2,
    by decide, by decide, hstr args.ci_run_id.2, by decide, hstr args.ci_workflow.2, by decide,
    hstr args.ci_workflow_ref.2, by decide, by decide, hstr hdeb.file, by decide,
    hstr hdeb.package, by decide, hstr hdeb.version, by decide, hstr hdeb.architecture, by decide,
    hstr hdeb.sha256, by decide⟩

private theorem depth_manifestRecord (args : BuildArguments) (created_at : Argument)
    (deb : DebMetadata) : (manifestRecord args created_at deb).toValue.depth = 3 := rfl

section Created

variable {args : BuildArguments} {created_at : Argument} {deb : DebMetadata}

/-- What `write_json` puts into the file, and what is read from it. -/
theorem holds_created (hdeb : deb.Decoded) {bytes : ByteArray}
    (hbytes : jsonContent python (buildManifest args created_at deb) = .ok bytes)
    {path : List Text} :
    Holds python (path, .file bytes) (manifestRecord args created_at deb).sorted := by
  obtain ⟨t, ht, hencode⟩ := bind_eq_ok.mp hbytes
  rw [buildManifest_eq] at ht
  have hall := all_manifestRecord args created_at hdeb
  have hreturn : 0x0D ∉ t ++ [0x0A] := by
    intro hmem
    have hplain := Json.Plain.append (Json.Style.dumpsAt_plain python _ rfl hall ht)
      (by decide : Json.Plain [0x0A])
    exact absurd (hplain 0x0D hmem) (by decide)
  refine ⟨t ++ [0x0A], readText_encodeUtf8 hencode hreturn, ?_⟩
  have hdepth : (manifestRecord args created_at deb).toValue.depth ≤ python.recursionLimit := by
    rw [depth_manifestRecord]
    exact Nat.le_of_succ_le python.four_le_recursionLimit
  rw [Json.Style.loads_dumps python _ (Json.Style.keeps_of_decodedChar _)
    (keyed_manifestRecord args created_at deb) hall hdepth (by decide) ht,
    Json.Style.arrange_of_sorted _ rfl, Record.toValue_sorted]

/-- There is nothing in a manifest that cannot be written, but a size of thousands of digits. -/
theorem jsonContent_created (hdeb : deb.Decoded)
    (hsize : (Text.decimal deb.size).length ≤ 4300) :
    ∃ bytes, jsonContent python (buildManifest args created_at deb) = .ok bytes := by
  have hint : Text.ofInt deb.size = .ok (Text.decimal deb.size) := by
    rw [Text.ofInt, if_neg (by simpa using hsize)]
    simp
  obtain ⟨t, ht⟩ : ∃ t,
      Json.Style.dumps python ⟨true, true, true⟩ (buildManifest args created_at deb) = .ok t := by
    simp only [buildManifest, DebMetadata.toValue, Json.Style.dumps, Json.Style.dumpsAt,
      Json.Style.dumpsItems, Json.Style.dumpsEntries, hint, bind, Except.bind, pure, Except.pure]
    exact ⟨_, rfl⟩
  have hplain : Json.Plain (t ++ [0x0A]) := by
    rw [buildManifest_eq] at ht
    exact (Json.Style.dumpsAt_plain python _ rfl (all_manifestRecord args created_at hdeb)
      ht).append (by decide)
  obtain ⟨bytes, hbytes⟩ : ∃ bytes, encodeUtf8 (t ++ [0x0A]) = .ok bytes := by
    refine encodeUtf8_eq_ok fun c hc ↦ ?_
    rcases hplain c hc with rfl | ⟨-, hle⟩
    · decide
    · omega
  exact ⟨bytes, bind_eq_ok.mpr ⟨t, ht, hbytes⟩⟩

private theorem get_created {key : Text} (hkey : key ∈ BUILD_FIELDS) {s : Text}
    (h : (key, .str s) ∈ (manifestRecord args created_at deb).1) :
    (manifestRecord args created_at deb).sorted.get key hkey = .str s :=
  Record.get_sorted_str _ rfl (by decide) hkey h

private theorem get_ci_created : (manifestRecord args created_at deb).sorted.get "ci" =
    (ciRecord args).sorted.toValue := by
  rw [Record.toValue_sorted]
  exact Record.get_sorted_of_mem _ rfl (by decide) _ (by simp [manifestRecord])

private theorem get_debs_created : (manifestRecord args created_at deb).sorted.get "debs" =
    .list [(debRecord deb).sorted.toValue] := by
  rw [Record.toValue_sorted]
  exact Record.get_sorted_of_mem (v := .list [(debRecord deb).toValue]) _ rfl (by decide) _
    (by simp [manifestRecord])

private theorem readManifest_created {root : Directory} {file : Entry}
    (h : Holds python file (manifestRecord args created_at deb).sorted) :
    readManifest python root file = .ok (manifestRecord args created_at deb).sorted := by
  refine readManifest_eq_ok.mpr ⟨h, ?_⟩
  exact get_created (by decide) (by simp [manifestRecord])

private theorem sameIdentity_created : sameIdentity python args.toIdentityArguments
    (manifestRecord args created_at deb).sorted = true := by
  refine sameIdentity_iff.mpr ⟨?_, ?_, ?_, ?_, ?_⟩ <;>
    exact get_created (by decide) (by simp [manifestRecord])

private theorem readRunId_created (path : PurePath)
    (hci : args.ci_run_id.1 ≠ [] ∧ args.ci_workflow.1 ≠ [] ∧ args.ci_workflow_ref.1 ≠ []) :
    readRunId python path (manifestRecord args created_at deb).sorted = .ok args.ci_run_id.1 := by
  refine readRunId_eq_ok.mpr ⟨(ciRecord args).sorted, get_ci_created, ?_, ?_⟩
  · intro entry hentry
    have hmem : entry ∈ (ciRecord args).1 := List.mem_mergeSort.mp hentry
    simp only [ciRecord, List.mem_cons, List.not_mem_nil, or_false] at hmem
    rcases hmem with rfl | rfl | rfl <;> simp [Value.truth, hci]
  · have hrun : (ciRecord args).sorted.get "run_id" = .str args.ci_run_id.1 :=
      Record.get_sorted_str _ rfl (by decide) _ (by simp [ciRecord])
    rw [hrun]
    rfl

end Created

/-! ## The name of a Deb -/

/-- A character of a Debian package name, version or architecture. -/
def IsDebianChar (c : ℕ) : Prop :=
  (0x30 ≤ c ∧ c ≤ 0x39) ∨ (0x41 ≤ c ∧ c ≤ 0x5A) ∨ (0x61 ≤ c ∧ c ≤ 0x7A) ∨
    c ∈ (".+-~:" : Text)

instance (c : ℕ) : Decidable (IsDebianChar c) := inferInstanceAs (Decidable (_ ∨ _))

/-- The form `package_debs.sh` gives the name of a Deb. -/
def IsDebName (name : Text) : Prop :=
  ∃ package version architecture : Text,
    (∀ c ∈ package, IsDebianChar c) ∧ (∀ c ∈ version, IsDebianChar c) ∧
    (∀ c ∈ architecture, IsDebianChar c) ∧
    name = package ++ ("_" : Text) ++ version ++ ("_" : Text) ++ architecture ++ (".deb" : Text)

/-- A character of the name of a Deb stands for itself in a pattern, and does not end a name. -/
def IsNameChar (c : ℕ) : Prop := 0x2B ≤ c ∧ c ≤ 0x7E ∧ c ≠ 0x2F ∧ c ≠ 0x3F ∧ c ≠ 0x5B

instance (c : ℕ) : Decidable (IsNameChar c) := inferInstanceAs (Decidable (_ ∧ _))

theorem IsDebianChar.isNameChar {c : ℕ} (h : IsDebianChar c) : IsNameChar c := by
  have hother : ∀ c ∈ (".+-~:" : Text), IsNameChar c := by decide
  rcases h with h | h | h | h
  · rw [IsNameChar]
    omega
  · rw [IsNameChar]
    omega
  · rw [IsNameChar]
    omega
  · exact hother c h

namespace IsDebName

variable {name : Text}

theorem isNameChar (h : IsDebName name) : ∀ c ∈ name, IsNameChar c := by
  obtain ⟨package, version, architecture, hpackage, hversion, harchitecture, rfl⟩ := h
  have hline : ∀ c ∈ ("_" : Text), IsNameChar c := by decide
  have hsuffix : ∀ c ∈ (".deb" : Text), IsNameChar c := by decide
  intro c hc
  simp only [List.mem_append] at hc
  rcases hc with ((((hc | hc) | hc) | hc) | hc) | hc
  · exact (hpackage c hc).isNameChar
  · exact hline c hc
  · exact (hversion c hc).isNameChar
  · exact hline c hc
  · exact (harchitecture c hc).isNameChar
  · exact hsuffix c hc

theorem suffix (h : IsDebName name) : (".deb" : Text) <:+ name := by
  obtain ⟨package, version, architecture, -, -, -, rfl⟩ := h
  exact List.suffix_append _ _

private theorem ne_of_length_lt (h : IsDebName name) {t : Text} (ht : t.length < 4) : name ≠ t := by
  rintro rfl
  exact absurd h.suffix.length_le (not_le.mpr ht)

theorem plain (h : IsDebName name) : ∀ c ∈ name, c ≠ 0x2A ∧ c ≠ 0x3F ∧ c ≠ 0x5B := by
  intro c hc
  obtain ⟨hle, -, -, hany, hbracket⟩ := h.isNameChar c hc
  exact ⟨by omega, hany, hbracket⟩

theorem name_ofText (h : IsDebName name) : (PurePath.ofText name).name = name := by
  refine PurePath.name_ofText (fun hslash ↦ ?_) (h.ne_of_length_lt (by decide))
    (h.ne_of_length_lt (by decide))
  exact (h.isNameChar 0x2F hslash).2.2.1 rfl

private theorem decoded (h : IsDebName name) : name.Decoded := by
  intro c hc
  obtain ⟨-, hle, -⟩ := h.isNameChar c hc
  exact ⟨by omega, fun hhigh ↦ absurd hhigh.1 (by omega)⟩

end IsDebName

/-! ## The Deb is found again -/

private theorem findDeb_created {args : BuildArguments} {created_at : Argument} {root : Directory}
    {deb : DebMetadata} {path manifest_path : PurePath} {content : ByteArray} {file : Entry}
    (hname : IsDebName deb.file)
    (hvalid : validated_deb tools args.toIdentityArguments path (.file content) = .ok deb)
    (hfile : file.2 = .file content)
    (honly : ∀ file' : Entry, file' ∈ root.tree.entries ∧ file'.2.isFile = true ∧
      file'.name = deb.file ↔ file' = file) :
    findDeb python tools args.toIdentityArguments root manifest_path
      (manifestRecord args created_at deb).sorted = .ok file := by
  have hget {key : Text} (hkey : key ∈ DEB_FIELDS) {s : Text}
      (h : (key, .str s) ∈ (debRecord deb).1) : (debRecord deb).sorted.get key hkey = .str s :=
    Record.get_sorted_str _ rfl (by decide) hkey h
  have hsize : (debRecord deb).sorted.get "size" = .int deb.size :=
    Record.get_sorted_of_mem (v := .int deb.size) _ rfl (by decide) _ (by simp [debRecord])
  obtain ⟨hmem, hisFile, hfileName⟩ := (honly file).mpr rfl
  have hpath : (root.path.child file.1).name = deb.file := by
    rw [PurePath.name_child _ (root.tree.named file hmem).1]
    exact hfileName
  -- the name finds its own file, and no other
  obtain ⟨named, hnamed, hnodup, hfound⟩ := Tree.rglob_of_plain python root.tree hname.plain
    (hname.ne_of_length_lt (by decide)) (hname.ne_of_length_lt (by decide))
  have hone : sortEntries (named.filter fun file ↦ file.2.isFile) = [file] := by
    refine sortEntries_eq_singleton (hnodup.filter _) fun file' ↦ ?_
    rw [List.mem_filter, ← honly file']
    constructor
    · rintro ⟨hnamed', hisFile'⟩
      obtain ⟨hmem', hname'⟩ := (hfound file' hisFile').mp hnamed'
      exact ⟨hmem', hisFile', hname'⟩
    · rintro ⟨hmem', hisFile', hname'⟩
      exact ⟨(hfound file' hisFile').mpr ⟨hmem', hname'⟩, hisFile'⟩
  -- and the tools say of it what they said when the manifest was written
  have hagain : validated_deb tools args.toIdentityArguments (root.path.child file.1) file.2 =
      .ok deb := by
    obtain ⟨hmetadata, hchecks⟩ := validated_deb_eq_ok.mp hvalid
    obtain ⟨content', hcontent, hshows, -, hsha, hsize⟩ := deb_metadata_eq_ok.mp hmetadata
    obtain rfl := Node.file.inj hcontent
    refine validated_deb_eq_ok.mpr ⟨deb_metadata_eq_ok.mpr ?_, hchecks⟩
    exact ⟨content, hfile, hshows, hpath.symm, hsha, hsize⟩
  refine findDeb_eq_ok.mpr ⟨(debRecord deb).sorted, deb.file, named, deb, get_debs_created,
    ⟨hget (by decide) (by simp [debRecord]), hname.name_ofText⟩, hnamed, hone, hagain, ?_⟩
  refine toValue_eq_iff.mpr ⟨?_, ?_, ?_, ?_, ?_, ?_, ?_⟩
  · exact List.length_mergeSort _
  iterate 5 exact hget (by decide) (by simp [debRecord])
  · rw [hsize]
    simp [Value.eq]

/-! ## The loop over the manifests -/

section Loop

variable {args : IdentityArguments} {root : Directory}

private theorem collectMatches_of_none {files : List Entry}
    (hnone : ∀ file ∈ files, matchManifest python tools args root file = .ok none) :
    collectMatches python tools args root files = .ok [] := by
  induction files with
  | nil => rfl
  | cons file files ih =>
    rw [List.forall_mem_cons] at hnone
    simp only [collectMatches, hnone.1, ih hnone.2, bind, Except.bind]
    rfl

private theorem collectMatches_of_one {files : List Entry} (hnodup : files.Nodup) {file : Entry}
    (hmem : file ∈ files) {p : Entry × Entry}
    (hone : matchManifest python tools args root file = .ok (some p))
    (hothers : ∀ file' ∈ files, file' ≠ file →
      matchManifest python tools args root file' = .ok none) :
    collectMatches python tools args root files = .ok [p] := by
  induction files with
  | nil => cases hmem
  | cons first files ih =>
    rw [List.nodup_cons] at hnodup
    rw [List.forall_mem_cons] at hothers
    by_cases hfirst : first = file
    · subst hfirst
      have hrest : collectMatches python tools args root files = .ok [] := by
        refine collectMatches_of_none fun file' hfile' ↦ hothers.2 file' hfile' ?_
        rintro rfl
        exact hnodup.1 hfile'
      simp only [collectMatches, hone, hrest, bind, Except.bind]
      rfl
    · have hrest := (List.mem_cons.mp hmem).resolve_left (Ne.symm hfirst)
      simp only [collectMatches, hothers.1 hfirst, ih hnodup.2 hrest hothers.2, bind, Except.bind]
      rfl

private theorem selectBuild_of_one (hidentity : validate_identity args = .ok ())
    {manifest deb : Entry} (hmanifest : IsManifest root manifest)
    (hone : matchManifest python tools args root manifest = .ok (some (manifest, deb)))
    (hothers : ∀ file, IsManifest root file → file ≠ manifest →
      matchManifest python tools args root file = .ok none) :
    selectBuild python tools args (some root) = .ok (root, manifest, deb) := by
  have hnodup : (sortEntries (root.tree.entries.filter fun file ↦
      fnmatch python file.name "*.build.json")).Nodup :=
    (List.mergeSort_perm _ _).nodup_iff.mpr (root.tree.nodup_entries.filter _)
  have hcollect := collectMatches_of_one hnodup (mem_sortEntries_manifests.mpr hmanifest) hone
    fun file hfile ↦ hothers file (mem_sortEntries_manifests.mp hfile)
  simp only [selectBuild, hidentity, rglob_manifests, hcollect, bind, Except.bind]
  rfl

end Loop

/-! ## What create_build has done when it returns -/

theorem checkedManifest_eq_ok {args : BuildArguments} {created_at : Argument} {debs : Tree}
    {manifest : Value} :
    checkedManifest python tools args created_at debs = .ok manifest ↔
      validate_identity args.toIdentityArguments = .ok () ∧ ∃ file,
        sortEntries (debs.glob python "*.deb") = [file] ∧
        (args.ci_run_id.1 ≠ [] ∧ args.ci_workflow.1 ≠ [] ∧ args.ci_workflow_ref.1 ≠ []) ∧
        ∃ deb, validated_deb tools args.toIdentityArguments
            ((PurePath.ofText args.deb_dir.1).child file.1) file.2 = .ok deb ∧
          manifest = buildManifest args created_at deb := by
  simp only [checkedManifest, bind_eq_ok, orRaise_eq_ok, only?_eq_some, throwIf_eq_ok, not_or]
  constructor
  · rintro ⟨⟨⟩, hidentity, file, hfile, -, hci, deb, hdeb, hret⟩
    cases hret
    exact ⟨hidentity, file, hfile, hci, deb, hdeb, rfl⟩
  · rintro ⟨hidentity, file, hfile, hci, deb, hdeb, rfl⟩
    exact ⟨(), hidentity, file, hfile, (), hci, deb, hdeb, rfl⟩

/-- What `create_build` writes: a file beside the manifest, which then takes its place. -/
def writes (args : BuildArguments) (content : ByteArray) : List FileOp :=
  let directory := PurePath.ofText args.output_dir.1
  let name := manifestName args.toIdentityArguments
  let temporary := directory.child [name ++ (".tmp" : Text)]
  [.mkdir directory, .write_text temporary content, .replace temporary (directory.child [name])]

private theorem create_build_eq {args : BuildArguments} {created_at : Argument} {debs : Tree}
    {manifest : Value} {bytes : ByteArray}
    (hmanifest : checkedManifest python tools args created_at debs = .ok manifest)
    (hbytes : jsonContent python manifest = .ok bytes) :
    create_build python tools args created_at debs = performAll (writes args bytes) := by
  rw [create_build, hmanifest, writes, performAll, performAll, performAll_singleton]
  show write_json python _ _ manifest = _
  rw [write_json, hbytes]
  rfl

/-- The only text `create_build` writes is the manifest. -/
theorem create_build_wp (args : BuildArguments) (created_at : Argument) (debs : Tree) :
    Proc.wp (fun _ _ ↦ True) (create_build python tools args created_at debs)
      (fun h _ ↦ ∃ manifest bytes, checkedManifest python tools args created_at debs =
          .ok manifest ∧ jsonContent python manifest = .ok bytes ∧
        ∀ path content, FileOp.write_text path content ∈ h.map Event.op → content = bytes)
      (fun _ _ ↦ True) [] := by
  rw [create_build, Proc.wp_bind, Proc.wp_lift]
  cases hmanifest : checkedManifest python tools args created_at debs with
  | error e => trivial
  | ok manifest =>
    show Proc.wp _ (write_json python _ _ manifest) _ _ []
    rw [write_json, Proc.wp_bind]
    refine perform_wp ?_ trivial
    rw [Proc.wp_bind, Proc.wp_lift]
    cases hbytes : jsonContent python manifest with
    | error e => trivial
    | ok bytes =>
      show Proc.wp _ (_ >>= _) _ _ _
      rw [Proc.wp_bind]
      refine perform_wp (perform_wp ?_ trivial) trivial
      refine ⟨manifest, bytes, rfl, hbytes, fun path content hmem ↦ ?_⟩
      simp only [List.nil_append, List.cons_append, List.map_cons, List.map_nil, List.mem_cons,
        List.not_mem_nil, FileOp.write_text.injEq, reduceCtorEq, or_false, false_or] at hmem
      exact hmem.2

/-! ## What was written is accepted -/

/-- A manifest as `create_build` writes them, of whatever build. -/
structure WellFormed (python : Interpreter) (manifest : Record BUILD_FIELDS) : Prop where
  schema : manifest.get "schema" = .str BUILD_SCHEMA
  ci : ∃ ci : Record CI_FIELDS, manifest.get "ci" = ci.toValue ∧
    (∀ entry ∈ ci.1, entry.2.truth python = true) ∧
    ∃ run_id, (ci.get "run_id").toStr python = .ok run_id

/-- The tree holds a written manifest and its Deb, and nothing that could be taken for them. -/
structure Published (python : Interpreter) (args : IdentityArguments) (root : Directory)
    (written : ByteArray) (name : Text) (content : ByteArray) (manifest deb : Entry) : Prop where
  isManifest : IsManifest root manifest
  written : manifest.2 = .file written
  /-- Every other manifest is about another build. -/
  others : ∀ file, IsManifest root file → file ≠ manifest →
    ∃ m, Holds python file m ∧ WellFormed python m ∧ ¬Requested python args m
  content : deb.2 = .file content
  /-- No other file bears the name of the Deb. -/
  only : ∀ file : Entry, file ∈ root.tree.entries ∧ file.2.isFile = true ∧ file.name = name ↔
    file = deb

/-- A manifest of another build is passed over. -/
theorem matchManifest_other {args : IdentityArguments} {root : Directory} {file : Entry}
    {m : Record BUILD_FIELDS} (hholds : Holds python file m) (hm : WellFormed python m)
    (hother : ¬Requested python args m) :
    matchManifest python tools args root file = .ok none := by
  refine matchManifest_eq_none.mpr ⟨m, readManifest_eq_ok.mpr ⟨hholds, hm.schema⟩, fun hsame ↦ ?_⟩
  obtain ⟨ci, hci, htruth, run_id, hrun⟩ := hm.ci
  refine ⟨run_id, readRunId_eq_ok.mpr ⟨ci, hci, htruth, hrun⟩, ?_⟩
  rintro rfl
  obtain ⟨hproduct, hversion, hsha, hdistribution, harchitecture⟩ := sameIdentity_iff.mp hsame
  exact hother ⟨hproduct, hversion, hsha, hdistribution, harchitecture, ci, hci, hrun⟩

private theorem decoded_hexdigest (digest : Vector UInt8 32) : (hexdigest digest).Decoded := by
  have hall : ∀ d < 16, Json.hexDigit d < 0xD800 := by decide
  have hdecoded (d : ℕ) (hd : d < 16) :
      Json.hexDigit d < 0x110000 ∧ ¬Text.HighSurrogate (Json.hexDigit d) := by
    have hlt := hall d hd
    exact ⟨by omega, fun hhigh ↦ absurd hhigh.1 (by omega)⟩
  intro c hc
  obtain ⟨b, -, hc⟩ := List.mem_flatMap.mp hc
  have hb := b.toNat_lt
  rcases List.mem_pair.mp hc with rfl | rfl
  · exact hdecoded _ (by omega)
  · exact hdecoded _ (by omega)

/-- The build that was written is the one that is selected. -/
theorem selectBuild_created {args : BuildArguments} {created_at : Argument} {debs : Tree}
    {written : Value} {bytes : ByteArray}
    (hwritten : checkedManifest python tools args created_at debs = .ok written)
    (hbytes : jsonContent python written = .ok bytes) {name : Text} {content : ByteArray}
    (hmem : ([name], .file content) ∈ debs.entries) (hname : IsDebName name) {root : Directory}
    {manifest deb : Entry}
    (hpublished : Published python args.toIdentityArguments root bytes name content manifest deb) :
    selectBuild python tools args.toIdentityArguments (some root) = .ok (root, manifest, deb) := by
  obtain ⟨hidentity, file, hfile, hci, metadata, hvalid, rfl⟩ := checkedManifest_eq_ok.mp hwritten
  -- the Deb of the directory is the one with the name
  have hglob : ([name], .file content) ∈ debs.glob python "*.deb" := by
    have hmatch : fnmatch python name "*.deb" = true :=
      (fnmatch_star python (by decide)).mpr hname.suffix
    exact List.mem_filter.mpr ⟨hmem, by simpa [Entry.name] using hmatch⟩
  obtain rfl := (only_of_sortEntries hfile _).mp hglob
  obtain ⟨hmetadata, hpackage, hversion, harchitecture⟩ := validated_deb_eq_ok.mp hvalid
  obtain ⟨_, -, -, hmetadataFile, hsha, -⟩ := deb_metadata_eq_ok.mp hmetadata
  have hmetadataName : metadata.file = name := by
    rw [hmetadataFile, PurePath.name_child _ (by simp)]
    rfl
  have hdecoded : metadata.Decoded := by
    refine ⟨?_, ?_, ?_, ?_, ?_⟩
    · rw [hmetadataName]
      exact hname.decoded
    · rw [hpackage]
      exact args.expected_package.2
    · rw [hversion]
      exact args.product_version.2
    · rcases harchitecture with harch | harch
      · rw [harch]
        exact args.architecture.2
      · rw [harch]
        decide
    · rw [hsha]
      exact decoded_hexdigest _
  have hholds : Holds python manifest (manifestRecord args created_at metadata).sorted := by
    have heq : manifest = (manifest.1, .file bytes) := Prod.ext rfl hpublished.written
    rw [heq]
    exact holds_created hdecoded hbytes
  refine selectBuild_of_one hidentity hpublished.isManifest ?_ ?_
  · refine matchManifest_eq_some.mpr ⟨rfl, _, readManifest_created hholds, sameIdentity_created,
      readRunId_created _ hci, findDeb_created ?_ hvalid hpublished.content ?_⟩
    · rw [hmetadataName]
      exact hname
    · rw [hmetadataName]
      exact hpublished.only
  · intro file hmanifest hne
    obtain ⟨m, hm, hwell, hother⟩ := hpublished.others file hmanifest hne
    exact matchManifest_other hm hwell hother

/-- **Acceptance.** A build that `create_build` has written is verified, and copied out. -/
theorem verify_build_created {args : BuildArguments} {verify : VerifyArguments}
    (hidentity : verify.toIdentityArguments = args.toIdentityArguments) {created_at : Argument}
    {debs : Tree} {run : Trace FileOp fun _ ↦ Bool}
    (hrun : Prog.Returns (create_build python tools args created_at debs).run run (.ok ()))
    {path : PurePath} {written : ByteArray}
    (hwritten : FileOp.write_text path written ∈ run.map Event.op) {name : Text}
    {content : ByteArray} (hmem : ([name], .file content) ∈ debs.entries) (hname : IsDebName name)
    {root : Directory} {manifest deb : Entry}
    (hpublished :
      Published python args.toIdentityArguments root written name content manifest deb) :
    Prog.Returns (verify_build python tools verify (some root)).run
      ((copies verify root manifest deb).map fun op ↦ ⟨op, true⟩) (.ok ()) ∧
    ∀ run' result, Prog.Returns (verify_build python tools verify (some root)).run run' result →
      (∀ event ∈ run', event.answer = true) →
      result = .ok () ∧ run'.map Event.op = copies verify root manifest deb := by
  obtain ⟨value, bytes, hvalue, hbytes, honly⟩ :=
    Prog.wp_returns (create_build_wp args created_at debs) hrun
  obtain rfl := honly path written hwritten
  have hselect := selectBuild_created hvalue hbytes hmem hname hpublished
  rw [← hidentity] at hselect
  rw [verify_build_eq hselect]
  refine ⟨performAll_returns _, fun run' result hrun' hdone ↦ ?_⟩
  have hpost := Prog.wp_returns (performAll_wp _ []) hrun'
  cases result with
  | ok u =>
    obtain rfl := hpost
    exact ⟨rfl, by simp [allDone, Function.comp_def]⟩
  | error e =>
    obtain ⟨-, done, failed, rest, -, rfl⟩ := hpost
    exact Bool.noConfusion (hdone ⟨failed, false⟩ (by simp))

/-! ## A build -/

/-- The last so many bytes of a number, the most significant first. -/
def bigEndian : ℕ → ℕ → List UInt8
  | 0, _ => []
  | count + 1, n => bigEndian count (n / 256) ++ [.ofNat (n % 256)]

/-- A package without files. -/
@[irreducible] def emptyDeb : ByteArray := ⟨(List.flatMap (bigEndian 42) [
  0x213c617263683e0a64656269616e2d62696e617279202020302020202020202020202020302020202020,
  0x302020202020313030363434202034202020202020202020600a322e300a636f6e74726f6c2e7461722e,
  0x677a20203020202020202020202020203020202020203020202020203130303634342020313535202020,
  0x20202020600a1f8b0800000000000203edcd310ec2300c05d0cc39452fe09044512a75e3064cec561a95,
  0x426990e34ad0d313c180c40e12226ff9fe1e6cb50969664a93f81c5d78e71e59bca736f6353ff7ad6bbd,
  0x68b4f8822533527929fed30ec30987d83594321c715d6f701d8285522d704a5306ecf1c291e43e521ed3,
  0xdc355a19a5c1c82d85c3c831f042e5009e7befa4a8aaaaaa7ec21da9996fa0000800000a646174612e74,
  0x61722e677a20202020203020202020202020202020203020202020203020202020203130303634342020,
  0x32392020202020202020600a1f8b080000000000020363601805a360148c5400002eafb5ef000400000a]).toArray⟩

/-- What `dpkg-deb` prints about it. -/
def emptyDebShown : String := "ros-jazzy-xgc2-ros2-tools-adapter\n0.1.0-1\namd64\n"

/-- What the tools say about it. -/
def emptyDebTools : Tools where
  dpkgDeb content :=
    if content.data = emptyDeb.data then .ok emptyDebShown.toByteArray
    else .error .calledProcessError
  sha256 content :=
    if content.data = emptyDeb.data then
      ⟨(bigEndian 32 0x44edd235f0ebea3a08664da6220a6dd8d508eeb31f670c27a399283e47a74e43).toArray,
        by decide⟩
    else .replicate 32 0

def plainPython : Interpreter where
  recursionLimit := 1000
  four_le_recursionLimit := by decide
  floatEq := (· == ·)
  floatEqInt _ _ := false
  floatTruth _ := true
  floatRepr := id
  strOf _ := .ok []
  repr _ := .ok []
  bracket _ _ := false

def releaseIdentity : IdentityArguments where
  product := ⟨"xgc2-ros2-tools-adapter", by decide⟩
  expected_package := ⟨"ros-jazzy-xgc2-ros2-tools-adapter", by decide⟩
  product_version := ⟨"0.1.0-1", by decide⟩
  distribution := ⟨"noble", by decide⟩
  architecture := ⟨"amd64", by decide⟩
  source_sha := ⟨List.replicate 40 0x31, by decide⟩
  ci_run_id := ⟨"12345", by decide⟩

def releaseBuild : BuildArguments where
  toIdentityArguments := releaseIdentity
  deb_dir := ⟨"debs", by decide⟩
  output_dir := ⟨"manifests", by decide⟩
  ci_workflow := ⟨"ci", by decide⟩
  ci_workflow_ref := ⟨"repo/.github/workflows/ci.yml@refs/heads/jazzy", by decide⟩

def releaseVerify : VerifyArguments where
  toIdentityArguments := releaseIdentity
  deb_output_dir := ⟨"verified/debs", by decide⟩
  manifest_output_dir := ⟨"verified/manifests", by decide⟩

def releaseTime : Argument := ⟨"2026-01-01T00:00:00Z", by decide⟩

def releaseName : Text := "ros-jazzy-xgc2-ros2-tools-adapter_0.1.0-1_amd64.deb"

def releaseDebs : Tree where
  entries := [([releaseName], .file emptyDeb)]
  nodup := by simp
  named := by simp [releaseName]; decide
  parents := by simp

def releaseMetadata : DebMetadata where
  file := releaseName
  package := "ros-jazzy-xgc2-ros2-tools-adapter"
  version := "0.1.0-1"
  architecture := "amd64"
  sha256 := hexdigest (emptyDebTools.sha256 emptyDeb)
  size := emptyDeb.size

/-- The file `create_build` leaves. -/
def releaseWritten : ByteArray :=
  match jsonContent plainPython (buildManifest releaseBuild releaseTime releaseMetadata) with
  | .ok bytes => bytes
  | .error _ => .empty

def releaseManifest : Entry := (["manifests", "build.build.json"], .file releaseWritten)

def releaseDeb : Entry := (["debs", releaseName], .file emptyDeb)

/-- The artifacts as they are downloaded. -/
def releaseRoot : Directory where
  path := ⟨"/", ["artifacts"]⟩
  tree := {
    entries := [(["debs"], .directory), (["manifests"], .directory), releaseDeb, releaseManifest]
    nodup := by decide
    named := by decide
    parents := by simp [releaseDeb, releaseManifest] }

private theorem isDebName_releaseName : IsDebName releaseName :=
  ⟨"ros-jazzy-xgc2-ros2-tools-adapter", "0.1.0-1", "amd64", by decide, by decide, by decide,
    by decide⟩

private theorem checkedManifest_release :
    checkedManifest plainPython emptyDebTools releaseBuild releaseTime releaseDebs =
      .ok (buildManifest releaseBuild releaseTime releaseMetadata) := by
  have hfile : sortEntries (releaseDebs.glob plainPython "*.deb") =
      [([releaseName], .file emptyDeb)] := by
    refine sortEntries_eq_singleton (releaseDebs.nodup_entries.filter _) fun file ↦ ?_
    constructor
    · intro hmem
      exact List.mem_singleton.mp (List.mem_of_mem_filter hmem)
    · rintro rfl
      exact List.mem_filter.mpr ⟨List.mem_singleton_self _, by decide⟩
  have hshows : Shows emptyDebTools emptyDeb "ros-jazzy-xgc2-ros2-tools-adapter" "0.1.0-1"
      "amd64" :=
    ⟨emptyDebShown.toByteArray, emptyDebShown, by simp only [emptyDebTools, if_true],
      decodeUtf8_toByteArray emptyDebShown, by decide⟩
  have hmetadata : deb_metadata emptyDebTools
      ((PurePath.ofText releaseBuild.deb_dir.1).child [releaseName]) (.file emptyDeb) =
        .ok releaseMetadata :=
    deb_metadata_eq_ok.mpr ⟨emptyDeb, rfl, hshows, by decide, by simp only [releaseMetadata],
      by simp only [releaseMetadata]⟩
  refine checkedManifest_eq_ok.mpr ⟨rfl, _, hfile, by decide, releaseMetadata, ?_, rfl⟩
  exact validated_deb_eq_ok.mpr ⟨hmetadata, by decide, by decide, Or.inl (by decide)⟩

private theorem jsonContent_release :
    jsonContent plainPython (buildManifest releaseBuild releaseTime releaseMetadata) =
      .ok releaseWritten := by
  have hdecoded : releaseMetadata.Decoded := by
    refine ⟨by decide, by decide, by decide, by decide, ?_⟩
    rw [releaseMetadata]
    exact decoded_hexdigest _
  have hsize : (Text.decimal releaseMetadata.size).length ≤ 4300 := by decide +kernel
  obtain ⟨bytes, hbytes⟩ := @jsonContent_created plainPython releaseBuild releaseTime
    releaseMetadata hdecoded hsize
  rw [releaseWritten, hbytes]

private theorem published_release : Published plainPython releaseIdentity releaseRoot releaseWritten
    releaseName emptyDeb releaseManifest releaseDeb where
  isManifest := by
    refine ⟨?_, by decide⟩
    simp [releaseRoot]
  written := rfl
  others := by
    rintro file ⟨hmem, hsuffix⟩ hne
    simp only [releaseRoot, List.mem_cons, List.not_mem_nil, or_false] at hmem
    rcases hmem with rfl | rfl | rfl | rfl
    · exact absurd hsuffix (by decide)
    · exact absurd hsuffix (by decide)
    · exact absurd hsuffix (by decide)
    · exact absurd rfl hne
  content := rfl
  only := by
    intro file
    constructor
    · rintro ⟨hmem, hfile, hname⟩
      simp only [releaseRoot, List.mem_cons, List.not_mem_nil, or_false] at hmem
      rcases hmem with rfl | rfl | rfl | rfl
      · cases hfile
      · cases hfile
      · rfl
      · exact absurd hname (by decide)
    · rintro rfl
      refine ⟨?_, rfl, by decide⟩
      simp [releaseRoot]

private theorem create_build_release :
    Prog.Returns (create_build plainPython emptyDebTools releaseBuild releaseTime releaseDebs).run
      ((writes releaseBuild releaseWritten).map fun op ↦ ⟨op, true⟩) (.ok ()) := by
  rw [create_build_eq checkedManifest_release jsonContent_release]
  exact performAll_returns _

theorem verify_build_created_release : Prog.Returns
    (verify_build plainPython emptyDebTools releaseVerify (some releaseRoot)).run
    ((copies releaseVerify releaseRoot releaseManifest releaseDeb).map fun op ↦ ⟨op, true⟩)
    (.ok ()) :=
  (verify_build_created rfl create_build_release
    (by rw [List.map_map]; exact List.mem_cons_of_mem _ List.mem_cons_self)
    (List.mem_singleton_self _) isDebName_releaseName published_release).1

private theorem verify_build_release : Prog.Returns
    (verify_build plainPython emptyDebTools releaseVerify (some releaseRoot)).run
    ((copies releaseVerify releaseRoot releaseManifest releaseDeb).map fun op ↦ ⟨op, true⟩)
    (.ok ()) := by
  have hselect : selectBuild plainPython emptyDebTools releaseIdentity (some releaseRoot) =
      .ok (releaseRoot, releaseManifest, releaseDeb) :=
    selectBuild_created checkedManifest_release jsonContent_release (List.mem_singleton_self _)
      isDebName_releaseName published_release
  rw [verify_build_eq hselect]
  exact performAll_returns _

theorem verify_build_sound_release : ∃ root manifest deb, some releaseRoot = some root ∧
    Verified plainPython emptyDebTools releaseIdentity root manifest deb ∧
    allDone (copies releaseVerify releaseRoot releaseManifest releaseDeb) =
      allDone (copies releaseVerify root manifest deb) :=
  (verify_build_sound verify_build_release).1 rfl

end Ros2ToolsAdapter.Artifact

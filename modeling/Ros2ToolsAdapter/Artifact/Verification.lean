import Ros2ToolsAdapter.Artifact.Manifest

/-!
# What verify_build establishes

When `verify_build` returns, exactly one manifest of the tree is about the requested build, and
exactly one file bears the name of the Deb it declares, is that Deb, and is the package that was
asked for; these two are what was copied, and both copies were made. When it raises anything but an
`OSError`, nothing has been written.

The declared name is used as a pattern, and may match any number of other names. What makes it safe
is that the one file that matched has to bear it: then every other file of that name matches too.
-/

namespace Ros2ToolsAdapter.Artifact

open Interaction Python
open Except (bind_eq_ok)

variable {python : Interpreter} {tools : Tools} {args : IdentityArguments} {root : Directory}

theorem orRaise_eq_ok {α : Type} {x : Option α} {message : Text} {a : α} :
    orRaise x message = .ok a ↔ x = some a := by
  cases x <;> simp [orRaise]

theorem only?_eq_some {α : Type} {xs : List α} {a : α} : only? xs = some a ↔ xs = [a] := by
  rcases xs with _ | ⟨x, _ | ⟨y, xs⟩⟩ <;> simp [only?]

/-! ## The Deb -/

/-- What `dpkg-deb` says of a file. -/
def Shows (tools : Tools) (content : ByteArray) (package version architecture : Text) : Prop :=
  ∃ stdout t, tools.dpkgDeb content = .ok stdout ∧ decodeUtf8 stdout = .ok t ∧
    debFields t = some (package, version, architecture)

theorem deb_metadata_eq_ok {path : PurePath} {node : Node} {entry : DebMetadata} :
    deb_metadata tools path node = .ok entry ↔ ∃ content, node = .file content ∧
      Shows tools content entry.package entry.version entry.architecture ∧
      entry.file = path.name ∧ entry.sha256 = hexdigest (tools.sha256 content) ∧
      entry.size = content.size := by
  constructor
  · intro h
    cases node with
    | file content =>
      simp only [deb_metadata, bind_eq_ok, orRaise_eq_ok] at h
      obtain ⟨stdout, hstdout, t, ht, fields, hfields, heq⟩ := h
      cases heq
      exact ⟨content, rfl, ⟨stdout, t, hstdout, ht, hfields⟩, rfl, rfl, rfl⟩
    | directory => cases h
    | special => cases h
  · rintro ⟨content, rfl, ⟨stdout, t, hstdout, ht, hfields⟩, hfile, hsha, hsize⟩
    simp only [deb_metadata, bind_eq_ok, orRaise_eq_ok]
    refine ⟨stdout, hstdout, t, ht, _, hfields, ?_⟩
    rw [← hfile, ← hsha, ← hsize]
    rfl

theorem validated_deb_eq_ok {path : PurePath} {node : Node} {entry : DebMetadata} :
    validated_deb tools args path node = .ok entry ↔
      deb_metadata tools path node = .ok entry ∧ entry.package = args.expected_package.1 ∧
      entry.version = args.product_version.1 ∧
      (entry.architecture = args.architecture.1 ∨ entry.architecture = "all") := by
  simp only [validated_deb, bind_eq_ok, throwIf_eq_ok]
  constructor
  · rintro ⟨entry', hentry, -, hpackage, -, hversion, -, harchitecture, heq⟩
    cases heq
    refine ⟨hentry, not_not.mp hpackage, not_not.mp hversion, ?_⟩
    by_contra hne
    rw [not_or] at hne
    exact harchitecture hne
  · rintro ⟨hentry, hpackage, hversion, harchitecture⟩
    refine ⟨entry, hentry, (), not_not.mpr hpackage, (), not_not.mpr hversion, (), ?_, rfl⟩
    rintro ⟨hne, hall⟩
    exact harchitecture.elim hne hall

/-- What comparing the actual entry with the declared one comes to. -/
theorem toValue_eq_iff {entry : DebMetadata} {declared : Record DEB_FIELDS} :
    Value.eq python entry.toValue declared.toValue = true ↔ declared.1.length = 6 ∧
      declared.get "file" = .str entry.file ∧ declared.get "package" = .str entry.package ∧
      declared.get "version" = .str entry.version ∧
      declared.get "architecture" = .str entry.architecture ∧
      declared.get "sha256" = .str entry.sha256 ∧
      Value.eq python (.int entry.size) (declared.get "size") = true := by
  have hlookup (key : Text) (hkey : key ∈ DEB_FIELDS) := declared.lookup_eq hkey
  simp only [DebMetadata.toValue, Record.toValue, Value.eq_dict_dict, Value.eqEntries,
    hlookup "file" (by decide), hlookup "package" (by decide), hlookup "version" (by decide),
    hlookup "architecture" (by decide), hlookup "sha256" (by decide), hlookup "size" (by decide),
    Option.any_some, Value.str_eq_iff, Bool.and_eq_true, beq_iff_eq, List.length_cons,
    List.length_nil, and_true, eq_comm (a := declared.1.length)]

/-! ## The manifest -/

/-- A file that is taken for a build manifest. -/
def IsManifest (root : Directory) (file : Entry) : Prop :=
  file ∈ root.tree.entries ∧ (".build.json" : Text) <:+ file.name

/-- What the file spells. -/
def Holds (python : Interpreter) (file : Entry) (manifest : Record BUILD_FIELDS) : Prop :=
  ∃ t, file.2.readText = .ok t ∧ Json.loads python t = .ok manifest.toValue

theorem Holds.unique {file : Entry} {manifest manifest' : Record BUILD_FIELDS}
    (h : Holds python file manifest) (h' : Holds python file manifest') : manifest = manifest' := by
  obtain ⟨t, ht, hloads⟩ := h
  obtain ⟨t', ht', hloads'⟩ := h'
  rw [ht] at ht'
  obtain rfl := Except.ok.inj ht'
  rw [hloads] at hloads'
  exact Subtype.ext (Value.dict.inj (Except.ok.inj hloads'))

theorem readManifest_eq_ok {file : Entry} {manifest : Record BUILD_FIELDS} :
    readManifest python root file = .ok manifest ↔
      Holds python file manifest ∧ manifest.get "schema" = .str BUILD_SCHEMA := by
  simp only [readManifest, bind_eq_ok, orRaise_eq_ok, Record.ofValue?_eq_some_iff, throwIf_eq_ok,
    Bool.not_eq_false, Value.eq_str_iff]
  constructor
  · rintro ⟨t, ht, v, hloads, manifest', rfl, -, hschema, heq⟩
    cases heq
    exact ⟨⟨t, ht, hloads⟩, hschema⟩
  · rintro ⟨⟨t, ht, hloads⟩, hschema⟩
    exact ⟨t, ht, _, hloads, manifest, rfl, (), hschema, rfl⟩

theorem sameIdentity_iff {manifest : Record BUILD_FIELDS} :
    sameIdentity python args manifest = true ↔
      manifest.get "product" = .str args.product.1 ∧
      manifest.get "version" = .str args.product_version.1 ∧
      manifest.get "source_sha" = .str args.source_sha.1 ∧
      manifest.get "distribution" = .str args.distribution.1 ∧
      manifest.get "architecture" = .str args.architecture.1 := by
  simp only [sameIdentity, Bool.and_eq_true, Value.eq_str_iff, and_assoc]

theorem readRunId_eq_ok {path : PurePath} {manifest : Record BUILD_FIELDS} {t : Text} :
    readRunId python path manifest = .ok t ↔ ∃ ci : Record CI_FIELDS,
      manifest.get "ci" = ci.toValue ∧ (∀ entry ∈ ci.1, entry.2.truth python = true) ∧
      (ci.get "run_id").toStr python = .ok t := by
  simp only [readRunId, bind_eq_ok, orRaise_eq_ok, Record.ofValue?_eq_some_iff, throwIf_eq_ok,
    Bool.not_eq_false, List.all_eq_true]
  constructor
  · rintro ⟨ci, hci, -, htruth, hrun⟩
    exact ⟨ci, hci, htruth, hrun⟩
  · rintro ⟨ci, hci, htruth, hrun⟩
    exact ⟨ci, hci, (), htruth, hrun⟩

/-! ## The file with the declared name -/

theorem onlyItem?_eq_some {v item : Value} : onlyItem? v = some item ↔ v = .list [item] := by
  cases v with
  | list items => simp [onlyItem?, only?_eq_some]
  | _ => simp [onlyItem?]

theorem filename?_eq_some {v : Value} {filename : Text} :
    filename? v = some filename ↔
      v = .str filename ∧ (PurePath.ofText filename).name = filename := by
  cases v with
  | str s =>
    rw [filename?, Value.str.injEq]
    constructor
    · intro h
      split at h
      · rename_i hname
        obtain rfl := Option.some.inj h
        exact ⟨rfl, hname⟩
      · cases h
    · rintro ⟨rfl, hname⟩
      exact if_pos hname
  | _ => simp [filename?]

theorem readFilename_eq_ok {declared : Record DEB_FIELDS} {filename : Text} :
    readFilename python declared = .ok filename ↔ declared.get "file" = .str filename ∧
      (PurePath.ofText filename).name = filename := by
  rw [← filename?_eq_some, readFilename]
  cases filename? (declared.get "file") with
  | some filename' => simp
  | none =>
    constructor
    · intro h
      obtain ⟨shown, -, hthrow⟩ := bind_eq_ok.mp h
      cases hthrow
    · intro h
      cases h

theorem findDeb_eq_ok {path : PurePath} {manifest : Record BUILD_FIELDS} {candidate : Entry} :
    findDeb python tools args root path manifest = .ok candidate ↔
      ∃ (declared : Record DEB_FIELDS) (filename : Text) (named : List Entry)
        (actual : DebMetadata),
        manifest.get "debs" = .list [declared.toValue] ∧
        (declared.get "file" = .str filename ∧ (PurePath.ofText filename).name = filename) ∧
        root.tree.rglob python filename = .ok named ∧
        sortEntries (named.filter fun file ↦ file.2.isFile) = [candidate] ∧
        validated_deb tools args (root.path.child candidate.1) candidate.2 = .ok actual ∧
        Value.eq python actual.toValue declared.toValue = true := by
  simp only [findDeb, bind_eq_ok, orRaise_eq_ok, onlyItem?_eq_some, Record.ofValue?_eq_some_iff,
    readFilename_eq_ok, only?_eq_some, throwIf_eq_ok, Bool.not_eq_false]
  constructor
  · rintro ⟨entry, hdebs, declared, rfl, filename, hfilename, named, hnamed, candidate', hone,
      actual, hactual, -, heq, hret⟩
    cases hret
    exact ⟨declared, filename, named, actual, hdebs, hfilename, hnamed, hone, hactual, heq⟩
  · rintro ⟨declared, filename, named, actual, hdebs, hfilename, hnamed, hone, hactual, heq⟩
    exact ⟨_, hdebs, declared, rfl, filename, hfilename, named, hnamed, candidate, hone, actual,
      hactual, (), heq, rfl⟩

/-! ## The loop over the manifests -/

/-- A round that matches. -/
theorem matchManifest_eq_some {file : Entry} {p : Entry × Entry} :
    matchManifest python tools args root file = .ok (some p) ↔ p.1 = file ∧
      ∃ manifest, readManifest python root file = .ok manifest ∧
        sameIdentity python args manifest = true ∧
        readRunId python (root.path.child file.1) manifest = .ok args.ci_run_id.1 ∧
        findDeb python tools args root (root.path.child file.1) manifest = .ok p.2 := by
  rw [matchManifest, bind_eq_ok]
  constructor
  · rintro ⟨manifest, hmanifest, hround⟩
    split at hround
    · rename_i hsame
      obtain ⟨run_id, hrun, hround⟩ := bind_eq_ok.mp hround
      split at hround
      · rename_i heq
        obtain ⟨candidate, hdeb, hret⟩ := bind_eq_ok.mp hround
        cases hret
        rw [heq] at hrun
        exact ⟨rfl, manifest, hmanifest, hsame, hrun, hdeb⟩
      · cases hround
    · cases hround
  · rintro ⟨rfl, manifest, hmanifest, hsame, hrun, hdeb⟩
    refine ⟨manifest, hmanifest, ?_⟩
    rw [if_pos hsame, hrun]
    simp only [bind, Except.bind, if_true, hdeb]
    rfl

/-- A round that goes on to the next manifest. -/
theorem matchManifest_eq_none {file : Entry} :
    matchManifest python tools args root file = .ok none ↔
      ∃ manifest, readManifest python root file = .ok manifest ∧
        (sameIdentity python args manifest = true →
          ∃ run_id, readRunId python (root.path.child file.1) manifest = .ok run_id ∧
            run_id ≠ args.ci_run_id.1) := by
  rw [matchManifest, bind_eq_ok]
  constructor
  · rintro ⟨manifest, hmanifest, hround⟩
    refine ⟨manifest, hmanifest, fun hsame ↦ ?_⟩
    rw [if_pos hsame] at hround
    obtain ⟨run_id, hrun, hround⟩ := bind_eq_ok.mp hround
    refine ⟨run_id, hrun, fun heq ↦ ?_⟩
    rw [if_pos heq] at hround
    obtain ⟨candidate, -, hret⟩ := bind_eq_ok.mp hround
    cases hret
  · rintro ⟨manifest, hmanifest, hother⟩
    refine ⟨manifest, hmanifest, ?_⟩
    by_cases hsame : sameIdentity python args manifest = true
    · obtain ⟨run_id, hrun, hne⟩ := hother hsame
      rw [if_pos hsame, hrun]
      exact if_neg hne
    · rw [if_neg hsame]
      rfl

/-- Every manifest either matched or was passed over. -/
theorem collectMatches_spec {files : List Entry} {found : List (Entry × Entry)}
    (h : collectMatches python tools args root files = .ok found) :
    (∀ file ∈ files, matchManifest python tools args root file = .ok none ∨
      ∃ p ∈ found, matchManifest python tools args root file = .ok (some p)) ∧
    ∀ p ∈ found, ∃ file ∈ files, matchManifest python tools args root file = .ok (some p) := by
  induction files generalizing found with
  | nil =>
    cases h
    simp
  | cons file files ih =>
    obtain ⟨result, hfile, hrest⟩ := bind_eq_ok.mp h
    obtain ⟨found', hfound, heq⟩ := bind_eq_ok.mp hrest
    cases heq
    obtain ⟨hall, hmatched⟩ := ih hfound
    constructor
    · intro file' hmem
      rcases List.mem_cons.mp hmem with rfl | hmem
      · cases result with
        | none => exact Or.inl hfile
        | some p => exact Or.inr ⟨p, by simp, hfile⟩
      · refine (hall file' hmem).imp_right ?_
        rintro ⟨p, hp, hmatch⟩
        exact ⟨p, List.mem_append_right _ hp, hmatch⟩
    · intro p hp
      rcases List.mem_append.mp hp with hp | hp
      · rw [Option.mem_toList] at hp
        obtain rfl := Option.mem_def.mp hp
        exact ⟨file, List.mem_cons_self, hfile⟩
      · obtain ⟨file', hmem, hmatch⟩ := hmatched p hp
        exact ⟨file', List.mem_cons_of_mem file hmem, hmatch⟩

/-! ## What has been established -/

/-- The manifest is about the requested build. -/
structure Requested (python : Interpreter) (args : IdentityArguments)
    (manifest : Record BUILD_FIELDS) : Prop where
  product : manifest.get "product" = .str args.product.1
  version : manifest.get "version" = .str args.product_version.1
  source_sha : manifest.get "source_sha" = .str args.source_sha.1
  distribution : manifest.get "distribution" = .str args.distribution.1
  architecture : manifest.get "architecture" = .str args.architecture.1
  run_id : ∃ ci : Record CI_FIELDS, manifest.get "ci" = ci.toValue ∧
    (ci.get "run_id").toStr python = .ok args.ci_run_id.1

/-- The Deb is the one that was declared and the one that was asked for. -/
structure DebVerified (python : Interpreter) (tools : Tools) (args : IdentityArguments)
    (root : Directory) (declared : Record DEB_FIELDS) (deb : Entry) : Prop where
  /-- No other file of the tree bears the declared name. -/
  only : ∀ file : Entry, file ∈ root.tree.entries ∧ file.2.isFile = true ∧
    declared.get "file" = .str file.name ↔ file = deb
  metadata : ∃ content architecture, deb.2 = .file content ∧
    Shows tools content args.expected_package.1 args.product_version.1 architecture ∧
    (architecture = args.architecture.1 ∨ architecture = "all") ∧
    declared.get "package" = .str args.expected_package.1 ∧
    declared.get "version" = .str args.product_version.1 ∧
    declared.get "architecture" = .str architecture ∧
    declared.get "sha256" = .str (hexdigest (tools.sha256 content)) ∧
    Value.eq python (.int content.size) (declared.get "size") = true

/-- What `verify_build` goes by when it copies. -/
structure Verified (python : Interpreter) (tools : Tools) (args : IdentityArguments)
    (root : Directory) (manifest deb : Entry) : Prop where
  /-- No other manifest of the tree is about the requested build. -/
  only : ∀ file : Entry, (IsManifest root file ∧
    ∃ m, Holds python file m ∧ Requested python args m) ↔ file = manifest
  /-- There are no other documents among the manifests. -/
  exact : ∀ file, IsManifest root file →
    ∃ m, Holds python file m ∧ m.get "schema" = .str BUILD_SCHEMA
  declares : ∃ (m : Record BUILD_FIELDS) (declared : Record DEB_FIELDS), Holds python manifest m ∧
    m.get "debs" = .list [declared.toValue] ∧ DebVerified python tools args root declared deb

theorem only_of_sortEntries {entries : List Entry} {entry : Entry}
    (h : sortEntries entries = [entry]) (entry' : Entry) : entry' ∈ entries ↔ entry' = entry := by
  rw [← mem_sortEntries, h, List.mem_singleton]

/-- The file that was found bears the declared name, so every file of that name was found. -/
theorem debVerified_of_findDeb {path : PurePath} {manifest : Record BUILD_FIELDS} {deb : Entry}
    (h : findDeb python tools args root path manifest = .ok deb) :
    ∃ declared : Record DEB_FIELDS, manifest.get "debs" = .list [declared.toValue] ∧
      DebVerified python tools args root declared deb := by
  obtain ⟨declared, filename, named, actual, hdebs, ⟨hfilename, -⟩, hnamed, hone, hactual, heq⟩ :=
    findDeb_eq_ok.mp h
  obtain ⟨hmetadata, hpackage, hversion, harchitecture⟩ := validated_deb_eq_ok.mp hactual
  obtain ⟨content, hcontent, hshows, hfile, hsha, hsize⟩ := deb_metadata_eq_ok.mp hmetadata
  obtain ⟨-, hfile', hpackage', hversion', harchitecture', hsha', hsize'⟩ := toValue_eq_iff.mp heq
  have honly := only_of_sortEntries hone
  have hdeb : deb ∈ named ∧ deb.2.isFile = true := List.mem_filter.mp ((honly deb).mpr rfl)
  obtain ⟨hmem, hselects⟩ := (Tree.mem_rglob_iff hnamed hdeb.2).mp hdeb.1
  have hname : filename = deb.name := by
    rw [hfilename, Value.str.injEq, hfile, PurePath.name_child _ (root.tree.named deb hmem).1]
      at hfile'
    exact hfile'
  refine ⟨declared, hdebs, ⟨fun file ↦ ⟨?_, ?_⟩, ?_⟩⟩
  · rintro ⟨hentry, hisFile, hdeclared⟩
    rw [hfilename, Value.str.injEq] at hdeclared
    refine (honly file).mp (List.mem_filter.mpr ⟨?_, hisFile⟩)
    refine (Tree.mem_rglob_iff hnamed hisFile).mpr ⟨hentry, ?_⟩
    rw [← hdeclared, hname, ← hname]
    rwa [← hname] at hselects
  · rintro rfl
    exact ⟨hmem, hdeb.2, by rw [hfilename, hname]⟩
  · rw [hpackage, hversion] at hshows
    exact ⟨content, actual.architecture, hcontent, hshows, harchitecture, hpackage ▸ hpackage',
      hversion ▸ hversion', harchitecture', hsha ▸ hsha', hsize ▸ hsize'⟩

theorem rglob_manifests (tree : Tree) : tree.rglob python "*.build.json" =
    .ok (tree.entries.filter fun file ↦ fnmatch python file.name "*.build.json") := by
  rw [Tree.rglob, if_neg (by decide), if_neg (by decide), if_neg (by decide)]

/-- The loop is over the manifests. -/
theorem mem_sortEntries_manifests {file : Entry} :
    file ∈ sortEntries (root.tree.entries.filter fun file ↦
      fnmatch python file.name "*.build.json") ↔ IsManifest root file := by
  have hname : fnmatch python file.name "*.build.json" = true ↔
      (".build.json" : Text) <:+ file.name := fnmatch_star python (by decide)
  rw [mem_sortEntries, List.mem_filter, hname, IsManifest]

/-- A match is about the requested build. -/
theorem requested_of_matchManifest {file : Entry} {p : Entry × Entry}
    (h : matchManifest python tools args root file = .ok (some p)) :
    p.1 = file ∧ ∃ m, readManifest python root file = .ok m ∧ Requested python args m ∧
      findDeb python tools args root (root.path.child file.1) m = .ok p.2 := by
  obtain ⟨rfl, m, hm, hsame, hrun, hdeb⟩ := matchManifest_eq_some.mp h
  obtain ⟨hproduct, hversion, hsha, hdistribution, harchitecture⟩ := sameIdentity_iff.mp hsame
  obtain ⟨ci, hci, -, hrun⟩ := readRunId_eq_ok.mp hrun
  exact ⟨rfl, m, hm, ⟨hproduct, hversion, hsha, hdistribution, harchitecture, ci, hci, hrun⟩, hdeb⟩

/-- What is passed over is not. -/
theorem not_requested_of_matchManifest {file : Entry}
    (h : matchManifest python tools args root file = .ok none) :
    ∃ m, readManifest python root file = .ok m ∧ ¬Requested python args m := by
  obtain ⟨m, hm, hother⟩ := matchManifest_eq_none.mp h
  refine ⟨m, hm, fun hrequested ↦ ?_⟩
  obtain ⟨hproduct, hversion, hsha, hdistribution, harchitecture, ci, hci, hrun⟩ := hrequested
  obtain ⟨run_id, hread, hne⟩ := hother
    (sameIdentity_iff.mpr ⟨hproduct, hversion, hsha, hdistribution, harchitecture⟩)
  obtain ⟨ci', hci', -, hrun'⟩ := readRunId_eq_ok.mp hread
  rw [hci] at hci'
  obtain rfl : ci = ci' := Subtype.ext (Value.dict.inj hci')
  rw [hrun] at hrun'
  exact hne (Except.ok.inj hrun').symm

private theorem selectBuild_verified {artifact_dir : Option Directory}
    {selected : Directory × Entry × Entry}
    (h : selectBuild python tools args artifact_dir = .ok selected) :
    artifact_dir = some selected.1 ∧
      Verified python tools args selected.1 selected.2.1 selected.2.2 := by
  obtain ⟨-, -, h⟩ := bind_eq_ok.mp h
  cases artifact_dir with
  | none => cases h
  | some root =>
    obtain ⟨files, hfiles, h⟩ := bind_eq_ok.mp h
    obtain ⟨found, hfound, h⟩ := bind_eq_ok.mp h
    obtain ⟨⟨manifest, deb⟩, honly, hret⟩ := bind_eq_ok.mp h
    cases hret
    obtain rfl := only?_eq_some.mp (orRaise_eq_ok.mp honly)
    obtain rfl := Except.ok.inj ((rglob_manifests root.tree).symm.trans hfiles)
    obtain ⟨hall, hmatched⟩ := collectMatches_spec hfound
    obtain ⟨file, hfile, hmatch⟩ := hmatched (manifest, deb) List.mem_cons_self
    obtain ⟨rfl, m, hm, hrequested, hdeb⟩ := requested_of_matchManifest hmatch
    have hholds := (readManifest_eq_ok.mp hm).1
    obtain ⟨declared, hdebs, hverified⟩ := debVerified_of_findDeb hdeb
    refine ⟨rfl, fun file' ↦ ⟨?_, ?_⟩, fun file' hmanifest ↦ ?_, m, declared, hholds, hdebs,
      hverified⟩
    · rintro ⟨hmanifest, m', hholds', hrequested'⟩
      rcases hall file' (mem_sortEntries_manifests.mpr hmanifest) with hnone | ⟨p, hp, hsome⟩
      · obtain ⟨m'', hm'', hnot⟩ := not_requested_of_matchManifest hnone
        rw [(readManifest_eq_ok.mp hm'').1.unique hholds'] at hnot
        exact absurd hrequested' hnot
      · rw [← (requested_of_matchManifest hsome).1, List.mem_singleton.mp hp]
    · rintro rfl
      exact ⟨mem_sortEntries_manifests.mp hfile, m, hholds, hrequested⟩
    · rcases hall file' (mem_sortEntries_manifests.mpr hmanifest) with hnone | ⟨p, -, hsome⟩
      · obtain ⟨m', hm', -⟩ := not_requested_of_matchManifest hnone
        exact ⟨m', readManifest_eq_ok.mp hm'⟩
      · obtain ⟨-, m', hm', -⟩ := requested_of_matchManifest hsome
        exact ⟨m', readManifest_eq_ok.mp hm'⟩

/-! ## The run -/

/-- What is written once everything has been checked: the Deb and the manifest are copied out. -/
def copies (args : VerifyArguments) (root : Directory) (manifest deb : Entry) : List FileOp :=
  let deb_output := PurePath.ofText args.deb_output_dir.1
  let manifest_output := PurePath.ofText args.manifest_output_dir.1
  [.mkdir deb_output, .mkdir manifest_output,
    .copy2 (root.path.child deb.1) (deb_output.child [deb.name]),
    .copy2 (root.path.child manifest.1) (manifest_output.child [manifest.name])]

/-- One write after the other. -/
def performAll : List FileOp → Writing Unit
  | [] => pure ()
  | op :: ops => do
    perform op
    performAll ops

theorem performAll_singleton (op : FileOp) : performAll [op] = perform op := by
  refine congrArg ExceptT.mk (congrArg (Prog.call op) (funext fun done ↦ ?_))
  cases done <;> rfl

theorem perform_wp {op : FileOp} {Q : Trace FileOp (fun _ ↦ Bool) → Unit → Prop}
    {E : Trace FileOp (fun _ ↦ Bool) → PyExn → Prop} {h : Trace FileOp fun _ ↦ Bool}
    (hdone : Q (h ++ [⟨op, true⟩]) ()) (hfailed : E (h ++ [⟨op, false⟩]) .osError) :
    Proc.wp (fun _ _ ↦ True) (perform op) Q E h := by
  refine Proc.wp_attempt (fun _ ↦ trivial) ?_ ?_
  · rintro _ rfl
    exact hdone
  · rintro _ rfl
    exact hfailed

/-- Every write of the list was made. -/
def allDone (ops : List FileOp) : Trace FileOp fun _ ↦ Bool := ops.map fun op ↦ ⟨op, true⟩

/-- A run of writes makes them all, or stops at the first that fails. -/
theorem performAll_wp (ops : List FileOp) (h : Trace FileOp fun _ ↦ Bool) :
    Proc.wp (fun _ _ ↦ True) (performAll ops) (fun h' _ ↦ h' = h ++ allDone ops)
      (fun h' e ↦ e = .osError ∧ ∃ done op rest, ops = done ++ op :: rest ∧
        h' = h ++ allDone done ++ [⟨op, false⟩]) h := by
  induction ops generalizing h with
  | nil => simp [performAll, allDone]
  | cons op ops ih =>
    rw [performAll, Proc.wp_bind]
    refine perform_wp ?_ ⟨rfl, [], op, ops, rfl, by simp [allDone]⟩
    refine Proc.wp_mono ?_ ?_ (ih (h ++ [⟨op, true⟩]))
    · rintro h' _ rfl
      simp [allDone]
    · rintro h' e ⟨rfl, done, failed, rest, rfl, rfl⟩
      exact ⟨rfl, op :: done, failed, rest, rfl, by simp [allDone]⟩

theorem performAll_returns (ops : List FileOp) :
    Prog.Returns (performAll ops).run (allDone ops) (.ok ()) := by
  induction ops with
  | nil => exact Prog.Reaches.refl
  | cons op ops ih =>
    have hrun : (performAll (op :: ops)).run =
        .call op fun done ↦ if done then (performAll ops).run else .ret (.error .osError) := by
      refine congrArg (Prog.call op) (funext fun done ↦ ?_)
      cases done <;> rfl
    rw [hrun]
    exact Prog.Returns.call ih

/-- Once a build is selected, what is left are the copies. -/
theorem verify_build_eq {args : VerifyArguments} {artifact_dir : Option Directory}
    {selected : Directory × Entry × Entry}
    (hselect : selectBuild python tools args.toIdentityArguments artifact_dir = .ok selected) :
    verify_build python tools args artifact_dir =
      performAll (copies args selected.1 selected.2.1 selected.2.2) := by
  obtain ⟨root, manifest, deb⟩ := selected
  obtain ⟨-, hverified⟩ := selectBuild_verified hselect
  have hmanifest := root.tree.named manifest ((hverified.only manifest).mpr rfl).1.1
  have hdeb : deb.1 ≠ [] := by
    obtain ⟨m, declared, -, -, hdeb⟩ := hverified.declares
    exact (root.tree.named deb ((hdeb.only deb).mpr rfl).1).1
  have hdebName : (root.path.child deb.1).name = deb.name := PurePath.name_child _ hdeb
  have hmanifestName : (root.path.child manifest.1).name = manifest.name :=
    PurePath.name_child _ hmanifest.1
  rw [verify_build, hselect, copies, ← hdebName, ← hmanifestName, performAll, performAll,
    performAll, performAll_singleton]
  rfl

theorem verify_build_wp (args : VerifyArguments) (artifact_dir : Option Directory) :
    Proc.wp (fun _ _ ↦ True) (verify_build python tools args artifact_dir)
      (fun h _ ↦ ∃ selected, selectBuild python tools args.toIdentityArguments artifact_dir =
        .ok selected ∧ h = allDone (copies args selected.1 selected.2.1 selected.2.2))
      (fun h e ↦ e ≠ .osError → h = []) [] := by
  cases hselect : selectBuild python tools args.toIdentityArguments artifact_dir with
  | error e =>
    rw [verify_build, Proc.wp_bind, Proc.wp_lift, hselect]
    exact fun _ ↦ rfl
  | ok selected =>
    rw [verify_build_eq hselect]
    refine Proc.wp_mono (fun h _ hops ↦ ⟨selected, rfl, hops⟩) (fun h e he hne ↦ ?_)
      (performAll_wp _ [])
    exact absurd he.1 hne

/-- **Soundness.** When `verify_build` returns, it has copied the one verified build of the tree,
and every write of that was made; when it raises anything but an `OSError`, it has written
nothing. -/
theorem verify_build_sound {args : VerifyArguments} {artifact_dir : Option Directory}
    {run : Trace FileOp fun _ ↦ Bool} {result : Except PyExn Unit}
    (hrun : Prog.Returns (verify_build python tools args artifact_dir).run run result) :
    (result = .ok () → ∃ root manifest deb, artifact_dir = some root ∧
      Verified python tools args.toIdentityArguments root manifest deb ∧
      run = (copies args root manifest deb).map fun op ↦ ⟨op, true⟩) ∧
    ∀ e, result = .error e → e ≠ .osError → run = [] := by
  have hpost := Prog.wp_returns (verify_build_wp args artifact_dir) hrun
  constructor
  · rintro rfl
    obtain ⟨⟨root, manifest, deb⟩, hselect, hcopies⟩ := hpost
    obtain ⟨hroot, hverified⟩ := selectBuild_verified hselect
    exact ⟨root, manifest, deb, hroot, hverified, hcopies⟩
  · rintro e rfl hne
    exact hpost hne

end Ros2ToolsAdapter.Artifact

import Ros2ToolsAdapter.Evidence.Script
import Ros2ToolsAdapter.Foundation.Total
import Ros2ToolsAdapter.Generator.Written

/-!
# What the evidence says

A run of the script writes only after the lock was accepted (`Loaded`, `Accepted`) and every answer
of `dpkg-query` agreed with it (`Gathered`), and every such run is one of the script
(`evidence_written`). The lock that is committed is accepted, by its digest too.
-/

namespace Ros2ToolsAdapter.Evidence

open Interaction Python
open Artifact (FileOp hexdigest Tools)
open Except (bind_eq_ok)

/-! ## Locks -/

variable {python : Interpreter} {tools : Tools} {args : Arguments}

/-- What was done to every element of a list, when nothing was thrown. -/
theorem mapM_eq_ok {ε α β : Type} {f : α → Except ε β} {xs : List α} {ys : List β} :
    xs.mapM f = .ok ys ↔ List.Forall₂ (fun x y ↦ f x = .ok y) xs ys := by
  induction xs generalizing ys with
  | nil =>
    rw [List.mapM_nil, List.forall₂_nil_left_iff]
    exact ⟨fun h ↦ (Except.ok.inj h).symm, fun h ↦ congrArg Except.ok h.symm⟩
  | cons x xs ih =>
    rw [List.mapM_cons, List.forall₂_cons_left_iff]
    constructor
    · intro h
      obtain ⟨y, hy, h⟩ := bind_eq_ok.mp h
      obtain ⟨ys', hys, h⟩ := bind_eq_ok.mp h
      exact ⟨y, ys', hy, ih.mp hys, (Except.ok.inj h).symm⟩
    · rintro ⟨y, ys', hy, hys, rfl⟩
      exact bind_eq_ok.mpr ⟨y, hy, bind_eq_ok.mpr ⟨ys', ih.mpr hys, rfl⟩⟩

/-- A dependency that the plan says to verify, at a commit. -/
structure Pinned (python : Interpreter) (dependency : Dependency) : Prop where
  planAction : dependency.get "planAction" = .str "verify"
  policy : dependency.get "policy" = .str "rebuild"
  sourceSha : ∃ sha, Value.toStr python (dependency.get "sourceSha") = .ok sha ∧ HEX40 sha = true

theorem checkDependency_eq_ok {v : Value} {dependency : Dependency} :
    checkDependency python v = .ok dependency ↔
      v = dependency.toValue ∧ Pinned python dependency := by
  simp only [checkDependency, bind_eq_ok, throwIf_eq_ok, exists_const, not_or, Bool.not_eq_false,
    Value.eq_str_iff, Artifact.orRaise_eq_ok, Record.ofValue?_eq_some_iff]
  constructor
  · rintro ⟨read, rfl, hplan, sha, hsha, hhex, h⟩
    obtain rfl := Except.ok.inj h
    exact ⟨rfl, hplan.1, hplan.2, sha, hsha, hhex⟩
  · rintro ⟨rfl, hplan, hpolicy, sha, hsha, hhex⟩
    exact ⟨dependency, rfl, ⟨hplan, hpolicy⟩, sha, hsha, hhex, rfl⟩

/-- A lock that was read from a file: two dependencies, and the digest of the plan about them. -/
structure Loaded (python : Interpreter) (tools : Tools) (path : Option Node) (lock : Lock) :
    Prop where
  content : ∃ node, path = some node ∧
    (node.readText >>= Json.loads python) = .ok lock.value.toValue
  schema : lock.value.get "schema" = .str "xgc2.dependency-lock.v1"
  two : lock.dependencies.length = 2
  dependencies : lock.value.get "dependencies" = .list (lock.dependencies.map Record.toValue)
  pinned : ∀ dependency ∈ lock.dependencies, Pinned python dependency
  digest : ∃ plan digest, planIdentity python lock.dependencies = .ok plan ∧
    canonical_digest python tools plan = .ok digest ∧
    lock.value.get "planDependencySetDigest" = .str digest

theorem two?_eq_some {v : Value} {items : List Value} :
    two? v = some items ↔ v = .list items ∧ items.length = 2 := by
  rw [List.length_eq_two]
  constructor
  · intro h
    unfold two? at h
    split at h
    · obtain rfl := Option.some.inj h
      exact ⟨rfl, _, _, rfl⟩
    · cases h
  · rintro ⟨rfl, a, b, rfl⟩
    rfl

theorem load_lock_eq_ok {path : Option Node} {lock : Lock} :
    load_lock python tools path = .ok lock ↔ Loaded python tools path lock := by
  have hnode (node : Node) :
      path.elim (Except.error PyExn.osError) Except.ok = .ok node ↔ path = some node := by
    cases path <;> simp
  simp only [load_lock, bind_eq_ok, throwIf_eq_ok, exists_const, Bool.not_eq_false,
    Value.eq_str_iff, Artifact.orRaise_eq_ok, Record.ofValue?_eq_some_iff, two?_eq_some, hnode]
  constructor
  · rintro ⟨node, hpath, text, htext, v, hv, value, rfl, hschema, items, ⟨hlist, htwo⟩,
      dependencies, hdependencies, plan, hplan, digest, hdigest, hsame, h⟩
    obtain rfl := Except.ok.inj h
    have hchecked := (mapM_eq_ok.mp hdependencies).imp fun _ _ ↦ checkDependency_eq_ok.mp
    have hvalues : items = dependencies.map Record.toValue := by
      rw [← List.forall₂_eq_eq_eq, List.forall₂_map_right_iff]
      exact hchecked.imp fun _ _ h ↦ h.1
    refine ⟨⟨node, hpath, bind_eq_ok.mpr ⟨text, htext, hv⟩⟩, hschema,
      hchecked.length_eq.symm.trans htwo, hvalues ▸ hlist, ?_, plan, digest, hplan, hdigest, hsame⟩
    intro dependency hmem
    obtain ⟨i, hi, rfl⟩ := List.getElem_of_mem hmem
    exact (hchecked.get (hchecked.length_eq ▸ hi) hi).2
  · rintro ⟨⟨node, hpath, hread⟩, hschema, htwo, hlist, hpinned, plan, digest, hplan, hdigest,
      hsame⟩
    obtain ⟨text, htext, hv⟩ := bind_eq_ok.mp hread
    have hdependencies : (lock.dependencies.map Record.toValue).mapM (checkDependency python) =
        .ok lock.dependencies := by
      rw [mapM_eq_ok, List.forall₂_map_left_iff, List.forall₂_same]
      exact fun dependency hmem ↦ checkDependency_eq_ok.mpr ⟨rfl, hpinned dependency hmem⟩
    exact ⟨node, hpath, text, htext, _, hv, lock.value, rfl, hschema, _,
      ⟨hlist, by rwa [List.length_map]⟩, _, hdependencies, plan, hplan, digest, hdigest, hsame, rfl⟩

/-! ## Evidence -/

/-- What is known of the arguments and the lock before a package is looked at. -/
structure Accepted (python : Interpreter) (tools : Tools) (args : Arguments) (lock : Lock) :
    Prop where
  digest : HEX64 args.dependency_set_digest.1 = true
  loaded : Loaded python tools args.lock lock
  locked : args.dependency_mode = .locked_source → args.apt_overlay_url.1 = [] ∧
    lock.value.get "planDependencySetDigest" = .str args.dependency_set_digest.1
  staging : args.dependency_mode = .staging_apt →
    HTTPS_URL.rmatch args.apt_overlay_url.1 = true ∧ args.prepare_action ≠ .ci

theorem checkMode_eq_ok {lock : Lock} : checkMode python args lock = .ok () ↔
    (args.dependency_mode = .locked_source → args.apt_overlay_url.1 = [] ∧
      lock.value.get "planDependencySetDigest" = .str args.dependency_set_digest.1) ∧
    (args.dependency_mode = .staging_apt →
      HTTPS_URL.rmatch args.apt_overlay_url.1 = true ∧ args.prepare_action ≠ .ci) := by
  cases hmode : args.dependency_mode <;>
    simp [checkMode, hmode, bind_eq_ok, throwIf_eq_ok, Value.str_eq_iff]

/-- The evidence about the dependencies of a lock, from what was asked about each of them. -/
inductive Gathered (python : Interpreter) (args : Arguments) :
    List Dependency → List Entry → Run → Prop
  | done : Gathered python args [] [] []
  | next {dependency : Dependency} {entry : Entry} {stdout : ByteArray} {text : Text}
    {dependencies : List Dependency} {entries : List Entry} {asked : Run}
    (package : Value.toStr python (dependency.get "package") = .ok entry.package)
    (printed : decodeUtf8 stdout = .ok text)
    (version : entry.version = strip (universalNewlines false text))
    (locked : args.dependency_mode = .locked_source →
      dependency.get "packageVersion" = .str entry.version)
    (source : sourceOf python args dependency = .ok entry.source)
    (rest : Gathered python args dependencies entries asked) :
    Gathered python args (dependency :: dependencies) (entry :: entries)
      (⟨.dpkg_query entry.package, .ok stdout⟩ :: asked)

/-- Only questions. -/
def Asks (run : Run) : Prop := ∀ e ∈ run, ∃ package, e.op = .dpkg_query package

theorem checkVersion_eq_ok {dependency : Dependency} {package version : Text} :
    checkVersion python args dependency package version = .ok () ↔
      (args.dependency_mode = .locked_source →
        dependency.get "packageVersion" = .str version) := by
  rw [checkVersion]
  split
  · next h =>
    rw [Bool.eq_false_iff, ne_eq, Value.str_eq_iff] at h
    simp only [bind_eq_ok, forall_const, h, iff_false, not_exists, not_and]
    rintro _ _ hthrow
    cases hthrow
  · next h =>
    rw [not_and, Bool.not_eq_false, Value.str_eq_iff] at h
    exact ⟨fun _ ↦ h, fun _ ↦ rfl⟩

/-- A computation that goes first either throws or is gone on with. -/
theorem wp_lift_bind {ε α β Op : Type} {Ans : Op → Type} {I : Trace Op Ans → Event Op Ans → Prop}
    {x : Except ε α} {f : α → Proc ε Op Ans β} {Q : Trace Op Ans → β → Prop}
    {E : Trace Op Ans → ε → Prop} {h : Trace Op Ans} (herror : ∀ e, x = .error e → E h e)
    (hok : ∀ a, x = .ok a → Proc.wp I (f a) Q E h) :
    Proc.wp I (liftM x >>= f : Proc ε Op Ans β) Q E h := by
  rw [Proc.wp_bind, Proc.wp_lift]
  cases x with
  | error e => exact herror e rfl
  | ok a => exact hok a rfl

theorem gather_wp (dependencies : List Dependency) (h : Run) :
    Proc.wp (fun _ _ ↦ True) (gather python args dependencies)
      (fun h' entries ↦ ∃ asked, h' = h ++ asked ∧ Gathered python args dependencies entries asked)
      (fun h' _ ↦ ∃ asked, h' = h ++ asked ∧ Asks asked) h := by
  induction dependencies generalizing h with
  | nil => exact ⟨[], (List.append_nil h).symm, .done⟩
  | cons dependency dependencies ih =>
    refine wp_lift_bind ?_ fun package hpackage ↦ ?_
    · exact fun _ _ ↦ ⟨[], (List.append_nil h).symm, List.forall_mem_nil _⟩
    rw [Proc.wp_bind, installed_version, Proc.wp_invoke]
    intro stdout
    refine ⟨trivial, ?_⟩
    have hone : Asks [⟨.dpkg_query package, stdout⟩] :=
      List.forall_mem_singleton.mpr ⟨package, rfl⟩
    cases hversion : raising Raised.exn (do
        return strip (universalNewlines false (← decodeUtf8 (← stdout)))) with
    | error e => exact ⟨_, rfl, hone⟩
    | ok version =>
      refine wp_lift_bind (fun _ _ ↦ ⟨_, rfl, hone⟩) fun _ hcheck ↦ ?_
      refine wp_lift_bind (fun _ _ ↦ ⟨_, rfl, hone⟩) fun source hsource ↦ ?_
      obtain ⟨bytes, hbytes, hprinted⟩ := bind_eq_ok.mp (raising_eq_ok.mp hversion)
      obtain ⟨text, htext, hstrip⟩ := bind_eq_ok.mp hprinted
      obtain rfl := hbytes
      rw [Proc.wp_bind]
      refine Proc.wp_mono ?_ ?_ (ih _)
      · rintro _ entries ⟨asked, rfl, hasked⟩
        have hnext : Gathered python args (dependency :: dependencies)
            (⟨package, version, source⟩ :: entries) (⟨.dpkg_query package, .ok bytes⟩ :: asked) :=
          .next (raising_eq_ok.mp hpackage) htext (Except.ok.inj hstrip).symm
            (checkVersion_eq_ok.mp hcheck) (raising_eq_ok.mp hsource) hasked
        exact ⟨_ :: asked, List.append_assoc .., hnext⟩
      · rintro _ _ ⟨asked, rfl, hasked⟩
        exact ⟨_ :: asked, List.append_assoc ..,
          List.forall_mem_cons.mpr ⟨⟨package, rfl⟩, hasked⟩⟩

private theorem all_toValue (entries : List Entry) :
    Value.allItems (fun _ ↦ true) Generator.short (entries.map Entry.toValue) = true := by
  induction entries with
  | nil => rfl
  | cons entry entries ih =>
    rw [List.map_cons, Value.allItems, ih, Bool.and_true]
    simp [Entry.toValue, Value.all, Value.allEntries]

/-- There is nothing in the evidence that cannot be written. -/
theorem jsonContent_evidence (python : Interpreter) (args : Arguments) (entries : List Entry) :
    ∃ content, Artifact.jsonContent python (evidenceValue args entries) = .ok content := by
  have hall : (evidenceValue args entries).all (fun _ ↦ true) Generator.short = true := by
    simp [evidenceValue, Value.all, Value.allEntries, all_toValue]
  obtain ⟨t, ht⟩ := Json.Style.dumpsAt_ok python ⟨true, true, true⟩
    (fun _ hn ↦ Generator.ofInt_of_short hn) _ hall 0
  have hplain : Json.Plain t := Json.Style.dumpsAt_plain python _ rfl hall ht
  obtain ⟨content, hcontent⟩ := encodeUtf8_eq_ok (t := t ++ [0x0A]) fun c hc ↦ by
    rcases hplain.append (by decide) c hc with rfl | ⟨-, hle⟩
    · decide
    · omega
  exact ⟨content, bind_eq_ok.mpr ⟨t, ht, hcontent⟩⟩

/-- The runs that write a file into a directory, up to the first write that fails. -/
inductive Wrote (output : PurePath) (content : ByteArray) : Run → Except Raised Unit → Prop
  | no_directory : Wrote output content [⟨.write (.mkdir (Generator.parent output)), false⟩]
    (.error (.exn .osError))
  | no_file : Wrote output content [⟨.write (.mkdir (Generator.parent output)), true⟩,
    ⟨.write (.write_text output content), false⟩] (.error (.exn .osError))
  | done : Wrote output content [⟨.write (.mkdir (Generator.parent output)), true⟩,
    ⟨.write (.write_text output content), true⟩] (.ok ())

/-- The questions about the dependencies of a lock that was accepted, then the writes. -/
def Evidenced (python : Interpreter) (tools : Tools) (args : Arguments) (run : Run)
    (result : Except Raised Unit) : Prop :=
  ∃ lock entries asked content written, run = asked ++ written ∧
    Accepted python tools args lock ∧ Gathered python args lock.dependencies entries asked ∧
    Artifact.jsonContent python (evidenceValue args entries) = .ok content ∧
    Wrote args.output content written result

theorem main_wp : Proc.wp (fun _ _ ↦ True) (main python tools args)
    (fun run _ ↦ Evidenced python tools args run (.ok ()))
    (fun run e ↦ Asks run ∨ Evidenced python tools args run (.error e)) [] := by
  have hnone : Asks [] := List.forall_mem_nil _
  refine wp_lift_bind (fun _ _ ↦ Or.inl hnone) fun _ hdigest ↦ ?_
  refine wp_lift_bind (fun _ _ ↦ Or.inl hnone) fun lock hlock ↦ ?_
  refine wp_lift_bind (fun _ _ ↦ Or.inl hnone) fun _ hmode ↦ ?_
  rw [checkDigest, throwIf_eq_ok, Bool.not_eq_false] at hdigest
  have hchecks := checkMode_eq_ok.mp hmode
  have haccepted : Accepted python tools args lock :=
    ⟨hdigest, load_lock_eq_ok.mp (raising_eq_ok.mp hlock), hchecks.1, hchecks.2⟩
  refine Proc.wp_bind_of (Proc.wp_mono (fun _ _ h ↦ h) ?_ (gather_wp lock.dependencies [])) ?_
  · rintro asked e ⟨_, rfl, hasked⟩
    exact Or.inl hasked
  · rintro asked entries ⟨_, rfl, hasked⟩
    obtain ⟨content, hcontent⟩ := jsonContent_evidence python args entries
    have hevidenced {written : Run} {result : Except Raised Unit}
        (hwritten : Wrote args.output content written result) :
        Evidenced python tools args (asked ++ written) result :=
      ⟨lock, entries, asked, content, written, rfl, haccepted, hasked, hcontent, hwritten⟩
    rw [write_evidence, Proc.wp_bind]
    refine Proc.wp_attempt (fun _ ↦ trivial) ?_ ?_
    · rintro _ rfl
      rw [Proc.wp_bind, Proc.wp_lift, raising_eq_ok.mpr hcontent, Proc.post]
      refine Proc.wp_attempt (fun _ ↦ trivial) ?_ ?_
      · rintro _ rfl
        rw [List.append_assoc]
        exact hevidenced .done
      · rintro _ rfl
        rw [List.append_assoc]
        exact Or.inr (hevidenced .no_file)
    · rintro _ rfl
      exact Or.inr (hevidenced .no_directory)

/-! ## Runs -/

private theorem returns_raising {α : Type} {x : Except PyExn α} {a : α} (h : x = .ok a) :
    Prog.Returns (liftM (raising Raised.exn x) : Evidencing α).run [] (.ok a) := by
  rw [raising_eq_ok.mpr h]
  exact Proc.returns_lift _

private theorem returns_check {x : Except Raised Unit} (h : x = .ok ()) :
    Prog.Returns (liftM x : Evidencing Unit).run [] (.ok ()) := by
  rw [h]
  exact Proc.returns_lift _

/-- The answers that are evidence can be those of a run. -/
theorem Gathered.returns {dependencies : List Dependency} {entries : List Entry} {asked : Run}
    (h : Gathered python args dependencies entries asked) :
    Prog.Returns (gather python args dependencies).run asked (.ok entries) := by
  induction h with
  | done => exact .refl
  | @next dependency entry stdout text dependencies entries asked package printed version locked
      source rest ih =>
    have hversion : Prog.Returns (installed_version entry.package).run
        [⟨.dpkg_query entry.package, .ok stdout⟩] (.ok entry.version) := by
      have hstdout : raising Raised.exn (do
          return strip (universalNewlines false (← decodeUtf8 (← Except.ok stdout)))) =
            .ok entry.version :=
        raising_eq_ok.mpr (bind_eq_ok.mpr ⟨stdout, rfl, bind_eq_ok.mpr
          ⟨text, printed, congrArg Except.ok version.symm⟩⟩)
      rw [← hstdout]
      exact Proc.returns_invoke (Op.dpkg_query entry.package) _ _
    have hrest : Prog.Returns (gather python args dependencies >>= fun entries ↦
        pure (entry :: entries)).run asked (.ok (entry :: entries)) := by
      have hrun := Proc.returns_bind (f := fun entries ↦ pure (entry :: entries)) ih .refl
      rwa [List.append_nil] at hrun
    exact Proc.returns_bind (returns_raising package) (Proc.returns_bind hversion
      (Proc.returns_bind (returns_check (checkVersion_eq_ok.mpr locked))
        (Proc.returns_bind (returns_raising source) hrest)))

theorem Wrote.returns {content : ByteArray} {written : Run} {result : Except Raised Unit}
    {value : Value} (hcontent : Artifact.jsonContent python value = .ok content)
    (h : Wrote args.output content written result) :
    Prog.Returns (write_evidence python args.output value).run written result := by
  cases h with
  | no_directory => exact Proc.returns_bind_error (Proc.returns_attempt_failed rfl) _
  | no_file =>
    exact Proc.returns_bind (Proc.returns_attempt rfl)
      (Proc.returns_bind (returns_raising hcontent) (Proc.returns_attempt_failed rfl))
  | done =>
    exact Proc.returns_bind (Proc.returns_attempt rfl)
      (Proc.returns_bind (returns_raising hcontent) (Proc.returns_attempt rfl))

theorem Evidenced.returns {run : Run} {result : Except Raised Unit}
    (h : Evidenced python tools args run result) :
    Prog.Returns (main python tools args).run run result := by
  obtain ⟨lock, entries, asked, content, written, rfl, haccepted, hasked, hcontent, hwritten⟩ := h
  have hdigest : checkDigest args = .ok () := by
    rw [checkDigest, throwIf_eq_ok, Bool.not_eq_false]
    exact haccepted.digest
  have hmode : checkMode python args lock = .ok () :=
    checkMode_eq_ok.mpr ⟨haccepted.locked, haccepted.staging⟩
  have hlock := returns_raising (load_lock_eq_ok.mpr haccepted.loaded)
  refine Proc.returns_bind (s := []) (returns_check hdigest) ?_
  refine Proc.returns_bind (s := []) hlock (Proc.returns_bind (s := []) (returns_check hmode) ?_)
  exact Proc.returns_bind hasked.returns (hwritten.returns hcontent)

/-- **Evidence is of what was locked, and is written last.** The runs of the script that write, or
try to, are those that ask about the dependencies of a lock that was accepted, in order, get answers
that agree with it, and then create the directory and write the one file, stopping early only where
a write fails. Every other run has asked and raised, and has written nothing. -/
theorem evidence_written (args : Arguments) (run : Run) (result : Except Raised Unit) :
    (Evidenced python tools args run result →
      Prog.Returns (main python tools args).run run result) ∧
    (Prog.Returns (main python tools args).run run result →
      Evidenced python tools args run result ∨ (∃ e, result = .error e) ∧ Asks run) := by
  refine ⟨Evidenced.returns, fun hrun ↦ ?_⟩
  have hpost := Prog.wp_returns main_wp hrun
  cases result with
  | ok _ => exact Or.inl hpost
  | error e => exact hpost.symm.imp_right fun hasks ↦ ⟨⟨e, rfl⟩, hasks⟩

/-! ## The lock of the repository -/

def lockedEntries (id repository sourceSha version package packageVersion : Text) :
    List (Text × Value) :=
  [("id", .str id), ("planAction", .str "verify"), ("policy", .str "rebuild"),
    ("repository", .str repository), ("sourceSha", .str sourceSha), ("version", .str version),
    ("package", .str package), ("packageVersion", .str packageVersion)]

def lockedDependency (id repository sourceSha version package packageVersion : Text) : Dependency :=
  ⟨lockedEntries id repository sourceSha version package packageVersion, .of_map_fst rfl⟩

section Locked

variable {id repository sourceSha version package packageVersion : Text}

private theorem get_locked {key s : Text} (hkey : key ∈ DEPENDENCY_FIELDS)
    (h : (key, .str s) ∈ lockedEntries id repository sourceSha version package packageVersion) :
    (lockedDependency id repository sourceSha version package packageVersion).get key hkey =
      .str s := by
  have hnodup : DEPENDENCY_FIELDS.Nodup := by decide
  exact Record.get_eq_of_mem
    (lockedDependency id repository sourceSha version package packageVersion) hnodup hkey h

private theorem pinned_locked (python : Interpreter) (hsha : HEX40 sourceSha = true) :
    Pinned python (lockedDependency id repository sourceSha version package packageVersion) where
  planAction := get_locked _ (by simp [lockedEntries])
  policy := get_locked _ (by simp [lockedEntries])
  sourceSha := ⟨sourceSha, congrArg (Value.toStr python) (get_locked _ (by simp [lockedEntries])),
    hsha⟩

/-- The plan about a dependency, with its keys in order. -/
def sortedPlan (id sourceSha version : Text) : Value :=
  .dict [("action", .str "verify"), ("id", .str id), ("policy", .str "rebuild"),
    ("source_sha", .str sourceSha), ("version", .str version)]

theorem planEntry_locked :
    planEntry (lockedDependency id repository sourceSha version package packageVersion) =
      .dict [("id", .str id), ("action", .str "verify"), ("source_sha", .str sourceSha),
        ("version", .str version), ("policy", .str "rebuild")] := by
  have hget := @get_locked id repository sourceSha version package packageVersion
  rw [planEntry, hget (s := id) (by decide) (by simp [lockedEntries]),
    hget (s := "verify") (by decide) (by simp [lockedEntries]),
    hget (s := sourceSha) (by decide) (by simp [lockedEntries]),
    hget (s := version) (by decide) (by simp [lockedEntries]),
    hget (s := "rebuild") (by decide) (by simp [lockedEntries])]

private theorem sorted_planEntry :
    (planEntry (lockedDependency id repository sourceSha version package packageVersion)).sorted =
      sortedPlan id sourceSha version := by
  rw [planEntry_locked, Value.sorted, sortedPlan]
  refine congrArg Value.dict (Value.sortByKey_eq ?_ ?_)
  · exact (List.Perm.swap _ _ _).trans (.cons _ (.cons _ (List.perm_append_singleton _ [_, _])))
  · have hkeys : (["action", "id", "policy", "source_sha", "version"] : List Text).Pairwise
        (· < ·) := by decide +kernel
    exact hkeys

end Locked

def clientDependency (packageVersion : Text) : Dependency :=
  lockedDependency "libxgc2-adapter-runtime-client-dev" "XGC-Team/xgc2-adapter-runtime-client-cpp"
    "3e8ec42e34fcd5397e4c12e1505797c621ff9967" "0.6.0-16" "libxgc2-adapter-runtime-client-dev"
    packageVersion

def protobufDependency : Dependency :=
  lockedDependency "xgc2-protobuf" "XGC-Team/xgc2-protobuf"
    "952ed81c7ef0a9a7650f6d0d72ac8deb4a93f453" "0.5.0-19" "xgc2-protobuf-dev" "0.5.0-19~noble"

def planDigest : Text := "4be06d321631d5ea3aad8969d21e4c7b974d4a488a155f363b359125ac00d86c"

/-- The lock of the repository, but for the version of the client's package. -/
def lockWith (packageVersion : Text) : Lock where
  value := ⟨[("schema", .str "xgc2.dependency-lock.v1"),
    ("planDependencySetDigest", .str planDigest),
    ("dependencies", .list [(clientDependency packageVersion).toValue,
      protobufDependency.toValue])], .of_map_fst rfl⟩
  dependencies := [clientDependency packageVersion, protobufDependency]

/-- `.xgc2/dependency-lock.json` -/
def repositoryLock : Lock := lockWith "0.6.0-16~noble"

/-- The plan in such a lock; the version of the package is not in it. -/
def lockedPlan (packageVersion : Text) : Value :=
  .list [planEntry (clientDependency packageVersion), planEntry protobufDependency]

theorem planIdentity_lockWith (python : Interpreter) (packageVersion : Text) :
    planIdentity python (lockWith packageVersion).dependencies =
      .ok (lockedPlan packageVersion) := by
  have hkeyed : (lockWith packageVersion).dependencies.mapM (fun dependency ↦ do
      return (← Value.toStr python (dependency.get "id"), dependency)) = Except.ok
        [(("libxgc2-adapter-runtime-client-dev" : Text), clientDependency packageVersion),
          (("xgc2-protobuf" : Text), protobufDependency)] := by
    have hclient : (clientDependency packageVersion).get "id" =
        .str "libxgc2-adapter-runtime-client-dev" :=
      get_locked _ (by simp [lockedEntries])
    have hprotobuf : protobufDependency.get "id" = .str "xgc2-protobuf" :=
      get_locked _ (by simp [lockedEntries])
    rw [mapM_eq_ok]
    refine .cons ?_ (.cons ?_ .nil)
    · rw [hclient]; rfl
    · rw [hprotobuf]; rfl
  have hsorted : ([(("libxgc2-adapter-runtime-client-dev" : Text), clientDependency packageVersion),
      (("xgc2-protobuf" : Text), protobufDependency)] : List (Text × Dependency)).Pairwise
        fun a b ↦ decide (a.1 ≤ b.1) := by
    have hle : decide (("libxgc2-adapter-runtime-client-dev" : Text) ≤
        ("xgc2-protobuf" : Text)) := by
      decide +kernel
    simpa using hle
  rw [planIdentity, hkeyed]
  refine congrArg (fun keyed ↦ Except.ok (Value.list (keyed.map fun entry ↦ planEntry entry.2)))
    (List.mergeSort_of_pairwise hsorted)

/-- The same plan with all keys in order. -/
def repositoryPlan : Value :=
  .list [sortedPlan "libxgc2-adapter-runtime-client-dev" "3e8ec42e34fcd5397e4c12e1505797c621ff9967"
    "0.6.0-16",
    sortedPlan "xgc2-protobuf" "952ed81c7ef0a9a7650f6d0d72ac8deb4a93f453" "0.5.0-19"]

private theorem canonical_digest_lockWith (packageVersion : Text) :
    canonical_digest Artifact.plainPython Generator.hashTools (lockedPlan packageVersion) =
      .ok planDigest := by
  have harranged : (⟨false, true, false⟩ : Json.Style).arrange (lockedPlan packageVersion) =
      repositoryPlan := by
    rw [lockedPlan, Json.Style.arrange_of_sorted _ rfl, Value.sorted, Value.sortedItems,
      Value.sortedItems, Value.sortedItems, clientDependency, protobufDependency, sorted_planEntry,
      sorted_planEntry, repositoryPlan]
  have hplan : (Json.Style.dumps Artifact.plainPython ⟨false, false, false⟩ repositoryPlan >>=
      fun t ↦ encodeUtf8 t >>= fun encoded ↦ pure (hexdigest (Sha256.digest encoded))) =
        Except.ok planDigest := by decide +kernel
  obtain ⟨t, ht, hdigest⟩ := bind_eq_ok.mp hplan
  refine bind_eq_ok.mpr ⟨t, ?_, hdigest⟩
  rw [Json.Style.dumps, Json.Style.dumpsAt_arrange, harranged]
  exact ht

theorem loaded_lockWith {packageVersion : Text} {content : ByteArray}
    (hcontent : (Node.file content).readText >>= Json.loads Artifact.plainPython =
      .ok (lockWith packageVersion).value.toValue) :
    Loaded Artifact.plainPython Generator.hashTools (some (.file content))
      (lockWith packageVersion) where
  content := ⟨_, rfl, hcontent⟩
  schema := Record.get_eq_of_mem (lockWith packageVersion).value (by decide : LOCK_FIELDS.Nodup) _
    (by simp [lockWith])
  two := rfl
  dependencies := Record.get_eq_of_mem (lockWith packageVersion).value
    (by decide : LOCK_FIELDS.Nodup) _ (by simp [lockWith])
  pinned := by
    rw [lockWith, List.forall_mem_cons, List.forall_mem_singleton]
    exact ⟨pinned_locked _ (by decide +kernel), pinned_locked _ (by decide +kernel)⟩
  digest := ⟨_, planDigest, planIdentity_lockWith _ _, canonical_digest_lockWith _,
    Record.get_eq_of_mem (lockWith packageVersion).value (by decide : LOCK_FIELDS.Nodup) _
      (by simp [lockWith])⟩

def repositoryArguments (content : ByteArray) : Arguments where
  lock := some (.file content)
  output := ⟨"/", ["build", "evidence.json"]⟩
  prepare_action := .ci
  dependency_mode := .locked_source
  dependency_set_digest := ⟨planDigest, by decide +kernel⟩
  architecture := .amd64
  apt_overlay_url := ⟨[], List.forall_mem_nil _⟩

def repositoryEntries : List Entry :=
  [⟨"libxgc2-adapter-runtime-client-dev", "0.6.0-16~noble",
    ("https://github.com/" : Text) ++ ("XGC-Team/xgc2-adapter-runtime-client-cpp" : Text) ++
      (".git@" : Text) ++ ("3e8ec42e34fcd5397e4c12e1505797c621ff9967" : Text)⟩,
    ⟨"xgc2-protobuf-dev", "0.5.0-19~noble",
    ("https://github.com/" : Text) ++ ("XGC-Team/xgc2-protobuf" : Text) ++ (".git@" : Text) ++
      ("952ed81c7ef0a9a7650f6d0d72ac8deb4a93f453" : Text)⟩]

def repositoryAsked : Run :=
  [⟨.dpkg_query "libxgc2-adapter-runtime-client-dev", .ok "0.6.0-16~noble".toByteArray⟩,
    ⟨.dpkg_query "xgc2-protobuf-dev", .ok "0.5.0-19~noble".toByteArray⟩]

private theorem gathered_locked {id repository sourceSha version package : Text}
    {packageVersion : String} (hversion : (packageVersion : Text) =
      strip (universalNewlines false (packageVersion : Text)))
    (hmode : args.dependency_mode = .locked_source) {dependencies : List Dependency}
    {entries : List Entry} {asked : Run}
    (rest : Gathered python args dependencies entries asked) :
    Gathered python args
      (lockedDependency id repository sourceSha version package packageVersion :: dependencies)
      (⟨package, packageVersion, ("https://github.com/" : Text) ++ repository ++ (".git@" : Text) ++
        sourceSha⟩ :: entries)
      (⟨.dpkg_query package, .ok packageVersion.toByteArray⟩ :: asked) := by
  have hget := @get_locked id repository sourceSha version package packageVersion
  refine .next ?_ (decodeUtf8_toByteArray packageVersion) hversion (fun _ ↦ ?_) ?_ rest
  · rw [hget (s := package) (by decide) (by simp [lockedEntries])]
    rfl
  · exact hget (by decide) (by simp [lockedEntries])
  · rw [sourceOf, hmode]
    dsimp only
    rw [hget (s := repository) (by decide) (by simp [lockedEntries]),
      hget (s := sourceSha) (by decide) (by simp [lockedEntries])]
    rfl

private theorem keyed_lockWith (packageVersion : Text) :
    (lockWith packageVersion).value.toValue.Keyed := by
  simp [lockWith, clientDependency, protobufDependency, lockedDependency, lockedEntries,
    Record.toValue, Value.Keyed, Value.KeyedEntries, Value.KeyedItems, Generator.ofString_inj]

/-- A file that holds such a lock. -/
theorem content_lockWith {packageVersion : Text} (hversion :
    (lockWith packageVersion).value.toValue.all Generator.ascii Generator.short = true) :
    ∃ content, (Node.file content).readText >>= Json.loads Artifact.plainPython =
      .ok (lockWith packageVersion).value.toValue := by
  obtain ⟨content, -, hread⟩ := Generator.manifestContent_ok Artifact.plainPython hversion
    (keyed_lockWith packageVersion) (Nat.le_of_ble_eq_true rfl)
  exact ⟨content, hread⟩

private theorem hex64_planDigest : HEX64 planDigest = true := by decide +kernel

theorem all_repositoryLock :
    (lockWith "0.6.0-16~noble").value.toValue.all Generator.ascii Generator.short = true := by
  decide +kernel

/-- The lock of the repository, with the versions it names. -/
theorem evidence_written_repository : ∃ content run,
    (Node.file content).readText >>= Json.loads Artifact.plainPython =
      .ok repositoryLock.value.toValue ∧
    Prog.Returns (main Artifact.plainPython Generator.hashTools (repositoryArguments content)).run
      run (.ok ()) ∧
    Evidenced Artifact.plainPython Generator.hashTools (repositoryArguments content) run
      (.ok ()) := by
  obtain ⟨content, hread⟩ := content_lockWith all_repositoryLock
  obtain ⟨written, hwritten⟩ := jsonContent_evidence Artifact.plainPython
    (repositoryArguments content) repositoryEntries
  have haccepted : Accepted Artifact.plainPython Generator.hashTools (repositoryArguments content)
      repositoryLock :=
    ⟨hex64_planDigest, loaded_lockWith hread, fun _ ↦ ⟨rfl, Record.get_eq_of_mem
      repositoryLock.value (by decide : LOCK_FIELDS.Nodup) _ (by simp [repositoryLock,
        lockWith, repositoryArguments])⟩, nofun⟩
  have hgathered : Gathered Artifact.plainPython (repositoryArguments content)
      repositoryLock.dependencies repositoryEntries repositoryAsked :=
    gathered_locked (by decide +kernel) rfl (gathered_locked (by decide +kernel) rfl .done)
  have hevidenced : Evidenced Artifact.plainPython Generator.hashTools (repositoryArguments content)
      (repositoryAsked ++ [⟨.write (.mkdir ⟨"/", ["build"]⟩), true⟩,
        ⟨.write (.write_text ⟨"/", ["build", "evidence.json"]⟩ written), true⟩]) (.ok ()) :=
    ⟨repositoryLock, repositoryEntries, repositoryAsked, written, _, rfl, haccepted, hgathered,
      hwritten, .done⟩
  have hrun := (evidence_written _ _ _).1 hevidenced
  refine ⟨content, _, hread, hrun, ?_⟩
  rcases (evidence_written _ _ _).2 hrun with h | ⟨⟨e, he⟩, -⟩
  · exact h
  · cases he

end Ros2ToolsAdapter.Evidence

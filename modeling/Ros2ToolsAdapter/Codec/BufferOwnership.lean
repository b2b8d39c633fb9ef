import Ros2ToolsAdapter.Codec.DynamicMessage

/-!
# Who owns a buffer

Whatever is done with any number of messages, each buffer belongs to one of them at most, and is
initialised, finished and released as often as it has been allocated: the messages are the owners of
a ledger whose resources are the buffers, and each operation on messages is a few steps of that
ledger (`step_refines`). So nothing about the order of the operations is left to be said here.
-/

namespace Ros2ToolsAdapter

open Interaction Ownership

/-! ## The calls on one buffer -/

/-- A buffer is allocated in the size of a table and initialised by it, and it is finished by the
same table and released. One that could not be initialised is released at once. -/
def bufferProtocol : Protocol Buffer MembersTable MemoryEvent where
  acquires data members block :=
    block = [⟨.operatorNew members.sizeOf, some data⟩, ⟨.init members data, .ok ()⟩]
  fails data members block := ∃ e : Exn,
    block = [⟨.operatorNew members.sizeOf, some data⟩, ⟨.init members data, .error e⟩,
      ⟨.operatorDelete data, ()⟩]
  releases data members block :=
    block = [⟨.fini members data, ()⟩, ⟨.operatorDelete data, ()⟩]

/-- The calls that are about the buffer. -/
def callsOn (data : Buffer) (calls : List MemoryEvent) : List MemoryEvent :=
  calls.filter fun event ↦ decide (MemoryEvent.buffer? event = some data)

section Blocks

variable {data : Buffer} {members : MembersTable} {block : List MemoryEvent}

private theorem buffer?_of_acquires (h : bufferProtocol.acquires data members block) :
    ∀ event ∈ block, MemoryEvent.buffer? event = some data := by
  rw [h]
  simp [MemoryEvent.buffer?]

private theorem buffer?_of_fails (h : bufferProtocol.fails data members block) :
    ∀ event ∈ block, MemoryEvent.buffer? event = some data := by
  obtain ⟨e, rfl⟩ := h
  simp [MemoryEvent.buffer?]

private theorem buffer?_of_releases (h : bufferProtocol.releases data members block) :
    ∀ event ∈ block, MemoryEvent.buffer? event = some data := by
  rw [h]
  simp [MemoryEvent.buffer?]

end Blocks

section CallsOn

variable {data : Buffer} {calls block : List MemoryEvent}

theorem callsOn_eq_self (h : ∀ event ∈ block, MemoryEvent.buffer? event = some data) :
    callsOn data block = block :=
  List.filter_eq_self.mpr fun event hevent ↦ decide_eq_true (h event hevent)

theorem callsOn_eq_nil (h : ∀ event ∈ block, MemoryEvent.buffer? event ≠ some data) :
    callsOn data block = [] :=
  List.filter_eq_nil_iff.mpr fun event hevent ↦ by simpa using h event hevent

/-- Calls about one buffer are added to that buffer's. -/
theorem callsOn_append (h : ∀ event ∈ block, MemoryEvent.buffer? event = some data) :
    (fun data' ↦ callsOn data' (calls ++ block)) =
      Function.update (fun data' ↦ callsOn data' calls) data (callsOn data calls ++ block) := by
  funext data'
  rw [callsOn, List.filter_append]
  by_cases hdata : data' = data
  · subst hdata
    rw [Function.update_self]
    exact congrArg _ (callsOn_eq_self h)
  · have hother : callsOn data' block = [] := by
      refine callsOn_eq_nil fun event hevent heq ↦ hdata ?_
      rw [h event hevent] at heq
      exact (Option.some.inj heq).symm
    rw [Function.update_of_ne hdata]
    exact (congrArg _ hother).trans (List.append_nil _)

/-- Calls about no buffer are added to none. -/
theorem callsOn_append_none (h : ∀ event ∈ block, MemoryEvent.buffer? event = none) :
    (fun data ↦ callsOn data (calls ++ block)) = fun data ↦ callsOn data calls := by
  funext data
  have hnone : callsOn data block = [] := by
    refine callsOn_eq_nil fun event hevent heq ↦ ?_
    rw [h event hevent] at heq
    cases heq
  rw [callsOn, List.filter_append]
  exact (congrArg _ hnone).trans (List.append_nil _)

end CallsOn

private theorem usedAfter_of_ne {data : Buffer} {event : MemoryEvent}
    (h : MemoryEvent.buffer? event ≠ some data) (used : Bool) :
    usedAfter data used event = used := by
  obtain ⟨call, answer⟩ := event
  cases call with
  | operatorNew size =>
    have hne : answer ≠ some data := h
    simp [usedAfter, hne]
  | operatorDelete released =>
    have hne : released ≠ data := fun heq ↦ h (congrArg some heq)
    simp [usedAfter, hne]
  | _ => rfl

/-- Whether storage is in use is a matter of the calls that are about it. -/
theorem inUse_callsOn (data : Buffer) (calls : List MemoryEvent) :
    inUse data (callsOn data calls) = inUse data calls := by
  rw [inUse, inUse, callsOn, List.foldl_filter]
  congr 1
  funext used event
  split
  · rfl
  · rename_i h
    rw [usedAfter_of_ne (by simpa using h)]

/-- A buffer is in use while its last lifetime is open. -/
theorem inUse_of_lifetimes {data : Buffer} {calls : List MemoryEvent}
    {members : Option MembersTable} (h : Lifetimes bufferProtocol data calls members) :
    inUse data calls = members.isSome := by
  induction h with
  | nil => rfl
  | acquired _ hblock =>
    rw [hblock]
    simp [inUse, usedAfter]
  | failed _ hblock =>
    obtain ⟨e, rfl⟩ := hblock
    simp [inUse, usedAfter]
  | released _ hblock =>
    rw [hblock]
    simp [inUse, usedAfter]

/-! ## The member functions -/

namespace DynamicMessage

/-- The buffer a message owns, and the table that goes with it. -/
def held (message : DynamicMessage) : Option (Buffer × MembersTable) :=
  match message.data_, message.members_ with
  | some data, some members => some (data, members)
  | _, _ => none

/-- Both pointers are null, or neither is. -/
def Paired (message : DynamicMessage) : Prop := message.data_.isSome ↔ message.members_.isSome

private theorem paired_empty : Paired empty := Iff.rfl

theorem held_eq_some {message : DynamicMessage} {data : Buffer} {members : MembersTable} :
    message.held = some (data, members) ↔ message = ⟨some members, some data⟩ := by
  obtain ⟨members', data'⟩ := message
  cases data' <;> cases members' <;> simp [held, and_comm]

/-- What the message holds, if anything, is given back. -/
def GivesBack (message : DynamicMessage) (calls : List MemoryEvent) : Prop :=
  message.held = none ∧ calls = [] ∨ ∃ data members, message.held = some (data, members) ∧
    bufferProtocol.releases data members calls

/-- No buffer is acquired. -/
def AcquiresNone (calls : List MemoryEvent) : Prop :=
  calls = [] ∨ (∃ size, calls = [⟨.operatorNew size, none⟩]) ∨
    ∃ data members, bufferProtocol.fails data members calls

/-- A constructor that returns has acquired a buffer. One that throws has acquired none. -/
theorem construct_wp (members : Option MembersTable) :
    Proc.wp (fun _ _ ↦ True) (construct members)
      (fun calls message ↦ ∃ data members', message = ⟨some members', some data⟩ ∧
        bufferProtocol.acquires data members' calls)
      (fun calls _ ↦ AcquiresNone calls) [] := by
  cases members with
  | none => exact Or.inl rfl
  | some members =>
    simp only [construct, throwIf]
    rw [Proc.wp_bind, Proc.wp_ite]
    refine ⟨fun _ ↦ Or.inl rfl, fun _ ↦ ?_⟩
    simp only [Proc.wp_pure, Proc.wp_bind, Proc.wp_invoke]
    intro data
    refine ⟨trivial, ?_⟩
    cases data with
    | none => exact Or.inr (Or.inl ⟨_, rfl⟩)
    | some data =>
      simp only [Proc.post, Proc.wp_tryCatch, Proc.wp_invoke]
      intro outcome
      refine ⟨trivial, ?_⟩
      cases outcome with
      | ok u => exact ⟨data, members, rfl, rfl⟩
      | error e =>
        simp only [Proc.wp_bind, Proc.wp_perform, Proc.wp_throw]
        exact fun _ ↦ ⟨trivial, Or.inr (Or.inr ⟨data, members, e, rfl⟩)⟩

theorem reset_wp (message : DynamicMessage) :
    Prog.wp (fun _ _ ↦ True) message.reset
      (fun calls left ↦ left = empty ∧ message.GivesBack calls) [] := by
  obtain ⟨members, data⟩ := message
  cases data with
  | none => exact ⟨rfl, Or.inl ⟨rfl, rfl⟩⟩
  | some data =>
    cases members with
    | none => exact ⟨rfl, Or.inl ⟨rfl, rfl⟩⟩
    | some members =>
      exact fun _ ↦ ⟨trivial, fun _ ↦ ⟨trivial, rfl, Or.inr ⟨data, members, rfl, rfl⟩⟩⟩

end DynamicMessage

/-! ## The constructor and its type

Where there is storage, the constructor does what `MessageSupport.construct` says of it. -/

namespace MessageSupport

/-- The table of the type, where it lies. -/
def table (support : MessageSupport) (address : ℕ) : MembersTable :=
  ⟨address, support.initFunction.isSome, support.finiFunction, support.sizeOf⟩

/-- There is storage, and the `init_function` is the one of the type. -/
def Answers (support : MessageSupport) : MemoryEvent → Prop
  | ⟨.operatorNew _, data⟩ => data.isSome
  | ⟨.init _ _, outcome⟩ => ∃ init, support.initFunction = some init ∧
      outcome = (init.map fun _ ↦ ()).mapError .std
  | _ => True

private theorem construct_of_incomplete {support : MessageSupport}
    (h : support.initFunction.isSome = false ∨ support.finiFunction = false ∨
      support.sizeOf = 0) :
    support.construct = .error (permanentError "ros_type_support_invalid"
      "ROS2 message introspection is incomplete") := by
  rw [MessageSupport.construct]
  cases hinit : support.initFunction with
  | none => rfl
  | some init =>
    rw [hinit] at h
    refine if_neg ?_
    rintro ⟨hfini, hsize⟩
    simp [hfini, hsize] at h

/-- On a complete table the outcome is that of the `init_function`. -/
theorem construct_of_complete {support : MessageSupport}
    (h : ¬(support.initFunction.isSome = false ∨ support.finiFunction = false ∨
      support.sizeOf = 0)) {members : MembersTable} {data : Buffer} {outcome : Except Exn Unit}
    (hanswer : support.Answers ⟨.init members data, outcome⟩) :
    (support.construct.map fun _ ↦ ()) = outcome := by
  obtain ⟨init, hinit, rfl⟩ := hanswer
  rw [not_or, not_or, Bool.not_eq_false, Bool.not_eq_false] at h
  rw [MessageSupport.construct, hinit]
  simp only [if_pos h.2]
  cases init <;> rfl

theorem construct_agrees (support : MessageSupport) (address : ℕ) {calls : List MemoryEvent}
    {result : Except Exn DynamicMessage}
    (hrun : Prog.Returns (DynamicMessage.construct (some (support.table address))).run calls result)
    (hanswers : ∀ event ∈ calls, support.Answers event) :
    (support.construct.map fun _ ↦ ()) = result.map fun _ ↦ () := by
  have hwp : Proc.wp (fun _ _ ↦ True) (DynamicMessage.construct (some (support.table address)))
      (fun calls _ ↦ (∀ event ∈ calls, support.Answers event) →
        (support.construct.map fun _ ↦ ()) = .ok ())
      (fun calls e ↦ (∀ event ∈ calls, support.Answers event) →
        (support.construct.map fun _ ↦ ()) = .error e) [] := by
    simp only [DynamicMessage.construct, throwIf]
    rw [Proc.wp_bind, Proc.wp_ite]
    refine ⟨fun hincomplete _ ↦ ?_, fun hcomplete ↦ ?_⟩
    · rw [construct_of_incomplete hincomplete]
      rfl
    · simp only [Proc.wp_pure, Proc.wp_bind, Proc.wp_invoke]
      intro data
      refine ⟨trivial, ?_⟩
      cases data with
      | none =>
        intro hanswers
        exact absurd (hanswers _ List.mem_cons_self) Bool.false_ne_true
      | some data =>
        simp only [Proc.post, Proc.wp_tryCatch, Proc.wp_invoke]
        intro outcome
        refine ⟨trivial, ?_⟩
        cases outcome with
        | ok u =>
          intro hanswers
          exact construct_of_complete hcomplete
            (hanswers ⟨.init (support.table address) data, .ok u⟩ (by simp))
        | error e =>
          simp only [Proc.wp_bind, Proc.wp_perform, Proc.wp_throw]
          refine fun _ ↦ ⟨trivial, fun hanswers ↦ ?_⟩
          exact construct_of_complete hcomplete
            (hanswers ⟨.init (support.table address) data, .error e⟩ (by simp))
  have hpost := Prog.wp_returns hwp hrun
  cases result with
  | ok message => exact hpost hanswers
  | error e => exact hpost hanswers

end MessageSupport

/-! ## The ledger of a world -/

namespace Objects

/-- Every object has both pointers null, or neither. -/
def Paired (objects : Objects) : Prop :=
  ∀ this message, objects this = some message → message.Paired

theorem Paired.fields {objects : Objects} (h : objects.Paired) (this : Object) :
    (objects.fields this).Paired := by
  rw [Objects.fields]
  cases hthis : objects this with
  | none => exact DynamicMessage.paired_empty
  | some message => exact h this message hthis

theorem Paired.update {objects : Objects} (h : objects.Paired) (this : Object)
    {x : Option DynamicMessage} (hx : ∀ message, x = some message → message.Paired) :
    Paired (Function.update objects this x) := by
  intro other message hother
  rw [Function.update_apply] at hother
  split at hother
  · exact hx message hother
  · exact h other message hother

theorem Paired.take {objects : Objects} (h : objects.Paired) (this other : Object) :
    (objects.take this other).Paired := by
  refine (h.update this ?_).update other ?_
  · rintro _ ⟨⟩
    exact h.fields other
  · rintro _ ⟨⟩
    exact DynamicMessage.paired_empty

private theorem held_fields (objects : Objects) (this : Object) :
    (objects.fields this).held = (objects this).bind DynamicMessage.held := by
  rw [fields]
  cases objects this <;> rfl

end Objects

namespace World

/-- Who owns which buffer, and the calls on each. -/
def ledger (w : World) : Ledger Object Buffer MembersTable MemoryEvent where
  held this := (w.objects this).bind DynamicMessage.held
  calls data := callsOn data w.calls

variable {w : World} {this other : Object} {calls : List MemoryEvent}

/-- One object is changed. -/
theorem held_update (objects : Objects) (this : Object) (x : Option DynamicMessage) :
    (fun o ↦ (Function.update objects this x o).bind DynamicMessage.held) =
      Function.update (fun o ↦ (objects o).bind DynamicMessage.held) this
        (x.bind DynamicMessage.held) :=
  funext fun o ↦ Function.apply_update (fun _ message ↦ message.bind DynamicMessage.held) objects
    this x o

/-- Storage that is not in use belongs to nobody. -/
theorem free_of_inUse_eq_false (h : w.ledger.Accounted bufferProtocol) {data : Buffer}
    (hdata : inUse data w.calls = false) : w.ledger.Free data := by
  intro owner members hheld
  have hused := inUse_of_lifetimes (h.owned hheld)
  rw [ledger, inUse_callsOn, hdata] at hused
  cases hused

/-- An object that has been reset owns nothing, and what it owned has been given back. -/
theorem release_steps (left : Option DynamicMessage)
    (hleft : left.bind DynamicMessage.held = none)
    (hreset : (w.objects.fields this).GivesBack calls) :
    Relation.ReflTransGen (Ledger.Step bufferProtocol) w.ledger
      (ledger ⟨Function.update w.objects this left, w.calls ++ calls⟩) := by
  rw [DynamicMessage.GivesBack, Objects.held_fields] at hreset
  rcases hreset with ⟨hnone, rfl⟩ | ⟨data, members, hsome, hblock⟩
  · have heq : ledger ⟨Function.update w.objects this left, w.calls ++ []⟩ = w.ledger := by
      refine Ledger.ext ?_ ?_
      · refine (held_update w.objects this left).trans ?_
        rw [hleft, ← hnone]
        exact Function.update_eq_self this _
      · rw [List.append_nil]
        rfl
    rw [heq]
  · have heq : ledger ⟨Function.update w.objects this left, w.calls ++ calls⟩ =
        ⟨Function.update w.ledger.held this none,
          Function.update w.ledger.calls data (w.ledger.calls data ++ calls)⟩ := by
      refine Ledger.ext ?_ (callsOn_append (buffer?_of_releases hblock))
      rw [← hleft]
      exact held_update w.objects this left
    rw [heq]
    exact Relation.ReflTransGen.single (Ledger.Step.release hsome hblock)

/-- An object that owns nothing takes over what another one owns. -/
theorem take_step (hne : this ≠ other) (hempty : w.ledger.held this = none) :
    Ledger.Step bufferProtocol w.ledger (ledger ⟨w.objects.take this other, w.calls⟩) := by
  have heq : ledger ⟨w.objects.take this other, w.calls⟩ =
      ⟨Function.update (Function.update w.ledger.held this (w.ledger.held other)) other none,
        w.ledger.calls⟩ := by
    refine Ledger.ext ?_ rfl
    refine (held_update _ other _).trans ?_
    rw [held_update, Option.bind_some, Objects.held_fields]
    rfl
  rw [heq]
  exact Ledger.Step.transfer hne hempty

private theorem held_of_objects {x : Option DynamicMessage} (h : w.objects this = x) :
    w.ledger.held this = x.bind DynamicMessage.held :=
  congrArg (fun message ↦ message.bind DynamicMessage.held) h

end World

/-! ## Operations -/

namespace Operation

variable (objects : Objects) (this other : Object)

theorem construct_wp (members : Option MembersTable) :
    Prog.wp (fun _ _ ↦ True) ((construct this members).perform objects)
      (fun calls objects' ↦ (∃ data members', bufferProtocol.acquires data members' calls ∧
          objects' = Function.update objects this (some ⟨some members', some data⟩)) ∨
        DynamicMessage.AcquiresNone calls ∧ objects' = objects) [] := by
  refine Proc.wp_catching ?_
  rw [Proc.wp_bind]
  refine Proc.wp_mono ?_ ?_ (DynamicMessage.construct_wp members)
  · rintro calls _ ⟨data, members', rfl, hblock⟩
    exact Or.inl ⟨data, members', hblock, rfl⟩
  · exact fun calls _ hcalls ↦ Or.inr ⟨hcalls, rfl⟩

theorem moveConstruct_wp :
    Prog.wp (fun _ _ ↦ True) ((moveConstruct this other).perform objects)
      (fun calls objects' ↦ calls = [] ∧ objects' = objects.take this other) [] := by
  rw [perform, Objects.moveConstruct]
  exact ⟨rfl, rfl⟩

/-- What the target holds is given back before it takes over what the source holds. -/
theorem moveAssign_wp :
    Prog.wp (fun _ _ ↦ True) ((moveAssign this other).perform objects)
      (fun calls objects' ↦ this = other ∧ calls = [] ∧ objects' = objects ∨
        this ≠ other ∧ (objects.fields this).GivesBack calls ∧
          objects' = Objects.take (Function.update objects this (some .empty)) this other) [] := by
  rw [perform, Objects.moveAssign]
  split
  · rename_i hne
    rw [Prog.bind_def, Prog.wp_bind]
    refine Prog.wp_mono ?_ (DynamicMessage.reset_wp (objects.fields this))
    rintro calls _ ⟨rfl, hcalls⟩
    exact Or.inr ⟨hne, hcalls, rfl⟩
  · rename_i heq
    exact Or.inl ⟨not_not.mp heq, rfl, rfl⟩

theorem destroy_wp :
    Prog.wp (fun _ _ ↦ True) ((destroy this).perform objects)
      (fun calls objects' ↦ (objects.fields this).GivesBack calls ∧
        objects' = Function.update objects this none) [] := by
  rw [perform, Objects.destroy, Prog.bind_def, Prog.wp_bind]
  refine Prog.wp_mono ?_ (DynamicMessage.reset_wp (objects.fields this))
  rintro calls _ ⟨-, hcalls⟩
  exact ⟨hcalls, rfl⟩

end Operation

namespace World

variable {w w' : World} {this other : Object} {calls : List MemoryEvent}

/-- The steps of the ledger that an operation comes to. -/
abbrev Steps (w w' : World) : Prop :=
  Relation.ReflTransGen (Ledger.Step bufferProtocol) w.ledger w'.ledger

private theorem acquire_steps {data : Buffer} {members : MembersTable} (hfree : w.ledger.Free data)
    (hthis : w.objects this = none) (hblock : bufferProtocol.acquires data members calls) :
    Steps w
      ⟨Function.update w.objects this (some ⟨some members, some data⟩), w.calls ++ calls⟩ := by
  have heq : ledger ⟨Function.update w.objects this (some ⟨some members, some data⟩),
      w.calls ++ calls⟩ = ⟨Function.update w.ledger.held this (some (data, members)),
        Function.update w.ledger.calls data (w.ledger.calls data ++ calls)⟩ :=
    Ledger.ext (held_update w.objects this _) (callsOn_append (buffer?_of_acquires hblock))
  rw [Steps, heq]
  exact Relation.ReflTransGen.single (Ledger.Step.acquire hfree (held_of_objects hthis) hblock)

/-- A constructor that throws leaves the ledger as it was, but for a buffer that has come and
gone. -/
theorem acquireNone_steps (hcalls : DynamicMessage.AcquiresNone calls)
    (hfree : ∀ size data rest, calls = ⟨.operatorNew size, some data⟩ :: rest →
      w.ledger.Free data) :
    Steps w ⟨w.objects, w.calls ++ calls⟩ := by
  rcases hcalls with rfl | ⟨size, rfl⟩ | ⟨data, members, hblock⟩
  · rw [List.append_nil]
  · have heq : ledger ⟨w.objects, w.calls ++ [⟨.operatorNew size, none⟩]⟩ = w.ledger :=
      Ledger.ext rfl (callsOn_append_none (by simp [MemoryEvent.buffer?]))
    rw [Steps, heq]
  · have heq : ledger ⟨w.objects, w.calls ++ calls⟩ = ⟨w.ledger.held,
        Function.update w.ledger.calls data (w.ledger.calls data ++ calls)⟩ :=
      Ledger.ext rfl (callsOn_append (buffer?_of_fails hblock))
    obtain ⟨e, hcalls⟩ := hblock
    rw [Steps, heq]
    exact Relation.ReflTransGen.single (Ledger.Step.fail (hfree _ _ _ hcalls) ⟨e, hcalls⟩)

/-- **The messages keep a ledger.** Each operation on them is some steps of it. -/
theorem step_refines (hstep : Step w w') (h : w.ledger.Accounted bufferProtocol)
    (hpaired : w.objects.Paired) : Steps w w' ∧ w'.objects.Paired := by
  obtain @⟨operation, objects, calls, hallowed, hrun, hallocates⟩ := hstep
  cases operation with
  | construct this members =>
    -- the allocation is the first call, so its storage is not in use before the operation
    have hfree (size : ℕ) (data : Buffer) (rest : List MemoryEvent)
        (hcalls : calls = ⟨.operatorNew size, some data⟩ :: rest) : w.ledger.Free data := by
      have hdata : inUse data (w.calls ++ []) = false := hallocates [] _ rest hcalls
      rw [List.append_nil] at hdata
      exact free_of_inUse_eq_false h hdata
    rcases Prog.wp_returns (Operation.construct_wp w.objects this members) hrun with
      ⟨data, members', hblock, rfl⟩ | ⟨hnone, rfl⟩
    · refine ⟨acquire_steps (hfree _ _ _ hblock) hallowed hblock, hpaired.update this ?_⟩
      rintro _ ⟨⟩
      exact Iff.rfl
    · exact ⟨acquireNone_steps hnone hfree, hpaired⟩
  | moveConstruct this other =>
    obtain ⟨rfl, rfl⟩ := Prog.wp_returns (Operation.moveConstruct_wp w.objects this other) hrun
    obtain ⟨hthis, hother⟩ := hallowed
    have hne : this ≠ other := by
      rintro rfl
      rw [hthis] at hother
      cases hother
    refine ⟨?_, hpaired.take this other⟩
    rw [List.append_nil]
    exact Relation.ReflTransGen.single (take_step hne (held_of_objects hthis))
  | moveAssign this other =>
    rcases Prog.wp_returns (Operation.moveAssign_wp w.objects this other) hrun with
      ⟨-, rfl, rfl⟩ | ⟨hne, hcalls, rfl⟩
    · refine ⟨?_, hpaired⟩
      rw [List.append_nil]
    · have hrelease := release_steps (some .empty) rfl hcalls
      have hempty : (ledger ⟨Function.update w.objects this (some .empty),
          w.calls ++ calls⟩).held this = none := by
        rw [held_of_objects (Function.update_self this (some DynamicMessage.empty) w.objects)]
        rfl
      refine ⟨hrelease.tail (take_step hne hempty),
        Objects.Paired.take (hpaired.update this ?_) this other⟩
      rintro _ ⟨⟩
      exact DynamicMessage.paired_empty
  | destroy this =>
    obtain ⟨hcalls, rfl⟩ := Prog.wp_returns (Operation.destroy_wp w.objects this) hrun
    refine ⟨release_steps none rfl hcalls, hpaired.update this ?_⟩
    rintro _ ⟨⟩

/-- What any sequence of operations comes to is a run of the ledger. -/
theorem reachable_refines (h : Reachable w) : Steps initial w ∧ w.objects.Paired := by
  have hruns : Relation.ReflTransGen Step initial w := h
  clear h
  induction hruns with
  | refl => exact ⟨Relation.ReflTransGen.refl, fun this message hthis ↦ nomatch hthis⟩
  | tail _ hstep ih =>
    obtain ⟨hsteps, hpaired⟩ := ih
    have haccounted := Ledger.accounted_of_steps hsteps Ledger.accounted_empty
    obtain ⟨hmore, hpaired'⟩ := step_refines hstep haccounted hpaired
    exact ⟨hsteps.trans hmore, hpaired'⟩

/-! ## What always holds -/

/-- Every buffer has one owner at most, and the calls on it are lifetimes that account for it. -/
structure Sound (w : World) : Prop where
  paired : ∀ this message, w.objects this = some message →
    (message.data_.isSome ↔ message.members_.isSome)
  exclusive : ∀ this other message message' data, w.objects this = some message →
    w.objects other = some message' → message.data_ = some data → message'.data_ = some data →
      this = other
  /-- A buffer that an object owns is allocated, and initialised by the object's table. -/
  owned : ∀ this message data, w.objects this = some message → message.data_ = some data →
    ∃ members, message.members_ = some members ∧
      Lifetimes bufferProtocol data (callsOn data w.calls) (some members)
  /-- Any other has been finished and released as often as it has been initialised. -/
  unowned : ∀ data, (∀ this message, w.objects this = some message →
    message.data_ ≠ some data) → Lifetimes bufferProtocol data (callsOn data w.calls) none

private theorem sound_of_accounted (hpaired : w.objects.Paired)
    (h : w.ledger.Accounted bufferProtocol) : w.Sound := by
  -- an object with a buffer has a table beside it, and so an entry in the ledger
  have hheld {this : Object} {message : DynamicMessage} {data : Buffer}
      (hthis : w.objects this = some message) (hdata : message.data_ = some data) :
      ∃ members, message.members_ = some members ∧
        w.ledger.held this = some (data, members) := by
    have hmembers : message.members_.isSome := (hpaired this message hthis).mp (by simp [hdata])
    obtain ⟨members, hmembers⟩ := Option.isSome_iff_exists.mp hmembers
    refine ⟨members, hmembers, (held_of_objects hthis).trans ?_⟩
    simp [DynamicMessage.held, hdata, hmembers]
  refine ⟨hpaired, ?_, ?_, ?_⟩
  · intro this other message message' data hthis hother hdata hdata'
    obtain ⟨members, -, howner⟩ := hheld hthis hdata
    obtain ⟨members', -, howner'⟩ := hheld hother hdata'
    exact h.exclusive howner howner'
  · intro this message data hthis hdata
    obtain ⟨members, hmembers, howner⟩ := hheld hthis hdata
    exact ⟨members, hmembers, h.owned howner⟩
  · intro data hnone
    refine h.free fun this members howner ↦ ?_
    obtain ⟨message, hthis, hmessage⟩ := Option.bind_eq_some_iff.mp howner
    rw [DynamicMessage.held_eq_some] at hmessage
    exact hnone this message hthis (by rw [hmessage])

/-- **Buffers are owned.** After any operations on any objects each buffer has its one owner or has
been given back, and when no object is left no storage is in use. -/
theorem buffers_owned (h : Reachable w) :
    w.Sound ∧ ((∀ this, w.objects this = none) → ∀ data, inUse data w.calls = false) := by
  obtain ⟨hsteps, hpaired⟩ := reachable_refines h
  have haccounted := Ledger.accounted_of_steps hsteps Ledger.accounted_empty
  have hsound := sound_of_accounted hpaired haccounted
  refine ⟨hsound, fun hempty data ↦ ?_⟩
  have hlifetimes := hsound.unowned data fun this message hthis ↦ by
    rw [hempty this] at hthis
    cases hthis
  rw [← inUse_callsOn]
  exact inUse_of_lifetimes hlifetimes

/-- A type of messages of three bytes. -/
def smallTable : MembersTable := ⟨0, true, true, 3⟩

/-- Two messages are made, the second is moved into the first, and both are destroyed. -/
def tradedCalls : List MemoryEvent :=
  [⟨.operatorNew 3, some 7⟩, ⟨.init smallTable 7, .ok ()⟩, ⟨.operatorNew 3, some 8⟩,
    ⟨.init smallTable 8, .ok ()⟩, ⟨.fini smallTable 7, ()⟩, ⟨.operatorDelete 7, ()⟩,
    ⟨.fini smallTable 8, ()⟩, ⟨.operatorDelete 8, ()⟩]

/-- A message of three bytes is made. -/
theorem construct_small (this : Object) (data : Buffer) (hthis : w.objects this = none)
    (hdata : inUse data w.calls = false) :
    Step w ⟨Function.update w.objects this (some ⟨some smallTable, some data⟩), w.calls ++
      [⟨.operatorNew 3, some data⟩, ⟨.init smallTable data, .ok ()⟩]⟩ := by
  refine Step.perform (.construct this (some smallTable)) hthis ?_ ?_
  · refine Prog.Returns.call ?_
    refine Prog.Returns.call ?_
    exact Prog.Reaches.refl
  · refine Prog.Guarded.concat (t := [_]) (Prog.Guarded.concat (t := []) (Prog.guarded_nil _) ?_) ?_
    · rwa [List.append_nil]
    · trivial

/-- A release allocates nothing. -/
theorem guarded_release (before : List MemoryEvent) (members : MembersTable) (data : Buffer) :
    Prog.Guarded (fun h event ↦ Allocates (before ++ h) event)
      [⟨.fini members data, ()⟩, ⟨.operatorDelete data, ()⟩] := by
  refine Prog.Guarded.concat (t := [_]) (Prog.Guarded.concat (t := []) (Prog.guarded_nil _) ?_) ?_
  · trivial
  · trivial

section Released

variable {data : Buffer} {members : MembersTable} (this other : Object)
  (hthis : w.objects this = some ⟨some members, some data⟩)
include hthis

private theorem moveAssign_step (hne : this ≠ other) (hother : (w.objects other).isSome) :
    Step w ⟨Objects.take (Function.update w.objects this (some .empty)) this other,
      w.calls ++ [⟨.fini members data, ()⟩, ⟨.operatorDelete data, ()⟩]⟩ := by
  refine Step.perform (.moveAssign this other) ⟨by rw [hthis]; rfl, hother⟩ ?_
    (guarded_release _ members data)
  rw [Operation.perform, Objects.moveAssign, if_pos hne, Objects.fields, hthis]
  refine Prog.Returns.call ?_
  refine Prog.Returns.call ?_
  exact Prog.Reaches.refl

omit other in
private theorem destroy_step :
    Step w ⟨Function.update w.objects this none,
      w.calls ++ [⟨.fini members data, ()⟩, ⟨.operatorDelete data, ()⟩]⟩ := by
  refine Step.perform (.destroy this) (by rw [Operation.Allowed, hthis]; rfl) ?_
    (guarded_release _ members data)
  rw [Operation.perform, Objects.destroy, Objects.fields, hthis]
  refine Prog.Returns.call ?_
  refine Prog.Returns.call ?_
  exact Prog.Reaches.refl

end Released

private theorem reachable_traded : ∃ w, Reachable w ∧ w.calls = tradedCalls ∧
    ∀ this, w.objects this = none := by
  have hfirst := Relation.ReflTransGen.refl.tail
    (construct_small (w := initial) 0 7 rfl rfl)
  have hsecond := hfirst.tail (construct_small 1 8 rfl (by decide))
  have hmoved := hsecond.tail (moveAssign_step 0 1 rfl (by decide) rfl)
  have hfreed := hmoved.tail (destroy_step 0 rfl)
  have hboth := hfreed.tail (Step.perform (.destroy 1) rfl Prog.Reaches.refl (Prog.guarded_nil _))
  refine ⟨_, hboth, rfl, fun this ↦ ?_⟩
  by_cases hone : this = 1
  · subst hone
    rfl
  · by_cases hzero : this = 0
    · subst hzero
      rfl
    · simp [Objects.take, initial, hone, hzero]

theorem buffers_owned_traded : ∃ w : World, w.calls = tradedCalls ∧ w.Sound ∧
    ∀ data, inUse data w.calls = false := by
  obtain ⟨w, hreachable, hcalls, hempty⟩ := reachable_traded
  obtain ⟨hsound, hnone⟩ := buffers_owned hreachable
  exact ⟨w, hcalls, hsound, hnone hempty⟩

end World

end Ros2ToolsAdapter

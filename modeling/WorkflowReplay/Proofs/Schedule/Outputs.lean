import WorkflowReplay.Proofs.Schedule.Touches

/-!
# What becomes of the output of a task

A task that ends leaves its output on the board and queues whoever waits for it.  The first who asks
for the output afterwards takes it away.  So whether it can be taken is a matter of the touches
before, and who is still waiting for a task waits for one that has not ended, or whose output was
given to somebody else.
-/

set_option autoImplicit false

namespace WorkflowReplay.Schedule

variable {V O : Type}

def Touch.ConcernsOutput (task : TaskId) : Touch V O → Prop
  | .poll _ key => key = .output task
  | .takeOutput id => id = task
  | .finish id _ => id = task
  | _ => False

def Touch.ended? : Touch V O → Option TaskId
  | .finish task _ => some task
  | _ => none

namespace Board

/-! ## What a touch does to an output -/

theorem look_outputSlot (w : Waiting V O) (me : TaskId) (p : PlaceholderId) (task : TaskId) :
    (w.look me p).2.outputSlot task = w.outputSlot task := by
  unfold Waiting.look
  split <;> rfl

theorem resolve_outputSlot (b : Board V O) (p : PlaceholderId) (v : V) (task : TaskId) :
    (b.resolve p v).2.waiting.outputSlot task = b.waiting.outputSlot task := by
  unfold resolve
  split
  · next waiter waiting taken =>
    obtain ⟨-, rfl⟩ := Waiting.resolve?_eq taken
    simp [Waiting.outputSlot]
  · rfl

theorem outputSlot_other {b : Board V O} {task : TaskId} {t : Touch V O}
    (other : ¬ t.ConcernsOutput task) :
    (b.touch t).waiting.outputSlot task = b.waiting.outputSlot task := by
  cases t with
  | resolve p v => exact resolve_outputSlot b p v task
  | poll me key =>
    cases key with
    | value p => exact look_outputSlot b.waiting me p task
    | output id =>
      have apart : id ≠ task := fun same => other (congrArg Awaited.output same)
      simp only [touch, Waiting.lookOutput]
      split
      · rw [Waiting.outputSlot_insert, if_neg apart]
      · rw [Waiting.outputSlot_insert, if_neg apart]
  | takeOutput id =>
    have apart : id ≠ task := other
    simp only [touch, takeOutput, Waiting.takeOutput]
    rw [Waiting.outputSlot_insert, if_neg apart]
  | wake id => simp [touch]
  | newTask => simp [touch, newTask]
  | finish id o =>
    have apart : id ≠ task := other
    simp only [touch, finish, Waiting.finish, wakeWaiter_waiting]
    rw [Waiting.outputSlot_insert, if_neg apart]
  | _ => rfl

theorem finish_outputSlot (b : Board V O) (task : TaskId) (o : O) :
    (b.finish task o).waiting.outputSlot task = { value := some o } := by
  simp only [finish, Waiting.finish, wakeWaiter_waiting]
  rw [Waiting.outputSlot_insert, if_pos rfl]

theorem lookOutput_value (w : Waiting V O) (me task : TaskId) :
    ((w.lookOutput me task).2.outputSlot task).value = none := by
  unfold Waiting.lookOutput
  simp only
  split
  · rw [Waiting.outputSlot_insert, if_pos rfl]
  · rw [Waiting.outputSlot_insert, if_pos rfl]

theorem takeOutput_value (b : Board V O) (task : TaskId) :
    ((b.takeOutput task).2.waiting.outputSlot task).value = none := by
  simp only [takeOutput, Waiting.takeOutput]
  rw [Waiting.outputSlot_insert, if_pos rfl]

theorem lookOutput_answer (w : Waiting V O) (me task : TaskId) :
    (w.lookOutput me task).1 = (w.outputSlot task).value := by
  unfold Waiting.lookOutput
  simp only
  split
  · next o stored => exact stored.symm
  · next stored => exact stored.symm

theorem takeOutput_answer (b : Board V O) (task : TaskId) :
    (b.takeOutput task).1 = (b.waiting.outputSlot task).value := rfl

theorem mem_ready_finish {b : Board V O} {me task : TaskId}
    (waits : b.waiting.outputSlot task = { waiter := some me }) (o : O) :
    me ∈ (b.finish task o).ready := by
  simp [finish, Waiting.finish, waits, wakeWaiter, mem_wake]

/-! ## What happened to an output -/

variable (ts : List (Touch V O)) (task : TaskId)

/-- The task has ended with this output, and nobody has asked for it since. -/
def LeftOutput (o : O) : Prop :=
  ∃ past later, ts = past ++ .finish task o :: later ∧ ∀ t ∈ later, ¬ t.ConcernsOutput task

def GaveOutput : Prop :=
  Happened (fun b t => (∃ me o, t = .poll me (.output task) ∧
      (b.waiting.lookOutput me task).1 = some o) ∨
    ∃ o, t = .takeOutput task ∧ (b.takeOutput task).1 = some o) ts

variable {ts task}

theorem leftOutput_nil (o : O) : ¬ LeftOutput ([] : List (Touch V O)) task o := by
  rintro ⟨past, later, same, -⟩
  simp at same

theorem leftOutput_concat (t : Touch V O) (o : O) :
    LeftOutput (ts ++ [t]) task o ↔
      t = .finish task o ∨ LeftOutput ts task o ∧ ¬ t.ConcernsOutput task := by
  constructor
  · rintro ⟨past, later, same, quiet⟩
    rcases concat_eq_split.mp same with ⟨rfl, rfl, rfl⟩ | ⟨before, rfl, rfl⟩
    · exact .inl rfl
    · exact .inr ⟨⟨past, before, rfl, fun t member => quiet t (by simp [member])⟩,
        quiet t (by simp)⟩
  · rintro (rfl | ⟨⟨past, later, rfl, quiet⟩, other⟩)
    · exact ⟨ts, [], rfl, by simp⟩
    · refine ⟨past, later ++ [t], by simp, ?_⟩
      intro t' member
      rcases List.mem_append.mp member with old | new
      · exact quiet t' old
      · rwa [List.mem_singleton.mp new]

theorem stores_iff (ts : List (Touch V O)) (task : TaskId) (o : O) :
    ((after ts).waiting.outputSlot task).value = some o ↔ LeftOutput ts task o := by
  induction ts using List.reverseRecOn with
  | nil => exact iff_of_false (by simp [after, Waiting.outputSlot, Table.getD]) (leftOutput_nil o)
  | append_singleton ts t ih =>
    rw [after_concat, leftOutput_concat]
    by_cases concerns : t.ConcernsOutput task
    · cases t with
      | poll me key =>
        have same : key = .output task := concerns
        subst same
        simp [touch, lookOutput_value, concerns]
      | takeOutput id =>
        have same : id = task := concerns
        subst same
        simp [touch, takeOutput_value, concerns]
      | finish id o' =>
        have same : id = task := concerns
        subst same
        simp [touch, finish_outputSlot, concerns]
      | _ => exact concerns.elim
    · rw [outputSlot_other concerns, ih]
      constructor
      · intro old
        exact .inr ⟨old, concerns⟩
      · rintro (rfl | ⟨old, -⟩)
        · exact absurd rfl concerns
        · exact old

theorem leftOutput_or_gaveOutput {o : O} (ended : .finish task o ∈ ts) :
    (∃ o, LeftOutput ts task o) ∨ GaveOutput ts task := by
  induction ts using List.reverseRecOn with
  | nil => simp at ended
  | append_singleton ts t ih =>
    by_cases last : ∃ o, t = .finish task o
    · obtain ⟨o, rfl⟩ := last
      exact .inl ⟨o, (leftOutput_concat _ o).mpr (.inl rfl)⟩
    · have before : .finish task o ∈ ts := by
        rcases List.mem_append.mp ended with old | new
        · exact old
        · exact absurd ⟨o, (List.mem_singleton.mp new).symm⟩ last
      rcases ih before with ⟨o, stays⟩ | gave
      · have stored := (stores_iff ts task o).mpr stays
        by_cases concerns : t.ConcernsOutput task
        · refine .inr ((happened_concat _ ts t).mpr (.inr ?_))
          cases t with
          | poll me key =>
            obtain rfl : key = .output task := concerns
            exact .inl ⟨me, o, rfl, (lookOutput_answer _ me task).trans stored⟩
          | takeOutput id =>
            obtain rfl : id = task := concerns
            exact .inr ⟨o, rfl, stored⟩
          | finish id o' =>
            obtain rfl : id = task := concerns
            exact absurd ⟨o', rfl⟩ last
          | _ => exact concerns.elim
        · exact .inl ⟨o, (leftOutput_concat t o).mpr (.inr ⟨stays, concerns⟩)⟩
      · exact .inr ((happened_concat _ ts t).mpr (.inl gave))

/-- What is answered after these touches to whoever asks for the output of a task: the task's output
if it has ended and nobody asked since.  Its end queues whoever waits for it. -/
structure JoinedOnce (ts : List (Touch V O)) (task : TaskId) : Prop where
  yields : ∀ me o, ((after ts).waiting.lookOutput me task).1 = some o ↔ LeftOutput ts task o
  takes : ∀ o, ((after ts).takeOutput task).1 = some o ↔ LeftOutput ts task o
  wakes : ∀ me o, (after ts).waiting.outputSlot task = { waiter := some me } →
    me ∈ ((after ts).finish task o).ready

theorem joinedOnce (ts : List (Touch V O)) (task : TaskId) : JoinedOnce ts task where
  yields me o := by
    rw [lookOutput_answer]
    exact stores_iff ts task o
  takes o := stores_iff ts task o
  wakes _ o waits := mem_ready_finish waits o

/-! ## What is outstanding -/

/-- The placeholder exists and was offered no value; the task has not ended, or its output was given
away. -/
def Outstanding (ts : List (Touch V O)) : Awaited → Prop
  | .value p => Made ts p ∧ ¬ Left ts p ∧ ¬ Offered ts p
  | .output task => (∀ o, .finish task o ∉ ts) ∨ GaveOutput ts task

theorem outstanding_value {ts : List (Touch V O)} {p : PlaceholderId} {waiter : Option TaskId}
    (waits : (after ts).slot? p = some { waiter }) : Outstanding ts (.value p) := by
  have stage := stage_of_log ts p
  rw [waits] at stage
  cases stage with
  | waits _ made here free => exact ⟨made, here, free⟩

theorem outstanding_output {ts : List (Touch V O)} {task : TaskId}
    (nothing : ((after ts).waiting.outputSlot task).value = none) :
    Outstanding ts (.output task) := by
  by_cases ended : ∃ o, .finish task o ∈ ts
  · obtain ⟨o, ended⟩ := ended
    rcases leftOutput_or_gaveOutput ended with ⟨o', stays⟩ | gave
    · rw [(stores_iff ts task o').mpr stays] at nothing
      cases nothing
    · exact .inr gave
  · exact .inl fun o member => ended ⟨o, member⟩

end Board

end WorkflowReplay.Schedule

import WorkflowReplay.Proofs.Schedule.Outputs
import WorkflowReplay.Proofs.Schedule.Turns

/-!
# No wake-up is lost

A task that is not done is either in the queue or parked: it is the waiter of something that is not
there yet.  Whatever touches a board leaves a parked task parked or queues it, unless it takes from
the task what the task keeps.  So when a run comes to its end every task is parked.
-/

set_option autoImplicit false

namespace WorkflowReplay.Schedule

variable {V O : Type}

/-! ## Parked tasks -/

namespace Board

def Lacks (b : Board V O) : Awaited → Prop
  | .value p => b.waiting.IsOpen p
  | .output task => b.waiting.isFinished task = false

/-- The task is the waiter of something that is not there yet. -/
def Parks (b : Board V O) (me : TaskId) : Awaited → Prop
  | .value p => b.slot? p = some { waiter := some me }
  | .output task => b.waiting.outputSlot task = { waiter := some me }

/-- The task is in the queue, or it is parked at one of these. -/
def Attends (b : Board V O) (me : TaskId) (keys : List Awaited) : Prop :=
  me ∈ b.ready ∨ ∃ key ∈ keys, b.Parks me key

theorem Parks.lacks {b : Board V O} {me : TaskId} {key : Awaited} (parks : b.Parks me key) :
    b.Lacks key := by
  cases key with
  | value p => exact ⟨_, parks⟩
  | output task =>
    have slot : b.waiting.outputSlot task = { waiter := some me } := parks
    simp [Lacks, Waiting.isFinished, slot]

theorem Parks.outstanding {ts : List (Touch V O)} {me : TaskId} {key : Awaited}
    (parks : (after ts).Parks me key) : Outstanding ts key := by
  cases key with
  | value p => exact outstanding_value parks
  | output task =>
    have slot : (after ts).waiting.outputSlot task = { waiter := some me } := parks
    exact outstanding_output (by rw [slot])

def Fresh (b : Board V O) : Prop :=
  ∀ p slot, b.slot? p = some slot → p.number < b.waiting.nextPlaceholder

theorem fresh_empty : ({} : Board V O).Fresh := by
  intro p slot found
  simp [slot?] at found

theorem Fresh.touch {b : Board V O} (fresh : b.Fresh) (t : Touch V O) : (b.touch t).Fresh := by
  intro p slot found
  have number : b.waiting.nextPlaceholder ≤ (b.touch t).waiting.nextPlaceholder := by
    rw [touch_nextPlaceholder]
    split <;> omega
  have old (slot : Slot V) (before : b.slot? p = some slot) :
      p.number < (b.touch t).waiting.nextPlaceholder :=
    Nat.lt_of_lt_of_le (fresh p slot before) number
  by_cases concerns : b.Concerns p t
  · cases t with
    | make =>
      obtain rfl : b.waiting.make.1 = p := concerns
      exact Nat.lt_succ_self _
    | resolve id v =>
      obtain rfl : id = p := concerns
      rw [slot?_resolve] at found
      split at found
      · next accepted =>
        obtain ⟨waiter, before⟩ := (accepts_iff_slot b id v).mp accepted
        exact old _ before
      · exact old _ found
    | drop id =>
      obtain rfl : id = p := concerns
      simp [slot?_drop] at found
    | poll me key =>
      obtain rfl : key = .value p := concerns
      rw [slot?_poll] at found
      split at found
      · next waiter before => exact old _ before
      · simp at found
    | _ => exact concerns.elim
  · rw [slot?_other concerns] at found
    exact old _ found

theorem Fresh.touches {b : Board V O} (fresh : b.Fresh) (ts : List (Touch V O)) :
    (ts.foldl Board.touch b).Fresh := by
  induction ts generalizing b with
  | nil => exact fresh
  | cons t rest ih => exact ih (fresh.touch t)

theorem mem_ready_touch {b : Board V O} {task : TaskId} (queued : task ∈ b.ready) {t : Touch V O}
    (other : t ≠ .next) : task ∈ (b.touch t).ready := by
  have wakeWaiter (b : Board V O) (waiter : Option TaskId) (queued : task ∈ b.ready) :
      task ∈ (b.wakeWaiter waiter).ready := by
    cases waiter with
    | none => exact queued
    | some id => exact (mem_wake b id task).mpr (.inr queued)
  cases t with
  | resolve id v =>
    simp only [touch, resolve]
    split
    · exact wakeWaiter _ _ queued
    · exact queued
  | poll me key => cases key <;> exact queued
  | wake id => exact (mem_wake b id task).mpr (.inr queued)
  | newTask => exact (mem_wake _ _ task).mpr (.inr queued)
  | next => exact absurd rfl other
  | finish id o => exact wakeWaiter _ _ queued
  | _ => exact queued

theorem mem_ready_touches {b : Board V O} {task : TaskId} (queued : task ∈ b.ready)
    {ts : List (Touch V O)} (other : ∀ t ∈ ts, t ≠ .next) :
    task ∈ (ts.foldl touch b).ready := by
  induction ts generalizing b with
  | nil => exact queued
  | cons t rest ih =>
    exact ih (mem_ready_touch queued (other t (by simp)))
      fun t member => other t (List.mem_cons_of_mem _ member)

@[simp] theorem wake_nextTask (b : Board V O) (id : TaskId) :
    (b.wake id).nextTask = b.nextTask := by
  unfold wake
  split <;> rfl

theorem wakeWaiter_nextTask (b : Board V O) (waiter : Option TaskId) :
    (b.wakeWaiter waiter).nextTask = b.nextTask := by
  cases waiter with
  | none => rfl
  | some id => exact wake_nextTask b id

theorem touch_nextTask (b : Board V O) (t : Touch V O) :
    (b.touch t).nextTask =
      match t with
      | .newTask => b.nextTask + 1
      | _ => b.nextTask := by
  cases t with
  | resolve id v =>
    simp only [touch, resolve]
    split
    · exact wakeWaiter_nextTask _ _
    · rfl
  | poll me key => cases key <;> rfl
  | wake id => exact wake_nextTask b id
  | newTask => exact wake_nextTask _ _
  | finish id o => exact wakeWaiter_nextTask _ _
  | _ => rfl

theorem touches_nextTask {ts : List (Touch V O)} (other : ∀ t ∈ ts, t ≠ .newTask)
    (b : Board V O) : (ts.foldl touch b).nextTask = b.nextTask := by
  induction ts generalizing b with
  | nil => rfl
  | cons t rest ih =>
    have first : t ≠ .newTask := other t (by simp)
    rw [List.foldl_cons, ih fun t member => other t (List.mem_cons_of_mem _ member),
      touch_nextTask]
    cases t with
    | newTask => exact absurd rfl first
    | _ => rfl

end Board

/-- What a touch takes from whoever keeps it. -/
def Touch.taken? : Touch V O → Option Awaited
  | .drop id => some (.value id)
  | .poll _ key => some key
  | _ => none

namespace Board

theorem parks_output_touch {b : Board V O} {me task : TaskId} (parks : b.Parks me (.output task))
    {t : Touch V O} (kept : t.taken? ≠ some (.output task)) :
    (b.touch t).Parks me (.output task) ∨ me ∈ (b.touch t).ready := by
  have slot : b.waiting.outputSlot task = { waiter := some me } := parks
  by_cases concerns : t.ConcernsOutput task
  · cases t with
    | poll other key =>
      obtain rfl : key = .output task := concerns
      exact absurd rfl kept
    | takeOutput id =>
      obtain rfl : id = task := concerns
      refine .inl ?_
      simp only [Parks, touch, takeOutput, Waiting.takeOutput]
      rw [Waiting.outputSlot_insert, if_pos rfl, slot]
    | finish id o =>
      obtain rfl : id = task := concerns
      exact .inr (mem_ready_finish slot o)
    | _ => exact concerns.elim
  · exact .inl ((outputSlot_other concerns).trans slot)

theorem parks_value_touch {b : Board V O} (fresh : b.Fresh) {me : TaskId} {p : PlaceholderId}
    (parks : b.Parks me (.value p)) {t : Touch V O} (kept : t.taken? ≠ some (.value p)) :
    (b.touch t).Parks me (.value p) ∨ me ∈ (b.touch t).ready := by
  have slot : b.slot? p = some { waiter := some me } := parks
  by_cases concerns : b.Concerns p t
  · cases t with
    | make =>
      have := fresh p _ slot
      obtain rfl : b.waiting.make.1 = p := concerns
      exact absurd this (Nat.lt_irrefl _)
    | resolve id v =>
      obtain rfl : id = p := concerns
      have found : b.waiting.placeholders.get? id = some { waiter := some me } := slot
      exact .inr (by simp [touch, resolve, Waiting.resolve?, found, wakeWaiter, mem_wake])
    | drop id =>
      obtain rfl : id = p := concerns
      exact absurd rfl kept
    | poll other key =>
      obtain rfl : key = .value p := concerns
      exact absurd rfl kept
    | _ => exact concerns.elim
  · exact .inl ((slot?_other concerns).trans slot)

theorem parks_touch {b : Board V O} (fresh : b.Fresh) {me : TaskId} {key : Awaited}
    (parks : b.Parks me key) {t : Touch V O} (kept : t.taken? ≠ some key) :
    (b.touch t).Parks me key ∨ me ∈ (b.touch t).ready := by
  cases key with
  | value p => exact parks_value_touch fresh parks kept
  | output task => exact parks_output_touch parks kept

theorem Attends.touch {b : Board V O} (fresh : b.Fresh) {me : TaskId} {keys : List Awaited}
    (attends : b.Attends me keys) {t : Touch V O} (other : t ≠ .next)
    (kept : ∀ key ∈ keys, t.taken? ≠ some key) : (b.touch t).Attends me keys := by
  rcases attends with queued | ⟨key, member, parks⟩
  · exact .inl (mem_ready_touch queued other)
  · rcases parks_touch fresh parks (kept key member) with still | queued
    · exact .inr ⟨key, member, still⟩
    · exact .inl queued

theorem Attends.touches {b : Board V O} (fresh : b.Fresh) {me : TaskId} {keys : List Awaited}
    (attends : b.Attends me keys) {ts : List (Touch V O)} (other : ∀ t ∈ ts, t ≠ .next)
    (kept : ∀ t ∈ ts, ∀ key ∈ keys, t.taken? ≠ some key) :
    (ts.foldl Board.touch b).Attends me keys := by
  induction ts generalizing b with
  | nil => exact attends
  | cons t rest ih =>
    exact ih (fresh.touch t) (attends.touch fresh (other t (by simp)) (kept t (by simp)))
      (fun t member => other t (List.mem_cons_of_mem _ member))
      (fun t member => kept t (List.mem_cons_of_mem _ member))

/-! ## Polls -/

/-- A poll of something that is not there parks the task. -/
theorem parks_poll {b : Board V O} {me : TaskId} {key : Awaited} (lacks : b.Lacks key) :
    (b.touch (.poll me key)).Parks me key := by
  cases key with
  | value p =>
    obtain ⟨waiter, found⟩ := lacks
    have slot : b.slot? p = some { waiter } := found
    simp [Parks, slot?_poll, slot]
  | output task =>
    have none : (b.waiting.outputSlot task).value = none := by
      simpa [Lacks, Waiting.isFinished] using lacks
    simp only [Parks, touch, Waiting.lookOutput, none]
    rw [Waiting.outputSlot_insert, if_pos rfl]

theorem Attends.touch_of_look {b : Board V O} (fresh : b.Fresh) {me : TaskId} {keys : List Awaited}
    (attends : b.Attends me keys) {t : Touch V O} (looks : t = .make ∨ ∃ key, t = .poll me key) :
    (b.touch t).Attends me keys := by
  rcases attends with queued | ⟨key, member, parks⟩
  · refine .inl (mem_ready_touch queued ?_)
    rcases looks with rfl | ⟨key, rfl⟩
    · simp
    · simp
  · by_cases again : t = .poll me key
    · subst again
      exact .inr ⟨key, member, parks_poll parks.lacks⟩
    · have kept : t.taken? ≠ some key := by
        rcases looks with rfl | ⟨other, rfl⟩
        · simp [Touch.taken?]
        · intro same
          exact again (congrArg (Touch.poll me) (Option.some.inj same))
      rcases parks_touch fresh parks kept with still | queued
      · exact .inr ⟨key, member, still⟩
      · exact .inl queued

theorem Attends.touches_of_looks {b : Board V O} (fresh : b.Fresh) {me : TaskId}
    {keys : List Awaited} (attends : b.Attends me keys) {ts : List (Touch V O)}
    (looks : ∀ t ∈ ts, t = .make ∨ ∃ key, t = .poll me key) :
    (ts.foldl Board.touch b).Attends me keys := by
  induction ts generalizing b with
  | nil => exact attends
  | cons t rest ih =>
    exact ih (fresh.touch t) (attends.touch_of_look fresh (looks t (by simp)))
      fun t member => looks t (List.mem_cons_of_mem _ member)

end Board

/-! ## The touches of a task -/

def Touch.IsOwn : Touch V O → Prop
  | .newTask | .next | .finish .. => False
  | _ => True

theorem Touch.IsOwn.ne_next_and_ne_newTask {t : Touch V O} (own : t.IsOwn) :
    t ≠ .next ∧ t ≠ .newTask := by
  constructor
  · rintro rfl
    exact own
  · rintro rfl
    exact own

variable {I : Interface}

/-- How the commands and the looks of a meaning are made of touches, and what a task keeps while it
waits. -/
structure Meaning.Tracing (m : Meaning I) where
  performed : TaskId → I.Command → World I → List (Touch I.Value I.Output)
  looked : TaskId → I.Wait → World I → List (Touch I.Value I.Output)
  kept : I.Wait → List Awaited
  perform_board : ∀ me c w,
    (m.perform me c w).2.board = (performed me c w).foldl Board.touch w.board
  look_board : ∀ me s w, (w.looked m me s).board = (looked me s w).foldl Board.touch w.board
  own : ∀ me c w, ∀ t ∈ performed me c w, t.IsOwn
  looks : ∀ me s w, ∀ t ∈ looked me s w, t = .make ∨ ∃ key, t = .poll me key

section Turns

variable {m : Meaning I} (T : m.Tracing)

theorem Meaning.Tracing.looks_own {me : TaskId} {s : I.Wait} {w : World I} :
    ∀ t ∈ T.looked me s w, t.IsOwn := by
  intro t member
  rcases T.looks me s w t member with rfl | ⟨key, rfl⟩
  all_goals trivial

def Meaning.Tracing.keptBy : Code I → List Awaited
  | .wait s _ => T.kept s
  | _ => []

def Code.touches (me : TaskId) : Code I → World I → List (Touch I.Value I.Output)
  | .done _, _ => []
  | .panic _, _ => []
  | .call c next, w =>
    T.performed me c w ++ (next (m.perform me c w).1).touches me (m.perform me c w).2
  | .spawn _ next, w =>
    .newTask :: (next w.board.newTask.1).touches me { w with board := w.board.newTask.2 }
  | .wait s next, w =>
    T.looked me s w ++
      match (m.look me s (w.board.waiting, w.shared)).1 with
      | (some a, left) => (next a left).touches me (w.looked m me s)
      | (none, _) => []
  | .turn _, _ => [.wake me]

/-- A turn that ends in a wait ends after the task polled something that it keeps and that is not
there. -/
def Code.Patient (me : TaskId) : Code I → World I → Prop
  | .done _, _ => True
  | .panic _, _ => True
  | .call c next, w => (next (m.perform me c w).1).Patient me (m.perform me c w).2
  | .spawn _ next, w =>
    (next w.board.newTask.1).Patient me { w with board := w.board.newTask.2 }
  | .wait s next, w =>
    match (m.look me s (w.board.waiting, w.shared)).1 with
    | (some a, left) => (next a left).Patient me (w.looked m me s)
    | (none, left) => ∃ key ∈ T.kept left, ∃ past later,
      T.looked me s w = past ++ .poll me key :: later ∧
        (past.foldl Board.touch w.board).Lacks key
  | .turn _, _ => True

theorem Code.run_wait_some {me : TaskId} {s left : I.Wait} {a : I.Answer} {w : World I}
    (answered : (m.look me s (w.board.waiting, w.shared)).1 = (some a, left))
    (next : I.Answer → I.Wait → Code I) :
    (Code.wait s next).run m me w = (next a left).run m me (w.looked m me s) := by
  simp [Code.run, answered, World.looked]

theorem Code.run_wait_none {me : TaskId} {s left : I.Wait} {w : World I}
    (nothing : (m.look me s (w.board.waiting, w.shared)).1 = (none, left))
    (next : I.Answer → I.Wait → Code I) :
    (Code.wait s next).run m me w = ⟨.pending (.wait left next), [], w.looked m me s⟩ := by
  simp [Code.run, nothing, World.looked]

theorem Code.run_board (me : TaskId) (c : Code I) (w : World I) :
    (c.run m me w).world.board = (c.touches T me w).foldl Board.touch w.board := by
  induction c generalizing w with
  | done o => rfl
  | panic message => rfl
  | call c next ih =>
    simp only [Code.run, Code.touches]
    rw [List.foldl_append, ← T.perform_board]
    exact ih _ _
  | spawn body next _ ih => exact ih _ _
  | wait s next ih =>
    rw [Code.touches, List.foldl_append, ← T.look_board]
    split
    · next a left answered =>
      rw [Code.run_wait_some answered]
      exact ih _ _ _
    · next left nothing =>
      rw [Code.run_wait_none nothing]
      rfl
  | turn next _ => rfl

theorem Code.touches_own (me : TaskId) (c : Code I) (w : World I) :
    ∀ t ∈ c.touches T me w, t.IsOwn ∨ t = .newTask := by
  induction c generalizing w with
  | done o => simp [Code.touches]
  | panic message => simp [Code.touches]
  | call c next ih =>
    intro t member
    rcases List.mem_append.mp member with now | later
    · exact .inl (T.own me c w t now)
    · exact ih _ _ t later
  | spawn body next _ ih =>
    intro t member
    rcases List.mem_cons.mp member with rfl | later
    · exact .inr rfl
    · exact ih _ _ t later
  | wait s next ih =>
    intro t member
    rw [Code.touches] at member
    rcases List.mem_append.mp member with now | later
    · exact .inl (T.looks_own t now)
    · split at later
      · exact ih _ _ _ t later
      · simp at later
  | turn next _ =>
    intro t member
    obtain rfl := List.mem_singleton.mp member
    exact .inl trivial

theorem Code.touches_ne_next (me : TaskId) (c : Code I) (w : World I) :
    ∀ t ∈ c.touches T me w, t ≠ .next := by
  rintro t member rfl
  rcases c.touches_own T me w _ member with own | spawned
  · exact own
  · cases spawned

theorem Code.touches_ended (me : TaskId) (c : Code I) (w : World I) :
    ∀ t ∈ c.touches T me w, t.ended? = none := by
  intro t member
  cases t with
  | finish id o =>
    rcases c.touches_own T me w _ member with own | spawned
    · exact own.elim
    · cases spawned
  | _ => rfl

/-! ## What a turn leaves behind -/

include T in
theorem perform_nextTask (me : TaskId) (c : I.Command) (w : World I) :
    (m.perform me c w).2.board.nextTask = w.board.nextTask := by
  rw [T.perform_board]
  exact Board.touches_nextTask (fun t member => (T.own me c w t member).ne_next_and_ne_newTask.2) _

include T in
theorem Code.run_spawned (me : TaskId) (c : Code I) (w : World I) :
    (c.run m me w).spawned.map (fun t => t.1.number) =
      List.range' w.board.nextTask (c.run m me w).spawned.length ∧
    (c.run m me w).world.board.nextTask =
      w.board.nextTask + (c.run m me w).spawned.length ∧
    ∀ t ∈ (c.run m me w).spawned, t.1 ∈ (c.run m me w).world.board.ready := by
  induction c generalizing w with
  | done o => simp [Code.run]
  | panic message => simp [Code.run]
  | call c next ih =>
    have rest := ih (m.perform me c w).1 (m.perform me c w).2
    rwa [perform_nextTask T] at rest
  | spawn body next _ ih =>
    obtain ⟨numbers, number, queued⟩ :=
      ih w.board.newTask.1 { w with board := w.board.newTask.2 }
    have first : w.board.newTask.1.number = w.board.nextTask := rfl
    have then' : w.board.newTask.2.nextTask = w.board.nextTask + 1 :=
      Board.touch_nextTask w.board .newTask
    simp only [then'] at numbers number
    simp only [Code.run, List.map_cons, List.length_cons, numbers, number, List.mem_cons,
      forall_eq_or_imp]
    refine ⟨?_, by omega, ?_, queued⟩
    · rw [List.range'_succ]
      rfl
    · rw [Code.run_board T]
      exact Board.mem_ready_touches ((Board.mem_wake _ _ _).mpr (.inl rfl))
        (Code.touches_ne_next T me _ _)
  | wait s next ih =>
    cases looked : (m.look me s (w.board.waiting, w.shared)).1 with
    | mk answer left =>
      cases answer with
      | some a =>
        rw [Code.run_wait_some looked]
        exact ih a left (w.looked m me s)
      | none =>
        rw [Code.run_wait_none looked]
        simp [World.looked]
  | turn next _ => simp [Code.run]

/-- A task that goes on is queued, or parked at something that it keeps. -/
theorem Code.run_attends (me : TaskId) (c : Code I) (w : World I) (fresh : w.board.Fresh)
    (patient : c.Patient T me w) {left : Code I} (goes : (c.run m me w).verdict = .pending left) :
    (c.run m me w).world.board.Attends me (T.keptBy left) := by
  induction c generalizing w with
  | done o => simp [Code.run] at goes
  | panic message => simp [Code.run] at goes
  | call c next ih =>
    refine ih _ _ ?_ patient goes
    rw [T.perform_board]
    exact fresh.touches _
  | spawn body next _ ih =>
    exact ih _ _ (fresh.touch .newTask) patient goes
  | wait s next ih =>
    have looked : (w.looked m me s).board.Fresh := by
      rw [T.look_board]
      exact fresh.touches _
    rw [Code.Patient] at patient
    split at patient
    · next a left answered =>
      rw [Code.run_wait_some answered] at goes ⊢
      exact ih _ _ _ looked patient goes
    · next left' nothing =>
      rw [Code.run_wait_none nothing] at goes ⊢
      cases goes
      obtain ⟨key, keeps, past, later, polls, lacks⟩ := patient
      change (w.looked m me s).board.Attends me (T.kept left')
      rw [T.look_board, polls, List.foldl_append, List.foldl_cons]
      have parked : ((past.foldl Board.touch w.board).touch (.poll me key)).Attends me
          (T.kept left') := .inr ⟨key, keeps, Board.parks_poll lacks⟩
      refine parked.touches_of_looks ((fresh.touches past).touch _) ?_
      intro t member
      exact T.looks me s w t (by simp [polls, member])
  | turn next _ =>
    cases goes
    exact .inl ((Board.mem_wake _ _ _).mpr (.inl rfl))

end Turns

end WorkflowReplay.Schedule

import WorkflowReplay.Proofs.Schedule.Parking
import WorkflowReplay.Proofs.Schedule.Polls
import WorkflowReplay.Proofs.Schedule.ReadyQueue

/-!
# The log of a run

A touch of a board queues at most one task, and a task that leaves the queue is polled unless it has
ended.  So a run writes a log of its queue.  `Logged` relates a log to the board and to the tasks
that have not ended, and one turn keeps it: the log stays proper, and the queue of the board is the
queue of the log.
-/

set_option autoImplicit false

namespace WorkflowReplay.Schedule

variable {V O : Type}

/-- The task whose waker the touch uses or leaves behind. -/
def Touch.waker? : Touch V O → Option TaskId
  | .wake id => some id
  | .poll me _ => some me
  | _ => none

namespace Board

/-! ## Who is queued -/

def queues? (b : Board V O) : Touch V O → Option TaskId
  | .wake id => some id
  | .newTask => some b.newTask.1
  | .resolve id v => (b.waiting.resolve? id v).bind Prod.fst
  | .finish id _ => (b.waiting.outputSlot id).waiter
  | _ => none

theorem wake_ready (b : Board V O) (id : TaskId) :
    (b.wake id).ready = if id ∈ b.ready then b.ready else b.ready ++ [id] := by
  simp only [wake, List.contains_iff_mem]
  split <;> rfl

theorem wakeWaiter_ready (b : Board V O) (waiter : Option TaskId) :
    (b.wakeWaiter waiter).ready =
      match waiter with
      | some id => if id ∈ b.ready then b.ready else b.ready ++ [id]
      | none => b.ready := by
  cases waiter with
  | none => rfl
  | some id => exact wake_ready b id

theorem touch_ready (b : Board V O) {t : Touch V O} (other : t ≠ .next) :
    (b.touch t).ready =
      match b.queues? t with
      | some id => if id ∈ b.ready then b.ready else b.ready ++ [id]
      | none => b.ready := by
  cases t with
  | resolve id v =>
    simp only [touch, resolve, queues?]
    cases b.waiting.resolve? id v with
    | none => rfl
    | some taken => exact wakeWaiter_ready _ taken.1
  | poll me key => cases key <;> rfl
  | wake id => exact wake_ready b id
  | newTask => exact wake_ready _ b.newTask.1
  | next => exact absurd rfl other
  | finish id o => exact wakeWaiter_ready _ _
  | _ => rfl

def Knows (b : Board V O) (id : TaskId) : Prop := 0 < id.number ∧ id.number < b.nextTask

theorem knows_touch (b : Board V O) {t : Touch V O} (old : t ≠ .newTask) (id : TaskId) :
    (b.touch t).Knows id ↔ b.Knows id := by
  unfold Knows
  rw [touch_nextTask]
  cases t with
  | newTask => exact absurd rfl old
  | _ => rfl

theorem knows_newTask {b : Board V O} (numbered : 0 < b.nextTask) (id : TaskId) :
    (b.touch .newTask).Knows id ↔ b.Knows id ∨ id = b.newTask.1 := by
  have number : (b.touch .newTask).nextTask = b.nextTask + 1 := touch_nextTask b .newTask
  have new : id = b.newTask.1 ↔ id.number = b.nextTask := by
    constructor
    · rintro rfl
      rfl
    · intro same
      exact congrArg TaskId.mk same
  simp only [Knows, number, new]
  omega

/-- The task stands in the queue, or will be queued when what it waits for is there. -/
inductive Reaches (b : Board V O) (id : TaskId) : Prop
  | ready (queued : id ∈ b.ready)
  | value (p : PlaceholderId) (slot : Slot V) (found : b.slot? p = some slot)
    (waits : slot.waiter = some id)
  | output (task : TaskId) (waits : (b.waiting.outputSlot task).waiter = some id)

theorem reaches_of_queues {b : Board V O} {t : Touch V O} {id : TaskId}
    (queues : b.queues? t = some id) :
    b.Reaches id ∨ t.waker? = some id ∨ t = .newTask ∧ id = b.newTask.1 := by
  cases t with
  | resolve p v =>
    obtain ⟨⟨waiter, waiting⟩, taken, rfl⟩ := Option.bind_eq_some_iff.mp queues
    unfold Waiting.resolve? at taken
    split at taken
    · next waiter' found =>
      cases taken
      exact .inl (.value p _ found rfl)
    · simp at taken
  | wake task => exact .inr (.inl queues)
  | newTask => exact .inr (.inr ⟨rfl, (Option.some.inj queues).symm⟩)
  | finish task o => exact .inl (.output task queues)
  | _ => simp [queues?] at queues

theorem waiter_of_touch {b : Board V O} {t : Touch V O} {p : PlaceholderId} {slot : Slot V}
    {id : TaskId} (found : (b.touch t).slot? p = some slot) (waits : slot.waiter = some id) :
    b.Reaches id ∨ t.waker? = some id := by
  by_cases concerns : b.Concerns p t
  · cases t with
    | make =>
      rw [slot?_make concerns] at found
      cases found
      simp at waits
    | resolve q v =>
      obtain rfl : q = p := concerns
      rw [slot?_resolve] at found
      split at found
      · cases found
        simp at waits
      · exact .inl (.value q slot found waits)
    | drop q =>
      obtain rfl : q = p := concerns
      simp [slot?_drop] at found
    | poll me key =>
      obtain rfl : key = .value p := concerns
      rw [slot?_poll] at found
      split at found
      · cases found
        exact .inr waits
      · simp at found
    | _ => exact concerns.elim
  · rw [slot?_other concerns] at found
    exact .inl (.value p slot found waits)

theorem joiner_of_touch {b : Board V O} {t : Touch V O} {task id : TaskId}
    (waits : ((b.touch t).waiting.outputSlot task).waiter = some id) :
    b.Reaches id ∨ t.waker? = some id := by
  cases t with
  | resolve p v =>
    rw [touch, resolve_outputSlot] at waits
    exact .inl (.output task waits)
  | poll me key =>
    cases key with
    | value p =>
      rw [touch, look_outputSlot] at waits
      exact .inl (.output task waits)
    | output joined =>
      simp only [touch, Waiting.lookOutput] at waits
      split at waits
      · rw [Waiting.outputSlot_insert] at waits
        split at waits
        · exact .inl (.output joined waits)
        · exact .inl (.output task waits)
      · rw [Waiting.outputSlot_insert] at waits
        split at waits
        · exact .inr waits
        · exact .inl (.output task waits)
  | takeOutput taken =>
    simp only [touch, takeOutput, Waiting.takeOutput] at waits
    rw [Waiting.outputSlot_insert] at waits
    split at waits
    · exact .inl (.output taken waits)
    · exact .inl (.output task waits)
  | wake woken =>
    rw [touch, wake_waiting] at waits
    exact .inl (.output task waits)
  | newTask =>
    simp only [touch, newTask, wake_waiting] at waits
    exact .inl (.output task waits)
  | finish done o =>
    simp only [touch, finish, Waiting.finish, wakeWaiter_waiting] at waits
    rw [Waiting.outputSlot_insert] at waits
    split at waits
    · simp at waits
    · exact .inl (.output task waits)
  | _ => exact .inl (.output task waits)

theorem reaches_of_touch {b : Board V O} {t : Touch V O} {id : TaskId}
    (reaches : (b.touch t).Reaches id) :
    b.Reaches id ∨ t.waker? = some id ∨ t = .newTask ∧ id = b.newTask.1 := by
  cases reaches with
  | ready queued =>
    by_cases next : t = .next
    · subst next
      exact .inl (.ready (List.mem_of_mem_tail queued))
    · rw [touch_ready b next] at queued
      cases queues : b.queues? t with
      | none =>
        rw [queues] at queued
        exact .inl (.ready queued)
      | some new =>
        simp only [queues] at queued
        split at queued
        · exact .inl (.ready queued)
        · rcases List.mem_append.mp queued with old | last
          · exact .inl (.ready old)
          · obtain rfl := List.mem_singleton.mp last
            exact reaches_of_queues queues
  | value p slot found waits => exact (waiter_of_touch found waits).imp_right .inl
  | output task waits => exact (joiner_of_touch waits).imp_right .inl

/-! ## What touches write -/

def marks (b : Board V O) (t : Touch V O) : List Mark := ((b.queues? t).map .queued).toList

def marksOf : Board V O → List (Touch V O) → List Mark
  | _, [] => []
  | b, t :: rest => b.marks t ++ (b.touch t).marksOf rest

theorem marksOf_append (b : Board V O) (ts later : List (Touch V O)) :
    b.marksOf (ts ++ later) = b.marksOf ts ++ (ts.foldl touch b).marksOf later := by
  induction ts generalizing b with
  | nil => rfl
  | cons t rest ih =>
    simp only [List.cons_append, marksOf, List.foldl_cons, ih, List.append_assoc]

variable {log : List Mark}

theorem ended_append_marks_iff (b : Board V O) (t : Touch V O) (id : TaskId) :
    Ended (log ++ b.marks t) id ↔ Ended log id := by
  unfold marks
  cases b.queues? t <;> simp [Ended]

theorem proper_append_marks (b : Board V O) (t : Touch V O) (proper : Proper log) :
    Proper (log ++ b.marks t) := by
  unfold marks
  cases b.queues? t with
  | none => simpa using proper
  | some id => exact proper_concat.mpr ⟨proper, trivial⟩

theorem queue_after_marks {b : Board V O} {t : Touch V O} (other : t ≠ .next)
    (queue : (MarkedQueue.after log).queue = b.ready) :
    (MarkedQueue.after (log ++ b.marks t)).queue = (b.touch t).ready := by
  rw [touch_ready b other, marks]
  cases b.queues? t with
  | none => simpa using queue
  | some id =>
    have pushed := (MarkedQueue.after_sound log).push_queue id
    rw [queue] at pushed
    exact (congrArg MarkedQueue.queue (MarkedQueue.after_concat log (.queued id))).trans pushed

end Board

/-! ## The log and the tasks -/

/-- The log is that of the board, and these are the tasks that have not ended. -/
structure Logged (log : List Mark) (live : List TaskId) (b : Board V O) : Prop where
  proper : Proper log
  queue : (MarkedQueue.after log).queue = b.ready
  numbered : 0 < b.nextTask
  known : ∀ id, b.Reaches id ∨ Ended log id → b.Knows id
  nodup : live.Nodup
  live : ∀ id, id ∈ live ↔ b.Knows id ∧ ¬ Ended log id

namespace Logged

variable {log : List Mark} {live : List TaskId} {b : Board V O}

theorem empty : Logged [] [] ({} : Board V O) where
  proper := proper_nil
  queue := rfl
  numbered := Nat.one_pos
  known := by
    rintro id (reaches | ended)
    · cases reaches with
      | ready queued => simp at queued
      | value p slot found waits => simp [Board.slot?] at found
      | output task waits => simp [Waiting.outputSlot, Table.getD] at waits
    · simp [Ended] at ended
  nodup := .nil
  live id := by
    simp only [List.not_mem_nil, false_iff, Board.Knows]
    omega

theorem of_perm {live' : List TaskId} (logged : Logged log live b) (perm : live'.Perm live) :
    Logged log live' b :=
  { logged with
    nodup := perm.nodup_iff.mpr logged.nodup
    live := fun id => perm.mem_iff.trans (logged.live id) }

theorem after_touch (logged : Logged log live b) {t : Touch V O} (other : t ≠ .next)
    (old : t ≠ .newTask) (wakers : ∀ id, t.waker? = some id → b.Knows id) :
    Logged (log ++ b.marks t) live (b.touch t) where
  proper := b.proper_append_marks t logged.proper
  queue := Board.queue_after_marks other logged.queue
  numbered := by
    rw [Board.touch_nextTask]
    cases t with
    | newTask => exact absurd rfl old
    | _ => exact logged.numbered
  known := by
    intro id involved
    rw [Board.knows_touch b old]
    rw [Board.ended_append_marks_iff] at involved
    rcases involved with reaches | ended
    · rcases Board.reaches_of_touch reaches with before | waker | ⟨new, -⟩
      · exact logged.known id (.inl before)
      · exact wakers id waker
      · exact absurd new old
    · exact logged.known id (.inr ended)
  nodup := logged.nodup
  live id := by
    rw [Board.knows_touch b old, Board.ended_append_marks_iff]
    exact logged.live id

theorem after_touches (logged : Logged log live b) {ts : List (Touch V O)}
    (other : ∀ t ∈ ts, t ≠ .next ∧ t ≠ .newTask)
    (wakers : ∀ t ∈ ts, ∀ id, t.waker? = some id → b.Knows id) :
    Logged (log ++ b.marksOf ts) live (ts.foldl Board.touch b) := by
  induction ts generalizing log b with
  | nil => simpa [Board.marksOf] using logged
  | cons t rest ih =>
    have first := other t (by simp)
    rw [Board.marksOf, ← List.append_assoc]
    refine ih (logged.after_touch first.1 first.2 (wakers t (by simp)))
      (fun t' member => other t' (List.mem_cons_of_mem _ member)) ?_
    intro t' member id waker
    rw [Board.knows_touch b first.2]
    exact wakers t' (List.mem_cons_of_mem _ member) id waker

theorem after_newTask (logged : Logged log live b) :
    Logged (log ++ b.marks .newTask) (live ++ [b.newTask.1]) (b.touch .newTask) := by
  have knows := Board.knows_newTask logged.numbered
  have unknown : ¬ b.Knows b.newTask.1 := fun knows => Nat.lt_irrefl _ knows.2
  refine ⟨b.proper_append_marks .newTask logged.proper, Board.queue_after_marks (by simp)
    logged.queue, ?_, ?_,
    ?_, ?_⟩
  · rw [Board.touch_nextTask]
    exact Nat.succ_pos _
  · intro id involved
    rw [knows]
    rw [Board.ended_append_marks_iff] at involved
    rcases involved with reaches | ended
    · rcases Board.reaches_of_touch reaches with before | waker | ⟨-, new⟩
      · exact .inl (logged.known id (.inl before))
      · simp [Touch.waker?] at waker
      · exact .inr new
    · exact .inl (logged.known id (.inr ended))
  · refine List.nodup_append.mpr ⟨logged.nodup, by simp, ?_⟩
    intro id member new last
    rw [List.mem_singleton.mp last]
    rintro rfl
    exact unknown ((logged.live _).mp member).1
  · intro id
    rw [knows, Board.ended_append_marks_iff, List.mem_append, List.mem_singleton, logged.live]
    constructor
    · rintro (⟨old, goesOn⟩ | rfl)
      · exact ⟨.inl old, goesOn⟩
      · exact ⟨.inr rfl, fun ended => unknown (logged.known _ (.inr ended))⟩
    · rintro ⟨old | new, goesOn⟩
      · exact .inl ⟨old, goesOn⟩
      · exact .inr new

/-! ### The first of the queue leaves it -/

variable {id : TaskId} {ready : List TaskId}

theorem knows_of_reaches_next (logged : Logged log live b) {other : TaskId}
    (reaches : (b.touch .next).Reaches other) : (b.touch .next).Knows other := by
  rw [Board.knows_touch b (by simp)]
  rcases Board.reaches_of_touch reaches with before | waker | ⟨new, -⟩
  · exact logged.known other (.inl before)
  · simp [Touch.waker?] at waker
  · simp at new

theorem queue_after_pop (logged : Logged log live b) (head : b.ready = id :: ready) {mark : Mark}
    (taken : (MarkedQueue.after log).record mark = (MarkedQueue.after log).pop.2) :
    (MarkedQueue.after (log ++ [mark])).queue = (b.touch .next).ready := by
  rw [MarkedQueue.after_concat, taken, MarkedQueue.pop_queue (logged.queue.trans head)]
  simp [Board.touch, head]

theorem after_polled_mark {others : List TaskId} (logged : Logged log (id :: others) b)
    (head : b.ready = id :: ready) (ends : Bool) :
    Logged (log ++ [.polled id ends]) (if ends then others else id :: others)
      (b.touch .next) := by
  have first := (logged.live id).mp (by simp)
  obtain ⟨absent, nodup⟩ := List.nodup_cons.mp logged.nodup
  have ended (other : TaskId) : Ended (log ++ [.polled id ends]) other ↔
      Ended log other ∨ id = other ∧ ends = true := by
    simp [ended_concat]
  have knows := Board.knows_touch b (t := .next) (by simp)
  refine ⟨proper_concat.mpr ⟨logged.proper, ?_, first.2⟩, logged.queue_after_pop head rfl,
    logged.numbered, ?_, ?_, ?_⟩
  · rw [logged.queue, head]
    rfl
  · intro other involved
    rw [ended] at involved
    rcases involved with reaches | before | ⟨rfl, -⟩
    · exact logged.knows_of_reaches_next reaches
    · exact (knows other).mpr (logged.known other (.inr before))
    · exact (knows id).mpr first.1
  · cases ends with
    | true => exact nodup
    | false => exact logged.nodup
  · intro other
    have before := logged.live other
    rw [ended, knows]
    cases ends with
    | false => simpa using before
    | true =>
      simp only [if_true, and_true, not_or]
      rw [← and_assoc, ← before, List.mem_cons]
      constructor
      · intro member
        exact ⟨.inr member, fun same => absent (same ▸ member)⟩
      · rintro ⟨rfl | member, apart⟩
        · exact absurd rfl apart
        · exact member

theorem ended_of_gone (logged : Logged log live b) (head : b.ready = id :: ready)
    (gone : id ∉ live) : Ended log id := by
  by_contra goesOn
  have known := logged.known id (.inl (.ready (by simp [head])))
  exact gone ((logged.live id).mpr ⟨known, goesOn⟩)

theorem after_passed_mark (logged : Logged log live b) (head : b.ready = id :: ready)
    (gone : id ∉ live) :
    Logged (log ++ [.passed id]) live (b.touch .next) := by
  have atEnd : Ended log id := logged.ended_of_gone head gone
  have ended (other : TaskId) : Ended (log ++ [.passed id]) other ↔ Ended log other := by
    simp [ended_concat]
  have knows := Board.knows_touch b (t := .next) (by simp)
  refine ⟨proper_concat.mpr ⟨logged.proper, ?_, atEnd⟩, logged.queue_after_pop head rfl,
    logged.numbered, ?_, logged.nodup, ?_⟩
  · rw [logged.queue, head]
    rfl
  · intro other involved
    rw [ended] at involved
    rcases involved with reaches | before
    · exact logged.knows_of_reaches_next reaches
    · exact (knows other).mpr (logged.known other (.inr before))
  · intro other
    rw [ended, knows]
    exact logged.live other

end Logged

variable {I : Interface} {m : Meaning I}

structure Meaning.Tracing.WakesTasks (T : m.Tracing) : Prop where
  performed : ∀ me c w, w.board.Knows me → ∀ t ∈ T.performed me c w,
    ∀ id, t.waker? = some id → w.board.Knows id
  looked : ∀ me s w, w.board.Knows me → ∀ t ∈ T.looked me s w,
    ∀ id, t.waker? = some id → w.board.Knows id

/-! ## The log of a turn -/

/-- What is written when a task leaves the queue, and while it is polled. -/
def Taking.marks (T : m.Tracing) : Taking I → List Mark
  | .polled p => .polled p.task (p.ends m) :: p.world.board.marksOf
      (p.code.touches T p.task p.world ++ (p.turn m).settling p.task)
  | .passed task _ => [.passed task]

def runMarks (T : m.Tracing) (tasks : Tasks I) (w : World I) : List Mark :=
  (takings m tasks w).flatMap (Taking.marks T)

theorem Turn.settling_wakes_nobody (t : Turn I) (id : TaskId) :
    ∀ touch ∈ t.settling id, touch.waker? = none := by
  unfold Turn.settling
  cases t.verdict <;> simp [Touch.waker?]

section Turns

variable {T : m.Tracing} {log : List Mark} {live : List TaskId}

theorem runMarks_idle (tasks : Tasks I) (w : World I) (idle : w.board.ready = []) :
    runMarks T tasks w = [] := by
  rw [runMarks, takings_idle m tasks w idle, List.flatMap_nil]

theorem runMarks_gone (tasks : Tasks I) (w : World I) {id : TaskId} {ready : List TaskId}
    (head : w.board.ready = id :: ready) (gone : Tasks.split? id tasks = none) :
    runMarks T tasks w = [.passed id] ++ runMarks T tasks (w.dequeued ready) := by
  rw [runMarks, takings_gone m tasks w head gone, List.flatMap_cons]
  rfl

theorem runMarks_turn (tasks : Tasks I) (w : World I) {id : TaskId} {ready : List TaskId}
    {code : Code I} {before after : Tasks I} (head : w.board.ready = id :: ready)
    (found : Tasks.split? id tasks = some (before, code, after)) :
    let p : Poll I := ⟨id, code, w.dequeued ready⟩
    runMarks T tasks w = (Taking.polled p).marks T ++
      runMarks T ((p.turn m).replacing id before after) ((p.turn m).settled id) := by
  rw [runMarks, takings_turn m tasks w head found, List.flatMap_cons]
  rfl

/-- The log is kept while a task runs, and the tasks that it starts have not ended. -/
theorem Code.run_logged (wakes : T.WakesTasks) (me : TaskId) (c : Code I) (w : World I)
    (logged : Logged log live w.board) (known : w.board.Knows me) :
    Logged (log ++ w.board.marksOf (c.touches T me w))
      (live ++ (c.run m me w).spawned.map Prod.fst) (c.run m me w).world.board := by
  induction c generalizing log live w with
  | done o => simpa [Code.touches, Code.run, Board.marksOf] using logged
  | panic message => simpa [Code.touches, Code.run, Board.marksOf] using logged
  | call c next ih =>
    have performed : Logged (log ++ w.board.marksOf (T.performed me c w)) live
        (m.perform me c w).2.board := by
      rw [T.perform_board]
      exact logged.after_touches (fun t member => (T.own me c w t member).ne_next_and_ne_newTask)
        (wakes.performed me c w known)
    have still : (m.perform me c w).2.board.Knows me := by
      unfold Board.Knows
      rw [perform_nextTask T]
      exact known
    have rest := ih (m.perform me c w).1 (m.perform me c w).2 performed still
    rw [Code.touches, Board.marksOf_append, ← T.perform_board, ← List.append_assoc]
    exact rest
  | spawn body next _ ih =>
    -- The new task does not run yet: its code is none of what this task touches.
    have still : w.board.newTask.2.Knows me :=
      (Board.knows_newTask logged.numbered me).mpr (.inl known)
    have rest :=
      ih w.board.newTask.1 { w with board := w.board.newTask.2 } logged.after_newTask still
    rw [List.append_assoc, List.append_assoc] at rest
    exact rest
  | wait s next ih =>
    have looked : Logged (log ++ w.board.marksOf (T.looked me s w)) live
        (w.looked m me s).board := by
      rw [T.look_board]
      exact logged.after_touches (fun t member => (T.looks_own t member).ne_next_and_ne_newTask)
        (wakes.looked me s w known)
    rw [Code.touches, Board.marksOf_append, ← T.look_board, ← List.append_assoc]
    split
    · next a left answered =>
      rw [Code.run_wait_some answered]
      exact ih a left (w.looked m me s) looked known
    · next left nothing =>
      rw [Code.run_wait_none nothing]
      simpa [Board.marksOf] using looked
  | turn next _ =>
    have woken := logged.after_touch (t := .wake me) (by simp) (by simp) fun id waker =>
      Option.some.inj waker ▸ known
    change Logged (log ++ (w.board.marks (.wake me) ++ [])) (live ++ []) (w.board.touch (.wake me))
    rwa [List.append_nil, List.append_nil]

/-- Who is polled, whoever it starts, and the others are the tasks that have not ended. -/
theorem Logged.after_poll (wakes : T.WakesTasks) {w : World I} {id : TaskId} {ready : List TaskId}
    {others : List TaskId} (code : Code I) (logged : Logged log (id :: others) w.board)
    (head : w.board.ready = id :: ready) :
    let p : Poll I := ⟨id, code, w.dequeued ready⟩
    Logged (log ++ (Taking.polled p).marks T)
      (((p.turn m).going id ++ (p.turn m).spawned).map Prod.fst ++ others)
      ((p.turn m).settled id).board := by
  intro p
  -- That the poll ends the task is written down before the task runs, so that no mark of the run
  -- has to be moved.
  have taken : Logged (log ++ [.polled id (p.ends m)])
    (((p.turn m).going id).map Prod.fst ++ others)
      p.world.board := by
    have going : ((p.turn m).going id).map Prod.fst ++ others =
        if p.ends m then others else id :: others := by
      unfold Turn.going Poll.ends
      cases (p.turn m).verdict <;> rfl
    have dequeued : w.board.touch .next = p.world.board :=
      Meaning.Tracing.Runs.touch_next_eq_dequeued head
    rw [going, ← dequeued]
    exact logged.after_polled_mark head (p.ends m)
  have known : p.world.board.Knows id := ((logged.live id).mp (by simp)).1
  have ran := code.run_logged wakes id p.world taken known
  have spares := (p.turn m).settling_spares id
  have settled := ran.after_touches
    (fun touch member => ⟨(spares touch member).1, (spares touch member).2.1⟩)
    fun touch member _ waker => by simp [(p.turn m).settling_wakes_nobody id touch member] at waker
  have log' : log ++ (Taking.polled p).marks T = log ++ [.polled id (p.ends m)] ++
      p.world.board.marksOf (code.touches T id p.world) ++
      (p.turn m).world.board.marksOf ((p.turn m).settling id) := by
    have board : (p.turn m).world.board = _ := code.run_board T id p.world
    simp only [Taking.marks, Board.marksOf_append, board, List.append_assoc, List.singleton_append]
    rfl
  rw [log', Turn.settled_board]
  refine settled.of_perm ?_
  rw [List.map_append, List.append_assoc, List.append_assoc]
  exact List.perm_append_comm.append_left _

theorem Logged.after_turn (wakes : T.WakesTasks) {tasks : Tasks I} {w : World I} {id : TaskId}
    {ready : List TaskId} {before after : Tasks I} {code : Code I}
    (logged : Logged log (tasks.map Prod.fst) w.board) (head : w.board.ready = id :: ready)
    (found : Tasks.split? id tasks = some (before, code, after)) :
    let p : Poll I := ⟨id, code, w.dequeued ready⟩
    Logged (log ++ (Taking.polled p).marks T) (((p.turn m).replacing id before after).map Prod.fst)
      ((p.turn m).settled id).board := by
  intro p
  have split : (tasks.map Prod.fst).Perm (id :: (before ++ after).map Prod.fst) := by
    rw [Tasks.eq_of_split? found]
    exact List.perm_middle.map Prod.fst
  refine ((logged.of_perm split.symm).after_poll wakes code head).of_perm ?_
  rw [← List.map_append]
  exact (Turn.replacing_perm _ _ _ _).map Prod.fst

theorem Logged.after_passing_over {tasks : Tasks I} {w : World I} {id : TaskId}
    {ready : List TaskId}
    (logged : Logged log (tasks.map Prod.fst) w.board) (head : w.board.ready = id :: ready)
    (gone : Tasks.split? id tasks = none) :
    Ended log id ∧ Logged (log ++ [.passed id]) (tasks.map Prod.fst) (w.dequeued ready).board := by
  have absent : id ∉ tasks.map Prod.fst := by
    intro member
    obtain ⟨task, member, same⟩ := List.mem_map.mp member
    exact Tasks.ne_of_split? gone task member same
  rw [← Meaning.Tracing.Runs.touch_next_eq_dequeued head]
  exact ⟨logged.ended_of_gone head absent, logged.after_passed_mark head absent⟩

theorem takeTurns_logged (wakes : T.WakesTasks) (tasks : Tasks I) (w : World I)
    (logged : Logged log (tasks.map Prod.fst) w.board) :
    Logged (log ++ runMarks T tasks w) ((takeTurns m tasks w).tasks.map Prod.fst)
      (takeTurns m tasks w).world.board := by
  induction tasks, w using turns_induction m generalizing log with
  | idle tasks w idle =>
    rw [takeTurns_idle m tasks w idle, runMarks_idle tasks w idle, List.append_nil]
    exact logged
  | gone tasks w id ready head gone ih =>
    rw [takeTurns_gone m tasks w head gone, runMarks_gone tasks w head gone, ← List.append_assoc]
    exact ih (logged.after_passing_over head gone).2
  | turn tasks w id ready before code after head found ih =>
    rw [takeTurns_turn m tasks w head found, runMarks_turn tasks w head found, ← List.append_assoc]
    exact ih (logged.after_turn wakes head found)

/-- Whoever is taken leaves the queue of the log so far. -/
theorem takings_queue (wakes : T.WakesTasks) (tasks : Tasks I) (w : World I)
    (logged : Logged log (tasks.map Prod.fst) w.board) {before after : List (Taking I)}
    {taking : Taking I} (split : takings m tasks w = before ++ taking :: after) :
    (MarkedQueue.after (log ++ before.flatMap (Taking.marks T))).queue =
      taking.task :: taking.world.board.ready := by
  induction tasks, w using turns_induction m generalizing log before with
  | idle tasks w idle =>
    rw [takings_idle m tasks w idle] at split
    simp at split
  | gone tasks w id ready head gone ih =>
    rw [takings_gone m tasks w head gone] at split
    rcases List.cons_eq_append_iff.mp split with ⟨rfl, first⟩ | ⟨before, rfl, rest⟩
    · obtain ⟨rfl, -⟩ := List.cons.inj first
      rw [List.flatMap_nil, List.append_nil, logged.queue]
      exact head
    · rw [List.flatMap_cons, ← List.append_assoc]
      exact ih (logged.after_passing_over head gone).2 rest
  | turn tasks w id ready former code latter head found ih =>
    rw [takings_turn m tasks w head found] at split
    rcases List.cons_eq_append_iff.mp split with ⟨rfl, first⟩ | ⟨before, rfl, rest⟩
    · obtain ⟨rfl, -⟩ := List.cons.inj first
      rw [List.flatMap_nil, List.append_nil, logged.queue]
      exact head
    · rw [List.flatMap_cons, ← List.append_assoc]
      exact ih (logged.after_turn wakes head found) rest

end Turns

end WorkflowReplay.Schedule

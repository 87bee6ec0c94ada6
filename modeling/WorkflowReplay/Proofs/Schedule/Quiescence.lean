import Mathlib
import WorkflowReplay.Proofs.Schedule.Parking
import WorkflowReplay.Schedule.Program

/-!
# Where a run comes to rest

A run goes on until nobody is queued, so it leaves all tasks parked; and as all that happened to the
board is a list of touches, each placeholder was assigned at most once, and the output of each task
was given to the first who asked after its end.  Programs over named placeholders are an example:
their commands and looks are made of touches.
-/

set_option autoImplicit false

namespace WorkflowReplay.Schedule

namespace Store

abbrev Touches := List (Touch Json Json)

def putTouches (name : String) (id : PlaceholderId) (s : Store) : Touches :=
  match s.placeholders.get? name with
  | some old => if old = id then [] else [.drop old]
  | none => []

def putBackTouches : List (String × PlaceholderId) → World interface → Touches
  | [], _ => []
  | p :: rest, w => putTouches p.1 p.2 w.shared ++ putBackTouches rest (put p.1 p.2 w)

def performTouches : Command → World interface → Touches
  | .make name, w => .make :: putTouches name w.board.make.1 w.shared
  | .resolve name v, w =>
    match w.shared.known.get? name with
    | some id => [.resolve id v]
    | none => []
  | .drop name, w =>
    match w.shared.placeholders.get? name with
    | some id => [.drop id]
    | none => []
  | .putBack placeholders, w => putBackTouches placeholders w
  | _, _ => []

def firstTouches (me : TaskId) : List (String × PlaceholderId) → Waiting Json Json → Touches
  | [], _ => []
  | (_, id) :: rest, w =>
    .poll me (.value id) ::
      match w.look me id with
      | (some _, _) => []
      | (none, w) => firstTouches me rest w

def lookTouches (me : TaskId) : Wait → World interface → Touches
  | .first placeholders, w => firstTouches me placeholders w.board.waiting
  | .output task, _ => [.poll me (.output task)]

def kept : Wait → List Awaited
  | .first placeholders => placeholders.map (fun p => .value p.2)
  | .output task => [.output task]

theorem put_board (name : String) (id : PlaceholderId) (w : World interface) :
    (put name id w).board = (putTouches name id w.shared).foldl Board.touch w.board := by
  unfold put putTouches
  cases w.shared.placeholders.get? name with
  | none => rfl
  | some old =>
    simp only
    split <;> rfl

theorem putBack_board (placeholders : List (String × PlaceholderId)) (w : World interface) :
    (placeholders.foldl (fun w p => put p.1 p.2 w) w).board =
      (putBackTouches placeholders w).foldl Board.touch w.board := by
  induction placeholders generalizing w with
  | nil => rfl
  | cons p rest ih =>
    rw [List.foldl_cons, ih, put_board]
    exact List.foldl_append.symm

theorem perform_board (me : TaskId) (c : Command) (w : World interface) :
    (perform me c w).2.board = (performTouches c w).foldl Board.touch w.board := by
  cases c with
  | make name =>
    exact put_board name w.board.make.1 { w with board := w.board.make.2 }
  | resolve name v =>
    simp only [perform, resolve, performTouches]
    cases w.shared.known.get? name <;> rfl
  | drop name =>
    simp only [perform, drop, performTouches]
    cases w.shared.placeholders.get? name <;> rfl
  | putBack placeholders => exact putBack_board placeholders w
  | _ => rfl

theorem lookFirst_waiting (me : TaskId) (placeholders : List (String × PlaceholderId))
    (b : Board Json Json) :
    { b with waiting := (lookFirst me placeholders b.waiting).2 } =
      (firstTouches me placeholders b.waiting).foldl Board.touch b := by
  induction placeholders generalizing b with
  | nil => rfl
  | cons p rest ih =>
    obtain ⟨name, id⟩ := p
    simp only [lookFirst, firstTouches, List.foldl_cons]
    cases looked : b.waiting.look me id with
    | mk answer waiting =>
      have touched : b.touch (.poll me (.value id)) = { b with waiting } := by
        simp [Board.touch, looked]
      rw [touched]
      cases answer with
      | some v => rfl
      | none => exact ih { b with waiting }

theorem look_board (me : TaskId) (s : Wait) (w : World interface) :
    (w.looked meaning me s).board = (lookTouches me s w).foldl Board.touch w.board := by
  cases s with
  | first placeholders => exact lookFirst_waiting me placeholders w.board
  | output task => rfl

theorem putTouches_drop {name : String} {id : PlaceholderId} {s : Store} {t : Touch Json Json}
    (member : t ∈ putTouches name id s) : ∃ old, t = .drop old := by
  unfold putTouches at member
  split at member
  · next old _ =>
    split at member
    · simp at member
    · exact ⟨old, List.mem_singleton.mp member⟩
  · simp at member

theorem putBackTouches_drop {placeholders : List (String × PlaceholderId)} {w : World interface}
    {t : Touch Json Json} (member : t ∈ putBackTouches placeholders w) : ∃ old, t = .drop old := by
  induction placeholders generalizing w with
  | nil => simp [putBackTouches] at member
  | cons p rest ih =>
    rcases List.mem_append.mp member with now | later
    · exact putTouches_drop now
    · exact ih later

theorem performTouches_cases {c : Command} {w : World interface} {t : Touch Json Json}
    (member : t ∈ performTouches c w) :
    t = .make ∨ (∃ id v, t = .resolve id v) ∨ ∃ id, t = .drop id := by
  cases c with
  | make name =>
    rcases List.mem_cons.mp member with rfl | dropped
    · exact .inl rfl
    · exact .inr (.inr (putTouches_drop dropped))
  | resolve name v =>
    simp only [performTouches] at member
    split at member
    · next id _ => exact .inr (.inl ⟨id, v, List.mem_singleton.mp member⟩)
    · simp at member
  | drop name =>
    simp only [performTouches] at member
    split at member
    · next id _ => exact .inr (.inr ⟨id, List.mem_singleton.mp member⟩)
    · simp at member
  | putBack placeholders => exact .inr (.inr (putBackTouches_drop member))
  | _ => simp [performTouches] at member

theorem performTouches_own {c : Command} {w : World interface} {t : Touch Json Json}
    (member : t ∈ performTouches c w) : t.IsOwn := by
  rcases performTouches_cases member with rfl | ⟨id, v, rfl⟩ | ⟨id, rfl⟩
  all_goals trivial

theorem firstTouches_poll {me : TaskId} {placeholders : List (String × PlaceholderId)}
    {w : Waiting Json Json} {t : Touch Json Json} (member : t ∈ firstTouches me placeholders w) :
    ∃ key, t = .poll me key := by
  induction placeholders generalizing w with
  | nil => simp [firstTouches] at member
  | cons p rest ih =>
    unfold firstTouches at member
    rcases List.mem_cons.mp member with rfl | later
    · exact ⟨_, rfl⟩
    · split at later
      · simp at later
      · exact ih later

def tracing : meaning.Tracing where
  performed _ := performTouches
  looked := lookTouches
  kept := kept
  perform_board := perform_board
  look_board := look_board
  own _ _ _ _ := performTouches_own
  looks me s w t member := by
    cases s with
    | first placeholders => exact .inr (firstTouches_poll member)
    | output task => exact .inr ⟨_, List.mem_singleton.mp member⟩

/-- A task starts another one that waits for a placeholder, joins it, and waits for a placeholder
of its own. -/
def joining : Scheduler interface :=
  (({ world := { shared := {} } } : Scheduler interface).spawn (Statement.codeAll
    [.placeholder "p", .spawn "t" [.await "p", .giveBack (.bool true)], .join "t",
      .placeholder "q", .await "q"])).2

/-- Both tasks wait, and the first placeholder is given its value. -/
def joiningResolved : Scheduler interface :=
  let s := (joining.run meaning).2
  { s with world := { s.world with board := s.world.board.touch (.resolve ⟨1⟩ .null) } }

theorem joining_runs :
    ∃ log, tracing.Runs (joining.tasks ++ joining.spawned) joining.world log := by
  have head : joining.world.board.ready = [⟨1⟩] := by cbv
  refine Meaning.Tracing.Runs.exists_turn head (by cbv) ?_ (of_decide_eq_true (by cbv)) ?_
  · cbv
    exact ⟨.output ⟨2⟩, List.mem_singleton.mpr rfl, [], [], rfl, rfl⟩
  refine Meaning.Tracing.Runs.exists_turn (by cbv) (by cbv) ?_ (of_decide_eq_true (by cbv)) ?_
  · cbv
    exact ⟨.value ⟨1⟩, List.mem_singleton.mpr rfl, [], [], rfl, ⟨none, rfl⟩⟩
  exact ⟨[], .idle (by cbv)⟩

theorem joiningResolved_runs :
    ∃ log, tracing.Runs (joiningResolved.tasks ++ joiningResolved.spawned)
      joiningResolved.world log := by
  have head : joiningResolved.world.board.ready = [⟨2⟩] := by cbv
  refine Meaning.Tracing.Runs.exists_turn head (by cbv) ?_ (of_decide_eq_true (by cbv)) ?_
  · cbv
  -- The end of the second task queued the first, which now gets the output.
  refine Meaning.Tracing.Runs.exists_turn (by cbv) (by cbv) ?_ (of_decide_eq_true (by cbv)) ?_
  · cbv
    exact ⟨.value ⟨2⟩, List.mem_singleton.mpr rfl, [], [], rfl, ⟨none, rfl⟩⟩
  exact ⟨[], .idle (by cbv)⟩

end Store

variable {I : Interface} {m : Meaning I}

/-- No wake-up is lost and every placeholder is assigned once: when a run comes to its end nobody is
queued, and every task that is left is the waiter of something that it keeps, a placeholder that was
offered no value or a task that has not ended or whose output was given away.  Each placeholder
answered all along as one that is assigned once, and each task that ended as one whose output is
given to the first who asks. -/
theorem run_leaves_all_parked {T : m.Tracing} {log later : List (Touch I.Value I.Output)}
    {s : Scheduler I} (reached : T.Reached log s)
    (runs : T.Runs (s.tasks ++ s.spawned) s.world later) :
    (s.run m).2.world.board.ready = [] ∧ (s.run m).2.spawned = [] ∧
    (∀ t ∈ (s.run m).2.tasks, ∃ wait next key, t.2 = .wait wait next ∧ key ∈ T.kept wait ∧
      Board.Outstanding (log ++ later) key ∧ (s.run m).2.world.board.Parks t.1 key) ∧
    (s.run m).2.world.board = Board.after (log ++ later) ∧
    (s.run m).1.completed = later.filterMap Touch.ended? ∧
    ∀ past, past <+: log ++ later →
      (∀ p, Board.AssignedOnce past p) ∧ ∀ task, Board.JoinedOnce past task := by
  have ready : (s.run m).2.world.board.ready = [] := takeTurns_ready m _ _
  have after := reached.run runs
  refine ⟨ready, rfl, ?_, after.board_eq_after, runs.completed_eq_ended,
    fun past _ => ⟨Board.assignedOnce past, Board.joinedOnce past⟩⟩
  rintro ⟨id, code⟩ member
  rcases after.awake.attended ⟨id, code⟩ (List.mem_append_left _ member) with
    queued | ⟨key, keeps, parks⟩
  · rw [ready] at queued
    simp at queued
  · have outstanding : Board.Outstanding (log ++ later) key := by
      rw [after.board_eq_after] at parks
      exact parks.outstanding
    cases code with
    | wait wait next => exact ⟨wait, next, key, rfl, keeps, outstanding, parks⟩
    | _ => simp [Meaning.Tracing.keptBy] at keeps

/-- The second task ends and is joined, and the first is left as the waiter of its placeholder. -/
theorem joiner_left_parked :
    ∃ log later, Store.tracing.Reached log Store.joiningResolved ∧
      Store.tracing.Runs (Store.joiningResolved.tasks ++ Store.joiningResolved.spawned)
        Store.joiningResolved.world later ∧
      later.filterMap Touch.ended? = [⟨2⟩] ∧
      (Store.joiningResolved.run Store.meaning).2.liveTasks = 1 ∧
      ∀ t ∈ (Store.joiningResolved.run Store.meaning).2.tasks, ∃ wait next key,
        t.2 = .wait wait next ∧ key ∈ Store.kept wait ∧ Board.Outstanding (log ++ later) key ∧
          (Store.joiningResolved.run Store.meaning).2.world.board.Parks t.1 key := by
  obtain ⟨first, runs⟩ := Store.joining_runs
  obtain ⟨later, runs'⟩ := Store.joiningResolved_runs
  have reached : Store.tracing.Reached ([] ++ [.newTask] ++ first) (Store.joining.run _).2 :=
    .run (.spawn (.start _) _) runs
  have reached' := reached.touch (t := .resolve ⟨1⟩ .null) trivial (by simp [Touch.taken?])
  obtain ⟨-, -, parked, -, completed, -⟩ := run_leaves_all_parked reached' runs'
  exact ⟨_, later, reached', runs', completed.symm.trans (by cbv), by cbv, parked⟩

end WorkflowReplay.Schedule

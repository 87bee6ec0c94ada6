import WorkflowReplay.Schedule.Scheduler

/-!
# Runs of a scheduler, turn by turn

`takeTurns` recurses over turns, so what holds of a whole run is shown for one turn and carried
along the run by `turns_induction`.  Two such arguments are made here once for every interface:
a relation between shared states that each command respects is respected by a run
(`Meaning.Keeps`), and commands of one kind have the numbers that follow each other
(`Meaning.Numbers`).

The commands that a run carries out are listed by `Code.calls` and `callsOfTurns`, each with the
world in which it was given.
-/

set_option autoImplicit false

namespace WorkflowReplay.Schedule

variable {I : Interface}

def World.dequeued (w : World I) (ready : List TaskId) : World I :=
  { w with board := { w.board with ready } }

/-! ## One turn at a time -/

theorem takeTurns_idle (m : Meaning I) (tasks : Tasks I) (w : World I)
    (idle : w.board.ready = []) : takeTurns m tasks w = ⟨{}, tasks, w⟩ := by
  rw [takeTurns]
  split
  · rfl
  · next h => simp [idle] at h

theorem takeTurns_gone (m : Meaning I) (tasks : Tasks I) (w : World I) {id : TaskId}
    {ready : List TaskId} (head : w.board.ready = id :: ready)
    (gone : Tasks.split? id tasks = none) :
    takeTurns m tasks w = takeTurns m tasks (w.dequeued ready) := by
  rw [takeTurns]
  split
  · next h => simp [head] at h
  · next id' ready' h =>
    obtain ⟨rfl, rfl⟩ := List.cons.inj (head.symm.trans h)
    split
    · rfl
    · next hs => simp [gone] at hs

theorem takeTurns_turn (m : Meaning I) (tasks : Tasks I) (w : World I) {id : TaskId}
    {ready : List TaskId} {code : Code I} {before after : Tasks I}
    (head : w.board.ready = id :: ready)
    (found : Tasks.split? id tasks = some (before, code, after)) :
    let t := code.run m id (w.dequeued ready)
    let rest := takeTurns m (t.replacing id before after) (t.settled id)
    takeTurns m tasks w = { rest with report := t.addTo id rest.report } := by
  intro t rest
  rw [takeTurns]
  split
  · next h => simp [head] at h
  · next id' ready' h =>
    obtain ⟨rfl, rfl⟩ := List.cons.inj (head.symm.trans h)
    split
    · next hs => simp [found] at hs
    · next hs =>
      obtain ⟨rfl, rfl, rfl⟩ : _ ∧ _ ∧ _ := by simpa using found.symm.trans hs
      rfl

theorem Turn.mem_replacing {t : Turn I} {id : TaskId} {before after : Tasks I}
    {task : TaskId × Code I} (member : task ∈ t.replacing id before after) :
    task ∈ before ∨ task ∈ after ∨ task ∈ t.spawned ∨
      ∃ c, t.verdict = .pending c ∧ task = (id, c) := by
  unfold Turn.replacing at member
  split at member
  · next c verdict =>
    simp only [List.mem_append, List.mem_cons] at member
    rcases member with (old | same | new) | old
    · exact .inl old
    · exact .inr (.inr (.inr ⟨c, verdict, same⟩))
    · exact .inr (.inr (.inl new))
    · exact .inr (.inl old)
  · simp only [List.mem_append] at member
    rcases member with (old | new) | old
    · exact .inl old
    · exact .inr (.inr (.inl new))
    · exact .inr (.inl old)

/-- What holds when no task is ready, and before a turn whenever it holds after it, holds of every
run. -/
theorem turns_induction (m : Meaning I) {motive : Tasks I → World I → Prop}
    (idle : ∀ tasks w, w.board.ready = [] → motive tasks w)
    (gone : ∀ tasks w id ready, w.board.ready = id :: ready → Tasks.split? id tasks = none →
      motive tasks (w.dequeued ready) → motive tasks w)
    (turn : ∀ tasks w id ready before code after, w.board.ready = id :: ready →
      Tasks.split? id tasks = some (before, code, after) →
      motive ((code.run m id (w.dequeued ready)).replacing id before after)
        ((code.run m id (w.dequeued ready)).settled id) →
      motive tasks w)
    (tasks : Tasks I) (w : World I) : motive tasks w := by
  induction tasks, w using takeTurns.induct m with
  | case1 tasks w hr => exact idle tasks w hr
  | case2 tasks w id ready hr w' hs ih => exact gone tasks w id ready hr hs ih
  | case3 tasks w id ready hr w' before code after hs t ih =>
    exact turn tasks w id ready before code after hr hs ih

/-! ## The commands of a run -/

structure Given (I : Interface) where
  task : TaskId
  command : I.Command
  world : World I

def Given.after (m : Meaning I) (g : Given I) : World I :=
  (m.perform g.task g.command g.world).2

def Code.calls (m : Meaning I) (me : TaskId) : Code I → World I → List (Given I)
  | .done _, _ => []
  | .panic _, _ => []
  | .call c next, w =>
    let r := m.perform me c w
    ⟨me, c, w⟩ :: (next r.1).calls m me r.2
  | .spawn _ next, w =>
    let (id, board) := w.board.newTask
    (next id).calls m me { w with board }
  | .wait s next, w =>
    let r := m.look me s (w.board.waiting, w.shared)
    match r.1.1 with
    | some a =>
      (next a r.1.2).calls m me
        { board := { w.board with waiting := r.2.1 }, shared := r.2.2 }
    | none => []
  | .turn _, _ => []

set_option linter.unusedVariables false in
def callsOfTurns (m : Meaning I) (tasks : Tasks I) (world : World I) : List (Given I) :=
  match hr : world.board.ready with
  | [] => []
  | id :: ready =>
    let world : World I := world.dequeued ready
    match hs : Tasks.split? id tasks with
    | none => callsOfTurns m tasks world
    | some (before, code, after) =>
      let t := code.run m id world
      code.calls m id world ++ callsOfTurns m (t.replacing id before after) (t.settled id)
termination_by (tasks.backlog, world.board.ready.length)
decreasing_by
  · rw [hr]
    exact .right _ (Nat.lt_succ_self _)
  · rw [hr, Tasks.eq_of_split? hs]
    exact Turn.decreases (code.run_progressed m id _) rfl before after

theorem callsOfTurns_idle (m : Meaning I) (tasks : Tasks I) (w : World I)
    (idle : w.board.ready = []) : callsOfTurns m tasks w = [] := by
  rw [callsOfTurns]
  split
  · rfl
  · next h => simp [idle] at h

theorem callsOfTurns_gone (m : Meaning I) (tasks : Tasks I) (w : World I) {id : TaskId}
    {ready : List TaskId} (head : w.board.ready = id :: ready)
    (gone : Tasks.split? id tasks = none) :
    callsOfTurns m tasks w = callsOfTurns m tasks (w.dequeued ready) := by
  rw [callsOfTurns]
  split
  · next h => simp [head] at h
  · next id' ready' h =>
    obtain ⟨rfl, rfl⟩ := List.cons.inj (head.symm.trans h)
    split
    · rfl
    · next hs => simp [gone] at hs

theorem callsOfTurns_turn (m : Meaning I) (tasks : Tasks I) (w : World I) {id : TaskId}
    {ready : List TaskId} {code : Code I} {before after : Tasks I}
    (head : w.board.ready = id :: ready)
    (found : Tasks.split? id tasks = some (before, code, after)) :
    let t := code.run m id (w.dequeued ready)
    callsOfTurns m tasks w =
      code.calls m id (w.dequeued ready) ++
        callsOfTurns m (t.replacing id before after) (t.settled id) := by
  intro t
  rw [callsOfTurns]
  split
  · next h => simp [head] at h
  · next id' ready' h =>
    obtain ⟨rfl, rfl⟩ := List.cons.inj (head.symm.trans h)
    split
    · next hs => simp [found] at hs
    · next hs =>
      obtain ⟨rfl, rfl, rfl⟩ : _ ∧ _ ∧ _ := by simpa using found.symm.trans hs
      rfl

def World.looked (m : Meaning I) (me : TaskId) (s : I.Wait) (w : World I) : World I :=
  let r := m.look me s (w.board.waiting, w.shared)
  { board := { w.board with waiting := r.2.1 }, shared := r.2.2 }

/-! ## Relations that a run respects -/

/-- Whatever a task does relates the shared state before it to the shared state after it. -/
structure Meaning.Keeps (m : Meaning I) (R : I.Shared → I.Shared → Prop) : Prop where
  refl : ∀ s, R s s
  trans : ∀ {a b c}, R a b → R b c → R a c
  perform : ∀ me c w, R w.shared (m.perform me c w).2.shared
  look : ∀ me s g, R g.2 (m.look me s g).2.2

section Keeps

variable {m : Meaning I} {R : I.Shared → I.Shared → Prop}

theorem Code.run_keeps (h : m.Keeps R) (me : TaskId) (c : Code I) (w : World I) :
    R w.shared (c.run m me w).world.shared := by
  induction c generalizing w with
  | done o => exact h.refl _
  | panic message => exact h.refl _
  | call c next ih => exact h.trans (h.perform me c w) (ih _ _)
  | spawn body next _ ih => exact ih _ { w with board := w.board.newTask.2 }
  | wait s next ih =>
    have looked := h.look me s (w.board.waiting, w.shared)
    simp only [Code.run]
    split
    · exact h.trans looked (ih _ _ ⟨_, _⟩)
    · exact looked
  | turn next _ => exact h.refl _

theorem Code.calls_keep (h : m.Keeps R) (me : TaskId) (c : Code I) (w : World I) :
    ∀ g ∈ c.calls m me w,
      R w.shared g.world.shared ∧ R (g.after m).shared (c.run m me w).world.shared := by
  induction c generalizing w with
  | done o => simp [Code.calls]
  | panic message => simp [Code.calls]
  | call c next ih =>
    intro g member
    rcases List.mem_cons.mp member with rfl | later
    · exact ⟨h.refl _, Code.run_keeps h me _ _⟩
    · obtain ⟨first, last⟩ := ih _ _ g later
      exact ⟨h.trans (h.perform me c w) first, last⟩
  | spawn body next _ ih => exact ih _ { w with board := w.board.newTask.2 }
  | wait s next ih =>
    have looked := h.look me s (w.board.waiting, w.shared)
    intro g member
    simp only [Code.calls] at member
    simp only [Code.run]
    split
    · next a found =>
      rw [found] at member
      obtain ⟨first, last⟩ := ih _ _ _ g member
      exact ⟨h.trans looked first, last⟩
    · next found => simp [found] at member
  | turn next _ => simp [Code.calls]

theorem Turn.settled_shared (t : Turn I) (id : TaskId) :
    (t.settled id).shared = t.world.shared := by
  unfold Turn.settled
  split <;> rfl

theorem takeTurns_keeps (h : m.Keeps R) (tasks : Tasks I) (w : World I) :
    R w.shared (takeTurns m tasks w).world.shared := by
  induction tasks, w using turns_induction m with
  | idle tasks w idle => rw [takeTurns_idle m tasks w idle]; exact h.refl _
  | gone tasks w id ready head gone ih =>
    rw [takeTurns_gone m tasks w head gone]
    exact ih
  | turn tasks w id ready before code after head found ih =>
    rw [takeTurns_turn m tasks w head found]
    have first := Code.run_keeps h id code (w.dequeued ready)
    rw [Turn.settled_shared] at ih
    exact h.trans first ih

theorem callsOfTurns_keep (h : m.Keeps R) (tasks : Tasks I) (w : World I) :
    ∀ g ∈ callsOfTurns m tasks w,
      R w.shared g.world.shared ∧ R (g.after m).shared (takeTurns m tasks w).world.shared := by
  induction tasks, w using turns_induction m with
  | idle tasks w idle => simp [callsOfTurns_idle m tasks w idle]
  | gone tasks w id ready head gone ih =>
    rw [callsOfTurns_gone m tasks w head gone, takeTurns_gone m tasks w head gone]
    exact ih
  | turn tasks w id ready before code after head found ih =>
    rw [callsOfTurns_turn m tasks w head found, takeTurns_turn m tasks w head found]
    have first := Code.run_keeps h id code (w.dequeued ready)
    have rest := takeTurns_keeps h
      ((code.run m id (w.dequeued ready)).replacing id before after)
      ((code.run m id (w.dequeued ready)).settled id)
    rw [Turn.settled_shared] at ih rest
    intro g member
    rcases List.mem_append.mp member with now | later
    · obtain ⟨early, late⟩ := Code.calls_keep h id code _ g now
      exact ⟨early, h.trans late rest⟩
    · obtain ⟨early, late⟩ := ih g later
      exact ⟨h.trans first early, late⟩

end Keeps

/-! ## Commands that are numbered -/

/-- Each command of a kind adds one to a number of the shared state, and nothing else changes
it. -/
structure Meaning.Numbers (m : Meaning I) (number : I.Shared → Nat) (kind : I.Command → Bool) :
    Prop where
  perform : ∀ me c w, number (m.perform me c w).2.shared =
    number w.shared + if kind c then 1 else 0
  look : ∀ me s g, number (m.look me s g).2.2 = number g.2

def ofKind (kind : I.Command → Bool) (gs : List (Given I)) : List (Given I) :=
  gs.filter (fun g => kind g.command)

section Numbers

variable {m : Meaning I} {number : I.Shared → Nat} {kind : I.Command → Bool}

theorem ofKind_append (gs gs' : List (Given I)) :
    ofKind kind (gs ++ gs') = ofKind kind gs ++ ofKind kind gs' := List.filter_append ..

theorem Code.calls_numbered (h : m.Numbers number kind) (me : TaskId) (c : Code I)
    (w : World I) :
    let gs := ofKind kind (c.calls m me w)
    gs.map (fun g => number g.world.shared) = List.range' (number w.shared) gs.length ∧
      number (c.run m me w).world.shared = number w.shared + gs.length := by
  induction c generalizing w with
  | done o => exact ⟨rfl, rfl⟩
  | panic message => exact ⟨rfl, rfl⟩
  | call c next ih =>
    have step := h.perform me c w
    obtain ⟨rest, last⟩ := ih (m.perform me c w).1 (m.perform me c w).2
    simp only [Code.calls, Code.run]
    by_cases hk : kind c
    · simp only [hk, if_true] at step
      rw [step] at rest last
      have cons : ofKind kind (⟨me, c, w⟩ :: (next (m.perform me c w).1).calls m me
          (m.perform me c w).2) =
          ⟨me, c, w⟩ :: ofKind kind ((next (m.perform me c w).1).calls m me
            (m.perform me c w).2) := by
        simp [ofKind, hk]
      rw [cons, List.map_cons, List.length_cons, List.range'_succ, rest, last]
      exact ⟨rfl, by omega⟩
    · simp only [hk, Bool.false_eq_true, if_false, Nat.add_zero] at step
      rw [step] at rest last
      have skip : ofKind kind (⟨me, c, w⟩ :: (next (m.perform me c w).1).calls m me
          (m.perform me c w).2) =
          ofKind kind ((next (m.perform me c w).1).calls m me (m.perform me c w).2) := by
        simp [ofKind, hk]
      rw [skip]
      exact ⟨rest, last⟩
  | spawn body next _ ih => exact ih _ { w with board := w.board.newTask.2 }
  | wait s next ih =>
    have looked := h.look me s (w.board.waiting, w.shared)
    simp only [Code.calls, Code.run]
    cases found : (m.look me s (w.board.waiting, w.shared)).1.1 with
    | none => exact ⟨rfl, looked⟩
    | some a =>
      have rest := ih a (m.look me s (w.board.waiting, w.shared)).1.2
        { board := { w.board with waiting := (m.look me s (w.board.waiting, w.shared)).2.1 }
          shared := (m.look me s (w.board.waiting, w.shared)).2.2 }
      simp only [looked] at rest
      exact rest
  | turn next _ => exact ⟨rfl, rfl⟩

/-- In a run, the commands of the kind have the numbers that follow each other from the first. -/
theorem callsOfTurns_numbered (h : m.Numbers number kind) (tasks : Tasks I) (w : World I) :
    let gs := ofKind kind (callsOfTurns m tasks w)
    gs.map (fun g => number g.world.shared) = List.range' (number w.shared) gs.length ∧
      number (takeTurns m tasks w).world.shared = number w.shared + gs.length := by
  induction tasks, w using turns_induction m with
  | idle tasks w idle =>
    rw [callsOfTurns_idle m tasks w idle, takeTurns_idle m tasks w idle]
    exact ⟨rfl, rfl⟩
  | gone tasks w id ready head gone ih =>
    rw [callsOfTurns_gone m tasks w head gone, takeTurns_gone m tasks w head gone]
    exact ih
  | turn tasks w id ready before code after head found ih =>
    rw [callsOfTurns_turn m tasks w head found, takeTurns_turn m tasks w head found]
    obtain ⟨now, after⟩ := Code.calls_numbered h id code (w.dequeued ready)
    obtain ⟨rest, last⟩ := ih
    rw [Turn.settled_shared, after] at rest last
    simp only [ofKind_append, List.map_append, List.length_append]
    rw [now, rest, last]
    refine ⟨?_, ?_⟩
    · exact List.range'_append_1 ..
    · simp only [World.dequeued]
      omega

end Numbers

/-! ## After a run -/

theorem takeTurns_ready (m : Meaning I) (tasks : Tasks I) (w : World I) :
    (takeTurns m tasks w).world.board.ready = [] := by
  induction tasks, w using turns_induction m with
  | idle tasks w idle => rw [takeTurns_idle m tasks w idle]; exact idle
  | gone tasks w id ready head gone ih => rw [takeTurns_gone m tasks w head gone]; exact ih
  | turn tasks w id ready before code after head found ih =>
    rw [takeTurns_turn m tasks w head found]
    exact ih

end WorkflowReplay.Schedule

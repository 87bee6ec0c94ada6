import WorkflowReplay.Proofs.Schedule.Turns

/-!
# Runs in lockstep

Two worlds that no command tells apart are not told apart by a run (`takeTurns_mirrors`): the same
tasks take the same turns and end in the same way.  Which commands a run can give is bounded by
the code alone (`takeTurns_avoid`).
-/

set_option autoImplicit false

namespace WorkflowReplay.Schedule

variable {I : Interface}

/-! ## Worlds that a run does not tell apart -/

/-- Related worlds give the same replies to every good command and the same answers to every wait,
and stay related. -/
structure Meaning.Mirrors (m : Meaning I) (S : World I → World I → Prop)
    (good : Given I → Prop) : Prop where
  ready : ∀ {w w'}, S w w' → w.board.ready = w'.board.ready
  nextTask : ∀ {w w'}, S w w' → w.board.nextTask = w'.board.nextTask
  dequeued : ∀ {w w'} ready, S w w' → S (w.dequeued ready) (w'.dequeued ready)
  newTask : ∀ {w w'}, S w w' →
    S { w with board := w.board.newTask.2 } { w' with board := w'.board.newTask.2 }
  wake : ∀ {w w'} id, S w w' →
    S { w with board := w.board.wake id } { w' with board := w'.board.wake id }
  finish : ∀ {w w'} id o, S w w' →
    S { w with board := w.board.finish id o } { w' with board := w'.board.finish id o }
  perform : ∀ {w w'} me c, S w w' → good ⟨me, c, w⟩ →
    (m.perform me c w).1 = (m.perform me c w').1 ∧
      S (m.perform me c w).2 (m.perform me c w').2
  look : ∀ {w w'} me s, S w w' →
    (m.look me s (w.board.waiting, w.shared)).1 =
        (m.look me s (w'.board.waiting, w'.shared)).1 ∧
      S (w.looked m me s) (w'.looked m me s)

section Mirrors

variable {m : Meaning I} {S : World I → World I → Prop} {good : Given I → Prop}

theorem Code.run_mirrors (h : m.Mirrors S good) (me : TaskId) (c : Code I) {w w' : World I}
    (alike : S w w') (all : ∀ g ∈ c.calls m me w, good g) :
    (c.run m me w).verdict = (c.run m me w').verdict ∧
      (c.run m me w).spawned = (c.run m me w').spawned ∧
      S (c.run m me w).world (c.run m me w').world := by
  induction c generalizing w w' with
  | done o => exact ⟨rfl, rfl, alike⟩
  | panic message => exact ⟨rfl, rfl, alike⟩
  | call c next ih =>
    obtain ⟨reply, after⟩ := h.perform me c alike (all _ (by simp [Code.calls]))
    have rest := ih (m.perform me c w).1 after fun g member =>
      all g (by simp only [Code.calls]; exact .tail _ member)
    simp only [Code.run]
    rw [← reply]
    exact rest
  | spawn body next _ ih =>
    have id : w.board.newTask.1 = w'.board.newTask.1 :=
      congrArg TaskId.mk (h.nextTask alike)
    obtain ⟨verdict, spawned, worlds⟩ := ih w.board.newTask.1 (h.newTask alike) all
    simp only [Code.run]
    rw [← id]
    exact ⟨verdict, congrArg (_ :: ·) spawned, worlds⟩
  | wait s next ih =>
    obtain ⟨answer, after⟩ := h.look me s alike
    simp only [Code.run]
    simp only [Code.calls] at all
    rw [← answer]
    split
    · next a found =>
      rw [found] at all
      exact ih a _ after all
    · exact ⟨rfl, rfl, after⟩
  | turn next _ => exact ⟨rfl, rfl, h.wake me alike⟩

theorem Turn.settled_mirrors (h : m.Mirrors S good) {t t' : Turn I} (id : TaskId)
    (verdict : t.verdict = t'.verdict) (worlds : S t.world t'.world) :
    S (t.settled id) (t'.settled id) := by
  unfold Turn.settled
  rw [← verdict]
  split
  · exact h.finish id _ worlds
  · exact worlds

theorem takeTurns_mirrors (h : m.Mirrors S good) (tasks : Tasks I) {w w' : World I}
    (alike : S w w') (all : ∀ g ∈ callsOfTurns m tasks w, good g) :
    (takeTurns m tasks w).report = (takeTurns m tasks w').report ∧
      (takeTurns m tasks w).tasks = (takeTurns m tasks w').tasks ∧
      S (takeTurns m tasks w).world (takeTurns m tasks w').world := by
  induction tasks, w using turns_induction m generalizing w' with
  | idle tasks w idle =>
    rw [takeTurns_idle m tasks w idle, takeTurns_idle m tasks w' (h.ready alike ▸ idle)]
    exact ⟨rfl, rfl, alike⟩
  | gone tasks w id ready head gone ih =>
    rw [callsOfTurns_gone m tasks w head gone] at all
    rw [takeTurns_gone m tasks w head gone,
      takeTurns_gone m tasks w' (h.ready alike ▸ head) gone]
    exact ih (h.dequeued ready alike) all
  | turn tasks w id ready before code after head found ih =>
    rw [callsOfTurns_turn m tasks w head found] at all
    obtain ⟨verdict, spawned, worlds⟩ := Code.run_mirrors h id code (h.dequeued ready alike)
      fun g member => all g (List.mem_append.mpr (.inl member))
    have settled := Turn.settled_mirrors h id verdict worlds
    have tasksEq : (code.run m id (w.dequeued ready)).replacing id before after =
        (code.run m id (w'.dequeued ready)).replacing id before after := by
      simp only [Turn.replacing, verdict, spawned]
    obtain ⟨report, tasks', final⟩ := ih settled
      fun g member => all g (List.mem_append.mpr (.inr member))
    rw [takeTurns_turn m tasks w head found,
      takeTurns_turn m tasks w' (h.ready alike ▸ head) found]
    rw [tasksEq] at report tasks' final
    refine ⟨?_, ?_, ?_⟩
    · simp only [Turn.addTo, verdict, tasksEq, report]
    · rw [tasksEq]; exact tasks'
    · rw [tasksEq]; exact final

end Mirrors

/-! ## Code that leaves commands alone -/

/-- The code never gives a command of the given kind, whatever it is told. -/
def Code.Avoids (bad : I.Command → Prop) : Code I → Prop
  | .done _ | .panic _ => True
  | .call c next => ¬ bad c ∧ ∀ r, (next r).Avoids bad
  | .spawn body next => body.Avoids bad ∧ ∀ id, (next id).Avoids bad
  | .wait _ next => ∀ a s, (next a s).Avoids bad
  | .turn next => next.Avoids bad

def Tasks.Avoid (bad : I.Command → Prop) (tasks : Tasks I) : Prop :=
  ∀ t ∈ tasks, t.2.Avoids bad

section Avoids

variable {bad : I.Command → Prop}

theorem Code.calls_avoid (m : Meaning I) (me : TaskId) (c : Code I) (w : World I)
    (avoids : c.Avoids bad) : ∀ g ∈ c.calls m me w, ¬ bad g.command := by
  induction c generalizing w with
  | done o => simp [Code.calls]
  | panic message => simp [Code.calls]
  | call c next ih =>
    intro g member
    rcases List.mem_cons.mp member with rfl | later
    · exact avoids.1
    · exact ih _ _ (avoids.2 _) g later
  | spawn body next _ ih => exact ih _ { w with board := w.board.newTask.2 } (avoids.2 _)
  | wait s next ih =>
    intro g member
    simp only [Code.calls] at member
    split at member
    · exact ih _ _ _ (avoids _ _) g member
    · simp at member
  | turn next _ => simp [Code.calls]

theorem Code.run_avoids (m : Meaning I) (me : TaskId) (c : Code I) (w : World I)
    (avoids : c.Avoids bad) :
    Tasks.Avoid bad (c.run m me w).spawned ∧
      ∀ c', (c.run m me w).verdict = .pending c' → c'.Avoids bad := by
  induction c generalizing w with
  | done o => simp [Code.run, Tasks.Avoid]
  | panic message => simp [Code.run, Tasks.Avoid]
  | call c next ih => exact ih _ _ (avoids.2 _)
  | spawn body next _ ih =>
    obtain ⟨spawned, pending⟩ := ih w.board.newTask.1 { w with board := w.board.newTask.2 }
      (avoids.2 _)
    refine ⟨?_, pending⟩
    intro t member
    rcases List.mem_cons.mp member with rfl | later
    · exact avoids.1
    · exact spawned t later
  | wait s next ih =>
    simp only [Code.run]
    split
    · exact ih _ _ _ (avoids _ _)
    · refine ⟨by simp [Tasks.Avoid], ?_⟩
      intro c' pending
      cases pending
      exact avoids
  | turn next _ =>
    refine ⟨by simp [Code.run, Tasks.Avoid], ?_⟩
    intro c' pending
    cases pending
    exact avoids

theorem Turn.replacing_avoids (m : Meaning I) (id : TaskId) {c : Code I} {before after : Tasks I}
    (w : World I) (avoid : Tasks.Avoid bad (before ++ (id, c) :: after)) :
    Tasks.Avoid bad ((c.run m id w).replacing id before after) := by
  obtain ⟨spawned, pending⟩ := Code.run_avoids m id c w (avoid (id, c) (by simp))
  intro t member
  rcases Turn.mem_replacing member with old | old | new | ⟨c', verdict, rfl⟩
  · exact avoid t (by simp [old])
  · exact avoid t (by simp [old])
  · exact spawned t new
  · exact pending c' verdict

theorem takeTurns_avoid (m : Meaning I) (tasks : Tasks I) (w : World I)
    (avoid : Tasks.Avoid bad tasks) :
    Tasks.Avoid bad (takeTurns m tasks w).tasks ∧
      ∀ g ∈ callsOfTurns m tasks w, ¬ bad g.command := by
  induction tasks, w using turns_induction m with
  | idle tasks w idle =>
    rw [takeTurns_idle m tasks w idle, callsOfTurns_idle m tasks w idle]
    exact ⟨avoid, by simp⟩
  | gone tasks w id ready head gone ih =>
    rw [takeTurns_gone m tasks w head gone, callsOfTurns_gone m tasks w head gone]
    exact ih avoid
  | turn tasks w id ready before code after head found ih =>
    rw [takeTurns_turn m tasks w head found, callsOfTurns_turn m tasks w head found]
    rw [Tasks.eq_of_split? found] at avoid
    obtain ⟨left, calls⟩ := ih (Turn.replacing_avoids m id _ avoid)
    refine ⟨left, ?_⟩
    intro g member
    rcases List.mem_append.mp member with now | later
    · exact Code.calls_avoid m id code _ (avoid (id, code) (by simp)) g now
    · exact calls g later

end Avoids

end WorkflowReplay.Schedule

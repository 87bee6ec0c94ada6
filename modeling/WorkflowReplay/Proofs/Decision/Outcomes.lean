import WorkflowReplay.Proofs.Decision.Runs

/-!
# How often a request is resolved

A request that ended by itself is over: nothing resolves it again and nothing brings it back.  A
confirmed cancellation is weaker.  It leaves the machine in the state that it had since its cancel
decision was sent, in which it waits for any of three events: the confirmation (once more), the end
that won the race, or the refusal of the cancel decision, after which the request goes on.
-/

set_option autoImplicit false

namespace WorkflowReplay

namespace Lifecycle

def IsOver (l : Lifecycle) : Prop :=
  l.state = .completed ∨ l.state = .completedAfterCancellationDecisionSent

theorem IsOver.isTerminal {l : Lifecycle} (ended : l.IsOver) : l.isTerminal = true := by
  rcases ended with state | state <;> simp [Lifecycle.isTerminal, state, DecisionState.isTerminal]

theorem complete?_becomes_over {l l' : Lifecycle} (h : l.complete? = some l') :
    ¬ l.IsOver ∧ l'.IsOver := by
  obtain ⟨state | state, rfl⟩ | ⟨state | state, rfl⟩ := complete?_cases h
  all_goals simp [IsOver, state]

theorem cancel?_becomes_terminal {l l' : Lifecycle} (h : l.cancel? = some l') :
    ¬ l.IsOver ∧ l'.isTerminal = true := by
  obtain ⟨state | state, rfl⟩ | ⟨state | state, rfl⟩ := cancel?_cases h
  all_goals simp [IsOver, state, Lifecycle.isTerminal, DecisionState.isTerminal]

theorem start?_keeps_terminal {l l' : Lifecycle} {id : EventId} (h : l.start? id = some l') :
    ¬ l.IsOver ∧ (l.isTerminal = true → l'.isTerminal = true) := by
  obtain ⟨state, rfl⟩ | ⟨state, rfl⟩ := start?_cases h
  · simp [IsOver, state, Lifecycle.isTerminal, DecisionState.isTerminal]
  · simp [IsOver, state, Lifecycle.isTerminal, DecisionState.isTerminal]

theorem failCancel?_not_over {l l' : Lifecycle} (h : l.failCancel? = some l') : ¬ l.IsOver := by
  obtain ⟨state, -⟩ | ⟨state, -⟩ := failCancel?_cases h
  · simp [IsOver, state]
  · simp [IsOver, state]

theorem markSent_state_of_terminal {l : Lifecycle} (terminal : l.isTerminal = true) :
    l.markSent.state = l.state := by
  simp [markSent, cancelPending, terminal]

end Lifecycle

theorem Request.cancelDecision_eq_none_iff (r : Request) :
    r.cancelDecision = none ↔
      r.id.target ≠ .activity ∧ r.id.target ≠ .timer ∧ r.id.target ≠ .childWorkflow := by
  cases r <;> simp [Request.cancelDecision, Request.id]

theorem Machine.Evolves.cancelable {m m' : Machine} (evolves : m.Evolves m') :
    m'.request.cancelDecision = none ↔ m.request.cancelDecision = none := by
  have same : m'.request.id = m.request.id := evolves.id
  simp only [Request.cancelDecision_eq_none_iff, same]

namespace Ledger

/-! ## One event -/

namespace Reception

theorem Effect.of_outcome {r : Reception} (effect : r.Effect) {o : Outcome}
    (outcome : r.reaction.outcome = some o) :
    ¬ r.before.life.IsOver ∧ r.reaction.machine.isTerminal = true ∧
      (o.isCanceled = false → r.reaction.machine.life.IsOver) ∧
      (o.isCanceled = true → r.before.request.cancelDecision ≠ none) := by
  cases effect with
  | ended _ life _ reported plain =>
    obtain rfl := Option.some.inj (reported.symm.trans outcome)
    obtain ⟨open', ended⟩ := Lifecycle.complete?_becomes_over life
    exact ⟨open', ended.isTerminal, fun _ => ended, fun canceled => by simp [plain] at canceled⟩
  | canceled _ cancelable life _ reported isCanceled =>
    obtain rfl := Option.some.inj (reported.symm.trans outcome)
    obtain ⟨open', terminal⟩ := Lifecycle.cancel?_becomes_terminal life
    exact ⟨open', terminal, fun plain => by simp [plain] at isCanceled, fun _ => cancelable⟩
  | accepted _ _ _ _ _ silent => simp [silent] at outcome
  | started _ _ silent => simp [silent] at outcome
  | cancelAccepted _ _ silent => simp [silent] at outcome
  | cancelRefused _ _ _ silent => simp [silent] at outcome

theorem Effect.over_and_silent {r : Reception} (effect : r.Effect) (ended : r.before.life.IsOver) :
    r.reaction.machine.life.IsOver ∧ r.reaction.outcome = none := by
  cases effect with
  | accepted _ created => rcases ended with state | state <;> simp [state] at created
  | started _ life => exact absurd ended (Lifecycle.start?_keeps_terminal life).1
  | ended _ life => exact absurd ended (Lifecycle.complete?_becomes_over life).1
  | canceled _ _ life => exact absurd ended (Lifecycle.cancel?_becomes_terminal life).1
  | cancelAccepted _ life silent => exact ⟨life ▸ ended, silent⟩
  | cancelRefused _ life => exact absurd ended (Lifecycle.failCancel?_not_over life)

theorem Effect.stays_terminal {r : Reception} (effect : r.Effect)
    (settled : r.before.isTerminal = true)
    (unrefused : ¬ r.IsRefusal) : r.reaction.machine.isTerminal = true := by
  cases effect with
  | accepted _ created =>
    simp [Machine.isTerminal, Lifecycle.isTerminal, created, DecisionState.isTerminal] at settled
  | started _ life => exact (Lifecycle.start?_keeps_terminal life).2 settled
  | ended _ life => exact (Lifecycle.complete?_becomes_over life).2.isTerminal
  | canceled _ _ life => exact (Lifecycle.cancel?_becomes_terminal life).2
  | cancelAccepted _ life =>
    rw [Machine.isTerminal, life]
    exact settled
  | cancelRefused refusal => exact absurd refusal unrefused

end Reception

/-! ## One machine of a run -/

def outcomesOf (past : List Reception) : List Outcome :=
  past.filterMap (fun r => r.reaction.outcome)

def outcomesAt (ops : List Operation) (i : Nat) : List Outcome := outcomesOf (receptionsAt ops i)

@[simp] theorem outcomesOf_append (past later : List Reception) :
    outcomesOf (past ++ later) = outcomesOf past ++ outcomesOf later := List.filterMap_append

theorem outcomesOf_singleton (r : Reception) : outcomesOf [r] = r.reaction.outcome.toList := by
  cases outcome : r.reaction.outcome <;> simp [outcomesOf, outcome]

def IsSettled : Option Machine → Prop
  | none => False
  | some machine => machine.isTerminal = true

def IsOver : Option Machine → Prop
  | none => False
  | some machine => machine.life.IsOver

theorem IsOver.isSettled {machine? : Option Machine} (ended : IsOver machine?) :
    IsSettled machine? := by
  cases machine? with
  | none => exact ended
  | some machine => exact Lifecycle.IsOver.isTerminal ended

theorem Turn.preserves_over {before after : Option Machine} {r? : Option Reception}
    (turn : Turn before r? after) (ended : IsOver before) :
    IsOver after ∧ outcomesOf r?.toList = [] := by
  cases turn with
  | absent => exact ⟨ended, rfl⟩
  | made => exact ended.elim
  | kept => exact ⟨ended, rfl⟩
  | asked canceled =>
    obtain ⟨l, asked, -⟩ := Machine.requestCancel?_eq canceled
    have unsettled := (Lifecycle.requestCancel?_eq asked).1
    simp [Lifecycle.IsOver.isTerminal ended] at unsettled
  | sent machine =>
    refine ⟨?_, rfl⟩
    change machine.life.markSent.state = _ ∨ machine.life.markSent.state = _
    rw [Lifecycle.markSent_state_of_terminal (Lifecycle.IsOver.isTerminal ended)]
    exact ended
  | received genuine =>
    obtain ⟨ended, silent⟩ := genuine.effect.over_and_silent ended
    exact ⟨ended, by simp [outcomesOf, silent]⟩

theorem Turn.preserves_settled {before after : Option Machine} {r? : Option Reception}
    (turn : Turn before r? after) (settled : IsSettled before)
    (unrefused : ∀ r ∈ r?.toList, ¬ r.IsRefusal) : IsSettled after := by
  cases turn with
  | absent => exact settled
  | made => exact settled.elim
  | kept => exact settled
  | asked canceled =>
    obtain ⟨l, asked, -⟩ := Machine.requestCancel?_eq canceled
    have unsettled := (Lifecycle.requestCancel?_eq asked).1
    have terminal : Lifecycle.isTerminal _ = true := settled
    simp [terminal] at unsettled
  | sent machine =>
    have terminal : machine.life.isTerminal = true := settled
    have same := Lifecycle.markSent_state_of_terminal terminal
    change machine.life.markSent.state.isTerminal = true
    rw [same]
    exact terminal
  | received genuine => exact genuine.effect.stays_terminal settled (unrefused _ (by simp))

/-- What holds of the outcomes before the request is over: they are confirmed cancellations, of a
request that can be canceled. -/
def Undecided (past : List Reception) (machine : Machine) : Prop :=
  ∀ o ∈ outcomesOf past, o.isCanceled = true ∧ machine.request.cancelDecision ≠ none

/-- The request is over, or its outcomes so far decided nothing. -/
def Accounted (past : List Reception) : Option Machine → Prop
  | none => past = []
  | some machine => machine.life.IsOver ∨ Undecided past machine

theorem Accounted.concat_turn {past : List Reception} {before after : Option Machine}
    {r? : Option Reception} (accounted : Accounted past before) (turn : Turn before r? after) :
    Accounted (past ++ r?.toList) after := by
  -- Whoever is over stays over; the other half of the invariant is left to each case.
  have goesOn {machine machine' : Machine} (accounted : Accounted past (some machine))
      (turn : Turn (some machine) r? (some machine'))
      (undecided : Undecided past machine →
        machine'.life.IsOver ∨ Undecided (past ++ r?.toList) machine') :
      Accounted (past ++ r?.toList) (some machine') := by
    rcases accounted with ended | open'
    · exact .inl (turn.preserves_over ended).1
    · exact undecided open'
  cases turn with
  | absent => simpa using accounted
  | made new =>
    obtain rfl : past = [] := accounted
    exact .inr (by simp [Undecided, outcomesOf])
  | kept machine => simpa using accounted
  | asked canceled =>
    refine goesOn accounted (.asked canceled) fun undecided => .inr ?_
    obtain ⟨l, -, rfl⟩ := Machine.requestCancel?_eq canceled
    rw [Option.toList_none, List.append_nil]
    exact undecided
  | sent machine =>
    refine goesOn accounted (.sent machine) fun undecided => .inr ?_
    rw [Option.toList_none, List.append_nil]
    exact undecided
  | @received r genuine =>
    refine goesOn accounted (.received genuine) fun undecided => ?_
    have cancelable := (react?_evolves genuine).cancelable
    have old (o : Outcome) (member : o ∈ outcomesOf past) :
        o.isCanceled = true ∧ r.reaction.machine.request.cancelDecision ≠ none :=
      ⟨(undecided o member).1, fun none => (undecided o member).2 (cancelable.mp none)⟩
    unfold Undecided
    rw [Option.toList_some, outcomesOf_append, outcomesOf_singleton]
    cases outcome : r.reaction.outcome with
    | none =>
      rw [Option.toList_none, List.append_nil]
      exact .inr old
    | some o =>
      obtain ⟨-, -, ended, possible⟩ := genuine.effect.of_outcome outcome
      cases canceled : o.isCanceled with
      | false => exact .inl (ended canceled)
      | true =>
        refine .inr fun o' member => ?_
        rcases List.mem_append.mp member with earlier | now
        · exact old o' earlier
        · obtain rfl := List.mem_singleton.mp now
          exact ⟨canceled, fun none => possible canceled (cancelable.mp none)⟩

theorem accounted_receptionsAt (ops : List Operation) (i : Nat) :
    Accounted (receptionsAt ops i) (after ops).machines[i]? :=
  machine_induction [] i rfl (fun _ _ _ _ accounted turn => accounted.concat_turn turn) ops

theorem over_is_final (past later : List Operation) {i : Nat}
    (ended : IsOver (after past).machines[i]?) :
    IsOver (after (past ++ later)).machines[i]? ∧
      outcomesOf (receptionsAfter past later i) = [] := by
  refine machine_induction (motive := fun seen machine? => IsOver machine? ∧ outcomesOf seen = [])
    past i ⟨ended, rfl⟩ ?_ later
  rintro seen before r? after ⟨ended, silent⟩ turn
  obtain ⟨ended, nothing⟩ := turn.preserves_over ended
  exact ⟨ended, by rw [outcomesOf_append, silent, nothing, List.append_nil]⟩

theorem settled_unless_refused {past : List Operation} {i : Nat}
    (settled : IsSettled (after past).machines[i]?) (later : List Operation)
    (unrefused : ∀ r ∈ receptionsAfter past later i, ¬ r.IsRefusal) :
    IsSettled (after (past ++ later)).machines[i]? := by
  refine machine_induction
    (motive := fun seen machine? => (∀ r ∈ seen, ¬ r.IsRefusal) → IsSettled machine?)
    past i (fun _ => settled) ?_ later unrefused
  intro seen before r? after kept turn unrefused
  refine turn.preserves_settled (kept fun r member => ?_) fun r member => ?_
  · exact unrefused r (List.mem_append_left _ member)
  · exact unrefused r (List.mem_append_right _ member)

/-! ## Resolutions -/

section Received

variable {past : List Operation} {e : HistoryEvent} {r : Reception}

theorem machine_after_reception (received : (after past).receive? e = some r) :
    (after (past ++ [.event e])).machines[r.index]? = some r.reaction.machine := by
  have turn := turn_concat past (.event e) r.index
  simp only [reception?, received, Option.filter_some, decide_true, if_true] at turn
  exact turn.after_eq_reaction

theorem outcomesAt_after_reception (received : (after past).receive? e = some r)
    (later : List Operation) :
    outcomesAt (past ++ [.event e] ++ later) r.index =
      outcomesAt past r.index ++ r.reaction.outcome.toList ++
        outcomesOf (receptionsAfter (past ++ [.event e]) later r.index) := by
  have now : receptionsAt (past ++ [.event e]) r.index = receptionsAt past r.index ++ [r] := by
    rw [receptionsAt_append]
    simp [receptionsAfter, receptionsFrom, reception?, received]
  rw [outcomesAt, receptionsAt_append, now, outcomesOf_append, outcomesOf_append,
    outcomesOf_singleton, outcomesAt]

theorem undecided_before (received : (after past).receive? e = some r)
    (undone : ¬ r.before.life.IsOver) : Undecided (receptionsAt past r.index) r.before := by
  obtain ⟨-, -, -, -, -, found, -⟩ := receive?_eq_some received
  have accounted := accounted_receptionsAt past r.index
  rw [found] at accounted
  rcases accounted with done | undecided
  · exact absurd done undone
  · exact undecided

end Received

/-- Whatever a run does before and after an event that resolves a request: every outcome before it
is a confirmed cancellation, none comes after the request ended by itself, and only the refusal of
its cancel decision can bring the request back after a cancellation was confirmed.  A request that
cannot be canceled is resolved by this event alone. -/
theorem resolution_final (past later : List Operation) {e : HistoryEvent} {resolution : Resolution}
    {m' : Ledger} (resolved : (after past).handleEvent e = .ok (some resolution, m')) :
    ∃ r, (after past).receive? e = some r ∧ r.before.id = resolution.id ∧
      (∀ o ∈ outcomesAt past r.index, o.isCanceled = true) ∧
      (resolution.outcome.isCanceled = false →
        outcomesAt (past ++ .event e :: later) r.index =
            outcomesAt past r.index ++ [resolution.outcome] ∧
          IsSettled (after (past ++ .event e :: later)).machines[r.index]?) ∧
      ((∀ r' ∈ receptionsAfter (past ++ [.event e]) later r.index, ¬ r'.IsRefusal) →
        IsSettled (after (past ++ .event e :: later)).machines[r.index]?) ∧
      (r.before.request.cancelDecision = none →
        outcomesAt (past ++ .event e :: later) r.index = [resolution.outcome]) := by
  obtain ⟨r, received, outcome, id⟩ := handleEvent_resolution.mp ⟨m', resolved⟩
  obtain ⟨rfl, -, -, -, -, -, reacts⟩ := receive?_eq_some received
  have genuine : r.IsGenuine := reacts
  obtain ⟨undone, terminal, ended, possible⟩ := genuine.effect.of_outcome outcome
  have earlier := undecided_before received undone
  have next := machine_after_reception received
  have outcomes := outcomesAt_after_reception received later
  rw [outcome] at outcomes
  rw [List.append_cons past]
  have last (plain : resolution.outcome.isCanceled = false) :
      outcomesAt (past ++ [.event r.event] ++ later) r.index =
          outcomesAt past r.index ++ [resolution.outcome] ∧
        IsSettled (after (past ++ [.event r.event] ++ later)).machines[r.index]? := by
    have done : IsOver (after (past ++ [.event r.event])).machines[r.index]? := by
      rw [next]
      exact ended plain
    obtain ⟨done, nothing⟩ := over_is_final _ later done
    rw [nothing, List.append_nil] at outcomes
    exact ⟨outcomes, done.isSettled⟩
  refine ⟨r, received, id, fun o member => (earlier o member).1, last, ?_, ?_⟩
  · intro unrefused
    exact settled_unless_refused (by rw [next]; exact terminal) later unrefused
  · intro never
    have plain : resolution.outcome.isCanceled = false := by
      cases canceled : resolution.outcome.isCanceled with
      | false => rfl
      | true => exact absurd never (possible canceled)
    have nothing : outcomesAt past r.index = [] :=
      List.eq_nil_iff_forall_not_mem.mpr fun o member => (earlier o member).2 never
    rw [(last plain).1, nothing, List.nil_append]

def cancelSent : List Operation := [
  .activity { activityId := "a" }, .collect,
  .event ⟨1, ⟨0, 0⟩, .activityTaskScheduled { activityId := "a" }⟩,
  .requestCancel ⟨.activity, "a"⟩, .collect]

def cancelConfirmed (id : EventId) : HistoryEvent :=
  ⟨id, ⟨0, 0⟩, .activityTaskCanceled { scheduledEventId := 1 }⟩

def cancelRefused (id : EventId) : HistoryEvent :=
  ⟨id, ⟨0, 0⟩, .requestCancelActivityTaskFailed { activityId := "a" }⟩

/-- The activity ended before the cancel decision reached it. -/
def endedFirst : HistoryEvent := ⟨2, ⟨0, 0⟩, .activityTaskCompleted { scheduledEventId := 1 }⟩

/-- The activity ends although its cancel decision was sent, and nothing resolves it again. -/
theorem completion_after_cancel_final :
    ∃ r, (after cancelSent).receive? endedFirst = some r ∧
      outcomesAt (cancelSent ++ [.event endedFirst, .event (cancelConfirmed 3)]) r.index =
        [.completed none] := by
  have resolved : ∃ m', (after cancelSent).handleEvent endedFirst =
      .ok (some ⟨⟨.activity, "a"⟩, .completed none⟩, m') := ⟨_, rfl⟩
  obtain ⟨m', resolved⟩ := resolved
  obtain ⟨r, received, -, -, final, -⟩ :=
    resolution_final cancelSent [.event (cancelConfirmed 3)] resolved
  have first : r.index = 0 := by
    cases received
    rfl
  have nothing : outcomesAt cancelSent 0 = [] := by decide
  refine ⟨r, received, ?_⟩
  rw [(final rfl).1, first, nothing]
  rfl

/-- A cancellation that is confirmed twice resolves the activity twice, and a refusal of the cancel
decision after that brings it back. -/
theorem canceled_twice_then_revived :
    InOrder (cancelSent ++
        [.event (cancelConfirmed 2), .event (cancelConfirmed 3), .event (cancelRefused 4)]) ∧
      ((after cancelSent).handleEvent (cancelConfirmed 2)).map Prod.fst =
        .ok (some ⟨⟨.activity, "a"⟩, .canceled none⟩) ∧
      ((after (cancelSent ++ [.event (cancelConfirmed 2)])).handleEvent (cancelConfirmed 3)).map
        Prod.fst = .ok (some ⟨⟨.activity, "a"⟩, .canceled none⟩) ∧
      outcomesAt (cancelSent ++ [.event (cancelConfirmed 2), .event (cancelConfirmed 3)]) 0 =
        [.canceled none, .canceled none] ∧
      ¬ IsSettled (after (cancelSent ++ [.event (cancelConfirmed 2), .event (cancelConfirmed 3),
        .event (cancelRefused 4)])).machines[0]? := by
  refine ⟨by decide, rfl, rfl, by decide, ?_⟩
  intro settled
  cases settled

end Ledger

end WorkflowReplay

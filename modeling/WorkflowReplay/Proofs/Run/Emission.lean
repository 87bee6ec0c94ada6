import Mathlib
import WorkflowReplay.Proofs.Decision.Offers
import WorkflowReplay.Proofs.Run.Stages

/-!
# What becomes of initial decisions

An initial decision leaves a machine in one of three ways: an answer takes it, the history accepts
it, or a batch whose decisions were accepted counts it as sent.  The third way trusts the history
that the decision is in it.  The main result says exactly when that trust loses a decision:
when the machine was noted as sent in a batch and the history never accepts it.
-/

set_option autoImplicit false

namespace WorkflowReplay

namespace Engine

/-! ## Answers and what stands behind them -/

structure Answer where
  completion : Completion
  offers : List (Nat × Decision)
  /-- The machines whose initial decision was counted as sent on the way, because a batch was
  accepted. -/
  noted : List Nat

def notedIn (e : Engine) (b : Batch) : List Nat :=
  match (e.enter b).applyEvents b.events with
  | (.ok (), e) =>
    match e.runTasks with
    | (.ok (), e) => if accepts b then e.context.ledger.unsent else []
    | _ => []
  | _ => []

def notedInAll (e : Engine) : List Batch → List Nat
  | [] => []
  | b :: rest =>
    e.notedIn b ++
      match e.applyBatch b with
      | (.ok (), e) => e.notedInAll rest
      | _ => []

/-- Answers a task without starting again; `none` if the engine does not answer or has to. -/
def answer? (e : Engine) (t : DecisionTask) : Option (Answer × Engine) :=
  if e.isStaleFor t then none
  else
    match e.process t with
    | (.ok completion, e') =>
      some ({
        completion
        offers := (e.replay t).2.context.ledger.offers
        noted := e.notedInAll t.batches }, e')
    | (.error _, _) => none

def answers? (e : Engine) : List DecisionTask → Option (List Answer × Engine)
  | [] => some ([], e)
  | t :: ts => do
    let (a, e) ← e.answer? t
    let (as, e) ← e.answers? ts
    return (a :: as, e)

theorem answers?_cons_cases {e e' : Engine} {t : DecisionTask} {ts : List DecisionTask}
    {answers : List Answer} (answered : e.answers? (t :: ts) = some (answers, e')) :
    ∃ a e₁ as, e.answer? t = some (a, e₁) ∧ e₁.answers? ts = some (as, e') ∧ answers = a :: as := by
  unfold answers? at answered
  obtain ⟨⟨a, e₁⟩, first, answered⟩ := Option.bind_eq_some_iff.mp answered
  obtain ⟨⟨as, e₂⟩, later, answered⟩ := Option.bind_eq_some_iff.mp answered
  cases answered
  exact ⟨a, e₁, as, first, later, rfl⟩

/-! ## Accounts -/

/-- How often the initial decision of a machine was offered or noted. -/
def mentions (offers : List (Nat × Decision)) (noted : List Nat) (i : Nat) (d : Decision) : Nat :=
  offers.count (i, d) + noted.count i

/-- What was offered and noted so far fits the ledger: nothing twice, nothing that is still to be
sent, and everything that was sent without the history's knowing. -/
structure Accounted (m : Ledger) (offers : List (Nat × Decision)) (noted : List Nat) : Prop where
  sound : m.Sound
  unsent : ∀ (i : Nat) machine, m.machines[i]? = some machine → machine.IsUnsent →
    mentions offers noted i machine.request.initialDecision = 0
  sent : ∀ (i : Nat) machine, m.machines[i]? = some machine → ¬ machine.IsUnsent →
    mentions offers noted i machine.request.initialDecision ≤ 1 ∧
      (mentions offers noted i machine.request.initialDecision = 0 → machine.IsInitiated)
  beyond : ∀ i d, m.machines.length ≤ i → mentions offers noted i d = 0

namespace Accounted

variable {m m' : Ledger} {offers : List (Nat × Decision)} {noted : List Nat}

theorem empty : Accounted .empty [] [] where
  sound := Ledger.empty_sound
  unsent := by simp [Ledger.empty]
  sent := by simp [Ledger.empty]
  beyond := by simp [mentions]

theorem of_grows (h : Accounted m offers noted) (grows : m.Grows m') :
    Accounted m' offers noted := by
  have past (i : Nat) (machine' : Machine) (found : m'.machines[i]? = some machine') :
      (∃ machine, m.machines[i]? = some machine ∧ machine.Evolves machine') ∨
        m.machines.length ≤ i := by
    rcases Nat.lt_or_ge i m.machines.length with early | late
    · obtain ⟨machine₁, found₁, evolves⟩ := grows.old i _ (List.getElem?_eq_getElem early)
      obtain rfl : machine' = machine₁ := Option.some.inj (found.symm.trans found₁)
      exact .inl ⟨_, List.getElem?_eq_getElem early, evolves⟩
    · exact .inr late
  refine ⟨grows.sound h.sound, ?_, ?_, ?_⟩
  · intro i machine' found unsent
    rcases past i machine' found with ⟨machine, before, evolves⟩ | late
    · rw [evolves.initialDecision]
      refine h.unsent i machine before ?_
      cases emitted : machine.life.initialEmitted with
      | false => exact emitted
      | true => simp [Machine.IsUnsent, evolves.life.sent emitted] at unsent
    · exact h.beyond i _ late
  · intro i machine' found sent
    rcases past i machine' found with ⟨machine, before, evolves⟩ | late
    · rw [evolves.initialDecision]
      have sound := h.sound.lives i machine before
      by_cases unsent : machine.IsUnsent
      · have none := h.unsent i machine before unsent
        refine ⟨by omega, ?_⟩
        intro _
        rcases evolves.life.unsent sound unsent with still | initiated
        · exact absurd still sent
        · exact initiated
      · obtain ⟨once, accepted⟩ := h.sent i machine before unsent
        exact ⟨once, fun none => evolves.preserves_initiated sound (accepted none)⟩
    · have none := h.beyond i machine'.request.initialDecision late
      refine ⟨by omega, ?_⟩
      intro _
      rcases grows.new h.sound i machine' late found with still | initiated
      · exact absurd still sent
      · exact initiated
  · intro i d late
    exact h.beyond i d (Nat.le_trans grows.length_le late)

/-- A collection that mentions each initial decision to be sent once keeps the account. -/
theorem notifySent_of_mentions (h : Accounted m offers noted) {offers' : List (Nat × Decision)}
    {noted' : List Nat}
    (more : ∀ (i : Nat) machine, m.machines[i]? = some machine →
      mentions offers' noted' i machine.request.initialDecision =
        mentions offers noted i machine.request.initialDecision +
          if machine.IsUnsent then 1 else 0)
    (beyond : ∀ i d, m.machines.length ≤ i → mentions offers' noted' i d = 0) :
    Accounted m.notifySent offers' noted' := by
  refine ⟨Ledger.notifySent_sound h.sound, ?_, ?_, ?_⟩
  · intro i machine' found unsent
    exact absurd unsent (Ledger.notifySent_not_unsent h.sound found)
  · intro i machine' found sent
    rw [Ledger.notifySent_machine] at found
    obtain ⟨machine, before, decision, initiated⟩ : ∃ machine, m.machines[i]? = some machine ∧
        machine'.request.initialDecision = machine.request.initialDecision ∧
        (machine.IsInitiated → machine'.IsInitiated) := by
      split at found
      · obtain ⟨machine, before, rfl⟩ := Option.map_eq_some_iff.mp found
        exact ⟨machine, before, rfl, fun h => by
          simpa [Machine.IsInitiated, Machine.markSent, Machine.withLife] using h⟩
      · exact ⟨machine', found, rfl, fun h => h⟩
    rw [decision, more i machine before]
    by_cases unsent : machine.IsUnsent
    · rw [h.unsent i machine before unsent, if_pos unsent]
      exact ⟨Nat.le_refl _, fun h => by omega⟩
    · obtain ⟨once, accepted⟩ := h.sent i machine before unsent
      rw [if_neg unsent]
      exact ⟨once, fun none => initiated (accepted none)⟩
  · intro i d late
    exact beyond i d (m.notifySent_length ▸ late)

theorem notifySent_noted (h : Accounted m offers noted) :
    Accounted m.notifySent offers (noted ++ m.unsent) := by
  refine h.notifySent_of_mentions (fun i machine found => ?_) fun i d late => ?_
  · rw [mentions, mentions, List.count_append, h.sound.count_unsent found]
    omega
  · have none := h.beyond i d late
    have away : m.unsent.count i = 0 := List.count_eq_zero.mpr fun member => by
      have := h.sound.placed i (List.mem_filter.mp member).1
      omega
    rw [mentions] at none ⊢
    rw [List.count_append]
    omega

theorem notifySent_offered (h : Accounted m offers noted) :
    Accounted m.notifySent (offers ++ m.offers) noted := by
  refine h.notifySent_of_mentions (fun i machine found => ?_) fun i d late => ?_
  · rw [mentions, mentions, List.count_append, h.sound.count_offers found]
    omega
  · have none := h.beyond i d late
    have away : m.offers.count (i, d) = 0 := List.count_eq_zero.mpr fun member => by
      obtain ⟨j, placed, pending⟩ := List.mem_flatMap.mp member
      have early := h.sound.placed j placed
      rw [List.getElem?_eq_getElem early] at pending
      obtain ⟨d', -, same⟩ := List.mem_map.mp pending
      have : j = i := congrArg Prod.fst same
      omega
    rw [mentions] at none ⊢
    rw [List.count_append]
    omega

end Accounted

/-! ## Batches, answers and runs -/

variable {offers : List (Nat × Decision)} {noted : List Nat}

theorem applyBatch_accounted {e e' : Engine} {b : Batch}
    (account : Accounted e.context.ledger offers noted)
    (applied : e.applyBatch b = (.ok (), e')) :
    Accounted e'.context.ledger offers (noted ++ e.notedIn b) := by
  obtain ⟨entered, ran, events, turns, decisions⟩ := applyBatch_ok_stages applied
  have first := applyEvents_grows (e.enter b) b.events
  have second := runTasks_grows entered
  have last := applyEvents_grows (ran.acknowledge b) b.decisionEvents
  rw [events, enter_ledger] at first
  rw [turns] at second
  rw [decisions] at last
  have before := account.of_grows (first.trans second)
  refine Accounted.of_grows ?_ last
  simp only [notedIn, events, turns]
  unfold acknowledge
  by_cases accepted : accepts b = true
  · rw [if_pos accepted, if_pos accepted]
    exact before.notifySent_noted
  · rw [if_neg accepted, if_neg accepted, List.append_nil]
    exact before

theorem applyBatches_accounted {e e' : Engine} {bs : List Batch}
    (account : Accounted e.context.ledger offers noted)
    (applied : e.applyBatches bs = (.ok (), e')) :
    Accounted e'.context.ledger offers (noted ++ e.notedInAll bs) := by
  induction bs generalizing e noted with
  | nil =>
    cases applied
    simpa [notedInAll] using account
  | cons b rest ih =>
    simp only [applyBatches] at applied
    split at applied
    · next e₁ first =>
      have later := ih (applyBatch_accounted account first) applied
      simp only [notedInAll, first]
      rw [← List.append_assoc]
      exact later
    · next failed => exact absurd applied (failed _)

def AllSent (m : Ledger) : Prop :=
  ∀ (i : Nat) machine, m.machines[i]? = some machine → ¬ machine.IsUnsent

theorem answer?_accounted {e e' : Engine} {t : DecisionTask} {a : Answer}
    (account : Accounted e.context.ledger offers noted) (answered : e.answer? t = some (a, e')) :
    Accounted e'.context.ledger (offers ++ a.offers) (noted ++ a.noted) ∧
      AllSent e'.context.ledger ∧
      ∃ terminal : Option Decision, (∀ d ∈ terminal, d.isTerminal = true) ∧
        a.completion.decisions = a.offers.map Prod.snd ++ terminal.toList := by
  unfold answer? at answered
  cases stale : e.isStaleFor t with
  | true => simp [stale] at answered
  | false =>
    simp only [stale, Bool.false_eq_true, if_false] at answered
    split at answered
    · next completion e₁ processed =>
      cases answered
      obtain ⟨replayed, ok, decisions, rfl⟩ := process_ok_replay stale processed
      have before := applyBatches_accounted account (replay_ok_applyBatches ok)
      rw [takeDecisions_context, ok]
      refine ⟨before.notifySent_offered, ?_, replayed.notified.takeTerminal.1,
        takeTerminal_isTerminal _, ?_⟩
      · intro i machine found
        exact Ledger.notifySent_not_unsent before.sound found
      · rw [decisions, takeDecisions_eq, Ledger.offers_decisions]
    · simp at answered

theorem answers?_accounted {e e' : Engine} {ts : List DecisionTask} {as : List Answer}
    (account : Accounted e.context.ledger offers noted) (sent : AllSent e.context.ledger)
    (answered : e.answers? ts = some (as, e')) :
    Accounted e'.context.ledger (offers ++ as.flatMap Answer.offers)
        (noted ++ as.flatMap Answer.noted) ∧
      AllSent e'.context.ledger ∧
      ∀ a ∈ as, ∃ terminal : Option Decision, (∀ d ∈ terminal, d.isTerminal = true) ∧
        a.completion.decisions = a.offers.map Prod.snd ++ terminal.toList := by
  induction ts generalizing e offers noted as with
  | nil =>
    cases answered
    exact ⟨by simpa using account, sent, by simp⟩
  | cons t rest ih =>
    obtain ⟨a, e₁, as', first, later, rfl⟩ := answers?_cons_cases answered
    obtain ⟨account₁, sent₁, decisions⟩ := answer?_accounted account first
    obtain ⟨account₂, sent₂, others⟩ := ih account₁ sent₁ later
    refine ⟨?_, sent₂, ?_⟩
    · simpa [List.append_assoc] using account₂
    · intro b member
      rcases List.mem_cons.mp member with rfl | member
      · exact decisions
      · exact others b member

end Engine

/-- The answers of a run hold what the machines offered, and a machine had its initial decision
taken by exactly one of them, or accepted by the history, exactly when it was not noted as sent
without being accepted. -/
theorem initialDecision_offered_or_accepted_iff (info : RunInfo) (workflow : Workflow)
    (tasks : List DecisionTask) {answers : List Engine.Answer} {e : Engine}
    (run : (Engine.new info workflow).answers? tasks = some (answers, e)) :
    (∀ a ∈ answers, ∃ terminal : Option Decision, (∀ d ∈ terminal, d.isTerminal = true) ∧
      a.completion.decisions = a.offers.map Prod.snd ++ terminal.toList) ∧
    ∀ (i : Nat) (machine : Machine), e.context.ledger.machines[i]? = some machine →
      ((answers.flatMap Engine.Answer.offers).count (i, machine.request.initialDecision) = 1 ∨
          machine.IsInitiated ↔
        (i ∈ answers.flatMap Engine.Answer.noted → machine.IsInitiated)) := by
  have start : Engine.AllSent (Engine.new info workflow).context.ledger := by
    intro i machine found
    simp [Engine.new, Engine.context, Context.new, Ledger.empty] at found
  have none : Engine.Accounted (Engine.new info workflow).context.ledger [] [] := .empty
  obtain ⟨account, sent, decisions⟩ := Engine.answers?_accounted none start run
  refine ⟨decisions, ?_⟩
  intro i machine found
  obtain ⟨once, accepted⟩ := account.sent i machine found (sent i machine found)
  simp only [Engine.mentions, List.nil_append] at once accepted
  constructor
  · rintro (offered | initiated) noted
    · have := List.count_pos_iff.mpr noted
      omega
    · exact initiated
  · intro trust
    by_cases noted : i ∈ answers.flatMap Engine.Answer.noted
    · exact .inr (trust noted)
    · have none := List.count_eq_zero.mpr noted
      rcases Nat.eq_zero_or_pos ((answers.flatMap Engine.Answer.offers).count
          (i, machine.request.initialDecision)) with never | some
      · exact .inr (accepted (by omega))
      · exact .inl (by omega)

/-! ## One workflow, two histories -/

def Workflow.oneActivity (id : String) : Workflow where
  start _ := .ok (.call (.activity "work" .null .value { id := some id }) fun
    | .ok f => .wait (.first [f]) fun arrival _ => .done arrival.result
    | .error e => .done (.error e))

/-- A completed task with the events of its decisions, and the start of the task to be answered. -/
def completedWith (decisionEvents : List EventAttributes) : List HistoryEvent :=
  historyOf ([
    .workflowExecutionStarted {},
    .decisionTaskScheduled {},
    .decisionTaskStarted { scheduledEventId := 2 },
    .decisionTaskCompleted { scheduledEventId := 2, startedEventId := 3 }] ++ decisionEvents ++ [
    .decisionTaskScheduled {},
    .decisionTaskStarted {}])

/-- An activity that the history accepts is accounted for although no answer holds it. -/
theorem initialDecision_accepted_by_history :
    ∃ answers e machine,
      (Engine.new {} (.oneActivity "a")).answers? [{
        history := completedWith [.activityTaskScheduled { activityId := "a" }]
        startedEventId := 7 }] = some (answers, e) ∧
      e.context.ledger.machines[0]? = some machine ∧
      ((answers.flatMap Engine.Answer.offers).count (0, machine.request.initialDecision) = 1 ∨
        machine.IsInitiated) := by
  have outcome : ((Engine.new {} (.oneActivity "a")).answers? [{
      history := completedWith [.activityTaskScheduled { activityId := "a" }]
      startedEventId := 7 }]).map (fun r =>
        r.2.context.ledger.machines[0]?.map (fun m => m.life.initiatedEventId)) =
      some (some (some 5)) := by cbv
  obtain ⟨⟨answers, e⟩, run, machines⟩ := Option.map_eq_some_iff.mp outcome
  obtain ⟨machine, found, accepted⟩ := Option.map_eq_some_iff.mp machines
  have initiated : machine.IsInitiated := by simp [Machine.IsInitiated, accepted]
  exact ⟨answers, e, machine, run, found,
    ((initialDecision_offered_or_accepted_iff {} (.oneActivity "a") _ run).2 0 machine found).mpr
      fun _ => initiated⟩

/-- An activity that the history of a completed task does not hold is lost: the replay counts its
decision as sent, no answer holds it and no error is raised. -/
theorem initialDecision_lost_in_replay :
    ∃ answers e machine,
      (Engine.new {} (.oneActivity "a")).answers? [{
        history := completedWith []
        startedEventId := 6 }] = some (answers, e) ∧
      e.context.ledger.machines[0]? = some machine ∧
      ¬ ((answers.flatMap Engine.Answer.offers).count (0, machine.request.initialDecision) = 1 ∨
        machine.IsInitiated) := by
  have outcome : ((Engine.new {} (.oneActivity "a")).answers? [{
      history := completedWith []
      startedEventId := 6 }]).map (fun r =>
        (r.1.flatMap Engine.Answer.offers,
          r.2.context.ledger.machines[0]?.map (fun m => m.life.initiatedEventId))) =
      some ([], some none) := by cbv
  obtain ⟨⟨answers, e⟩, run, values⟩ := Option.map_eq_some_iff.mp outcome
  obtain ⟨offers, machines⟩ := Prod.mk.inj values
  obtain ⟨machine, found, accepted⟩ := Option.map_eq_some_iff.mp machines
  refine ⟨answers, e, machine, run, found, ?_⟩
  rintro (offered | initiated)
  · simp only at offers
    simp [offers] at offered
  · simp [Machine.IsInitiated, accepted] at initiated

end WorkflowReplay

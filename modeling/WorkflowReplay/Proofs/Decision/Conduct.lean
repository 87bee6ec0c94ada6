import WorkflowReplay.Proofs.Decision.Emissions

/-!
# A machine and its flags

A machine may be called in any order and with any events, also with such as no history holds.  The
flags of its life agree with its state all the same: `Lifecycle.Step` says once what a call can do
to a life, and the rest is read off it.
-/

set_option autoImplicit false

namespace WorkflowReplay

namespace Lifecycle

/-- What a call can do to the life of a request.  Only some requests are cancelable, and only some
calls refuse a cancellation. -/
inductive Step (cancelable refusal : Prop) (l : Lifecycle) : Lifecycle → Prop where
  | kept : Step cancelable refusal l l
  | asked (possible : cancelable) (unsettled : l.isTerminal = false) :
    Step cancelable refusal l { l with cancelRequested := true }
  | sent (nothing : l.cancelPending = false) :
    Step cancelable refusal l { l with initialEmitted := true }
  | sentCancel (due : l.cancelPending = true) :
    Step cancelable refusal l
      { l with initialEmitted := true, cancelEmitted := true, state := afterCancelSent l.state }
  | initiated (id : EventId) (created : l.state = .created) :
    Step cancelable refusal l
      { l with
        initiatedEventId := some id
        initialEmitted := true
        state := if l.cancelEmitted then .canceledAfterInitiated else .initiated }
  | recorded (id : EventId) (created : l.state = .created) :
    Step cancelable refusal l
      { l with initiatedEventId := some id, initialEmitted := true, state := .completed }
  | started (id : EventId) (initiated : l.state = .initiated) :
    Step cancelable refusal l { l with state := .started, startedEventId := some id }
  | startedCanceled (id : EventId) (canceled : l.state = .canceledAfterInitiated) :
    Step cancelable refusal l { l with state := .canceledAfterStarted, startedEventId := some id }
  | ended (going : l.state = .initiated ∨ l.state = .started) :
    Step cancelable refusal l { l with state := .completed }
  | endedCanceled
    (canceled : l.state = .canceledAfterInitiated ∨ l.state = .canceledAfterStarted) :
    Step cancelable refusal l { l with state := .completedAfterCancellationDecisionSent }
  | canceledUnstarted (possible : cancelable)
    (unstarted : l.state = .initiated ∨ l.state = .canceledAfterInitiated) :
    Step cancelable refusal l { l with state := .canceledAfterInitiated }
  | canceledStarted (possible : cancelable)
    (started : l.state = .started ∨ l.state = .canceledAfterStarted) :
    Step cancelable refusal l { l with state := .canceledAfterStarted }
  | refusedUnstarted (refused : refusal) (canceled : l.state = .canceledAfterInitiated) :
    Step cancelable refusal l
      { l with state := .initiated, cancelRequested := false, cancelEmitted := false }
  | refusedStarted (refused : refusal) (canceled : l.state = .canceledAfterStarted) :
    Step cancelable refusal l
      { l with state := .started, cancelRequested := false, cancelEmitted := false }

section Steps

variable {cancelable refusal : Prop} {l l' : Lifecycle} {id : EventId}

theorem requestCancel?_step (possible : cancelable) (asked : l.requestCancel? = some l') :
    Step cancelable refusal l l' := by
  obtain ⟨unsettled, rfl⟩ := requestCancel?_eq asked
  exact .asked possible unsettled

theorem markSent_step : Step cancelable refusal l l.markSent := by
  unfold markSent
  split
  · next due => exact .sentCancel due
  · next nothing => exact .sent (by simpa using nothing)

theorem initiate?_step (initiated : l.initiate? id = some l') : Step cancelable refusal l l' := by
  obtain ⟨created, rfl⟩ := initiate?_cases initiated
  exact .initiated id created

theorem record?_step (recorded : l.record? id = some l') : Step cancelable refusal l l' := by
  obtain ⟨l₁, initiated, rfl⟩ := Option.map_eq_some_iff.mp recorded
  obtain ⟨created, rfl⟩ := initiate?_cases initiated
  exact .recorded id created

theorem start?_step (started : l.start? id = some l') : Step cancelable refusal l l' := by
  obtain ⟨initiated, rfl⟩ | ⟨canceled, rfl⟩ := start?_cases started
  · exact .started id initiated
  · exact .startedCanceled id canceled

theorem complete?_step (ended : l.complete? = some l') : Step cancelable refusal l l' := by
  obtain ⟨going, rfl⟩ | ⟨canceled, rfl⟩ := complete?_cases ended
  · exact .ended going
  · exact .endedCanceled canceled

theorem cancel?_step (possible : cancelable) (canceled : l.cancel? = some l') :
    Step cancelable refusal l l' := by
  obtain ⟨unstarted, rfl⟩ | ⟨started, rfl⟩ := cancel?_cases canceled
  · exact .canceledUnstarted possible unstarted
  · exact .canceledStarted possible started

theorem failCancel?_step (refuses : refusal) (refused : l.failCancel? = some l') :
    Step cancelable refusal l l' := by
  obtain ⟨unstarted, rfl⟩ | ⟨started, rfl⟩ := failCancel?_cases refused
  · exact .refusedUnstarted refuses unstarted
  · exact .refusedStarted refuses started

end Steps

/-! ## What every step keeps -/

structure Coherent (l : Lifecycle) : Prop where
  created : l.state = .created ↔ l.initiatedEventId = none
  emitted : l.initiatedEventId.isSome → l.initialEmitted = true
  started : l.state = .started ∨ l.state = .canceledAfterStarted → l.startedEventId.isSome
  unstarted : l.state = .created ∨ l.state = .initiated ∨ l.state = .canceledAfterInitiated →
    l.startedEventId = none
  cancel : l.cancelEmitted = true → l.cancelRequested = true ∧ l.initialEmitted = true
  going : l.state = .initiated ∨ l.state = .started → l.cancelEmitted = false

structure IsUncanceled (l : Lifecycle) : Prop where
  unasked : l.cancelRequested = false
  unsent : l.cancelEmitted = false
  state : l.state ≠ .canceledAfterInitiated ∧ l.state ≠ .canceledAfterStarted ∧
    l.state ≠ .completedAfterCancellationDecisionSent

theorem coherent_new : ({} : Lifecycle).Coherent := by
  constructor <;> simp

theorem isUncanceled_new : ({} : Lifecycle).IsUncanceled := by
  constructor <;> simp

theorem Coherent.step {cancelable refusal : Prop} {l l' : Lifecycle} (coherent : l.Coherent)
    (step : Step cancelable refusal l l') : l'.Coherent := by
  obtain ⟨created, emitted, started, unstarted, cancel, going⟩ := coherent
  cases step with
  | kept => exact ⟨created, emitted, started, unstarted, cancel, going⟩
  | asked => exact ⟨created, emitted, started, unstarted, fun h => ⟨rfl, (cancel h).2⟩, going⟩
  | sent => exact ⟨created, fun _ => rfl, started, unstarted, fun h => ⟨(cancel h).1, rfl⟩, going⟩
  | sentCancel due =>
    simp only [cancelPending, Bool.and_eq_true] at due
    cases state : l.state <;> constructor <;> simp_all [afterCancelSent]
  | initiated id new => cases flag : l.cancelEmitted <;> constructor <;> simp_all
  | recorded id new => constructor <;> simp_all
  | started id initiated => constructor <;> simp_all
  | startedCanceled id canceled => constructor <;> simp_all
  | ended going => rcases going with state | state <;> constructor <;> simp_all
  | endedCanceled canceled => rcases canceled with state | state <;> constructor <;> simp_all
  | canceledUnstarted possible state => rcases state with state | state <;> constructor <;> simp_all
  | canceledStarted possible state => rcases state with state | state <;> constructor <;> simp_all
  | refusedUnstarted _ canceled => constructor <;> simp_all
  | refusedStarted _ canceled => constructor <;> simp_all

theorem IsUncanceled.step {cancelable refusal : Prop} {l l' : Lifecycle}
    (uncanceled : l.IsUncanceled) (step : Step cancelable refusal l l') (fixed : ¬ cancelable) :
    l'.IsUncanceled := by
  obtain ⟨unasked, unsent, -, -, -⟩ := id uncanceled
  cases step with
  | kept => exact uncanceled
  | asked possible => exact absurd possible fixed
  | sent => exact ⟨unasked, unsent, uncanceled.state⟩
  | sentCancel due => simp [cancelPending, unasked] at due
  | initiated id => exact ⟨unasked, unsent, by simp [unsent]⟩
  | recorded id => exact ⟨unasked, unsent, by simp⟩
  | started id => exact ⟨unasked, unsent, by simp⟩
  | startedCanceled id canceled => exact absurd canceled uncanceled.state.1
  | ended => exact ⟨unasked, unsent, by simp⟩
  | endedCanceled canceled =>
    rcases canceled with state | state
    · exact absurd state uncanceled.state.1
    · exact absurd state uncanceled.state.2.1
  | canceledUnstarted possible => exact absurd possible fixed
  | canceledStarted possible => exact absurd possible fixed
  | refusedUnstarted _ canceled => exact absurd canceled uncanceled.state.1
  | refusedStarted _ canceled => exact absurd canceled uncanceled.state.2.1

theorem IsOver.step_keeps_state {cancelable refusal : Prop} {l l' : Lifecycle} (ended : l.IsOver)
    (step : Step cancelable refusal l l') : l'.state = l.state := by
  cases step with
  | kept => rfl
  | asked => rfl
  | sent => rfl
  | sentCancel due =>
    have unsettled := not_terminal_of_cancelPending due
    simp [ended.isTerminal] at unsettled
  | _ => rcases ended with state | state <;> simp_all

theorem Step.keeps_cancelEmitted {cancelable refusal : Prop} {l l' : Lifecycle}
    (step : Step cancelable refusal l l') (unrefused : ¬ refusal) (sent : l.cancelEmitted = true) :
    l'.cancelEmitted = true := by
  cases step with
  | sentCancel => rfl
  | refusedUnstarted refused => exact absurd refused unrefused
  | refusedStarted refused => exact absurd refused unrefused
  | _ => exact sent

end Lifecycle

namespace Machine

/-! ## Calls -/

inductive Call where
  | requestCancel
  | collect
  | markSent
  | initiated (e : HistoryEvent)
  | started (e : HistoryEvent)
  | completed (e : HistoryEvent)
  | canceled (e : HistoryEvent)
  | cancelInitiated (e : HistoryEvent)
  | cancelFailed (e : HistoryEvent)

def Call.IsRefusal : Call → Prop
  | .cancelFailed _ => True
  | _ => False

instance : DecidablePred Call.IsRefusal
  | .cancelFailed _ => inferInstanceAs (Decidable True)
  | .requestCancel | .collect | .markSent | .initiated _ | .started _ | .completed _ | .canceled _
  | .cancelInitiated _ => inferInstanceAs (Decidable False)

structure Answer where
  machine : Machine
  accepted : Bool
  /-- The decisions that count as sent from now on; a collection hands them out. -/
  sent : List Decision := []
  outcome : Option Outcome := none

def attempt (m : Machine) (m'? : Option Machine) : Answer :=
  { machine := m'?.getD m, accepted := m'?.isSome }

def resolve (m : Machine) (r? : Option (Outcome × Machine)) : Answer :=
  { machine := (r?.map Prod.snd).getD m, accepted := r?.isSome, outcome := r?.map Prod.fst }

def answer (m : Machine) : Call → Answer
  | .requestCancel => m.attempt m.requestCancel?
  | .collect | .markSent => { machine := m.markSent, accepted := true, sent := m.pending }
  | .initiated e => m.attempt (m.initiated? e)
  | .started e => m.attempt (m.started? e)
  | .completed e => m.resolve (m.completed? e)
  | .canceled e => m.resolve (m.canceled? e)
  | .cancelInitiated e => m.attempt (m.cancelInitiated? e)
  | .cancelFailed e => m.attempt (m.cancelFailed? e)

def calledWith (m : Machine) (calls : List Call) : Machine :=
  calls.foldl (fun m call => (m.answer call).machine) m

def answers (m : Machine) : List Call → List (Call × Answer)
  | [] => []
  | call :: rest => (call, m.answer call) :: (m.answer call).machine.answers rest

def Answer.cancels (a : Answer) : List Decision :=
  a.sent.filter (fun d => a.machine.request.cancelDecision = some d)

inductive Call.Effect (call : Call) (m : Machine) : Answer → Prop where
  | ignored : Effect call m { machine := m, accepted := false }
  | sent : Effect call m { machine := m.markSent, accepted := true, sent := m.pending }
  | changed {m' : Machine} (evolves : m.Evolves m')
    (step : m.life.Step (m.request.cancelDecision ≠ none) call.IsRefusal m'.life) :
    Effect call m { machine := m', accepted := true }
  | resolved {m' : Machine} (o : Outcome) (evolves : m.Evolves m')
    (step : m.life.Step (m.request.cancelDecision ≠ none) call.IsRefusal m'.life)
    (going : ¬ m.life.IsOver) :
    Effect call m { machine := m', accepted := true, outcome := some o }

theorem attempt_effect {m : Machine} {m'? : Option Machine} {call : Call}
    (changes : ∀ m', m'? = some m' → m.Evolves m' ∧
      m.life.Step (m.request.cancelDecision ≠ none) call.IsRefusal m'.life) :
    call.Effect m (m.attempt m'?) := by
  cases m'? with
  | none => exact .ignored
  | some m' => exact .changed (changes m' rfl).1 (changes m' rfl).2

theorem requestCancel?_has_cancelDecision {m m' : Machine} (asked : m.requestCancel? = some m') :
    m.request.cancelDecision ≠ none := by
  unfold requestCancel? at asked
  split at asked
  · simp at asked
  · next possible => simp [possible]

theorem answer_effect (m : Machine) (call : Call) : call.Effect m (m.answer call) := by
  cases call with
  | requestCancel =>
    refine attempt_effect fun m' asked => ⟨requestCancel?_evolves asked, ?_⟩
    have possible := requestCancel?_has_cancelDecision asked
    obtain ⟨l, life, rfl⟩ := requestCancel?_eq asked
    exact Lifecycle.requestCancel?_step possible life
  | collect => exact .sent
  | markSent => exact .sent
  | initiated e =>
    refine attempt_effect fun m' initiated => ?_
    obtain ⟨l, rfl, accepted⟩ := initiated?_leaves_created initiated
    refine ⟨.withLife (.of_leaving_created accepted), ?_⟩
    rcases initiated?_life initiated with life | life
    · exact Lifecycle.initiate?_step life
    · exact Lifecycle.record?_step life
  | started e =>
    exact attempt_effect fun m' started =>
      ⟨(started?_continues started).evolves, Lifecycle.start?_step (started?_life started)⟩
  | completed e =>
    cases completed : m.completed? e with
    | none =>
      simp only [answer, completed]
      exact .ignored
    | some r =>
      obtain ⟨o, m'⟩ := r
      obtain ⟨-, life, -⟩ := completed?_life completed
      simp only [answer, completed]
      exact .resolved o (completed?_continues completed).evolves (Lifecycle.complete?_step life)
        (Lifecycle.complete?_becomes_over life).1
  | canceled e =>
    cases canceled : m.canceled? e with
    | none =>
      simp only [answer, canceled]
      exact .ignored
    | some r =>
      obtain ⟨o, m'⟩ := r
      obtain ⟨-, life, -, possible⟩ := canceled?_life canceled
      simp only [answer, canceled]
      exact .resolved o (canceled?_continues canceled).evolves
        (Lifecycle.cancel?_step possible life) (Lifecycle.cancel?_becomes_terminal life).1
  | cancelInitiated e =>
    refine attempt_effect fun m' found => ⟨(cancelInitiated?_continues found).evolves, ?_⟩
    rw [cancelInitiated?_life found]
    exact .kept
  | cancelFailed e =>
    exact attempt_effect fun m' failed =>
      ⟨(cancelFailed?_continues failed).evolves,
        Lifecycle.failCancel?_step trivial (cancelFailed?_life failed).1⟩

namespace Call.Effect

variable {call : Call} {m : Machine} {a : Answer}

theorem life_step (effect : call.Effect m a) :
    m.life.Step (m.request.cancelDecision ≠ none) call.IsRefusal a.machine.life := by
  cases effect with
  | ignored => exact .kept
  | sent => exact Lifecycle.markSent_step
  | changed _ step => exact step
  | resolved _ _ step => exact step

theorem cancelable_iff (effect : call.Effect m a) :
    a.machine.request.cancelDecision = none ↔ m.request.cancelDecision = none := by
  cases effect with
  | ignored => rfl
  | sent => rfl
  | changed evolves => exact evolves.cancelable
  | resolved _ evolves => exact evolves.cancelable

/-- A request that is over has nothing to send and nothing to report. -/
theorem silent_once_over (effect : call.Effect m a) (coherent : m.life.Coherent)
    (ended : m.life.IsOver) :
    a.sent = [] ∧ a.outcome = none := by
  cases effect with
  | ignored => exact ⟨rfl, rfl⟩
  | changed => exact ⟨rfl, rfl⟩
  | resolved _ _ _ going => exact absurd ended going
  | sent =>
    have left : m.life.state ≠ .created := by
      rcases ended with state | state <;> simp [state]
    have initiated : m.life.initiatedEventId.isSome :=
      Option.isSome_iff_ne_none.mpr fun unknown => left (coherent.created.mpr unknown)
    refine ⟨pending_of_settled ⟨coherent.emitted initiated, ?_⟩, rfl⟩
    simp [Lifecycle.cancelPending, ended.isTerminal]

/-- A cancel decision is sent by a request whose cancellation does not count as sent yet, and
counts as sent from then on; only an accepted refusal takes that back. -/
theorem cancels_accounted (effect : call.Effect m a) :
    a.cancels.length + m.life.cancelEmitted.toNat ≤
      a.machine.life.cancelEmitted.toNat + if call.IsRefusal ∧ a.accepted = true then 1 else 0 := by
  have kept {m' : Machine}
      (step : m.life.Step (m.request.cancelDecision ≠ none) call.IsRefusal m'.life) :
      m.life.cancelEmitted.toNat ≤
        m'.life.cancelEmitted.toNat + if call.IsRefusal then 1 else 0 := by
    split
    · have := Bool.toNat_le m.life.cancelEmitted
      omega
    · next unrefused =>
      cases sent : m.life.cancelEmitted with
      | false => simp
      | true => simp [step.keeps_cancelEmitted unrefused sent]
  cases effect with
  | ignored => simp [Answer.cancels]
  | changed _ step => simpa [Answer.cancels] using kept step
  | resolved _ _ step => simpa [Answer.cancels] using kept step
  | sent =>
    have initial : ∀ d ∈ (if m.life.initialEmitted then [] else [m.request.initialDecision]),
        m.request.cancelDecision ≠ some d := by
      intro d member same
      split at member
      · simp at member
      · obtain rfl := List.mem_singleton.mp member
        exact m.request.initialDecision_ne_cancel (by simp [same])
    have cancels : m.pending.filter (fun d => m.request.cancelDecision = some d) =
        if m.life.cancelPending then m.request.cancelDecision.toList else [] := by
      rw [pending, List.filter_append, List.filter_eq_nil_iff.mpr (by simpa using initial)]
      split <;> cases m.request.cancelDecision <;> simp
    have one : m.request.cancelDecision.toList.length ≤ 1 := by
      cases m.request.cancelDecision <;> simp
    change (m.pending.filter (fun d => m.request.cancelDecision = some d)).length + _ ≤
      m.life.markSent.cancelEmitted.toNat + _
    rw [cancels, Lifecycle.markSent]
    by_cases due : m.life.cancelPending = true
    · have unsent : m.life.cancelEmitted = false := by
        simp only [Lifecycle.cancelPending, Bool.and_eq_true, Bool.not_eq_true'] at due
        exact due.1.2
      simp only [due, if_true, unsent, Bool.toNat_false, Bool.toNat_true]
      omega
    · simp [due]

end Call.Effect

/-! ## Any calls -/

theorem calledWith_append (m : Machine) (calls later : List Call) :
    m.calledWith (calls ++ later) = (m.calledWith calls).calledWith later :=
  List.foldl_append ..

theorem calledWith_induction {motive : Machine → Prop} {m : Machine} (start : motive m)
    (call : ∀ m call, motive m → motive (m.answer call).machine) (calls : List Call) :
    motive (m.calledWith calls) := by
  induction calls generalizing m with
  | nil => exact start
  | cons first rest ih => exact ih (call m first start)

def cancelsSent (log : List (Call × Answer)) : Nat := (log.flatMap (fun x => x.2.cancels)).length

def refusals (log : List (Call × Answer)) : Nat :=
  log.countP (fun x => x.1.IsRefusal ∧ x.2.accepted = true)

theorem answers_cancels_accounted (m : Machine) (calls : List Call) :
    cancelsSent (m.answers calls) + m.life.cancelEmitted.toNat ≤
      (m.calledWith calls).life.cancelEmitted.toNat + refusals (m.answers calls) := by
  induction calls generalizing m with
  | nil => simp [answers, cancelsSent, refusals, calledWith]
  | cons call rest ih =>
    have first := (m.answer_effect call).cancels_accounted
    have later := ih (m.answer call).machine
    have end_eq : m.calledWith (call :: rest) = (m.answer call).machine.calledWith rest := rfl
    simp only [answers, cancelsSent, refusals, List.flatMap_cons, List.length_append,
      List.countP_cons, decide_eq_true_eq, end_eq] at later ⊢
    omega

theorem answers_silent_once_over {m : Machine} (coherent : m.life.Coherent) (ended : m.life.IsOver)
    (calls : List Call) :
    (m.calledWith calls).state = m.state ∧
      ∀ x ∈ m.answers calls, x.2.sent = [] ∧ x.2.outcome = none := by
  induction calls generalizing m with
  | nil => exact ⟨rfl, by simp [answers]⟩
  | cons call rest ih =>
    have effect := m.answer_effect call
    have state : (m.answer call).machine.life.state = m.life.state :=
      ended.step_keeps_state effect.life_step
    obtain ⟨stays, silent⟩ := ih (coherent.step effect.life_step) (by rwa [Lifecycle.IsOver, state])
    refine ⟨stays.trans state, ?_⟩
    intro x member
    rcases List.mem_cons.mp member with rfl | later
    · exact effect.silent_once_over coherent ended
    · exact silent x later

/-- Whatever a new machine of any kind is called with, the flags and the ids of its life agree with
its state; nothing cancels a request that has no cancel decision; a request that ended by itself
keeps its state, sends nothing and reports nothing whatever follows; and each cancel decision that
was sent, the last one apart, was refused. -/
theorem calledWith_disciplined (r : Request) (calls : List Call) :
    let m : Machine := { request := r }
    (m.calledWith calls).life.Coherent ∧
      (r.cancelDecision = none → (m.calledWith calls).life.IsUncanceled) ∧
      ((m.calledWith calls).life.IsOver → ∀ later,
        (m.calledWith (calls ++ later)).state = (m.calledWith calls).state ∧
          ∀ x ∈ (m.calledWith calls).answers later, x.2.sent = [] ∧ x.2.outcome = none) ∧
      cancelsSent (m.answers calls) ≤ refusals (m.answers calls) + 1 := by
  intro m
  have coherent : (m.calledWith calls).life.Coherent :=
    calledWith_induction (motive := fun m => m.life.Coherent) Lifecycle.coherent_new
      (fun m call coherent => coherent.step (m.answer_effect call).life_step) calls
  refine ⟨coherent, fun fixed => ?_, fun ended later => ?_, ?_⟩
  · refine (calledWith_induction
      (motive := fun m => m.request.cancelDecision = none ∧ m.life.IsUncanceled)
      ⟨fixed, Lifecycle.isUncanceled_new⟩ ?_ calls).2
    rintro m call ⟨fixed, uncanceled⟩
    have effect := m.answer_effect call
    exact ⟨effect.cancelable_iff.mpr fixed, uncanceled.step effect.life_step (by simp [fixed])⟩
  · rw [calledWith_append]
    exact answers_silent_once_over coherent ended later
  · have account := answers_cancels_accounted m calls
    have flag := Bool.toNat_le (m.calledWith calls).life.cancelEmitted
    omega

/-- A refused cancel decision can be sent again. -/
example :
    let log := answers { request := .timer { timerId := "t" } }
      [.initiated ⟨1, ⟨0, 0⟩, .timerStarted { timerId := "t" }⟩, .requestCancel, .collect,
        .cancelFailed ⟨2, ⟨0, 0⟩, .cancelTimerFailed { timerId := "t" }⟩, .requestCancel, .markSent]
    cancelsSent log = 2 ∧ refusals log = 1 := by decide

end Machine

end WorkflowReplay

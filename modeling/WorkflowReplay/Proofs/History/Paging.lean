import WorkflowReplay.Proofs.History.Polling

/-!
# Histories in pages

A batch is handed out only when no later page can change it.  So it does not matter how a history is
cut into pages, nor how often the queue is polled while they come: the batches are those of the
whole history, and the queue is left as the whole history leaves it.
-/

set_option autoImplicit false

namespace WorkflowReplay

inductive Reading where
  | page (events : List HistoryEvent)
  | poll

namespace Reading

def isPage : Reading → Bool
  | .page _ => true
  | .poll => false

def events : Reading → List HistoryEvent
  | .page events => events
  | .poll => []

def history (steps : List Reading) : List HistoryEvent := steps.flatMap events

@[simp] theorem history_page (events : List HistoryEvent) (rest : List Reading) :
    history (.page events :: rest) = events ++ history rest := rfl

theorem history_eq_nil {steps : List Reading} (none : steps.any isPage = false) :
    history steps = [] := by
  induction steps with
  | nil => rfl
  | cons step rest ih =>
    simp only [List.any_cons, Bool.or_eq_false_iff] at none
    cases step with
    | page events => simp [isPage] at none
    | poll => exact ih none.2

end Reading

namespace BatchQueue

/-- Goes through the steps.  More pages are pending as long as a page follows.  Answers the batches
that were ready, and the queue after the last step. -/
def read (q : BatchQueue) : List Reading → Except ReplayError (List Batch × BatchQueue)
  | [] => .ok ([], q)
  | .page events :: rest =>
    match q.pushPage events (rest.any Reading.isPage) with
    | (some err, _) => .error err
    | (none, q) => q.read rest
  | .poll :: rest =>
    match q.poll with
    | (.ready b, q) => (q.read rest).map fun r => (b :: r.1, r.2)
    | (_, q) => q.read rest

def extended (q : BatchQueue) (events : List HistoryEvent) (lastEventId : EventId)
    (morePages : Bool) : BatchQueue :=
  { q with buffer := q.buffer ++ events, lastEventId, morePages }

def joined (q : BatchQueue) (rest : List HistoryEvent) (lastEventId : EventId) : BatchQueue :=
  q.extended rest lastEventId false

/-! ## Batches that are ready stay as they are -/

theorem splitAtClosing_joined {es events after : List HistoryEvent} {type : EventType}
    (split : splitAtClosing es = some (events, type, after)) (rest : List HistoryEvent) :
    splitAtClosing (es ++ rest) = some (events, type, after ++ rest) := by
  obtain ⟨rfl, before, closing, rfl, rfl, closes, quiet⟩ := splitAtClosing_eq_some split
  have first := splitAtClosing_append (after ++ rest) quiet closes
  simpa using first

theorem handOut_joined {q q' : BatchQueue} {b : Batch}
    {events decisionEvents left : List HistoryEvent} {closing : Option EventType}
    (polled : q.handOut events decisionEvents closing left = (.ready b, q'))
    (rest : List HistoryEvent) (last : EventId) :
    (q.joined rest last).handOut events decisionEvents closing (left ++ rest) =
      (.ready b, q'.joined rest last) := by
  unfold handOut at polled ⊢
  simp only [Prod.mk.injEq, NextBatch.ready.injEq] at polled
  obtain ⟨rfl, rfl⟩ := polled
  rfl

/-- The decisions of a completed task end within what is there, or nothing more is to come. -/
theorem decisions_joined {after rest : List HistoryEvent}
    (ends : (after.dropWhile fun e => e.type.isDecisionEvent) ≠ [] ∨ rest = []) :
    ((after ++ rest).takeWhile fun e => e.type.isDecisionEvent) =
        (after.takeWhile fun e => e.type.isDecisionEvent) ∧
      ((after ++ rest).dropWhile fun e => e.type.isDecisionEvent) =
        (after.dropWhile fun e => e.type.isDecisionEvent) ++ rest := by
  rcases ends with within | rfl
  · have short : (after.takeWhile fun e => e.type.isDecisionEvent).length ≠ after.length := by
      have length := congrArg List.length
        (List.takeWhile_append_dropWhile (p := fun e : HistoryEvent => e.type.isDecisionEvent)
          (l := after))
      have some := List.length_pos_iff.mpr within
      rw [List.length_append] at length
      omega
    rw [List.takeWhile_append, if_neg short, List.dropWhile_append, if_neg (by simpa using within)]
    exact ⟨rfl, rfl⟩
  · simp only [List.append_nil, and_self]

/-- A batch that is ready is the same whatever is still to come, unless nothing more is expected. -/
theorem poll_joined {q q' : BatchQueue} {b : Batch} (polled : q.poll = (.ready b, q'))
    {rest : List HistoryEvent} (final : q.morePages = false → rest = []) (last : EventId) :
    (q.joined rest last).poll = (.ready b, q'.joined rest last) := by
  cases split : splitAtClosing q.buffer with
  | some found =>
    obtain ⟨events, type, after⟩ := found
    have split' : splitAtClosing (q.joined rest last).buffer = some (events, type, after ++ rest) :=
      splitAtClosing_joined split rest
    rw [poll_closed split] at polled
    rw [poll_closed split']
    split at polled
    · split at polled
      · simp at polled
      · next goesOn =>
        have ends : (after.dropWhile fun e => e.type.isDecisionEvent) ≠ [] ∨ rest = [] := by
          cases pages : q.morePages with
          | true => exact .inl (by simpa [pages] using goesOn)
          | false => exact .inr (final pages)
        obtain ⟨taken, left⟩ := decisions_joined ends
        rw [if_pos ‹_›, taken, left]
        simpa [joined, extended] using handOut_joined polled rest last
    · rw [if_neg ‹_›]
      exact handOut_joined polled rest last
  | none =>
    have filled : q.buffer ≠ [] := by
      intro empty
      rw [poll_empty empty] at polled
      split at polled <;> simp at polled
    rw [poll_open filled split] at polled
    split at polled
    · simp at polled
    · next live =>
      simp only [Bool.or_eq_true, Bool.not_eq_true', not_or, Bool.not_eq_true] at live
      obtain rfl := final live.1
      have same : (q.joined [] last).buffer = q.buffer := List.append_nil _
      rw [poll_open (same ▸ filled) (same ▸ split), if_neg, same]
      · exact handOut_joined polled [] last
      · rw [reachesLive, same]
        simpa [joined, extended, reachesLive] using live.2

/-! ## Reading -/

theorem checkIds_append {last last' : EventId} {first rest : List HistoryEvent}
    (checked : checkIds last (first ++ rest) = (last', none)) :
    ∃ middle, checkIds last first = (middle, none) ∧ checkIds middle rest = (last', none) := by
  induction first generalizing last with
  | nil => exact ⟨last, rfl, checked⟩
  | cons e first ih =>
    rw [List.cons_append, checkIds] at checked
    split at checked
    · simp at checked
    · next next =>
      obtain ⟨middle, before, after⟩ := ih checked
      exact ⟨middle, by rw [checkIds, if_neg next, before], after⟩

theorem pushPage_ok {q : BatchQueue} {events : List HistoryEvent} {last : EventId}
    (checked : checkIds q.lastEventId events = (last, none)) (morePages : Bool) :
    q.pushPage events morePages = (none, q.extended events last morePages) := by
  simp only [pushPage, checked]
  rfl

/-- Between the steps a queue knows whether a page follows; before the first page it is empty. -/
structure Expects (q : BatchQueue) (steps : List Reading) : Prop where
  more : q.morePages = true → steps.any Reading.isPage = true
  last : q.morePages = false → q.buffer = [] ∨ Reading.history steps = []

/-- Polling the queue to the end after the steps completes what polling the joined queue yields. -/
theorem read_joined {q : BatchQueue} {steps : List Reading} {last : EventId}
    (checked : checkIds q.lastEventId (Reading.history steps) = (last, none))
    (expects : q.Expects steps) :
    ∃ batches q', q.read steps = .ok (batches, q') ∧ ∀ later left, q'.Polls later left →
      (q.joined (Reading.history steps) last).Polls (batches ++ later) left := by
  induction steps generalizing q with
  | nil =>
    obtain rfl : q.lastEventId = last := congrArg Prod.fst checked
    have complete : q.morePages = false := by
      cases pages : q.morePages with
      | false => rfl
      | true => simpa using expects.more pages
    have same : q.joined [] q.lastEventId = q := by
      simp [joined, extended, ← complete]
    refine ⟨[], q, rfl, ?_⟩
    intro later left polls
    exact same.symm ▸ polls
  | cons step rest ih =>
    cases step with
    | page events =>
      rw [Reading.history_page] at checked ⊢
      obtain ⟨middle, inOrder, checked⟩ := checkIds_append checked
      have expects' : (q.extended events middle (rest.any Reading.isPage)).Expects rest :=
        ⟨fun more => more, fun last => .inr (Reading.history_eq_nil last)⟩
      obtain ⟨batches, q', reads, polls⟩ := ih checked expects'
      refine ⟨batches, q', ?_, ?_⟩
      · rw [read, pushPage_ok inOrder]
        exact reads
      · simpa only [joined, extended, List.append_assoc] using polls
    | poll =>
      rcases q.ready_or_idle with ⟨b, q₁, polled⟩ | idle
      · have handed := poll_handsOut polled
        -- Before the first page no batch is ready, since the queue is empty.
        have nothing (pages : q.morePages = false) : Reading.history rest = [] := by
          rcases expects.last pages with empty | nothing
          · have shorter := handed.length_lt
            simp [empty] at shorter
          · exact nothing
        have expects' : q₁.Expects rest :=
          ⟨fun more => expects.more (handed.pages.symm.trans more),
            fun last => .inr (nothing (handed.pages.symm.trans last))⟩
        obtain ⟨batches, q', reads, polls⟩ := ih ((poll_labels polled).2.2.symm ▸ checked) expects'
        refine ⟨b :: batches, q', ?_, ?_⟩
        · simp only [read, polled, reads]
          rfl
        · intro later left again
          exact .ready (poll_joined polled nothing last) (polls later left again)
      · obtain ⟨batches, q', reads, polls⟩ := ih checked ⟨expects.more, expects.last⟩
        refine ⟨batches, q', ?_, polls⟩
        rw [read, idle.poll_eq]
        by_cases nothing : q.buffer = [] ∧ q.morePages = false <;> simp [nothing, reads]

/-- However a history is cut into pages, and however often the queue is polled while they come, all
pages are taken, the batches are those of the whole history, and what is left is the same. -/
theorem paging_unobservable {history : List HistoryEvent} (positive : ∀ e ∈ history, 0 < e.id)
    (increasing : history.Pairwise (fun a b => a.id < b.id)) (started : EventId)
    {steps : List Reading} (cut : Reading.history steps = history) :
    ∃ whole q batches later left, ofHistory history started = .ok whole ∧
      (new started).read steps = .ok (batches, q) ∧ q.Polls later left ∧
      whole.Polls (batches ++ later) left := by
  obtain ⟨last, checked⟩ := checkIds_ok positive increasing
  have accepted : ofHistory history started = .ok ((new started).joined history last) := by
    simp only [ofHistory, pushPage_ok (q := new started) checked]
    rfl
  have expects : (new started).Expects steps := ⟨by simp [new], fun _ => .inl rfl⟩
  obtain ⟨batches, q, reads, polls⟩ := read_joined (q := new started) (cut ▸ checked) expects
  have rest : q.Polls q.drain.1 q.drain.2 := Polls.iff_drain.mpr ⟨rfl, rfl⟩
  exact ⟨_, q, batches, _, _, accepted, reads, rest, cut ▸ polls _ _ rest⟩

/-- The first task is completed at the end of a page, and an empty page follows.  Its decisions are
cut by the next page. -/
def signalAfterFailureInPages : List Reading := [
  .poll, .page (signalAfterFailure.take 2), .poll, .page [], .poll,
  .page ((signalAfterFailure.drop 2).take 1), .poll, .page (signalAfterFailure.drop 3), .poll]

theorem signal_left_over_in_pages :
    ∃ whole q b later left, ofHistory signalAfterFailure 9 = .ok whole ∧
      (new 9).read signalAfterFailureInPages = .ok ([b], q) ∧ b.decisionEvents.length = 2 ∧
      q.Polls later left ∧ whole.Polls (b :: later) left := by
  obtain ⟨whole, q, batches, later, left, accepted, reads, rest, polls⟩ :=
    @paging_unobservable signalAfterFailure (by decide) (by decide) 9 signalAfterFailureInPages
      (by decide)
  obtain ⟨b, q', first, decisions⟩ : ∃ b q',
      (new 9).read signalAfterFailureInPages = .ok ([b], q') ∧ b.decisionEvents.length = 2 :=
    ⟨_, _, rfl, rfl⟩
  cases reads.symm.trans first
  exact ⟨whole, q, b, later, left, accepted, first, decisions, rest, polls⟩

end BatchQueue

end WorkflowReplay

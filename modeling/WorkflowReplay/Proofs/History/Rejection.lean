import WorkflowReplay.Proofs.History.Paging

/-!
# Rejected pages

A page is refused at its first event that is out of order.  No event of it is taken, but the ids
before that event count as seen all the same.  So a rejected page leaves the queue as it was only if
its very first event is out of order; in all other cases a corrected page that begins with the same
event is refused as well, and only a page beyond the ids that were seen is taken as before.
-/

set_option autoImplicit false

namespace WorkflowReplay.BatchQueue

/-! ## Walking over ids -/

theorem checkIds_finds_offender {last last' bad : EventId} {page : List HistoryEvent}
    (checked : checkIds last page = (last', some bad)) :
    ∃ front offender rest, page = front ++ offender :: rest ∧
      checkIds last front = (last', none) ∧ offender.id = bad ∧ offender.id ≤ last' := by
  induction page generalizing last with
  | nil => simp [checkIds] at checked
  | cons e page ih =>
    rw [checkIds] at checked
    split at checked
    · next low =>
      cases checked
      exact ⟨[], e, page, rfl, rfl, rfl, low⟩
    · next above =>
      obtain ⟨front, offender, rest, rfl, walked, same, low⟩ := ih checked
      refine ⟨e :: front, offender, rest, rfl, ?_, same, low⟩
      rw [checkIds, if_neg above]
      exact walked

theorem checkIds_last_eq {last last' : EventId} {front : List HistoryEvent}
    (checked : checkIds last front = (last', none)) :
    last' = (front.getLast?.map (·.id)).getD last := by
  induction front generalizing last with
  | nil => exact (congrArg Prod.fst checked).symm
  | cons e front ih =>
    rw [checkIds] at checked
    split at checked
    · simp at checked
    · rw [ih checked]
      cases front with
      | nil => rfl
      | cons next front => simp [List.getLast?_eq_some_getLast]

theorem checkIds_le {last last' : EventId} {front : List HistoryEvent}
    (checked : checkIds last front = (last', none)) :
    last ≤ last' ∧ ∀ e ∈ front, e.id ≤ last' := by
  induction front generalizing last with
  | nil =>
    obtain rfl : last = last' := congrArg Prod.fst checked
    simp
  | cons e front ih =>
    rw [checkIds] at checked
    split at checked
    · simp at checked
    · next above =>
      obtain ⟨here, later⟩ := ih checked
      have below : last < e.id := Int64.not_le.mp above
      refine ⟨Int64.le_trans (Int64.le_of_lt below) here, ?_⟩
      intro x member
      rcases List.mem_cons.mp member with rfl | old
      · exact here
      · exact later x old

theorem checkIds_eq_self_iff {last last' : EventId} {front : List HistoryEvent}
    (checked : checkIds last front = (last', none)) : last' = last ↔ front = [] := by
  constructor
  · rintro rfl
    cases front with
    | nil => rfl
    | cons e front =>
      have above := (checkIds_none checked).2 e (by simp)
      have upTo := (checkIds_le checked).2 e (by simp)
      exact absurd upTo (Int64.not_le.mpr above)
  · rintro rfl
    exact (congrArg Prod.fst checked).symm

theorem checkIds_of_passed {last last' : EventId} {e : HistoryEvent} (upTo : last ≤ last')
    (above : last' < e.id) (rest : List HistoryEvent) :
    checkIds last (e :: rest) = checkIds last' (e :: rest) := by
  have below : last < e.id := Int64.lt_of_le_of_lt upTo above
  rw [checkIds, checkIds, if_neg (Int64.not_le.mpr above), if_neg (Int64.not_le.mpr below)]

/-! ## Pages that are refused -/

theorem pushPage_rejected {q q' : BatchQueue} {page : List HistoryEvent} {more : Bool}
    {err : ReplayError} (rejected : q.pushPage page more = (some err, q')) :
    ∃ front offender rest, page = front ++ offender :: rest ∧
      checkIds q.lastEventId front = (q'.lastEventId, none) ∧
      offender.id ≤ q'.lastEventId ∧
      err = .malformedHistory (.outOfOrder offender.id q'.lastEventId) ∧
      q' = { q with lastEventId := q'.lastEventId } := by
  unfold pushPage at rejected
  split at rejected
  · next last bad checked =>
    cases rejected
    obtain ⟨front, offender, rest, split, walked, rfl, low⟩ := checkIds_finds_offender checked
    exact ⟨front, offender, rest, split, walked, low, rfl, rfl⟩
  · simp at rejected

theorem pushPage_rejects_seen_id {q : BatchQueue} {e : HistoryEvent} (low : e.id ≤ q.lastEventId)
    (rest : List HistoryEvent) (more : Bool) :
    q.pushPage (e :: rest) more =
      (some (.malformedHistory (.outOfOrder e.id q.lastEventId)), q) := by
  simp only [pushPage, checkIds, if_pos low]

/-- After more ids have been seen, a page that was acceptable is treated as before exactly if it
lies beyond them. -/
theorem pushPage_seen_iff {q : BatchQueue} {last : EventId} (seen : q.lastEventId < last)
    {page : List HistoryEvent} {more : Bool} (acceptable : (q.pushPage page more).1 = none) :
    { q with lastEventId := last }.pushPage page more = q.pushPage page more ↔
      ∃ e ∈ page.head?, last < e.id := by
  cases page with
  | nil =>
    have apart : last ≠ q.lastEventId := by
      rintro rfl
      exact Int64.lt_irrefl seen
    simp [pushPage, checkIds, apart]
  | cons e rest =>
    constructor
    · intro same
      refine ⟨e, rfl, Int64.not_le.mp ?_⟩
      intro low
      rw [pushPage_rejects_seen_id (q := { q with lastEventId := last }) low] at same
      simp [← same] at acceptable
    · rintro ⟨_, ⟨⟩, above⟩
      have walks := checkIds_of_passed (Int64.le_of_lt seen) above rest
      simp only [pushPage, walks]

/-- A rejected page leaves the queue as it was exactly if its first event is out of order.  If it is
not, the ids before the one that is out of order count as seen: a corrected page is treated as if
the rejected one had never been offered exactly if all of it lies beyond them, and a page that
begins as the rejected one does is refused. -/
theorem rejection_forgotten_iff {q q' : BatchQueue} {page : List HistoryEvent} {more : Bool}
    {err : ReplayError} (rejected : q.pushPage page more = (some err, q')) :
    ∃ front offender rest, page = front ++ offender :: rest ∧
      front.Pairwise (fun a b => a.id < b.id) ∧ (∀ e ∈ front, q.lastEventId < e.id) ∧
      q' = { q with lastEventId := (front.getLast?.map (·.id)).getD q.lastEventId } ∧
      offender.id ≤ q'.lastEventId ∧
      err = .malformedHistory (.outOfOrder offender.id q'.lastEventId) ∧
      (q' = q ↔ front = []) ∧
      (∀ corrected more', (q.pushPage corrected more').1 = none →
        (q'.pushPage corrected more' = q.pushPage corrected more' ↔
          front = [] ∨ ∃ e ∈ corrected.head?, q'.lastEventId < e.id)) ∧
      ∀ e ∈ front.head?, ∀ later more', q'.pushPage (e :: later) more' =
        (some (.malformedHistory (.outOfOrder e.id q'.lastEventId)), q') := by
  obtain ⟨front, offender, rest, split, walked, low, error, after⟩ := pushPage_rejected rejected
  obtain ⟨increasing, above⟩ := checkIds_none walked
  have unmoved : q' = q ↔ front = [] := by
    rw [← checkIds_eq_self_iff walked]
    constructor
    · rintro rfl
      rfl
    · intro same
      rw [after, same]
  refine ⟨front, offender, rest, split, increasing, above, ?_, low, error, unmoved, ?_, ?_⟩
  · rw [← checkIds_last_eq walked]
    exact after
  · intro corrected more' acceptable
    -- Nothing was seen, or more ids were seen than before.
    by_cases first : front = []
    · simp [first, unmoved.mpr first]
    · have upTo := (checkIds_le walked).1
      have apart : q'.lastEventId ≠ q.lastEventId := mt (checkIds_eq_self_iff walked).mp first
      have seen : q.lastEventId < q'.lastEventId := Int64.lt_of_le_of_ne upTo apart.symm
      have beyond := pushPage_seen_iff seen acceptable
      rw [← after] at beyond
      simp only [first, false_or]
      exact beyond
  · intro e head later more'
    exact pushPage_rejects_seen_id ((checkIds_le walked).2 e (List.mem_of_mem_head? head)) later
      more'

def firing (id : EventId) : HistoryEvent := eventOf id (.timerFired {})

/-- The second of two events is out of order.  The first one is not taken, yet it counts as seen:
the page in the right order, which a new queue takes, is refused. -/
theorem rejection_remembered :
    ∃ q', (new 5).pushPage [firing 5, firing 3] false =
        (some (.malformedHistory (.outOfOrder 3 5)), q') ∧
      q' ≠ new 5 ∧ q'.buffer = [] ∧
      q'.pushPage [firing 3, firing 5] false =
        (some (.malformedHistory (.outOfOrder 3 5)), q') ∧
      ((new 5).pushPage [firing 3, firing 5] false).1 = none := by
  refine ⟨{ new 5 with lastEventId := 5 }, rfl, ?_, rfl, rfl, rfl⟩
  decide

/-- After that rejection a page that begins with the first event again is refused, and one beyond it
is taken as before. -/
theorem rejection_forgotten_beyond :
    ∃ q', (new 5).pushPage [firing 5, firing 3] false =
        (some (.malformedHistory (.outOfOrder 3 5)), q') ∧
      q'.pushPage [firing 6, firing 7] false = (new 5).pushPage [firing 6, firing 7] false ∧
      (q'.pushPage [firing 5, firing 6] false).1 =
        some (.malformedHistory (.outOfOrder 5 5)) := by
  have rejected : (new 5).pushPage [firing 5, firing 3] false =
      (some (.malformedHistory (.outOfOrder 3 5)), { new 5 with lastEventId := 5 }) := rfl
  obtain ⟨front, offender, rest, split, -, -, -, -, -, unmoved, beyond, again⟩ :=
    rejection_forgotten_iff rejected
  refine ⟨_, rejected, ?_, ?_⟩
  · exact (beyond [firing 6, firing 7] false rfl).mpr (.inr ⟨firing 6, rfl, by decide⟩)
  · cases front with
    | nil => exact absurd (unmoved.mpr rfl) (by decide)
    | cons e front =>
      obtain rfl : firing 5 = e := (List.cons.inj split).1
      exact congrArg Prod.fst (again (firing 5) rfl [firing 6] false)

end WorkflowReplay.BatchQueue

import Mathlib.Data.Finset.Basic
import Mathlib.Data.List.Induction
import WorkflowReplay.Proofs.Logs
import WorkflowReplay.Schedule.Board

/-!
# First come, first served

A log says what happened to the queue of a scheduler: which task someone queued, and what became of
the task that was taken from it.  A queue that keeps the set of its tasks beside them never holds a
task twice.  If every task that is taken is the first of that queue, and whoever is passed over has
ended, then tasks are polled in the order in which they were first queued since their last polls.
-/

set_option autoImplicit false

namespace WorkflowReplay.Schedule

/-! ## A queue and the set of its tasks -/

/-- A queue, and the set that is asked whether a task stands in it. -/
structure MarkedQueue where
  queue : List TaskId := []
  queued : Finset TaskId := ∅

inductive Mark where
  /-- Someone queued the task, which may have stood in the queue. -/
  | queued (id : TaskId)
  /-- The task was taken and polled, which may have brought it to its end. -/
  | polled (id : TaskId) (ends : Bool)
  /-- The task was taken and not there any more. -/
  | passed (id : TaskId)
  deriving DecidableEq

namespace MarkedQueue

def push (q : MarkedQueue) (id : TaskId) : MarkedQueue :=
  if id ∈ q.queued then q
  else { queue := q.queue ++ [id], queued := insert id q.queued }

def pop (q : MarkedQueue) : Option TaskId × MarkedQueue :=
  match q.queue with
  | [] => (none, q)
  | id :: rest => (some id, { queue := rest, queued := q.queued.erase id })

def record (q : MarkedQueue) : Mark → MarkedQueue
  | .queued id => q.push id
  | .polled _ _ | .passed _ => q.pop.2

def after (log : List Mark) : MarkedQueue := log.foldl record {}

theorem after_concat (log : List Mark) (mark : Mark) :
    after (log ++ [mark]) = (after log).record mark := by
  simp [after, List.foldl_append]

structure Sound (q : MarkedQueue) : Prop where
  nodup : q.queue.Nodup
  content : ∀ id, id ∈ q.queued ↔ id ∈ q.queue

theorem Sound.push {q : MarkedQueue} (sound : q.Sound) (id : TaskId) : (q.push id).Sound := by
  unfold MarkedQueue.push
  split
  · exact sound
  · next absent =>
    rw [sound.content] at absent
    refine ⟨List.nodup_append.mpr ⟨sound.nodup, by simp, ?_⟩, ?_⟩
    · intro old member new last
      rw [List.mem_singleton.mp last]
      rintro rfl
      exact absent member
    · intro other
      simp [sound.content, or_comm]

theorem Sound.push_queue {q : MarkedQueue} (sound : q.Sound) (id : TaskId) :
    (q.push id).queue = if id ∈ q.queue then q.queue else q.queue ++ [id] := by
  unfold MarkedQueue.push
  simp only [sound.content]
  split <;> rfl

theorem Sound.pop {q : MarkedQueue} (sound : q.Sound) : q.pop.2.Sound := by
  unfold MarkedQueue.pop
  split
  · exact sound
  · next id rest queue =>
    have nodup := sound.nodup
    have content := sound.content
    rw [queue] at nodup content
    obtain ⟨absent, nodup⟩ := List.nodup_cons.mp nodup
    refine ⟨nodup, ?_⟩
    intro other
    by_cases same : other = id
    · simp [same, absent]
    · simp [same, content]

theorem after_sound (log : List Mark) : (after log).Sound := by
  induction log using List.reverseRecOn with
  | nil => exact ⟨.nil, by simp [after]⟩
  | append_singleton log mark ih =>
    rw [after_concat]
    cases mark with
    | queued id => exact ih.push id
    | polled id ends => exact ih.pop
    | passed id => exact ih.pop

theorem pop_queue {q : MarkedQueue} {id : TaskId} {rest : List TaskId}
    (head : q.queue = id :: rest) : q.pop.2.queue = rest := by
  simp [pop, head]

end MarkedQueue

/-! ## What a log says -/

variable {log : List Mark} {id : TaskId}

def QueuedAt (log : List Mark) (id : TaskId) (k : Nat) : Prop := log[k]? = some (.queued id)

def PolledAt (log : List Mark) (id : TaskId) (k : Nat) : Prop :=
  ∃ ends, log[k]? = some (.polled id ends)

def Ended (log : List Mark) (id : TaskId) : Prop := .polled id true ∈ log

/-- The task was queued here, for the first time since its last poll. -/
structure WaitsSince (log : List Mark) (id : TaskId) (k : Nat) : Prop where
  queued : QueuedAt log id k
  unpolled : ∀ j, PolledAt log id j → j < k
  first : ∀ j, QueuedAt log id j → (∀ i, PolledAt log id i → i < j) → k ≤ j

theorem queuedAt_concat {mark : Mark} {k : Nat} :
    QueuedAt (log ++ [mark]) id k ↔ QueuedAt log id k ∨ k = log.length ∧ mark = .queued id :=
  getElem?_concat_iff

theorem polledAt_concat {mark : Mark} {k : Nat} :
    PolledAt (log ++ [mark]) id k ↔
      PolledAt log id k ∨ k = log.length ∧ ∃ ends, mark = .polled id ends := by
  simp only [PolledAt, getElem?_concat_iff, exists_or, exists_and_left]

theorem ended_concat {mark : Mark} :
    Ended (log ++ [mark]) id ↔ Ended log id ∨ mark = .polled id true := by
  simp [Ended, eq_comm]

theorem ended_concat_queued {other : TaskId} :
    Ended (log ++ [.queued other]) id ↔ Ended log id := by
  simp [ended_concat]

theorem Ended.append (ended : Ended log id) (later : List Mark) : Ended (log ++ later) id :=
  List.mem_append_left later ended

theorem QueuedAt.lt {k : Nat} (queued : QueuedAt log id k) : k < log.length :=
  (List.getElem?_eq_some_iff.mp queued).1

theorem PolledAt.lt {k : Nat} (polled : PolledAt log id k) : k < log.length := by
  obtain ⟨ends, found⟩ := polled
  exact (List.getElem?_eq_some_iff.mp found).1

namespace WaitsSince

variable {k l : Nat}

theorem unique (waits : WaitsSince log id k) (waits' : WaitsSince log id l) : k = l :=
  Nat.le_antisymm (waits.first l waits'.queued waits'.unpolled)
    (waits'.first k waits.queued waits.unpolled)

theorem of_queued (queued : QueuedAt log id k) (unpolled : ∀ j, PolledAt log id j → j < k) :
    ∃ l, WaitsSince log id l := by
  induction k using Nat.strongRecOn with
  | ind k ih =>
    by_cases earlier : ∃ j, j < k ∧ QueuedAt log id j ∧ ∀ i, PolledAt log id i → i < j
    · obtain ⟨j, before, queued', unpolled'⟩ := earlier
      exact ih j before queued' unpolled'
    · refine ⟨k, queued, unpolled, ?_⟩
      intro j queued' unpolled'
      exact Nat.not_lt.mp fun before => earlier ⟨j, before, queued', unpolled'⟩

theorem other_iff {mark : Mark} (unqueued : mark ≠ .queued id)
    (unpolled : ∀ ends, mark ≠ .polled id ends) :
    WaitsSince (log ++ [mark]) id k ↔ WaitsSince log id k := by
  have queuedAt (j : Nat) : QueuedAt (log ++ [mark]) id j ↔ QueuedAt log id j := by
    simp [queuedAt_concat, unqueued]
  have polledAt (j : Nat) : PolledAt (log ++ [mark]) id j ↔ PolledAt log id j := by
    simp [polledAt_concat, unpolled]
  constructor
  · intro waits
    exact ⟨(queuedAt k).mp waits.queued, fun j polled => waits.unpolled j ((polledAt j).mpr polled),
      fun j queued free => waits.first j ((queuedAt j).mpr queued)
        fun i polled => free i ((polledAt i).mp polled)⟩
  · intro waits
    exact ⟨(queuedAt k).mpr waits.queued, fun j polled => waits.unpolled j ((polledAt j).mp polled),
      fun j queued free => waits.first j ((queuedAt j).mp queued)
        fun i polled => free i ((polledAt i).mpr polled)⟩

theorem not_after_polled (ends : Bool) : ¬ WaitsSince (log ++ [.polled id ends]) id k := by
  intro waits
  have behind := waits.unpolled log.length (polledAt_concat.mpr (.inr ⟨rfl, ends, rfl⟩))
  have := waits.queued.lt
  simp only [List.length_append, List.length_singleton] at this
  omega

theorem concat_queued_again (waits : WaitsSince log id k) :
    WaitsSince (log ++ [.queued id]) id k := by
  have polledAt (j : Nat) : PolledAt (log ++ [.queued id]) id j ↔ PolledAt log id j := by
    simp [polledAt_concat]
  refine ⟨queuedAt_concat.mpr (.inl waits.queued),
    fun j polled => waits.unpolled j ((polledAt j).mp polled), ?_⟩
  intro j queued free
  rcases queuedAt_concat.mp queued with old | ⟨rfl, -⟩
  · exact waits.first j old fun i polled => free i ((polledAt i).mpr polled)
  · exact Nat.le_of_lt waits.queued.lt

theorem concat_queued_anew (idle : ∀ k, ¬ WaitsSince log id k) :
    WaitsSince (log ++ [.queued id]) id log.length := by
  have polledAt (j : Nat) : PolledAt (log ++ [.queued id]) id j ↔ PolledAt log id j := by
    simp [polledAt_concat]
  refine ⟨queuedAt_concat.mpr (.inr ⟨rfl, rfl⟩),
    fun j polled => ((polledAt j).mp polled).lt, ?_⟩
  intro j queued free
  rcases queuedAt_concat.mp queued with old | ⟨rfl, -⟩
  · obtain ⟨l, waits⟩ := of_queued old fun i polled => free i ((polledAt i).mpr polled)
    exact absurd waits (idle l)
  · exact Nat.le_refl _

theorem other_queued_iff {other : TaskId} (apart : id ≠ other) :
    WaitsSince (log ++ [.queued other]) id k ↔ WaitsSince log id k :=
  other_iff (by simpa using Ne.symm apart) (by simp)

theorem concat_queued (waits : WaitsSince log id k) (other : TaskId) :
    WaitsSince (log ++ [.queued other]) id k := by
  by_cases same : id = other
  · subst same
    exact waits.concat_queued_again
  · exact (other_queued_iff same).mpr waits

end WaitsSince

/-! ## Proper logs -/

/-- Whoever is taken is the first of the queue.  It is polled, unless it has ended. -/
def Fits (log : List Mark) : Mark → Prop
  | .queued _ => True
  | .polled id _ => (MarkedQueue.after log).queue.head? = some id ∧ ¬ Ended log id
  | .passed id => (MarkedQueue.after log).queue.head? = some id ∧ Ended log id

def Proper (log : List Mark) : Prop :=
  ∀ past mark later, log = past ++ mark :: later → Fits past mark

theorem proper_nil : Proper [] := by
  intro past mark later split
  simp at split

theorem proper_concat {mark : Mark} : Proper (log ++ [mark]) ↔ Proper log ∧ Fits log mark := by
  constructor
  · intro proper
    refine ⟨?_, proper log mark [] rfl⟩
    rintro past mark' later rfl
    exact proper past mark' (later ++ [mark]) (by simp)
  · rintro ⟨proper, fits⟩ past mark' later split
    rcases concat_eq_split.mp split with ⟨rfl, rfl, -⟩ | ⟨before, -, rfl⟩
    · exact fits
    · exact proper past mark' before rfl

/-- Who waits stands in the queue, and before all who wait since a later time. -/
structure Served (log : List Mark) : Prop where
  waits : ∀ id, ¬ Ended log id →
    (id ∈ (MarkedQueue.after log).queue ↔ ∃ k, WaitsSince log id k)
  sorted : (MarkedQueue.after log).queue.Pairwise fun a b => ¬ Ended log a → ¬ Ended log b →
    ∃ k l, WaitsSince log a k ∧ WaitsSince log b l ∧ k < l

namespace Served

theorem sorted_concat_queued (served : Served log) (id : TaskId) :
    (MarkedQueue.after log).queue.Pairwise fun a b =>
      ¬ Ended (log ++ [.queued id]) a → ¬ Ended (log ++ [.queued id]) b →
        ∃ k l, WaitsSince (log ++ [.queued id]) a k ∧ WaitsSince (log ++ [.queued id]) b l ∧
          k < l := by
  refine served.sorted.imp ?_
  intro a b before goesOn goesOn'
  rw [ended_concat_queued] at goesOn goesOn'
  obtain ⟨k, l, first, second, lt⟩ := before goesOn goesOn'
  exact ⟨k, l, first.concat_queued id, second.concat_queued id, lt⟩

/-- Who stands in the queue keeps its place and its time. -/
theorem concat_queued_of_mem (served : Served log) {id : TaskId}
    (here : id ∈ (MarkedQueue.after log).queue) : Served (log ++ [.queued id]) := by
  have queue : (MarkedQueue.after (log ++ [.queued id])).queue = (MarkedQueue.after log).queue := by
    rw [MarkedQueue.after_concat]
    exact ((MarkedQueue.after_sound log).push_queue id).trans (if_pos here)
  refine ⟨?_, queue ▸ served.sorted_concat_queued id⟩
  intro other goesOn
  rw [queue]
  rw [ended_concat_queued] at goesOn
  by_cases same : other = id
  · subst same
    obtain ⟨k, waits⟩ := (served.waits other goesOn).mp here
    exact ⟨fun _ => ⟨k, waits.concat_queued_again⟩, fun _ => here⟩
  · simp only [served.waits other goesOn, WaitsSince.other_queued_iff same]

/-- Who does not stand in the queue begins to wait, behind all who do. -/
theorem concat_queued_of_not_mem (served : Served log) {id : TaskId}
    (away : id ∉ (MarkedQueue.after log).queue) : Served (log ++ [.queued id]) := by
  have queue : (MarkedQueue.after (log ++ [.queued id])).queue =
      (MarkedQueue.after log).queue ++ [id] := by
    rw [MarkedQueue.after_concat]
    exact ((MarkedQueue.after_sound log).push_queue id).trans (if_neg away)
  have begins (goesOn : ¬ Ended log id) : WaitsSince (log ++ [.queued id]) id log.length :=
    .concat_queued_anew fun k waits => away ((served.waits id goesOn).mpr ⟨k, waits⟩)
  refine ⟨?_, ?_⟩
  · intro other goesOn
    rw [queue]
    rw [ended_concat_queued] at goesOn
    by_cases same : other = id
    · subst same
      exact ⟨fun _ => ⟨_, begins goesOn⟩, fun _ => by simp⟩
    · simp only [List.mem_append, List.mem_singleton, same, or_false,
        served.waits other goesOn, WaitsSince.other_queued_iff same]
  · rw [queue]
    refine List.pairwise_append.mpr ⟨served.sorted_concat_queued id, by simp, ?_⟩
    intro a member b last goesOn goesOn'
    rw [List.mem_singleton.mp last] at goesOn' ⊢
    rw [ended_concat_queued] at goesOn goesOn'
    obtain ⟨k, waits⟩ := (served.waits a goesOn).mp member
    exact ⟨k, log.length, waits.concat_queued id, begins goesOn', waits.queued.lt⟩

theorem concat_queued (served : Served log) (id : TaskId) : Served (log ++ [.queued id]) := by
  by_cases here : id ∈ (MarkedQueue.after log).queue
  · exact served.concat_queued_of_mem here
  · exact served.concat_queued_of_not_mem here

theorem concat_taken (served : Served log) {mark : Mark} {rest : List TaskId}
    (head : (MarkedQueue.after log).queue = id :: rest)
    (pops : (MarkedQueue.after (log ++ [mark])).queue = rest)
    (others : ∀ other, other ≠ id → mark ≠ .queued other ∧ ∀ ends, mark ≠ .polled other ends)
    (gone : Ended (log ++ [mark]) id ∨ ∀ k, ¬ WaitsSince (log ++ [mark]) id k) :
    Served (log ++ [mark]) := by
  have nodup := (MarkedQueue.after_sound log).nodup
  rw [head] at nodup
  obtain ⟨absent, -⟩ := List.nodup_cons.mp nodup
  have apart {other : TaskId} (member : other ∈ rest) : other ≠ id := fun same =>
    absent (same ▸ member)
  have ended {other : TaskId} (other' : other ≠ id) :
      Ended (log ++ [mark]) other ↔ Ended log other := by
    rw [ended_concat]
    exact or_iff_left ((others other other').2 true)
  have waits {other : TaskId} (other' : other ≠ id) (k : Nat) :
      WaitsSince (log ++ [mark]) other k ↔ WaitsSince log other k :=
    WaitsSince.other_iff (others other other').1 (others other other').2
  refine ⟨?_, ?_⟩
  · intro other goesOn
    rw [pops]
    by_cases same : other = id
    · subst same
      refine ⟨fun member => absurd member absent, ?_⟩
      rintro ⟨k, still⟩
      rcases gone with atEnd | idle
      · exact absurd atEnd goesOn
      · exact absurd still (idle k)
    · have before := served.waits other (by rwa [← ended same])
      rw [head, List.mem_cons, or_iff_right same] at before
      simp only [before, waits same]
  · have sorted := served.sorted
    rw [head] at sorted
    rw [pops]
    refine (List.pairwise_cons.mp sorted).2.imp_of_mem ?_
    intro a b first second before goesOn goesOn'
    rw [ended (apart first)] at goesOn
    rw [ended (apart second)] at goesOn'
    obtain ⟨k, l, since, since', lt⟩ := before goesOn goesOn'
    exact ⟨k, l, (waits (apart first) k).mpr since, (waits (apart second) l).mpr since', lt⟩

end Served

namespace Proper

theorem served (proper : Proper log) : Served log := by
  induction log using List.reverseRecOn with
  | nil =>
    refine ⟨?_, .nil⟩
    intro id _
    simp only [MarkedQueue.after, List.foldl_nil, List.not_mem_nil, false_iff, not_exists]
    intro k waits
    exact absurd waits.queued.lt (Nat.not_lt_zero k)
  | append_singleton log mark ih =>
    obtain ⟨proper, fits⟩ := proper_concat.mp proper
    have served := ih proper
    cases mark with
    | queued id => exact served.concat_queued id
    | polled id ends =>
      obtain ⟨first, -⟩ := fits
      obtain ⟨rest, head⟩ := List.head?_eq_some_iff.mp first
      refine served.concat_taken head ?_ ?_ (.inr fun k => WaitsSince.not_after_polled ends)
      · rw [MarkedQueue.after_concat]
        exact MarkedQueue.pop_queue head
      · intro other apart
        simp [Ne.symm apart]
    | passed id =>
      obtain ⟨first, ended⟩ := fits
      obtain ⟨rest, head⟩ := List.head?_eq_some_iff.mp first
      refine served.concat_taken head ?_ (by simp) (.inl (ended_concat.mpr (.inl ended)))
      rw [MarkedQueue.after_concat]
      exact MarkedQueue.pop_queue head

theorem of_append {later : List Mark} (proper : Proper (log ++ later)) : Proper log := by
  rintro past mark rest rfl
  exact proper past mark (rest ++ later) (by simp)

/-- Who is polled was queued since its last poll, and nobody who is not at its end waits longer. -/
theorem first_served {past later : List Mark} {ends : Bool}
    (proper : Proper (past ++ .polled id ends :: later)) :
    ∃ k, WaitsSince past id k ∧
      ∀ other l, WaitsSince past other l → ¬ Ended past other → k ≤ l := by
  obtain ⟨first, goesOn⟩ := proper past (.polled id ends) later rfl
  obtain ⟨rest, head⟩ := List.head?_eq_some_iff.mp first
  have served := proper.of_append.served
  obtain ⟨k, waits⟩ := (served.waits id goesOn).mp (by simp [head])
  refine ⟨k, waits, ?_⟩
  intro other l waits' goesOn'
  have member := (served.waits other goesOn').mpr ⟨l, waits'⟩
  have sorted := served.sorted
  rw [head] at member sorted
  rcases List.mem_cons.mp member with rfl | behind
  · exact Nat.le_of_eq (waits.unique waits')
  · obtain ⟨k', l', since, since', lt⟩ :=
      (List.pairwise_cons.mp sorted).1 other behind goesOn goesOn'
    have := waits.unique since
    have := waits'.unique since'
    omega

end Proper

end WorkflowReplay.Schedule

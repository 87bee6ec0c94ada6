import WorkflowReplay.Proofs.Decision.Emissions
import WorkflowReplay.Proofs.Decision.Outcomes

/-!
# Requests that wait to be accepted

A request waits until an event accepts it.  As long as it waits the ledger can find it: under its
id, and if it is to change search attributes, in the queue of upserts with the oldest one first.
So an event that accepts requests goes to the request that it is about, and an upsert that is taken
from the queue is never in vain.
-/

set_option autoImplicit false

namespace WorkflowReplay

theorem Lifecycle.markSent_created (l : Lifecycle) :
    l.markSent.state = .created ↔ l.state = .created := by
  unfold markSent
  simp only
  split
  · cases l.state <;> simp [afterCancelSent]
  · rfl

theorem Route.nextUpsert_iff {a : EventAttributes} {key : RouteKey} {role : EventRole}
    (routed : Route.of a = some ⟨key, role⟩) :
    (key = .nextUpsert ↔ ∃ x, a = .upsertWorkflowSearchAttributes x) ∧
      (key = .nextUpsert → role = .initiated) := by
  have roles := role_of_key routed
  cases key with
  | caller id => simpa using roles.2
  | follower target k => simpa using roles.2.2.2
  | nextUpsert => simp [roles.1, roles.2]

namespace Machine

/-- The id under which the request waits for the event that accepts it. -/
def awaitedId? (m : Machine) : Option DecisionId :=
  if m.life.state = .created then some m.id else none

theorem awaitedId?_eq_some {m : Machine} {id : DecisionId} :
    m.awaitedId? = some id ↔ m.life.state = .created ∧ m.id = id := by
  unfold awaitedId?
  split <;> simp [*]

theorem requestCancel?_awaitedId? {m m' : Machine} (asked : m.requestCancel? = some m') :
    m'.awaitedId? = m.awaitedId? := by
  obtain ⟨l, life, rfl⟩ := requestCancel?_eq asked
  obtain ⟨-, rfl⟩ := Lifecycle.requestCancel?_eq life
  rfl

theorem markSent_awaitedId? (m : Machine) : m.markSent.awaitedId? = m.awaitedId? := by
  have created : m.markSent.life.state = .created ↔ m.life.state = .created :=
    Lifecycle.markSent_created m.life
  simp only [awaitedId?, created]
  rfl

theorem initiated?_upsert {m m' : Machine} {e : HistoryEvent} (accepts : m.initiated? e = some m') :
    (m.id.target = .upsertSearchAttributes ↔
      ∃ a, e.attributes = .upsertWorkflowSearchAttributes a) ∧
    (m.id.target = .upsertSearchAttributes → m'.life.IsOver) := by
  obtain ⟨l, rfl, ⟨-, other, unlike⟩ | ⟨recorded, upsert⟩⟩ := initiated?_cases accepts
  · exact ⟨⟨fun same => absurd same other, fun ⟨x, same⟩ => absurd same (unlike x)⟩,
      fun same => absurd same other⟩
  · obtain ⟨l', -, rfl⟩ := Option.map_eq_some_iff.mp recorded
    exact ⟨upsert, fun _ => .inl rfl⟩

/-- An upsert that is made waits until it is over. -/
def IsPrompt (m : Machine) : Prop :=
  m.id.target = .upsertSearchAttributes → m.life.state = .created ∨ m.life.IsOver

end Machine

namespace Ledger

/-! ## One machine -/

namespace Reception

theorem IsGenuine.awaitedId? {r : Reception} (genuine : r.IsGenuine) :
    r.reaction.machine.awaitedId? = if r.role = .initiated then none else r.before.awaitedId? := by
  by_cases role : r.role = .initiated
  · rw [if_pos role]
    cases genuine.effect with
    | accepted _ _ left => exact if_neg left
    | started other => simp [role] at other
    | ended other => simp [role] at other
    | canceled other => simp [role] at other
    | cancelAccepted other => simp [role] at other
    | cancelRefused other => simp [IsRefusal, role] at other
  · rw [if_neg role]
    have id : r.reaction.machine.id = r.before.id := (react?_evolves genuine).id
    rcases genuine.effect.later_of_not_initiated role with later | same
    · rw [Machine.awaitedId?, Machine.awaitedId?, if_neg later.after, if_neg later.before]
    · rw [Machine.awaitedId?, Machine.awaitedId?, same, id]

theorem IsGenuine.awaits_initiation {r : Reception} (genuine : r.IsGenuine)
    (role : r.role = .initiated) :
    r.before.awaitedId? = some r.before.id := by
  rw [IsGenuine, role] at genuine
  obtain ⟨machine, accepts, -⟩ := Option.map_eq_some_iff.mp genuine
  obtain ⟨l, -, created, -⟩ := Machine.initiated?_leaves_created accepts
  exact if_pos created

theorem IsGenuine.nextUpsert_iff {r : Reception} (genuine : r.IsGenuine) {key : RouteKey}
    (routed : Route.of r.event.attributes = some ⟨key, r.role⟩) (role : r.role = .initiated) :
    key = .nextUpsert ↔ r.before.id.target = .upsertSearchAttributes := by
  rw [IsGenuine, role] at genuine
  obtain ⟨machine, accepts, -⟩ := Option.map_eq_some_iff.mp genuine
  rw [(Route.nextUpsert_iff routed).1, (Machine.initiated?_upsert accepts).1]

theorem IsGenuine.reaction_isPrompt {r : Reception} (genuine : r.IsGenuine)
    (prompt : r.before.IsPrompt) :
    r.reaction.machine.IsPrompt := by
  intro upsert
  rw [(react?_evolves genuine).id] at upsert
  by_cases role : r.role = .initiated
  · rw [IsGenuine, role] at genuine
    obtain ⟨machine, accepts, reaction⟩ := Option.map_eq_some_iff.mp genuine
    rw [← reaction]
    exact .inr ((Machine.initiated?_upsert accepts).2 upsert)
  · rcases prompt upsert with created | ended
    · rcases genuine.effect.later_of_not_initiated role with later | same
      · exact absurd created later.before
      · exact .inl (same ▸ created)
    · exact .inr (genuine.effect.over_and_silent ended).1

end Reception

theorem Turn.preserves_isPrompt {before after : Option Machine} {r? : Option Reception}
    (turn : Turn before r? after) (prompt : ∀ machine ∈ before, machine.IsPrompt) :
    ∀ machine ∈ after, machine.IsPrompt := by
  cases turn with
  | absent => exact prompt
  | made =>
    rintro machine ⟨⟩ upsert
    exact .inl rfl
  | kept => exact prompt
  | @asked old new canceled =>
    rintro machine ⟨⟩ upsert
    obtain ⟨l, life, rfl⟩ := Machine.requestCancel?_eq canceled
    obtain ⟨-, rfl⟩ := Lifecycle.requestCancel?_eq life
    exact prompt old rfl upsert
  | sent old =>
    rintro machine ⟨⟩ upsert
    rcases prompt old rfl upsert with created | ended
    · exact .inl ((Lifecycle.markSent_created old.life).mpr created)
    · have same : old.life.markSent.state = old.life.state :=
        Lifecycle.markSent_state_of_terminal ended.isTerminal
      refine .inr ?_
      unfold Lifecycle.IsOver at ended ⊢
      rwa [show old.markSent.life.state = old.life.state from same]
  | received genuine =>
    rintro machine ⟨⟩
    exact genuine.reaction_isPrompt (prompt _ rfl)

/-! ## The ids that machines wait under -/

def awaited? (m : Ledger) (i : Nat) : Option DecisionId := m.machines[i]?.bind Machine.awaitedId?

theorem awaited?_eq_some {m : Ledger} {i : Nat} {id : DecisionId} :
    m.awaited? i = some id ↔ ∃ machine, m.machines[i]? = some machine ∧
      machine.life.state = .created ∧ machine.id = id := by
  simp only [awaited?, Option.bind_eq_some_iff, Machine.awaitedId?_eq_some]

theorem awaited?_bound {m : Ledger} {i : Nat} {id : DecisionId} (waits : m.awaited? i = some id) :
    i < m.machines.length := by
  obtain ⟨machine, found, -⟩ := awaited?_eq_some.mp waits
  exact (List.getElem?_eq_some_iff.mp found).1

theorem getElem?_made_bind {α : Type} (m : Ledger) (r : Request) (f : Machine → Option α)
    (i : Nat) : (m.made r).machines[i]?.bind f =
      if i = m.machines.length then f { request := r } else m.machines[i]?.bind f := by
  rw [made_machines]
  by_cases last : i = m.machines.length
  · simp [last]
  · by_cases old : i < m.machines.length
    · rw [if_pos old, if_neg last]
    · rw [if_neg old, if_neg last, if_neg last, List.getElem?_eq_none (by omega)]

theorem awaited?_made (m : Ledger) (r : Request) (i : Nat) :
    (m.made r).awaited? i = if i = m.machines.length then some r.id else m.awaited? i :=
  getElem?_made_bind m r Machine.awaitedId? i

theorem awaited?_put {m : Ledger} {i : Nat} {machine : Machine}
    (found : m.machines[i]? = some machine) (machine' : Machine) (j : Nat) :
    (m.put i machine').awaited? j = if j = i then machine'.awaitedId? else m.awaited? j := by
  rw [awaited?, awaited?, put_machines found]
  by_cases same : i = j
  · simp [same]
  · rw [if_neg same, if_neg fun h => same h.symm]

theorem awaited?_notifySent (m : Ledger) (i : Nat) :
    m.notifySent.awaited? i = m.awaited? i := by
  unfold awaited?
  rw [notifySent_machine]
  split
  · cases m.machines[i]? with
    | none => rfl
    | some machine => exact Machine.markSent_awaitedId? machine
  · rfl

def AwaitsUpsert (m : Ledger) (i : Nat) : Prop :=
  ∃ name, m.awaited? i = some ⟨.upsertSearchAttributes, name⟩

/-! ## Events that find their machine -/

theorem receive?_located {m : Ledger} {e : HistoryEvent} {key : RouteKey} {role : EventRole}
    {i : Nat} {pendingUpserts : List Nat} {machine : Machine} {reaction : Reaction}
    (routed : Route.of e.attributes = some ⟨key, role⟩)
    (located : m.locate key e = .ok (i, pendingUpserts)) (found : m.machines[i]? = some machine)
    (reacts : react? machine role e = some reaction) :
    m.receive? e = some ⟨e, role, i, machine, reaction⟩ := by
  simp [receive?, routed, located, found, reacts]

theorem locate_pendingUpserts {m : Ledger} {key : RouteKey} {e : HistoryEvent} {i : Nat}
    {pendingUpserts : List Nat} (located : m.locate key e = .ok (i, pendingUpserts)) :
    (key = .nextUpsert → m.pendingUpserts = i :: pendingUpserts) ∧
      (key ≠ .nextUpsert → pendingUpserts = m.pendingUpserts) := by
  unfold locate at located
  split at located
  all_goals
    split at located
    · next taken =>
      cases located
      simp [taken]
    · simp at located

/-- A machine that records what is accepted stops waiting, and nobody else does. -/
theorem awaited?_after_acceptance {m : Ledger} {r : Reception}
    (found : m.machines[r.index]? = some r.before) (genuine : r.IsGenuine) (i : Nat) :
    (m.put r.index r.reaction.machine).awaited? i =
      if i = r.index ∧ r.role = .initiated then none else m.awaited? i := by
  rw [awaited?_put found, genuine.awaitedId?]
  by_cases here : i = r.index
  · by_cases role : r.role = .initiated
    · simp [here, role]
    · simp [here, role, awaited?, found]
  · simp [here]

theorem awaitsUpsert_after_acceptance {m : Ledger} {r : Reception}
    (found : m.machines[r.index]? = some r.before) (genuine : r.IsGenuine) (i : Nat) :
    (m.put r.index r.reaction.machine).AwaitsUpsert i ↔
      m.AwaitsUpsert i ∧ ¬ (i = r.index ∧ r.role = .initiated) := by
  simp only [AwaitsUpsert, awaited?_after_acceptance found genuine]
  split
  · next both => simp [both]
  · next other => simp [other]

theorem nextUpsert_of_awaiting_accepted {m : Ledger} {r : Reception} {key : RouteKey}
    (routed : Route.of r.event.attributes = some ⟨key, r.role⟩)
    (found : m.machines[r.index]? = some r.before) (genuine : r.IsGenuine)
    (role : r.role = .initiated) (waits : m.AwaitsUpsert r.index) : key = .nextUpsert := by
  obtain ⟨name, waits⟩ := waits
  rw [awaited?, found, Option.bind_some, genuine.awaits_initiation role] at waits
  have id : r.before.id = ⟨.upsertSearchAttributes, name⟩ := Option.some.inj waits
  exact (genuine.nextUpsert_iff routed role).mpr (by rw [id])

/-! ## Filed ledgers -/

/-- Whoever waits is found under its id, and an upsert that waits stands in the queue, behind the
older ones. -/
structure Filed (m : Ledger) : Prop where
  prompt : ∀ (i : Nat), ∀ machine ∈ m.machines[i]?, machine.IsPrompt
  named : ∀ i id, m.awaited? i = some id → m.byId.get? id = some i
  sorted : m.pendingUpserts.Pairwise (· < ·)
  queued : ∀ i, i ∈ m.pendingUpserts ↔ m.AwaitsUpsert i

theorem empty_filed : empty.Filed where
  prompt := by simp [empty]
  named := by simp [empty, awaited?]
  sorted := .nil
  queued := by simp [empty, AwaitsUpsert, awaited?]

namespace Filed

variable {m m' : Ledger}

theorem of_unchanged_awaits (filed : m.Filed) {r? : Option Reception} (changes : m.Changes r? m')
    (awaited : ∀ i, m'.awaited? i = m.awaited? i) (byId : m'.byId = m.byId)
    (pendingUpserts : m'.pendingUpserts = m.pendingUpserts) : m'.Filed where
  prompt i := (changes.turn_at i).preserves_isPrompt (filed.prompt i)
  named i id waits := by
    rw [byId]
    exact filed.named i id (awaited i ▸ waits)
  sorted := pendingUpserts ▸ filed.sorted
  queued i := by
    rw [pendingUpserts, filed.queued i, AwaitsUpsert, AwaitsUpsert, awaited i]

theorem awaited_named_after_made (filed : m.Filed) {r : Request} (free : m.isLive r.id = false) :
    ∀ i id, (m.made r).awaited? i = some id → (m.made r).byId.get? id = some i := by
  intro i id waits
  rw [awaited?_made] at waits
  simp only [made, Table.get?_insert]
  split at waits
  · next last =>
    cases waits
    rw [if_pos rfl, last]
  · have known := filed.named i id waits
    obtain ⟨machine, found, created, same⟩ := awaited?_eq_some.mp waits
    have other : r.id ≠ id := by
      intro taken
      have live : m.isLive r.id = true := isLive_iff.mpr ⟨i, machine, taken ▸ known, found, by
        simp [Machine.isTerminal, Lifecycle.isTerminal, created, DecisionState.isTerminal]⟩
      simp [live] at free
    rw [if_neg other, known]

theorem request (filed : m.Filed) {r : Request} (new : r.isNew = true)
    (other : r.id.target ≠ .upsertSearchAttributes) : (m.request r).Filed := by
  rcases request_cases m r with ⟨same, -⟩ | ⟨made, free⟩
  · rw [same]
    exact filed
  · have changes : m.Changes none (m.made r) := .made new free m.pendingUpserts
    rw [made]
    refine ⟨fun i => (changes.turn_at i).preserves_isPrompt (filed.prompt i),
      filed.awaited_named_after_made free,
      filed.sorted, ?_⟩
    intro i
    change i ∈ m.pendingUpserts ↔ _
    rw [filed.queued i, AwaitsUpsert, AwaitsUpsert, awaited?_made]
    split
    · next last =>
      refine ⟨?_, ?_⟩
      · rintro ⟨name, waits⟩
        have := awaited?_bound waits
        omega
      · rintro ⟨name, waits⟩
        exact absurd (congrArg DecisionId.target (Option.some.inj waits)) other
    · rfl

/-- An upsert whose id is taken is dropped, because the one that has the id waits in the queue. -/
theorem upsert_eq_self_of_live (filed : m.Filed) (sound : m.Sound) {id : String}
    {attributes : SearchAttributes} (live : m.isLive ⟨.upsertSearchAttributes, id⟩ = true) :
    m.upsert id attributes = m := by
  obtain ⟨i, machine, name, found, unsettled⟩ := isLive_iff.mp live
  obtain ⟨_, found', same⟩ := sound.named _ i name
  obtain rfl := Option.some.inj (found.symm.trans found')
  have created : machine.life.state = .created := by
    rcases filed.prompt i machine found (by rw [same]) with created | ended
    · exact created
    · simp [Machine.isTerminal, ended.isTerminal] at unsettled
  have waits : i ∈ m.pendingUpserts :=
    (filed.queued i).mpr ⟨id, awaited?_eq_some.mpr ⟨machine, found, created, same⟩⟩
  have dropped : m.request (.upsert id attributes) = m := request_eq_self_of_live live
  unfold upsert
  simp only [dropped, name, List.contains_iff_mem.mpr waits, if_true]

theorem upsert_eq_made_of_free (filed : m.Filed) {id : String} {attributes : SearchAttributes}
    (free : m.isLive ⟨.upsertSearchAttributes, id⟩ = false) :
    m.upsert id attributes = { m.made (.upsert id attributes) with
      pendingUpserts := m.pendingUpserts ++ [m.machines.length] } := by
  have made : m.request (.upsert id attributes) = m.made (.upsert id attributes) :=
    request_eq_made_of_free free
  have name : (m.made (.upsert id attributes)).byId.get? ⟨.upsertSearchAttributes, id⟩ =
      some m.machines.length := by
    simp [Ledger.made, Request.id]
  have absent : m.machines.length ∉ m.pendingUpserts := by
    intro member
    obtain ⟨_, waits⟩ := (filed.queued _).mp member
    have := awaited?_bound waits
    omega
  have unqueued : (m.made (.upsert id attributes)).pendingUpserts.contains m.machines.length =
      false := by
    simpa [Ledger.made] using absent
  unfold upsert
  simp only [made, name, unqueued, Bool.false_eq_true, if_false]
  rfl

theorem upsert (filed : m.Filed) (sound : m.Sound) (id : String) (attributes : SearchAttributes) :
    (m.upsert id attributes).Filed := by
  cases free : m.isLive ⟨.upsertSearchAttributes, id⟩ with
  | true =>
    rw [filed.upsert_eq_self_of_live sound free]
    exact filed
  | false =>
    rw [filed.upsert_eq_made_of_free free]
    have changes : m.Changes none { m.made (.upsert id attributes) with
        pendingUpserts := m.pendingUpserts ++ [m.machines.length] } := .made rfl free _
    have older : ∀ i ∈ m.pendingUpserts, i < m.machines.length := by
      intro i member
      obtain ⟨_, waits⟩ := (filed.queued i).mp member
      exact awaited?_bound waits
    refine ⟨fun i => (changes.turn_at i).preserves_isPrompt (filed.prompt i),
      filed.awaited_named_after_made (r := .upsert id attributes) free, ?_, ?_⟩
    · refine List.pairwise_append.mpr ⟨filed.sorted, List.pairwise_singleton _ _, ?_⟩
      intro i member j last
      rw [List.mem_singleton.mp last]
      exact older i member
    · intro i
      have awaited : (m.made (.upsert id attributes)).awaited? i =
          if i = m.machines.length then some ⟨.upsertSearchAttributes, id⟩ else m.awaited? i :=
        awaited?_made m _ i
      change i ∈ m.pendingUpserts ++ [m.machines.length] ↔
        (m.made (.upsert id attributes)).AwaitsUpsert i
      rw [List.mem_append, List.mem_singleton, filed.queued i, AwaitsUpsert, AwaitsUpsert, awaited]
      by_cases last : i = m.machines.length
      · simp [last]
      · simp [last]

theorem requestCancel? (filed : m.Filed) {id : DecisionId} {m' : Ledger}
    (asked : m.requestCancel? id = some m') : m'.Filed := by
  obtain ⟨i, machine, machine', name, found, canceled, rfl⟩ := requestCancel?_eq asked
  refine filed.of_unchanged_awaits (.asked name found canceled) ?_ rfl rfl
  intro j
  change (m.put i machine').awaited? j = m.awaited? j
  rw [awaited?_put found]
  split
  · next same => rw [same, Machine.requestCancel?_awaitedId? canceled, awaited?, found,
      Option.bind_some]
  · rfl

theorem mem_rest_iff_awaits (filed : m.Filed) {first : Nat} {rest : List Nat}
    (queue : m.pendingUpserts = first :: rest) (i : Nat) :
    i ∈ rest ↔ m.AwaitsUpsert i ∧ i ≠ first := by
  have sorted := filed.sorted
  rw [queue, List.pairwise_cons] at sorted
  rw [← filed.queued i, queue]
  constructor
  · intro member
    have := sorted.1 i member
    exact ⟨List.mem_cons_of_mem _ member, by omega⟩
  · rintro ⟨member, other⟩
    exact (List.mem_cons.mp member).resolve_left other

/-- Whoever is found in the queue and accepted leaves the queue, and whoever is found in another way
is not in it. -/
theorem after_reception (filed : m.Filed) {r : Reception} {key : RouteKey}
    {pendingUpserts : List Nat} (routed : Route.of r.event.attributes = some ⟨key, r.role⟩)
    (located : m.locate key r.event = .ok (r.index, pendingUpserts))
    (found : m.machines[r.index]? = some r.before) (genuine : r.IsGenuine)
    (aliases : Table (DecisionTarget × EventId) Nat) :
    { m.put r.index r.reaction.machine with pendingUpserts, aliases }.Filed := by
  have queue : (key = .nextUpsert → m.pendingUpserts = r.index :: pendingUpserts) ∧
      (key ≠ .nextUpsert → pendingUpserts = m.pendingUpserts) := locate_pendingUpserts located
  refine ⟨?_, ?_, ?_, ?_⟩
  · have changes := Changes.received routed located found genuine
    exact fun i => (changes.turn_at i).preserves_isPrompt (filed.prompt i)
  · intro i id waits
    change (m.put r.index r.reaction.machine).awaited? i = some id at waits
    rw [awaited?_after_acceptance found genuine] at waits
    split at waits
    · simp at waits
    · exact filed.named i id waits
  · by_cases upsert : key = .nextUpsert
    · have sorted := filed.sorted
      rw [queue.1 upsert] at sorted
      exact (List.pairwise_cons.mp sorted).2
    · exact queue.2 upsert ▸ filed.sorted
  · intro i
    change i ∈ pendingUpserts ↔ (m.put r.index r.reaction.machine).AwaitsUpsert i
    rw [awaitsUpsert_after_acceptance found genuine]
    by_cases upsert : key = .nextUpsert
    · have role : r.role = .initiated := (Route.nextUpsert_iff routed).2 upsert
      simp only [filed.mem_rest_iff_awaits (queue.1 upsert), role, and_true, ne_eq]
    · rw [queue.2 upsert, filed.queued i]
      refine ⟨fun waits => ⟨waits, ?_⟩, And.left⟩
      rintro ⟨rfl, role⟩
      exact upsert (nextUpsert_of_awaiting_accepted routed found genuine role waits)

/-- The oldest upsert that waits is the first in the queue. -/
theorem first_iff_least_awaiting (filed : m.Filed) (i : Nat) :
    (∃ rest, m.pendingUpserts = i :: rest) ↔
      m.AwaitsUpsert i ∧ ∀ j, m.AwaitsUpsert j → i ≤ j := by
  obtain ⟨-, -, sorted, queued⟩ := filed
  simp only [← queued]
  cases queue : m.pendingUpserts with
  | nil => simp
  | cons first rest =>
    rw [queue] at sorted
    have older : ∀ j ∈ rest, first < j := (List.pairwise_cons.mp sorted).1
    constructor
    · rintro ⟨rest', same⟩
      cases same
      refine ⟨by simp, ?_⟩
      intro j member
      rcases List.mem_cons.mp member with rfl | late
      · exact Nat.le_refl _
      · exact Nat.le_of_lt (older j late)
    · rintro ⟨member, oldest⟩
      rcases List.mem_cons.mp member with rfl | late
      · exact ⟨rest, rfl⟩
      · have := oldest first (by simp)
        have := older i late
        omega

theorem upsert_event_received_by_first (filed : m.Filed) {e : HistoryEvent}
    {x : Event.UpsertWorkflowSearchAttributes}
    (upsert : e.attributes = .upsertWorkflowSearchAttributes x) {i : Nat} {rest : List Nat}
    (queue : m.pendingUpserts = i :: rest) : ∃ r, m.receive? e = some r ∧ r.index = i := by
  obtain ⟨name, waits⟩ := (filed.queued i).mp (by simp [queue])
  obtain ⟨machine, found, created, id⟩ := awaited?_eq_some.mp waits
  obtain ⟨attributes, request⟩ : ∃ attributes, machine.request = .upsert name attributes := by
    obtain ⟨request, life⟩ := machine
    cases request with
    | upsert id' attributes => exact ⟨attributes, by simpa [Machine.id, Request.id] using id⟩
    | _ => simp [Machine.id, Request.id] at id
  obtain ⟨l, recorded⟩ : ∃ l, machine.life.record? e.id = some l := by
    simp [Lifecycle.record?, Lifecycle.initiate?, created]
  have accepts : machine.initiated? e = some (machine.withLife l) := by
    simp [Machine.initiated?, request, upsert, recorded]
  have routed : Route.of e.attributes = some ⟨.nextUpsert, .initiated⟩ := by rw [upsert]; rfl
  have located : m.locate .nextUpsert e = .ok (i, rest) := by simp [locate, queue]
  have reacts : react? machine .initiated e =
      some { machine := machine.withLife l, newAlias := some machine.id.target } := by
    simp [react?, accepts]
  exact ⟨_, receive?_located routed located found reacts, rfl⟩

theorem handleEvent_unchanged_of_unreceived (filed : m.Filed) {e : HistoryEvent}
    (nobody : m.receive? e = none) :
    (∃ err, m.handleEvent e = .error err) ∨ m.handleEvent e = .ok (none, m) := by
  cases routed : Route.of e.attributes with
  | none => exact .inr (by simp [handleEvent, routed])
  | some route =>
    obtain ⟨key, role⟩ := route
    cases located : m.locate key e with
    | error err => exact .inl ⟨err, by simp [handleEvent, routed, located]⟩
    | ok place =>
      obtain ⟨i, pendingUpserts⟩ := place
      obtain ⟨taken, left⟩ := locate_pendingUpserts located
      have other : key ≠ .nextUpsert := by
        intro upsert
        obtain ⟨x, event⟩ := (Route.nextUpsert_iff routed).1.mp upsert
        obtain ⟨r, received, -⟩ := filed.upsert_event_received_by_first event (taken upsert)
        simp [nobody] at received
      rcases @handleEvent_located _ _ ⟨key, role⟩ _ _ routed located with
        ⟨-, handled⟩ | ⟨r, received, -⟩
      · exact .inr (by rw [handled, left other])
      · simp [nobody] at received

theorem after_operate (filed : m.Filed) (sound : m.Sound) (op : Operation) :
    (m.operate op).Filed := by
  cases op with
  | make r new =>
    cases r with
    | upsert id attributes => exact filed.upsert sound id attributes
    | _ => exact filed.request new (by simp [Request.id])
  | requestCancel id =>
    simp only [operate]
    cases asked : m.requestCancel? id with
    | none => exact filed
    | some m' => exact filed.requestCancel? asked
  | collect => exact filed.of_unchanged_awaits .sent (awaited?_notifySent m) rfl rfl
  | notifySent => exact filed.of_unchanged_awaits .sent (awaited?_notifySent m) rfl rfl
  | event e =>
    simp only [operate]
    cases received : m.receive? e with
    | none =>
      rcases filed.handleEvent_unchanged_of_unreceived received with ⟨err, handled⟩ | handled
      · simpa only [handled] using filed
      · simpa only [handled] using filed
    | some r =>
      obtain ⟨rfl, key, pendingUpserts, routed, located, found, reacts⟩ := receive?_eq_some received
      rcases @handleEvent_located _ _ ⟨key, r.role⟩ _ _ routed located with
        ⟨none, -⟩ | ⟨r', same, -, handled⟩
      · simp [received] at none
      · obtain rfl := Option.some.inj (received.symm.trans same)
        simp only [handled]
        exact filed.after_reception routed located found reacts _

end Filed

theorem after_filed (ops : List Operation) : (after ops).Filed := by
  induction ops using List.reverseRecOn with
  | nil => exact empty_filed
  | append_singleton ops op ih =>
    rw [after_concat]
    exact ih.after_operate (after_tended ops).sound op

end Ledger

end WorkflowReplay

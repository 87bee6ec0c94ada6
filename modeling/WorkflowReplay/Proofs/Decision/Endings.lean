import WorkflowReplay.Proofs.Decision.Operations

/-!
# Events that end a request

An event that ends a request names the event that accepted it.  As long as the aliases of a ledger
lead from there to the machine of the request, the ledger hands the outcome on under the id of that
machine.  It is the id alone that is handed on: whose future waits under it is not looked at here.
-/

set_option autoImplicit false

namespace WorkflowReplay

namespace Machine

def EndsWith (m : Machine) (e : HistoryEvent) (o : Outcome) : Prop :=
  ∃ m', m.completed? e = some (o, m') ∨ m.canceled? e = some (o, m')

theorem completed?_reports_ending {m m' : Machine} {e : HistoryEvent} {o : Outcome}
    (h : m.completed? e = some (o, m')) :
    ∃ k, ending? m.request e.attributes = some (k, o) ∧ m.life.initiatedEventId = some k := by
  obtain ⟨k, l, ends, own, -, rfl⟩ := completed?_cases h
  exact ⟨k, ends, by simpa [Lifecycle.references] using own⟩

theorem canceled?_reports_cancellation {m m' : Machine} {e : HistoryEvent} {o : Outcome}
    (h : m.canceled? e = some (o, m')) :
    ∃ k details, cancellation? m.request e.attributes = some (k, details) ∧
      m.life.initiatedEventId = some k := by
  obtain ⟨k, details, l, ends, -, own, -, rfl⟩ := canceled?_cases h
  exact ⟨k, details, ends, by simpa [Lifecycle.references] using own⟩

theorem ending?_route {r : Request} {a : EventAttributes} {k : EventId} {o : Outcome}
    (ends : ending? r a = some (k, o)) :
    Route.of a = some ⟨.follower r.id.target k, .completion⟩ ∨
      Route.of a = some ⟨.follower r.id.target k, .externalCancelResolved⟩ ∧
        r.id.target ≠ .childWorkflow := by
  unfold ending? at ends
  split at ends <;> simp only [Option.some.injEq, Prod.mk.injEq, reduceCtorEq] at ends
  all_goals
    obtain ⟨rfl, -⟩ := ends
    simp [Route.of, Request.id]

theorem cancellation?_route {r : Request} {a : EventAttributes} {k : EventId}
    {details : Option Payload} (ends : cancellation? r a = some (k, details)) :
    Route.of a = some ⟨.follower r.id.target k, .canceled⟩ := by
  unfold cancellation? at ends
  split at ends <;> simp only [Option.some.injEq, Prod.mk.injEq, reduceCtorEq] at ends
  all_goals
    obtain ⟨rfl, -⟩ := ends
    simp [Route.of, Request.id]

theorem EndsWith.exists_reaction {m : Machine} {e : HistoryEvent} {o : Outcome}
    (ends : m.EndsWith e o) :
    ∃ k role m', m.life.initiatedEventId = some k ∧
      Route.of e.attributes = some ⟨.follower m.id.target k, role⟩ ∧
      Ledger.react? m role e = some { machine := m', outcome := some o } ∧ m'.id = m.id := by
  obtain ⟨m', completed | canceled⟩ := ends
  · obtain ⟨k, ending, accepted⟩ := completed?_reports_ending completed
    have same := (completed?_continues completed).id
    rcases ending?_route ending with routed | ⟨routed, other⟩
    · exact ⟨k, _, m', accepted, routed, by simp [Ledger.react?, completed], same⟩
    · refine ⟨k, _, m', accepted, routed, ?_, same⟩
      simp [Ledger.react?, completed, show m.id.target ≠ .childWorkflow from other]
  · obtain ⟨k, details, ending, accepted⟩ := canceled?_reports_cancellation canceled
    exact ⟨k, _, m', accepted, cancellation?_route ending, by simp [Ledger.react?, canceled],
      (canceled?_continues canceled).id⟩

end Machine

namespace Ledger

def Aliased (m : Ledger) : Prop :=
  ∀ (i : Nat) machine k, m.machines[i]? = some machine →
    machine.life.initiatedEventId = some k → m.aliases.get? (machine.id.target, k) = some i

/-- The outcome of an ending event is handed on under the id of the machine that it ends. -/
theorem Aliased.handleEvent_resolves {m : Ledger} (aliased : m.Aliased) {i : Nat}
    {machine : Machine} (found : m.machines[i]? = some machine) {e : HistoryEvent} {o : Outcome}
    (ends : machine.EndsWith e o) :
    (∃ route, Route.of e.attributes = some route) ∧
      ∃ m', m.handleEvent e = .ok (some ⟨machine.id, o⟩, m') := by
  obtain ⟨k, role, machine', accepted, routed, reacts, same⟩ := ends.exists_reaction
  refine ⟨⟨_, routed⟩, m.put i machine', ?_⟩
  unfold handleEvent
  simp only [routed, locate, aliased i machine k found accepted, found, Option.bind_some, reacts,
    Option.map_some, same]
  rfl

/-! ## Aliases lead to their machines -/

theorem Aliased.made {m m' : Ledger} (aliased : m.Aliased) {r : Request}
    (machines : m'.machines = (m.made r).machines) (aliases : m'.aliases = m.aliases) :
    m'.Aliased := by
  intro i machine k found accepted
  rw [machines, made_machines] at found
  rw [aliases]
  split at found
  · exact aliased i machine k found accepted
  · split at found
    · cases found
      simp at accepted
    · simp at found

theorem Aliased.put {m : Ledger} (aliased : m.Aliased) {i : Nat} {machine machine' : Machine}
    (found : m.machines[i]? = some machine) (id : machine'.id = machine.id)
    (accepted : machine'.life.initiatedEventId = machine.life.initiatedEventId) :
    (m.put i machine').Aliased := by
  intro j new k there event
  rw [put_machines found] at there
  split at there
  · next same =>
    cases there
    rw [id, ← same]
    exact aliased i machine k found (accepted ▸ event)
  · exact aliased j new k there event

theorem Aliased.requestCancel? {m m' : Ledger} (aliased : m.Aliased) {id : DecisionId}
    (asked : m.requestCancel? id = some m') : m'.Aliased := by
  obtain ⟨i, machine, machine', -, found, canceled, rfl⟩ := requestCancel?_eq asked
  obtain ⟨l, life, rfl⟩ := Machine.requestCancel?_eq canceled
  obtain ⟨-, rfl⟩ := Lifecycle.requestCancel?_eq life
  exact aliased.put found rfl rfl

theorem requestCancel?_length_and_aliases {m m' : Ledger} {id : DecisionId}
    (asked : m.requestCancel? id = some m') :
    m'.machines.length = m.machines.length ∧ m'.aliases = m.aliases := by
  obtain ⟨i, machine, machine', -, -, -, rfl⟩ := requestCancel?_eq asked
  exact ⟨List.length_set .., rfl⟩

theorem Aliased.notifySent {m : Ledger} (aliased : m.Aliased) : m.notifySent.Aliased := by
  intro i machine k found accepted
  rw [notifySent_machine] at found
  split at found
  · obtain ⟨old, before, rfl⟩ := Option.map_eq_some_iff.mp found
    exact aliased i old k before
      ((Lifecycle.markSent_initiatedEventId old.life).symm.trans accepted)
  · exact aliased i machine k found accepted

theorem Aliased.handleEvent {m m' : Ledger} (aliased : m.Aliased) {e : HistoryEvent}
    {resolution : Option Resolution} (handled : m.handleEvent e = .ok (resolution, m'))
    (new : ∀ target, m.aliases.get? (target, e.id) = none) : m'.Aliased := by
  rcases handleEvent_cases handled with ⟨-, pendingUpserts, rfl⟩ |
    ⟨route, i, machine, reaction, pendingUpserts, -, -, found, reacts, -, rfl⟩
  · exact aliased
  · intro j machine' k there event
    rcases react?_cases reacts with ⟨l, machineEq, -, aliasEq, -, -, accepted, -⟩ | continues
    · change (m.put i reaction.machine).machines[j]? = some machine' at there
      rw [put_machines found, machineEq] at there
      simp only [aliasEq]
      split at there
      · next same =>
        subst same
        cases there
        obtain rfl : e.id = k := Option.some.inj (accepted.symm.trans event)
        have first := new machine.id.target
        rw [Table.get?_insertIfNew, first]
        exact if_pos rfl
      · exact Table.get?_insertIfNew_of_some (aliased j machine' k there event) _ _
    · have old :=
        (aliased.put found continues.id continues.initiatedEventId_eq) j machine' k there event
      simp only
      split
      · exact Table.get?_insertIfNew_of_some old _ _
      · exact old

theorem handleEvent_writes_own_alias {m m' : Ledger} {e : HistoryEvent}
    {resolution : Option Resolution}
    (handled : m.handleEvent e = .ok (resolution, m')) {key : DecisionTarget × EventId} {i : Nat}
    (written : m'.aliases.get? key = some i) : m.aliases.get? key = some i ∨ key.2 = e.id := by
  rcases handleEvent_cases handled with ⟨-, pendingUpserts, rfl⟩ |
    ⟨route, j, machine, reaction, pendingUpserts, -, -, -, -, -, rfl⟩
  · exact .inl written
  · simp only at written
    split at written
    · rw [Table.get?_insertIfNew] at written
      split at written
      · next same => exact .inr (same ▸ rfl)
      · exact .inl written
    · exact .inl written

theorem handleEvent_length {m m' : Ledger} {e : HistoryEvent} {resolution : Option Resolution}
    (handled : m.handleEvent e = .ok (resolution, m')) :
    m'.machines.length = m.machines.length := by
  rcases handleEvent_cases handled with ⟨-, pendingUpserts, rfl⟩ |
    ⟨route, i, machine, reaction, pendingUpserts, -, -, -, -, -, rfl⟩
  · rfl
  · exact List.length_set ..

end Ledger

end WorkflowReplay

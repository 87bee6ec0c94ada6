import WorkflowReplay.Proofs.Decision.Runs

/-!
# Correlation of events and machines

Which machine an event belongs to is written down twice: in the aliases of the ledger, and in the
ids that each machine learned.  Both records are made by the receptions of a run, and neither is
ever lost or overwritten as long as the ids of the events increase.  So an event that names
another one reaches the machine that received that one, whatever became of its own id.
-/

set_option autoImplicit false

namespace WorkflowReplay

def Request.cancelEventId? : Request → Option EventId
  | .child _ _ cancelEventId => cancelEventId
  | _ => none

theorem Request.cancelEventId?_new {r : Request} (new : r.isNew = true) :
    r.cancelEventId? = none := by
  cases r with
  | child a runId cancelEventId =>
    simpa [Request.cancelEventId?] using (Bool.and_eq_true_iff.mp new).2
  | _ => rfl

theorem Machine.started?_cancelEventId {m m' : Machine} {e : HistoryEvent}
    (h : m.started? e = some m') : m'.request.cancelEventId? = m.request.cancelEventId? := by
  obtain ⟨l, -, rfl | ⟨r, runId, cancelEventId, newRunId, request, rfl⟩⟩ := started?_cases h
  · rfl
  · rw [request]
    rfl

theorem Machine.cancelInitiated?_cancelEventId {m m' : Machine} {e : HistoryEvent}
    (h : m.cancelInitiated? e = some m') :
    m'.request.cancelEventId? =
      if m.id.target = .childWorkflow then some e.id else m.request.cancelEventId? := by
  obtain ⟨other, rfl⟩ | ⟨r, runId, cancelEventId, request, rfl⟩ := cancelInitiated?_cases h
  · rw [if_neg other]
  · rw [if_pos (by simp [Machine.id, request, Request.id])]
    rfl

theorem Route.follower_role {a : EventAttributes} {target : DecisionTarget} {k : EventId}
    {role : EventRole} (routed : Route.of a = some ⟨.follower target k, role⟩) :
    role ≠ .initiated ∧ role ≠ .cancelInitiated := by
  have roles := role_of_key routed
  exact ⟨roles.1, roles.2.1⟩

namespace Ledger

/-! ## What a reception opens -/

namespace Reception

def AcceptsCancel (r : Reception) : Prop :=
  r.role = .cancelInitiated ∧ r.before.id.target = .childWorkflow

instance (r : Reception) : Decidable r.AcceptsCancel := inferInstanceAs (Decidable (_ ∧ _))

/-- Later events can name the machine by this event, under this target. -/
def Opens (r : Reception) (target : DecisionTarget) : Prop :=
  r.role = .initiated ∧ r.before.id.target = target ∨
    r.AcceptsCancel ∧ target = .cancelExternalWorkflow

instance (r : Reception) (target : DecisionTarget) : Decidable (r.Opens target) :=
  inferInstanceAs (Decidable (_ ∨ _))

theorem IsGenuine.newAlias_iff {r : Reception} (genuine : r.IsGenuine) (target : DecisionTarget) :
    r.reaction.newAlias = some target ↔ r.Opens target := by
  obtain ⟨e, role, i, before, reaction⟩ := r
  simp only [IsGenuine] at genuine
  simp only [Opens, AcceptsCancel]
  cases role with
  | initiated =>
    obtain ⟨machine, -, rfl⟩ := Option.map_eq_some_iff.mp genuine
    simp
  | cancelInitiated =>
    obtain ⟨machine, -, rfl⟩ := Option.map_eq_some_iff.mp genuine
    by_cases child : before.id.target = .childWorkflow
    · simp [child, eq_comm]
    · simp [child]
  | externalCancelResolved =>
    simp only [react?] at genuine
    split at genuine
    · split at genuine
      · obtain ⟨machine, -, rfl⟩ := Option.map_eq_some_iff.mp genuine
        simp
      · simp at genuine
    · obtain ⟨machine, -, rfl⟩ := Option.map_eq_some_iff.mp genuine
      simp
  | _ =>
    obtain ⟨machine, -, rfl⟩ := Option.map_eq_some_iff.mp genuine
    simp

theorem IsGenuine.cancelEventId {r : Reception} (genuine : r.IsGenuine) :
    r.reaction.machine.request.cancelEventId? =
      if r.AcceptsCancel then some r.event.id else r.before.request.cancelEventId? := by
  have same (request : r.reaction.machine.request = r.before.request)
      (role : r.role ≠ .cancelInitiated) :
      r.reaction.machine.request.cancelEventId? =
        if r.AcceptsCancel then some r.event.id else r.before.request.cancelEventId? := by
    rw [request, if_neg fun accepts => role accepts.1]
  cases genuine.effect with
  | accepted role _ _ _ request => exact same request (by simp [role])
  | ended role _ request => exact same request (by rcases role with role | role <;> simp [role])
  | canceled role _ _ request => exact same request (by simp [role])
  | cancelRefused refusal _ request =>
    exact same request (by rcases refusal with role | ⟨role, -⟩ <;> simp [role])
  | started role =>
    rw [IsGenuine, role] at genuine
    obtain ⟨machine, started, reaction⟩ := Option.map_eq_some_iff.mp genuine
    rw [if_neg fun accepts => by simp [AcceptsCancel, role] at accepts, ← reaction]
    exact Machine.started?_cancelEventId started
  | cancelAccepted role =>
    rw [IsGenuine, role] at genuine
    obtain ⟨machine, accepted, reaction⟩ := Option.map_eq_some_iff.mp genuine
    rw [← reaction]
    simp only [AcceptsCancel, role, true_and]
    exact Machine.cancelInitiated?_cancelEventId accepted

end Reception

/-! ## What a machine learns -/

def acceptedCancels (past : List Reception) : List EventId :=
  (past.filter (fun r => r.AcceptsCancel)).map (fun r => r.event.id)

/-- What a machine with these receptions knows: the one that accepted it, and the last one that
accepted its cancel decision. -/
structure Learned (past : List Reception) (machine : Machine) : Prop where
  sound : machine.life.Sound
  id : ∀ r ∈ past, r.before.id = machine.id
  accepted : ∀ k, machine.life.initiatedEventId = some k ↔
    ∃ r ∈ past, r.role = .initiated ∧ r.event.id = k
  lastCancel : machine.request.cancelEventId? = (acceptedCancels past).getLast?

theorem Learned.new {r : Request} (new : r.isNew = true) : Learned [] { request := r } where
  sound := ⟨fun _ => rfl, fun _ => rfl⟩
  id := by simp
  accepted := by simp
  lastCancel := Request.cancelEventId?_new new

theorem Learned.withLife {past : List Reception} {machine : Machine}
    (learned : Learned past machine) {l : Lifecycle} (sound : l.Sound)
    (accepted : l.initiatedEventId = machine.life.initiatedEventId) :
    Learned past (machine.withLife l) where
  sound := sound
  id := learned.id
  accepted k := by
    change l.initiatedEventId = some k ↔ _
    rw [accepted]
    exact learned.accepted k
  lastCancel := learned.lastCancel

theorem Learned.concat_reception {past : List Reception} {r : Reception}
    (learned : Learned past r.before)
    (genuine : r.IsGenuine) : Learned (past ++ [r]) r.reaction.machine where
  sound := (react?_evolves genuine).life.sound learned.sound
  id r' member := by
    rw [(react?_evolves genuine).id]
    rcases List.mem_append.mp member with old | new
    · exact learned.id r' old
    · rw [List.mem_singleton.mp new]
  accepted k := by
    simp only [List.mem_append, List.mem_singleton, or_and_right, exists_or, exists_eq_left]
    rw [← learned.accepted k]
    by_cases role : r.role = .initiated
    · cases genuine.effect with
      | accepted _ created _ knows =>
        simp [knows, role, learned.sound.created created]
      | started other => simp [role] at other
      | ended other => simp [role] at other
      | canceled other => simp [role] at other
      | cancelAccepted other => simp [role] at other
      | cancelRefused other => simp [Reception.IsRefusal, role] at other
    · rcases genuine.effect.later_of_not_initiated role with later | same
      · simp [later.accepted, role]
      · simp [same, role]
  lastCancel := by
    rw [genuine.cancelEventId, acceptedCancels, List.filter_append, List.map_append]
    by_cases accepts : r.AcceptsCancel
    · simp [accepts]
    · simp [accepts, learned.lastCancel, acceptedCancels]

def LearnedAt (past : List Reception) : Option Machine → Prop
  | none => past = []
  | some machine => Learned past machine

theorem LearnedAt.concat_turn {past : List Reception} {before after : Option Machine}
    {r? : Option Reception} (learned : LearnedAt past before) (turn : Turn before r? after) :
    LearnedAt (past ++ r?.toList) after := by
  cases turn with
  | absent => simpa using learned
  | made new =>
    obtain rfl : past = [] := learned
    exact Learned.new new
  | kept machine => simpa using learned
  | asked canceled =>
    obtain ⟨l, asked, rfl⟩ := Machine.requestCancel?_eq canceled
    have known : Learned past _ := learned
    have accepted := congrArg Lifecycle.initiatedEventId (Lifecycle.requestCancel?_eq asked).2
    rw [Option.toList_none, List.append_nil]
    exact known.withLife ((Lifecycle.requestCancel?_evolves asked).sound known.sound) accepted
  | sent machine =>
    have known : Learned past machine := learned
    rw [Option.toList_none, List.append_nil]
    exact known.withLife (Lifecycle.markSent_sound known.sound)
      (Lifecycle.markSent_initiatedEventId _)
  | received genuine => exact Learned.concat_reception learned genuine

theorem learnedAt_receptionsAt (ops : List Operation) (i : Nat) :
    LearnedAt (receptionsAt ops i) (after ops).machines[i]? :=
  machine_induction [] i rfl (fun _ _ _ _ learned turn => learned.concat_turn turn) ops

theorem Learned.of_reception {ops : List Operation} {r : Reception} (member : r ∈ receptions ops) :
    ∃ machine, (after ops).machines[r.index]? = some machine ∧
      Learned (receptionsAt ops r.index) machine := by
  have here := mem_receptionsAt member
  have learned := learnedAt_receptionsAt ops r.index
  cases found : (after ops).machines[r.index]? with
  | none =>
    rw [found] at learned
    have nothing : receptionsAt ops r.index = [] := learned
    simp [nothing] at here
  | some machine =>
    rw [found] at learned
    exact ⟨machine, rfl, learned⟩

/-! ## Aliases -/

theorem Changes.aliases_none {m m' : Ledger} (changes : m.Changes none m') :
    m'.aliases = m.aliases := by
  cases changes <;> rfl

theorem Changes.aliases_some {m m' : Ledger} {r : Reception} (changes : m.Changes (some r) m')
    (target : DecisionTarget) (k : EventId) :
    m'.aliases.get? (target, k) =
      if r.Opens target ∧ r.event.id = k then some ((m.aliases.get? (target, k)).getD r.index)
      else m.aliases.get? (target, k) := by
  cases changes with
  | received routed located found genuine =>
    simp only [← genuine.newAlias_iff]
    cases r.reaction.newAlias with
    | none => simp
    | some opened =>
      simp only [Table.get?_insertIfNew, Prod.mk.injEq, Option.some.injEq]
      split
      · next same => rw [same.1, same.2]
      · rfl

/-- The aliases of a run are what its receptions opened, and lead to the machines that received. -/
theorem aliases_iff {ops : List Operation} (ordered : InOrder ops) (target : DecisionTarget)
    (k : EventId) (i : Nat) :
    (after ops).aliases.get? (target, k) = some i ↔
      ∃ r ∈ receptions ops, r.Opens target ∧ r.event.id = k ∧ r.index = i := by
  induction ops using List.reverseRecOn generalizing i with
  | nil => simp [after, receptions, receptionsFrom, empty]
  | append_singleton ops op ih =>
    have known := ih ordered.of_append
    have changes := operate_changes (after ops) op
    rw [after_concat, receptions_concat]
    cases received : (after ops).reception? op with
    | none =>
      rw [received] at changes
      rw [changes.aliases_none, known, Option.toList_none, List.append_nil]
    | some r =>
      rw [received] at changes
      obtain rfl := reception?_event received
      rw [changes.aliases_some]
      simp only [Option.toList_some, List.mem_append, List.mem_singleton, or_and_right, exists_or,
        exists_eq_left, ← known]
      by_cases opens : r.Opens target ∧ r.event.id = k
      · obtain ⟨opens, rfl⟩ := opens
        -- An older reception has a smaller id, so the alias is not taken.
        have fresh : (after ops).aliases.get? (target, r.event.id) = none := by
          cases taken : (after ops).aliases.get? (target, r.event.id) with
          | none => rfl
          | some j =>
            obtain ⟨old, member, -, same, -⟩ := (known j).mp taken
            exact absurd same (Int64.ne_of_lt (ordered.received_lt old member))
        simp [opens, fresh]
      · simp only [opens, if_false, ← and_assoc, false_and, or_false]

/-! ## Events that name another one -/

/-- Gives an event to the machine with an index, whatever the event names. -/
def give (m : Ledger) (i : Nat) (role : EventRole) (e : HistoryEvent) :
    Option Resolution × Ledger :=
  match m.machines[i]?.bind (fun machine => react? machine role e) with
  | none => (none, m)
  | some r => (r.outcome.map (fun o => ⟨r.machine.id, o⟩), m.put i r.machine)

theorem handleEvent_by_alias {m : Ledger} {e : HistoryEvent} {target : DecisionTarget}
    {k : EventId} {role : EventRole}
    (routed : Route.of e.attributes = some ⟨.follower target k, role⟩) :
    m.handleEvent e =
      match m.aliases.get? (target, k) with
      | none => .error (.unknownAlias target k e.id e.type)
      | some i => .ok (m.give i role e) := by
  unfold handleEvent give
  simp only [routed, locate]
  cases m.aliases.get? (target, k) with
  | none => rfl
  | some i =>
    simp only
    cases found : m.machines[i]? with
    | none => rfl
    | some machine =>
      simp only [Option.bind_some]
      cases reacts : react? machine role e with
      | none => rfl
      | some reaction =>
        have genuine : (⟨e, role, i, machine, reaction⟩ : Reception).IsGenuine := reacts
        have unopened : reaction.newAlias = none := by
          refine Option.eq_none_iff_forall_ne_some.mpr ?_
          intro opened new
          rcases (genuine.newAlias_iff opened).mp new with ⟨initiated, -⟩ | ⟨⟨accepted, -⟩, -⟩
          · exact (Route.follower_role routed).1 initiated
          · exact (Route.follower_role routed).2 accepted
        simp only [unopened]
        rfl

/-- Correlation is exact: aliases, receptions and what the machines learned agree after every run,
and an event that names another one goes to the machine that received that one. -/
theorem correlation_exact {ops : List Operation} (ordered : InOrder ops) (target : DecisionTarget)
    (k : EventId) :
    (∀ i, (after ops).aliases.get? (target, k) = some i ↔
      ∃ r ∈ receptions ops, r.Opens target ∧ r.event.id = k ∧ r.index = i) ∧
    (∀ r ∈ receptions ops, r.Opens target → r.event.id = k →
      ∃ machine, (after ops).machines[r.index]? = some machine ∧ machine.id = r.before.id ∧
        (r.role = .initiated → machine.life.initiatedEventId = some k) ∧
        (r.AcceptsCancel → k ∈ acceptedCancels (receptionsAt ops r.index) ∧
          machine.request.cancelEventId? = (acceptedCancels (receptionsAt ops r.index)).getLast?)) ∧
    ∀ e role, Route.of e.attributes = some ⟨.follower target k, role⟩ →
      ((after ops).handleEvent e = .error (.unknownAlias target k e.id e.type) ↔
        ¬ ∃ r ∈ receptions ops, r.Opens target ∧ r.event.id = k) ∧
      ∀ r ∈ receptions ops, r.Opens target → r.event.id = k →
        (after ops).handleEvent e = .ok ((after ops).give r.index role e) := by
  refine ⟨aliases_iff ordered target k, ?_, ?_⟩
  · rintro r member opens rfl
    obtain ⟨machine, found, learned⟩ := Learned.of_reception member
    have here := mem_receptionsAt member
    refine ⟨machine, found, (learned.id r here).symm, ?_, ?_⟩
    · intro role
      exact (learned.accepted r.event.id).mpr ⟨r, here, role, rfl⟩
    · intro accepts
      refine ⟨?_, learned.lastCancel⟩
      exact List.mem_map.mpr ⟨r, List.mem_filter.mpr ⟨here, by simpa using accepts⟩, rfl⟩
  · intro e role routed
    have handled := handleEvent_by_alias (m := after ops) routed
    have leads (r : Reception) (member : r ∈ receptions ops) (opens : r.Opens target)
        (named : r.event.id = k) : (after ops).aliases.get? (target, k) = some r.index :=
      (aliases_iff ordered target k r.index).mpr ⟨r, member, opens, named, rfl⟩
    refine ⟨⟨?_, ?_⟩, ?_⟩
    · rintro unknown ⟨r, member, opens, named⟩
      rw [handled, leads r member opens named] at unknown
      simp at unknown
    · intro nothing
      rw [handled]
      cases taken : (after ops).aliases.get? (target, k) with
      | none => rfl
      | some i =>
        obtain ⟨r, member, opens, named, -⟩ := (aliases_iff ordered target k i).mp taken
        exact absurd ⟨r, member, opens, named⟩ nothing
    · intro r member opens named
      rw [handled, leads r member opens named]

def reusedId : List Operation := [
  .activity { activityId := "a" }, .collect,
  .event ⟨1, ⟨0, 0⟩, .activityTaskScheduled { activityId := "a" }⟩,
  .requestCancel ⟨.activity, "a"⟩, .collect,
  .activity { activityId := "a" }, .collect,
  .event ⟨2, ⟨0, 0⟩, .activityTaskScheduled { activityId := "a" }⟩]

/-- The first activity is canceled, long after its id was given away. -/
def lateCancellation : HistoryEvent := ⟨3, ⟨0, 0⟩, .activityTaskCanceled { scheduledEventId := 1 }⟩

theorem late_cancellation_reaches_first :
    InOrder reusedId ∧ (after reusedId).byId.get? ⟨.activity, "a"⟩ = some 1 ∧
      (after reusedId).aliases.get? (.activity, 1) = some 0 ∧
      (after reusedId).handleEvent lateCancellation =
        .ok ((after reusedId).give 0 .canceled lateCancellation) := by
  have ordered : InOrder reusedId := by decide
  obtain ⟨aliases, -, followers⟩ := correlation_exact ordered .activity 1
  have received : ∃ r ∈ receptions reusedId, r.Opens .activity ∧ r.event.id = 1 ∧ r.index = 0 := by
    decide
  refine ⟨ordered, by decide, (aliases 0).mpr received, ?_⟩
  obtain ⟨r, member, opens, named, first⟩ := received
  rw [(followers lateCancellation .canceled rfl).2 r member opens named, first]

end Ledger

end WorkflowReplay

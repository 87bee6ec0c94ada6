import Mathlib.Data.List.Perm.Subperm
import WorkflowReplay.Proofs.Decision.Emissions
import WorkflowReplay.Proofs.Tables

/-!
# Requests under one id

An id is free for a new request as soon as the old one is settled, and a sent cancel decision
settles a request.  A refusal of the cancel decision brings the old request back.  Activities and
timers are refused by id, so they are found only as long as their id names them.  The cancel
decision of a child run is refused by event, and the refusal finds a run that lost its id: then a
request goes on that its id does not speak about, until an event resolves it.
-/

set_option autoImplicit false

namespace WorkflowReplay

namespace Lifecycle

structure IsResumed (l : Lifecycle) : Prop where
  state : l.state = .initiated ∨ l.state = .started
  emitted : l.initialEmitted = true
  unasked : l.cancelRequested = false

theorem failCancel?_resumed {l l' : Lifecycle} (refused : l.failCancel? = some l')
    (sound : l.Sound) : l'.IsResumed := by
  have emitted (left : l.state ≠ .created) : l.initialEmitted = true := by
    by_contra unsent
    exact left (sound.unsent (by simpa using unsent))
  obtain ⟨state, rfl⟩ | ⟨state, rfl⟩ := failCancel?_cases refused
  · exact ⟨.inl rfl, emitted (by simp [state]), rfl⟩
  · exact ⟨.inr rfl, emitted (by simp [state]), rfl⟩

theorem start?_resumed {l l' : Lifecycle} {id : EventId} (started : l.start? id = some l')
    (resumed : l.IsResumed) : l'.IsResumed := by
  obtain ⟨-, rfl⟩ | ⟨canceled, -⟩ := start?_cases started
  · exact ⟨.inr rfl, resumed.emitted, resumed.unasked⟩
  · rcases resumed.state with state | state <;> simp [canceled] at state

theorem IsResumed.failCancel?_eq_none {l : Lifecycle} (resumed : l.IsResumed) :
    l.failCancel? = none := by
  rcases resumed.state with state | state <;> simp [Lifecycle.failCancel?, state]

theorem IsResumed.not_terminal {l : Lifecycle} (resumed : l.IsResumed) : l.isTerminal = false := by
  rcases resumed.state with state | state <;>
    simp [Lifecycle.isTerminal, state, DecisionState.isTerminal]

theorem IsResumed.isSettled {l : Lifecycle} (resumed : l.IsResumed) : l.IsSettled :=
  ⟨resumed.emitted, by simp [cancelPending, resumed.unasked]⟩

end Lifecycle

namespace Ledger

/-! ## One operation on a machine that lost its id -/

/-- What an operation does to a machine that its id does not name. -/
inductive Drift (machine : Machine) : Option Reception → Machine → Prop where
  | kept : Drift machine none machine
  | sent : Drift machine none machine.markSent
  | received {r : Reception} (genuine : r.IsGenuine) (here : r.before = machine) :
    Drift machine (some r) r.reaction.machine

/-- The machine with an index has lost its id to another one. -/
def IsReplaced (m : Ledger) (i : Nat) (machine : Machine) : Prop :=
  m.machines[i]? = some machine ∧ m.byId.get? machine.id ≠ some i

theorem Changes.exists_drift {m m' : Ledger} {r? : Option Reception} (changes : m.Changes r? m')
    (sound : m.Sound) {i : Nat} {machine : Machine} (replaced : m.IsReplaced i machine) :
    ∃ machine', m'.IsReplaced i machine' ∧ machine'.id = machine.id ∧
      Drift machine (r?.filter (fun r => r.index = i)) machine' := by
  obtain ⟨found, lost⟩ := replaced
  have bound := (List.getElem?_eq_some_iff.mp found).1
  cases changes with
  | kept => exact ⟨machine, ⟨found, lost⟩, rfl, .kept⟩
  | @made r new free =>
    refine ⟨machine, ⟨?_, ?_⟩, rfl, .kept⟩
    · rw [made_machines, if_pos bound]
      exact found
    · change (m.byId.insert r.id m.machines.length).get? machine.id ≠ some i
      rw [Table.get?_insert]
      split
      · intro last
        have := Option.some.inj last
        omega
      · exact lost
  | @asked id j old asked name found' canceled =>
    have other : j ≠ i := by
      rintro rfl
      obtain ⟨same, found'', id⟩ := sound.named _ _ name
      obtain rfl := Option.some.inj (found''.symm.trans found)
      exact lost (by rw [id, name])
    refine ⟨machine, ⟨?_, lost⟩, rfl, .kept⟩
    exact ((put_machines found' i).trans (if_neg other)).trans found
  | sent =>
    by_cases placed : i ∈ m.order
    · refine ⟨machine.markSent, ⟨?_, lost⟩, rfl, .sent⟩
      rw [notifySent_machine, if_pos placed, found, Option.map_some]
    · refine ⟨machine, ⟨?_, lost⟩, rfl, .kept⟩
      rw [notifySent_machine, if_neg placed, found]
  | @received r key pendingUpserts routed located found' genuine =>
    by_cases here : r.index = i
    · subst here
      obtain rfl := Option.some.inj (found'.symm.trans found)
      have same := (react?_evolves genuine).id
      refine ⟨r.reaction.machine, ⟨?_, ?_⟩, same, ?_⟩
      · exact (put_machines found' _).trans (if_pos rfl)
      · rw [same]
        exact lost
      · simpa only [Option.filter_some, decide_true, if_true] using Drift.received genuine rfl
    · refine ⟨machine, ⟨?_, lost⟩, rfl, ?_⟩
      · exact ((put_machines found' i).trans (if_neg here)).trans found
      · simpa only [Option.filter_some, here, decide_false, Bool.false_eq_true, if_false] using
          Drift.kept

theorem replaced_before_put {m : Ledger} {i j : Nat} {old new machine' : Machine}
    (found' : m.machines[j]? = some old) (same : new.id = old.id)
    (found : (m.put j new).machines[i]? = some machine')
    (lost : m.byId.get? machine'.id ≠ some i) :
    ∃ machine, m.IsReplaced i machine ∧ machine.id = machine'.id := by
  rw [put_machines found'] at found
  split at found
  · next here =>
    subst here
    cases found
    exact ⟨old, ⟨found', by rwa [← same]⟩, same.symm⟩
  · exact ⟨machine', ⟨found, lost⟩, rfl⟩

theorem Changes.replaced_before {m m' : Ledger} {r? : Option Reception}
    (changes : m.Changes r? m') {i : Nat} {machine' : Machine}
    (replaced : m'.IsReplaced i machine') (unsettled : machine'.isTerminal = false) :
    ∃ machine, m.IsReplaced i machine ∧ machine.id = machine'.id := by
  obtain ⟨found, lost⟩ := replaced
  cases changes with
  | kept => exact ⟨machine', ⟨found, lost⟩, rfl⟩
  | @made r new free =>
    change (m.byId.insert r.id m.machines.length).get? machine'.id ≠ some i at lost
    rw [Table.get?_insert] at lost
    rw [made_machines] at found
    split at found
    · refine ⟨machine', ⟨found, fun name => ?_⟩, rfl⟩
      split at lost
      · next same =>
        have live := isLive_iff.mpr ⟨i, machine', name, found, unsettled⟩
        rw [← same, free] at live
        simp at live
      · exact lost name
    · split at found
      · next last =>
        cases found
        simp [last, Machine.id] at lost
      · simp at found
  | @asked id j old asked name found' canceled =>
    exact replaced_before_put found' (Machine.requestCancel?_evolves canceled).id found lost
  | sent =>
    rw [notifySent_machine] at found
    split at found
    · obtain ⟨machine, old, rfl⟩ := Option.map_eq_some_iff.mp found
      exact ⟨machine, ⟨old, lost⟩, rfl⟩
    · exact ⟨machine', ⟨found, lost⟩, rfl⟩
  | @received r key pendingUpserts routed located found' genuine =>
    exact replaced_before_put found' (react?_evolves genuine).id found lost

theorem Reception.IsGenuine.failCancel?_of_refusal {r : Reception} (genuine : r.IsGenuine)
    (refusal : r.IsRefusal) : r.before.life.failCancel? = some r.reaction.machine.life := by
  rcases refusal with role | ⟨role, child⟩
  · rw [IsGenuine, role] at genuine
    obtain ⟨machine, failed, same⟩ := Option.map_eq_some_iff.mp genuine
    rw [← same]
    exact (Machine.cancelFailed?_life failed).1
  · rw [IsGenuine, role, react?, if_pos child] at genuine
    split at genuine
    · obtain ⟨machine, failed, same⟩ := Option.map_eq_some_iff.mp genuine
      rw [← same]
      exact (Machine.cancelFailed?_life failed).1
    · simp at genuine

namespace Drift

variable {machine machine' : Machine} {r? : Option Reception}

theorem unsettled_or_refusal (drift : Drift machine r? machine')
    (open' : machine'.isTerminal = false) :
    machine.isTerminal = false ∧ outcomesOf r?.toList = [] ∨ ∃ r, r? = some r ∧ r.IsRefusal := by
  cases drift with
  | kept => exact .inl ⟨open', rfl⟩
  | sent =>
    refine .inl ⟨?_, rfl⟩
    by_contra settled
    have terminal : machine.isTerminal = true := by simpa using settled
    have stays : machine.life.markSent.isTerminal = true := by
      rw [Lifecycle.isTerminal, Lifecycle.markSent_state_of_terminal terminal]
      exact terminal
    exact Bool.false_ne_true (open'.symm.trans stays)
  | @received r genuine here =>
    subst here
    by_cases refusal : r.IsRefusal
    · exact .inr ⟨r, rfl, refusal⟩
    · refine .inl ⟨?_, ?_⟩
      · by_contra settled
        have stays := genuine.effect.stays_terminal (by simpa using settled) refusal
        exact Bool.false_ne_true (open'.symm.trans stays)
      · rw [Option.toList_some, outcomesOf_singleton]
        cases outcome : r.reaction.outcome with
        | none => rfl
        | some o =>
          obtain ⟨-, settled, -⟩ := genuine.effect.of_outcome outcome
          exact absurd (open'.symm.trans settled) Bool.false_ne_true

theorem preserves_resumed (drift : Drift machine r? machine') (goes : machine.life.IsResumed)
    (silent : outcomesOf r?.toList = []) : machine'.life.IsResumed := by
  cases drift with
  | kept => exact goes
  | sent =>
    change machine.life.markSent.IsResumed
    rw [goes.isSettled.markSent_eq_self]
    exact goes
  | @received r genuine here =>
    subst here
    rw [Option.toList_some, outcomesOf_singleton] at silent
    cases genuine.effect with
    | accepted _ created =>
      rcases goes.state with state | state <;> simp [state] at created
    | started _ life => exact Lifecycle.start?_resumed life goes
    | ended _ _ _ outcome => simp [outcome] at silent
    | canceled _ _ _ _ outcome => simp [outcome] at silent
    | cancelAccepted _ life => rwa [life]
    | cancelRefused _ life => simp [goes.failCancel?_eq_none] at life

end Drift

/-! ## Whole runs -/

/-- The id names the machine of the only request under it that is not settled, if there is one. -/
def NamesLive (m : Ledger) (id : DecisionId) : Prop :=
  ∀ (i : Nat) machine, m.machines[i]? = some machine → machine.id = id →
    machine.isTerminal = false → m.byId.get? id = some i

/-- After the run `past`, the event `e` refuses the cancel decision of a request that lost its
id. -/
structure Recalls (past : List Operation) (e : HistoryEvent) (r : Reception) : Prop where
  received : (after past).receive? e = some r
  refusal : r.IsRefusal
  lost : (after past).byId.get? r.before.id ≠ some r.index

/-- A request that is not settled and lost its id was brought back, and was not resolved since. -/
theorem exists_recall_of_unsettled {ops : List Operation} {i : Nat} {machine : Machine}
    (replaced : (after ops).IsReplaced i machine) (unsettled : machine.isTerminal = false) :
    ∃ past e later r, ops = past ++ .event e :: later ∧ Recalls past e r ∧ r.index = i ∧
      r.before.id = machine.id ∧
        outcomesOf (receptionsAfter (past ++ [.event e]) later i) = [] := by
  induction ops using List.reverseRecOn generalizing machine with
  | nil => simp [IsReplaced, after, empty] at replaced
  | append_singleton ops op ih =>
    rw [after_concat] at replaced
    have changes := operate_changes (after ops) op
    obtain ⟨before, replaced', same⟩ := changes.replaced_before replaced unsettled
    obtain ⟨machine', ⟨found, -⟩, -, drift⟩ :=
      changes.exists_drift (after_tended ops).sound replaced'
    obtain rfl := Option.some.inj (found.symm.trans replaced.1)
    rcases drift.unsettled_or_refusal unsettled with ⟨open', silent⟩ | ⟨r, now, refusal⟩
    · obtain ⟨past, e, later, r, rfl, recalls, index, id, nothing⟩ := ih replaced' open'
      refine ⟨past, e, later ++ [op], r, by simp, recalls, index, id.trans same, ?_⟩
      rw [receptionsAfter_concat, outcomesOf_append, nothing]
      simpa using silent
    · obtain ⟨reaches, here⟩ := Option.filter_eq_some_iff.mp now
      obtain rfl := reception?_event reaches
      have received : (after ops).receive? r.event = some r := reaches
      obtain ⟨-, -, -, -, -, found', -⟩ := receive?_eq_some received
      obtain rfl : r.index = i := by simpa using here
      obtain rfl := Option.some.inj (found'.symm.trans replaced'.1)
      exact ⟨ops, r.event, [], r, rfl, ⟨received, refusal, replaced'.2⟩, rfl, same, rfl⟩

theorem Recalls.resumed_after {past : List Operation} {e : HistoryEvent} {r : Reception}
    (recalls : Recalls past e r) (later : List Operation)
    (silent : outcomesOf (receptionsAfter (past ++ [.event e]) later r.index) = []) :
    ∃ machine, (after (past ++ .event e :: later)).IsReplaced r.index machine ∧
      machine.id = r.before.id ∧ machine.life.IsResumed := by
  have split (later : List Operation) :
      past ++ .event e :: later = past ++ [.event e] ++ later := by simp
  rw [split]
  induction later using List.reverseRecOn with
  | nil =>
    obtain ⟨rfl, -, -, -, -, found, genuine⟩ := receive?_eq_some recalls.received
    have changes := operate_changes (after past) (.event r.event)
    have sound := (after_tended past).sound
    obtain ⟨machine, replaced, id, -⟩ := changes.exists_drift sound ⟨found, recalls.lost⟩
    obtain rfl : machine = r.reaction.machine := by
      have now := machine_after_reception recalls.received
      rw [after_concat] at now
      exact Option.some.inj (replaced.1.symm.trans now)
    refine ⟨r.reaction.machine, by rwa [List.append_nil, after_concat], id, ?_⟩
    have life := Reception.IsGenuine.failCancel?_of_refusal genuine recalls.refusal
    exact Lifecycle.failCancel?_resumed life (sound.lives _ _ found)
  | append_singleton later op ih =>
    rw [receptionsAfter_concat, outcomesOf_append, List.append_eq_nil_iff] at silent
    obtain ⟨machine, replaced, id, goes⟩ := ih silent.1
    have changes := operate_changes (after (past ++ [.event e] ++ later)) op
    obtain ⟨machine', replaced', same, drift⟩ :=
      changes.exists_drift (after_tended _).sound replaced
    refine ⟨machine', ?_, same.trans id, drift.preserves_resumed goes silent.2⟩
    rwa [← List.append_assoc, after_concat]

/-- Activities and timers are refused by id, and nothing else but child runs can be. -/
theorem Recalls.target_eq_childWorkflow {past : List Operation} {e : HistoryEvent} {r : Reception}
    (recalls : Recalls past e r) : r.before.id.target = .childWorkflow := by
  obtain ⟨rfl, key, pendingUpserts, routed, located, found, genuine⟩ :=
    receive?_eq_some recalls.received
  rcases recalls.refusal with role | ⟨-, child⟩
  · obtain ⟨id, rfl⟩ : ∃ id, key = .caller id := by
      have roles := Route.role_of_key routed
      cases key with
      | caller id => exact ⟨id, rfl⟩
      | follower target k => exact absurd role roles.2.2.1
      | nextUpsert => exact absurd (roles.1.symm.trans role) (by simp)
    have name : (after past).byId.get? id = some r.index := by
      rw [locate] at located
      cases name : (after past).byId.get? id with
      | none => simp [name] at located
      | some i =>
        rw [name] at located
        cases located
        rfl
    obtain ⟨machine, found', same⟩ := (after_tended past).sound.named _ _ name
    obtain rfl := Option.some.inj (found'.symm.trans found)
    exact absurd (by rw [same, name]) recalls.lost
  · exact child

theorem after_byId_nodup (ops : List Operation) : (after ops).byId.keys.Nodup := by
  induction ops using List.reverseRecOn with
  | nil => exact .nil
  | append_singleton ops op ih =>
    rw [after_concat]
    have changes := operate_changes (after ops) op
    generalize (after ops).reception? op = r? at changes
    generalize (after ops).operate op = m' at changes ⊢
    cases changes with
    | made => exact Table.nodup_keys_insert ih _ _
    | _ => exact ih

theorem after_named_iff {ops : List Operation} {i : Nat} :
    i ∈ (after ops).byId.values ↔ ∃ id, (after ops).byId.get? id = some i := by
  constructor
  · intro member
    obtain ⟨⟨id, j⟩, entry, rfl⟩ := List.mem_map.mp member
    exact ⟨id, Table.find_of_mem (after_byId_nodup ops) entry⟩
  · rintro ⟨id, name⟩
    exact List.mem_map.mpr ⟨(id, i), Table.mem_of_find name, rfl⟩

theorem after_values_nodup (ops : List Operation) : (after ops).byId.values.Nodup := by
  have keys : ((after ops).byId.entries.map Prod.fst).Nodup := after_byId_nodup ops
  refine List.Nodup.map_on ?_ (List.Nodup.of_map _ keys)
  -- A machine has one id, so two ids never lead to the same machine.
  rintro ⟨id, i⟩ entry ⟨id', j⟩ entry' same
  have sound := (after_tended ops).sound
  obtain ⟨machine, found, rfl⟩ := sound.named _ _ (Table.find_of_mem keys entry)
  obtain ⟨machine', found', rfl⟩ := sound.named _ _ (Table.find_of_mem keys entry')
  obtain rfl : i = j := same
  rw [Option.some.inj (found.symm.trans found')]

def liveIndices (m : Ledger) : List Nat :=
  (List.range m.machines.length).filter (fun i => !m.isTerminalAt i)

theorem mem_liveIndices {m : Ledger} {i : Nat} :
    i ∈ m.liveIndices ↔ ∃ machine, m.machines[i]? = some machine ∧ machine.isTerminal = false := by
  rw [liveIndices, List.mem_filter, List.mem_range, Bool.not_eq_true', isTerminalAt_eq_false_iff]
  refine ⟨And.right, fun live => ⟨?_, live⟩⟩
  obtain ⟨machine, found, -⟩ := live
  exact (List.getElem?_eq_some_iff.mp found).1

theorem length_liveIndices (m : Ledger) :
    m.liveIndices.length = m.machines.countP (fun machine => !machine.isTerminal) := by
  have all : m.machines.map some = (List.range m.machines.length).map (m.machines[·]?) := by
    refine List.ext_getElem (by simp) fun i here there => ?_
    simp
  rw [liveIndices, ← List.countP_eq_length_filter]
  calc (List.range m.machines.length).countP (fun i => !m.isTerminalAt i)
      = ((List.range m.machines.length).map (m.machines[·]?)).countP
          (fun machine? => machine?.any (fun machine => !machine.isTerminal)) := by
        rw [List.countP_map]
        refine List.countP_congr fun i _ => ?_
        simp only [isTerminalAt, Function.comp_apply]
        cases m.machines[i]? <;> simp
    _ = m.machines.countP (fun machine => !machine.isTerminal) := by
        rw [← all, List.countP_map]
        rfl

/-- The number of ids that name a request which is not settled is the number of all such requests,
as long as each of them has its id. -/
theorem liveCount_eq_iff (ops : List Operation) :
    (after ops).liveCount = (after ops).machines.countP (fun machine => !machine.isTerminal) ↔
      ∀ id, (after ops).NamesLive id := by
  have sound := (after_tended ops).sound
  rw [← length_liveIndices, liveCount, List.countP_eq_length_filter]
  have nodup := (after_values_nodup ops).filter (fun i => !(after ops).isTerminalAt i)
  have live : (after ops).liveIndices.Nodup := List.nodup_range.filter _
  have named : (after ops).byId.values.filter (fun i => !(after ops).isTerminalAt i) ⊆
      (after ops).liveIndices := by
    intro i member
    obtain ⟨-, unsettled⟩ := List.mem_filter.mp member
    exact mem_liveIndices.mpr (isTerminalAt_eq_false_iff.mp (by simpa using unsettled))
  constructor
  · intro same id i machine found has unsettled
    have all := (List.subperm_of_subset nodup named).perm_of_length_le (Nat.le_of_eq same.symm)
    have member := all.mem_iff.mpr (mem_liveIndices.mpr ⟨machine, found, unsettled⟩)
    obtain ⟨id', name⟩ := after_named_iff.mp (List.mem_filter.mp member).1
    obtain ⟨machine', found', rfl⟩ := sound.named _ _ name
    rw [← has, Option.some.inj (found.symm.trans found'), name]
  · intro names
    have all : (after ops).liveIndices ⊆
        (after ops).byId.values.filter (fun i => !(after ops).isTerminalAt i) := ?_
    · exact Nat.le_antisymm (List.subperm_of_subset nodup named).length_le
        (List.subperm_of_subset live all).length_le
    intro i member
    obtain ⟨machine, found, unsettled⟩ := mem_liveIndices.mp member
    have name := names _ i machine found rfl unsettled
    have open' := isTerminalAt_eq_false_iff.mpr ⟨machine, found, unsettled⟩
    exact List.mem_filter.mpr ⟨after_named_iff.mpr ⟨_, name⟩, by simp [open']⟩

/-- In every ledger that a run leads to, an id names the machine of the only request under it that
is not settled, unless a refusal brought back a request that had lost this id, and nothing resolved
that request since.  Only child runs are brought back so.  The number of live ids is the number of
all requests that are not settled exactly when this holds of all ids. -/
theorem namesLive_iff (ops : List Operation) :
    (∀ id, (after ops).NamesLive id ↔ ∀ past later e r, ops = past ++ .event e :: later →
        Recalls past e r → r.before.id = id →
          outcomesOf (receptionsAfter (past ++ [.event e]) later r.index) ≠ []) ∧
      (∀ id, id.target ≠ .childWorkflow → (after ops).NamesLive id) ∧
      ((after ops).liveCount = (after ops).machines.countP (fun machine => !machine.isTerminal) ↔
        ∀ id, (after ops).NamesLive id) := by
  have names_iff (id : DecisionId) : (after ops).NamesLive id ↔ ∀ past later e r,
      ops = past ++ .event e :: later → Recalls past e r → r.before.id = id →
        outcomesOf (receptionsAfter (past ++ [.event e]) later r.index) ≠ [] := by
    constructor
    · rintro names past later e r rfl recalls rfl silent
      obtain ⟨machine, ⟨found, lost⟩, same, goes⟩ := recalls.resumed_after later silent
      rw [same] at lost
      exact lost (names _ machine found same goes.not_terminal)
    · rintro resolved i machine found rfl unsettled
      by_contra lost
      obtain ⟨past, e, later, r, split, recalls, rfl, same, silent⟩ :=
        exists_recall_of_unsettled ⟨found, lost⟩ unsettled
      exact resolved past later e r split recalls same silent
  refine ⟨names_iff, fun id plain => (names_iff id).mpr ?_, liveCount_eq_iff ops⟩
  rintro past later e r - recalls rfl
  exact absurd recalls.target_eq_childWorkflow plain

/-- The child run `w` is started, and its cancel decision is sent and accepted; `w` is started once
more, which fails because it is still there. -/
def startedTwice : List Operation := [
  .make (.child { workflowId := "w" } none none) rfl, .collect,
  .event ⟨1, ⟨0, 0⟩, .startChildWorkflowExecutionInitiated { workflowId := "w" }⟩,
  .requestCancel ⟨.childWorkflow, "w"⟩, .collect,
  .event ⟨2, ⟨0, 0⟩, .requestCancelExternalWorkflowExecutionInitiated
    { workflowExecution := { workflowId := "w" }, childWorkflowOnly := true }⟩,
  .make (.child { workflowId := "w" } none none) rfl, .collect,
  .event ⟨3, ⟨0, 0⟩, .startChildWorkflowExecutionInitiated { workflowId := "w" }⟩,
  .event ⟨4, ⟨0, 0⟩, .startChildWorkflowExecutionFailed { initiatedEventId := 3 }⟩]

def refusedLate : HistoryEvent :=
  ⟨5, ⟨0, 0⟩, .requestCancelExternalWorkflowExecutionFailed { initiatedEventId := 2 }⟩

def endedLate : HistoryEvent :=
  ⟨6, ⟨0, 0⟩, .childWorkflowExecutionCompleted { initiatedEventId := 1 }⟩

theorem namesLive_after_end (id : DecisionId) :
    (after (startedTwice ++ [.event refusedLate, .event endedLate])).NamesLive id :=
  (namesLive_iff _).2.2.mp (by decide) id

/-- The child run `w` goes on, but its id speaks about the start that failed: `w` does not count as
live, and it can be neither asked about nor canceled. -/
theorem refused_child_unnamed :
    InOrder (startedTwice ++ [.event refusedLate]) ∧
      let m := after (startedTwice ++ [.event refusedLate])
      m.machines.map (fun machine => (machine.id, machine.state)) =
          [(⟨.childWorkflow, "w"⟩, .initiated), (⟨.childWorkflow, "w"⟩, .completed)] ∧
        m.stateOf? ⟨.childWorkflow, "w"⟩ = some .completed ∧
        m.isLive ⟨.childWorkflow, "w"⟩ = false ∧ m.liveCount = 0 ∧
        (m.requestCancel? ⟨.childWorkflow, "w"⟩).isNone ∧
        ¬ m.NamesLive ⟨.childWorkflow, "w"⟩ := by
  refine ⟨by decide, by decide, by decide, by decide, by decide, rfl, ?_⟩
  intro names
  have name := names 0 _ rfl rfl rfl
  exact absurd name (by decide)

end Ledger

end WorkflowReplay

import Mathlib.Data.List.Induction
import WorkflowReplay.Proofs.Decision.Receptions

/-!
# Runs of a ledger

A run is any sequence of operations on an empty ledger.  Each operation changes the ledger in one of
a few ways, and `operate_changes` says so once for all of them.  The receptions of a run are its
events that a machine reacted to, with the machine and what it made of the event; they are what a
statement about a whole run speaks of.
-/

set_option autoImplicit false

namespace WorkflowReplay

def Request.isNew : Request → Bool
  | .child _ runId cancelEventId => runId.isNone && cancelEventId.isNone
  | _ => true

namespace Ledger

/-! ## Operations -/

inductive Operation where
  | make (r : Request) (new : r.isNew = true)
  | requestCancel (id : DecisionId)
  | collect
  | notifySent
  | event (e : HistoryEvent)

def Operation.activity (a : Decision.ScheduleActivity) : Operation := .make (.activity a) rfl

def make (m : Ledger) : Request → Ledger
  | .upsert id attributes => m.upsert id attributes
  | r => m.request r

/-- Carries out an operation.  One that is refused leaves the ledger as it was. -/
def operate (m : Ledger) : Operation → Ledger
  | .make r _ => m.make r
  | .requestCancel id => (m.requestCancel? id).getD m
  | .collect => m.collect.2
  | .notifySent => m.notifySent
  | .event e =>
    match m.handleEvent e with
    | .ok (_, m') => m'
    | .error _ => m

def reception? (m : Ledger) : Operation → Option Reception
  | .event e => m.receive? e
  | _ => none

inductive Changes (m : Ledger) : Option Reception → Ledger → Prop where
  | kept (pendingUpserts : List Nat) : Changes m none { m with pendingUpserts }
  | made {r : Request} (new : r.isNew = true) (free : m.isLive r.id = false)
      (pendingUpserts : List Nat) : Changes m none { m.made r with pendingUpserts }
  | asked {id : DecisionId} {i : Nat} {machine machine' : Machine}
      (name : m.byId.get? id = some i) (found : m.machines[i]? = some machine)
      (canceled : machine.requestCancel? = some machine') :
    Changes m none { m.put i machine' with order := m.order.filter (· ≠ i) ++ [i] }
  | sent : Changes m none m.notifySent
  | received {r : Reception} {key : RouteKey} {pendingUpserts : List Nat}
      (routed : Route.of r.event.attributes = some ⟨key, r.role⟩)
      (located : m.locate key r.event = .ok (r.index, pendingUpserts))
      (found : m.machines[r.index]? = some r.before) (genuine : r.IsGenuine) :
    Changes m (some r)
      { m.put r.index r.reaction.machine with
        pendingUpserts
        aliases := match r.reaction.newAlias with
          | some target => m.aliases.insertIfNew (target, r.event.id) r.index
          | none => m.aliases }

theorem make_eq (m : Ledger) (r : Request) :
    ∃ pendingUpserts, m.make r = { m.request r with pendingUpserts } := by
  unfold make
  split
  · exact upsert_eq m _ _
  · exact ⟨(m.request r).pendingUpserts, rfl⟩

theorem make_changes (m : Ledger) {r : Request} (new : r.isNew = true) :
    m.Changes none (m.make r) := by
  obtain ⟨pendingUpserts, eq⟩ := make_eq m r
  rw [eq]
  rcases request_cases m r with ⟨same, -⟩ | ⟨made, free⟩
  · rw [same]
    exact .kept pendingUpserts
  · rw [made]
    exact .made new free pendingUpserts

theorem event_changes (m : Ledger) (e : HistoryEvent) :
    m.Changes (m.receive? e) (m.operate (.event e)) := by
  have ignored (none : m.receive? e = none) (same : m.operate (.event e) = m) :
      m.Changes (m.receive? e) (m.operate (.event e)) := by
    rw [none, same]
    exact .kept m.pendingUpserts
  cases routed : Route.of e.attributes with
  | none =>
    exact ignored (by simp [receive?, routed]) (by simp [operate, handleEvent, routed])
  | some route =>
    cases located : m.locate route.key e with
    | error err =>
      exact ignored (by simp [receive?, routed, located])
        (by simp [operate, handleEvent, routed, located])
    | ok found =>
      obtain ⟨i, pendingUpserts⟩ := found
      rcases handleEvent_located routed located with ⟨none, handled⟩ | ⟨r, some, rfl, handled⟩
      · simp only [none, operate, handled]
        exact .kept pendingUpserts
      · obtain ⟨rfl, key, pendingUpserts', routed', located', found, reacts⟩ :=
          receive?_eq_some some
        obtain rfl : route = ⟨key, r.role⟩ := Option.some.inj (routed.symm.trans routed')
        simp only [some, operate, handled]
        exact .received routed located found reacts

theorem operate_changes (m : Ledger) (op : Operation) :
    m.Changes (m.reception? op) (m.operate op) := by
  cases op with
  | make r new => exact make_changes m new
  | requestCancel id =>
    simp only [reception?, operate]
    cases asked : m.requestCancel? id with
    | none => exact .kept m.pendingUpserts
    | some m' =>
      obtain ⟨i, machine, machine', name, found, canceled, rfl⟩ := requestCancel?_eq asked
      exact .asked name found canceled
  | collect => exact .sent
  | notifySent => exact .sent
  | event e => exact event_changes m e

/-! ## Runs -/

def after (ops : List Operation) : Ledger := ops.foldl operate empty

def receptionsFrom : Ledger → List Operation → List Reception
  | _, [] => []
  | m, op :: rest => (m.reception? op).toList ++ receptionsFrom (m.operate op) rest

def receptions (ops : List Operation) : List Reception := receptionsFrom empty ops

theorem after_append (past later : List Operation) :
    after (past ++ later) = later.foldl operate (after past) := List.foldl_append

theorem after_concat (ops : List Operation) (op : Operation) :
    after (ops ++ [op]) = (after ops).operate op := after_append ops [op]

theorem receptionsFrom_append (m : Ledger) (past later : List Operation) :
    m.receptionsFrom (past ++ later) =
      m.receptionsFrom past ++ (past.foldl operate m).receptionsFrom later := by
  induction past generalizing m with
  | nil => rfl
  | cons op rest ih => simp only [List.cons_append, receptionsFrom, ih, List.foldl_cons,
      List.append_assoc]

theorem receptions_append (past later : List Operation) :
    receptions (past ++ later) = receptions past ++ (after past).receptionsFrom later :=
  receptionsFrom_append empty past later

theorem receptions_concat (ops : List Operation) (op : Operation) :
    receptions (ops ++ [op]) = receptions ops ++ ((after ops).reception? op).toList := by
  rw [receptions_append]
  exact congrArg (receptions ops ++ ·) (List.append_nil _)

def Operation.event? : Operation → Option HistoryEvent
  | .event e => some e
  | _ => none

def InOrder (ops : List Operation) : Prop :=
  (ops.filterMap Operation.event?).Pairwise (fun a b => a.id < b.id)

instance (ops : List Operation) : Decidable (InOrder ops) :=
  inferInstanceAs (Decidable (List.Pairwise _ _))

theorem reception?_event {m : Ledger} {op : Operation} {r : Reception}
    (received : m.reception? op = some r) : op = .event r.event := by
  cases op with
  | event e => rw [(receive?_eq_some received).1]
  | _ => simp [reception?] at received

theorem InOrder.of_append {past later : List Operation} (ordered : InOrder (past ++ later)) :
    InOrder past := by
  rw [InOrder, List.filterMap_append] at ordered
  exact (List.pairwise_append.mp ordered).1

theorem InOrder.received_lt {ops : List Operation} {e : HistoryEvent}
    (ordered : InOrder (ops ++ [.event e])) : ∀ r ∈ receptions ops, r.event.id < e.id := by
  -- Every reception comes from one of the events.
  have among (ops : List Operation) :
      ∀ r ∈ receptions ops, r.event ∈ ops.filterMap Operation.event? := by
    induction ops using List.reverseRecOn with
    | nil => simp [receptions, receptionsFrom]
    | append_singleton ops op ih =>
      intro r member
      rw [receptions_concat] at member
      rw [List.filterMap_append, List.mem_append]
      rcases List.mem_append.mp member with old | new
      · exact .inl (ih r old)
      · rw [reception?_event (Option.mem_toList.mp new)]
        exact .inr (by simp [Operation.event?])
  rw [InOrder, List.filterMap_append] at ordered
  intro r member
  exact (List.pairwise_append.mp ordered).2.2 r.event (among ops r member) e
    (by simp [Operation.event?])

/-! ## One machine of a run -/

/-- What an operation makes of the machine with one index, and what it receives. -/
inductive Turn : Option Machine → Option Reception → Option Machine → Prop where
  | absent : Turn none none none
  | made {r : Request} (new : r.isNew = true) : Turn none none (some { request := r })
  | kept (machine : Machine) : Turn (some machine) none (some machine)
  | asked {machine machine' : Machine} (canceled : machine.requestCancel? = some machine') :
    Turn (some machine) none (some machine')
  | sent (machine : Machine) : Turn (some machine) none (some machine.markSent)
  | received {r : Reception} (genuine : r.IsGenuine) :
    Turn (some r.before) (some r) (some r.reaction.machine)

theorem Turn.refl_none (machine? : Option Machine) : Turn machine? none machine? := by
  cases machine? with
  | none => exact .absent
  | some machine => exact .kept machine

theorem Turn.after_eq_reaction {before after : Option Machine} {r : Reception}
    (turn : Turn before (some r) after) : after = some r.reaction.machine := by
  cases turn
  rfl

theorem Changes.turn_at {m m' : Ledger} {r? : Option Reception} (changes : m.Changes r? m')
    (i : Nat) :
    Turn m.machines[i]? (r?.filter (fun r => r.index = i)) m'.machines[i]? := by
  cases changes with
  | kept pendingUpserts => exact .refl_none _
  | made new free pendingUpserts =>
    rw [made_machines]
    split
    · exact .refl_none _
    · next late =>
      rw [List.getElem?_eq_none (by omega)]
      split
      · exact .made new
      · exact .absent
  | @asked id j machine machine' name found canceled =>
    change Turn _ _ (m.put j machine').machines[i]?
    rw [put_machines found]
    split
    · next same =>
      subst same
      rw [found]
      exact .asked canceled
    · exact .refl_none _
  | sent =>
    rw [notifySent_machine]
    split
    · cases m.machines[i]? with
      | none => exact .absent
      | some machine => exact .sent machine
    · exact .refl_none _
  | @received r key pendingUpserts routed located found genuine =>
    change Turn _ _ (m.put r.index r.reaction.machine).machines[i]?
    rw [put_machines found]
    by_cases same : r.index = i
    · subst same
      simp only [if_true, found, Option.filter_some, decide_true]
      exact .received genuine
    · simp only [same, if_false, Option.filter_some, decide_false, Bool.false_eq_true]
      exact .refl_none _

def receptionsAfter (past later : List Operation) (i : Nat) : List Reception :=
  ((after past).receptionsFrom later).filter (fun r => r.index = i)

def receptionsAt (ops : List Operation) (i : Nat) : List Reception := receptionsAfter [] ops i

theorem mem_receptionsAt {ops : List Operation} {r : Reception} (member : r ∈ receptions ops) :
    r ∈ receptionsAt ops r.index :=
  List.mem_filter.mpr ⟨member, by simp⟩

theorem receptionsAt_append (past later : List Operation) (i : Nat) :
    receptionsAt (past ++ later) i = receptionsAt past i ++ receptionsAfter past later i := by
  unfold receptionsAt receptionsAfter
  rw [← List.filter_append]
  exact congrArg (List.filter _) (receptions_append past later)

theorem receptionsAfter_concat (past later : List Operation) (op : Operation) (i : Nat) :
    receptionsAfter past (later ++ [op]) i = receptionsAfter past later i ++
      (((after (past ++ later)).reception? op).filter (fun r => r.index = i)).toList := by
  unfold receptionsAfter
  rw [receptionsFrom_append, List.filter_append, after_append]
  simp only [receptionsFrom, List.append_nil]
  cases (later.foldl operate (after past)).reception? op with
  | none => rfl
  | some r => by_cases same : r.index = i <;> simp [same, Option.filter_some]

theorem turn_concat (ops : List Operation) (op : Operation) (i : Nat) :
    Turn (after ops).machines[i]? (((after ops).reception? op).filter (fun r => r.index = i))
      (after (ops ++ [op])).machines[i]? := by
  rw [after_concat]
  exact (operate_changes (after ops) op).turn_at i

/-- What holds of a machine after a run, or before it is made, and is kept by each of its turns
holds whatever follows. -/
theorem machine_induction {motive : List Reception → Option Machine → Prop}
    (past : List Operation) (i : Nat) (start : motive [] (after past).machines[i]?)
    (turn : ∀ seen before r? after, motive seen before → Turn before r? after →
      motive (seen ++ r?.toList) after)
    (later : List Operation) :
    motive (receptionsAfter past later i) (after (past ++ later)).machines[i]? := by
  induction later using List.reverseRecOn with
  | nil => simpa [receptionsAfter, receptionsFrom] using start
  | append_singleton later op ih =>
    rw [receptionsAfter_concat, ← List.append_assoc]
    exact turn _ _ _ _ ih (turn_concat (past ++ later) op i)

end Ledger

end WorkflowReplay

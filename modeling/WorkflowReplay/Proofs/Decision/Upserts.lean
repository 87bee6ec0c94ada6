import WorkflowReplay.Proofs.Decision.Routing

/-!
# First in, first out

Events for search attributes name nothing: each of them belongs to the oldest upsert that waits.
The queue of a ledger always holds the upserts that were made without the first ones, as many as
events were handled.  So the events and the upserts of a run are matched one by one, in the order in
which the upserts were made; and since an upsert cannot be canceled, its place in the order of
collection never changes, and its decision is sent in the same order.
-/

set_option autoImplicit false

namespace WorkflowReplay

theorem Machine.initiated?_completes_upsert {m m' : Machine} {e : HistoryEvent}
    (accepts : m.initiated? e = some m') (upsert : m.id.target = .upsertSearchAttributes) :
    m'.state = .completed := by
  obtain ⟨l, rfl, ⟨-, other, -⟩ | ⟨recorded, -⟩⟩ := initiated?_cases accepts
  · exact absurd upsert other
  · obtain ⟨l', -, rfl⟩ := Option.map_eq_some_iff.mp recorded
    rfl

def Decision.isUpsert (d : Decision) : Bool := d.type = .upsertWorkflowSearchAttributes

theorem Machine.pending_upserts (m : Machine) :
    m.pending.filter Decision.isUpsert =
      if m.IsUnsent ∧ m.id.target = .upsertSearchAttributes then [m.request.initialDecision]
      else [] := by
  have cancel : (if m.life.cancelPending then m.request.cancelDecision.toList else []).filter
      Decision.isUpsert = [] := by
    split
    · cases request : m.request <;> simp [Request.cancelDecision, Decision.isUpsert, Decision.type]
    · rfl
  have initial : m.request.initialDecision.isUpsert = true ↔
      m.id.target = .upsertSearchAttributes := by
    cases request : m.request <;> simp [Machine.id, request, Request.id, Request.initialDecision,
      Decision.isUpsert, Decision.type]
  unfold pending
  rw [List.filter_append, cancel, List.append_nil]
  cases sent : m.life.initialEmitted with
  | true => simp [IsUnsent, sent]
  | false => by_cases upsert : m.id.target = .upsertSearchAttributes <;>
      simp [IsUnsent, sent, initial, upsert]

namespace Ledger

/-! ## The upserts of a ledger -/

def isUpsert (m : Ledger) (i : Nat) : Bool :=
  (m.idAt i).map DecisionId.target = some .upsertSearchAttributes

theorem isUpsert_congr {m m' : Ledger} {i : Nat} (id : m'.idAt i = m.idAt i) :
    m'.isUpsert i = m.isUpsert i := by
  rw [isUpsert, isUpsert, id]

def upserts (m : Ledger) : List Nat := (List.range m.machines.length).filter m.isUpsert

theorem upserts_congr {m m' : Ledger} (length : m'.machines.length = m.machines.length)
    (ids : ∀ i, m'.idAt i = m.idAt i) : m'.upserts = m.upserts := by
  rw [upserts, upserts, length]
  exact List.filter_congr fun i _ => isUpsert_congr (ids i)

theorem upserts_made (m : Ledger) (r : Request) :
    (m.made r).upserts = m.upserts ++
      if r.id.target = .upsertSearchAttributes then [m.machines.length] else [] := by
  have length : (m.made r).machines.length = m.machines.length + 1 := by simp [made]
  have last : (m.made r).isUpsert m.machines.length =
      decide (r.id.target = .upsertSearchAttributes) := by
    simp [isUpsert, idAt_made]
  have old : (List.range m.machines.length).filter (m.made r).isUpsert = m.upserts := by
    refine List.filter_congr fun i member => isUpsert_congr ?_
    have early := List.mem_range.mp member
    rw [idAt_made, if_neg (by omega)]
  rw [upserts, length, List.range_succ, List.filter_append, old]
  by_cases upsert : r.id.target = .upsertSearchAttributes <;> simp [last, upsert]

/-! ## The queue -/

def takesUpsert (m : Ledger) : Operation → Bool
  | .event e => e.type = .upsertWorkflowSearchAttributes && (m.handleEvent e).isOk
  | _ => false

def takenFrom : Ledger → List Operation → Nat
  | _, [] => 0
  | m, op :: rest => (m.takesUpsert op).toNat + takenFrom (m.operate op) rest

def upsertsTaken (ops : List Operation) : Nat := empty.takenFrom ops

theorem upsertsTaken_concat (ops : List Operation) (op : Operation) :
    upsertsTaken (ops ++ [op]) = upsertsTaken ops + ((after ops).takesUpsert op).toNat := by
  have counted (m : Ledger) : m.takenFrom (ops ++ [op]) =
      m.takenFrom ops + ((ops.foldl operate m).takesUpsert op).toNat := by
    induction ops generalizing m with
    | nil => simp [takenFrom]
    | cons first rest ih => simp only [List.cons_append, takenFrom, ih, List.foldl_cons,
        Nat.add_assoc]
  exact counted empty

inductive QueueStep (m : Ledger) (op : Operation) (m' : Ledger) : Prop where
  | joined (idle : m.takesUpsert op = false) (made : m'.upserts = m.upserts ++ [m.machines.length])
    (queue : m'.pendingUpserts = m.pendingUpserts ++ [m.machines.length])
  | served (takes : m.takesUpsert op = true) (made : m'.upserts = m.upserts) {i : Nat}
    (queue : m.pendingUpserts = i :: m'.pendingUpserts)
  | kept (idle : m.takesUpsert op = false) (made : m'.upserts = m.upserts)
    (queue : m'.pendingUpserts = m.pendingUpserts)

theorem request_queueStep {m : Ledger} {r : Request} {op : Operation}
    (other : r.id.target ≠ .upsertSearchAttributes) (idle : m.takesUpsert op = false) :
    m.QueueStep op (m.request r) := by
  rcases request_cases m r with ⟨same, -⟩ | ⟨made, -⟩
  · exact .kept idle (by rw [same]) (by rw [same])
  · refine .kept idle ?_ (by rw [made]; rfl)
    rw [made, upserts_made, if_neg other, List.append_nil]

theorem upsert_event_unmatched_of_empty_queue {m : Ledger} {e : HistoryEvent}
    {x : Event.UpsertWorkflowSearchAttributes}
    (upsert : e.attributes = .upsertWorkflowSearchAttributes x) (queue : m.pendingUpserts = []) :
    m.handleEvent e = .error (.unmatchedEvent e.id e.type) := by
  rw [handleEvent, upsert]
  simp [Route.of, locate, queue]

namespace Filed

variable {m : Ledger}

theorem upsert_queueStep (filed : m.Filed) (sound : m.Sound) {op : Operation}
    (idle : m.takesUpsert op = false) (id : String) (attributes : SearchAttributes) :
    m.QueueStep op (m.upsert id attributes) := by
  cases free : m.isLive ⟨.upsertSearchAttributes, id⟩ with
  | true =>
    rw [filed.upsert_eq_self_of_live sound free]
    exact .kept idle rfl rfl
  | false =>
    rw [filed.upsert_eq_made_of_free free]
    exact .joined idle (upserts_made m (.upsert id attributes)) rfl

/-- The first upsert of the queue takes the event, and no other machine notices. -/
theorem upsert_event_completes_first (filed : m.Filed) {e : HistoryEvent}
    {x : Event.UpsertWorkflowSearchAttributes}
    (upsert : e.attributes = .upsertWorkflowSearchAttributes x) {i : Nat} {rest : List Nat}
    (queue : m.pendingUpserts = i :: rest) :
    ∃ machine machine' aliases, m.machines[i]? = some machine ∧ machine.state = .created ∧
      machine'.state = .completed ∧ machine'.request = machine.request ∧
      m.handleEvent e = .ok (none,
        { m.put i machine' with pendingUpserts := rest, aliases := aliases }) := by
  obtain ⟨r, received, rfl⟩ := filed.upsert_event_received_by_first upsert queue
  obtain ⟨rfl, key, pendingUpserts, routed, located, found, genuine⟩ := receive?_eq_some received
  have route : Route.mk .nextUpsert .initiated = ⟨key, r.role⟩ := by
    have known : Route.of r.event.attributes = some ⟨.nextUpsert, .initiated⟩ := by rw [upsert]; rfl
    exact Option.some.inj (known.symm.trans routed)
  obtain rfl : .nextUpsert = key := congrArg Route.key route
  have role : r.role = .initiated := (congrArg Route.role route).symm
  obtain rfl : rest = pendingUpserts :=
    (List.cons.inj (queue.symm.trans ((locate_pendingUpserts located).1 rfl))).2
  obtain ⟨created, request, silent⟩ : r.before.state = .created ∧
      r.reaction.machine.request = r.before.request ∧ r.reaction.outcome = none := by
    -- An event of this role can only accept the request.
    cases Reception.IsGenuine.effect genuine with
    | accepted _ created _ _ request silent => exact ⟨created, request, silent⟩
    | started other => simp [role] at other
    | ended other => simp [role] at other
    | canceled other => simp [role] at other
    | cancelAccepted other => simp [role] at other
    | cancelRefused other => simp [Reception.IsRefusal, role] at other
  have completed : r.reaction.machine.state = .completed := by
    have target := (Reception.IsGenuine.nextUpsert_iff genuine routed role).mp rfl
    rw [role] at genuine
    obtain ⟨machine, accepts, reaction⟩ := Option.map_eq_some_iff.mp genuine
    rw [← reaction]
    exact Machine.initiated?_completes_upsert accepts target
  rcases @handleEvent_located _ _ ⟨.nextUpsert, r.role⟩ _ _ routed located with
    ⟨none, -⟩ | ⟨r', same, -, handled⟩
  · simp [received] at none
  · obtain rfl := Option.some.inj (received.symm.trans same)
    rw [silent] at handled
    exact ⟨r.before, r.reaction.machine, _, found, created, completed, request, handled⟩

theorem event_queueStep (filed : m.Filed) (e : HistoryEvent) :
    m.QueueStep (.event e) (m.operate (.event e)) := by
  by_cases upsert : ∃ x, e.attributes = .upsertWorkflowSearchAttributes x
  · obtain ⟨x, upsert⟩ := upsert
    have type : e.type = .upsertWorkflowSearchAttributes := by
      rw [HistoryEvent.type, upsert]
      rfl
    cases queue : m.pendingUpserts with
    | nil =>
      have failed := upsert_event_unmatched_of_empty_queue upsert queue
      refine .kept (by simp [takesUpsert, failed, Except.isOk, Except.toBool]) ?_ ?_
      · simp only [operate, failed]
      · simp only [operate, failed]
    | cons i rest =>
      obtain ⟨machine, machine', aliases, found, -, -, request, handled⟩ :=
        filed.upsert_event_completes_first upsert queue
      refine .served (by simp [takesUpsert, type, handled, Except.isOk, Except.toBool]) ?_
        (i := i) ?_
      · simp only [operate, handled]
        refine upserts_congr (by simp [put]) fun j => ?_
        exact idAt_put found (congrArg Request.id request) j
      · simp only [operate, handled]
        exact queue
  · have idle : m.takesUpsert (.event e) = false := by
      have other : e.type ≠ .upsertWorkflowSearchAttributes := fun type => by
        cases attributes : e.attributes with
        | upsertWorkflowSearchAttributes x => exact upsert ⟨x, attributes⟩
        | _ => simp [HistoryEvent.type, attributes, EventAttributes.type] at type
      simp [takesUpsert, other]
    cases received : m.receive? e with
    | none =>
      rcases filed.handleEvent_unchanged_of_unreceived received with ⟨err, handled⟩ | handled
      · exact .kept idle (by simp only [operate, handled]) (by simp only [operate, handled])
      · exact .kept idle (by simp only [operate, handled]) (by simp only [operate, handled])
    | some r =>
      have changes := event_changes m e
      rw [received] at changes
      generalize m.operate (.event e) = m' at changes
      cases changes with
      | @received _ key pendingUpserts routed located found genuine =>
        obtain rfl : r.event = e := (receive?_eq_some received).1
        have other : key ≠ .nextUpsert := fun same =>
          upsert ((Route.nextUpsert_iff routed).1.mp same)
        refine .kept idle ?_ ((locate_pendingUpserts located).2 other)
        exact upserts_congr (by simp [put]) fun j => idAt_put found (react?_evolves genuine).id j

theorem queueStep (filed : m.Filed) (sound : m.Sound) (op : Operation) :
    m.QueueStep op (m.operate op) := by
  cases op with
  | make r new =>
    cases r with
    | upsert id attributes => exact filed.upsert_queueStep sound rfl id attributes
    | _ => exact request_queueStep (by simp [Request.id]) rfl
  | requestCancel id =>
    simp only [operate]
    cases asked : m.requestCancel? id with
    | none => exact .kept rfl rfl rfl
    | some m' =>
      obtain ⟨i, machine, machine', name, found, canceled, rfl⟩ := requestCancel?_eq asked
      refine .kept rfl (upserts_congr (by simp [put]) fun j => ?_) rfl
      exact idAt_put found (Machine.requestCancel?_evolves canceled).id j
  | collect => exact .kept rfl (upserts_congr (notifySent_length m) (idAt_notifySent m)) rfl
  | notifySent => exact .kept rfl (upserts_congr (notifySent_length m) (idAt_notifySent m)) rfl
  | event e => exact filed.event_queueStep e

end Filed

/-- The queue holds the upserts that were made, without as many as events were handled. -/
theorem pendingUpserts_eq (ops : List Operation) :
    upsertsTaken ops ≤ (after ops).upserts.length ∧
      (after ops).pendingUpserts = (after ops).upserts.drop (upsertsTaken ops) := by
  induction ops using List.reverseRecOn with
  | nil => exact ⟨Nat.le_refl _, rfl⟩
  | append_singleton ops op ih =>
    obtain ⟨enough, queue⟩ := ih
    rw [after_concat, upsertsTaken_concat]
    cases (after_filed ops).queueStep (after_tended ops).sound op with
    | joined idle made joins =>
      rw [idle, made, joins, queue, List.length_append]
      exact ⟨by simp; omega, (List.drop_append_of_le_length enough).symm⟩
    | served takes made first =>
      -- The queue was not empty, so that the count stays within the upserts.
      rw [takes, made]
      rw [queue] at first
      have some := congrArg List.length first
      have rest := congrArg List.tail first
      rw [List.length_drop, List.length_cons] at some
      rw [List.tail_drop, List.tail_cons] at rest
      exact ⟨by simp; omega, rest.symm⟩
    | kept idle made same =>
      rw [idle, made, same]
      exact ⟨enough, queue⟩

/-! ## The order of the decisions -/

def upsertOffers (m : Ledger) : List (Nat × Decision) := m.offers.filter (fun o => o.2.isUpsert)

def collectedUpserts (ops : List Operation) : List (Nat × Decision) :=
  (empty.collectedFrom ops).flatten.filter (fun o => o.2.isUpsert)

theorem collectedUpserts_concat (ops : List Operation) (op : Operation) :
    collectedUpserts (ops ++ [op]) = collectedUpserts ops ++
      match op with
      | .collect => (after ops).upsertOffers
      | _ => [] := by
  rw [collectedUpserts, collectedFrom_append, List.flatten_append, List.filter_append]
  congr 1
  cases op with
  | collect => simp [collectedFrom, upsertOffers, after]
  | _ => rfl

theorem upsertOffers_eq (m : Ledger) :
    m.upsertOffers =
      m.order.flatMap fun i => ((m.pendingAt i).filter Decision.isUpsert).map (i, ·) := by
  rw [upsertOffers, offers_eq, List.filter_flatMap]
  congr 1
  funext i
  rw [List.filter_map]
  rfl

theorem pendingAt_upserts (m : Ledger) (i : Nat) :
    (m.pendingAt i).filter Decision.isUpsert = [] ∨
      m.isUpsert i = true ∧ ∃ machine, m.machines[i]? = some machine ∧ machine.IsUnsent ∧
        (m.pendingAt i).filter Decision.isUpsert = [machine.request.initialDecision] := by
  unfold pendingAt
  cases found : m.machines[i]? with
  | none => exact .inl rfl
  | some machine =>
    simp only [machine.pending_upserts]
    split
    · next initial =>
      exact .inr ⟨by simp [isUpsert, idAt, found, initial.2], machine, rfl, initial.1, rfl⟩
    · exact .inl rfl

theorem mem_upsertOffers {m : Ledger} {o : Nat × Decision} (offered : o ∈ m.upsertOffers) :
    m.isUpsert o.1 = true ∧ ∃ machine, m.machines[o.1]? = some machine ∧ machine.IsUnsent ∧
      o.2 = machine.request.initialDecision := by
  rw [upsertOffers_eq] at offered
  obtain ⟨i, -, offer⟩ := List.mem_flatMap.mp offered
  obtain ⟨d, pending, rfl⟩ := List.mem_map.mp offer
  rcases m.pendingAt_upserts i with nothing | ⟨upsert, machine, found, unsent, one⟩
  · simp [nothing] at pending
  · rw [one] at pending
    exact ⟨upsert, machine, found, unsent, List.mem_singleton.mp pending⟩

theorem upsertOffers_sublist (m : Ledger) :
    (m.upsertOffers.map Prod.fst).Sublist (m.order.filter m.isUpsert) := by
  rw [upsertOffers_eq]
  generalize m.order = order
  induction order with
  | nil => simp
  | cons i rest ih =>
    rw [List.flatMap_cons, List.map_append]
    rcases m.pendingAt_upserts i with nothing | ⟨upsert, machine, -, -, one⟩
    · rw [nothing]
      exact ih.trans ((List.sublist_cons_self i rest).filter _)
    · rw [one, List.filter_cons_of_pos upsert]
      exact ih.cons_cons i

theorem operate_idAt {m : Ledger} (op : Operation) {i : Nat} (old : i < m.machines.length) :
    (m.operate op).idAt i = m.idAt i := by
  obtain ⟨machine', found, persists⟩ := operate_persists op (List.getElem?_eq_getElem old)
  rw [idAt, idAt, found, List.getElem?_eq_getElem old, Option.map_some, Option.map_some,
    persists.id]

theorem operate_length_le (m : Ledger) (op : Operation) :
    m.machines.length ≤ (m.operate op).machines.length := by
  by_contra shorter
  obtain ⟨machine', found, -⟩ := operate_persists op
    (List.getElem?_eq_getElem (Nat.lt_of_not_le shorter))
  have := (List.getElem?_eq_some_iff.mp found).1
  omega

theorem requestCancel?_isUpsert {m : Ledger} {i : Nat} {machine machine' : Machine}
    (found : m.machines[i]? = some machine) (canceled : machine.requestCancel? = some machine') :
    m.isUpsert i = false := by
  have cancelable : machine.request.cancelDecision ≠ none := by
    intro none
    simp [Machine.requestCancel?, none] at canceled
  cases request : machine.request <;> simp [request, Request.cancelDecision] at cancelable <;>
    simp [isUpsert, idAt, found, Machine.id, request, Request.id]

theorem Sound.operate_keeps_upserts_ordered {m : Ledger} (sound : m.Sound)
    (ordered : (m.order.filter m.isUpsert).Pairwise (· < ·)) (op : Operation) :
    ((m.operate op).order.filter (m.operate op).isUpsert).Pairwise (· < ·) := by
  have known {i : Nat} (old : i < m.machines.length) :
      (m.operate op).isUpsert i = m.isUpsert i := isUpsert_congr (operate_idAt op old)
  have kept {left : List Nat} (sublist : left.Sublist m.order) :
      (left.filter (m.operate op).isUpsert).Pairwise (· < ·) := by
    rw [List.filter_congr fun i member => known (sound.placed i (sublist.subset member))]
    exact ordered.sublist (sublist.filter _)
  have changes := operate_changes m op
  generalize m.reception? op = r? at changes
  generalize m.operate op = m' at known kept changes ⊢
  cases changes with
  | kept => exact kept (.refl _)
  | @made r new free =>
    change ((m.made r).order.filter _).Pairwise _
    rw [made, List.filter_append]
    refine List.pairwise_append.mpr ⟨kept List.filter_sublist, ?_, ?_⟩
    · exact (List.pairwise_singleton _ _).sublist List.filter_sublist
    · intro i old j last
      have := sound.placed i (List.mem_filter.mp (List.mem_filter.mp old).1).1
      have := List.mem_singleton.mp (List.mem_filter.mp last).1
      omega
  | @asked id i machine machine' name found canceled =>
    -- What is asked to be canceled moves to the end, but it is no upsert.
    have plain := known (List.getElem?_eq_some_iff.mp found).1
    rw [requestCancel?_isUpsert found canceled] at plain
    change ((m.order.filter (· ≠ i) ++ [i]).filter _).Pairwise _
    rw [List.filter_append, List.filter_cons_of_neg (ne_true_of_eq_false plain), List.filter_nil,
      List.append_nil]
    exact kept List.filter_sublist
  | sent => exact kept List.filter_sublist
  | received => exact kept (.refl _)

/-- The upserts stand in the order of collection as they were made, and those that have not sent
their decision were made after all that have. -/
structure KeepsOrder (m : Ledger) (sent : List Nat) : Prop where
  sorted : sent.Pairwise (· < ·)
  bound : ∀ i ∈ sent, i < m.machines.length
  ahead : ∀ i ∈ sent, ∀ (j : Nat) machine, m.machines[j]? = some machine → machine.IsUnsent →
    m.isUpsert j = true → i < j
  order : (m.order.filter m.isUpsert).Pairwise (· < ·)

theorem KeepsOrder.after_operate {m : Ledger} {sent : List Nat} (keeps : m.KeepsOrder sent)
    (sound : m.Sound) (op : Operation) : (m.operate op).KeepsOrder sent where
  sorted := keeps.sorted
  bound i member := Nat.lt_of_lt_of_le (keeps.bound i member) (operate_length_le m op)
  order := sound.operate_keeps_upserts_ordered keeps.order op
  ahead i member j machine found unsent upsert := by
    by_cases old : j < m.machines.length
    · obtain ⟨machine', found', persists⟩ := operate_persists op (List.getElem?_eq_getElem old)
      obtain rfl := Option.some.inj (found.symm.trans found')
      rw [isUpsert_congr (operate_idAt op old)] at upsert
      refine keeps.ahead i member j _ (List.getElem?_eq_getElem old) ?_ upsert
      by_contra sent
      exact persists.sent sent unsent
    · -- A machine that the operation made stands behind all others.
      have := keeps.bound i member
      omega

/-- A collection sends the upserts that are left, in their order. -/
theorem KeepsOrder.after_collect {m : Ledger} {sent : List Nat} (keeps : m.KeepsOrder sent)
    (sound : m.Sound) :
    (m.operate .collect).KeepsOrder (sent ++ m.upsertOffers.map Prod.fst) := by
  have next := keeps.after_operate sound .collect
  have bound : ∀ i ∈ m.upsertOffers.map Prod.fst, i < m.machines.length := by
    intro i member
    exact sound.placed i (List.mem_filter.mp (m.upsertOffers_sublist.subset member)).1
  refine ⟨List.pairwise_append.mpr ⟨keeps.sorted, ?_, ?_⟩, ?_, ?_, next.order⟩
  · exact keeps.order.sublist m.upsertOffers_sublist
  · intro i before j member
    obtain ⟨o, offered, rfl⟩ := List.mem_map.mp member
    obtain ⟨upsert, machine, found, unsent, -⟩ := mem_upsertOffers offered
    exact keeps.ahead i before o.1 machine found unsent upsert
  · intro i member
    rcases List.mem_append.mp member with before | now
    · exact next.bound i before
    · exact Nat.lt_of_lt_of_le (bound i now) (operate_length_le m .collect)
  · intro i _ j machine found unsent
    exact absurd unsent (notifySent_not_unsent sound found)

theorem after_keepsOrder (ops : List Operation) :
    (after ops).KeepsOrder ((collectedUpserts ops).map Prod.fst) := by
  induction ops using List.reverseRecOn with
  | nil => exact ⟨.nil, by simp [collectedUpserts, collectedFrom], by simp [collectedUpserts,
      collectedFrom], .nil⟩
  | append_singleton ops op ih =>
    have sound := (after_tended ops).sound
    rw [after_concat, collectedUpserts_concat, List.map_append]
    cases op with
    | collect => exact ih.after_collect sound
    | _ =>
      simp only [List.map_nil, List.append_nil]
      exact ih.after_operate sound _

theorem collectedUpserts_initial (ops : List Operation) :
    ∀ o ∈ collectedUpserts ops, o.1 ∈ (after ops).upserts ∧
      ∃ machine, (after ops).machines[o.1]? = some machine ∧
        o.2 = machine.request.initialDecision := by
  induction ops using List.reverseRecOn with
  | nil => simp [collectedUpserts, collectedFrom]
  | append_singleton ops op ih =>
    have later {o : Nat × Decision} {machine : Machine}
        (found : (after ops).machines[o.1]? = some machine)
        (upsert : (after ops).isUpsert o.1 = true)
        (initial : o.2 = machine.request.initialDecision) :
        o.1 ∈ (after (ops ++ [op])).upserts ∧
          ∃ machine, (after (ops ++ [op])).machines[o.1]? = some machine ∧
            o.2 = machine.request.initialDecision := by
      rw [after_concat]
      have old := (List.getElem?_eq_some_iff.mp found).1
      obtain ⟨machine', found', persists⟩ := operate_persists op found
      have made := List.mem_range.mpr (Nat.lt_of_lt_of_le old (operate_length_le (after ops) op))
      refine ⟨List.mem_filter.mpr ⟨made, ?_⟩, machine', found',
        initial.trans persists.initialDecision.symm⟩
      rw [isUpsert_congr (operate_idAt op old), upsert]
    intro o member
    rw [collectedUpserts_concat] at member
    rcases List.mem_append.mp member with before | now
    · obtain ⟨among, machine, found, initial⟩ := ih o before
      exact later found (List.mem_filter.mp among).2 initial
    · cases op with
      | collect =>
        obtain ⟨upsert, machine, found, -, initial⟩ := mem_upsertOffers now
        exact later found upsert initial
      | _ => simp at now

/-! ## Matching -/

theorem upserts_prefix (past later : List Operation) :
    (after past).upserts <+: (after (past ++ later)).upserts := by
  induction later using List.reverseRecOn with
  | nil => simp
  | append_singleton later op ih =>
    rw [← List.append_assoc, after_concat]
    refine ih.trans ?_
    cases (after_filed (past ++ later)).queueStep (after_tended (past ++ later)).sound op with
    | joined _ made => exact made ▸ List.prefix_append _ _
    | served _ made => exact made ▸ List.prefix_rfl
    | kept _ made => exact made ▸ List.prefix_rfl

theorem upsert_event_unmatched {ops : List Operation} {e : HistoryEvent}
    {x : Event.UpsertWorkflowSearchAttributes}
    (upsert : e.attributes = .upsertWorkflowSearchAttributes x)
    (all : upsertsTaken ops = (after ops).upserts.length) :
    (after ops).handleInPlace e = (.error (.unmatchedEvent e.id e.type), after ops) := by
  have queue : (after ops).pendingUpserts = [] := by
    rw [(pendingUpserts_eq ops).2, all, List.drop_length]
  rw [handleInPlace_eq, upsert_event_unmatched_of_empty_queue upsert queue]

/-- An event for search attributes goes to the upsert with its number. -/
theorem upsert_event_completes_next {ops : List Operation} {e : HistoryEvent}
    {x : Event.UpsertWorkflowSearchAttributes}
    (upsert : e.attributes = .upsertWorkflowSearchAttributes x) {i : Nat}
    (next : (after ops).upserts[upsertsTaken ops]? = some i) :
    ∃ machine machine' m', (after ops).machines[i]? = some machine ∧
      machine.state = .created ∧ machine'.state = .completed ∧
      machine'.request = machine.request ∧ (after ops).handleInPlace e = (.ok none, m') ∧
      m'.machines = (after ops).machines.set i machine' := by
  obtain ⟨early, rfl⟩ := List.getElem?_eq_some_iff.mp next
  have queue := (pendingUpserts_eq ops).2
  rw [List.drop_eq_getElem_cons early] at queue
  obtain ⟨machine, machine', aliases, found, created, completed, request, handled⟩ :=
    (after_filed ops).upsert_event_completes_first upsert queue
  have inPlace := handleInPlace_eq (after ops) e
  rw [handled] at inPlace
  exact ⟨machine, machine', _, found, created, completed, request, inPlace, rfl⟩

/-- The events for search attributes and the upserts of a run are matched one by one, in the order
in which the upserts were made.  An event is refused, and changes nothing, exactly if as many events
were handled as upserts were made; every other event goes to the next upsert, and no other machine
changes.  The decisions of the upserts are collected in the same order. -/
theorem upserts_first_in_first_out (ops : List Operation) :
    (∀ past later, ops = past ++ later → (after past).upserts <+: (after ops).upserts) ∧
    upsertsTaken ops ≤ (after ops).upserts.length ∧
    (∀ e x, e.attributes = .upsertWorkflowSearchAttributes x →
      ((∃ err, ((after ops).handleInPlace e).1 = .error err) ↔
        upsertsTaken ops = (after ops).upserts.length) ∧
      (upsertsTaken ops = (after ops).upserts.length → (after ops).handleInPlace e =
        (.error (.unmatchedEvent e.id e.type), after ops)) ∧
      ∀ i, (after ops).upserts[upsertsTaken ops]? = some i →
        ∃ machine machine' m', (after ops).machines[i]? = some machine ∧
          machine.state = .created ∧ machine'.state = .completed ∧
          machine'.request = machine.request ∧ (after ops).handleInPlace e = (.ok none, m') ∧
          m'.machines = (after ops).machines.set i machine') ∧
    (after ops).collect.1 = (after ops).offers.map Prod.snd ∧
    (collectedUpserts ops).Pairwise (fun a b => a.1 < b.1) ∧
    ∀ o ∈ collectedUpserts ops, o.1 ∈ (after ops).upserts ∧
      ∃ machine, (after ops).machines[o.1]? = some machine ∧
        o.2 = machine.request.initialDecision := by
  obtain ⟨enough, -⟩ := pendingUpserts_eq ops
  refine ⟨?_, enough, ?_, (offers_decisions _).symm, ?_, collectedUpserts_initial ops⟩
  · rintro past later rfl
    exact upserts_prefix past later
  · intro e x upsert
    refine ⟨⟨?_, ?_⟩, upsert_event_unmatched upsert, fun i next => upsert_event_completes_next
      upsert next⟩
    · rintro ⟨err, failed⟩
      by_contra some
      have early : upsertsTaken ops < (after ops).upserts.length := by omega
      obtain ⟨-, -, m', -, -, -, -, handled, -⟩ :=
        upsert_event_completes_next upsert (List.getElem?_eq_getElem early)
      simp [handled] at failed
    · intro all
      exact ⟨_, congrArg Prod.fst (upsert_event_unmatched upsert all)⟩
  · exact List.pairwise_map.mp (after_keepsOrder ops).sorted

/-- Two upserts are made and the first is accepted; then its id is used again, and the id of the
second one while that waits. -/
def reusedUpserts : List Operation := [
  .make (.upsert "color" []) rfl, .make (.upsert "size" []) rfl, .collect,
  .event ⟨5, ⟨0, 0⟩, .upsertWorkflowSearchAttributes {}⟩,
  .make (.upsert "color" []) rfl, .make (.upsert "size" []) rfl]

/-- The second event goes to the second upsert, not to the new one under the old id. -/
theorem second_upsert_is_served :
    (after reusedUpserts).upserts = [0, 1, 2] ∧ upsertsTaken reusedUpserts = 1 ∧
      ∃ machine' m', machine'.state = .completed ∧ (after reusedUpserts).handleInPlace
          ⟨6, ⟨0, 0⟩, .upsertWorkflowSearchAttributes {}⟩ = (.ok none, m') ∧
        m'.machines = (after reusedUpserts).machines.set 1 machine' := by
  obtain ⟨-, -, matched, -⟩ := upserts_first_in_first_out reusedUpserts
  obtain ⟨-, -, next⟩ := matched ⟨6, ⟨0, 0⟩, .upsertWorkflowSearchAttributes {}⟩ {} rfl
  obtain ⟨machine, machine', m', -, -, completed, -, handled, machines⟩ := next 1 (by decide)
  exact ⟨by decide, by decide, machine', m', completed, handled, machines⟩

end Ledger

end WorkflowReplay

import WorkflowReplay.Proofs.Decision.Evolution

/-!
# What the operations of a ledger do

Each operation is described once: which machines it makes or touches, and where they stand in the
order of collection.  From these descriptions follow the two facts that the theory of runs needs.
A ledger stays `Sound`: whoever has an initial decision to send stands in the order exactly once.
And it `Grows`: machines evolve, none is lost, and without a collection no decision counts as sent
unless the history accepted it.
-/

set_option autoImplicit false

namespace WorkflowReplay.Ledger

/-! ## One operation at a time -/

def made (m : Ledger) (r : Request) : Ledger :=
  { m with
    machines := m.machines ++ [{ request := r }]
    byId := m.byId.insert r.id m.machines.length
    order := m.order.filter (fun i => m.byId.get? r.id ≠ some i) ++ [m.machines.length] }

def put (m : Ledger) (i : Nat) (machine : Machine) : Ledger :=
  { m with machines := m.machines.set i machine }

theorem isLive_iff {m : Ledger} {id : DecisionId} :
    m.isLive id = true ↔ ∃ i machine, m.byId.get? id = some i ∧ m.machines[i]? = some machine ∧
      machine.isTerminal = false := by
  unfold isLive machine?
  cases m.byId.get? id with
  | none => simp
  | some i => cases h : m.machines[i]? <;> simp [h]

theorem isTerminalAt_eq_false_iff {m : Ledger} {i : Nat} :
    m.isTerminalAt i = false ↔ ∃ machine, m.machines[i]? = some machine ∧
      machine.isTerminal = false := by
  unfold isTerminalAt
  cases h : m.machines[i]? <;> simp

theorem isLive_of_unused {m : Ledger} {id : DecisionId} (unused : m.byId.get? id = none) :
    m.isLive id = false := by
  simp only [isLive, machine?, unused, Option.bind_none]

theorem request_eq_self_of_live {m : Ledger} {r : Request} (live : m.isLive r.id = true) :
    m.request r = m := by
  obtain ⟨i, machine, name, found, unsettled⟩ := isLive_iff.mp live
  have terminal : m.isTerminalAt i = false :=
    isTerminalAt_eq_false_iff.mpr ⟨machine, found, unsettled⟩
  simp [request, name, terminal]

theorem request_eq_made_of_free {m : Ledger} {r : Request} (free : m.isLive r.id = false) :
    m.request r = m.made r := by
  unfold request made
  cases name : m.byId.get? r.id with
  | none =>
    have filter : m.order.filter (fun j => decide (none ≠ some j)) = m.order :=
      List.filter_eq_self.mpr (by simp)
    simp only [filter]
  | some i =>
    have terminal : m.isTerminalAt i = true := by
      cases settled : m.isTerminalAt i with
      | true => rfl
      | false =>
        obtain ⟨machine, found, unsettled⟩ := isTerminalAt_eq_false_iff.mp settled
        simp [isLive_iff.mpr ⟨i, machine, name, found, unsettled⟩] at free
    have filter : m.order.filter (fun j => decide (j ≠ i)) =
        m.order.filter (fun j => decide (some i ≠ some j)) :=
      List.filter_congr fun j _ => by simp [eq_comm]
    simp only [terminal, if_true, filter]

theorem request_cases (m : Ledger) (r : Request) :
    m.request r = m ∧ m.isLive r.id = true ∨ m.request r = m.made r ∧ m.isLive r.id = false := by
  cases live : m.isLive r.id with
  | true => exact .inl ⟨request_eq_self_of_live live, rfl⟩
  | false => exact .inr ⟨request_eq_made_of_free live, rfl⟩

theorem upsert_eq (m : Ledger) (id : String) (attributes : SearchAttributes) :
    ∃ pendingUpserts, m.upsert id attributes =
      { m.request (.upsert id attributes) with pendingUpserts } := by
  unfold upsert
  simp only
  split
  · split
    · exact ⟨_, rfl⟩
    · exact ⟨_, rfl⟩
  · exact ⟨_, rfl⟩

theorem requestCancel?_eq {m m' : Ledger} {id : DecisionId}
    (asked : m.requestCancel? id = some m') :
    ∃ i machine machine', m.byId.get? id = some i ∧ m.machines[i]? = some machine ∧
      machine.requestCancel? = some machine' ∧
      m' = { m.put i machine' with order := m.order.filter (· ≠ i) ++ [i] } := by
  unfold requestCancel? at asked
  obtain ⟨i, name, asked⟩ := Option.bind_eq_some_iff.mp asked
  obtain ⟨machine, found, asked⟩ := Option.bind_eq_some_iff.mp asked
  obtain ⟨machine', canceled, asked⟩ := Option.bind_eq_some_iff.mp asked
  cases asked
  exact ⟨i, machine, machine', name, found, canceled, rfl⟩

theorem handleEvent_cases {m m' : Ledger} {e : HistoryEvent} {resolution : Option Resolution}
    (handled : m.handleEvent e = .ok (resolution, m')) :
    (resolution = none ∧ ∃ pendingUpserts, m' = { m with pendingUpserts }) ∨
      ∃ route i machine reaction pendingUpserts, Route.of e.attributes = some route ∧
        m.locate route.key e = .ok (i, pendingUpserts) ∧ m.machines[i]? = some machine ∧
        react? machine route.role e = some reaction ∧
        resolution = reaction.outcome.map (fun o => ⟨reaction.machine.id, o⟩) ∧
        m' = { m.put i reaction.machine with
          pendingUpserts
          aliases := match reaction.newAlias with
            | some target => m.aliases.insertIfNew (target, e.id) i
            | none => m.aliases } := by
  unfold handleEvent at handled
  split at handled
  · cases handled
    exact .inl ⟨rfl, m.pendingUpserts, rfl⟩
  · next route routed =>
    split at handled
    · simp at handled
    · next i pendingUpserts located =>
      simp only at handled
      split at handled
      · cases handled
        exact .inl ⟨rfl, pendingUpserts, rfl⟩
      · next reaction reacted =>
        obtain ⟨machine, found, reacts⟩ := Option.bind_eq_some_iff.mp reacted
        cases handled
        exact .inr ⟨route, i, machine, reaction, pendingUpserts, routed, located, found, reacts,
          rfl, rfl⟩

/-! ## Counting decisions as sent -/

theorem getElem?_foldl_modify {α : Type} (f : α → α) (twice : ∀ a, f (f a) = f a)
    (order : List Nat) (l : List α) (j : Nat) :
    (order.foldl (fun l i => l.modify i f) l)[j]? = if j ∈ order then l[j]?.map f else l[j]? := by
  induction order generalizing l with
  | nil => simp
  | cons i rest ih =>
    rw [List.foldl_cons, ih, List.getElem?_modify]
    by_cases first : i = j
    · subst first
      by_cases later : i ∈ rest
      · simp [later, Function.comp_def, twice]
      · simp [later]
    · have apart : j ≠ i := fun h => first h.symm
      by_cases later : j ∈ rest <;> simp [later, first, apart]

theorem notifySent_machine (m : Ledger) (i : Nat) :
    m.notifySent.machines[i]? =
      if i ∈ m.order then m.machines[i]?.map Machine.markSent else m.machines[i]? :=
  getElem?_foldl_modify Machine.markSent Machine.markSent_markSent m.order m.machines i

theorem notifySent_length (m : Ledger) : m.notifySent.machines.length = m.machines.length := by
  have all (order : List Nat) (l : List Machine) :
      (order.foldl (fun l i => l.modify i Machine.markSent) l).length = l.length := by
    induction order generalizing l with
    | nil => rfl
    | cons i rest ih => rw [List.foldl_cons, ih, List.length_modify]
  exact all m.order m.machines

/-! ## Sound ledgers -/

/-- Who has an initial decision to send stands in the order of collection once, and an id names a
machine that was made under it. -/
structure Sound (m : Ledger) : Prop where
  nodup : m.order.Nodup
  placed : ∀ i ∈ m.order, i < m.machines.length
  lives : ∀ (i : Nat) machine, m.machines[i]? = some machine → machine.life.Sound
  unsent : ∀ (i : Nat) machine, m.machines[i]? = some machine → machine.IsUnsent → i ∈ m.order
  named : ∀ id i, m.byId.get? id = some i → ∃ machine, m.machines[i]? = some machine ∧
    machine.id = id

theorem empty_sound : empty.Sound where
  nodup := .nil
  placed := by simp [empty]
  lives := by simp [empty]
  unsent := by simp [empty]
  named := by simp [empty]

theorem Sound.bound {m : Ledger} (sound : m.Sound) {id : DecisionId} {i : Nat}
    (name : m.byId.get? id = some i) : i < m.machines.length := by
  obtain ⟨machine, found, -⟩ := sound.named id i name
  exact (List.getElem?_eq_some_iff.mp found).1

/-- What happened to a ledger without a collection. -/
structure Grows (m m' : Ledger) : Prop where
  sound : m.Sound → m'.Sound
  old : ∀ (i : Nat) machine, m.machines[i]? = some machine →
    ∃ machine', m'.machines[i]? = some machine' ∧ machine.Evolves machine'
  new : m.Sound → ∀ (i : Nat) machine', m.machines.length ≤ i → m'.machines[i]? = some machine' →
    machine'.IsUnsent ∨ machine'.IsInitiated

namespace Grows

theorem refl (m : Ledger) : m.Grows m where
  sound h := h
  old i machine found := ⟨machine, found, .refl _⟩
  new _ i machine' beyond found := by
    have := (List.getElem?_eq_some_iff.mp found).1
    omega

theorem length_le {m m' : Ledger} (grows : m.Grows m') :
    m.machines.length ≤ m'.machines.length := by
  rcases Nat.eq_zero_or_pos m.machines.length with none | some
  · omega
  · have last : m.machines.length - 1 < m.machines.length := by omega
    obtain ⟨machine', found, -⟩ := grows.old (m.machines.length - 1)
      m.machines[m.machines.length - 1] (List.getElem?_eq_getElem last)
    have := (List.getElem?_eq_some_iff.mp found).1
    omega

theorem trans {a b c : Ledger} (first : a.Grows b) (second : b.Grows c) : a.Grows c where
  sound h := second.sound (first.sound h)
  old i machine found := by
    obtain ⟨machine₁, found₁, evolves₁⟩ := first.old i machine found
    obtain ⟨machine₂, found₂, evolves₂⟩ := second.old i machine₁ found₁
    exact ⟨machine₂, found₂, evolves₁.trans evolves₂⟩
  new sound i machine' beyond found := by
    rcases Nat.lt_or_ge i b.machines.length with early | late
    · obtain ⟨machine₂, found₂, evolves⟩ := second.old i b.machines[i]
        (List.getElem?_eq_getElem early)
      obtain rfl : machine' = machine₂ := Option.some.inj (found.symm.trans found₂)
      have live := (first.sound sound).lives i b.machines[i] (List.getElem?_eq_getElem early)
      rcases first.new sound i b.machines[i] beyond (List.getElem?_eq_getElem early) with
        unsent | initiated
      · exact evolves.life.unsent live unsent
      · exact .inr (evolves.preserves_initiated live initiated)
    · exact second.new (first.sound sound) i machine' late found

end Grows

/-! ## Every operation but a collection grows a ledger -/

theorem Grows.with_pendingUpserts (m : Ledger) (pendingUpserts : List Nat) :
    m.Grows { m with pendingUpserts } where
  sound h := ⟨h.nodup, h.placed, h.lives, h.unsent, h.named⟩
  old i machine found := ⟨machine, found, .refl _⟩
  new _ i machine' beyond found := by
    have := (List.getElem?_eq_some_iff.mp found).1
    simp only at this
    omega

theorem made_machines (m : Ledger) (r : Request) (i : Nat) :
    (m.made r).machines[i]? =
      if i < m.machines.length then m.machines[i]?
      else if i = m.machines.length then some { request := r } else none := by
  simp only [made, List.getElem?_append]
  split
  · rfl
  · next late =>
    rw [List.getElem?_singleton]
    by_cases last : i = m.machines.length
    · simp [last]
    · rw [if_neg (by omega), if_neg last]

theorem made_sound {m : Ledger} {r : Request} (h : m.Sound) (free : m.isLive r.id = false) :
    (m.made r).Sound where
  nodup := by
    refine List.nodup_append.mpr ⟨h.nodup.filter _, by simp, ?_⟩
    intro i old j last same
    have := h.placed i (List.mem_filter.mp old).1
    have := List.mem_singleton.mp last
    omega
  placed i member := by
    simp only [made, List.length_append, List.length_singleton]
    rcases List.mem_append.mp member with old | last
    · have := h.placed i (List.mem_filter.mp old).1
      omega
    · have := List.mem_singleton.mp last
      omega
  lives i machine found := by
    rw [made_machines] at found
    split at found
    · exact h.lives i machine found
    · split at found
      · cases found
        exact ⟨fun _ => rfl, fun _ => rfl⟩
      · simp at found
  unsent i machine found unsent := by
    rw [made_machines] at found
    split at found
    · -- The machine that leaves the order is settled, so it has sent its decision.
      have other : m.byId.get? r.id ≠ some i := by
        intro name
        have live : m.isLive r.id = true := isLive_iff.mpr ⟨i, machine, name, found, by
          simp [Machine.isTerminal, Lifecycle.isTerminal, (h.lives i machine found).unsent unsent,
            DecisionState.isTerminal]⟩
        simp [live] at free
      exact List.mem_append.mpr (.inl (List.mem_filter.mpr ⟨h.unsent i machine found unsent,
        by simpa using other⟩))
    · split at found
      · next last => simp [made, last]
      · simp at found
  named id i name := by
    simp only [made, Table.get?_insert] at name
    rw [made_machines]
    split at name
    · next same =>
      cases name
      exact ⟨{ request := r }, by simp, same⟩
    · obtain ⟨machine, found, named⟩ := h.named id i name
      have early := (List.getElem?_eq_some_iff.mp found).1
      exact ⟨machine, by rw [if_pos early, found], named⟩

theorem made_grows {m : Ledger} {r : Request} (free : m.isLive r.id = false) :
    m.Grows (m.made r) where
  sound h := made_sound h free
  old i machine found := by
    have early := (List.getElem?_eq_some_iff.mp found).1
    exact ⟨machine, by rw [made_machines, if_pos early, found], .refl _⟩
  new _ i machine' beyond found := by
    rw [made_machines, if_neg (by omega)] at found
    split at found
    · cases found
      exact .inl rfl
    · simp at found

theorem request_grows (m : Ledger) (r : Request) : m.Grows (m.request r) := by
  rcases request_cases m r with ⟨same, -⟩ | ⟨made, free⟩
  · rw [same]
    exact .refl m
  · rw [made]
    exact made_grows free

theorem upsert_grows (m : Ledger) (id : String) (attributes : SearchAttributes) :
    m.Grows (m.upsert id attributes) := by
  obtain ⟨pendingUpserts, eq⟩ := upsert_eq m id attributes
  rw [eq]
  exact (request_grows m _).trans (.with_pendingUpserts _ pendingUpserts)

section Put

variable {m : Ledger} {i : Nat} {machine machine' : Machine}

theorem put_machines (found : m.machines[i]? = some machine) (j : Nat) :
    (m.put i machine').machines[j]? = if i = j then some machine' else m.machines[j]? := by
  rw [put, List.getElem?_set, if_pos (List.getElem?_eq_some_iff.mp found).1]

theorem put_old (found : m.machines[i]? = some machine) (evolves : machine.Evolves machine')
    {j : Nat} {old : Machine} (before : m.machines[j]? = some old) :
    ∃ new, (m.put i machine').machines[j]? = some new ∧ old.Evolves new := by
  rw [put_machines found]
  split
  · next same =>
    subst same
    obtain rfl : machine = old := Option.some.inj (found.symm.trans before)
    exact ⟨machine', rfl, evolves⟩
  · exact ⟨old, before, .refl _⟩

theorem put_new (found : m.machines[i]? = some machine) (evolves : machine.Evolves machine')
    {j : Nat} {new : Machine} (there : (m.put i machine').machines[j]? = some new) :
    ∃ old, m.machines[j]? = some old ∧ old.Evolves new := by
  rw [put_machines found] at there
  split at there
  · next same =>
    subst same
    cases there
    exact ⟨machine, found, evolves⟩
  · exact ⟨new, there, .refl _⟩

theorem put_sound (h : m.Sound) (found : m.machines[i]? = some machine)
    (evolves : machine.Evolves machine') {order : List Nat} (nodup : m.order.Nodup → order.Nodup)
    (placed : ∀ j ∈ order, j = i ∨ j ∈ m.order) (kept : ∀ j ∈ m.order, j ∈ order)
    (aliases : Table (DecisionTarget × EventId) Nat) (pendingUpserts : List Nat) :
    Sound { m.put i machine' with order, aliases, pendingUpserts } where
  nodup := nodup h.nodup
  placed j member := by
    simp only [put, List.length_set]
    rcases placed j member with rfl | old
    · exact (List.getElem?_eq_some_iff.mp found).1
    · exact h.placed j old
  lives j new there := by
    obtain ⟨old, before, evolves⟩ := put_new found evolves there
    exact evolves.life.sound (h.lives j old before)
  unsent j new there unsent := by
    obtain ⟨old, before, evolves⟩ := put_new found evolves there
    refine kept j (h.unsent j old before ?_)
    cases sent : old.life.initialEmitted with
    | false => exact sent
    | true => simp [Machine.IsUnsent, evolves.life.sent sent] at unsent
  named id j name := by
    obtain ⟨old, before, named⟩ := h.named id j name
    obtain ⟨new, there, evolves⟩ := put_old found evolves before
    exact ⟨new, there, evolves.id.trans named⟩

theorem put_grows (found : m.machines[i]? = some machine) (evolves : machine.Evolves machine')
    {order : List Nat} (nodup : m.order.Nodup → order.Nodup)
    (placed : ∀ j ∈ order, j = i ∨ j ∈ m.order) (kept : ∀ j ∈ m.order, j ∈ order)
    (aliases : Table (DecisionTarget × EventId) Nat) (pendingUpserts : List Nat) :
    m.Grows { m.put i machine' with order, aliases, pendingUpserts } where
  sound h := put_sound h found evolves nodup placed kept aliases pendingUpserts
  old _ _ before := put_old found evolves before
  new _ j new beyond there := by
    have := (List.getElem?_eq_some_iff.mp there).1
    simp only [put, List.length_set] at this
    omega

end Put

theorem requestCancel?_grows {m m' : Ledger} {id : DecisionId}
    (asked : m.requestCancel? id = some m') : m.Grows m' := by
  obtain ⟨i, machine, machine', -, found, canceled, rfl⟩ := requestCancel?_eq asked
  refine put_grows found (Machine.requestCancel?_evolves canceled) (fun nodup => ?_)
    (fun j member => ?_) (fun j member => ?_) _ _
  · exact List.nodup_append.mpr ⟨nodup.filter _, by simp, by simp⟩
  · rcases List.mem_append.mp member with old | last
    · exact .inr (List.mem_filter.mp old).1
    · exact .inl (List.mem_singleton.mp last)
  · by_cases same : j = i
    · simp [same]
    · simp [same, member]

theorem handleEvent_grows {m m' : Ledger} {e : HistoryEvent} {resolution : Option Resolution}
    (handled : m.handleEvent e = .ok (resolution, m')) : m.Grows m' := by
  rcases handleEvent_cases handled with ⟨-, pendingUpserts, rfl⟩ |
    ⟨route, i, machine, reaction, pendingUpserts, -, -, found, reacts, -, rfl⟩
  · exact .with_pendingUpserts m pendingUpserts
  · exact put_grows found (react?_evolves reacts) (fun h => h) (fun j member => .inr member)
      (fun j member => member) _ _

/-! ## A collection -/

theorem notifySent_not_unsent {m : Ledger} (sound : m.Sound) {i : Nat} {machine : Machine}
    (found : m.notifySent.machines[i]? = some machine) : ¬ machine.IsUnsent := by
  rw [notifySent_machine] at found
  split at found
  · obtain ⟨old, -, rfl⟩ := Option.map_eq_some_iff.mp found
    simp [Machine.IsUnsent, Machine.markSent, Machine.withLife]
  · next away => exact fun unsent => away (sound.unsent i machine found unsent)

theorem notifySent_sound {m : Ledger} (sound : m.Sound) : m.notifySent.Sound where
  nodup := sound.nodup.filter _
  placed i member := by
    rw [notifySent_length]
    exact sound.placed i (List.mem_filter.mp member).1
  lives i machine found := by
    rw [notifySent_machine] at found
    split at found
    · obtain ⟨old, before, rfl⟩ := Option.map_eq_some_iff.mp found
      exact Lifecycle.markSent_sound (sound.lives i old before)
    · exact sound.lives i machine found
  unsent i machine found unsent := absurd unsent (notifySent_not_unsent sound found)
  named id i name := by
    obtain ⟨machine, found, named⟩ := sound.named id i name
    rw [notifySent_machine, found]
    split
    · exact ⟨machine.markSent, rfl, named⟩
    · exact ⟨machine, rfl, named⟩

theorem notifySent_notifySent (m : Ledger) : m.notifySent.notifySent = m.notifySent := by
  have machines : m.notifySent.notifySent.machines = m.notifySent.machines := by
    refine List.ext_getElem? ?_
    intro i
    rw [notifySent_machine]
    split
    · next left =>
      have before : i ∈ m.order := (List.mem_filter.mp left).1
      rw [notifySent_machine, if_pos before, Option.map_map]
      exact congrArg (Option.map · _) (funext Machine.markSent_markSent)
    · rfl
  have order : m.notifySent.notifySent.order = m.notifySent.order := by
    change m.notifySent.order.filter (fun i =>
      !({ m.notifySent with machines := m.notifySent.notifySent.machines }).isTerminalAt i) = _
    rw [machines]
    refine List.filter_eq_self.mpr ?_
    intro i left
    exact (List.mem_filter.mp left).2
  calc m.notifySent.notifySent
      = { m.notifySent with
          machines := m.notifySent.notifySent.machines
          order := m.notifySent.notifySent.order } := rfl
    _ = m.notifySent := by rw [machines, order]

end WorkflowReplay.Ledger

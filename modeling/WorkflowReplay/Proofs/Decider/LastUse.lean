import WorkflowReplay.Proofs.Decider.Recency

/-!
# A cache is a list by last use

What a cache does is described by a list that has neither a clock nor stamps: the runs that are kept
with their values, the one used last first.  A use brings a run to the front, and a new run pushes
the last one out when there is no room.  Whatever is asked of a cache and of such a list, one
request after the other, the answers are the same.
-/

set_option autoImplicit false

namespace WorkflowReplay

/-! ## Keeping runs -/

/-- Runs with their values, the run used last first. -/
structure ByLastUse (α : Type) where
  capacity : Nat
  runs : List (Execution × α) := []

namespace ByLastUse

variable {α : Type}

def value? (l : ByLastUse α) (run : Execution) : Option α := Table.find run l.runs

def contains (l : ByLastUse α) (run : Execution) : Bool := (l.value? run).isSome

def use (l : ByLastUse α) (run : Execution) (v : α) : ByLastUse α :=
  { l with runs := (run, v) :: l.runs.filter (fun e => e.1 ≠ run) }

def get (l : ByLastUse α) (run : Execution) : Option α × ByLastUse α :=
  match l.value? run with
  | some v => (some v, l.use run v)
  | none => (none, l)

/-- A run that is new to a full list takes the place of the last one, which is the answer. -/
def insert (l : ByLastUse α) (run : Execution) (v : α) : Option Execution × ByLastUse α :=
  if l.capacity = 0 then (none, l)
  else if !l.contains run && l.capacity ≤ l.runs.length then
    (l.runs.getLast?.map Prod.fst, { l with runs := l.runs.dropLast }.use run v)
  else (none, l.use run v)

def evict (l : ByLastUse α) (run : Execution) : Bool × ByLastUse α :=
  (l.contains run, { l with runs := l.runs.filter (fun e => e.1 ≠ run) })

def clear (l : ByLastUse α) : ByLastUse α := { l with runs := [] }

end ByLastUse

inductive StoreRequest (α : Type) where
  | insert (run : Execution) (value : α)
  | get (run : Execution)
  | contains (run : Execution)
  | evict (run : Execution)
  | clear
  deriving Repr

inductive StoreReply (α : Type) where
  | left (run : Option Execution)
  | value (v : Option α)
  | there (b : Bool)
  | done
  deriving DecidableEq, Repr

structure Store (α σ : Type) where
  insert : σ → Execution → α → Option Execution × σ
  get : σ → Execution → Option α × σ
  contains : σ → Execution → Bool
  evict : σ → Execution → Bool × σ
  clear : σ → σ

def Cache.store (α : Type) : Store α (Cache α) := ⟨insert, get, contains, evict, clear⟩

def ByLastUse.store (α : Type) : Store α (ByLastUse α) := ⟨insert, get, contains, evict, clear⟩

namespace Store

variable {α σ τ : Type}

def serve (k : Store α σ) (s : σ) : StoreRequest α → StoreReply α × σ
  | .insert run v => ((k.insert s run v).map .left id)
  | .get run => ((k.get s run).map .value id)
  | .contains run => (.there (k.contains s run), s)
  | .evict run => ((k.evict s run).map .there id)
  | .clear => (.done, k.clear s)

def serveAll (k : Store α σ) (s : σ) : List (StoreRequest α) → List (StoreReply α) × σ
  | [] => ([], s)
  | q :: rest =>
    let (reply, s) := k.serve s q
    let (replies, s) := k.serveAll s rest
    (reply :: replies, s)

/-- Two stores answer alike as long as each request leaves them in states that belong together. -/
theorem serveAll_preserves_alike {k : Store α σ} {k' : Store α τ} {alike : σ → τ → Prop}
    (step : ∀ {s t}, alike s t → ∀ q,
      (k.serve s q).1 = (k'.serve t q).1 ∧ alike (k.serve s q).2 (k'.serve t q).2)
    {s : σ} {t : τ} (start : alike s t) (requests : List (StoreRequest α)) :
    (k.serveAll s requests).1 = (k'.serveAll t requests).1 ∧
      alike (k.serveAll s requests).2 (k'.serveAll t requests).2 := by
  induction requests generalizing s t with
  | nil => exact ⟨rfl, start⟩
  | cons q rest ih =>
    obtain ⟨reply, next⟩ := step start q
    obtain ⟨replies, last⟩ := ih next
    exact ⟨congrArg₂ _ reply replies, last⟩

end Store

/-! ## The entries of a cache in the order of their stamps -/

namespace Cache

variable {α : Type}

structure Ordered (c : Cache α) (es : List (Execution × CacheEntry α)) : Prop where
  fits : c.Fits
  perm : c.entries.entries.Perm es
  order : es.Pairwise fun a b => b.2.lastUsed < a.2.lastUsed
  early : ∀ e ∈ es, e.2.lastUsed ≤ c.clock

namespace Ordered

variable {c c' : Cache α} {es : List (Execution × CacheEntry α)}

theorem empty (capacity : Nat) : (new capacity : Cache α).Ordered [] :=
  ⟨.empty capacity, .nil, .nil, by simp⟩

theorem nodup (h : c.Ordered es) : (es.map Prod.fst).Nodup :=
  (h.perm.map Prod.fst).nodup_iff.mp h.fits.nodup

theorem get?_eq_find (h : c.Ordered es) (run : Execution) :
    c.entries.get? run = Table.find run es :=
  Table.find_perm h.perm h.fits.nodup run

theorem size_eq_length (h : c.Ordered es) : c.size = es.length := h.perm.length_eq

theorem of_clock_le (h : c.Ordered es) (fits : c'.Fits) (entries : c'.entries = c.entries)
    (clock : c.clock ≤ c'.clock) : c'.Ordered es :=
  ⟨fits, entries ▸ h.perm, h.order, fun e member => Nat.le_trans (h.early e member) clock⟩

theorem of_entry_erased (h : c.Ordered es) (fits : c'.Fits) {run : Execution}
    (entries : c'.entries = c.entries.erase run) (clock : c'.clock = c.clock) :
    c'.Ordered (es.filter fun e => e.1 ≠ run) := by
  refine ⟨fits, ?_, h.order.filter _, fun e member => ?_⟩
  · rw [entries]
    exact h.perm.filter _
  · exact clock ▸ h.early e (List.mem_of_mem_filter member)

/-- A run that is written with the time of this use, into a table of some of the entries, stands
before all others. -/
theorem of_entry_stamped (h : c.Ordered es) (fits : c'.Fits) {kept : Table Execution (CacheEntry α)}
    {rest : List (Execution × CacheEntry α)} (some : rest.Sublist es)
      (perm : kept.entries.Perm rest)
    {run : Execution} {v : α}
    (entries : c'.entries = kept.insert run { value := v, lastUsed := c.clock + 1 })
    (clock : c'.clock = c.clock + 1) :
    c'.Ordered ((run, { value := v, lastUsed := c.clock + 1 }) ::
      rest.filter fun e => e.1 ≠ run) := by
  have nodup : kept.keys.Nodup :=
    (perm.map Prod.fst).nodup_iff.mpr (h.nodup.sublist (some.map Prod.fst))
  have before (e : Execution × CacheEntry α) (member : e ∈ rest.filter fun e => e.1 ≠ run) :
      e.2.lastUsed ≤ c.clock := h.early e (some.subset (List.mem_of_mem_filter member))
  refine ⟨fits, ?_,
    List.pairwise_cons.mpr ⟨fun e member => ?_, (h.order.sublist some).filter _⟩, ?_⟩
  · rw [entries]
    exact (Table.insert_perm nodup run _).trans ((perm.filter _).cons _)
  · exact Nat.lt_succ_of_le (before e member)
  · rw [clock]
    intro e member
    rcases List.mem_cons.mp member with rfl | member
    · exact Nat.le_refl _
    · exact Nat.le_succ_of_le (before e member)

/-- The stamps are different, so there is one smallest, and it is that of the last entry. -/
theorem oldest?_eq_last (h : c.Ordered es) : c.oldest? = es.getLast?.map Prod.fst := by
  unfold Cache.oldest?
  have perm := h.perm
  cases entries : c.entries.entries with
  | nil =>
    rw [entries] at perm
    rw [List.nil_perm.mp perm]
    rfl
  | cons first rest =>
    rw [entries] at perm
    obtain ⟨member, least⟩ := foldl_older_is_least rest first
    rcases List.eq_nil_or_concat es with rfl | ⟨init, last, rfl⟩
    · simp at perm
    · rw [List.concat_eq_append] at perm
      have bound := least last (perm.mem_iff.mpr (by simp))
      have order := h.order
      rw [List.concat_eq_append, List.pairwise_append] at order
      rcases List.mem_append.mp (perm.mem_iff.mp member) with later | same
      · have := order.2.2 _ later last (by simp)
        omega
      · simp [List.mem_singleton.mp same]

theorem filter_last_eq_dropLast (h : c.Ordered es) {old : Execution}
    (last : es.getLast?.map Prod.fst = some old) :
    es.filter (fun e => e.1 ≠ old) = es.dropLast := by
  rcases List.eq_nil_or_concat es with rfl | ⟨init, final, rfl⟩
  · simp at last
  · have nodup := h.nodup
    simp only [List.concat_eq_append, List.map_append, List.map_cons, List.map_nil,
      List.getLast?_concat, Option.map_some, Option.some.injEq, List.dropLast_concat,
      List.filter_append] at last nodup ⊢
    subst last
    have apart : init.filter (fun e => e.1 ≠ final.1) = init := by
      refine List.filter_eq_self.mpr fun e member => decide_eq_true fun same => ?_
      exact (List.nodup_append.mp nodup).2.2 _ (List.mem_map_of_mem member) _
        (List.mem_singleton_self _) same
    rw [apart, List.filter_cons_of_neg (by simp), List.filter_nil, List.append_nil]

end Ordered

/-! ## A cache and its list -/

def unstamped (e : Execution × CacheEntry α) : Execution × α := (e.1, e.2.value)

theorem find_unstamped (run : Execution) (es : List (Execution × CacheEntry α)) :
    Table.find run (es.map unstamped) = (Table.find run es).map CacheEntry.value := by
  induction es with
  | nil => rfl
  | cons e rest ih =>
    obtain ⟨other, entry⟩ := e
    simp only [List.map_cons, unstamped, Table.find]
    split
    · rfl
    · exact ih

theorem filter_unstamped (run : Execution) (es : List (Execution × CacheEntry α)) :
    (es.map unstamped).filter (fun e => e.1 ≠ run) =
      (es.filter fun e => e.1 ≠ run).map unstamped := by
  rw [List.filter_map]
  rfl

/-- The cache keeps what the list shows, used in the order of the list. -/
def Shows (c : Cache α) (l : ByLastUse α) : Prop :=
  l.capacity = c.capacity ∧ ∃ es, c.Ordered es ∧ l.runs = es.map unstamped

namespace Shows

variable {c : Cache α} {l : ByLastUse α}

theorem value?_eq (h : c.Shows l) (run : Execution) : l.value? run = c.value? run := by
  obtain ⟨-, es, ordered, runs⟩ := h
  rw [ByLastUse.value?, runs, find_unstamped, Cache.value?, ordered.get?_eq_find]

theorem contains_eq (h : c.Shows l) (run : Execution) : l.contains run = c.contains run := by
  rw [ByLastUse.contains, h.value?_eq, Cache.contains_eq]

theorem size_eq_length (h : c.Shows l) : c.size = l.runs.length := by
  obtain ⟨-, es, ordered, runs⟩ := h
  rw [runs, List.length_map, ordered.size_eq_length]

theorem fits (h : c.Shows l) : c.Fits := by
  obtain ⟨-, es, ordered, -⟩ := h
  exact ordered.fits

theorem get (h : c.Shows l) (run : Execution) :
    (c.get run).1 = (l.get run).1 ∧ (c.get run).2.Shows (l.get run).2 := by
  have value := h.value?_eq run
  obtain ⟨capacity, es, ordered, runs⟩ := h
  have fits := ordered.fits.get run
  unfold Cache.get at fits ⊢
  unfold ByLastUse.get
  rw [value, Cache.value?]
  cases found : c.entries.get? run with
  | none =>
    simp only [found, Option.map_none] at fits ⊢
    exact ⟨trivial, capacity, es, ordered.of_clock_le fits rfl (Nat.le_succ _), runs⟩
  | some e =>
    simp only [found, Option.map_some] at fits ⊢
    refine ⟨trivial, capacity, _, ordered.of_entry_stamped fits (.refl _) ordered.perm rfl rfl, ?_⟩
    rw [ByLastUse.use, runs, filter_unstamped]
    rfl

theorem evict (h : c.Shows l) (run : Execution) :
    (c.evict run).1 = (l.evict run).1 ∧ (c.evict run).2.Shows (l.evict run).2 := by
  refine ⟨(h.contains_eq run).symm, ?_⟩
  obtain ⟨capacity, es, ordered, runs⟩ := h
  refine ⟨capacity, _, ordered.of_entry_erased (ordered.fits.evict run) rfl rfl, ?_⟩
  rw [ByLastUse.evict, runs, filter_unstamped]

theorem clear (h : c.Shows l) : c.clear.Shows l.clear := by
  obtain ⟨capacity, es, ordered, -⟩ := h
  exact ⟨capacity, [], ⟨ordered.fits.clear, .nil, .nil, by simp⟩, rfl⟩

/-- The run that leaves a cache is the last one of the list, and leaves only if the list is full. -/
theorem leaving_eq_last (h : c.Shows l) (run : Execution) :
    c.leaving run = if !l.contains run && l.capacity ≤ l.runs.length then
      l.runs.getLast?.map Prod.fst else none := by
  rw [Cache.leaving, h.contains_eq, h.size_eq_length]
  obtain ⟨capacity, es, ordered, runs⟩ := h
  rw [capacity, ordered.oldest?_eq_last, runs, List.getLast?_map, Option.map_map]
  rfl

theorem insert (h : c.Shows l) (run : Execution) (v : α) :
    (c.insert run v).1 = (l.insert run v).1 ∧ (c.insert run v).2.Shows (l.insert run v).2 := by
  rcases Nat.eq_zero_or_pos c.capacity with nothing | positive
  · rw [insert_of_capacity_zero nothing, ByLastUse.insert, if_pos (h.1.trans nothing)]
    exact ⟨rfl, h⟩
  · have leaving := h.leaving_eq_last run
    have kept := h.contains_eq run
    obtain ⟨capacity, es, ordered, runs⟩ := h
    have fits := ordered.fits.insert run v
    rw [insert_of_capacity_pos positive] at fits ⊢
    rw [ByLastUse.insert, if_neg (by omega)]
    split at leaving
    · next full =>
      rw [if_pos full]
      cases last : l.runs.getLast?.map Prod.fst with
      | none =>
        have empty : l.runs = [] := by simpa using last
        simp [empty] at full
        omega
      | some old =>
        have final : es.getLast?.map Prod.fst = some old := by
          rw [← last, runs, List.getLast?_map, Option.map_map]
          rfl
        have others := ordered.filter_last_eq_dropLast final
        simp only [leaving, last] at fits ⊢
        refine ⟨trivial, capacity, _,
          ordered.of_entry_stamped fits List.filter_sublist (ordered.perm.filter _) rfl rfl, ?_⟩
        rw [others, ByLastUse.use, runs, ← List.map_dropLast, filter_unstamped]
        rfl
    · next space =>
      rw [if_neg space]
      simp only [leaving] at fits ⊢
      refine ⟨trivial, capacity, _, ordered.of_entry_stamped fits (.refl _) ordered.perm rfl rfl,
        ?_⟩
      rw [ByLastUse.use, runs, filter_unstamped]
      rfl

theorem serve (h : c.Shows l) (q : StoreRequest α) :
    ((store α).serve c q).1 = ((ByLastUse.store α).serve l q).1 ∧
      ((store α).serve c q).2.Shows ((ByLastUse.store α).serve l q).2 := by
  cases q with
  | insert run v => exact (h.insert run v).imp_left (congrArg _)
  | get run => exact (h.get run).imp_left (congrArg _)
  | contains run => exact ⟨congrArg _ (h.contains_eq run).symm, h⟩
  | evict run => exact (h.evict run).imp_left (congrArg _)
  | clear => exact ⟨rfl, h.clear⟩

end Shows

theorem serve_capacity (c : Cache α) (q : StoreRequest α) :
    ((store α).serve c q).2.capacity = c.capacity := by
  cases q with
  | insert run v => exact insert_capacity c run v
  | get run => exact get_capacity c run
  | contains run | evict run | clear => rfl

theorem serveAll_capacity (c : Cache α) (requests : List (StoreRequest α)) :
    ((store α).serveAll c requests).2.capacity = c.capacity := by
  induction requests generalizing c with
  | nil => rfl
  | cons q rest ih => exact (ih _).trans (serve_capacity c q)

/-! ## What was stored last -/

/-- What is stored of a run after a request that was answered so, if `v` was stored before. -/
def stored (run : Execution) (v : Option α) : StoreRequest α × StoreReply α → Option α
  | (.insert other w, .left gone) =>
    if other = run then some w else if gone = some run then none else v
  | (.evict other, _) => if other = run then none else v
  | (.clear, _) => none
  | _ => v

theorem serve_value? {c : Cache α} (positive : 0 < c.capacity) (q : StoreRequest α)
    (run : Execution) :
    ((store α).serve c q).2.value? run =
      stored run (c.value? run) (q, ((store α).serve c q).1) := by
  cases q with
  | insert other v =>
    have leaving : (c.insert other v).1 = c.leaving other := by rw [insert_of_capacity_pos positive]
    change (c.insert other v).2.value? run = _
    rw [insert_value? positive, ← leaving]
    rfl
  | get other => exact get_value? c other run
  | evict other => exact evict_value? c other run
  | contains other | clear => rfl

theorem serveAll_value? {c : Cache α} (positive : 0 < c.capacity)
    (requests : List (StoreRequest α)) (run : Execution) :
    ((store α).serveAll c requests).2.value? run =
      (requests.zip ((store α).serveAll c requests).1).foldl (stored run) (c.value? run) := by
  induction requests generalizing c with
  | nil => rfl
  | cons q rest ih =>
    change ((store α).serveAll ((store α).serve c q).2 rest).2.value? run = _
    rw [ih ((serve_capacity c q).symm ▸ positive), serve_value? positive]
    rfl

/-- Whatever is asked of a cache, it answers as the list of its runs by last use, keeps the same and
never more than its capacity: of each run the value stored last, unless it had to leave since. -/
theorem exact_by_last_use (capacity : Nat) (requests : List (StoreRequest α)) :
    let served := (store α).serveAll (new capacity) requests
    let expected := (ByLastUse.store α).serveAll { capacity } requests
    served.1 = expected.1 ∧ served.2.size = expected.2.runs.length ∧ served.2.size ≤ capacity ∧
      ∀ run, served.2.value? run = expected.2.value? run ∧
        served.2.value? run =
          if capacity = 0 then none else (requests.zip served.1).foldl (stored run) none := by
  have start : (new capacity : Cache α).Shows { capacity } := ⟨rfl, [], .empty capacity, rfl⟩
  obtain ⟨replies, shows⟩ := Store.serveAll_preserves_alike Shows.serve start requests
  have same := serveAll_capacity (new capacity : Cache α) requests
  have fits := same ▸ shows.fits.size
  refine ⟨replies, shows.size_eq_length, fits, fun run => ⟨(shows.value?_eq run).symm, ?_⟩⟩
  split
  · next nothing => exact shows.fits.value?_of_capacity_zero (same.trans nothing) run
  · next some => exact serveAll_value? (Nat.pos_of_ne_zero some) requests run

/-- A failed look-up is no use, and a run that was looked up stays when another has to leave. -/
example :
    ((store Nat).serveAll (new 2) [.insert ⟨"w", "1"⟩ 1, .insert ⟨"w", "2"⟩ 2, .get ⟨"w", "1"⟩,
      .get ⟨"w", "3"⟩, .contains ⟨"w", "2"⟩, .insert ⟨"w", "3"⟩ 3]).1 =
    [.left none, .left none, .value (some 1), .value none, .there true,
      .left (some ⟨"w", "2"⟩)] := by
  decide

end Cache

end WorkflowReplay

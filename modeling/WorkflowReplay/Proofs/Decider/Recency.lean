import WorkflowReplay.Decider.Cache
import WorkflowReplay.Proofs.Tables

/-!
# Which run a full cache gives up

A cache knows nothing of the past but stamps.  Here the past is written down as the list of the
runs that were looked up or stored, the last one first, and the stamps are shown to say the same as
this list: of two runs that are kept, the one with the larger stamp was used since the last use of
the other.  So the run with the smallest stamp is the one that was not used for the longest time.
-/

set_option autoImplicit false

namespace WorkflowReplay

/-! ## The order of the last uses -/

/-- The run `b` was used since the last use of `a`; the last use stands first. -/
def UsedSince (uses : List Execution) (a b : Execution) : Prop := b ∈ uses.takeWhile (· ≠ a)

instance (uses : List Execution) (a b : Execution) : Decidable (UsedSince uses a b) :=
  inferInstanceAs (Decidable (b ∈ uses.takeWhile (· ≠ a)))

theorem usedSince_cons {run a b : Execution} {uses : List Execution} :
    UsedSince (run :: uses) a b ↔ run ≠ a ∧ (b = run ∨ UsedSince uses a b) := by
  unfold UsedSince
  rw [List.takeWhile_cons]
  by_cases same : run = a
  · simp [same]
  · simp [same]

theorem usedSince_total {uses : List Execution} {a b : Execution} (used : a ∈ uses)
    (other : a ≠ b) : UsedSince uses a b ∨ UsedSince uses b a := by
  induction uses with
  | nil => simp at used
  | cons run rest ih =>
    rw [usedSince_cons, usedSince_cons]
    by_cases first : run = a
    · exact .inr ⟨first ▸ other, .inl first.symm⟩
    · by_cases second : run = b
      · exact .inl ⟨first, .inl second.symm⟩
      · rcases ih ((List.mem_cons.mp used).resolve_left (Ne.symm first)) with since | since
        · exact .inl ⟨first, .inr since⟩
        · exact .inr ⟨second, .inr since⟩

namespace Cache

variable {α : Type}

def value? (c : Cache α) (run : Execution) : Option α :=
  (c.entries.get? run).map CacheEntry.value

theorem contains_eq (c : Cache α) (run : Execution) : c.contains run = (c.value? run).isSome := by
  simp [contains, Table.contains, value?]

/-! ## What is kept -/

theorem get_fst (c : Cache α) (run : Execution) : (c.get run).1 = c.value? run := by
  unfold get value?
  cases c.entries.get? run <;> rfl

@[simp] theorem get_capacity (c : Cache α) (run : Execution) :
    (c.get run).2.capacity = c.capacity := by
  unfold get
  split <;> rfl

@[simp] theorem get_value? (c : Cache α) (run other : Execution) :
    (c.get run).2.value? other = c.value? other := by
  unfold get value?
  cases found : c.entries.get? run with
  | none => rfl
  | some e =>
    simp only [Table.get?_insert]
    by_cases same : run = other
    · simp [← same, found]
    · simp [same]

@[simp] theorem evict_capacity (c : Cache α) (run : Execution) :
    (c.evict run).2.capacity = c.capacity := rfl

@[simp] theorem evict_value? (c : Cache α) (run other : Execution) :
    (c.evict run).2.value? other = if run = other then none else c.value? other := by
  simp only [evict, value?, Table.get?_erase]
  split <;> rfl

def leaving (c : Cache α) (run : Execution) : Option Execution :=
  if !c.contains run && c.capacity ≤ c.size then c.oldest? else none

theorem insert_of_capacity_pos {c : Cache α} (positive : 0 < c.capacity) (run : Execution) (v : α) :
    c.insert run v = (c.leaving run,
      { c with
        clock := c.clock + 1
        entries := (match c.leaving run with
          | some old => c.entries.erase old
          | none => c.entries).insert run { value := v, lastUsed := c.clock + 1 } }) := by
  rw [insert, if_neg (by omega)]
  rfl

theorem insert_of_capacity_zero {c : Cache α} (none : c.capacity = 0) (run : Execution) (v : α) :
    c.insert run v = (.none, c) := by
  rw [insert, if_pos none]

@[simp] theorem insert_capacity (c : Cache α) (run : Execution) (v : α) :
    (c.insert run v).2.capacity = c.capacity := by
  unfold insert
  split <;> rfl

theorem insert_value? {c : Cache α} (positive : 0 < c.capacity) (run other : Execution) (v : α) :
    (c.insert run v).2.value? other =
      if run = other then some v
      else if c.leaving run = some other then none else c.value? other := by
  rw [insert_of_capacity_pos positive]
  simp only [value?, Table.get?_insert]
  split
  · rfl
  · cases left : c.leaving run with
    | none => simp
    | some old =>
      simp only [Table.get?_erase, Option.some.injEq]
      split <;> rfl

/-! ## The size of a cache -/

structure Fits (c : Cache α) : Prop where
  nodup : c.entries.keys.Nodup
  size : c.size ≤ c.capacity

theorem Fits.empty (capacity : Nat) : (new capacity : Cache α).Fits :=
  ⟨List.nodup_nil, Nat.zero_le _⟩

theorem Fits.clear {c : Cache α} (_ : c.Fits) : c.clear.Fits := ⟨List.nodup_nil, Nat.zero_le _⟩

theorem get_size (c : Cache α) (run : Execution) : (c.get run).2.size = c.size := by
  unfold get
  cases found : c.entries.get? run with
  | none => rfl
  | some e =>
    have there : c.entries.contains run = true := by simp [Table.contains, found]
    simp only [size, Table.size_insert, there, if_true]

theorem Fits.get {c : Cache α} (fits : c.Fits) (run : Execution) : (c.get run).2.Fits := by
  refine ⟨?_, by rw [get_size, get_capacity]; exact fits.size⟩
  unfold Cache.get
  split
  · exact fits.nodup
  · exact Table.nodup_keys_insert fits.nodup run _

theorem Fits.evict {c : Cache α} (fits : c.Fits) (run : Execution) : (c.evict run).2.Fits :=
  ⟨Table.nodup_keys_erase fits.nodup run, Nat.le_trans (List.length_filter_le _ _) fits.size⟩

theorem Fits.value?_of_capacity_zero {c : Cache α} (fits : c.Fits) (none : c.capacity = 0)
    (run : Execution) :
    c.value? run = .none := by
  have empty : c.entries.entries = [] := by
    have size : c.entries.entries.length ≤ c.capacity := fits.size
    exact List.eq_nil_of_length_eq_zero (by omega)
  simp [value?, Table.get?, empty, Table.find]

/-! ## The oldest stamp -/

theorem foldl_older_is_least (rest : List (Execution × CacheEntry α))
    (first : Execution × CacheEntry α) :
    rest.foldl older first ∈ first :: rest ∧
      ∀ e ∈ first :: rest, (rest.foldl older first).2.lastUsed ≤ e.2.lastUsed := by
  induction rest generalizing first with
  | nil => simp
  | cons next rest ih =>
    obtain ⟨member, least⟩ := ih (older first next)
    have choice : older first next = first ∨ older first next = next := by
      unfold older
      split
      · exact .inr rfl
      · exact .inl rfl
    have bound : (older first next).2.lastUsed ≤ first.2.lastUsed ∧
        (older first next).2.lastUsed ≤ next.2.lastUsed := by
      unfold older
      split <;> omega
    rw [List.foldl_cons]
    refine ⟨?_, ?_⟩
    · rcases List.mem_cons.mp member with same | later
      · rw [same]
        rcases choice with eq | eq <;> simp [eq]
      · simp [later]
    · have leads := least (older first next) (by simp)
      intro e here
      rcases List.mem_cons.mp here with rfl | here
      · exact Nat.le_trans leads bound.1
      · rcases List.mem_cons.mp here with rfl | here
        · exact Nat.le_trans leads bound.2
        · exact least e (List.mem_cons_of_mem _ here)

theorem Fits.oldest?_eq {c : Cache α} (fits : c.Fits) {old : Execution}
    (oldest : c.oldest? = some old) :
    ∃ e, c.entries.get? old = some e ∧
      ∀ run e', c.entries.get? run = some e' → e.lastUsed ≤ e'.lastUsed := by
  unfold oldest? at oldest
  cases entries : c.entries.entries with
  | nil => simp [entries] at oldest
  | cons first rest =>
    simp only [entries, Option.some.injEq] at oldest
    obtain ⟨member, least⟩ := foldl_older_is_least rest first
    rw [← entries] at member least
    refine ⟨(rest.foldl older first).2, ?_, ?_⟩
    · exact Table.find_of_mem fits.nodup (oldest ▸ member)
    · intro run e' found
      exact least (run, e') (Table.mem_of_find found)

theorem oldest?_isSome {c : Cache α} (some : 0 < c.size) : c.oldest?.isSome = true := by
  unfold oldest?
  cases entries : c.entries.entries with
  | nil => simp [size, Table.size, entries] at some
  | cons first rest => rfl

theorem Fits.leaving_isSome {c : Cache α} (fits : c.Fits) (positive : 0 < c.capacity)
    (run : Execution) :
    (c.leaving run).isSome = true ↔ c.value? run = none ∧ c.size = c.capacity := by
  have size := fits.size
  unfold leaving
  rw [contains_eq]
  by_cases full : c.capacity ≤ c.size
  · have whole : c.size = c.capacity := by omega
    have some := oldest?_isSome (c := c) (by omega)
    cases c.value? run <;> simp [whole, some]
  · have space : c.size ≠ c.capacity := by omega
    simp [full, space]

theorem oldest?_of_leaving {c : Cache α} {run old : Execution} (leaves : c.leaving run = some old) :
    c.oldest? = some old := by
  unfold leaving at leaves
  split at leaves
  · exact leaves
  · simp at leaves

theorem Fits.insert {c : Cache α} (fits : c.Fits) (run : Execution) (v : α) :
    (c.insert run v).2.Fits := by
  rcases Nat.eq_zero_or_pos c.capacity with none | positive
  · rw [insert_of_capacity_zero none]
    exact fits
  · have leaves := fits.leaving_isSome positive run
    have size : c.entries.size ≤ c.capacity := fits.size
    rw [insert_of_capacity_pos positive]
    cases left : c.leaving run with
    | none =>
      refine ⟨Table.nodup_keys_insert fits.nodup run _, ?_⟩
      change (c.entries.insert run _).size ≤ c.capacity
      rw [Table.size_insert]
      split
      · exact size
      · next new =>
        have space : c.size ≠ c.capacity := by
          intro full
          have leaving := leaves.mpr ⟨by simpa [Table.contains, value?] using new, full⟩
          simp [left] at leaving
        unfold Cache.size at space
        omega
    | some old =>
      refine ⟨Table.nodup_keys_insert (Table.nodup_keys_erase fits.nodup old) run _, ?_⟩
      obtain ⟨e, found, -⟩ := fits.oldest?_eq (oldest?_of_leaving left)
      have smaller := Table.size_erase_lt (t := c.entries) (k := old)
        (by simp [Table.contains, found])
      change ((c.entries.erase old).insert run _).size ≤ c.capacity
      rw [Table.size_insert]
      split <;> omega

/-! ## Stamps and uses -/

/-- The stamps of a cache tell the order of the last uses. -/
structure Recent (uses : List Execution) (c : Cache α) : Prop where
  fits : c.Fits
  early : ∀ run e, c.entries.get? run = some e → run ∈ uses ∧ e.lastUsed ≤ c.clock
  later : ∀ a b x y, c.entries.get? a = some x → c.entries.get? b = some y →
    UsedSince uses a b → x.lastUsed < y.lastUsed

structure Touches (c : Cache α) (run : Execution) (c' : Cache α) : Prop where
  fits : c'.Fits
  clock : c.clock ≤ c'.clock
  fresh : ∀ e, c'.entries.get? run = some e → c.clock < e.lastUsed ∧ e.lastUsed ≤ c'.clock
  others : ∀ other e, other ≠ run → c'.entries.get? other = some e →
    c.entries.get? other = some e

theorem Touches.trans {c c' c'' : Cache α} {run : Execution} (first : c.Touches run c')
    (second : c'.Touches run c'') : c.Touches run c'' := by
  refine ⟨second.fits, Nat.le_trans first.clock second.clock, ?_, ?_⟩
  · intro e found
    obtain ⟨after, before⟩ := second.fresh e found
    exact ⟨Nat.lt_of_le_of_lt first.clock after, before⟩
  · intro other e different found
    exact first.others other e different (second.others other e different found)

theorem Fits.touches_get {c : Cache α} (fits : c.Fits) (run : Execution) :
    c.Touches run (c.get run).2 := by
  have fits' := fits.get run
  unfold Cache.get at fits' ⊢
  cases found : c.entries.get? run with
  | none =>
    simp only [found] at fits' ⊢
    refine ⟨fits', Nat.le_succ _, ?_, fun _ _ _ there => there⟩
    intro e there
    simp [found] at there
  | some old =>
    simp only [found] at fits' ⊢
    refine ⟨fits', Nat.le_succ _, ?_, ?_⟩
    · intro e there
      simp only [Table.get?_insert, if_true, Option.some.injEq] at there
      subst there
      exact ⟨Nat.lt_succ_self _, Nat.le_refl _⟩
    · intro other e different there
      simpa [Ne.symm different] using there

theorem Fits.touches_evict {c : Cache α} (fits : c.Fits) (run : Execution) :
    c.Touches run (c.evict run).2 := by
  refine ⟨fits.evict run, Nat.le_refl _, ?_, ?_⟩
  · intro e there
    simp [Cache.evict] at there
  · intro other e different there
    simpa [Cache.evict, Ne.symm different] using there

theorem Fits.touches_insert {c : Cache α} (fits : c.Fits) (run : Execution) (v : α) :
    c.Touches run (c.insert run v).2 := by
  have fits' := fits.insert run v
  rcases Nat.eq_zero_or_pos c.capacity with none | positive
  · rw [insert_of_capacity_zero none] at fits' ⊢
    refine ⟨fits', Nat.le_refl _, ?_, fun _ _ _ there => there⟩
    intro e there
    have nothing := fits.value?_of_capacity_zero none run
    simp [value?, there] at nothing
  · rw [insert_of_capacity_pos positive] at fits' ⊢
    refine ⟨fits', Nat.le_succ _, ?_, ?_⟩
    · intro e there
      simp only [Table.get?_insert, if_true, Option.some.injEq] at there
      subst there
      exact ⟨Nat.lt_succ_self _, Nat.le_refl _⟩
    · intro other e different there
      simp only [Table.get?_insert, Ne.symm different, if_false] at there
      cases left : c.leaving run with
      | none => simpa [left] using there
      | some old =>
        simp only [left, Table.get?_erase] at there
        split at there
        · simp at there
        · exact there

theorem Recent.of_touches {uses : List Execution} {c c' : Cache α} {run : Execution}
    (recent : Recent uses c) (touches : c.Touches run c') : Recent (run :: uses) c' := by
  refine ⟨touches.fits, ?_, ?_⟩
  · intro other e found
    by_cases same : other = run
    · subst same
      exact ⟨by simp, (touches.fresh e found).2⟩
    · obtain ⟨used, early⟩ := recent.early other e (touches.others other e same found)
      exact ⟨List.mem_cons_of_mem _ used, Nat.le_trans early touches.clock⟩
  · intro a b x y foundA foundB since
    obtain ⟨first, last⟩ := usedSince_cons.mp since
    have before := touches.others a x (Ne.symm first) foundA
    by_cases same : b = run
    · -- The stamp of this use is later than the clock was before, and so than every other stamp.
      subst same
      exact Nat.lt_of_le_of_lt (recent.early a x before).2 (touches.fresh y foundB).1
    · exact recent.later a b x y before (touches.others b y same foundB) (last.resolve_left same)

theorem Recent.of_fewer_entries {uses : List Execution} {c c' : Cache α} (recent : Recent uses c)
    (fits : c'.Fits) (clock : c'.clock = c.clock)
    (kept : ∀ run e, c'.entries.get? run = some e → c.entries.get? run = some e) :
    Recent uses c' := by
  refine ⟨fits, ?_, ?_⟩
  · intro run e found
    rw [clock]
    exact recent.early run e (kept run e found)
  · intro a b x y foundA foundB
    exact recent.later a b x y (kept a x foundA) (kept b y foundB)

theorem Recent.evict {uses : List Execution} {c : Cache α} (recent : Recent uses c)
    (run : Execution) : Recent uses (c.evict run).2 := by
  refine recent.of_fewer_entries (recent.fits.evict run) rfl ?_
  intro other e found
  simp only [Cache.evict, Table.get?_erase] at found
  split at found
  · simp at found
  · exact found

theorem Recent.clear {uses : List Execution} {c : Cache α} (recent : Recent uses c) :
    Recent uses c.clear :=
  recent.of_fewer_entries recent.fits.clear rfl (by simp [Cache.clear])

theorem Recent.empty (capacity : Nat) : Recent [] (new capacity : Cache α) :=
  ⟨.empty capacity, by simp [new], by simp [new]⟩

def IsOldest (uses : List Execution) (c : Cache α) (old : Execution) : Prop :=
  (c.value? old).isSome = true ∧
    ∀ run, (c.value? run).isSome = true → run ≠ old → UsedSince uses old run

/-- The run that leaves a cache is the one that was not used for the longest time. -/
theorem Recent.isOldest_of_leaving {uses : List Execution} {c : Cache α} (recent : Recent uses c)
    {run old : Execution} (leaves : c.leaving run = some old) : c.IsOldest uses old := by
  obtain ⟨e, found, least⟩ := recent.fits.oldest?_eq (oldest?_of_leaving leaves)
  refine ⟨by simp [value?, found], ?_⟩
  intro other kept different
  obtain ⟨e', found'⟩ := Option.isSome_iff_exists.mp (by simpa [value?] using kept)
  rcases usedSince_total (recent.early old e found).1 (Ne.symm different) with since | since
  · exact since
  · have earlier := recent.later other old e' e found' found since
    have oldest := least other e' found'
    omega

end Cache

end WorkflowReplay

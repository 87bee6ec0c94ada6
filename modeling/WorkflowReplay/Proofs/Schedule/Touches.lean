import Mathlib.Data.List.Induction
import WorkflowReplay.Proofs.Logs
import WorkflowReplay.Proofs.Schedule.Placeholders

/-!
# What a placeholder remembers

All that can happen to a board is a list of touches, and what a placeholder answers is a matter of
the touches before: it exists from the moment it is made until it is dropped or gives its value
away; it takes the value that it is first given while it exists, and no other; and it gives that
value away once.
-/

set_option autoImplicit false

namespace WorkflowReplay.Schedule

inductive Awaited where
  | value (placeholder : PlaceholderId)
  | output (task : TaskId)
  deriving DecidableEq

inductive Touch (V O : Type) where
  | make
  | resolve (id : PlaceholderId) (v : V)
  | drop (id : PlaceholderId)
  /-- A task looks at something, and becomes its waiter if there is nothing to take. -/
  | poll (me : TaskId) (key : Awaited)
  | takeOutput (task : TaskId)
  | wake (task : TaskId)
  | newTask
  | next
  | finish (task : TaskId) (o : O)

variable {V O : Type}

namespace Board

def touch (b : Board V O) : Touch V O → Board V O
  | .make => b.make.2
  | .resolve id v => (b.resolve id v).2
  | .drop id => b.drop id
  | .poll me (.value id) => { b with waiting := (b.waiting.look me id).2 }
  | .poll me (.output task) => { b with waiting := (b.waiting.lookOutput me task).2 }
  | .takeOutput task => (b.takeOutput task).2
  | .wake task => b.wake task
  | .newTask => b.newTask.2
  | .next => { b with ready := b.ready.tail }
  | .finish task o => b.finish task o

def after (ts : List (Touch V O)) : Board V O := ts.foldl touch {}

theorem after_concat (ts : List (Touch V O)) (t : Touch V O) :
    after (ts ++ [t]) = (after ts).touch t := by
  simp [after, List.foldl_append]

theorem after_append (ts later : List (Touch V O)) :
    after (ts ++ later) = later.foldl touch (after ts) := List.foldl_append

theorem mem_wake (b : Board V O) (id task : TaskId) :
    task ∈ (b.wake id).ready ↔ task = id ∨ task ∈ b.ready := by
  unfold wake
  split
  · next queued =>
    have member : id ∈ b.ready := List.contains_iff_mem.mp queued
    constructor
    · exact .inr
    · rintro (rfl | old)
      · exact member
      · exact old
  · simp [or_comm]

/-! ## What a touch does to a placeholder -/

def slot? (b : Board V O) (p : PlaceholderId) : Option (Slot V) := b.waiting.placeholders.get? p

def Concerns (b : Board V O) (p : PlaceholderId) : Touch V O → Prop
  | .make => b.waiting.make.1 = p
  | .resolve id _ => id = p
  | .drop id => id = p
  | .poll _ key => key = .value p
  | _ => False

theorem slot?_other {b : Board V O} {p : PlaceholderId} {t : Touch V O}
    (other : ¬ b.Concerns p t) : (b.touch t).slot? p = b.slot? p := by
  cases t with
  | make =>
    have apart : (⟨b.waiting.nextPlaceholder⟩ : PlaceholderId) ≠ p := other
    simp [slot?, touch, make, Waiting.make, apart]
  | resolve id v =>
    have apart : id ≠ p := other
    simp [slot?, touch, resolve_placeholders, apart]
  | drop id =>
    have apart : id ≠ p := other
    simp [slot?, touch, drop, Waiting.drop, apart]
  | poll me key =>
    cases key with
    | value id =>
      have apart : id ≠ p := fun same => other (congrArg Awaited.value same)
      simp only [slot?, touch, Waiting.look]
      split <;> simp [apart]
    | output task =>
      simp only [slot?, touch, Waiting.lookOutput]
      split <;> rfl
  | takeOutput task => rfl
  | wake task => simp [slot?, touch]
  | newTask => simp [slot?, touch, newTask]
  | next => rfl
  | finish task o => simp [slot?, touch, finish, Waiting.finish]

theorem touch_nextPlaceholder (b : Board V O) (t : Touch V O) :
    (b.touch t).waiting.nextPlaceholder =
      match t with
      | .make => b.waiting.nextPlaceholder + 1
      | _ => b.waiting.nextPlaceholder := by
  cases t with
  | resolve id v => exact resolve_next b id v
  | poll me key =>
    cases key with
    | value id =>
      simp only [touch, Waiting.look]
      split <;> rfl
    | output task =>
      simp only [touch, Waiting.lookOutput]
      split <;> rfl
  | wake task => simp [touch]
  | newTask => simp [touch, newTask]
  | finish task o => simp [touch, finish, Waiting.finish]
  | _ => rfl

theorem slot?_make {b : Board V O} {p : PlaceholderId} (made : b.waiting.make.1 = p) :
    (b.touch .make).slot? p = some {} := by
  subst made
  simp [slot?, touch, make, Waiting.make]

theorem slot?_drop (b : Board V O) (p : PlaceholderId) : (b.touch (.drop p)).slot? p = none := by
  simp [slot?, touch, drop, Waiting.drop]

theorem slot?_resolve (b : Board V O) (p : PlaceholderId) (v : V) :
    (b.touch (.resolve p v)).slot? p =
      if (b.resolve p v).1 = true then some { value := some v } else b.slot? p := by
  simp [slot?, touch, resolve_placeholders]

/-- A poll takes the value away, or leaves the task as the waiter. -/
theorem slot?_poll (b : Board V O) (me : TaskId) (p : PlaceholderId) :
    (b.touch (.poll me (.value p))).slot? p =
      match b.slot? p with
      | some ⟨none, _⟩ => some { waiter := some me }
      | _ => none := by
  unfold slot?
  simp only [touch, Waiting.look]
  split
  · next gone => simp [gone]
  · next v waiter given => simp [given]
  · next waiter waits => simp [waits]

theorem accepts_iff_slot (b : Board V O) (p : PlaceholderId) (v : V) :
    (b.resolve p v).1 = true ↔ ∃ waiter, b.slot? p = some { waiter } := resolve_taken_iff b p v

theorem yields_iff_slot (b : Board V O) (me : TaskId) (p : PlaceholderId) (v : V) :
    (b.waiting.look me p).1 = some v ↔ ∃ waiter, b.slot? p = some { value := some v, waiter } := by
  unfold slot? Waiting.look
  split
  · next gone => simp [gone]
  · next v' waiter given => simp [given]
  · next waiter waits => simp [waits]

theorem holds_iff_slot (b : Board V O) (p : PlaceholderId) :
    b.waiting.holds p = true ↔ ∃ slot, b.slot? p = some slot := by
  simp [Waiting.holds, Table.contains, slot?, Option.isSome_iff_exists]

/-! ## What happened -/

/-- Among these touches of an empty board was one like this. -/
def Happened (P : Board V O → Touch V O → Prop) (ts : List (Touch V O)) : Prop :=
  ∃ past t later, ts = past ++ t :: later ∧ P (after past) t

theorem happened_nil (P : Board V O → Touch V O → Prop) : ¬ Happened P [] := by
  rintro ⟨past, t, later, same, -⟩
  simp at same

theorem happened_concat (P : Board V O → Touch V O → Prop) (ts : List (Touch V O))
    (t : Touch V O) : Happened P (ts ++ [t]) ↔ Happened P ts ∨ P (after ts) t :=
  exists_split_concat

variable (ts : List (Touch V O)) (p : PlaceholderId)

def Made : Prop := Happened (fun b t => t = .make ∧ b.waiting.make.1 = p) ts

/-- Someone tried to give the placeholder a value while it existed. -/
def Offered : Prop := Happened (fun b t => ∃ v, t = .resolve p v ∧ b.waiting.holds p = true) ts

def Took (v : V) : Prop := Happened (fun b t => t = .resolve p v ∧ (b.resolve p v).1 = true) ts

/-- The placeholder gave its value away, or was dropped. -/
def Left : Prop :=
  Happened (fun b t => t = .drop p ∧ b.waiting.holds p = true ∨
    ∃ me v, t = .poll me (.value p) ∧ (b.waiting.look me p).1 = some v) ts

inductive Stage : Option (Slot V) → Prop where
  | unmade (made : ¬ Made ts p) (here : ¬ Left ts p) (free : ¬ Offered ts p)
      (empty : ∀ v, ¬ Took ts p v) : Stage none
  | waits (waiter : Option TaskId) (made : Made ts p) (here : ¬ Left ts p) (free : ¬ Offered ts p)
      (empty : ∀ v, ¬ Took ts p v) : Stage (some { waiter })
  | given (v : V) (made : Made ts p) (here : ¬ Left ts p) (offered : Offered ts p)
      (took : ∀ v', Took ts p v' ↔ v' = v) : Stage (some { value := some v })
  | gone (made : Made ts p) (left : Left ts p) : Stage none

variable {ts p}

theorem Made.lt (made : Made ts p) : p.number < (after ts).waiting.nextPlaceholder := by
  induction ts using List.reverseRecOn with
  | nil => exact absurd made (happened_nil _)
  | append_singleton ts t ih =>
    rw [after_concat, touch_nextPlaceholder]
    rcases (happened_concat _ ts t).mp made with old | ⟨rfl, rfl⟩
    · have := ih old
      cases t
      all_goals
        simp only
        omega
    · exact Nat.lt_succ_self _

theorem Stage.keep {slot : Option (Slot V)} (stage : Stage ts p slot) {t : Touch V O}
    (other : ¬ (after ts).Concerns p t) : Stage (ts ++ [t]) p slot := by
  have made : Made (ts ++ [t]) p ↔ Made ts p := by
    refine (happened_concat _ ts t).trans (or_iff_left ?_)
    rintro ⟨rfl, same⟩
    exact other same
  have left : Left (ts ++ [t]) p ↔ Left ts p := by
    refine (happened_concat _ ts t).trans (or_iff_left ?_)
    rintro (⟨rfl, -⟩ | ⟨me, v, rfl, -⟩)
    · exact other rfl
    · exact other rfl
  have offered : Offered (ts ++ [t]) p ↔ Offered ts p := by
    refine (happened_concat _ ts t).trans (or_iff_left ?_)
    rintro ⟨v, rfl, -⟩
    exact other rfl
  have took (v : V) : Took (ts ++ [t]) p v ↔ Took ts p v := by
    refine (happened_concat _ ts t).trans (or_iff_left ?_)
    rintro ⟨rfl, -⟩
    exact other rfl
  cases stage with
  | unmade unmade here free empty =>
    exact .unmade (by rwa [made]) (by rwa [left]) (by rwa [offered]) (by simpa [took])
  | waits waiter was here free empty =>
    exact .waits waiter (made.mpr was) (by rwa [left]) (by rwa [offered]) (by simpa [took])
  | given v was here offer took' =>
    exact .given v (made.mpr was) (by rwa [left]) (offered.mpr offer) (by simpa [took])
  | gone was gone => exact .gone (made.mpr was) (left.mpr gone)

theorem Stage.make {slot : Option (Slot V)} (stage : Stage ts p slot)
    (made : (after ts).waiting.make.1 = p) : Stage (ts ++ [.make]) p (some {}) := by
  have fresh : ¬ Made ts p := by
    intro old
    have := old.lt
    subst made
    exact Nat.lt_irrefl _ this
  cases stage with
  | unmade _ here free empty =>
    refine .waits none ?_ ?_ ?_ ?_
    · exact (happened_concat _ _ _).mpr (.inr ⟨rfl, made⟩)
    · simpa [Left, happened_concat] using here
    · simpa [Offered, happened_concat] using free
    · simpa [Took, happened_concat] using empty
  | waits waiter old => exact absurd old fresh
  | given v old => exact absurd old fresh
  | gone old => exact absurd old fresh

theorem Stage.drop {slot : Option (Slot V)} (stage : Stage ts p slot)
    (now : (after ts).slot? p = slot) : Stage (ts ++ [.drop p]) p none := by
  have holds := holds_iff_slot (after ts) p
  have made : Made (ts ++ [.drop p]) p ↔ Made ts p := by simp [Made, happened_concat]
  have left : Left (ts ++ [.drop p]) p ↔ Left ts p ∨ ∃ slot, (after ts).slot? p = some slot := by
    simp [Left, happened_concat, holds]
  cases stage with
  | unmade unmade here free empty =>
    refine .unmade (by rwa [made]) (by simpa [left, now] using here) ?_ ?_
    · simpa [Offered, happened_concat] using free
    · simpa [Took, happened_concat] using empty
  | waits waiter was => exact .gone (made.mpr was) (left.mpr (.inr ⟨_, now⟩))
  | given v was => exact .gone (made.mpr was) (left.mpr (.inr ⟨_, now⟩))
  | gone was gone => exact .gone (made.mpr was) (left.mpr (.inl gone))

theorem Stage.poll {slot : Option (Slot V)} (stage : Stage ts p slot)
    (now : (after ts).slot? p = slot) (me : TaskId) :
    Stage (ts ++ [.poll me (.value p)]) p ((after ts).touch (.poll me (.value p)) |>.slot? p) := by
  have made : Made (ts ++ [.poll me (.value p)]) p ↔ Made ts p := by
    simp [Made, happened_concat]
  have offered : Offered (ts ++ [.poll me (.value p)]) p ↔ Offered ts p := by
    simp [Offered, happened_concat]
  have took (v : V) : Took (ts ++ [.poll me (.value p)]) p v ↔ Took ts p v := by
    simp [Took, happened_concat]
  have left : Left (ts ++ [.poll me (.value p)]) p ↔
      Left ts p ∨ ∃ v waiter, (after ts).slot? p = some { value := some v, waiter } := by
    simp [Left, happened_concat, yields_iff_slot]
  rw [slot?_poll, now]
  cases stage with
  | unmade unmade here free empty =>
    exact .unmade (by rwa [made]) (by simpa [left, now] using here) (by rwa [offered])
      (by simpa [took])
  | waits waiter was here free empty =>
    exact .waits (some me) (made.mpr was) (by simpa [left, now] using here) (by rwa [offered])
      (by simpa [took])
  | given v was => exact .gone (made.mpr was) (left.mpr (.inr ⟨v, _, now⟩))
  | gone was gone => exact .gone (made.mpr was) (left.mpr (.inl gone))

theorem Stage.resolve {slot : Option (Slot V)} (stage : Stage ts p slot)
    (now : (after ts).slot? p = slot) (v : V) :
    Stage (ts ++ [.resolve p v]) p ((after ts).touch (.resolve p v) |>.slot? p) := by
  have made : Made (ts ++ [.resolve p v]) p ↔ Made ts p := by simp [Made, happened_concat]
  have left : Left (ts ++ [.resolve p v]) p ↔ Left ts p := by simp [Left, happened_concat]
  have offered : Offered (ts ++ [.resolve p v]) p ↔
      Offered ts p ∨ ∃ slot, (after ts).slot? p = some slot := by
    simp [Offered, happened_concat, holds_iff_slot]
  have took (v' : V) : Took (ts ++ [.resolve p v]) p v' ↔
      Took ts p v' ∨ v = v' ∧ ∃ waiter, (after ts).slot? p = some { waiter } := by
    simp [Took, happened_concat, accepts_iff_slot]
  have accepts := accepts_iff_slot (after ts) p v
  rw [slot?_resolve, now]
  cases stage with
  | unmade unmade here free empty =>
    rw [if_neg (by simp [accepts, now])]
    exact .unmade (by rwa [made]) (by rwa [left]) (by simpa [offered, now] using free)
      (by simpa [took, now] using empty)
  | waits waiter was here free empty =>
    rw [if_pos (accepts.mpr ⟨waiter, now⟩)]
    refine .given v (made.mpr was) (by rwa [left]) (offered.mpr (.inr ⟨_, now⟩)) ?_
    intro v'
    simp [took, empty v', now, eq_comm]
  | given v' was here offer took' =>
    rw [if_neg (by simp [accepts, now])]
    exact .given v' (made.mpr was) (by rwa [left]) (offered.mpr (.inl offer))
      (by simpa [took, now] using took')
  | gone was gone =>
    rw [if_neg (by simp [accepts, now])]
    exact .gone (made.mpr was) (left.mpr gone)

theorem stage_of_log (ts : List (Touch V O)) (p : PlaceholderId) :
    Stage ts p ((after ts).slot? p) := by
  induction ts using List.reverseRecOn with
  | nil =>
    exact .unmade (happened_nil _) (happened_nil _) (happened_nil _) fun _ => happened_nil _
  | append_singleton ts t ih =>
    rw [after_concat]
    by_cases concerns : (after ts).Concerns p t
    · cases t with
      | make =>
        rw [slot?_make concerns]
        exact ih.make concerns
      | resolve id v =>
        obtain rfl : id = p := concerns
        exact ih.resolve rfl v
      | drop id =>
        obtain rfl : id = p := concerns
        rw [slot?_drop]
        exact ih.drop rfl
      | poll me key =>
        obtain rfl : key = .value p := concerns
        exact ih.poll rfl me
      | _ => exact concerns.elim
    · rw [slot?_other concerns]
      exact ih.keep concerns

/-! ## What a placeholder answers -/

variable (ts p)

/-- A placeholder exists from the moment it is made until it is dropped or gives its value away. -/
theorem holds_iff : (after ts).waiting.holds p = true ↔ Made ts p ∧ ¬ Left ts p := by
  have stage := stage_of_log ts p
  rw [holds_iff_slot]
  generalize (after ts).slot? p = slot at stage
  cases stage with
  | unmade made => simp [made]
  | waits waiter made here => simp [made, here]
  | given v made here => simp [made, here]
  | gone made left => simp [made, left]

/-- A value is taken if the placeholder exists and was offered none yet. -/
theorem accepts_iff (v : V) :
    ((after ts).resolve p v).1 = true ↔
      (after ts).waiting.holds p = true ∧ ¬ Offered ts p := by
  have stage := stage_of_log ts p
  rw [accepts_iff_slot, holds_iff_slot]
  generalize (after ts).slot? p = slot at stage
  cases stage with
  | unmade => simp
  | waits waiter _ _ free => simp [free]
  | given v _ _ offered => simp [offered]
  | gone => simp

theorem yields_iff (me : TaskId) (v : V) :
    ((after ts).waiting.look me p).1 = some v ↔
      (after ts).waiting.holds p = true ∧ Took ts p v := by
  have stage := stage_of_log ts p
  rw [yields_iff_slot, holds_iff_slot]
  generalize (after ts).slot? p = slot at stage
  cases stage with
  | unmade => simp
  | waits waiter _ _ _ empty => simp [empty]
  | given v' _ _ _ took => simp [took, eq_comm]
  | gone => simp

variable {ts p}

theorem Took.offered {v : V} (took : Took ts p v) : Offered ts p := by
  obtain ⟨past, t, later, same, rfl, accepted⟩ := took
  exact ⟨past, _, later, same, v, rfl, ((accepts_iff past p v).mp accepted).1⟩

theorem Took.unique {v v' : V} (first : Took ts p v) (second : Took ts p v') : v = v' := by
  induction ts using List.reverseRecOn with
  | nil => exact absurd first (happened_nil _)
  | append_singleton ts t ih =>
    rcases (happened_concat _ ts t).mp first with old | ⟨same, now⟩
    · rcases (happened_concat _ ts t).mp second with old' | ⟨-, now⟩
      · exact ih old old'
      · exact absurd (Took.offered old) ((accepts_iff ts p v').mp now).2
    · rcases (happened_concat _ ts t).mp second with old | ⟨same', -⟩
      · exact absurd (Took.offered old) ((accepts_iff ts p v).mp now).2
      · cases same.symm.trans same'
        rfl

/-- What a placeholder answers after these touches: it takes a value once, from the first who offers
one while it exists, which queues the waiter, and it gives this value away once. -/
structure AssignedOnce (ts : List (Touch V O)) (p : PlaceholderId) : Prop where
  present : (after ts).waiting.holds p = true ↔ Made ts p ∧ ¬ Left ts p
  accepts : ∀ v, ((after ts).resolve p v).1 = true ↔
    (after ts).waiting.holds p = true ∧ ¬ Offered ts p
  wakes : ∀ v task, (after ts).slot? p = some { waiter := some task } →
    ((after ts).resolve p v).1 = true ∧ task ∈ ((after ts).resolve p v).2.ready
  once : ∀ v v', Took ts p v → Took ts p v' → v = v'
  refuses : ∀ v v', Took ts p v → ((after ts).resolve p v').1 = false
  yields : ∀ me v, ((after ts).waiting.look me p).1 = some v ↔
    (after ts).waiting.holds p = true ∧ Took ts p v

theorem assignedOnce (ts : List (Touch V O)) (p : PlaceholderId) : AssignedOnce ts p where
  present := holds_iff ts p
  accepts := accepts_iff ts p
  wakes v task waits := by
    refine ⟨(accepts_iff_slot _ p v).mpr ⟨_, waits⟩, ?_⟩
    have found : (after ts).waiting.placeholders.get? p = some { waiter := some task } := waits
    simp [resolve, Waiting.resolve?, found, wakeWaiter, mem_wake]
  once _ _ := Took.unique
  refuses v v' took := by
    by_contra accepted
    exact ((accepts_iff ts p v').mp (by simpa using accepted)).2 took.offered
  yields := yields_iff ts p

end Board

end WorkflowReplay.Schedule

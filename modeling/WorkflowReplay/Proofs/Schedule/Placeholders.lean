import WorkflowReplay.Schedule.Board

/-!
# Open placeholders

A placeholder is open while it can still be given a value: it was made, and neither given a value
nor dropped since.  Every operation of a board is described by the placeholders that are open after
it, and only `make` opens one.
-/

set_option autoImplicit false

namespace WorkflowReplay.Schedule

variable {V O : Type}

namespace Waiting

/-- The placeholder was made, has no value and was not dropped. -/
def IsOpen (w : Waiting V O) (id : PlaceholderId) : Prop :=
  ∃ waiter, w.placeholders.get? id = some { waiter }

instance (w : Waiting V O) (id : PlaceholderId) : Decidable (w.IsOpen id) :=
  match found : w.placeholders.get? id with
  | some ⟨none, waiter⟩ => .isTrue ⟨waiter, found⟩
  | some ⟨some _, _⟩ => .isFalse fun ⟨_, found'⟩ => by simp [found] at found'
  | none => .isFalse fun ⟨_, found'⟩ => by simp [found] at found'

@[simp] theorem isOpen_make (w : Waiting V O) (id : PlaceholderId) :
    w.make.2.IsOpen id ↔ id = w.make.1 ∨ w.IsOpen id := by
  simp only [IsOpen, make, Table.get?_insert]
  constructor
  · rintro ⟨waiter, found⟩
    split at found
    · next same => exact .inl same.symm
    · exact .inr ⟨waiter, found⟩
  · rintro (rfl | ⟨waiter, found⟩)
    · exact ⟨none, by simp⟩
    · by_cases same : (⟨w.nextPlaceholder⟩ : PlaceholderId) = id
      · exact ⟨none, by simp [same]⟩
      · exact ⟨waiter, by simp [same, found]⟩

@[simp] theorem isOpen_drop (w : Waiting V O) (id id' : PlaceholderId) :
    (w.drop id).IsOpen id' ↔ id ≠ id' ∧ w.IsOpen id' := by
  simp only [IsOpen, drop, Table.get?_erase]
  by_cases same : id = id' <;> simp [same]

@[simp] theorem isOpen_look (w : Waiting V O) (me : TaskId) (id id' : PlaceholderId) :
    (w.look me id).2.IsOpen id' ↔ w.IsOpen id' := by
  unfold look
  split
  · rfl
  · next found =>
    simp only [IsOpen, Table.get?_erase]
    by_cases same : id = id'
    · subst same
      simp [found]
    · simp [same]
  · next found =>
    simp only [IsOpen, Table.get?_insert]
    by_cases same : id = id'
    · subst same
      simp [found]
    · simp [same]

theorem outputSlot_insert (w : Waiting V O) (id task : TaskId) (slot : Slot O) :
    { w with outputs := w.outputs.insert id slot }.outputSlot task =
      if id = task then slot else w.outputSlot task := by
  simp only [outputSlot, Table.getD, Table.get?_insert]
  split <;> rfl

theorem resolve?_eq {w w' : Waiting V O} {id : PlaceholderId} {v : V} {waiter : Option TaskId}
    (taken : w.resolve? id v = some (waiter, w')) :
    w.IsOpen id ∧ w' = { w with placeholders := w.placeholders.insert id { value := some v } } := by
  unfold resolve? at taken
  split at taken
  · next found =>
    cases taken
    exact ⟨⟨_, found⟩, rfl⟩
  · simp at taken

theorem resolve?_eq_none {w : Waiting V O} {id : PlaceholderId} {v : V}
    (refused : w.resolve? id v = none) : ¬ w.IsOpen id := by
  rintro ⟨waiter, found⟩
  simp [resolve?, found] at refused

theorem resolve?_closed {w : Waiting V O} {id : PlaceholderId} (closed : ¬ w.IsOpen id) (v : V) :
    w.resolve? id v = none := by
  unfold resolve?
  split
  · next waiter found => exact absurd ⟨waiter, found⟩ closed
  · rfl

@[simp] theorem isOpen_finish (w : Waiting V O) (task : TaskId) (o : O) (id : PlaceholderId) :
    (w.finish task o).2.IsOpen id ↔ w.IsOpen id := Iff.rfl

@[simp] theorem isOpen_takeOutput (w : Waiting V O) (task : TaskId) (id : PlaceholderId) :
    (w.takeOutput task).2.IsOpen id ↔ w.IsOpen id := Iff.rfl

@[simp] theorem isOpen_lookOutput (w : Waiting V O) (me task : TaskId) (id : PlaceholderId) :
    (w.lookOutput me task).2.IsOpen id ↔ w.IsOpen id := by
  unfold lookOutput
  simp only
  split <;> rfl

/-! ## What a placeholder holds -/

/-- What a placeholder holds, if it is there: nothing yet, or its value. -/
def content? (w : Waiting V O) (id : PlaceholderId) : Option (Option V) :=
  (w.placeholders.get? id).map Slot.value

theorem isOpen_iff_content (w : Waiting V O) (id : PlaceholderId) :
    w.IsOpen id ↔ w.content? id = some none := by
  simp only [IsOpen, content?, Option.map_eq_some_iff]
  constructor
  · rintro ⟨waiter, found⟩
    exact ⟨_, found, rfl⟩
  · rintro ⟨⟨value, waiter⟩, found, rfl⟩
    exact ⟨waiter, found⟩

@[simp] theorem content?_make (w : Waiting V O) (id : PlaceholderId) :
    w.make.2.content? id = if w.make.1 = id then some none else w.content? id := by
  simp only [content?, make, Table.get?_insert]
  by_cases same : (⟨w.nextPlaceholder⟩ : PlaceholderId) = id <;> simp [same]

@[simp] theorem content?_drop (w : Waiting V O) (id id' : PlaceholderId) :
    (w.drop id).content? id' = if id = id' then none else w.content? id' := by
  simp only [content?, drop, Table.get?_erase]
  by_cases same : id = id' <;> simp [same]

theorem look_next (w : Waiting V O) (me : TaskId) (id : PlaceholderId) :
    (w.look me id).2.nextPlaceholder = w.nextPlaceholder := by
  unfold look
  split <;> rfl

theorem look_value (w : Waiting V O) (me : TaskId) (id : PlaceholderId) :
    (w.look me id).1 = (w.content? id).join := by
  unfold look content?
  split <;> next found => simp [found]

theorem content?_look (w : Waiting V O) (me : TaskId) (id id' : PlaceholderId) :
    (w.look me id).2.content? id' =
      if id = id' ∧ (w.look me id).1.isSome = true then none else w.content? id' := by
  unfold look content?
  split
  · simp
  · by_cases same : id = id' <;> simp [same]
  · next waits =>
    by_cases same : id = id'
    · subst same
      simp [waits]
    · simp [same]

theorem lookOutput_next (w : Waiting V O) (me task : TaskId) :
    (w.lookOutput me task).2.nextPlaceholder = w.nextPlaceholder := by
  unfold lookOutput
  simp only
  split <;> rfl

@[simp] theorem content?_lookOutput (w : Waiting V O) (me task : TaskId) (id : PlaceholderId) :
    (w.lookOutput me task).2.content? id = w.content? id := by
  unfold lookOutput
  simp only
  split <;> rfl

end Waiting

namespace Board

@[simp] theorem wake_waiting (b : Board V O) (task : TaskId) :
    (b.wake task).waiting = b.waiting := by
  unfold wake
  split <;> rfl

@[simp] theorem wakeWaiter_waiting (b : Board V O) (waiter : Option TaskId) :
    (b.wakeWaiter waiter).waiting = b.waiting := by
  cases waiter with
  | none => rfl
  | some task => exact wake_waiting b task

theorem resolve_placeholders (b : Board V O) (id id' : PlaceholderId) (v : V) :
    (b.resolve id v).2.waiting.placeholders.get? id' =
      if id = id' ∧ (b.resolve id v).1 = true then some { value := some v }
      else b.waiting.placeholders.get? id' := by
  unfold resolve
  split
  · next waiter waiting taken =>
    obtain ⟨-, rfl⟩ := Waiting.resolve?_eq taken
    simp
  · simp

theorem resolve_taken_iff (b : Board V O) (id : PlaceholderId) (v : V) :
    (b.resolve id v).1 = true ↔ b.waiting.IsOpen id := by
  unfold resolve
  split
  · next waiter waiting taken => simp [(Waiting.resolve?_eq taken).1]
  · next refused => simp [Waiting.resolve?_eq_none refused]

@[simp] theorem isOpen_resolve (b : Board V O) (id id' : PlaceholderId) (v : V) :
    (b.resolve id v).2.waiting.IsOpen id' ↔ id ≠ id' ∧ b.waiting.IsOpen id' := by
  simp only [Waiting.IsOpen, resolve_placeholders]
  by_cases same : id = id'
  · subst same
    by_cases taken : (b.resolve id v).1 = true
    · simp [taken]
    · have closed : ¬ b.waiting.IsOpen id := fun h => taken ((resolve_taken_iff b id v).mpr h)
      exact iff_of_false (by simpa [taken, Waiting.IsOpen] using closed) (by simp)
  · simp [same]

theorem content?_resolve (b : Board V O) (id id' : PlaceholderId) (v : V) :
    (b.resolve id v).2.waiting.content? id' =
      if id = id' ∧ (b.resolve id v).1 = true then some (some v) else b.waiting.content? id' := by
  simp only [Waiting.content?, resolve_placeholders]
  split <;> rfl

theorem resolve_next (b : Board V O) (id : PlaceholderId) (v : V) :
    (b.resolve id v).2.waiting.nextPlaceholder = b.waiting.nextPlaceholder := by
  unfold resolve
  split
  · next waiter waiting taken =>
    obtain ⟨-, rfl⟩ := Waiting.resolve?_eq taken
    simp
  · rfl

end Board

end WorkflowReplay.Schedule

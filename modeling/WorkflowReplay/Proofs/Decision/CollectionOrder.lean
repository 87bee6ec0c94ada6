import WorkflowReplay.Proofs.Decision.Emissions
import WorkflowReplay.Proofs.Logs

/-!
# The order of collection

A machine is touched when it is made and whenever it is asked to cancel and does not refuse.  The
ledger keeps a list of machines in which it moves a touched machine to the end, drops the settled
ones when decisions are sent, and drops a settled one when another machine takes its id.  Dropped
machines have nothing to send, and one that comes to have something was touched again.  So a
collection reads as if no machine was ever dropped: it goes through all of them, each once, sorted
by the time of their last touch.
-/

set_option autoImplicit false

namespace WorkflowReplay

namespace Ledger

variable {ops : List Operation}

/-! ## Touches -/

/-- What an operation touches: the machine that it makes, or the one that agrees to be canceled. -/
inductive Touches (m : Ledger) : Operation → Nat → Prop where
  | made {r : Request} {new : r.isNew = true}
      (grown : (m.make r).machines.length = m.machines.length + 1) :
    Touches m (.make r new) m.machines.length
  | asked {id : DecisionId} {i : Nat} (name : m.byId.get? id = some i)
      (granted : (m.requestCancel? id).isSome) :
    Touches m (.requestCancel id) i

theorem Touches.unique {m : Ledger} {op : Operation} {i j : Nat} (first : m.Touches op i)
    (second : m.Touches op j) : i = j := by
  cases first with
  | made grown =>
    cases second
    rfl
  | asked name granted =>
    cases second with
    | asked name' granted' => exact Option.some.inj (name.symm.trans name')

structure Untouched (m m' : Ledger) : Prop where
  length : m'.machines.length = m.machines.length
  order : m'.order.Sublist m.order

structure Touched (m m' : Ledger) (i : Nat) : Prop where
  made : ∀ j, j < m'.machines.length ↔ j < m.machines.length ∨ j = i
  order : m'.order.Sublist (m.order.filter (· ≠ i) ++ [i])

theorem Sound.made_touched {m : Ledger} (sound : m.Sound) (r : Request) :
    m.Touched (m.made r) m.machines.length := by
  refine ⟨?_, ?_⟩
  · intro j
    simp only [Ledger.made, List.length_append, List.length_singleton]
    omega
  · -- The new machine is not in the order yet, so the filter drops nothing.
    have absent : m.order.filter (· ≠ m.machines.length) = m.order := by
      refine List.filter_eq_self.mpr fun i member => ?_
      have := sound.placed i member
      simp only [decide_eq_true_eq]
      omega
    rw [absent]
    exact List.filter_sublist.append_right _

theorem Sound.touches_cases {m : Ledger} (sound : m.Sound) (op : Operation) :
    (∃ i, m.Touches op i ∧ m.Touched (m.operate op) i) ∨
      (∀ i, ¬ m.Touches op i) ∧ m.Untouched (m.operate op) := by
  cases op with
  | make r new =>
    obtain ⟨pendingUpserts, made⟩ := make_eq m r
    simp only [operate, made]
    rcases request_cases m r with ⟨same, -⟩ | ⟨fresh, -⟩
    · refine .inr ⟨?_, ?_⟩
      · rintro i ⟨grown⟩
        rw [made, same] at grown
        simp at grown
      · rw [same]
        exact ⟨rfl, .refl _⟩
    · refine .inl ⟨m.machines.length, .made ?_, ?_⟩
      · rw [made, fresh]
        simp [Ledger.made]
      · rw [fresh]
        exact ⟨(sound.made_touched r).made, (sound.made_touched r).order⟩
  | requestCancel id =>
    simp only [operate]
    cases asked : m.requestCancel? id with
    | none =>
      refine .inr ⟨?_, ⟨rfl, .refl _⟩⟩
      rintro i (_ | ⟨-, granted⟩)
      simp [asked] at granted
    | some m' =>
      obtain ⟨i, machine, machine', name, -, -, rfl⟩ := requestCancel?_eq asked
      refine .inl ⟨i, .asked name (by simp [asked]), ⟨?_, .refl _⟩⟩
      intro j
      have := sound.bound name
      simp only [Option.getD_some, put, List.length_set]
      omega
  | collect =>
    refine .inr ⟨?_, notifySent_length m, List.filter_sublist⟩
    rintro i ⟨⟩
  | notifySent =>
    refine .inr ⟨?_, notifySent_length m, List.filter_sublist⟩
    rintro i ⟨⟩
  | event e =>
    refine .inr ⟨by rintro i ⟨⟩, ?_⟩
    simp only [operate]
    split
    · next resolution m' handled =>
      rcases handleEvent_cases handled with ⟨-, pendingUpserts, rfl⟩ |
        ⟨route, i, machine, reaction, pendingUpserts, -, -, -, -, -, rfl⟩
      · exact ⟨rfl, .refl _⟩
      · exact ⟨List.length_set, .refl _⟩
    · exact ⟨rfl, .refl _⟩

/-! ## The time of the last touch -/

def TouchedAt (ops : List Operation) (i k : Nat) : Prop :=
  ∃ past op later, ops = past ++ op :: later ∧ past.length = k ∧ (after past).Touches op i

def LastTouchedAt (ops : List Operation) (i k : Nat) : Prop :=
  TouchedAt ops i k ∧ ∀ l, TouchedAt ops i l → l ≤ k

def TouchedBefore (ops : List Operation) (i j : Nat) : Prop :=
  ∃ k l, LastTouchedAt ops i k ∧ LastTouchedAt ops j l ∧ k < l

theorem TouchedAt.lt {i k : Nat} (touched : TouchedAt ops i k) : k < ops.length := by
  obtain ⟨past, op, later, rfl, rfl, -⟩ := touched
  simp only [List.length_append, List.length_cons]
  omega

theorem touchedAt_concat (op : Operation) (i k : Nat) :
    TouchedAt (ops ++ [op]) i k ↔
      TouchedAt ops i k ∨ ops.length = k ∧ (after ops).Touches op i := exists_split_concat

theorem lastTouchedAt_concat_of_touches {op : Operation} {i : Nat}
    (touches : (after ops).Touches op i) :
    LastTouchedAt (ops ++ [op]) i ops.length := by
  refine ⟨(touchedAt_concat op i _).mpr (.inr ⟨rfl, touches⟩), ?_⟩
  intro l touched
  have := touched.lt
  simp only [List.length_append, List.length_singleton] at this
  omega

theorem LastTouchedAt.concat_of_spared {op : Operation} {i k : Nat} (last : LastTouchedAt ops i k)
    (spared : ¬ (after ops).Touches op i) : LastTouchedAt (ops ++ [op]) i k := by
  refine ⟨(touchedAt_concat op i k).mpr (.inl last.1), ?_⟩
  intro l touched
  rcases (touchedAt_concat op i l).mp touched with touched | ⟨-, touches⟩
  · exact last.2 l touched
  · exact absurd touches spared

theorem LastTouchedAt.unique {i k l : Nat} (first : LastTouchedAt ops i k)
    (second : LastTouchedAt ops i l) : k = l :=
  Nat.le_antisymm (second.2 k first.1) (first.2 l second.1)

theorem TouchedBefore.asymm {i j : Nat} (before : TouchedBefore ops i j) :
    ¬ TouchedBefore ops j i := by
  obtain ⟨k, l, first, second, lt⟩ := before
  rintro ⟨k', l', second', first', lt'⟩
  have := first.unique first'
  have := second.unique second'
  omega

theorem exists_lastTouchedAt (ops : List Operation) {i : Nat}
    (made : i < (after ops).machines.length) : ∃ k, LastTouchedAt ops i k := by
  induction ops using List.reverseRecOn with
  | nil => simp [after, empty] at made
  | append_singleton ops op ih =>
    by_cases touches : (after ops).Touches op i
    · exact ⟨ops.length, lastTouchedAt_concat_of_touches touches⟩
    · have old : i < (after ops).machines.length := by
        rw [after_concat] at made
        rcases (after_tended ops).sound.touches_cases op with ⟨j, touches', touched⟩ |
          ⟨-, untouched⟩
        · refine ((touched.made i).mp made).resolve_right ?_
          rintro rfl
          exact touches touches'
        · exact untouched.length ▸ made
      obtain ⟨k, last⟩ := ih old
      exact ⟨k, last.concat_of_spared touches⟩

/-! ## All machines, the one touched last at the end -/

structure IsByRecency (ops : List Operation) (order : List Nat) : Prop where
  complete : ∀ i, i ∈ order ↔ i < (after ops).machines.length
  sorted : order.Pairwise (TouchedBefore ops)

theorem IsByRecency.nodup {order : List Nat} (recent : IsByRecency ops order) : order.Nodup := by
  refine recent.sorted.imp ?_
  rintro i _ before rfl
  exact before.asymm before

theorem IsByRecency.unique {order other : List Nat} (recent : IsByRecency ops order)
    (recent' : IsByRecency ops other) : other = order := by
  have perm : other.Perm order := (List.perm_ext_iff_of_nodup recent'.nodup recent.nodup).mpr
    fun i => (recent'.complete i).trans (recent.complete i).symm
  exact perm.eq_of_pairwise (fun i j _ _ before after => absurd after before.asymm) recent'.sorted
    recent.sorted

theorem IsByRecency.concat_of_untouched {order : List Nat} (recent : IsByRecency ops order)
    {op : Operation} (spared : ∀ i, ¬ (after ops).Touches op i)
    (length : (after (ops ++ [op])).machines.length = (after ops).machines.length) :
    IsByRecency (ops ++ [op]) order := by
  refine ⟨by simpa only [length] using recent.complete, recent.sorted.imp ?_⟩
  rintro i j ⟨k, l, first, second, lt⟩
  exact ⟨k, l, first.concat_of_spared (spared i), second.concat_of_spared (spared j), lt⟩

theorem IsByRecency.concat_of_touched {order : List Nat} (recent : IsByRecency ops order)
    {op : Operation} {i : Nat} (touches : (after ops).Touches op i)
    (made : ∀ j, j < (after (ops ++ [op])).machines.length ↔
      j < (after ops).machines.length ∨ j = i) :
    IsByRecency (ops ++ [op]) (order.filter (· ≠ i) ++ [i]) := by
  have spared {j : Nat} (member : j ∈ order.filter (· ≠ i)) : ¬ (after ops).Touches op j := by
    intro touches'
    have other : j ≠ i := by simpa using (List.mem_filter.mp member).2
    exact other (touches'.unique touches)
  refine ⟨?_, List.pairwise_append.mpr ⟨?_, by simp, ?_⟩⟩
  · intro j
    by_cases same : j = i
    · simp [same, made]
    · simp [same, made, recent.complete]
  · refine (recent.sorted.filter _).imp_of_mem ?_
    rintro j j' member member' ⟨k, l, first, second, lt⟩
    exact ⟨k, l, first.concat_of_spared (spared member), second.concat_of_spared (spared member'),
      lt⟩
  · -- The others were touched by earlier operations.
    intro j member i' last
    obtain rfl := List.mem_singleton.mp last
    have old : j < (after ops).machines.length :=
      (recent.complete j).mp (List.mem_filter.mp member).1
    obtain ⟨k, first⟩ := exists_lastTouchedAt ops old
    exact ⟨k, ops.length, first.concat_of_spared (spared member), lastTouchedAt_concat_of_touches
      touches,
      first.1.lt⟩

/-- The order that a ledger keeps is the order by recency without some of the machines. -/
theorem exists_isByRecency (ops : List Operation) :
    ∃ order, IsByRecency ops order ∧ (after ops).order.Sublist order := by
  induction ops using List.reverseRecOn with
  | nil => exact ⟨[], ⟨by simp [after, empty], .nil⟩, .refl _⟩
  | append_singleton ops op ih =>
    obtain ⟨order, recent, sublist⟩ := ih
    have cases := (after_tended ops).sound.touches_cases op
    rw [← after_concat] at cases
    rcases cases with ⟨i, touches, touched⟩ | ⟨spared, untouched⟩
    · exact ⟨order.filter (· ≠ i) ++ [i], recent.concat_of_touched touches touched.made,
        touched.order.trans ((sublist.filter _).append_right _)⟩
    · exact ⟨order, recent.concat_of_untouched spared untouched.length, untouched.order.trans
        sublist⟩

/-! ## What a collection returns -/

theorem flatMap_of_sublist {α : Type} (f : Nat → List α) {some all : List Nat}
    (sublist : some.Sublist all) (nodup : all.Nodup) (rest : ∀ i ∈ all, i ∉ some → f i = []) :
    some.flatMap f = all.flatMap f := by
  induction sublist with
  | slnil => rfl
  | @cons some all i sublist ih =>
    obtain ⟨absent, nodup⟩ := List.nodup_cons.mp nodup
    have nothing : f i = [] := rest i (by simp) fun member => absent (sublist.subset member)
    rw [List.flatMap_cons, nothing, List.nil_append]
    exact ih nodup fun j member => rest j (List.mem_cons_of_mem _ member)
  | @cons_cons some all i sublist ih =>
    obtain ⟨absent, nodup⟩ := List.nodup_cons.mp nodup
    rw [List.flatMap_cons, List.flatMap_cons, ih nodup]
    intro j member missing
    refine rest j (List.mem_cons_of_mem _ member) ?_
    simp only [List.mem_cons, not_or]
    exact ⟨fun same => absent (same ▸ member), missing⟩

theorem Tended.pending_eq {m : Ledger} (tended : m.Tended) {order : List Nat}
    (sublist : m.order.Sublist order) (nodup : order.Nodup) :
    m.pending = order.flatMap m.pendingAt := by
  have listed : m.pending = m.order.flatMap m.pendingAt := rfl
  rw [listed]
  refine flatMap_of_sublist m.pendingAt sublist nodup ?_
  intro i _ away
  unfold pendingAt
  split
  · next machine found =>
    by_contra some
    exact away (tended.mem_order_of_pending found some)
  · rfl

theorem pendingAt_eq {m : Ledger} {i : Nat} {machine : Machine}
    (found : m.machines[i]? = some machine) :
    ∃ initial cancel : Option Decision, m.pendingAt i = initial.toList ++ cancel.toList ∧
      (∀ d ∈ initial, d = machine.request.initialDecision) ∧
      ∀ d ∈ cancel, machine.request.cancelDecision = some d := by
  refine ⟨if machine.life.initialEmitted then none else some machine.request.initialDecision,
    if machine.life.cancelPending then machine.request.cancelDecision else none, ?_, ?_, ?_⟩
  · simp only [pendingAt, found, Machine.pending]
    split <;> split <;> rfl
  · intro d member
    split at member
    · simp at member
    · exact (Option.some.inj member).symm
  · intro d member
    split at member
    · exact member
    · simp at member

theorem make_live_touches_nothing {m : Ledger} {r : Request} (new : r.isNew = true)
    (live : m.isLive r.id = true) : (∀ i, ¬ m.Touches (.make r new) i) ∧
      ∃ pendingUpserts, m.operate (.make r new) = { m with pendingUpserts } := by
  obtain ⟨pendingUpserts, made⟩ := make_eq m r
  rw [request_eq_self_of_live live] at made
  refine ⟨?_, pendingUpserts, made⟩
  rintro i ⟨grown⟩
  rw [made] at grown
  simp at grown

/-- Whatever the run, a collection joins what its machines have to send, each machine once, its
initial decision before its cancel decision, and the machines sorted by the time of their last
touch.  A request under an id that is in use is no touch, and changes nothing of that. -/
theorem collects_by_recency (ops : List Operation) :
    ∃ order, IsByRecency ops order ∧ (∀ other, IsByRecency ops other → other = order) ∧
      order.Nodup ∧ (after ops).collect.1 = order.flatMap (after ops).pendingAt ∧
      (∀ (i : Nat) machine, (after ops).machines[i]? = some machine →
        (after ops).pendingAt i = machine.pending ∧
        ∃ initial cancel : Option Decision,
          (after ops).pendingAt i = initial.toList ++ cancel.toList ∧
          (∀ d ∈ initial, d = machine.request.initialDecision) ∧
          ∀ d ∈ cancel, machine.request.cancelDecision = some d) ∧
      ∀ (r : Request) (new : r.isNew = true), (after ops).isLive r.id = true →
        IsByRecency (ops ++ [.make r new]) order ∧
          (after (ops ++ [.make r new])).collect.1 = (after ops).collect.1 := by
  obtain ⟨order, recent, sublist⟩ := exists_isByRecency ops
  refine ⟨order, recent, fun other recent' => recent.unique recent', recent.nodup,
    (after_tended ops).pending_eq sublist recent.nodup, ?_, ?_⟩
  · intro i machine found
    exact ⟨by simp [pendingAt, found], pendingAt_eq found⟩
  · intro r new live
    obtain ⟨spared, pendingUpserts, made⟩ := make_live_touches_nothing new live
    rw [← after_concat] at made
    exact ⟨recent.concat_of_untouched spared (by rw [made]), by rw [made]; rfl⟩

def canceledTimer : List Operation := [
  .make (.timer { timerId := "t" }) rfl, .activity { activityId := "a" },
  .requestCancel ⟨.timer, "t"⟩]

/-- The canceled timer comes last, and stays there when its id is used again. -/
theorem canceled_timer_is_last :
    ∃ order, IsByRecency canceledTimer order ∧
      order.flatMap (after canceledTimer).pendingAt =
        [.scheduleActivityTask { activityId := "a" }, .startTimer { timerId := "t" },
          .cancelTimer "t"] ∧
      IsByRecency (canceledTimer ++ [.make (.timer { timerId := "t" }) rfl]) order := by
  obtain ⟨order, recent, -, -, collected, -, reused⟩ := collects_by_recency canceledTimer
  refine ⟨order, recent, collected.symm.trans (by decide), ?_⟩
  exact (reused (.timer { timerId := "t" }) rfl (by decide)).1

end Ledger

end WorkflowReplay

import WorkflowReplay.Proofs.Decision.Operations

/-!
# What a collection offers

A collection takes the pending decisions of the machines in order.  Each of them belongs to one
machine; a machine offers its initial decision once, namely as long as it was not sent.
-/

set_option autoImplicit false

namespace WorkflowReplay

theorem Request.initialDecision_ne_cancel (r : Request) :
    r.initialDecision ∉ r.cancelDecision.toList := by
  cases r <;> simp [initialDecision, cancelDecision]

theorem Machine.count_pending (m : Machine) :
    m.pending.count m.request.initialDecision = if m.IsUnsent then 1 else 0 := by
  have cancel : m.request.initialDecision ∉
      (if m.life.cancelPending then m.request.cancelDecision.toList else []) := by
    split
    · exact m.request.initialDecision_ne_cancel
    · simp
  unfold pending
  rw [List.count_append, List.count_eq_zero.mpr cancel, Nat.add_zero]
  by_cases unsent : m.IsUnsent
  · have due : m.life.initialEmitted = false := unsent
    simp [unsent, due]
  · have sent : m.life.initialEmitted = true := by simpa [IsUnsent] using unsent
    simp [unsent, sent]

theorem Machine.pending_of_settled {m : Machine} (settled : m.life.IsSettled) : m.pending = [] := by
  simp [pending, settled.1, settled.2]

namespace Ledger

def offers (m : Ledger) : List (Nat × Decision) :=
  m.order.flatMap fun i =>
    match m.machines[i]? with
    | some machine => machine.pending.map (i, ·)
    | none => []

def unsent (m : Ledger) : List Nat :=
  m.order.filter fun i =>
    match m.machines[i]? with
    | some machine => decide machine.IsUnsent
    | none => false

theorem offers_decisions (m : Ledger) : m.offers.map Prod.snd = m.pending := by
  unfold offers pending pendingOf
  rw [List.map_flatMap]
  congr 1
  funext i
  cases m.machines[i]? with
  | none => rfl
  | some machine => simp [Function.comp_def]

/-- The initial decision of a machine is offered once as long as it was not sent, and never
again. -/
theorem Sound.count_offers {m : Ledger} (sound : m.Sound) {i : Nat} {machine : Machine}
    (found : m.machines[i]? = some machine) :
    m.offers.count (i, machine.request.initialDecision) = if machine.IsUnsent then 1 else 0 := by
  have one (order : List Nat) :
      (order.flatMap fun j => match m.machines[j]? with
        | some machine => machine.pending.map (j, ·)
        | none => []).count (i, machine.request.initialDecision) =
      order.count i * machine.pending.count machine.request.initialDecision := by
    induction order with
    | nil => simp
    | cons j rest ih =>
      rw [List.flatMap_cons, List.count_append, ih, List.count_cons, Nat.add_mul]
      by_cases same : j = i
      · subst same
        have here : (machine.pending.map (j, ·)).count (j, machine.request.initialDecision) =
            machine.pending.count machine.request.initialDecision := by
          rw [List.count, List.countP_map, List.count]
          exact List.countP_congr fun d _ => by simp
        simp only [found, here, beq_self_eq_true, if_true]
        omega
      · have away : (match m.machines[j]? with
            | some machine => machine.pending.map (j, ·)
            | none => []).count (i, machine.request.initialDecision) = 0 := by
          rw [List.count_eq_zero]
          split
          · simp [same]
          · simp
        simp [away, same]
  unfold offers
  rw [one, machine.count_pending]
  split
  · next unsent =>
    rw [List.Nodup.count sound.nodup, if_pos (sound.unsent i machine found unsent)]
  · rfl

theorem Sound.count_unsent {m : Ledger} (sound : m.Sound) {i : Nat} {machine : Machine}
    (found : m.machines[i]? = some machine) :
    m.unsent.count i = if machine.IsUnsent then 1 else 0 := by
  rw [Ledger.unsent, List.Nodup.count (sound.nodup.filter _)]
  by_cases unsent : machine.IsUnsent
  · rw [if_pos unsent, if_pos]
    exact List.mem_filter.mpr ⟨sound.unsent i machine found unsent, by simp [found, unsent]⟩
  · rw [if_neg unsent, if_neg]
    intro member
    have := (List.mem_filter.mp member).2
    simp [found, unsent] at this

end Ledger

end WorkflowReplay

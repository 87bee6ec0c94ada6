import Mathlib.Algebra.Order.Floor.Div
import WorkflowReplay.Proofs.Run.Timers

/-!
# Delays of timers

A timer runs for whole seconds, so its delay is rounded up: it may fire late, never early.  The
rounding is done in words of 64 bits, before the result is cut to what a decision can hold.  It fits
there unless the delay lies beyond the last whole second that a word can count.
-/

set_option autoImplicit false

namespace WorkflowReplay

open Schedule

namespace Span

/-- Whole seconds, a begun second counting as one. -/
def secondsUp (s : Span) : Nat := s.nanoseconds ⌈/⌉ 1000000000

theorem secondsUp_eq (s : Span) : s.secondsUp = (s.nanoseconds + 999999999) / 1000000000 := by
  rw [secondsUp, Nat.ceilDiv_eq_add_pred_div, Nat.add_sub_assoc (by decide)]

theorem secondsUp_pos {s : Span} (lasting : s.isZero = false) : 1 ≤ s.secondsUp := by
  have some : s.nanoseconds ≠ 0 := by simpa [isZero] using lasting
  rw [secondsUp_eq]
  omega

theorem secondsUp_lt_iff {seconds nanos : Nat} (whole : seconds < secondsLimit)
    (part : nanos < 1000000000) :
    (⟨seconds * 1000000000 + nanos⟩ : Span).secondsUp < secondsLimit ↔
      (seconds + 1 = secondsLimit → nanos = 0) := by
  rw [secondsUp_eq]
  simp only [secondsLimit] at whole ⊢
  omega

theorem timerSeconds?_eq (s : Span) :
    s.timerSeconds? =
      if s.secondsUp < secondsLimit then some (Int64.ofNat (min s.secondsUp 9223372036854775807))
      else none := by
  rw [secondsUp_eq, timerSeconds?]

end Span

theorem Ledger.Sound.pending_made {m : Ledger} (sound : m.Sound) {r : Request}
    (unused : m.byId.get? r.id = none) : (m.made r).pending = m.pending ++ [r.initialDecision] := by
  have order : (m.made r).order = m.order ++ [m.machines.length] := by
    simp only [made, unused]
    rw [List.filter_eq_self.mpr (by simp)]
  unfold pending pendingOf
  rw [order, List.flatMap_append]
  congr 1
  · refine List.flatMap_congr fun i member => ?_
    rw [made_machines, if_pos (sound.placed i member)]
  · rw [List.flatMap_singleton, made_machines, if_neg (Nat.lt_irrefl _), if_pos rfl]
    rfl

def Decision.StartTimer.longest : Nat := 9223372036854775807

namespace Run

/-- A timer without delay is over at once and asks for nothing.  Any other timer asks for whole
seconds, at least one: as few as make up its delay, or as many as there can be. -/
structure Delays (w : Run) (delay : Span) (f : Future) (w' : Run) : Prop where
  atOnce : delay.isZero = true → w'.shared = w.shared ∧
    ∀ me, Awaited.result? { future := f, run := w' } me = some (.ok .null)
  asks : delay.isZero = false → ∃ a : Decision.StartTimer,
    w'.shared.ledger.pending = w.shared.ledger.pending ++ [.startTimer a] ∧
      a.startToFireTimeoutSeconds.toInt = min delay.secondsUp Decision.StartTimer.longest ∧
      1 ≤ a.startToFireTimeoutSeconds.toInt

def KeepsDelay (w : Run) (delay : Span) : Prop :=
  ∃ f w', w.timer delay = (.ok f, w') ∧ w.Delays delay f w'

theorem timer_of_zero {w : Run} {delay : Span} (zero : delay.isZero = true) :
    w.timer delay = (.ok (.request (.timer none) w.board.make.1 false),
      { w with board := (w.board.make.2.resolve w.board.make.1 (.completed none)).2 }) := by
  rw [timer, if_pos zero]

theorem timer_of_fitting {w : Run} {delay : Span} (lasting : delay.isZero = false) {seconds : Int64}
    (fits : delay.timerSeconds? = some seconds) :
    w.timer delay =
      let id := toString w.shared.nextId
      let asked := Run.ask (.timer ⟨id, seconds⟩) (.timer (some id))
        { w with shared := w.shared.freshId.2 }
      (.ok asked.1, asked.2) := by
  rw [timer, if_neg (by simp [lasting]), fits]
  rfl

theorem timer_of_overflowing {w : Run} {delay : Span} (lasting : delay.isZero = false)
    (long : delay.timerSeconds? = none) : (w.timer delay).1 = .error timerTooLong := by
  rw [timer, if_neg (by simp [lasting]), long]

theorem KeepsDelay.of_zero {w : Run} {delay : Span} (zero : delay.isZero = true) :
    w.KeepsDelay delay := by
  refine ⟨_, _, timer_of_zero zero, ⟨fun _ => ⟨rfl, fun me => ?_⟩, by simp [zero]⟩⟩
  have taken := (Board.resolve_taken_iff w.board.make.2 w.board.make.1 (.completed none)).mpr
    ((Waiting.isOpen_iff_content _ _).mpr (by simp [Board.make]))
  simp only [Awaited.result?, Future.look, ground, Waiting.look_value, Board.content?_resolve,
    taken, and_self, if_true, Option.join_some, Option.map_some, Promise.result]

theorem not_keepsDelay_of_overflowing {w : Run} {delay : Span} (lasting : delay.isZero = false)
    (long : ¬ delay.secondsUp < Span.secondsLimit) : ¬ w.KeepsDelay delay := by
  rintro ⟨f, w', started, -⟩
  have panics := timer_of_overflowing (w := w) lasting (by rw [Span.timerSeconds?_eq, if_neg long])
  simp [started] at panics

end Run

theorem Session.Reached.keepsDelay {info : RunInfo} {s : Session}
    (reached : Session.Reached info s) {delay : Span} (lasting : delay.isZero = false)
    (fits : delay.secondsUp < Span.secondsLimit) : s.run.KeepsDelay delay := by
  have numbered := reached.linked.numbered
  have least := Span.secondsUp_pos lasting
  have rounded := delay.timerSeconds?_eq
  rw [if_pos fits] at rounded
  have exact : (Int64.ofNat (min delay.secondsUp 9223372036854775807)).toInt =
      (min delay.secondsUp 9223372036854775807 : Nat) := Int64.toInt_ofNat_of_lt (by omega)
  generalize Int64.ofNat (min delay.secondsUp 9223372036854775807) = seconds at rounded exact
  let a : Decision.StartTimer := ⟨toString s.run.shared.nextId, seconds⟩
  have unused : s.run.shared.ledger.byId.get? (Request.timer a).id = none :=
    numbered.unused_id .timer trivial
  have made := Ledger.request_eq_made_of_free (Ledger.isLive_of_unused unused)
  refine ⟨_, _, Run.timer_of_fitting lasting rounded, ⟨by simp [lasting], fun _ => ⟨a, ?_, ?_, ?_⟩⟩⟩
  · change (s.run.shared.ledger.request (.timer a)).pending = _
    rw [made]
    exact numbered.sound.pending_made unused
  · exact exact.trans (by simp [Decision.StartTimer.longest])
  · change 1 ≤ seconds.toInt
    omega

/-- A timer keeps its delay, in every state that a run can be in, unless the delay lies beyond the
last whole second that a word can count. -/
theorem timer_keeps_delay_iff {info : RunInfo} {s : Session} (reached : Session.Reached info s)
    {seconds nanos : Nat} (whole : seconds < Span.secondsLimit) (part : nanos < 1000000000) :
    s.run.KeepsDelay ⟨seconds * 1000000000 + nanos⟩ ↔
      (seconds + 1 = Span.secondsLimit → nanos = 0) := by
  rw [← Span.secondsUp_lt_iff whole part]
  generalize (⟨seconds * 1000000000 + nanos⟩ : Span) = delay
  cases zero : delay.isZero with
  | true =>
    have nothing : delay.secondsUp < Span.secondsLimit := by
      have empty : delay.nanoseconds = 0 := by simpa [Span.isZero] using zero
      simp [Span.secondsUp_eq, empty, Span.secondsLimit]
    exact iff_of_true (.of_zero zero) nothing
  | false =>
    refine ⟨fun keeps => ?_, reached.keepsDelay zero⟩
    by_contra long
    exact Run.not_keepsDelay_of_overflowing zero long keeps

theorem longest_whole_delay_kept :
    (Session.start {}).run.KeepsDelay ⟨18446744073709551615 * 1000000000 + 0⟩ :=
  (timer_keeps_delay_iff .start (by decide) (by decide)).mpr fun _ => rfl

/-- A nanosecond more, and the rounding no longer fits a word. -/
theorem longer_delay_not_kept :
    ¬ (Session.start {}).run.KeepsDelay ⟨18446744073709551615 * 1000000000 + 1⟩ :=
  Run.not_keepsDelay_of_overflowing (by decide) (by simp [Span.secondsUp_eq, Span.secondsLimit])

end WorkflowReplay

import Mathlib
import WorkflowReplay.Proofs.Decision.Endings
import WorkflowReplay.Proofs.Run.Numbering

/-!
# Where outcomes go

An outcome finds its future in two steps.  The event names the machine that it ends, by an alias
that never changes; then the id of that machine names the placeholder that waits.  An id can be
used again as soon as its request counts as settled, which is before the history confirms it, so
the second step may lead to the future of another call.  The main result says exactly when it does
not: as long as the id still names the machine, or nothing is left that could be given a value.
-/

set_option autoImplicit false

namespace WorkflowReplay

open Schedule

/-- A run between calls and events, with what it handed out. -/
structure Session where
  run : Run
  /-- For each machine the placeholder that was handed out for it. -/
  handed : List (Option PlaceholderId) := []
  lastEventId : EventId := 0

namespace Session

def start (info : RunInfo) : Session := { run := { shared := .new info } }

/-- A task gives a command.  A command that makes a machine hands out at most one placeholder. -/
def called (s : Session) (me : TaskId) (c : Call) : Session :=
  let r := Run.perform me c s.run
  { s with
    run := r.2
    handed :=
      if r.2.shared.ledger.machines.length = s.handed.length then s.handed
      else s.handed ++ [Run.handedOut c r.1] }

/-- The history brings an event; one that is refused leaves the run as it was. -/
def applied (s : Session) (e : HistoryEvent) : Session :=
  { s with
    run := match Run.applyEvent e s.run with
      | .ok run => run
      | .error _ => s.run
    lastEventId := e.id }

def collected (s : Session) : Session :=
  { s with run := s.run.withLedger s.run.shared.ledger.notifySent }

inductive Step : Session → Session → Prop where
  | call (s : Session) (me : TaskId) (c : Call) : Step s (s.called me c)
  | look (s : Session) (me : TaskId) (wait : Await) :
    Step s { s with run := s.run.looked Run.meaning me wait }
  /-- Tasks are started, queued and ended. -/
  | tasks (s : Session) (board : Board Outcome (Except Error Json))
      (placeholders : board.waiting.placeholders = s.run.board.waiting.placeholders)
      (next : board.waiting.nextPlaceholder = s.run.board.waiting.nextPlaceholder) :
    Step s { s with run := { s.run with board } }
  | enter (s : Session) (replaying : Bool) (time : Int) (markers : List HistoryEvent) :
    Step s { s with
      run := { s.run with
        shared := { s.run.shared with replaying, time }.loadMarkers markers } }
  | event (s : Session) (e : HistoryEvent) (later : s.lastEventId < e.id) : Step s (s.applied e)
  | collect (s : Session) : Step s s.collected

inductive Reached (info : RunInfo) : Session → Prop where
  | start : Reached info (start info)
  | step {s s' : Session} (reached : Reached info s) (step : Step s s') : Reached info s'

/-! ## What links machines and placeholders -/

def Handed (s : Session) (i : Nat) (p : PlaceholderId) : Prop := s.handed[i]? = some (some p)

def IsOpen (s : Session) (p : PlaceholderId) : Prop := s.run.board.waiting.IsOpen p

theorem Handed.index_lt {s : Session} {i : Nat} {p : PlaceholderId} (there : s.Handed i p) :
    i < s.handed.length :=
  (List.getElem?_eq_some_iff.mp there).1

theorem handed_concat (s : Session) (run : Run) (handed : Option PlaceholderId) (i : Nat)
    (p : PlaceholderId) :
    Handed { s with run, handed := s.handed ++ [handed] } i p ↔
      s.Handed i p ∨ i = s.handed.length ∧ handed = some p := by
  simp only [Handed, List.getElem?_append]
  by_cases early : i < s.handed.length
  · rw [if_pos early]
    have before : i ≠ s.handed.length := Nat.ne_of_lt early
    simp [before]
  · rw [if_neg early, List.getElem?_singleton, List.getElem?_eq_none (Nat.le_of_not_lt early)]
    by_cases last : i = s.handed.length
    · simp [last]
    · have beyond : i - s.handed.length ≠ 0 := by omega
      simp [last, beyond]

/-- Each placeholder belongs to one machine, and under an id waits what was handed out for the
machine that the id names now. -/
structure Linked (s : Session) : Prop where
  numbered : s.run.shared.Numbered
  length : s.run.shared.ledger.machines.length = s.handed.length
  bound : ∀ i p, s.Handed i p → p.number < s.run.board.waiting.nextPlaceholder
  apart : ∀ i j p, s.Handed i p → s.Handed j p → i = j
  waits : ∀ id p, s.run.shared.waiting.get? id = some p →
    ∃ i, s.run.shared.ledger.byId.get? id = some i ∧ s.Handed i p
  registered : ∀ id i p, s.run.shared.ledger.byId.get? id = some i → s.Handed i p → s.IsOpen p →
    s.run.shared.waiting.get? id = some p
  aliased : s.run.shared.ledger.Aliased
  past : ∀ key i, s.run.shared.ledger.aliases.get? key = some i → key.2 ≤ s.lastEventId

theorem start_linked (info : RunInfo) : (start info).Linked where
  numbered := Context.new_numbered info
  length := rfl
  bound := by simp [start, Handed]
  apart := by simp [start, Handed]
  waits := by simp [start, Context.new]
  registered := by simp [start, Handed]
  aliased := by simp [start, Context.new, Ledger.empty, Ledger.Aliased]
  past := by simp [start, Context.new, Ledger.empty]

namespace Linked

variable {s : Session}

/-- What makes no machine, forgets no placeholder and opens none that was handed out keeps the
links. -/
theorem of_ids_kept (h : s.Linked) {run : Run} {lastEventId : EventId}
    (numbered : run.shared.Numbered) (byId : run.shared.ledger.byId = s.run.shared.ledger.byId)
    (length : run.shared.ledger.machines.length = s.run.shared.ledger.machines.length)
    (waiting : run.shared.waiting = s.run.shared.waiting)
    (opened : ∀ p, run.board.waiting.IsOpen p →
      s.IsOpen p ∨ s.run.board.waiting.nextPlaceholder ≤ p.number)
    (next : s.run.board.waiting.nextPlaceholder ≤ run.board.waiting.nextPlaceholder)
    (aliased : run.shared.ledger.Aliased)
    (past : ∀ key i, run.shared.ledger.aliases.get? key = some i → key.2 ≤ lastEventId) :
    Linked { s with run, lastEventId } where
  numbered := numbered
  length := length.trans h.length
  bound i p handed := Nat.lt_of_lt_of_le (h.bound i p handed) next
  apart := h.apart
  waits id p waits := by
    rw [show run.shared.waiting = _ from waiting] at waits
    rw [show run.shared.ledger.byId = _ from byId]
    exact h.waits id p waits
  registered id i p name handed still := by
    rw [show run.shared.ledger.byId = _ from byId] at name
    rw [show run.shared.waiting = _ from waiting]
    rcases opened p still with before | new
    · exact h.registered id i p name handed before
    · have := h.bound i p handed
      omega
  aliased := aliased
  past := past

theorem of_aside (h : s.Linked) {run : Run} (numbered : run.shared.Numbered)
    (ledger : run.shared.ledger = s.run.shared.ledger)
    (waiting : run.shared.waiting = s.run.shared.waiting)
    (opened : ∀ p, run.board.waiting.IsOpen p →
      s.IsOpen p ∨ s.run.board.waiting.nextPlaceholder ≤ p.number)
    (next : s.run.board.waiting.nextPlaceholder ≤ run.board.waiting.nextPlaceholder) :
    Linked { s with run } :=
  h.of_ids_kept numbered (by rw [ledger]) (by rw [ledger]) waiting opened next (ledger ▸ h.aliased)
    (ledger ▸ h.past)

theorem settle (h : s.Linked) (id : DecisionId) (o : Outcome) :
    Linked { s with run := s.run.settle id o } := by
  have numbered := Run.settle_numbered id o h.numbered
  unfold Run.settle at numbered ⊢
  cases found : s.run.shared.waiting.get? id with
  | none =>
    simp only [found] at numbered ⊢
    exact h
  | some p =>
    simp only [found] at numbered ⊢
    have next := Board.resolve_next s.run.board p o
    refine ⟨numbered, h.length, ?_, h.apart, ?_, ?_, h.aliased, h.past⟩
    · intro i q handed
      exact next ▸ h.bound i q handed
    · intro id' q waits
      simp only [Table.get?_erase] at waits
      split at waits
      · simp at waits
      · exact h.waits id' q waits
    · intro id' i q name handed still
      obtain ⟨other, before⟩ := (Board.isOpen_resolve s.run.board p q o).mp still
      have registered := h.registered id' i q name handed before
      simp only [Table.get?_erase]
      split
      · next same =>
        -- The placeholder under the id was the one that got the value, and `q` is still open.
        subst same
        exact absurd (Option.some.inj (found.symm.trans registered)) other
      · exact registered

theorem of_ledger_made (h : s.Linked) {run : Run} (numbered : run.shared.Numbered) {r : Request}
    (ledger : run.shared.ledger.machines = (s.run.shared.ledger.made r).machines ∧
      run.shared.ledger.byId = (s.run.shared.ledger.made r).byId ∧
      run.shared.ledger.aliases = s.run.shared.ledger.aliases)
    {handed : Option PlaceholderId}
    (fresh : ∀ p, handed = some p → s.run.board.waiting.nextPlaceholder ≤ p.number ∧
      p.number < run.board.waiting.nextPlaceholder)
    (waiting : ∀ id, run.shared.waiting.get? id =
      if r.id = id then handed else s.run.shared.waiting.get? id)
    (opened : ∀ p, run.board.waiting.IsOpen p → handed = some p ∨ s.IsOpen p)
    (next : s.run.board.waiting.nextPlaceholder ≤ run.board.waiting.nextPlaceholder) :
    Linked { s with run, handed := s.handed ++ [handed] } where
  numbered := numbered
  length := by simp [ledger.1, Ledger.made, h.length]
  bound i p there := by
    rcases (handed_concat s run handed i p).mp there with there | ⟨-, new⟩
    · exact Nat.lt_of_lt_of_le (h.bound i p there) next
    · exact (fresh p new).2
  apart i j p first second := by
    rcases (handed_concat s run handed i p).mp first with first | ⟨rfl, new⟩ <;>
      rcases (handed_concat s run handed j p).mp second with second | ⟨rfl, new'⟩
    · exact h.apart i j p first second
    · have := h.bound i p first
      have := (fresh p new').1
      omega
    · have := h.bound j p second
      have := (fresh p new).1
      omega
    · rfl
  waits id p waits := by
    simp only [waiting] at waits
    simp only [ledger.2.1, Ledger.made, Table.get?_insert]
    split at waits
    · next same =>
      exact ⟨s.run.shared.ledger.machines.length, by rw [if_pos same],
        (handed_concat s run handed _ p).mpr (.inr ⟨h.length, waits⟩)⟩
    · next other =>
      obtain ⟨i, name, there⟩ := h.waits id p waits
      exact ⟨i, by rw [if_neg other, name], (handed_concat s run handed i p).mpr (.inl there)⟩
  registered id i p name there still := by
    have length := h.length
    simp only [ledger.2.1, Ledger.made, Table.get?_insert] at name
    simp only [waiting]
    split at name
    · next same =>
      cases name
      rw [if_pos same]
      rcases (handed_concat s run handed _ p).mp there with there | ⟨-, new⟩
      · have := there.index_lt
        omega
      · exact new
    · next other =>
      rw [if_neg other]
      have early := h.numbered.sound.bound name
      rcases (handed_concat s run handed i p).mp there with there | ⟨last, -⟩
      · rcases opened p still with new | before
        · have := h.bound i p there
          have := (fresh p new).1
          omega
        · exact h.registered id i p name there before
      · omega
  aliased := h.aliased.made ledger.1 ledger.2.2
  past := by
    rw [show run.shared.ledger.aliases = _ from ledger.2.2]
    exact h.past

theorem withLedger (h : s.Linked) {ledger : Ledger} {lastEventId : EventId}
    (numbered : (s.run.withLedger ledger).shared.Numbered)
    (byId : ledger.byId = s.run.shared.ledger.byId)
    (length : ledger.machines.length = s.run.shared.ledger.machines.length)
    (aliased : ledger.Aliased)
    (past : ∀ key i, ledger.aliases.get? key = some i → key.2 ≤ lastEventId) :
    Linked { s with run := s.run.withLedger ledger, lastEventId } :=
  h.of_ids_kept numbered byId length rfl (fun _ still => .inl still) (Nat.le_refl _) aliased past

/-! ## Every step keeps the links -/

theorem of_ledger_made_unawaited (h : s.Linked) {run : Run} (numbered : run.shared.Numbered)
    {r : Request} (unused : s.run.shared.ledger.byId.get? r.id = none)
    (ledger : run.shared.ledger.machines = (s.run.shared.ledger.made r).machines ∧
      run.shared.ledger.byId = (s.run.shared.ledger.made r).byId ∧
      run.shared.ledger.aliases = s.run.shared.ledger.aliases)
    (waiting : run.shared.waiting = s.run.shared.waiting) (board : run.board = s.run.board) :
    Linked { s with run, handed := s.handed ++ [none] } := by
  refine h.of_ledger_made numbered ledger (by simp) (fun id => ?_) (fun p still => ?_)
    (Nat.le_of_eq (by rw [board]))
  · rw [waiting]
    split
    · next same =>
      -- Nothing waits under an id that was never used.
      cases found : s.run.shared.waiting.get? id with
      | none => rfl
      | some p =>
        obtain ⟨i, name, -⟩ := h.waits id p found
        simp [← same, unused] at name
    · rfl
  · rw [board] at still
    exact .inr still

theorem ask (h : s.Linked) {w : Run} {request : Request} {promise : Promise}
    (numbered : (w.ask request promise).2.shared.Numbered) (aside : Run.Aside s.run w)
    (free : Run.Free s.run.shared w.shared.nextId request.id) :
    Linked { s with
      run := (w.ask request promise).2
      handed := s.handed ++ [some w.board.make.1] } ∧
      (w.ask request promise).2.shared.ledger = s.run.shared.ledger.made request := by
  obtain ⟨ledger, waiting, -, -, -⟩ := aside.shared_eq
  have live := free.isLive h.numbered
  have made : (w.ask request promise).2.shared.ledger = s.run.shared.ledger.made request := by
    change w.shared.ledger.request request = _
    rw [ledger, Ledger.request_eq_made_of_free live]
  refine ⟨h.of_ledger_made numbered ⟨by rw [made], by rw [made], by rw [made]; rfl⟩ ?_ ?_ ?_
    (Nat.le_succ_of_le aside.next), made⟩
  · intro p new
    cases new
    exact ⟨aside.next, Nat.lt_succ_self _⟩
  · intro id
    rw [← waiting]
    exact Table.get?_insert ..
  · intro p still
    rcases (Waiting.isOpen_make _ _).mp still with same | before
    · exact .inl (same ▸ rfl)
    · exact .inr (aside.closed p before)

theorem requestCancel (h : s.Linked) {id : DecisionId} {ledger : Ledger}
    (asked : s.run.shared.ledger.requestCancel? id = some ledger) :
    Linked { s with run := s.run.withLedger ledger } := by
  have numbered : (s.run.withLedger ledger).shared.Numbered :=
    (show Run.Effect s.run false none _ from .canceled asked).numbered h.numbered
  obtain ⟨byId, -⟩ := Run.requestCancel?_keeps_ids asked
  obtain ⟨sameLength, aliases⟩ := Ledger.requestCancel?_length_and_aliases asked
  exact h.withLedger numbered byId sameLength (h.aliased.requestCancel? asked) (aliases ▸ h.past)

theorem called (h : s.Linked) (me : TaskId) (c : Call) : (s.called me c).Linked := by
  have effect := Run.perform_effect me c s.run
  have numbered := effect.numbered h.numbered
  unfold Session.called
  generalize Run.perform me c s.run = r at effect numbered
  obtain ⟨reply, run⟩ := r
  simp only at effect numbered ⊢
  generalize Run.handedOut c reply = handed at effect
  generalize Run.isSideEffect c = number at effect
  have keep (same : run.shared.ledger.machines.length = s.run.shared.ledger.machines.length) :
      (if run.shared.ledger.machines.length = s.handed.length then s.handed
        else s.handed ++ [handed]) = s.handed := if_pos (same.trans h.length)
  have add {r : Request}
      (made : run.shared.ledger.machines = (s.run.shared.ledger.made r).machines) :
      (if run.shared.ledger.machines.length = s.handed.length then s.handed
        else s.handed ++ [handed]) = s.handed ++ [handed] :=
    if_neg (by simp [made, Ledger.made, h.length])
  cases effect with
  | aside aside =>
    obtain ⟨ledger, waiting, -, -, -⟩ := aside.shared_eq
    rw [keep (by rw [ledger])]
    exact h.of_aside numbered ledger waiting (fun p still => .inl (aside.closed p still)) aside.next
  | asked request promise aside free =>
    obtain ⟨linked, made⟩ := h.ask numbered aside free
    rw [add (by rw [made])]
    exact linked
  | recorded details reports =>
    have unused : s.run.shared.ledger.byId.get? (Request.marker {
        markerName := Context.sideEffectMarker
        markerId := toString s.run.shared.nextSideEffect
        details }).id = none := h.numbered.unused_marker
    have made := Ledger.request_eq_made_of_free (Ledger.isLive_of_unused unused)
    simp only [Run.withMarker, made] at numbered add ⊢
    rw [add rfl]
    exact h.of_ledger_made_unawaited numbered unused ⟨rfl, rfl, rfl⟩ rfl rfl
  | unrecorded contradiction reports =>
    rw [keep rfl]
    exact h.of_aside numbered rfl rfl (fun _ still => .inl still) (Nat.le_refl _)
  | upserted attributes =>
    have unused : s.run.shared.ledger.byId.get?
        (Request.upsert (toString s.run.shared.nextId) attributes).id = none :=
      h.numbered.unused_id .upsertSearchAttributes trivial
    have made := Ledger.request_eq_made_of_free (Ledger.isLive_of_unused unused)
    obtain ⟨pendingUpserts, eq⟩ :=
      Ledger.upsert_eq s.run.shared.ledger (toString s.run.shared.nextId) attributes
    simp only [eq, made] at numbered add ⊢
    rw [add rfl]
    exact h.of_ledger_made_unawaited numbered unused ⟨rfl, rfl, rfl⟩ rfl rfl
  | canceled asked =>
    rw [keep (Ledger.requestCancel?_length_and_aliases asked).1]
    exact h.requestCancel asked
  | @ended _ id ledger asked outcome =>
    have sameLength := (Ledger.requestCancel?_length_and_aliases asked).1
    obtain ⟨waiting, eq⟩ := Run.settle_shared id outcome (s.run.withLedger ledger)
    rw [keep (by rw [eq]; exact sameLength)]
    exact (h.requestCancel asked).settle id outcome

theorem applied (h : s.Linked) {e : HistoryEvent} (later : s.lastEventId < e.id) :
    (s.applied e).Linked := by
  have past : ∀ key i, s.run.shared.ledger.aliases.get? key = some i → key.2 ≤ e.id :=
    fun key i written => Int64.le_trans (h.past key i written) (Int64.le_of_lt later)
  have waited : Linked { s with lastEventId := e.id } :=
    h.of_ids_kept h.numbered rfl rfl rfl (fun _ still => .inl still) (Nat.le_refl _) h.aliased past
  have handled {resolution : Option Resolution} {ledger : Ledger}
      (handled : s.run.shared.ledger.handleEvent e = .ok (resolution, ledger))
      (numbered : (s.run.withLedger ledger).shared.Numbered) :
      Linked { s with run := s.run.withLedger ledger, lastEventId := e.id } := by
    refine h.withLedger numbered (Run.handleEvent_keeps_ids handled).1
      (Ledger.handleEvent_length handled) (h.aliased.handleEvent handled fun target => ?_)
      fun key i written => ?_
    · cases old : s.run.shared.ledger.aliases.get? (target, e.id) with
      | none => rfl
      | some i =>
        have := Int64.lt_of_lt_of_le later (h.past _ i old)
        exact absurd this Int64.lt_irrefl
    · rcases Ledger.handleEvent_writes_own_alias handled written with old | new
      · exact past key i old
      · exact new ▸ Int64.le_refl _
  unfold Session.applied
  cases result : Run.applyEvent e s.run with
  | error err => exact waited
  | ok run =>
    have applied := Run.applyEvent_applied result
    have numbered := applied.numbered h.numbered
    cases applied with
    | aside shared closed next =>
      obtain ⟨_, _, _, eq⟩ := shared
      exact waited.of_aside numbered (by rw [eq]) (by rw [eq])
        (fun p still => .inl (closed p still))
        (Nat.le_of_eq next.symm)
    | unresolved unresolved => exact handled unresolved numbered
    | resolved resolved =>
      have linked := handled resolved
        (Run.handleEvent_numbered resolved h.numbered)
      exact linked.settle _ _

theorem step {s' : Session} (h : s.Linked) (step : Step s s') : s'.Linked := by
  have numbered := h.numbered
  cases step with
  | call me c => exact h.called me c
  | look me wait =>
    obtain ⟨⟨signals, signalWaiters, shared⟩, opened, next⟩ :=
      Run.await_looked me wait (s.run.board.waiting, s.run.shared)
    have same : (s.run.looked Run.meaning me wait).shared =
        { s.run.shared with signals, signalWaiters } := shared
    refine h.of_aside ?_ (by rw [same]) (by rw [same]) opened next
    rw [same]
    exact ⟨numbered.sound, numbered.ids, numbered.markers, numbered.current⟩
  | tasks board placeholders next =>
    refine h.of_aside numbered rfl rfl (fun p still => .inl ?_) (Nat.le_of_eq next.symm)
    simp only [Session.IsOpen, Waiting.IsOpen] at still ⊢
    rw [← placeholders]
    exact still
  | enter replaying time markers =>
    obtain ⟨sideEffects, eq⟩ :=
      Context.loadMarkers_eq { s.run.shared with replaying, time } markers
    rw [eq]
    exact h.of_aside ⟨numbered.sound, numbered.ids, numbered.markers, numbered.current⟩ rfl rfl
      (fun _ still => .inl still) (Nat.le_refl _)
  | event e later => exact h.applied later
  | collect =>
    exact h.withLedger (Run.notifySent_numbered numbered) rfl (Ledger.notifySent_length _)
      h.aliased.notifySent h.past

end Linked

theorem Reached.linked {info : RunInfo} {s : Session} (reached : Reached info s) : s.Linked := by
  induction reached with
  | start => exact start_linked info
  | step _ step ih => exact ih.step step

/-! ## What an outcome does -/

theorem settle_fills_open {w : Run} {id : DecisionId} {p : PlaceholderId}
    (waits : w.shared.waiting.get? id = some p) (still : w.board.waiting.IsOpen p) (o : Outcome) :
    (w.settle id o).board.waiting.placeholders.get? p = some { value := some o } := by
  have taken := (Board.resolve_taken_iff w.board p o).mpr still
  simp only [Run.settle, waits, Board.resolve_placeholders, taken, and_self, if_true]

theorem settle_leaves_others {w : Run} {id : DecisionId} {q : PlaceholderId}
    (away : w.shared.waiting.get? id = some q → ¬ w.board.waiting.IsOpen q) (o : Outcome) :
    (w.settle id o).board.waiting.placeholders.get? q =
      w.board.waiting.placeholders.get? q := by
  unfold Run.settle
  cases waits : w.shared.waiting.get? id with
  | none => rfl
  | some p =>
    simp only [Board.resolve_placeholders]
    refine if_neg ?_
    rintro ⟨rfl, taken⟩
    exact away waits ((Board.resolve_taken_iff w.board p o).mp taken)

theorem Linked.applyEvent_settles {s : Session} (h : s.Linked) {i : Nat} {machine : Machine}
    (found : s.run.shared.ledger.machines[i]? = some machine) {e : HistoryEvent} {o : Outcome}
    (ends : machine.EndsWith e o) :
    ∃ ledger, Run.applyEvent e s.run = .ok ((s.run.withLedger ledger).settle machine.id o) := by
  obtain ⟨⟨route, routed⟩, ledger, handled⟩ := h.aliased.handleEvent_resolves found ends
  exact ⟨ledger, Run.applyEvent_handled routed (some o) handled⟩

/-! ## Who gets an outcome -/

/-- What ends the machine reaches the placeholder and no other: it waits under the id of the
machine as long as it is open, and an event that ends the machine gives it the outcome. -/
structure Delivers (s : Session) (machine : Machine) (p : PlaceholderId) : Prop where
  waits : s.IsOpen p → s.run.shared.waiting.get? machine.id = some p
  ends : ∀ e o, machine.EndsWith e o → ∃ run, Run.applyEvent e s.run = .ok run ∧
    (s.IsOpen p → run.board.waiting.placeholders.get? p = some { value := some o }) ∧
    ∀ q ≠ p, run.board.waiting.placeholders.get? q = s.run.board.waiting.placeholders.get? q

theorem Linked.delivers_of_waiting {s : Session} (h : s.Linked) {i : Nat} {machine : Machine}
    {p : PlaceholderId} (found : s.run.shared.ledger.machines[i]? = some machine)
    (waits : s.IsOpen p → s.run.shared.waiting.get? machine.id = some p)
    (others : ∀ q ≠ p, s.run.shared.waiting.get? machine.id = some q → s.IsOpen q →
      ∀ e o, ¬ machine.EndsWith e o) : s.Delivers machine p := by
  refine ⟨waits, ?_⟩
  intro e o ends
  obtain ⟨ledger, applied⟩ := h.applyEvent_settles found ends
  refine ⟨_, applied, ?_, ?_⟩
  · intro still
    exact settle_fills_open (w := s.run.withLedger ledger) (waits still) still o
  · intro q other
    exact settle_leaves_others (w := s.run.withLedger ledger)
      (fun waiting still => others q other waiting still e o ends) o

end Session

open Session in
/-- What ends a machine reaches the placeholder that was handed out for it, and no other, exactly
when the id of the machine still names it, or when the placeholder is gone and nothing open waits
under the id that could be given the outcome instead. -/
theorem delivers_iff_id_kept {info : RunInfo} {s : Session} (reached : Reached info s) {i : Nat}
    {machine : Machine} {p : PlaceholderId}
    (found : s.run.shared.ledger.machines[i]? = some machine) (handed : s.Handed i p) :
    s.Delivers machine p ↔
      s.run.shared.ledger.byId.get? machine.id = some i ∨
        ¬ s.IsOpen p ∧ ∀ q, s.run.shared.waiting.get? machine.id = some q → s.IsOpen q →
          ∀ e o, ¬ machine.EndsWith e o := by
  have linked := reached.linked
  constructor
  · intro delivers
    by_cases still : s.IsOpen p
    · obtain ⟨j, name, there⟩ := linked.waits _ p (delivers.waits still)
      exact .inl (linked.apart i j p handed there ▸ name)
    · refine .inr ⟨still, ?_⟩
      intro q waits opened e o ends
      obtain ⟨ledger, applied⟩ := linked.applyEvent_settles found ends
      obtain ⟨run, applied', -, others⟩ := delivers.ends e o ends
      cases applied.symm.trans applied'
      have given := settle_fills_open (w := s.run.withLedger ledger) waits opened o
      have other : q ≠ p := fun same => still (same ▸ opened)
      obtain ⟨waiter, before⟩ := opened
      rw [others q other, before] at given
      simp at given
  · rintro (name | ⟨gone, nobody⟩)
    · refine linked.delivers_of_waiting found (linked.registered _ i p name handed) ?_
      intro q other waits
      obtain ⟨j, name', there⟩ := linked.waits _ q waits
      obtain rfl : i = j := Option.some.inj (name.symm.trans name')
      exact absurd (by simpa [Handed] using there.symm.trans handed) other
    · exact linked.delivers_of_waiting found (fun still => absurd still gone) fun q _ => nobody q

/-! ## A cancellation that comes too late -/

namespace Session

def asks (s : Session) : Session :=
  s.called ⟨0⟩ (.activity "work" .null .value { id := some "x" })

/-- The activity `x` was scheduled and then asked to be canceled, and its result is due: the cancel
decision was sent, so that its id counts as free. -/
def lateCancel : Session :=
  ((((start {}).asks.collected.applied
    (eventOf 1 (.activityTaskScheduled { activityId := "x" }))).called ⟨0⟩
      (.cancel (.request (.activity "x" .value) ⟨1⟩ false))).collected.applied
        (eventOf 2 (.activityTaskCancelRequested { activityId := "x" })))

theorem lateCancel_reached : Reached {} lateCancel :=
  .step (.step (.step (.step (.step (.step .start (.call _ _ _)) (.collect _))
    (.event _ _ (by decide))) (.call _ _ _)) (.collect _)) (.event _ _ (by decide))

def lateResult : HistoryEvent :=
  eventOf 3 (.activityTaskCompleted { scheduledEventId := 1, result := some [55] })

end Session

open Session in
/-- As long as nobody asks for the activity again, its late result reaches its future. -/
theorem late_result_delivered : ∃ machine,
    lateCancel.run.shared.ledger.machines[0]? = some machine ∧ machine.isTerminal = true ∧
      lateCancel.IsOpen ⟨1⟩ ∧ lateCancel.Delivers machine ⟨1⟩ := by
  have found : lateCancel.run.shared.ledger.machines[0]?.map
      (fun m => (m.isTerminal, lateCancel.run.shared.ledger.byId.get? m.id)) =
        some (true, some 0) := by cbv
  obtain ⟨machine, there, facts⟩ := Option.map_eq_some_iff.mp found
  obtain ⟨settled, name⟩ := Prod.mk.inj facts
  exact ⟨machine, there, settled, ⟨none, by cbv⟩,
    (delivers_iff_id_kept lateCancel_reached there (by cbv)).mpr (.inl name)⟩

open Session in
/-- The activity is asked for again before its late result comes.  The result goes to the second
call, and the future of the first, though open, never sees it. -/
theorem late_result_misdelivered : ∃ s machine run,
    Reached {} s ∧ s.run.shared.ledger.machines[0]? = some machine ∧ s.Handed 0 ⟨1⟩ ∧
      s.IsOpen ⟨1⟩ ∧ machine.EndsWith lateResult (.completed (some [55])) ∧
      Run.applyEvent lateResult s.run = .ok run ∧ run.board.waiting.IsOpen ⟨1⟩ ∧
      s.Handed 1 ⟨2⟩ ∧
      run.board.waiting.placeholders.get? ⟨2⟩ = some { value := some (.completed (some [55])) } ∧
      ¬ s.Delivers machine ⟨1⟩ := by
  have found : lateCancel.asks.run.shared.ledger.machines[0]?.map
      (fun m => (m.id, (m.completed? lateResult).map Prod.fst)) =
        some (⟨.activity, "x"⟩, some (.completed (some [55]))) := by cbv
  have after : (Run.applyEvent lateResult lateCancel.asks.run).toOption.map
      (fun run => (run.board.waiting.placeholders.get? ⟨1⟩,
        run.board.waiting.placeholders.get? ⟨2⟩)) =
      some (some {}, some { value := some (.completed (some [55])) }) := by cbv
  obtain ⟨machine, there, facts⟩ := Option.map_eq_some_iff.mp found
  obtain ⟨id, completes⟩ := Prod.mk.inj facts
  obtain ⟨⟨o, machine'⟩, completed, rfl⟩ := Option.map_eq_some_iff.mp completes
  obtain ⟨run, applied, places⟩ := Option.map_eq_some_iff.mp after
  obtain ⟨first, second⟩ := Prod.mk.inj places
  have ok : Run.applyEvent lateResult lateCancel.asks.run = .ok run := by
    cases result : Run.applyEvent lateResult lateCancel.asks.run with
    | error err => simp [result, Except.toOption] at applied
    | ok run' =>
      simp only [result, Except.toOption, Option.some.injEq] at applied
      rw [applied]
  refine ⟨lateCancel.asks, machine, run, .step lateCancel_reached (.call _ _ _), there, by cbv,
    ⟨none, by cbv⟩, ⟨machine', .inl completed⟩, ok, ⟨none, first⟩, by cbv, second,
    ?_⟩
  intro delivers
  -- The placeholder of the first call is open, but another one waits under the id.
  have waits := delivers.waits ⟨none, by cbv⟩
  rw [id] at waits
  have other : lateCancel.asks.run.shared.waiting.get? ⟨.activity, "x"⟩ = some ⟨2⟩ := by cbv
  simp [other] at waits

end WorkflowReplay

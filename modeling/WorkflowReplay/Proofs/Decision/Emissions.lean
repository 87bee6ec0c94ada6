import WorkflowReplay.Proofs.Decision.Correlation
import WorkflowReplay.Proofs.Decision.Offers
import WorkflowReplay.Proofs.Decision.Outcomes

/-!
# What the collections of a run return

Only the machines in the order of collection are looked at, and settled machines leave the order.
Nothing is stranded all the same: whoever has a decision to send stands in the order, because a
machine that comes back after a refused cancel decision has nothing to send before its cancellation
is asked for again, which puts it back.  So a collection takes all that any machine has to send, and
over a run each machine sends its initial decision at most once, before everything else.
-/

set_option autoImplicit false

namespace WorkflowReplay

/-! ## Cancel decisions that are due -/

namespace Lifecycle

theorem cancelPending_of_initiate? {l l' : Lifecycle} {id : EventId}
    (accepted : l.initiate? id = some l') (due : l'.cancelPending = true) :
    l.cancelPending = true := by
  obtain ⟨created, rfl⟩ := initiate?_cases accepted
  simp_all [cancelPending, isTerminal, DecisionState.isTerminal]

theorem not_terminal_of_cancelPending {l : Lifecycle} (due : l.cancelPending = true) :
    l.isTerminal = false := by
  simp only [cancelPending, Bool.and_eq_true, Bool.not_eq_true'] at due
  exact due.2

theorem cancelPending_of_start? {l l' : Lifecycle} {id : EventId}
    (started : l.start? id = some l') (due : l'.cancelPending = true) :
    l.cancelPending = true := by
  obtain ⟨state, rfl⟩ | ⟨state, rfl⟩ := start?_cases started
  · simpa [cancelPending, isTerminal, state, DecisionState.isTerminal] using due
  · simp [cancelPending, isTerminal, DecisionState.isTerminal] at due

theorem not_cancelPending_of_failCancel? {l l' : Lifecycle} (refused : l.failCancel? = some l') :
    l'.cancelPending = false := by
  obtain ⟨-, rfl⟩ | ⟨-, rfl⟩ := failCancel?_cases refused
  · rfl
  · rfl

end Lifecycle

theorem Machine.initiated?_life {m m' : Machine} {e : HistoryEvent}
    (h : m.initiated? e = some m') :
    m.life.initiate? e.id = some m'.life ∨ m.life.record? e.id = some m'.life := by
  obtain ⟨l, rfl, ⟨accepted, -⟩ | ⟨recorded, -⟩⟩ := initiated?_cases h
  · exact .inl accepted
  · exact .inr recorded

/-! ## One machine and what it sends -/

def Request.IsCanceledBy (r : Request) (d : Decision) : Prop :=
  ∃ r' : Request, r'.id = r.id ∧ r'.initialDecision = r.initialDecision ∧
    r'.cancelDecision = some d

theorem Request.IsCanceledBy.ne_initial {r : Request} {d : Decision} (cancels : r.IsCanceledBy d) :
    d ≠ r.initialDecision := by
  obtain ⟨r', -, initial, cancel⟩ := cancels
  rintro rfl
  exact r'.initialDecision_ne_cancel (by simp [cancel, initial])

namespace Machine

structure Persists (m m' : Machine) : Prop where
  id : m'.id = m.id
  initialDecision : m'.request.initialDecision = m.request.initialDecision
  sent : ¬ m.IsUnsent → ¬ m'.IsUnsent

theorem Persists.refl (m : Machine) : m.Persists m := ⟨rfl, rfl, fun h => h⟩

theorem Persists.trans {a b c : Machine} (first : a.Persists b) (second : b.Persists c) :
    a.Persists c :=
  ⟨second.id.trans first.id, second.initialDecision.trans first.initialDecision,
    fun h => second.sent (first.sent h)⟩

theorem Evolves.persists {m m' : Machine} (evolves : m.Evolves m') : m.Persists m' := by
  refine ⟨evolves.id, evolves.initialDecision, ?_⟩
  intro sent unsent
  have emitted := evolves.life.sent (by simpa [IsUnsent] using sent)
  simp [IsUnsent, emitted] at unsent

theorem persists_markSent (m : Machine) : m.Persists m.markSent := by
  refine ⟨rfl, rfl, fun _ unsent => ?_⟩
  simp [IsUnsent, markSent, withLife] at unsent

theorem Persists.isCanceledBy {m m' : Machine} (persists : m.Persists m') {d : Decision}
    (cancels : m.request.IsCanceledBy d) : m'.request.IsCanceledBy d := by
  obtain ⟨r, id, initial, cancel⟩ := cancels
  exact ⟨r, id.trans persists.id.symm, initial.trans persists.initialDecision.symm, cancel⟩

/-- A machine has its initial decision to send, or not, and after that at most cancel decisions. -/
theorem pending_eq (m : Machine) :
    ∃ cancels, (∀ d ∈ cancels, m.request.IsCanceledBy d) ∧
      (m.IsUnsent ∧ m.pending = m.request.initialDecision :: cancels ∨
        ¬ m.IsUnsent ∧ m.pending = cancels) := by
  refine ⟨if m.life.cancelPending then m.request.cancelDecision.toList else [], ?_, ?_⟩
  · intro d member
    split at member
    · exact ⟨m.request, rfl, rfl, Option.mem_toList.mp member⟩
    · simp at member
  · cases sent : m.life.initialEmitted with
    | false => exact .inl ⟨sent, by simp [pending, sent]⟩
    | true => exact .inr ⟨by simp [IsUnsent, sent], by simp [pending, sent]⟩

end Machine

namespace Ledger

theorem Reception.IsGenuine.cancelPending_before {r : Reception} (genuine : r.IsGenuine)
    (due : r.reaction.machine.life.cancelPending = true) : r.before.life.cancelPending = true := by
  have unsettled := Lifecycle.not_terminal_of_cancelPending due
  cases genuine.effect with
  | accepted role =>
    rw [IsGenuine, role] at genuine
    obtain ⟨machine, initiated, reaction⟩ := Option.map_eq_some_iff.mp genuine
    rw [← reaction] at due unsettled
    rcases Machine.initiated?_life initiated with life | life
    · exact Lifecycle.cancelPending_of_initiate? life due
    · obtain ⟨l, -, completed⟩ := Option.map_eq_some_iff.mp life
      simp [← completed, Lifecycle.isTerminal, DecisionState.isTerminal] at unsettled
  | started _ life => exact Lifecycle.cancelPending_of_start? life due
  | ended _ life => simp [(Lifecycle.complete?_becomes_over life).2.isTerminal] at unsettled
  | canceled _ _ life => simp [(Lifecycle.cancel?_becomes_terminal life).2] at unsettled
  | cancelAccepted _ life => rwa [life] at due
  | cancelRefused _ life => simp [Lifecycle.not_cancelPending_of_failCancel? life] at due

/-! ## Nothing is stranded -/

/-- Whoever has a decision to send stands in the order of collection. -/
structure Tended (m : Ledger) : Prop where
  sound : m.Sound
  due : ∀ (i : Nat) machine, m.machines[i]? = some machine →
    machine.life.cancelPending = true → i ∈ m.order

theorem Tended.mem_order_of_pending {m : Ledger} (tended : m.Tended) {i : Nat} {machine : Machine}
    (found : m.machines[i]? = some machine) (some : machine.pending ≠ []) : i ∈ m.order := by
  by_cases unsent : machine.IsUnsent
  · exact tended.sound.unsent i machine found unsent
  · have sent : machine.life.initialEmitted = true := by simpa [Machine.IsUnsent] using unsent
    refine tended.due i machine found ?_
    by_contra undue
    simp [Machine.pending, sent, undue] at some

theorem operate_sends_or_grows (m : Ledger) (op : Operation) :
    (op = .collect ∨ op = .notifySent) ∧ m.operate op = m.notifySent ∨
      op ≠ .collect ∧ m.Grows (m.operate op) := by
  cases op with
  | make r new =>
    obtain ⟨pendingUpserts, eq⟩ := make_eq m r
    simp only [operate, eq]
    exact .inr ⟨by simp, (request_grows m r).trans (.with_pendingUpserts _ pendingUpserts)⟩
  | requestCancel id =>
    simp only [operate]
    cases asked : m.requestCancel? id with
    | none => exact .inr ⟨by simp, .refl m⟩
    | some m' => exact .inr ⟨by simp, requestCancel?_grows asked⟩
  | collect => exact .inl ⟨.inl rfl, rfl⟩
  | notifySent => exact .inl ⟨.inr rfl, rfl⟩
  | event e =>
    simp only [operate]
    cases handled : m.handleEvent e with
    | error err => exact .inr ⟨by simp, .refl m⟩
    | ok r => exact .inr ⟨by simp, handleEvent_grows handled⟩

theorem notifySent_settled {m : Ledger} (tended : m.Tended) {i : Nat} {machine : Machine}
    (found : m.notifySent.machines[i]? = some machine) : machine.life.IsSettled := by
  rw [notifySent_machine] at found
  split at found
  · obtain ⟨old, -, rfl⟩ := Option.map_eq_some_iff.mp found
    exact Lifecycle.markSent_settled old.life
  · next away =>
    refine ⟨?_, ?_⟩
    · by_contra unsent
      exact away (tended.sound.unsent i machine found (by simpa [Machine.IsUnsent] using unsent))
    · by_contra due
      exact away (tended.due i machine found (by simpa using due))

theorem Tended.after_operate {m : Ledger} (tended : m.Tended) (op : Operation) :
    (m.operate op).Tended := by
  have sound : (m.operate op).Sound := by
    rcases operate_sends_or_grows m op with ⟨-, sent⟩ | ⟨-, grows⟩
    · rw [sent]
      exact notifySent_sound tended.sound
    · exact grows.sound tended.sound
  refine ⟨sound, ?_⟩
  have changes := operate_changes m op
  generalize m.reception? op = r? at changes
  generalize m.operate op = m' at changes
  intro i machine found due
  cases changes with
  | kept => exact tended.due i machine found due
  | @made r new free =>
    change (m.made r).machines[i]? = some machine at found
    rw [made_machines] at found
    split at found
    · -- The machine that is replaced is settled, so it is another one.
      have other : m.byId.get? r.id ≠ some i := by
        intro name
        have live : m.isLive r.id = true := isLive_iff.mpr
          ⟨i, machine, name, found, Lifecycle.not_terminal_of_cancelPending due⟩
        simp [live] at free
      exact List.mem_append_left _
        (List.mem_filter.mpr ⟨tended.due i machine found due, by simpa using other⟩)
    · split at found
      · cases found
        simp [Lifecycle.cancelPending] at due
      · simp at found
  | @asked id j old new name found' canceled =>
    change (m.put j new).machines[i]? = some machine at found
    rw [put_machines found'] at found
    by_cases same : i = j
    · simp [same]
    · rw [if_neg fun h => same h.symm] at found
      exact List.mem_append_left _
        (List.mem_filter.mpr ⟨tended.due i machine found due, by simpa using same⟩)
  | sent =>
    have settled := (notifySent_settled tended found).2
    simp [settled] at due
  | @received r key pendingUpserts routed located found' genuine =>
    change (m.put r.index r.reaction.machine).machines[i]? = some machine at found
    rw [put_machines found'] at found
    split at found
    · next same =>
      cases found
      exact tended.due i r.before (same ▸ found') (genuine.cancelPending_before due)
    · exact tended.due i machine found due

theorem after_tended (ops : List Operation) : (after ops).Tended := by
  induction ops using List.reverseRecOn with
  | nil => exact ⟨empty_sound, by simp [after, empty]⟩
  | append_singleton ops op ih =>
    rw [after_concat]
    exact ih.after_operate op

theorem notifySent_collect {m : Ledger} (tended : m.Tended) : m.notifySent.collect.1 = [] := by
  refine List.flatMap_eq_nil_iff.mpr ?_
  intro i _
  cases found : m.notifySent.machines[i]? with
  | none => rfl
  | some machine => exact Machine.pending_of_settled (notifySent_settled tended found)

/-! ## What a machine sends -/

def pendingAt (m : Ledger) (i : Nat) : List Decision :=
  match m.machines[i]? with
  | some machine => machine.pending
  | none => []

theorem offers_eq (m : Ledger) :
    m.offers = m.order.flatMap fun i => (m.pendingAt i).map (i, ·) := by
  unfold offers pendingAt
  congr 1
  funext i
  cases m.machines[i]? <;> rfl

theorem Tended.offers_at {m : Ledger} (tended : m.Tended) (i : Nat) :
    (m.offers.filter (fun o => o.1 = i)).map Prod.snd = m.pendingAt i := by
  have one (order : List Nat) (nodup : order.Nodup) :
      ((order.flatMap fun j => (m.pendingAt j).map (j, ·)).filter (fun o => o.1 = i)).map Prod.snd =
        if i ∈ order then m.pendingAt i else [] := by
    induction order with
    | nil => rfl
    | cons j rest ih =>
      obtain ⟨first, later⟩ := List.nodup_cons.mp nodup
      rw [List.flatMap_cons, List.filter_append, List.map_append, ih later, List.filter_map]
      by_cases same : j = i
      · subst same
        simp [first, Function.comp_def]
      · simp [same, Ne.symm same, Function.comp_def]
  rw [offers_eq, one m.order tended.sound.nodup]
  split
  · rfl
  · next away =>
    unfold pendingAt
    split
    · next machine found =>
      by_contra some
      exact away (tended.mem_order_of_pending found fun nothing => some nothing.symm)
    · rfl

def collectedFrom : Ledger → List Operation → List (List (Nat × Decision))
  | _, [] => []
  | m, .collect :: rest => m.offers :: collectedFrom (m.operate .collect) rest
  | m, op :: rest => collectedFrom (m.operate op) rest

def emittedFrom (m : Ledger) (ops : List Operation) (i : Nat) : List Decision :=
  ((m.collectedFrom ops).flatten.filter (fun o => o.1 = i)).map Prod.snd

theorem collectedFrom_cons_of_ne_collect {op : Operation} (other : op ≠ .collect) (m : Ledger)
    (rest : List Operation) :
    m.collectedFrom (op :: rest) = (m.operate op).collectedFrom rest := by
  cases op with
  | collect => exact absurd rfl other
  | _ => rfl

theorem emittedFrom_cons_of_ne_collect {op : Operation} (other : op ≠ .collect) (m : Ledger)
    (rest : List Operation) (i : Nat) :
    m.emittedFrom (op :: rest) i = (m.operate op).emittedFrom rest i := by
  rw [emittedFrom, collectedFrom_cons_of_ne_collect other, emittedFrom]

theorem Tended.emittedFrom_collect {m : Ledger} (tended : m.Tended) (rest : List Operation)
    (i : Nat) :
    m.emittedFrom (.collect :: rest) i = m.pendingAt i ++ m.notifySent.emittedFrom rest i := by
  rw [emittedFrom, collectedFrom, List.flatten_cons, List.filter_append, List.map_append,
    tended.offers_at]
  rfl

theorem collectedFrom_append (m : Ledger) (past later : List Operation) :
    m.collectedFrom (past ++ later) =
      m.collectedFrom past ++ (past.foldl operate m).collectedFrom later := by
  induction past generalizing m with
  | nil => rfl
  | cons op rest ih =>
    by_cases collects : op = .collect
    · subst collects
      rw [List.cons_append, collectedFrom, ih, collectedFrom, List.cons_append, List.foldl_cons]
    · rw [List.cons_append, collectedFrom_cons_of_ne_collect collects, ih,
        collectedFrom_cons_of_ne_collect collects,
        List.foldl_cons]

theorem emittedFrom_append (m : Ledger) (past later : List Operation) (i : Nat) :
    m.emittedFrom (past ++ later) i =
      m.emittedFrom past i ++ (past.foldl operate m).emittedFrom later i := by
  simp only [emittedFrom, collectedFrom_append, List.flatten_append, List.filter_append,
    List.map_append]

theorem operate_persists {m : Ledger} (op : Operation) {i : Nat} {machine : Machine}
    (found : m.machines[i]? = some machine) :
    ∃ machine', (m.operate op).machines[i]? = some machine' ∧ machine.Persists machine' := by
  rcases operate_sends_or_grows m op with ⟨-, sent⟩ | ⟨-, grows⟩
  · rw [sent, notifySent_machine, found]
    split
    · exact ⟨machine.markSent, rfl, machine.persists_markSent⟩
    · exact ⟨machine, rfl, .refl machine⟩
  · obtain ⟨machine', there, evolves⟩ := grows.old i machine found
    exact ⟨machine', there, evolves.persists⟩

theorem run_persists {m : Ledger} (ops : List Operation) {i : Nat} {machine machine' : Machine}
    (found : m.machines[i]? = some machine)
    (last : (ops.foldl operate m).machines[i]? = some machine') : machine.Persists machine' := by
  induction ops generalizing m machine with
  | nil =>
    obtain rfl := Option.some.inj (found.symm.trans last)
    exact .refl machine
  | cons op rest ih =>
    obtain ⟨next, there, persists⟩ := operate_persists op found
    exact persists.trans (ih there last)

/-- What a machine sends from some moment on: its initial decision, if it was not sent before, and
after that at most cancel decisions. -/
theorem Tended.emittedFrom_eq {m : Ledger} (tended : m.Tended) (ops : List Operation) {i : Nat}
    {machine : Machine} (last : (ops.foldl operate m).machines[i]? = some machine) :
    ∃ cancels, (∀ d ∈ cancels, machine.request.IsCanceledBy d) ∧
      (m.emittedFrom ops i = cancels ∨
        m.emittedFrom ops i = machine.request.initialDecision :: cancels ∧
          ∀ first, m.machines[i]? = some first → first.IsUnsent) := by
  induction ops generalizing m with
  | nil => exact ⟨[], by simp, .inl rfl⟩
  | cons op rest ih =>
    obtain ⟨later, canceling, shape⟩ := ih (tended.after_operate op) last
    by_cases collects : op = .collect
    · subst collects
      rw [tended.emittedFrom_collect]
      change m.notifySent.emittedFrom rest i = _ ∨ m.notifySent.emittedFrom rest i = _ ∧ _ at shape
      cases found : m.machines[i]? with
      | none =>
        refine ⟨later, canceling, ?_⟩
        simp only [pendingAt, found, List.nil_append]
        exact shape.imp_right fun ⟨emitted, _⟩ => ⟨emitted, by simp⟩
      | some first =>
        -- The collection has sent the initial decision, so nothing but cancel decisions follows.
        obtain ⟨next, there, persists⟩ := operate_persists .collect found
        have sent : ¬ next.IsUnsent := notifySent_not_unsent tended.sound there
        have emitted : m.notifySent.emittedFrom rest i = later :=
          shape.resolve_right fun ⟨_, unsent⟩ => sent (unsent next there)
        have lasts : first.Persists machine := persists.trans (run_persists rest there last)
        obtain ⟨now, cancelingNow, pending⟩ := first.pending_eq
        refine ⟨now ++ later, ?_, ?_⟩
        · intro d member
          rcases List.mem_append.mp member with here | there
          · exact lasts.isCanceledBy (cancelingNow d here)
          · exact canceling d there
        · simp only [pendingAt, found, emitted]
          rcases pending with ⟨unsent, pending⟩ | ⟨-, pending⟩
          · refine .inr ⟨by rw [pending, lasts.initialDecision, List.cons_append], ?_⟩
            rintro _ ⟨⟩
            exact unsent
          · exact .inl (by rw [pending])
    · rw [emittedFrom_cons_of_ne_collect collects]
      refine ⟨later, canceling, shape.imp_right ?_⟩
      rintro ⟨emitted, unsent⟩
      refine ⟨emitted, ?_⟩
      intro first found
      obtain ⟨next, there, persists⟩ := operate_persists op found
      by_contra sent
      exact persists.sent sent (unsent next there)

/-- The machine with an index was accepted, has its initial decision to send, or is not there. -/
def Unspent (m : Ledger) (i : Nat) : Prop :=
  ∀ machine, m.machines[i]? = some machine → machine.IsUnsent ∨ machine.IsInitiated

theorem Grows.preserves_unspent {m m' : Ledger} (grows : m.Grows m') (sound : m.Sound) {i : Nat}
    (unspent : m.Unspent i) : m'.Unspent i := by
  intro machine' found'
  rcases Nat.lt_or_ge i m.machines.length with early | late
  · have found := List.getElem?_eq_getElem early
    obtain ⟨machine₁, found₁, evolves⟩ := grows.old i _ found
    obtain rfl : machine' = machine₁ := Option.some.inj (found'.symm.trans found₁)
    have life := sound.lives i _ found
    rcases unspent _ found with unsent | initiated
    · exact evolves.life.unsent life unsent
    · exact .inr (evolves.preserves_initiated life initiated)
  · exact grows.new sound i machine' late found'

theorem notifySent_unspent {m : Ledger} {i : Nat}
    (initiated : ∀ machine, m.machines[i]? = some machine → machine.IsInitiated) :
    m.notifySent.Unspent i := by
  intro machine found
  rw [notifySent_machine] at found
  split at found
  · obtain ⟨old, before, rfl⟩ := Option.map_eq_some_iff.mp found
    exact .inr (by simpa [Machine.IsInitiated, Machine.markSent, Machine.withLife]
      using initiated old before)
  · exact .inr (initiated machine found)

theorem Tended.initialDecision_mem_emittedFrom {m : Ledger} (tended : m.Tended)
    {ops : List Operation}
    (unnoticed : ∀ op ∈ ops, op ≠ .notifySent) {i : Nat} (unspent : m.Unspent i)
    {machine : Machine} (last : (ops.foldl operate m).machines[i]? = some machine)
    (sent : ¬ machine.IsUnsent) (unknown : ¬ machine.IsInitiated) :
    machine.request.initialDecision ∈ m.emittedFrom ops i := by
  induction ops generalizing m with
  | nil =>
    rcases unspent machine last with unsent | initiated
    · exact absurd unsent sent
    · exact absurd initiated unknown
  | cons op rest ih =>
    have later {m' : Ledger} (tended : m'.Tended) (unspent : m'.Unspent i)
        (last : (rest.foldl operate m').machines[i]? = some machine) :
        machine.request.initialDecision ∈ m'.emittedFrom rest i :=
      ih tended (fun op member => unnoticed op (List.mem_cons_of_mem _ member)) unspent last
    rcases operate_sends_or_grows m op with ⟨rfl | rfl, -⟩ | ⟨other, grows⟩
    · rw [tended.emittedFrom_collect]
      by_cases takes : ∃ first, m.machines[i]? = some first ∧ first.IsUnsent
      · obtain ⟨first, found, unsent⟩ := takes
        have persists := run_persists (.collect :: rest) found last
        obtain ⟨cancels, -, ⟨-, pending⟩ | ⟨gone, -⟩⟩ := first.pending_eq
        · exact List.mem_append_left _
            (by simp [pendingAt, found, pending, persists.initialDecision])
        · exact absurd unsent gone
      · refine List.mem_append_right _ (later (tended.after_operate .collect) ?_ last)
        refine notifySent_unspent fun first found => ?_
        exact (unspent first found).resolve_left fun unsent => takes ⟨first, found, unsent⟩
    · exact absurd rfl (unnoticed .notifySent (by simp))
    · rw [emittedFrom_cons_of_ne_collect other]
      exact later (tended.after_operate op) (grows.preserves_unspent tended.sound unspent) last

/-! ## The collections of a run -/

def emittedAt (ops : List Operation) (i : Nat) : List Decision := empty.emittedFrom ops i

theorem sent_of_accepted {ops : List Operation} {i : Nat}
    (accepted : ∃ r ∈ receptionsAt ops i, r.role = .initiated) :
    ∃ machine, (after ops).machines[i]? = some machine ∧ ¬ machine.IsUnsent := by
  obtain ⟨r, here, role⟩ := accepted
  obtain ⟨member, same⟩ := List.mem_filter.mp here
  obtain rfl : r.index = i := by simpa using same
  obtain ⟨machine, found, learned⟩ := Learned.of_reception member
  refine ⟨machine, found, fun unsent => ?_⟩
  have known := (learned.accepted r.event.id).mpr ⟨r, here, role, rfl⟩
  simp [learned.sound.created (learned.sound.unsent unsent)] at known

theorem emittedAt_eq {ops : List Operation} {i : Nat} {machine : Machine}
    (found : (after ops).machines[i]? = some machine) :
    ∃ cancels, (∀ d ∈ cancels, machine.request.IsCanceledBy d ∧
        d ≠ machine.request.initialDecision) ∧
      (emittedAt ops i = cancels ∨
        emittedAt ops i = machine.request.initialDecision :: cancels) := by
  obtain ⟨cancels, canceling, shape⟩ := (after_tended []).emittedFrom_eq ops found
  refine ⟨cancels, fun d member => ⟨canceling d member, (canceling d member).ne_initial⟩, ?_⟩
  exact shape.imp_right And.left

theorem count_emittedAt {ops : List Operation} {i : Nat} {machine : Machine}
    (found : (after ops).machines[i]? = some machine) :
    (emittedAt ops i).count machine.request.initialDecision ≤ 1 := by
  obtain ⟨cancels, canceling, shape⟩ := emittedAt_eq found
  have none : cancels.count machine.request.initialDecision = 0 :=
    List.count_eq_zero.mpr fun member => (canceling _ member).2 rfl
  rcases shape with emitted | emitted
  · rw [emitted]
    omega
  · rw [emitted, List.count_cons_self]
    omega

theorem initialDecision_not_emitted_again {past later : List Operation} {i : Nat}
    {machine : Machine} (found : (after (past ++ later)).machines[i]? = some machine)
    (accepted : ∃ r ∈ receptionsAt past i, r.role = .initiated) :
    machine.request.initialDecision ∉ (after past).emittedFrom later i := by
  rw [after_append] at found
  obtain ⟨first, here, sent⟩ := sent_of_accepted accepted
  obtain ⟨cancels, canceling, emitted | ⟨-, unsent⟩⟩ :=
    (after_tended past).emittedFrom_eq later found
  · rw [emitted]
    exact fun member => (canceling _ member).ne_initial rfl
  · exact absurd (unsent first here) sent

theorem created_machine_emitted {past later : List Operation} {i : Nat} {machine : Machine}
    (absent : (after past).machines[i]? = none) (unnoticed : ∀ op ∈ later, op ≠ .notifySent)
    (found : (after (past ++ later)).machines[i]? = some machine)
    (created : machine.state = .created) :
    machine.request.initialDecision ∈ emittedAt (past ++ later ++ [.collect]) i := by
  have tended := after_tended past
  have sound := (after_tended (past ++ later)).sound.lives i machine found
  obtain ⟨next, there, persists⟩ := operate_persists .collect found
  have settled := notifySent_settled (after_tended (past ++ later)) there
  have unknown : ¬ next.IsInitiated := by
    change (after (past ++ later)).notifySent.machines[i]? = some next at there
    rw [notifySent_machine, found] at there
    split at there
    all_goals
      cases there
      simp [Machine.IsInitiated, Machine.markSent, Machine.withLife, sound.created created]
  have last : ((later ++ [Operation.collect]).foldl operate (after past)).machines[i]? =
      some next := by
    rw [List.foldl_append, ← after_append]
    exact there
  have taken : next.request.initialDecision ∈ (after past).emittedFrom (later ++ [.collect]) i := by
    refine tended.initialDecision_mem_emittedFrom ?_ (by simp [Unspent, absent]) last
      (by simp [Machine.IsUnsent, settled.1]) unknown
    intro op member
    rcases List.mem_append.mp member with old | new
    · exact unnoticed op old
    · rw [List.mem_singleton.mp new]
      simp
  rw [List.append_assoc, emittedAt, emittedFrom_append, ← persists.initialDecision]
  exact List.mem_append_right _ taken

theorem nothing_pending_after_sending (ops : List Operation) {op : Operation}
    (sends : op = .collect ∨ op = .notifySent) :
    (∀ (i : Nat) machine, (after (ops ++ [op])).machines[i]? = some machine →
      machine.pending = []) ∧ (after (ops ++ [op])).collect.1 = [] := by
  have sent : after (ops ++ [op]) = (after ops).notifySent := by
    rw [after_concat]
    rcases sends with rfl | rfl <;> rfl
  rw [sent]
  refine ⟨?_, notifySent_collect (after_tended ops)⟩
  intro i machine found
  exact Machine.pending_of_settled (notifySent_settled (after_tended ops) found)

/-- Over a run every machine sends its initial decision once at most: before any cancel decision,
before the history accepts it, and no later than to the first collection unless a notice came before
that.  A collection or a notice leaves nothing to send, whatever became of the machines. -/
theorem emission_exactly_once (ops : List Operation) :
    (after ops).collect.1 = (after ops).offers.map Prod.snd ∧
    (∀ (i : Nat) machine, (after ops).machines[i]? = some machine →
      (emittedAt ops i).count machine.request.initialDecision ≤ 1 ∧
      (∃ cancels, (∀ d ∈ cancels, machine.request.IsCanceledBy d ∧
          d ≠ machine.request.initialDecision) ∧
        (emittedAt ops i = cancels ∨
          emittedAt ops i = machine.request.initialDecision :: cancels)) ∧
      (∀ past later, ops = past ++ later →
        (∃ r ∈ receptionsAt past i, r.role = .initiated) →
        machine.request.initialDecision ∉ (after past).emittedFrom later i) ∧
      (∀ past later, ops = past ++ later → (after past).machines[i]? = none →
        (∀ op ∈ later, op ≠ .notifySent) → machine.state = .created →
        machine.request.initialDecision ∈ emittedAt (ops ++ [.collect]) i)) ∧
    ∀ op : Operation, op = .collect ∨ op = .notifySent →
      (∀ (i : Nat) machine, (after (ops ++ [op])).machines[i]? = some machine →
        machine.pending = []) ∧ (after (ops ++ [op])).collect.1 = [] := by
  refine ⟨(offers_decisions _).symm, ?_, ?_⟩
  · intro i machine found
    refine ⟨count_emittedAt found, emittedAt_eq found, ?_, ?_⟩
    · rintro past later rfl accepted
      exact initialDecision_not_emitted_again found accepted
    · rintro past later rfl absent unnoticed created
      exact created_machine_emitted absent unnoticed found created
  · intro op sends
    exact nothing_pending_after_sending ops sends

/-- An activity whose cancel decision is refused after the cancellation was confirmed has left the
order by then; it comes back, and its second cancel decision is sent like the first. -/
def revivedActivity : List Operation := [.activity { activityId := "a" }] ++ [.collect,
  .event ⟨1, ⟨0, 0⟩, .activityTaskScheduled { activityId := "a" }⟩,
  .requestCancel ⟨.activity, "a"⟩, .collect, .event (cancelConfirmed 2), .collect,
  .event (cancelRefused 3), .requestCancel ⟨.activity, "a"⟩]

theorem revived_activity_sends_once :
    ∃ machine, (after revivedActivity).machines[0]? = some machine ∧
      emittedAt (revivedActivity ++ [.collect]) 0 =
        [machine.request.initialDecision, .requestCancelActivityTask "a",
          .requestCancelActivityTask "a"] ∧
      machine.request.initialDecision ∉
        (after (revivedActivity.take 3)).emittedFrom (revivedActivity.drop 3) 0 ∧
      machine.request.initialDecision ∈ emittedAt [.activity { activityId := "a" }, .collect] 0 ∧
      (after (revivedActivity ++ [.collect])).collect.1 = [] := by
  have one : ∃ machine, (after revivedActivity).machines[0]? = some machine := ⟨_, rfl⟩
  obtain ⟨machine, found⟩ := one
  have same : machine.request.initialDecision = .scheduleActivityTask { activityId := "a" } := by
    cases found
    rfl
  obtain ⟨-, each, last⟩ := emission_exactly_once revivedActivity
  obtain ⟨-, -, accepted, -⟩ := each 0 machine found
  have fresh : ∃ first, (after [.activity { activityId := "a" }]).machines[0]? = some first ∧
      first.state = .created ∧ first.request.initialDecision = machine.request.initialDecision :=
    ⟨_, rfl, rfl, same.symm⟩
  obtain ⟨first, made, created, named⟩ := fresh
  obtain ⟨-, ofFirst, -⟩ := emission_exactly_once [.activity { activityId := "a" }]
  obtain ⟨-, -, -, sent⟩ := ofFirst 0 first made
  refine ⟨machine, found, ?_, ?_, ?_, (last .collect (.inl rfl)).2⟩
  · rw [same]
    decide
  · exact accepted _ _ (List.take_append_drop 3 revivedActivity).symm (by decide)
  · rw [← named]
    exact sent [] _ rfl rfl (by simp [Operation.activity]) created

end Ledger

end WorkflowReplay

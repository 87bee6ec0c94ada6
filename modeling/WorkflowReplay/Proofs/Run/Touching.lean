import WorkflowReplay.Proofs.Schedule.QueueLog
import WorkflowReplay.Run.Events

/-!
# How workflow code touches the board

The calls and the looks of workflow code change the board of a run by touches alone: a request makes
a placeholder, a timer that is canceled resolves one, and a look polls the placeholder or the output
that a future waits for.  What holds of all schedulers whose code touches the board like this holds
of runs.
-/

set_option autoImplicit false

namespace WorkflowReplay.Run

open Schedule

abbrev Touches := List (Touch Outcome (Except Error Json))

/-! ## Calls -/

def settleTouches (id : DecisionId) (o : Outcome) (w : Run) : Touches :=
  match w.shared.waiting.get? id with
  | none => []
  | some p => [.resolve p o]

def timerTouches (delay : Span) (w : Run) : Touches :=
  if delay.isZero then [.make, .resolve w.board.make.1 (.completed none)]
  else
    match delay.timerSeconds? with
    | some _ => [.make]
    | none => [.make, .drop w.board.make.1]

def requestCancelTouches (id : DecisionId) (w : Run) : Touches :=
  match w.shared.ledger.requestCancel? id with
  | none => []
  | some _ => if id.target = .timer then settleTouches id (.canceled none) w else []

def cancelTouches (f : Future) (w : Run) : Touches :=
  match f with
  | .request promise _ _ =>
    match promise.decisionId? with
    | none => []
    | some id => requestCancelTouches id w
  | _ => []

def requestTouches (target : DecisionTarget) (chosen : String × Context) : Touches :=
  if chosen.2.ledger.isLive ⟨target, chosen.1⟩ then [] else [.make]

def performTouches : Call → Run → Touches
  | .activity _ _ _ o, w => requestTouches .activity (chosenId o.id w.shared)
  | .child _ _ _ o, w => requestTouches .childWorkflow (childId o.id w.shared)
  | .timer delay, w => timerTouches delay w
  | .signalExternal .., _ => [.make]
  | .cancelExternal .., _ => [.make]
  | .cancel f, w => cancelTouches f w
  | .drop f, _ =>
    match f.placeholder? with
    | some id => [.drop id]
    | none => []
  | _, _ => []

theorem settle_board (id : DecisionId) (o : Outcome) (w : Run) :
    (w.settle id o).board = (settleTouches id o w).foldl Board.touch w.board := by
  unfold settle settleTouches
  cases w.shared.waiting.get? id <;> rfl

theorem timer_board (delay : Span) (w : Run) :
    (w.timer delay).2.board = (timerTouches delay w).foldl Board.touch w.board := by
  unfold timer timerTouches
  split
  · rfl
  · cases delay.timerSeconds? <;> rfl

theorem activity_board (type : String) (input : Json) (shape : Shape) (o : ActivityOptions)
    (w : Run) :
    (w.activity type input shape o).2.board =
      (requestTouches .activity (chosenId o.id w.shared)).foldl Board.touch w.board := by
  unfold activity requestTouches
  generalize chosenId o.id w.shared = chosen
  simp only
  split <;> rfl

theorem child_board (type : String) (input : Json) (shape : Shape) (o : ChildOptions) (w : Run) :
    (w.child type input shape o).2.board =
      (requestTouches .childWorkflow (childId o.id w.shared)).foldl Board.touch w.board := by
  unfold child requestTouches
  generalize childId o.id w.shared = chosen
  simp only
  split <;> rfl

theorem cancel_board (f : Future) (w : Run) :
    (w.cancel f).2.board = (cancelTouches f w).foldl Board.touch w.board := by
  cases f with
  | request promise placeholder accepted =>
    simp only [cancel, cancelTouches]
    cases promise.decisionId? with
    | none => rfl
    | some id =>
      simp only [requestCancel, requestCancelTouches]
      cases w.shared.ledger.requestCancel? id with
      | none => rfl
      | some ledger =>
        simp only
        split
        · exact settle_board id (.canceled none) { w with shared := { w.shared with ledger } }
        · rfl
  | _ => rfl

theorem sideEffect_board (closure : Closure) (shape : Shape) (w : Run) :
    (w.sideEffect closure shape).2.board = w.board := by
  unfold sideEffect
  simp only
  split
  · rfl
  · split
    · rfl
    · split <;> rfl

theorem upsert_board (attributes : List (String × Json)) (w : Run) :
    (w.upsert attributes).2.board = w.board := by
  unfold upsert
  split <;> rfl

theorem perform_board (me : TaskId) (c : Call) (w : Run) :
    (perform me c w).2.board = (performTouches c w).foldl Board.touch w.board := by
  cases c with
  | activity type input shape o => exact activity_board type input shape o w
  | timer delay => exact timer_board delay w
  | child type input shape o => exact child_board type input shape o w
  | cancel f => exact cancel_board f w
  | drop f =>
    simp only [perform, drop, performTouches]
    cases f.placeholder? <;> rfl
  | sideEffect closure shape => exact sideEffect_board closure shape w
  | upsert attributes => exact upsert_board attributes w
  | _ => rfl

theorem settleTouches_resolve {id : DecisionId} {o : Outcome} {w : Run}
    {t : Touch Outcome (Except Error Json)} (member : t ∈ settleTouches id o w) :
    ∃ p, t = .resolve p o := by
  unfold settleTouches at member
  split at member
  · simp at member
  · next p _ => exact ⟨p, List.mem_singleton.mp member⟩

theorem cancelTouches_resolve {f : Future} {w : Run} {t : Touch Outcome (Except Error Json)}
    (member : t ∈ cancelTouches f w) : ∃ p o, t = .resolve p o := by
  unfold cancelTouches at member
  split at member
  · split at member
    · simp at member
    · next id _ =>
      unfold requestCancelTouches at member
      split at member
      · simp at member
      · split at member
        · obtain ⟨p, same⟩ := settleTouches_resolve member
          exact ⟨p, _, same⟩
        · simp at member
  · simp at member

theorem requestTouches_make {target : DecisionTarget} {chosen : String × Context}
    {t : Touch Outcome (Except Error Json)} (member : t ∈ requestTouches target chosen) :
    t = .make := by
  unfold requestTouches at member
  split at member
  · simp at member
  · exact List.mem_singleton.mp member

theorem performTouches_cases {c : Call} {w : Run} {t : Touch Outcome (Except Error Json)}
    (member : t ∈ performTouches c w) :
    t = .make ∨ (∃ p o, t = .resolve p o) ∨ ∃ p, t = .drop p := by
  cases c with
  | activity type input shape o => exact .inl (requestTouches_make member)
  | child type input shape o => exact .inl (requestTouches_make member)
  | timer delay =>
    simp only [performTouches, timerTouches] at member
    split at member
    · rcases List.mem_cons.mp member with rfl | fires
      · exact .inl rfl
      · exact .inr (.inl ⟨_, _, List.mem_singleton.mp fires⟩)
    · split at member
      · exact .inl (List.mem_singleton.mp member)
      · rcases List.mem_cons.mp member with rfl | dropped
        · exact .inl rfl
        · exact .inr (.inr ⟨_, List.mem_singleton.mp dropped⟩)
  | signalExternal run signal input childOnly => exact .inl (List.mem_singleton.mp member)
  | cancelExternal run childOnly => exact .inl (List.mem_singleton.mp member)
  | cancel f => exact .inr (.inl (cancelTouches_resolve member))
  | drop f =>
    simp only [performTouches] at member
    split at member
    · next id _ => exact .inr (.inr ⟨id, List.mem_singleton.mp member⟩)
    · simp at member
  | _ => simp [performTouches] at member

/-! ## Looks -/

def futureTouches (me : TaskId) (f : Future) (g : Future.Ground) : Touches :=
  match f with
  | .request _ id _ => [.poll me (.value id)]
  | .signal _ _ (some id) => [.poll me (.value id)]
  | .signal name _ none =>
    match g.2.takeSignal? name with
    | some _ => []
    | none => [.make, .poll me (.value g.1.make.1)]
  | .task id => [.poll me (.output id)]

def firstTouches (me : TaskId) : List Future → Future.Ground → Touches
  | [], _ => []
  | f :: rest, g =>
    futureTouches me f g ++
      match f.look me g with
      | ((some _, _), _) => []
      | ((none, _), g) => firstTouches me rest g

def allTouches (me : TaskId) : List Item → Future.Ground → Touches
  | [], _ => []
  | .closed _ :: rest, g => allTouches me rest g
  | .open f :: rest, g => futureTouches me f g ++ allTouches me rest (f.look me g).2

def lookTouches (me : TaskId) : Await → Run → Touches
  | .first fs, w => firstTouches me fs (w.board.waiting, w.shared)
  | .every items, w => allTouches me items (w.board.waiting, w.shared)

/-- What a future stands for once it was looked at. -/
def awaited? : Future → Option Awaited
  | .request _ id _ => some (.value id)
  | .signal _ _ id => id.map .value
  | .task id => some (.output id)

def kept : Await → List Awaited
  | .first fs => fs.filterMap awaited?
  | .every items => items.filterMap fun
    | .open f => awaited? f
    | .closed _ => none

theorem futureLook_board (me : TaskId) (f : Future) (b : Board Outcome (Except Error Json))
    (c : Context) :
    { b with waiting := (f.look me (b.waiting, c)).2.1 } =
      (futureTouches me f (b.waiting, c)).foldl Board.touch b := by
  cases f with
  | request promise id accepted => rfl
  | signal name shape placeholder =>
    cases placeholder with
    | some id => rfl
    | none =>
      simp only [Future.look, futureTouches]
      cases c.takeSignal? name <;> rfl
  | task id => rfl

theorem lookFirst_board (me : TaskId) (fs : List Future) (b : Board Outcome (Except Error Json))
    (c : Context) :
    { b with waiting := (lookFirst me fs (b.waiting, c)).2.1 } =
      (firstTouches me fs (b.waiting, c)).foldl Board.touch b := by
  induction fs generalizing b c with
  | nil => rfl
  | cons f rest ih =>
    have first := futureLook_board me f b c
    rw [lookFirst, firstTouches, List.foldl_append, ← first]
    split
    · next seen =>
      rw [seen]
      rfl
    · next g seen =>
      rw [seen]
      exact ih { b with waiting := g.1 } g.2

theorem lookAll_board (me : TaskId) (items : List Item) (b : Board Outcome (Except Error Json))
    (c : Context) :
    { b with waiting := (lookAll me items (b.waiting, c)).2.1 } =
      (allTouches me items (b.waiting, c)).foldl Board.touch b := by
  induction items generalizing b c with
  | nil => rfl
  | cons item rest ih =>
    cases item with
    | closed r => exact ih b c
    | «open» f =>
      rw [allTouches, List.foldl_append, ← futureLook_board]
      exact ih { b with waiting := (f.look me (b.waiting, c)).2.1 } (f.look me (b.waiting, c)).2.2

theorem look_board (me : TaskId) (s : Await) (w : Run) :
    (w.looked meaning me s).board = (lookTouches me s w).foldl Board.touch w.board := by
  cases s with
  | first fs => exact lookFirst_board me fs w.board w.shared
  | every items => exact lookAll_board me items w.board w.shared

theorem futureTouches_cases {me : TaskId} {f : Future} {g : Future.Ground}
    {t : Touch Outcome (Except Error Json)} (member : t ∈ futureTouches me f g) :
    t = .make ∨ ∃ key, t = .poll me key := by
  cases f with
  | request promise id accepted => exact .inr ⟨_, List.mem_singleton.mp member⟩
  | signal name shape placeholder =>
    cases placeholder with
    | some id => exact .inr ⟨_, List.mem_singleton.mp member⟩
    | none =>
      simp only [futureTouches] at member
      split at member
      · simp at member
      · rcases List.mem_cons.mp member with rfl | polls
        · exact .inl rfl
        · exact .inr ⟨_, List.mem_singleton.mp polls⟩
  | task id => exact .inr ⟨_, List.mem_singleton.mp member⟩

theorem firstTouches_cases {me : TaskId} {fs : List Future} {g : Future.Ground}
    {t : Touch Outcome (Except Error Json)} (member : t ∈ firstTouches me fs g) :
    t = .make ∨ ∃ key, t = .poll me key := by
  induction fs generalizing g with
  | nil => simp [firstTouches] at member
  | cons f rest ih =>
    rcases List.mem_append.mp member with now | later
    · exact futureTouches_cases now
    · split at later
      · simp at later
      · exact ih later

theorem allTouches_cases {me : TaskId} {items : List Item} {g : Future.Ground}
    {t : Touch Outcome (Except Error Json)} (member : t ∈ allTouches me items g) :
    t = .make ∨ ∃ key, t = .poll me key := by
  induction items generalizing g with
  | nil => simp [allTouches] at member
  | cons item rest ih =>
    cases item with
    | closed r => exact ih member
    | «open» f =>
      rcases List.mem_append.mp member with now | later
      · exact futureTouches_cases now
      · exact ih later

theorem lookTouches_cases {me : TaskId} {s : Await} {w : Run}
    {t : Touch Outcome (Except Error Json)} (member : t ∈ lookTouches me s w) :
    t = .make ∨ ∃ key, t = .poll me key := by
  cases s with
  | first fs => exact firstTouches_cases member
  | every items => exact allTouches_cases member

def tracing : meaning.Tracing where
  performed _ := performTouches
  looked := lookTouches
  kept := kept
  perform_board := perform_board
  look_board := look_board
  own _ _ _ _ member := by
    rcases performTouches_cases member with rfl | ⟨p, o, rfl⟩ | ⟨p, rfl⟩
    all_goals trivial
  looks _ _ _ _ := lookTouches_cases

/-- Workflow code wakes nobody but who waits, and leaves no waker but its own. -/
theorem tracing_wakesTasks : tracing.WakesTasks where
  performed me c w known t member id waker := by
    rcases performTouches_cases member with rfl | ⟨p, o, rfl⟩ | ⟨p, rfl⟩
    all_goals simp [Touch.waker?] at waker
  looked me s w known t member id waker := by
    rcases lookTouches_cases member with rfl | ⟨key, rfl⟩
    · simp [Touch.waker?] at waker
    · exact Option.some.inj waker ▸ known

/-! ## Events -/

theorem deliver_board (name : String) (input : Option Payload) (waiters : List PlaceholderId)
    (w : Run) :
    ∃ ts : Touches, (∀ t ∈ ts, ∃ p, t = .resolve p (.completed input)) ∧
      (deliver name input waiters w).board = ts.foldl Board.touch w.board := by
  induction waiters generalizing w with
  | nil => exact ⟨[], by simp, rfl⟩
  | cons p rest ih =>
    have touched : (w.board.resolve p (.completed input)).2 =
        w.board.touch (.resolve p (.completed input)) := rfl
    rw [deliver]
    split
    · next board taken =>
      rw [taken] at touched
      exact ⟨[.resolve p (.completed input)], by simp, touched⟩
    · next board refused =>
      rw [refused] at touched
      obtain ⟨ts, resolves, rest⟩ := ih { w with board }
      refine ⟨.resolve p (.completed input) :: ts, ?_, ?_⟩
      · intro t member
        rcases List.mem_cons.mp member with rfl | later
        · exact ⟨p, rfl⟩
        · exact resolves t later
      · rw [rest, List.foldl_cons, ← touched]

/-- An event resolves placeholders, and touches the board in no other way. -/
theorem applyEvent_board {e : HistoryEvent} {w w' : Run} (applied : applyEvent e w = .ok w') :
    ∃ ts : Touches, (∀ t ∈ ts, ∃ p o, t = .resolve p o) ∧
      w'.board = ts.foldl Board.touch w.board := by
  unfold applyEvent at applied
  split at applied
  · next a _ =>
    cases applied
    obtain ⟨ts, resolves, board⟩ := deliver_board a.signalName a.input
      (w.shared.signalWaiters.getD a.signalName []) w
    refine ⟨ts, fun t member => ?_, board⟩
    obtain ⟨p, same⟩ := resolves t member
    exact ⟨p, _, same⟩
  · cases applied
    exact ⟨[], by simp, rfl⟩
  · split at applied
    · simp at applied
    · next resolution ledger _ =>
      cases resolution with
      | none =>
        cases applied
        exact ⟨[], by simp, rfl⟩
      | some r =>
        cases applied
        refine ⟨_, fun t member => ?_, settle_board r.id r.outcome _⟩
        obtain ⟨p, same⟩ := settleTouches_resolve member
        exact ⟨p, _, same⟩

end WorkflowReplay.Run

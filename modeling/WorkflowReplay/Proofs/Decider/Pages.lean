import WorkflowReplay.Proofs.Decider.Handling

/-!
# A history in pages

How a history is cut into an inline part and pages makes no difference to a task: the parts are put
together before an engine sees them.  A page more than the limit allows is never asked for; the
task is failed instead, and the run is forgotten.
-/

set_option autoImplicit false

namespace WorkflowReplay

structure OfferedPage where
  token : Payload
  events : List HistoryEvent

/-- The token that asks for the first of some pages; `last` is left after all of them. -/
def nextToken (last : Option Payload) : List OfferedPage → Option Payload
  | [] => last
  | p :: _ => some p.token

/-- The task with the first part of its history only, and a token for the rest. -/
def DecisionTask.cut (t : DecisionTask) (inline : List HistoryEvent) (pages : List OfferedPage)
    (last : Option Payload) : DecisionTask :=
  { t with history := inline, nextPageToken := nextToken last pages }

namespace Config

variable (c : Config) (source : HistorySource) (run : Execution)

def requestFor (p : OfferedPage) : PageRequest := ⟨run, p.token, c.historyPageSize⟩

/-- The source gives these pages in order, when `asked` of them were given before. -/
def Serves (last : Option Payload) : Nat → List OfferedPage → Prop
  | _, [] => True
  | asked, p :: rest =>
    source asked (c.requestFor run p) = .page ⟨p.events, nextToken last rest⟩ ∧
      Serves last (asked + 1) rest

variable {c source run} {last : Option Payload}

theorem fetchFrom_none {t : DecisionTask} (inline : t.nextPageToken = none) (asked left : Nat) :
    c.fetchFrom source t asked left = { result := .ok t } := by
  cases left <;> simp only [fetchFrom, inline]

theorem fetchFrom_page {t : DecisionTask} {p : OfferedPage} {rest : List OfferedPage} {asked : Nat}
    (first : t.nextPageToken = some p.token)
    (served : source asked (c.requestFor t.execution p) = .page ⟨p.events, nextToken last rest⟩)
    (left : Nat) :
    c.fetchFrom source t asked (left + 1) =
      let later := c.fetchFrom source
        (t.cut (t.history ++ p.events) rest last) (asked + 1) left
      { requests := c.requestFor t.execution p :: later.requests
        pages := later.pages + 1
        result := later.result } := by
  have answered : source asked ⟨t.execution, p.token, c.historyPageSize⟩ =
      .page ⟨p.events, nextToken last rest⟩ := served
  rw [fetchFrom]
  simp only [first, answered]
  rfl

theorem fetchFrom_complete {pages : List OfferedPage} {t : DecisionTask} {asked left : Nat}
    (serves : c.Serves source t.execution none asked pages)
    (first : t.nextPageToken = nextToken none pages) (few : pages.length ≤ left) :
    c.fetchFrom source t asked left =
      { requests := pages.map (c.requestFor t.execution)
        pages := pages.length
        result := .ok (t.cut (t.history ++ pages.flatMap OfferedPage.events) [] none) } := by
  induction pages generalizing t asked left with
  | nil =>
    rw [fetchFrom_none first]
    obtain ⟨_, _, _, history⟩ := t
    cases first
    simp [DecisionTask.cut, nextToken]
  | cons p rest ih =>
    obtain ⟨served, serves⟩ := serves
    obtain ⟨left, rfl⟩ : ∃ n, left = n + 1 := ⟨left - 1, by simp at few; omega⟩
    have later := ih (t := t.cut (t.history ++ p.events) rest none) serves rfl (by simpa using few)
    rw [fetchFrom_page first served, later]
    simp [DecisionTask.cut, nextToken]

theorem fetchFrom_exceeding {pages : List OfferedPage} {t : DecisionTask} {asked left : Nat}
    (serves : c.Serves source t.execution last asked pages)
    (first : t.nextPageToken = nextToken last pages) (many : left ≤ pages.length)
    (more : left = pages.length → last.isSome) :
    c.fetchFrom source t asked left =
      { requests := (pages.take left).map (c.requestFor t.execution)
        pages := left
        result := .error (c.tooManyPages t.execution) } := by
  induction left generalizing pages t asked with
  | zero =>
    have some : t.nextPageToken.isSome := by
      cases pages with
      | nil => simpa only [first, nextToken] using more rfl
      | cons p rest => simp [first, nextToken]
    obtain ⟨token, some⟩ := Option.isSome_iff_exists.mp some
    simp [fetchFrom, some]
  | succ left ih =>
    cases pages with
    | nil => simp at many
    | cons p rest =>
      obtain ⟨served, serves⟩ := serves
      have later := ih (t := t.cut (t.history ++ p.events) rest last) serves rfl
        (by simpa using many) (by simpa using more)
      rw [fetchFrom_page first served, later]
      rfl

theorem fetchFrom_bounded (t : DecisionTask) (asked left : Nat) :
    (c.fetchFrom source t asked left).requests.length ≤ left := by
  induction left generalizing t asked with
  | zero =>
    unfold fetchFrom
    split <;> simp
  | succ left ih =>
    unfold fetchFrom
    split
    · simp
    · dsimp only
      split
      · simp
      · simp
      · next p _ => simpa using ih (t.append p) (asked + 1)

end Config

/-! ## What is counted makes no difference -/

structure Decider.Agrees (d d' : Decider) : Prop where
  settings : d.SameSettings d'
  cache : d'.cache = d.cache

structure Processed.SameAs (p p' : Processed) : Prop where
  result : p'.result = p.result
  reports : p'.reports = p.reports
  agrees : p.decider.Agrees p'.decider

structure Handled.SameAs (h h' : Handled) : Prop where
  result : h'.result = h.result
  responses : h'.responses = h.responses
  reports : h'.reports = h.reports
  agrees : h.decider.Agrees h'.decider

namespace Decider

variable {d d' : Decider}

theorem Agrees.of_metrics (d : Decider) (metrics : Metrics) : d.Agrees { d with metrics } :=
  ⟨⟨rfl, rfl⟩, rfl⟩

theorem Agrees.with_metrics (agrees : d.Agrees d') (metrics metrics' : Metrics) :
    { d with metrics }.Agrees { d' with metrics := metrics' } :=
  ⟨⟨agrees.settings.config, agrees.settings.registry⟩, agrees.cache⟩

theorem Agrees.eq_with_metrics (agrees : d.Agrees d') : d' = { d with metrics := d'.metrics } := by
  obtain ⟨config, registry, cache, metrics⟩ := d'
  obtain ⟨⟨rfl, rfl⟩, rfl⟩ := agrees
  rfl

theorem Agrees.forget (agrees : d.Agrees d') (run : Execution) :
    (d.forget run).Agrees (d'.forget run) := by
  rw [agrees.eq_with_metrics]
  exact ⟨⟨rfl, rfl⟩, rfl⟩

theorem Agrees.keep (agrees : d.Agrees d') (run : Execution) (e : Engine) :
    (d.keep run e).Agrees (d'.keep run e) := by
  obtain ⟨settings, cache⟩ := keep_inserts_engine d run e
  obtain ⟨settings', cache'⟩ := keep_inserts_engine d' run e
  refine ⟨⟨?_, ?_⟩, ?_⟩
  · rw [settings'.config, agrees.settings.config, settings.config]
  · rw [settings'.registry, agrees.settings.registry, settings.registry]
  · rw [cache', agrees.cache, cache]

theorem Agrees.engineFor (agrees : d.Agrees d') (t : DecisionTask) :
    (d'.engineFor t).1 = (d.engineFor t).1 ∧ (d.engineFor t).2.Agrees (d'.engineFor t).2 := by
  rw [agrees.eq_with_metrics]
  unfold Decider.engineFor
  dsimp only
  cases (d.cache.get t.execution).1 with
  | none => exact ⟨rfl, ⟨⟨rfl, rfl⟩, rfl⟩⟩
  | some e => exact ⟨rfl, ⟨⟨rfl, rfl⟩, rfl⟩⟩

theorem Agrees.process (agrees : d.Agrees d') (t : DecisionTask) :
    (d.process t).SameAs (d'.process t) := by
  obtain ⟨same, looked⟩ := agrees.engineFor t
  unfold Decider.process
  generalize d.engineFor t = found at same looked ⊢
  generalize d'.engineFor t = found' at same looked ⊢
  obtain ⟨engine, d₁⟩ := found
  obtain ⟨engine', d₂⟩ := found'
  obtain rfl : engine' = engine := same
  have counted := looked.with_metrics
  cases engine' with
  | error failure => exact ⟨rfl, rfl, looked⟩
  | ok e =>
    dsimp only
    cases (e.process t).1 with
    | ok c =>
      dsimp only
      cases c.workflowCompleted with
      | true => exact ⟨rfl, rfl, (counted _ _).forget t.execution⟩
      | false => exact ⟨rfl, rfl, (counted _ _).keep t.execution _⟩
    | error fault => exact ⟨rfl, rfl, (counted _ _).forget t.execution⟩

/-- Two tasks whose histories come to the same are handled in the same way. -/
theorem handle_sameAs {source source' : HistorySource} (sink : Sink) {t t' full : DecisionTask}
    (fetched : (d.config.fetch source t).result = .ok full)
    (fetched' : (d.config.fetch source' t').result = .ok full) (token : t'.token = t.token)
    (run : t'.execution = t.execution) :
    (d.handle source sink t).SameAs (d.handle source' sink t') := by
  have answered : (d.answer t (d.config.fetch source t)).SameAs
      (d.answer t' (d.config.fetch source' t')) := by
    unfold answer
    rw [fetched, fetched']
    exact Agrees.process (.of_metrics (d.count _ _) _) full
  unfold handle
  dsimp only
  generalize d.answer t (d.config.fetch source t) = p at answered ⊢
  generalize d.answer t' (d.config.fetch source' t') = p' at answered ⊢
  obtain ⟨result, reports, d₁⟩ := p
  obtain ⟨result', reports', d₂⟩ := p'
  obtain ⟨rfl, rfl, agrees⟩ := answered
  have agrees : d₁.Agrees d₂ := agrees
  rw [agrees.eq_with_metrics]
  dsimp only [count]
  rw [token, run]
  cases result' with
  | ok c =>
    dsimp only
    cases sink (.completed t.token c.decisions d₁.config.identity) with
    | none => exact ⟨rfl, rfl, rfl, ⟨⟨rfl, rfl⟩, rfl⟩⟩
    | some err => exact ⟨rfl, rfl, rfl, ⟨⟨rfl, rfl⟩, rfl⟩⟩
  | error failure =>
    obtain ⟨cause, e⟩ := failure
    dsimp only
    cases sink (.failed t.token cause (some (Text.utf8 e.message)) d₁.config.identity) with
    | none => exact ⟨rfl, rfl, rfl, ⟨⟨rfl, rfl⟩, rfl⟩⟩
    | some err => exact ⟨rfl, rfl, rfl, ⟨⟨rfl, rfl⟩, rfl⟩⟩

theorem handle_requests (d : Decider) (source : HistorySource) (sink : Sink) (t : DecisionTask) :
    (d.handle source sink t).requests = (d.config.fetch source t).requests := by
  unfold handle
  dsimp only
  split
  · split <;> rfl
  · split <;> rfl

theorem handle_fetch_failed {source : HistorySource} {t : DecisionTask} {err : Error}
    (failed : (d.config.fetch source t).result = .error err) (sink : Sink) :
    let response := Response.failed t.token .workflowWorkerUnhandledFailure
      (some (Text.utf8 err.message)) d.config.identity
    (d.handle source sink t).responses = [response] ∧
      (d.handle source sink t).result = (match sink response with
        | some refused => .error refused
        | none => .ok (.failed .workflowWorkerUnhandledFailure)) ∧
      (d.handle source sink t).decider.cache = (d.cache.evict t.execution).2 := by
  intro response
  have answered : d.answer t (d.config.fetch source t) =
      { result := .error (.workflowWorkerUnhandledFailure, err)
        decider := (d.count .historyPagesFetched (d.config.fetch source t).pages).forget
          t.execution } := by
    unfold answer
    rw [failed]
  unfold handle
  dsimp only
  rw [answered]
  dsimp only [forget, count, response]
  cases sink (.failed t.token .workflowWorkerUnhandledFailure (some (Text.utf8 err.message))
      d.config.identity) with
  | none => exact ⟨rfl, rfl, rfl⟩
  | some refused => exact ⟨rfl, rfl, rfl⟩

/-- A task that comes in pages is the task with everything inline: as long as the pages keep to the
limit, each is asked for once and in order, and neither the response nor what is kept tells them
apart.  No task asks for more pages than the limit allows; where one more would be needed, the task
is failed and the engine of its run is forgotten. -/
theorem pages_exact (d : Decider) (source : HistorySource) (sink : Sink) (t : DecisionTask) :
    (∀ inline pages, t.nextPageToken = none →
        t.history = inline ++ pages.flatMap OfferedPage.events →
        d.config.Serves source t.execution none 0 pages →
        pages.length ≤ d.config.maxHistoryPages →
        (d.handle source sink (t.cut inline pages none)).requests =
            pages.map (d.config.requestFor t.execution) ∧
          ∀ source', (d.handle source' sink t).SameAs
            (d.handle source sink (t.cut inline pages none))) ∧
      (d.handle source sink t).requests.length ≤ d.config.maxHistoryPages ∧
      ∀ pages last, t.nextPageToken = nextToken last pages →
        d.config.Serves source t.execution last 0 pages →
        d.config.maxHistoryPages ≤ pages.length →
        (d.config.maxHistoryPages = pages.length → last.isSome) →
        let h := d.handle source sink t
        let response := Response.failed t.token .workflowWorkerUnhandledFailure
          (some (Text.utf8 (d.config.tooManyPages t.execution).message)) d.config.identity
        h.requests = (pages.take d.config.maxHistoryPages).map (d.config.requestFor t.execution) ∧
          h.responses = [response] ∧
          h.result = (match sink response with
            | some refused => .error refused
            | none => .ok (.failed .workflowWorkerUnhandledFailure)) ∧
          ∀ run, h.decider.kept? run = if t.execution = run then none else d.kept? run := by
  refine ⟨?_, ?_, ?_⟩
  · intro inline pages none whole serves few
    have fetched := Config.fetchFrom_complete (t := t.cut inline pages .none) serves rfl few
    have together : (t.cut inline pages .none).cut
        (inline ++ pages.flatMap OfferedPage.events) [] .none = t := by
      rw [← whole]
      obtain ⟨_, _, _, history⟩ := t
      cases none
      rfl
    change d.config.fetch source (t.cut inline pages .none) = _ at fetched
    refine ⟨by rw [handle_requests, fetched]; rfl, fun source' => ?_⟩
    have inline' : d.config.fetch source' t = { result := .ok t } := Config.fetchFrom_none none _ _
    refine handle_sameAs sink (by rw [inline']) ?_ rfl rfl
    rw [fetched]
    exact congrArg Except.ok together
  · rw [handle_requests]
    exact Config.fetchFrom_bounded t 0 _
  · intro pages last first serves many more
    have fetched := Config.fetchFrom_exceeding serves first many more
    change d.config.fetch source t = _ at fetched
    obtain ⟨responses, result, cache⟩ := handle_fetch_failed (by rw [fetched]) sink
    refine ⟨by rw [handle_requests, fetched], responses, result, fun run => ?_⟩
    rw [kept?, cache, Cache.evict_value?]
    rfl

def inPages : List OfferedPage := [⟨[1], (firstTaskOf ⟨"a", ""⟩).history⟩, ⟨[2], []⟩]

def pageSource : HistorySource := fun _ request =>
  if request.token = [1] then .page ⟨(firstTaskOf ⟨"a", ""⟩).history, some [2]⟩ else .page {}

/-- With nothing inline and exactly as many pages as the limit allows, the task is answered. -/
theorem two_pages_answered :
    let d := new { maxHistoryPages := 2 } waiters
    let h := d.handle pageSource (fun _ => none) ((firstTaskOf ⟨"a", ""⟩).cut [] inPages none)
    h.requests = [⟨⟨"a", ""⟩, [1], 1000⟩, ⟨⟨"a", ""⟩, [2], 1000⟩] ∧
      h.responses = [.completed [] [] ""] := by
  intro d h
  obtain ⟨requests, same⟩ := (pages_exact d pageSource (fun _ => none) (firstTaskOf ⟨"a", ""⟩)).1
    [] inPages rfl (by decide) ⟨rfl, rfl, trivial⟩ (by decide)
  refine ⟨requests, (same pageSource).responses.trans ?_⟩
  cbv

end Decider

end WorkflowReplay

import Mathlib
import WorkflowReplay.Decider.Basic
import WorkflowReplay.Proofs.Decider.Recency

/-!
# What handling a task does

A decider sends one response to a task, whatever happens on the way.  The engine of the run is kept
if it answered, the run goes on, the response was delivered and anything is kept at all; an engine
in any other condition is gone.  No other engine is changed, and at most one has to go: the one of
the run that was not used for the longest time, when a new run comes to a full cache.
-/

set_option autoImplicit false

namespace WorkflowReplay

theorem Config.fetch_execution {config : Config} {source : HistorySource} {t full : DecisionTask}
    (fetched : (config.fetch source t).result = .ok full) : full.execution = t.execution := by
  have keeps (left : Nat) : ∀ (t : DecisionTask) (asked : Nat),
      (config.fetchFrom source t asked left).result = .ok full →
        full.execution = t.execution := by
    induction left with
    | zero =>
      intro t asked fetched
      unfold fetchFrom at fetched
      split at fetched
      · cases fetched
        rfl
      · simp at fetched
    | succ left ih =>
      intro t asked fetched
      unfold fetchFrom at fetched
      split at fetched
      · cases fetched
        rfl
      · dsimp only at fetched
        split at fetched
        · simp at fetched
        · simp at fetched
        · next p _ => exact ih (t.append p) (asked + 1) fetched
  exact keeps _ t 0 fetched

namespace Cache

variable {α : Type}

structure Forgets (c : Cache α) (run : Execution) (c' : Cache α) : Prop where
  touches : c.Touches run c'
  capacity : c'.capacity = c.capacity
  kept : ∀ other, c'.value? other = if run = other then none else c.value? other

theorem Fits.forgets_evict {c : Cache α} (fits : c.Fits) (run : Execution) :
    c.Forgets run (c.evict run).2 :=
  ⟨fits.touches_evict run, rfl, evict_value? c run⟩

theorem Fits.forgets_get {c : Cache α} (fits : c.Fits) {run : Execution}
    (absent : c.value? run = none) : c.Forgets run (c.get run).2 := by
  refine ⟨fits.touches_get run, get_capacity c run, ?_⟩
  intro other
  rw [get_value?]
  by_cases same : run = other
  · rw [if_pos same, ← same, absent]
  · rw [if_neg same]

theorem Fits.forgets_get_evict {c : Cache α} (fits : c.Fits) (run : Execution) :
    c.Forgets run ((c.get run).2.evict run).2 := by
  refine ⟨(fits.touches_get run).trans ((fits.get run).touches_evict run), get_capacity c run, ?_⟩
  intro other
  rw [evict_value?, get_value?]

theorem Forgets.evict {c c' : Cache α} {run : Execution} (forgets : c.Forgets run c') :
    c.Forgets run (c'.evict run).2 := by
  refine ⟨forgets.touches.trans (forgets.touches.fits.touches_evict run), forgets.capacity, ?_⟩
  intro other
  rw [evict_value?, forgets.kept]
  split <;> rfl

theorem Fits.value?_get_insert {c : Cache α} (fits : c.Fits) (run other : Execution) (v : α) :
    ((c.get run).2.insert run v).2.value? other =
      if run = other then (if 0 < c.capacity then some v else none)
      else if 0 < c.capacity ∧ (c.get run).2.leaving run = some other then none
      else c.value? other := by
  rcases Nat.eq_zero_or_pos c.capacity with none | positive
  · rw [insert_of_capacity_zero (by rw [get_capacity]; exact none), get_value?,
      fits.value?_of_capacity_zero none]
    simp [none]
  · rw [insert_value? (by rw [get_capacity]; exact positive), get_value?]
    simp [positive]

end Cache

namespace Decider

/-! ## Answering a task -/

def kept? (d : Decider) (run : Execution) : Option Engine := d.cache.value? run

/-- The engine that answers a task: the one that is kept, else a new one if the history begins with
the start of the run and its type is known. -/
inductive HasEngine (d : Decider) (t : DecisionTask) : Engine → Prop where
  | kept {e : Engine} (found : d.kept? t.execution = some e) : HasEngine d t e
  | fresh {workflow : Workflow} (absent : d.kept? t.execution = none)
      (starts : startsRun t = true) (known : d.registry.get? t.workflowType = some workflow) :
    HasEngine d t (.new
      { execution := t.execution
        workflowType := t.workflowType
        domain := d.config.domain
        taskList := d.config.taskList }
      workflow)

/-- The rest of the history comes, and the engine of the run answers the task.  The engine is the
one after that, without the reports of the code. -/
inductive Answers (d : Decider) (source : HistorySource) (t : DecisionTask) :
    Completion → Engine → Prop where
  | intro {full : DecisionTask} {e e' : Engine} {c : Completion}
      (fetched : (d.config.fetch source t).result = .ok full) (engine : d.HasEngine full e)
      (answered : e.process full = (.ok c, e')) : Answers d source t c e'.takeReports.2

def GoesOn (d : Decider) (source : HistorySource) (t : DecisionTask) (e : Engine) : Prop :=
  ∃ c, d.Answers source t c e ∧ c.workflowCompleted = false

theorem newEngine_ok_iff {d : Decider} {t : DecisionTask} {e : Engine}
    (absent : d.kept? t.execution = none) : d.newEngine t = .ok e ↔ d.HasEngine t e := by
  unfold newEngine
  constructor
  · intro made
    split at made
    · next starts =>
      split at made
      · simp at made
      · next workflow known =>
        cases made
        exact .fresh absent starts known
    · simp at made
  · rintro (⟨found⟩ | ⟨-, starts, known⟩)
    · simp [absent] at found
    · simp [starts, known]

theorem engineFor_ok_iff_hasEngine (d : Decider) (t : DecisionTask) :
    ((d.engineFor t).2.config = d.config ∧ (d.engineFor t).2.registry = d.registry ∧
      (d.engineFor t).2.cache = (d.cache.get t.execution).2) ∧
    ∀ e, (d.engineFor t).1 = .ok e ↔ d.HasEngine t e := by
  have looked := Cache.get_fst d.cache t.execution
  unfold engineFor
  generalize d.cache.get t.execution = result at looked ⊢
  obtain ⟨found, cache⟩ := result
  cases found with
  | none => exact ⟨⟨rfl, rfl, rfl⟩, fun e => newEngine_ok_iff looked.symm⟩
  | some old =>
    refine ⟨⟨rfl, rfl, rfl⟩, fun e => ⟨?_, ?_⟩⟩
    · intro same
      cases same
      exact .kept looked.symm
    · intro engine
      cases engine with
      | kept found => rw [Option.some.inj (looked.trans found)]
      | fresh absent => simp [kept?, ← looked] at absent

structure SameSettings (d d' : Decider) : Prop where
  config : d'.config = d.config
  registry : d'.registry = d.registry

theorem SameSettings.answers_congr {d d' : Decider} (settled : d.SameSettings d')
    (same : d'.cache = d.cache) {source : HistorySource} {t : DecisionTask} {c : Completion}
    {e : Engine} (answers : d.Answers source t c e) : d'.Answers source t c e := by
  obtain ⟨fetched, engine, answered⟩ := answers
  refine ⟨settled.config ▸ fetched, ?_, answered⟩
  cases engine with
  | kept found => exact .kept (by rw [kept?, same]; exact found)
  | fresh absent starts known =>
    have engine := HasEngine.fresh (d := d') (by rw [kept?, same]; exact absent) starts
      (settled.registry ▸ known)
    rwa [settled.config] at engine

theorem HasEngine.unique {d : Decider} {t : DecisionTask} {e e' : Engine}
    (engine : d.HasEngine t e) (engine' : d.HasEngine t e') : e = e' := by
  have same := ((engineFor_ok_iff_hasEngine d t).2 e).mpr engine
  rw [((engineFor_ok_iff_hasEngine d t).2 e').mpr engine'] at same
  exact (Except.ok.inj same).symm

theorem Answers.unique {d : Decider} {source : HistorySource} {t : DecisionTask}
    {c c' : Completion} {e e' : Engine} (answers : d.Answers source t c e)
    (answers' : d.Answers source t c' e') : c = c' ∧ e = e' := by
  obtain ⟨fetched, engine, answered⟩ := answers
  obtain ⟨fetched', engine', answered'⟩ := answers'
  rw [fetched] at fetched'
  cases fetched'
  cases engine.unique engine'
  rw [answered] at answered'
  cases answered'
  exact ⟨rfl, rfl⟩

inductive Ends (d : Decider) (source : HistorySource) (t : DecisionTask) :
    Except (FailedCause × Error) Completion → Cache Engine → Prop where
  | completed {c : Completion} {e : Engine} {cache : Cache Engine}
      (answers : d.Answers source t c e) (completed : c.workflowCompleted = true)
      (forgets : d.cache.Forgets t.execution cache) : Ends d source t (.ok c) cache
  | goesOn {c : Completion} {e : Engine} (answers : d.Answers source t c e)
      (goesOn : c.workflowCompleted = false) :
    Ends d source t (.ok c) ((d.cache.get t.execution).2.insert t.execution e).2
  | failed {failure : FailedCause × Error} {cache : Cache Engine}
      (silent : ∀ c e, ¬ d.Answers source t c e)
      (forgets : d.cache.Forgets t.execution cache) : Ends d source t (.error failure) cache

theorem keep_inserts_engine (d : Decider) (run : Execution) (e : Engine) :
    d.SameSettings (d.keep run e) ∧ (d.keep run e).cache = (d.cache.insert run e).2 := by
  unfold keep
  dsimp only
  split <;> exact ⟨⟨rfl, rfl⟩, rfl⟩

theorem process_satisfies_ends {d : Decider} {source : HistorySource} {t full : DecisionTask}
    (fits : d.cache.Fits) (fetched : (d.config.fetch source t).result = .ok full) :
    d.SameSettings (d.process full).decider ∧
      d.Ends source t (d.process full).result (d.process full).decider.cache := by
  have run : full.execution = t.execution := Config.fetch_execution fetched
  obtain ⟨⟨config, registry, cache⟩, found⟩ := engineFor_ok_iff_hasEngine d full
  unfold process
  generalize d.engineFor full = looked at config registry cache found ⊢
  obtain ⟨engine, d'⟩ := looked
  simp only at config registry cache found
  rw [run] at cache ⊢
  cases engine with
  | error failure =>
    -- Only a run that is not kept can be without an engine.
    have absent : d.cache.value? t.execution = none := by
      cases value : d.cache.value? t.execution with
      | none => rfl
      | some e => exact nomatch (found e).mpr (.kept (by rw [run]; exact value))
    refine ⟨⟨config, registry⟩, .failed ?_ (cache ▸ fits.forgets_get absent)⟩
    rintro c e ⟨fetched', engine, -⟩
    rw [fetched] at fetched'
    cases fetched'
    exact nomatch (found _).mpr engine
  | ok e =>
    have engine : d.HasEngine full e := (found e).mp rfl
    dsimp only
    cases answered : e.process full with
    | mk answer e' =>
      cases answer with
      | ok c =>
        have answers : d.Answers source t c e'.takeReports.2 := .intro fetched engine answered
        dsimp only
        cases completed : c.workflowCompleted with
        | true =>
          refine ⟨⟨config, registry⟩, .completed answers completed ?_⟩
          change d.cache.Forgets t.execution (d'.cache.evict t.execution).2
          rw [cache]
          exact fits.forgets_get_evict t.execution
        | false =>
          obtain ⟨⟨config', registry'⟩, kept⟩ :=
            keep_inserts_engine { d' with metrics := d'.metrics.ofAnswer (.ok c) } t.execution
              e'.takeReports.2
          refine ⟨⟨config'.trans config, registry'.trans registry⟩, ?_⟩
          simp only [Bool.false_eq_true, if_false]
          rw [kept, cache]
          exact .goesOn answers completed
      | error fault =>
        refine ⟨⟨config, registry⟩, .failed ?_ ?_⟩
        · rintro c e₁ ⟨fetched', engine', answered'⟩
          rw [fetched] at fetched'
          cases fetched'
          rw [← engine.unique engine', answered] at answered'
          simp at answered'
        · change d.cache.Forgets t.execution (d'.cache.evict t.execution).2
          rw [cache]
          exact fits.forgets_get_evict t.execution

theorem Ends.of_counted_metric {d : Decider} {metric : Metric} {n : Nat} {source : HistorySource}
    {t : DecisionTask} {result : Except (FailedCause × Error) Completion} {cache : Cache Engine}
    (ends : (d.count metric n).Ends source t result cache) : d.Ends source t result cache := by
  have counted : d.SameSettings (d.count metric n) := ⟨rfl, rfl⟩
  have uncounted : (d.count metric n).SameSettings d := ⟨rfl, rfl⟩
  cases ends with
  | completed answers completed forgets =>
    exact .completed (uncounted.answers_congr rfl answers) completed forgets
  | goesOn answers goesOn => exact .goesOn (uncounted.answers_congr rfl answers) goesOn
  | failed silent forgets =>
    exact .failed (fun c e answers => silent c e (counted.answers_congr rfl answers)) forgets

theorem answer_satisfies_ends {d : Decider} (fits : d.cache.Fits) (source : HistorySource)
    (t : DecisionTask) :
    d.SameSettings (d.answer t (d.config.fetch source t)).decider ∧
      d.Ends source t (d.answer t (d.config.fetch source t)).result
        (d.answer t (d.config.fetch source t)).decider.cache := by
  unfold answer
  cases fetched : (d.config.fetch source t).result with
  | ok full =>
    obtain ⟨⟨config, registry⟩, ends⟩ := process_satisfies_ends
      (d := d.count .historyPagesFetched (d.config.fetch source t).pages) fits fetched
    exact ⟨⟨config, registry⟩, ends.of_counted_metric⟩
  | error err =>
    refine ⟨⟨rfl, rfl⟩, .failed ?_ (fits.forgets_evict t.execution)⟩
    rintro c e ⟨fetched', -, -⟩
    rw [fetched] at fetched'
    simp at fetched'

/-! ## Handling a task -/

inductive Handles (d : Decider) (source : HistorySource) (t : DecisionTask) :
    Option Error → Response → Cache Engine → Prop where
  | completed {refused : Option Error} {c : Completion} {e : Engine} {cache : Cache Engine}
      (answers : d.Answers source t c e) (completed : c.workflowCompleted = true)
      (forgets : d.cache.Forgets t.execution cache) :
    Handles d source t refused (.completed t.token c.decisions d.config.identity) cache
  | delivered {c : Completion} {e : Engine} (answers : d.Answers source t c e)
      (goesOn : c.workflowCompleted = false) :
    Handles d source t none (.completed t.token c.decisions d.config.identity)
      ((d.cache.get t.execution).2.insert t.execution e).2
  | undelivered {err : Error} {c : Completion} {e : Engine} (answers : d.Answers source t c e)
      (goesOn : c.workflowCompleted = false) :
    Handles d source t (some err) (.completed t.token c.decisions d.config.identity)
      (((d.cache.get t.execution).2.insert t.execution e).2.evict t.execution).2
  | failed {refused : Option Error} {cause : FailedCause} {details : Option Payload}
      {cache : Cache Engine} (silent : ∀ c e, ¬ d.Answers source t c e)
      (forgets : d.cache.Forgets t.execution cache) :
    Handles d source t refused (.failed t.token cause details d.config.identity) cache

theorem handle_satisfies_handles {d : Decider} (fits : d.cache.Fits) (source : HistorySource)
    (sink : Sink) (t : DecisionTask) :
    d.SameSettings (d.handle source sink t).decider ∧
    ∃ response, (d.handle source sink t).responses = [response] ∧
      (∀ err, (d.handle source sink t).result = .error err ↔ sink response = some err) ∧
      d.Handles source t (sink response) response (d.handle source sink t).decider.cache := by
  obtain ⟨⟨config, registry⟩, ends⟩ := answer_satisfies_ends fits source t
  unfold handle
  dsimp only
  generalize d.answer t (d.config.fetch source t) = p at config registry ends ⊢
  obtain ⟨result, reports, ⟨config', registry', cache', metrics⟩⟩ := p
  dsimp only at config registry ends
  subst config registry
  cases ends with
  | @completed c e _ answers completed forgets =>
    dsimp only [count]
    cases refused : sink (.completed t.token c.decisions d.config.identity) with
    | none =>
      refine ⟨⟨rfl, rfl⟩, _, rfl, fun err => by simp [refused], ?_⟩
      exact .completed answers completed forgets
    | some err =>
      -- The run is forgotten once more, which changes nothing.
      refine ⟨⟨rfl, rfl⟩, _, rfl, fun err => by simp [refused], ?_⟩
      exact .completed answers completed forgets.evict
  | @goesOn c e answers goesOn =>
    dsimp only [count]
    cases refused : sink (.completed t.token c.decisions d.config.identity) with
    | none =>
      refine ⟨⟨rfl, rfl⟩, _, rfl, fun err => by simp [refused], ?_⟩
      rw [refused]
      exact .delivered answers goesOn
    | some err =>
      refine ⟨⟨rfl, rfl⟩, _, rfl, fun err => by simp [refused], ?_⟩
      rw [refused]
      exact .undelivered answers goesOn
  | @failed failure _ silent forgets =>
    obtain ⟨cause, err⟩ := failure
    dsimp only [count]
    split
    · next err' refused =>
      exact ⟨⟨rfl, rfl⟩, _, rfl, fun err => by simp [refused], .failed silent forgets⟩
    · next refused =>
      exact ⟨⟨rfl, rfl⟩, _, rfl, fun err => by simp [refused], .failed silent forgets⟩

theorem Handles.touches {d : Decider} {source : HistorySource} {t : DecisionTask}
    {refused : Option Error} {response : Response} {cache : Cache Engine}
    (handles : d.Handles source t refused response cache) (fits : d.cache.Fits) :
    d.cache.Touches t.execution cache ∧ cache.capacity = d.cache.capacity := by
  have stores (e : Engine) :
      d.cache.Touches t.execution ((d.cache.get t.execution).2.insert t.execution e).2 :=
    (fits.touches_get t.execution).trans ((fits.get t.execution).touches_insert t.execution e)
  cases handles with
  | completed _ _ forgets => exact ⟨forgets.touches, forgets.capacity⟩
  | delivered => exact ⟨stores _, by simp⟩
  | undelivered =>
    refine ⟨(stores _).trans ((stores _).fits.touches_evict t.execution), ?_⟩
    simp
  | failed _ forgets => exact ⟨forgets.touches, forgets.capacity⟩

theorem Handles.response_of_answers {d : Decider} {source : HistorySource} {t : DecisionTask}
    {refused : Option Error} {response : Response} {cache : Cache Engine}
    (handles : d.Handles source t refused response cache) :
    (∀ c e, d.Answers source t c e →
      response = .completed t.token c.decisions d.config.identity) ∧
    ((∀ c e, ¬ d.Answers source t c e) →
      ∃ cause details, response = .failed t.token cause details d.config.identity) := by
  have answered {c : Completion} {e : Engine} (answers : d.Answers source t c e) :
      (∀ c' e', d.Answers source t c' e' →
        Response.completed t.token c.decisions d.config.identity =
          .completed t.token c'.decisions d.config.identity) ∧
      ((∀ c e, ¬ d.Answers source t c e) → ∃ cause details,
        Response.completed t.token c.decisions d.config.identity =
          .failed t.token cause details d.config.identity) := by
    refine ⟨?_, fun silent => absurd answers (silent c e)⟩
    intro c' e' answers'
    rw [(answers.unique answers').1]
  cases handles with
  | completed answers => exact answered answers
  | delivered answers => exact answered answers
  | undelivered answers => exact answered answers
  | failed silent =>
    exact ⟨fun c e answers => absurd answers (silent c e), fun _ => ⟨_, _, rfl⟩⟩

theorem Handles.kept_iff {d : Decider} {source : HistorySource} {t : DecisionTask}
    {refused : Option Error} {response : Response} {cache : Cache Engine}
    (handles : d.Handles source t refused response cache) (fits : d.cache.Fits) (e : Engine) :
    cache.value? t.execution = some e ↔
      d.GoesOn source t e ∧ refused = none ∧ 0 < d.cache.capacity := by
  cases handles with
  | completed answers completed forgets =>
    rw [forgets.kept, if_pos rfl]
    refine ⟨nofun, ?_⟩
    rintro ⟨⟨c, answers', goesOn⟩, -⟩
    rw [(answers.unique answers').1, goesOn] at completed
    simp at completed
  | delivered answers goesOn =>
    rw [fits.value?_get_insert, if_pos rfl]
    constructor
    · intro kept
      split at kept
      · next positive =>
        cases kept
        exact ⟨⟨_, answers, goesOn⟩, rfl, positive⟩
      · simp at kept
    · rintro ⟨⟨c, answers', -⟩, -, positive⟩
      rw [if_pos positive, (answers.unique answers').2]
  | undelivered => simp
  | failed silent forgets =>
    rw [forgets.kept, if_pos rfl]
    refine ⟨nofun, ?_⟩
    rintro ⟨⟨c, answers, -⟩, -⟩
    exact absurd answers (silent c e)

structure Displaces (d : Decider) (source : HistorySource) (t : DecisionTask)
    (cache : Cache Engine) (left : Option Execution) : Prop where
  others : ∀ run, run ≠ t.execution →
    cache.value? run = if left = some run then none else d.cache.value? run
  leaves : left.isSome = true ↔ (∃ e, d.GoesOn source t e) ∧ 0 < d.cache.capacity ∧
    d.kept? t.execution = none ∧ d.cache.size = d.cache.capacity
  leaving : ∀ old, left = some old →
    (d.cache.get t.execution).2.leaving t.execution = some old

theorem displaces_none_of_forgets {d : Decider} {source : HistorySource} {t : DecisionTask}
    {cache : Cache Engine} (forgets : d.cache.Forgets t.execution cache)
    (ends : ∀ e, ¬ d.GoesOn source t e) : d.Displaces source t cache none where
  others run other := by rw [forgets.kept, if_neg (Ne.symm other), if_neg nofun]
  leaves := ⟨nofun, fun ⟨⟨e, goesOn⟩, _⟩ => absurd goesOn (ends e)⟩
  leaving := nofun

theorem displaces_leaving_of_stored {d : Decider} {source : HistorySource} {t : DecisionTask}
    {e : Engine} {cache : Cache Engine} (fits : d.cache.Fits) (goesOn : d.GoesOn source t e)
    (stored : ∀ run, run ≠ t.execution → cache.value? run =
      ((d.cache.get t.execution).2.insert t.execution e).2.value? run) :
    d.Displaces source t cache
      (if 0 < d.cache.capacity then (d.cache.get t.execution).2.leaving t.execution else none) := by
  have leaves := (fits.get t.execution).leaving_isSome
  rw [Cache.get_capacity, Cache.get_size] at leaves
  refine ⟨?_, ?_, ?_⟩
  · intro run other
    rw [stored run other, fits.value?_get_insert, if_neg (Ne.symm other)]
    by_cases positive : 0 < d.cache.capacity
    · simp only [positive, true_and, if_true]
    · simp only [positive, false_and, if_false, reduceCtorEq]
  · by_cases positive : 0 < d.cache.capacity
    · rw [if_pos positive, leaves positive, Cache.get_value?]
      exact ⟨fun new => ⟨⟨e, goesOn⟩, positive, new⟩, fun h => h.2.2⟩
    · rw [if_neg positive]
      exact ⟨nofun, fun h => absurd h.2.1 positive⟩
  · intro old left
    split at left
    · exact left
    · simp at left

theorem Handles.exists_displaced {d : Decider} {source : HistorySource} {t : DecisionTask}
    {refused : Option Error} {response : Response} {cache : Cache Engine}
    (handles : d.Handles source t refused response cache) (fits : d.cache.Fits) :
    ∃ left, d.Displaces source t cache left := by
  cases handles with
  | completed answers completed forgets =>
    refine ⟨none, displaces_none_of_forgets forgets ?_⟩
    rintro e ⟨c, answers', goesOn⟩
    rw [(answers.unique answers').1, goesOn] at completed
    simp at completed
  | delivered answers goesOn =>
    exact ⟨_, displaces_leaving_of_stored fits ⟨_, answers, goesOn⟩ fun _ _ => rfl⟩
  | undelivered answers goesOn =>
    refine ⟨_, displaces_leaving_of_stored fits ⟨_, answers, goesOn⟩ ?_⟩
    intro run other
    rw [Cache.evict_value?, if_neg (Ne.symm other)]
  | failed silent forgets =>
    refine ⟨none, displaces_none_of_forgets forgets ?_⟩
    rintro e ⟨c, answers, -⟩
    exact silent c e answers

/-! ## Every decider there can be -/

inductive Step where
  | handle (source : HistorySource) (sink : Sink) (t : DecisionTask)
  | look (run : Execution)
  | store (run : Execution) (e : Engine)
  | forget (run : Execution)
  | clear
  | register (type : String) (workflow : Workflow)

def Step.uses : Step → List Execution
  | .handle _ _ t => [t.execution]
  | .look run => [run]
  | .store run _ => [run]
  | .forget _ | .clear | .register _ _ => []

def step (d : Decider) : Step → Decider
  | .handle source sink t => (d.handle source sink t).decider
  | .look run => { d with cache := (d.cache.get run).2 }
  | .store run e => { d with cache := (d.cache.insert run e).2 }
  | .forget run => d.forget run
  | .clear => { d with cache := d.cache.clear }
  | .register type workflow =>
    match d.registry.register type workflow with
    | .ok registry => { d with registry }
    | .error _ => d

def after (config : Config) (registry : Registry Workflow) (steps : List Step) : Decider :=
  steps.foldl step (new config registry)

def uses : List Step → List Execution
  | [] => []
  | s :: rest => uses rest ++ s.uses

structure Sound (config : Config) (used : List Execution) (d : Decider) : Prop where
  capacity : d.cache.capacity = config.maxCachedWorkflows
  recent : d.cache.Recent used
  config : d.config = config

theorem Sound.step {config : Config} {used : List Execution} {d : Decider}
    (sound : Sound config used d) (s : Step) : Sound config (s.uses ++ used) (d.step s) := by
  obtain ⟨capacity, recent, settings⟩ := sound
  have fits := recent.fits
  cases s with
  | handle source sink t =>
    obtain ⟨settled, _, -, -, handles⟩ := handle_satisfies_handles fits source sink t
    obtain ⟨touches, same⟩ := handles.touches fits
    exact ⟨same.trans capacity, recent.of_touches touches, settled.config.trans settings⟩
  | look run =>
    exact ⟨(Cache.get_capacity _ run).trans capacity, recent.of_touches (fits.touches_get run),
      settings⟩
  | store run e =>
    exact ⟨(Cache.insert_capacity _ run e).trans capacity,
      recent.of_touches (fits.touches_insert run e), settings⟩
  | forget run => exact ⟨capacity, recent.evict run, settings⟩
  | clear => exact ⟨capacity, recent.clear, settings⟩
  | register type workflow =>
    unfold Decider.step
    dsimp only
    split <;> exact ⟨capacity, recent, settings⟩

theorem after_sound (config : Config) (registry : Registry Workflow) (steps : List Step) :
    Sound config (uses steps) (after config registry steps) := by
  have run (steps : List Step) : ∀ {used : List Execution} {d : Decider}, Sound config used d →
      Sound config (uses steps ++ used) (steps.foldl Decider.step d) := by
    induction steps with
    | nil => exact fun sound => sound
    | cons s rest ih =>
      intro used d sound
      rw [uses, List.append_assoc]
      exact ih (sound.step s)
  have first : Sound config [] (new config registry) := ⟨rfl, .empty _, rfl⟩
  have last := run steps first
  rwa [List.append_nil] at last

theorem oldest_of_leaving {config : Config} {used : List Execution} {d : Decider} {t : DecisionTask}
    {old : Execution} (sound : Sound config used d) (absent : d.kept? t.execution = none)
    (leaves : (d.cache.get t.execution).2.leaving t.execution = some old) :
    old ≠ t.execution ∧ d.cache.IsOldest used old := by
  have touched := sound.recent.of_touches (sound.recent.fits.touches_get t.execution)
  obtain ⟨kept, since⟩ := touched.isOldest_of_leaving leaves
  simp only [Cache.get_value?] at kept since
  have other (run : Execution) (kept : (d.cache.value? run).isSome = true) :
      run ≠ t.execution := by
    rintro rfl
    rw [kept?] at absent
    simp [absent] at kept
  refine ⟨other old kept, kept, ?_⟩
  intro run kept' different
  obtain ⟨-, last⟩ := usedSince_cons.mp (since run kept' different)
  exact last.resolve_left (other run kept')

/-- A task is answered with one response, and an error is returned exactly if the response was
refused.  The engine of the run is kept exactly if it answered, the run goes on, the response was
delivered and anything is kept at all.  Every other engine stays as it was, except that the run that
was not used for the longest time has to leave when the run of the task is new to a full cache. -/
theorem handle_exact (config : Config) (registry : Registry Workflow) (steps : List Step)
    (source : HistorySource) (sink : Sink) (t : DecisionTask) :
    let d := after config registry steps
    let h := d.handle source sink t
    (∃ response, h.responses = [response] ∧
      (∀ c e, d.Answers source t c e →
        response = .completed t.token c.decisions config.identity) ∧
      ((∀ c e, ¬ d.Answers source t c e) →
        ∃ cause details, response = .failed t.token cause details config.identity) ∧
      (∀ err, h.result = .error err ↔ sink response = some err) ∧
      ∀ e, h.decider.kept? t.execution = some e ↔
        d.GoesOn source t e ∧ sink response = none ∧ 0 < config.maxCachedWorkflows) ∧
    ∃ left : Option Execution,
      (∀ run, run ≠ t.execution →
        h.decider.kept? run = if left = some run then none else d.kept? run) ∧
      (left.isSome = true ↔ (∃ e, d.GoesOn source t e) ∧ 0 < config.maxCachedWorkflows ∧
        d.kept? t.execution = none ∧ d.cache.size = config.maxCachedWorkflows) ∧
      ∀ old, left = some old → old ≠ t.execution ∧ d.cache.IsOldest (uses steps) old := by
  intro d h
  have sound := after_sound config registry steps
  have fits := sound.recent.fits
  have identity : d.config.identity = config.identity := congrArg Config.identity sound.config
  obtain ⟨-, response, responses, result, handles⟩ := handle_satisfies_handles fits source sink t
  obtain ⟨completed, failed⟩ := handles.response_of_answers
  rw [identity] at completed failed
  refine ⟨⟨response, responses, completed, failed, result, ?_⟩, ?_⟩
  · intro e
    rw [← sound.capacity]
    exact handles.kept_iff fits e
  · obtain ⟨left, displaces⟩ := handles.exists_displaced fits
    refine ⟨left, displaces.others, ?_, ?_⟩
    · rw [← sound.capacity]
      exact displaces.leaves
    · intro old leaves
      obtain ⟨-, -, absent, -⟩ := displaces.leaves.mp (by simp [leaves])
      exact oldest_of_leaving sound absent (displaces.leaving old leaves)

def waitingForever : Workflow where
  start _ := .ok (.wait (.first []) fun arrival _ => .done arrival.result)

def waiters : Registry Workflow := { workflows := Table.empty.insert "wait" waitingForever }

def firstTaskOf (run : Execution) : DecisionTask where
  execution := run
  workflowType := "wait"
  history := [
    ⟨1, ⟨0, 0⟩, .workflowExecutionStarted {}⟩, ⟨2, ⟨0, 0⟩, .decisionTaskScheduled {}⟩,
    ⟨3, ⟨0, 0⟩, .decisionTaskStarted { scheduledEventId := 2 }⟩]
  startedEventId := 3

/-- Two runs fill a cache, and the first one is used again. -/
def twoRuns : List Step := [
  .handle (fun _ _ => .late) (fun _ => none) (firstTaskOf ⟨"a", ""⟩),
  .handle (fun _ _ => .late) (fun _ => none) (firstTaskOf ⟨"b", ""⟩), .look ⟨"a", ""⟩]

theorem third_run_displaces_second :
    let d := after { maxCachedWorkflows := 2 } waiters twoRuns
    let h := d.handle (fun _ _ => .late) (fun _ => none) (firstTaskOf ⟨"c", ""⟩)
    h.responses = [.completed [] [] ""] ∧ (∀ err, h.result ≠ .error err) ∧
      (∃ e, h.decider.kept? ⟨"c", ""⟩ = some e) ∧
      h.decider.kept? ⟨"a", ""⟩ = d.kept? ⟨"a", ""⟩ ∧ d.kept? ⟨"b", ""⟩ ≠ none ∧
      h.decider.kept? ⟨"b", ""⟩ = none := by
  intro d h
  obtain ⟨⟨response, responses, completed, -, result, kept⟩, left, others, leaves, oldest⟩ :=
    handle_exact { maxCachedWorkflows := 2 } waiters twoRuns (fun _ _ => .late) (fun _ => none)
      (firstTaskOf ⟨"c", ""⟩)
  have settings : d.config = { maxCachedWorkflows := 2 } := (after_sound _ waiters twoRuns).config
  have known : d.registry.get? "wait" = some waitingForever := by cbv
  have both : d.cache.entries.keys = [⟨"a", ""⟩, ⟨"b", ""⟩] := by cbv
  have kept_iff (run : Execution) :
      (d.kept? run).isSome = true ↔ run = ⟨"a", ""⟩ ∨ run = ⟨"b", ""⟩ := by
    have there : (d.kept? run).isSome = d.cache.contains run := (d.cache.contains_eq run).symm
    have member := Table.mem_keys (t := d.cache.entries) (k := run)
    rw [both] at member
    rw [there, ← List.mem_pair]
    exact member.symm
  have absent : d.kept? ⟨"c", ""⟩ = none := by
    rw [← Option.not_isSome_iff_eq_none, kept_iff]
    decide
  have second : (d.kept? ⟨"b", ""⟩).isSome = true := (kept_iff _).mpr (.inr rfl)
  have full : d.cache.size = 2 := (List.length_map _).symm.trans (congrArg List.length both)
  let e : Engine := .new
    { execution := ⟨"c", ""⟩, workflowType := "wait", domain := d.config.domain
      taskList := d.config.taskList } waitingForever
  have outcome : (e.process (firstTaskOf ⟨"c", ""⟩)).1 =
      .ok { decisions := [], workflowCompleted := false } := by
    simp only [e, settings]
    cbv
  have fetched : (d.config.fetch (fun _ _ => .late) (firstTaskOf ⟨"c", ""⟩)).result =
      .ok (firstTaskOf ⟨"c", ""⟩) := by
    rw [settings]
    rfl
  have answers : d.Answers (fun _ _ => .late) (firstTaskOf ⟨"c", ""⟩)
      { decisions := [], workflowCompleted := false } _ :=
    .intro fetched (.fresh absent rfl known) (Prod.ext outcome rfl)
  have displaced : left = some ⟨"b", ""⟩ := by
    obtain ⟨old, leaving⟩ := Option.isSome_iff_exists.mp
      (leaves.mpr ⟨⟨_, _, answers, rfl⟩, by decide, absent, full⟩)
    obtain ⟨-, there, since⟩ := oldest old leaving
    rcases (kept_iff old).mp there with rfl | rfl
    · have before : ¬ UsedSince (uses twoRuns) ⟨"a", ""⟩ ⟨"b", ""⟩ := by decide
      exact absurd (since ⟨"b", ""⟩ second (by decide)) before
    · exact leaving
  refine ⟨?_, ?_, ?_, ?_, ?_, ?_⟩
  · rw [responses, completed _ _ answers]
    rfl
  · intro err failed
    simpa using (result err).mp failed
  · exact ⟨_, (kept _).mpr ⟨⟨_, answers, rfl⟩, rfl, by decide⟩⟩
  · rw [others ⟨"a", ""⟩ (by decide), if_neg (by simp [displaced])]
  · intro gone
    simp [gone] at second
  · rw [others ⟨"b", ""⟩ (by decide), if_pos displaced]

end Decider

end WorkflowReplay

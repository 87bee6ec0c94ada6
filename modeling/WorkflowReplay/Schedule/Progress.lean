import WorkflowReplay.Schedule.Code

/-!
# Progress of tasks

Code is finite in depth, so a task that runs comes closer to its end or waits where it waited
before.  A `Backlog` lists how far each task of a scheduler is from its end; it decreases when a
task is replaced by tasks that are all nearer to their ends, and it cannot decrease forever.
-/

set_option autoImplicit false

namespace WorkflowReplay.Schedule

variable {I : Interface}

/-- What is left of a task, whatever it saw so far of what it waits for. -/
inductive Stage (I : Interface) : Type where
  | before (code : Code I)
  | waiting (next : I.Answer → I.Wait → Code I)

def Code.stage : Code I → Stage I
  | .wait _ next => .waiting next
  | c => .before c

inductive Stage.Step : Stage I → Stage I → Prop where
  | call (c : I.Command) (next : I.Reply c → Code I) (r : I.Reply c) :
    Step (next r).stage (.before (.call c next))
  | spawn (body : Code I) (next : TaskId → Code I) (id : TaskId) :
    Step (next id).stage (.before (.spawn body next))
  | body (body : Code I) (next : TaskId → Code I) :
    Step body.stage (.before (.spawn body next))
  | wait (next : I.Answer → I.Wait → Code I) (a : I.Answer) (s : I.Wait) :
    Step (next a s).stage (.waiting next)
  | turn (next : Code I) : Step next.stage (.before (.turn next))

def Stage.Less : Stage I → Stage I → Prop := Relation.TransGen Stage.Step

theorem Code.acc_stage (c : Code I) : Acc Stage.Step c.stage := by
  induction c with
  | done o => exact ⟨_, fun s h => by cases h⟩
  | panic m => exact ⟨_, fun s h => by cases h⟩
  | call c next ih => exact ⟨_, fun s h => by cases h; exact ih _⟩
  | spawn body next ihb ihn =>
    refine ⟨_, fun s h => ?_⟩
    cases h with
    | spawn _ _ id => exact ihn id
    | body => exact ihb
  | wait s next ih => exact ⟨_, fun s h => by cases h; exact ih _ _⟩
  | turn next ih => exact ⟨_, fun s h => by cases h; exact ih⟩

theorem Stage.acc_step (s : Stage I) : Acc Stage.Step s := by
  cases s with
  | waiting next => exact ⟨_, fun s h => by cases h; exact Code.acc_stage _⟩
  | before c =>
    refine ⟨_, fun s h => ?_⟩
    cases h <;> exact Code.acc_stage _

theorem Stage.wf_less : WellFounded (Stage.Less (I := I)) :=
  (WellFounded.intro Stage.acc_step).transGen

/-! ## Backlogs -/

inductive Replaced {α : Type} (r : α → α → Prop) : List α → List α → Prop where
  | intro (before after new : List α) (old : α) (smaller : ∀ x ∈ new, r x old) :
    Replaced r (before ++ new ++ after) (before ++ old :: after)

namespace Replaced

variable {α : Type} {r : α → α → Prop}

theorem acc_append (new l : List α) (step : ∀ x ∈ new, ∀ l, Acc (Replaced r) l →
    Acc (Replaced r) (x :: l)) (h : Acc (Replaced r) l) : Acc (Replaced r) (new ++ l) := by
  induction new with
  | nil => exact h
  | cons x rest ih =>
    exact step x (by simp) _ (ih fun y hy => step y (by simp [hy]))

theorem acc_cons (x : α) (hx : Acc r x) : ∀ l, Acc (Replaced r) l → Acc (Replaced r) (x :: l) := by
  induction hx with
  | intro x _ ihx =>
    intro l hl
    induction hl with
    | intro l hl ihl =>
      refine ⟨_, fun p hp => ?_⟩
      generalize hq : x :: l = q at hp
      obtain ⟨before, after, new, old, smaller⟩ := hp
      cases before with
      | nil =>
        obtain ⟨rfl, rfl⟩ := List.cons.inj hq
        exact acc_append new l (fun y hy => ihx y (smaller y hy)) ⟨_, hl⟩
      | cons b before =>
        obtain ⟨rfl, rfl⟩ := List.cons.inj hq
        exact ihl _ ⟨before, after, new, old, smaller⟩

theorem wf (h : WellFounded r) : WellFounded (Replaced r) := by
  refine ⟨fun l => ?_⟩
  induction l with
  | nil =>
    refine ⟨_, fun p hp => ?_⟩
    generalize hq : ([] : List α) = q at hp
    obtain ⟨before, after, new, old, smaller⟩ := hp
    simp at hq
  | cons x l ih => exact acc_cons x (h.apply x) l ih

end Replaced

structure Backlog (I : Interface) where
  stages : List (Stage I)

instance : WellFoundedRelation (Backlog I) where
  rel := InvImage (Replaced Stage.Less) Backlog.stages
  wf := InvImage.wf _ (Replaced.wf Stage.wf_less)

/-! ## A turn makes progress -/

/-- What a turn of a task with a stage brings: tasks nearer to their ends only, or the task waits
at the same stage and woke nobody. -/
structure Progressed (start : Stage I) (ready : List TaskId) (t : Turn I) : Prop where
  spawned : ∀ s ∈ t.spawned, s.2.stage.Less start
  pending : ∀ c, t.verdict = .pending c →
    c.stage.Less start ∨ (c.stage = start ∧ t.spawned = [] ∧ t.world.board.ready = ready)

theorem Progressed.after {start later : Stage I} {ready ready' : List TaskId} {t : Turn I}
    (h : Progressed later ready' t) (step : later.Step start) : Progressed start ready t where
  spawned s hs := .tail (h.spawned s hs) step
  pending c hc := by
    rcases h.pending c hc with hl | ⟨he, _, _⟩
    · exact .inl (.tail hl step)
    · exact .inl (he ▸ .single step)

theorem Code.run_progressed (m : Meaning I) (me : TaskId) (c : Code I) (w : World I) :
    Progressed c.stage w.board.ready (c.run m me w) := by
  induction c generalizing w with
  | done o => exact ⟨by simp [Code.run], by simp [Code.run]⟩
  | panic message => exact ⟨by simp [Code.run], by simp [Code.run]⟩
  | call c next ih => exact (ih _ _).after (.call c next _)
  | spawn body next _ ihn =>
    have h := ihn w.board.newTask.1 { w with board := w.board.newTask.2 }
    refine ⟨fun s hs => ?_, fun c hc => .inl ?_⟩
    · simp only [Code.run, List.mem_cons] at hs
      rcases hs with rfl | hs
      · exact .single (.body body next)
      · exact .tail (h.spawned s hs) (.spawn body next _)
    · rcases h.pending c hc with hl | ⟨he, _, _⟩
      · exact .tail hl (.spawn body next _)
      · exact he ▸ .single (.spawn body next _)
  | wait s next ih =>
    simp only [Code.run]
    split
    · exact (ih _ _ _).after (.wait next _ _)
    · refine ⟨by simp, fun c hc => .inr ?_⟩
      cases hc
      exact ⟨rfl, rfl, rfl⟩
  | turn next _ =>
    refine ⟨by simp [Code.run], fun c hc => .inl ?_⟩
    simp only [Code.run, Verdict.pending.injEq] at hc
    exact hc ▸ .single (.turn next)

end WorkflowReplay.Schedule

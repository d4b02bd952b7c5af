import Mathlib.Data.List.Forall2
import Mathlib.Tactic.Tauto
import SwiftWorkspace.Graph.Pool

/-!
# Pools of workers

Whatever the workers do, each task is waiting, being worked at or finished, and what
came of a finished task is what the work makes of it.  So the results collected in the
order of the tasks are those of the sequential run, up to the same first fault.
-/

namespace SwiftWorkspace

namespace Pool

variable {α β ε : Type}

structure Sound (work : α → β) (tasks : List α) (pool : Pool α β) : Prop where
  pending : ∀ task ∈ pool.waiting ++ pool.running, tasks[task.2]? = some task.1
  finished : ∀ entry ∈ pool.finished, ∃ task, tasks[entry.1]? = some task ∧ entry.2 = work task
  everywhere : ∀ place < tasks.length,
    (∃ task, (task, place) ∈ pool.waiting ++ pool.running) ∨
      ∃ result, (place, result) ∈ pool.finished

section Runs

variable {work : α → β} {workers : Nat} {tasks : List α} {pool next : Pool α β}

theorem sound_ofTasks (work : α → β) (tasks : List α) : Sound work tasks (ofTasks tasks) where
  pending task member := by
    rw [ofTasks, List.append_nil] at member
    exact List.mem_zipIdx_iff_getElem?.mp member
  finished entry member := by cases member
  everywhere place within := by
    refine .inl ⟨tasks[place], ?_⟩
    rw [ofTasks, List.append_nil]
    exact List.mem_zipIdx_iff_getElem?.mpr (List.getElem?_eq_getElem within)

/-- A step moves one task; all others stay where they are. -/
theorem Sound.step (sound : Sound work tasks pool) (step : Step work workers pool next) :
    Sound work tasks next := by
  cases step with
  | begin task waiting running finished free =>
      have same (other : α × Nat) :
          other ∈ waiting ++ task :: running ↔ other ∈ task :: waiting ++ running := by
        simp only [List.mem_append, List.mem_cons]
        tauto
      refine ⟨fun other member => sound.pending other ((same other).mp member), sound.finished, ?_⟩
      intro place within
      refine (sound.everywhere place within).imp_left ?_
      rintro ⟨other, member⟩
      exact ⟨other, (same _).mpr member⟩
  | finish task waiting before after finished =>
      have within (other : α × Nat) :
          other ∈ waiting ++ (before ++ task :: after) ↔
            other = task ∨ other ∈ waiting ++ (before ++ after) := by
        simp only [List.mem_append, List.mem_cons]
        tauto
      refine ⟨fun other member => sound.pending other ((within other).mpr (.inr member)), ?_, ?_⟩
      · intro entry member
        rcases List.mem_cons.mp member with rfl | member
        · exact ⟨task.1, sound.pending task ((within task).mpr (.inl rfl)), rfl⟩
        · exact sound.finished entry member
      · intro place inside
        rcases sound.everywhere place inside with ⟨other, member⟩ | ⟨result, member⟩
        · rcases (within _).mp member with rfl | member
          · exact .inr ⟨_, .head _⟩
          · exact .inl ⟨other, member⟩
        · exact .inr ⟨result, .tail _ member⟩

theorem Sound.run (sound : Sound work tasks pool) (run : Run work workers pool next) :
    Sound work tasks next := by
  induction run with
  | refl => exact sound
  | tail _ step ih => exact ih.step step

/-- With one worker at least, a pool can go on as long as a task is not finished. -/
theorem exists_step (work : α → β) (some_worker : 0 < workers) (pool : Pool α β) :
    (pool.waiting = [] ∧ pool.running = []) ∨ ∃ next, Step work workers pool next := by
  obtain ⟨waiting, running, finished⟩ := pool
  cases running with
  | cons task running => exact .inr ⟨_, .finish task waiting [] running finished⟩
  | nil =>
      cases waiting with
      | nil => exact .inl ⟨rfl, rfl⟩
      | cons task waiting => exact .inr ⟨_, .begin task waiting [] finished some_worker⟩

def remaining (pool : Pool α β) : Nat := 2 * pool.waiting.length + pool.running.length

theorem Step.remaining_lt (step : Step work workers pool next) :
    next.remaining < pool.remaining := by
  cases step with
  | begin => simp only [remaining, List.length_cons]; omega
  | finish => simp only [remaining, List.length_append, List.length_cons]; omega

theorem wellFounded_step (work : α → β) (workers : Nat) :
    WellFounded fun next pool : Pool α β => Step work workers pool next :=
  Subrelation.wf Step.remaining_lt (measure remaining).wf

/-- From wherever a pool is, it can come to its end. -/
theorem exists_run (work : α → β) (some_worker : 0 < workers) (pool : Pool α β) :
    ∃ next, Run work workers pool next ∧ next.waiting = [] ∧ next.running = [] := by
  induction steps : pool.remaining using Nat.strongRecOn generalizing pool with
  | _ steps ih =>
      rcases exists_step work some_worker pool with ended | ⟨next, step⟩
      · exact ⟨pool, .refl, ended⟩
      · obtain ⟨last, run, ended⟩ := ih next.remaining (steps ▸ step.remaining_lt) next rfl
        exact ⟨last, .head step run, ended⟩

end Runs

section Collecting

variable {work : α → Except ε β} {tasks : List α} {pool : Pool α (Except ε β)}

theorem Sound.eq_of_lookup (sound : Sound work tasks pool) {place : Nat} {task : α}
    {result : Except ε β}
    (placed : tasks[place]? = some task) (found : pool.finished.lookup place = some result) :
    result = work task := by
  obtain ⟨before, after, split, -⟩ := List.lookup_eq_some_iff.mp found
  obtain ⟨other, same, value⟩ := sound.finished (place, result) (by rw [split]; simp)
  rw [Option.some.inj (placed.symm.trans same)]
  exact value

/-- What is collected is what the sequential run gives. -/
theorem Sound.collect?_eq (sound : Sound work tasks pool) {places : List Nat} {given : List α}
    (placed : List.Forall₂ (fun place task => tasks[place]? = some task) places given)
    {result : Except ε (List β)}
    (collected : collect? pool.finished places = some result) : result = given.mapM work := by
  induction placed generalizing result with
  | nil => exact (Option.some.inj collected).symm
  | @cons place task places given placed _ ih =>
      rw [collect?] at collected
      cases found : pool.finished.lookup place with
      | none => simp [found] at collected
      | some value =>
          have done := sound.eq_of_lookup placed found
          rw [List.mapM_cons, ← done]
          simp only [found] at collected
          cases value with
          | error fault => exact (Option.some.inj collected).symm
          | ok value =>
              obtain ⟨rest, others, rfl⟩ := Option.map_eq_some_iff.mp collected
              rw [ih others]
              cases given.mapM work <;> rfl

theorem Sound.exists_collect? (sound : Sound work tasks pool)
    (ended : pool.waiting = [] ∧ pool.running = [])
    {places : List Nat} (inside : ∀ place ∈ places, place < tasks.length) :
    ∃ result, collect? pool.finished places = some result := by
  induction places with
  | nil => exact ⟨_, rfl⟩
  | cons place places ih =>
      obtain ⟨rest, collected⟩ := ih fun other member => inside other (.tail _ member)
      obtain ⟨value, done⟩ : ∃ value, (place, value) ∈ pool.finished := by
        simpa [ended] using sound.everywhere place (inside place (.head _))
      obtain ⟨value, found⟩ := Option.isSome_iff_exists.mp
        (List.lookup_isSome_iff.mpr ⟨_, done, beq_self_eq_true place⟩)
      rw [collect?, found]
      cases value with
      | error fault => exact ⟨_, rfl⟩
      | ok value => exact ⟨_, by rw [collected]; rfl⟩

theorem forall₂_range (tasks : List α) :
    List.Forall₂ (fun place task => tasks[place]? = some task) (List.range tasks.length) tasks := by
  rw [List.forall₂_iff_get]
  refine ⟨List.length_range, fun place _ within => ?_⟩
  simp [within]

variable {workers : Nat}

/-- However a run of a pool went, the results collected after it are those of the sequential run. -/
theorem mapM_of_run (run : Run work workers (ofTasks tasks) pool) {result : Except ε (List β)}
    (collected : collect? pool.finished (List.range tasks.length) = some result) :
    result = tasks.mapM work :=
  ((sound_ofTasks work tasks).run run).collect?_eq (forall₂_range tasks) collected

/-- However far a run of a pool has come, it can go on to the results of the sequential run. -/
theorem exists_run_collect? (some_worker : 0 < workers)
    (run : Run work workers (ofTasks tasks) pool) : ∃ later, Run work workers pool later ∧
      collect? later.finished (List.range tasks.length) = some (tasks.mapM work) := by
  obtain ⟨later, rest, ended⟩ := exists_run work some_worker pool
  have whole := run.trans rest
  obtain ⟨result, collected⟩ :=
    ((sound_ofTasks work tasks).run whole).exists_collect? ended fun place member =>
      List.mem_range.mp member
  exact ⟨later, rest, mapM_of_run whole collected ▸ collected⟩

end Collecting

end Pool

end SwiftWorkspace

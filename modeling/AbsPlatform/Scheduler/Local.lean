import AbsPlatform.Lib.ExchangeSort
import AbsPlatform.Scheduler.Duplicates

/-!
# Local — how the local solutions of a satellite are made

`Scheduler/shed_local.c`.  `generate_solutions` draws a figure of merit for every solution, sorts
them, and numbers the solutions in that order; the tasks of each come from `generate_tasks`, which
draws places at random until it has enough different ones.

`rand` gives the values that `rand()` returns one after the other.  `generate_tasks` need not end:
it draws until it meets a place that is still free.  What the loops of `generate_solutions` do with
the figures does not depend on it, so they are described for any tasks, and the function with its
calls is compared with that description.
-/

namespace AbsPlatform
namespace Scheduler

open Lib

variable {ntasks : Nat}

/-! ## generate_solutions -/

/-- A `LocalSolution` with its `id`. -/
structure NumberedSolution (ntasks : Nat) extends LocalSolution ntasks where
  id : Nat

/-- `(float)((rand() % 99) + 1) / 100`. -/
def figure (r : Nat) : ℚ := ((r % 99 + 1 : Nat) : ℚ) / 100

/-- `F` as it is drawn. -/
def drawnFigures (rand : Nat → Nat) (goldenIndex : Nat) : List ℚ :=
  (List.range goldenIndex).map fun j => figure (rand j)

/-- `F` after the nested loops; `golden_index - 1` is -1 for no solutions, and there is no turn. -/
def sortedFigures (rand : Nat → Nat) (goldenIndex : Nat) : Option (List ℚ) :=
  exchangePasses goldenIndex (goldenIndex - 1) (drawnFigures rand goldenIndex)

def generateLocalSolution (id : Nat) (f : ℚ) (tasks : Vector Int ntasks) :
    NumberedSolution ntasks where
  id := id
  f := f
  tasks := tasks

/-- The last loop from `i` on, with `left` turns to go; `tasks i` is what `generate_tasks` leaves in
solution `i`. -/
def numberFrom (tasks : Nat → Vector Int ntasks) (figures : List ℚ) :
    Nat → Nat → Option (List (NumberedSolution ntasks))
  | 0, _ => some []
  | left + 1, i => do
      let f ← figures[i]?
      let rest ← numberFrom tasks figures left (i + 1)
      some (generateLocalSolution (i + 1) f (tasks i) :: rest)

def generateSolutions (rand : Nat → Nat) (tasks : Nat → Vector Int ntasks) (goldenIndex : Nat) :
    Option (List (NumberedSolution ntasks)) := do
  let figures ← sortedFigures rand goldenIndex
  numberFrom tasks figures goldenIndex 0

theorem figure_pos (r : Nat) : 0 < figure r := by
  unfold figure
  positivity

@[simp] theorem length_drawnFigures (rand : Nat → Nat) (goldenIndex : Nat) :
    (drawnFigures rand goldenIndex).length = goldenIndex := by
  simp [drawnFigures]

theorem sortedFigures_sorts (rand : Nat → Nat) (goldenIndex : Nat) :
    ∃ figures, sortedFigures rand goldenIndex = some figures ∧
      figures.Perm (drawnFigures rand goldenIndex) ∧ figures.Pairwise fun f g => g ≤ f := by
  simpa [sortedFigures] using exchangePasses_sorts (drawnFigures rand goldenIndex)

/-- The solutions from `i` on, for the figures that are there. -/
theorem numberFrom_eq (tasks : Nat → Vector Int ntasks) (pre figures : List ℚ) :
    ∃ solutions, numberFrom tasks (pre ++ figures) figures.length pre.length = some solutions ∧
      solutions.map (fun s => s.f) = figures ∧
      solutions.map NumberedSolution.id = List.range' (pre.length + 1) figures.length := by
  induction figures generalizing pre with
  | nil => exact ⟨[], rfl, rfl, rfl⟩
  | cons f figures ih =>
      rcases ih (pre ++ [f]) with ⟨rest, hrest, hfigures, hids⟩
      simp only [List.append_assoc, List.singleton_append, List.length_append,
        List.length_singleton] at hrest hids
      refine ⟨generateLocalSolution (pre.length + 1) f (tasks pre.length) :: rest, ?_, ?_, ?_⟩
      · simp [numberFrom, hrest]
      · simp [generateLocalSolution, hfigures]
      · simp [generateLocalSolution, hids, List.range'_succ]

/-- The solutions have the figures that were drawn, the highest first, and the numbers from 1 on. -/
theorem generateSolutions_sorted (rand : Nat → Nat) (tasks : Nat → Vector Int ntasks)
    (goldenIndex : Nat) :
    ∃ solutions, generateSolutions rand tasks goldenIndex = some solutions ∧
      (solutions.map fun s => s.f).Perm (drawnFigures rand goldenIndex) ∧
      (solutions.map fun s => s.f).Pairwise (fun f g => g ≤ f) ∧
      (∀ s ∈ solutions, 0 < s.f) ∧
      solutions.map NumberedSolution.id = List.range' 1 goldenIndex ∧
      Satellite.Sorted { localSolutions := solutions.map NumberedSolution.toLocalSolution } := by
  rcases sortedFigures_sorts rand goldenIndex with ⟨figures, hsorts, hperm, hsorted⟩
  have hlen : figures.length = goldenIndex := by simpa using hperm.length_eq
  rcases numberFrom_eq tasks [] figures with ⟨solutions, hnumber, hfigures, hids⟩
  simp only [List.nil_append, List.length_nil, Nat.zero_add, hlen] at hnumber hids
  refine ⟨solutions, ?_, hfigures ▸ hperm, hfigures ▸ hsorted, fun s hs => ?_, hids, ?_⟩
  · simp [generateSolutions, hsorts, hnumber]
  · -- every figure is one of those that were drawn
    have hmem : s.f ∈ figures := hfigures ▸ List.mem_map_of_mem hs
    rcases List.mem_map.1 (hperm.subset hmem) with ⟨j, _, hj⟩
    exact hj ▸ figure_pos (rand j)
  · rw [← hfigures] at hsorted
    exact List.pairwise_map.2 (List.pairwise_map.1 hsorted)

/-! ## generate_tasks -/

/-- The `while` of `generate_tasks`, with `a` ones put and `k` values drawn. -/
def placeOnes (rand : Nat → Nat) (nOnes : Nat) :
    Nat → Nat → Nat → Vector Int ntasks → Option (Vector Int ntasks × Nat)
  | 0, _, _, _ => none
  | fuel + 1, k, a, tasks =>
      if a < nOnes then do
        let i := rand k % ntasks
        let task ← tasks[i]?
        if task = 1 then placeOnes rand nOnes fuel (k + 1) a tasks
        else placeOnes rand nOnes fuel (k + 1) (a + 1) (tasks.set! i 1)
      else some (tasks, k)

/-- `generate_tasks`, and how many values have been drawn after it.  Without tasks the remainder is
a fault, and so is the first place here. -/
def generateTasks (rand : Nat → Nat) (fuel k : Nat) : Option (Vector Int ntasks × Nat) :=
  placeOnes rand (rand k % ntasks + 1) fuel (k + 1) 0 (Vector.replicate ntasks 0)

/-- The places are 0 or 1, and `a` of them are 1. -/
structure HasOnes (a : Nat) (tasks : Vector Int ntasks) : Prop where
  bits : ∀ task ∈ tasks.toList, task = 0 ∨ task = 1
  count : tasks.toList.count 1 = a

theorem hasOnes_replicate : HasOnes 0 (Vector.replicate ntasks (0 : Int)) where
  bits := by
    intro task htask
    exact .inl (List.eq_of_mem_replicate (by simpa using htask))
  count := by simp [List.count_replicate]

theorem HasOnes.set {a i : Nat} {task : Int} {tasks : Vector Int ntasks} (h : HasOnes a tasks)
    (hget : tasks[i]? = some task) (hne : task ≠ 1) : HasOnes (a + 1) (tasks.set! i 1) := by
  rcases Vector.getElem?_eq_some_iff.1 hget with ⟨hi, rfl⟩
  have hlist : (tasks.set! i 1).toList = tasks.toList.set i 1 := by
    simp
  refine ⟨fun task htask => ?_, ?_⟩
  · rw [hlist] at htask
    rcases List.mem_or_eq_of_mem_set htask with hold | hone
    · exact h.bits task hold
    · exact .inr hone
  · rw [hlist, List.count_set (by simpa using hi)]
    simp [hne, h.count]

/-- What `generate_tasks` leaves behind when it returns. -/
theorem hasOnes_of_placeOnes {rand : Nat → Nat} {nOnes fuel k a : Nat} {tasks : Vector Int ntasks}
    {r : Vector Int ntasks × Nat} (h : HasOnes a tasks) (ha : a ≤ nOnes)
    (hrun : placeOnes rand nOnes fuel k a tasks = some r) : HasOnes nOnes r.1 := by
  induction fuel generalizing k a tasks with
  | zero => simp [placeOnes] at hrun
  | succ fuel ih =>
      rw [placeOnes] at hrun
      split_ifs at hrun with hlt
      · cases hget : tasks[rand k % ntasks]? with
        | none => simp [hget] at hrun
        | some task =>
            simp only [hget, Option.bind_eq_bind, Option.bind_some] at hrun
            split_ifs at hrun with htask
            · exact ih h ha hrun
            · exact ih (h.set hget htask) hlt hrun
      · cases hrun
        have heq : a = nOnes := Nat.le_antisymm ha (Nat.le_of_not_lt hlt)
        exact heq ▸ h

theorem hasOnes_of_generateTasks {rand : Nat → Nat} {fuel k : Nat} {r : Vector Int ntasks × Nat}
    (h : generateTasks rand fuel k = some r) : HasOnes (rand k % ntasks + 1) r.1 :=
  hasOnes_of_placeOnes hasOnes_replicate (Nat.zero_le _) h

/-- Every place is drawn again and again. -/
def Fair (rand : Nat → Nat) (ntasks : Nat) : Prop :=
  ∀ k i, i < ntasks → ∃ d, rand (k + d) % ntasks = i

theorem HasOnes.exists_free {a : Nat} {tasks : Vector Int ntasks} (h : HasOnes a tasks)
    (ha : a < ntasks) : ∃ (i : Nat) (task : Int), tasks[i]? = some task ∧ task ≠ 1 := by
  by_contra hnone
  push Not at hnone
  have hall : ∀ task ∈ tasks.toList, 1 = task := by
    intro task htask
    rcases List.getElem?_of_mem htask with ⟨i, hi⟩
    exact (hnone i task (by simpa using hi)).symm
  have hcount := List.count_eq_length.2 hall
  rw [h.count, Vector.length_toList] at hcount
  omega

section

variable {rand : Nat → Nat} {nOnes k a : Nat} {tasks : Vector Int ntasks}

theorem placeOnes_turn {task : Int} (ha : a < nOnes) (hget : tasks[rand k % ntasks]? = some task)
    (fuel : Nat) :
    placeOnes rand nOnes (fuel + 1) k a tasks =
      if task = 1 then placeOnes rand nOnes fuel (k + 1) a tasks
      else placeOnes rand nOnes fuel (k + 1) (a + 1) (tasks.set! (rand k % ntasks) 1) := by
  simp only [placeOnes, if_pos ha, hget, Option.bind_eq_bind, Option.bind_some]

/-- The loop goes on to a free place, whatever is drawn in between. -/
theorem placeOnes_reaches {d : Nat} {task : Int} (ha : a < nOnes)
    (hfree : tasks[rand (k + d) % ntasks]? = some task) (hne : task ≠ 1)
    (hnext : ∀ k' i task, tasks[i]? = some task → task ≠ 1 →
      ∃ fuel r, placeOnes rand nOnes fuel k' (a + 1) (tasks.set! i 1) = some r) :
    ∃ fuel r, placeOnes rand nOnes fuel k a tasks = some r := by
  induction d generalizing k with
  | zero =>
      rw [Nat.add_zero] at hfree
      rcases hnext (k + 1) _ task hfree hne with ⟨fuel, r, hr⟩
      exact ⟨fuel + 1, r, by rw [placeOnes_turn ha hfree, if_neg hne, hr]⟩
  | succ d ih =>
      -- there is a place, since one of them is free
      have hpos : 0 < ntasks :=
        Nat.lt_of_le_of_lt (Nat.zero_le _) (Vector.getElem?_eq_some_iff.1 hfree).1
      have hlt : rand k % ntasks < ntasks := Nat.mod_lt (rand k) hpos
      have hget : tasks[rand k % ntasks]? = some tasks[rand k % ntasks] :=
        Vector.getElem?_eq_getElem hlt
      by_cases htask : tasks[rand k % ntasks] = 1
      · have hshift : k + 1 + d = k + (d + 1) := by omega
        rcases ih (hshift ▸ hfree) with ⟨fuel, r, hr⟩
        exact ⟨fuel + 1, r, by rw [placeOnes_turn ha hget, if_pos htask, hr]⟩
      · rcases hnext (k + 1) _ _ hget htask with ⟨fuel, r, hr⟩
        exact ⟨fuel + 1, r, by rw [placeOnes_turn ha hget, if_neg htask, hr]⟩

theorem placeOnes_returns (hfair : Fair rand ntasks) (hones : nOnes ≤ ntasks) {m : Nat}
    (hm : nOnes - a = m) (h : HasOnes a tasks) :
    ∃ fuel r, placeOnes rand nOnes fuel k a tasks = some r := by
  -- induction on the ones that are still to be put
  induction m generalizing k a tasks with
  | zero => exact ⟨1, (tasks, k), by simp [placeOnes, Nat.not_lt.2 (Nat.sub_eq_zero_iff_le.1 hm)]⟩
  | succ m ih =>
      have ha : a < nOnes := by omega
      rcases h.exists_free (Nat.lt_of_lt_of_le ha hones) with ⟨i, task, hget, hne⟩
      rcases hfair k i (Vector.getElem?_eq_some_iff.1 hget).1 with ⟨d, rfl⟩
      refine placeOnes_reaches ha hget hne fun k' j task' hget' hne' => ?_
      exact ih (by omega) (h.set hget' hne')

/-- `generate_tasks` returns when every place is drawn again and again. -/
theorem generateTasks_returns (hpos : 0 < ntasks) (hfair : Fair rand ntasks) (k : Nat) :
    ∃ fuel, ∃ r : Vector Int ntasks × Nat, generateTasks rand fuel k = some r :=
  placeOnes_returns hfair (Nat.mod_lt _ hpos) rfl hasOnes_replicate

/-- More fuel does not change what is returned. -/
theorem placeOnes_mono {fuel : Nat} {r : Vector Int ntasks × Nat}
    (h : placeOnes rand nOnes fuel k a tasks = some r) (more : Nat) :
    placeOnes rand nOnes (fuel + more) k a tasks = some r := by
  induction fuel generalizing k a tasks with
  | zero => simp [placeOnes] at h
  | succ fuel ih =>
      rw [Nat.add_right_comm]
      by_cases ha : a < nOnes
      · cases hget : tasks[rand k % ntasks]? with
        | none => simp [placeOnes, ha, hget] at h
        | some task =>
            rw [placeOnes_turn ha hget] at h ⊢
            split_ifs at h ⊢
            · exact ih h
            · exact ih h
      · simpa [placeOnes, ha] using h

end

/-! ## With the calls of `generate_tasks` -/

/-- The last loop, with `k` values drawn. -/
def numberDrawing (rand : Nat → Nat) (fuel : Nat) (figures : List ℚ) :
    Nat → Nat → Nat → Option (List (NumberedSolution ntasks))
  | 0, _, _ => some []
  | left + 1, i, k => do
      let f ← figures[i]?
      let (tasks, k) ← generateTasks rand fuel k
      let rest ← numberDrawing rand fuel figures left (i + 1) k
      some (generateLocalSolution (i + 1) f tasks :: rest)

/-- `generate_solutions` with everything it draws. -/
def generateDrawing (rand : Nat → Nat) (fuel goldenIndex : Nat) :
    Option (List (NumberedSolution ntasks)) := do
  let figures ← sortedFigures rand goldenIndex
  numberDrawing rand fuel figures goldenIndex 0 goldenIndex

section

variable {rand : Nat → Nat} {fuel goldenIndex : Nat} {figures : List ℚ}
  {solutions : List (NumberedSolution ntasks)}

theorem numberFrom_congr {tasks tasks' : Nat → Vector Int ntasks} {left i : Nat}
    (h : ∀ j, i ≤ j → tasks j = tasks' j) :
    numberFrom tasks figures left i = numberFrom tasks' figures left i := by
  induction left generalizing i with
  | zero => rfl
  | succ left ih =>
      rw [numberFrom, numberFrom, ih fun j hj => h j (Nat.le_of_succ_le hj), h i (Nat.le_refl i)]

theorem numberFrom_of_drawing {left i k : Nat}
    (h : numberDrawing rand fuel figures left i k = some solutions) :
    ∃ tasks, numberFrom tasks figures left i = some solutions := by
  induction left generalizing i k solutions with
  | zero =>
      cases h
      exact ⟨fun _ => Vector.replicate ntasks 0, rfl⟩
  | succ left ih =>
      simp only [numberDrawing, Option.bind_eq_bind, Option.bind_eq_some_iff] at h
      rcases h with ⟨f, hf, ⟨task, k'⟩, _, rest, hrest, hsolutions⟩
      rcases ih hrest with ⟨tasks, htasks⟩
      -- the tasks of the solution at hand, and those of the others
      have hothers : numberFrom (Function.update tasks i task) figures left (i + 1) = some rest :=
        (numberFrom_congr fun j hj => Function.update_of_ne (Nat.ne_of_gt hj) _ _).trans htasks
      exact ⟨Function.update tasks i task, by simpa [numberFrom, hf, hothers] using hsolutions⟩

/-- What the function returns is what its loops make of the tasks that were drawn. -/
theorem generateSolutions_of_drawing (h : generateDrawing rand fuel goldenIndex = some solutions) :
    ∃ tasks, generateSolutions rand tasks goldenIndex = some solutions := by
  rcases Option.bind_eq_some_iff.1 h with ⟨figures, hfigures, hnumber⟩
  rcases numberFrom_of_drawing hnumber with ⟨tasks, htasks⟩
  exact ⟨tasks, by simp [generateSolutions, hfigures, htasks]⟩

theorem numberDrawing_mono {left i k : Nat}
    (h : numberDrawing rand fuel figures left i k = some solutions) (more : Nat) :
    numberDrawing rand (fuel + more) figures left i k = some solutions := by
  induction left generalizing i k solutions with
  | zero => exact h
  | succ left ih =>
      simp only [numberDrawing, Option.bind_eq_bind, Option.bind_eq_some_iff] at h ⊢
      rcases h with ⟨f, hf, r, hr, rest, hrest, hsolutions⟩
      exact ⟨f, hf, r, placeOnes_mono hr more, rest, ih hrest, hsolutions⟩

theorem numberDrawing_returns (hpos : 0 < ntasks) (hfair : Fair rand ntasks) (left i k : Nat)
    (hlen : i + left ≤ figures.length) :
    ∃ fuel, ∃ solutions : List (NumberedSolution ntasks),
      numberDrawing rand fuel figures left i k = some solutions := by
  induction left generalizing i k with
  | zero => exact ⟨0, [], rfl⟩
  | succ left ih =>
      rcases generateTasks_returns hpos hfair k with ⟨fuel₁, ⟨tasks, k'⟩, htasks⟩
      rcases ih (i + 1) k' (by omega) with ⟨fuel₂, rest, hrest⟩
      have hfigure := List.getElem?_eq_getElem (show i < figures.length by omega)
      refine ⟨fuel₁ + fuel₂, generateLocalSolution (i + 1) figures[i] tasks :: rest, ?_⟩
      have hfirst : generateTasks rand (fuel₁ + fuel₂) k = some (tasks, k') :=
        placeOnes_mono htasks fuel₂
      have hothers := numberDrawing_mono hrest fuel₁
      rw [Nat.add_comm] at hothers
      simp [numberDrawing, hfigure, hfirst, hothers]

/-- The whole function returns when every place is drawn again and again. -/
theorem generateDrawing_returns (hpos : 0 < ntasks) (hfair : Fair rand ntasks)
    (goldenIndex : Nat) :
    ∃ fuel, ∃ solutions : List (NumberedSolution ntasks),
      generateDrawing rand fuel goldenIndex = some solutions := by
  rcases sortedFigures_sorts rand goldenIndex with ⟨figures, hsorts, hperm, _⟩
  have hlen : figures.length = goldenIndex := by simpa using hperm.length_eq
  have hbound : 0 + goldenIndex ≤ figures.length := by omega
  rcases numberDrawing_returns hpos hfair goldenIndex 0 goldenIndex hbound with
    ⟨fuel, solutions, hnumber⟩
  exact ⟨fuel, solutions, by simp [generateDrawing, hsorts, hnumber]⟩

end

end Scheduler
end AbsPlatform

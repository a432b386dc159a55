import Mathlib.Algebra.Order.Field.Rat

/-!
# Shed — the global scheduler

`Scheduler/shed.c`.  Every satellite has a list of local solutions, each with a figure of merit and
the tasks it carries out; a combination picks for every satellite one of its solutions or none, and
`solve` goes through all the combinations for one with the highest score.

Figures of merit and scores are exact rationals.  The counters are natural numbers under a bound:
what does not fit is an overflow of a signed integer, and like an access outside of an array it is
a fault, `none`.  The same definitions then describe the program on the machine and with unbounded
counters.
-/

namespace AbsPlatform
namespace Scheduler

/-! ## Integers -/

/-- The largest values of `int` and `long long int`; `none` where there is no bound. -/
structure Arithmetic where
  intMax : Option Nat
  longLongMax : Option Nat

def Arithmetic.exact : Arithmetic := ⟨none, none⟩

def Arithmetic.machine : Arithmetic := ⟨some 2147483647, some 9223372036854775807⟩

def Fits (bound : Option Nat) (n : Nat) : Prop := ∀ m ∈ bound, n ≤ m

instance (bound : Option Nat) (n : Nat) : Decidable (Fits bound n) :=
  match bound with
  | none => .isTrue (by simp [Fits])
  | some m => decidable_of_iff (n ≤ m) ⟨fun h _ hm => Option.some.inj hm ▸ h, fun h => h m rfl⟩

/-- A result that is stored. -/
def checked (bound : Option Nat) (n : Nat) : Option Nat := if Fits bound n then some n else none

/-! ## shed_mat.h -/

/-- `F` and `tasks` of a `LocalSolution`. -/
structure LocalSolution (ntasks : Nat) where
  f : ℚ
  tasks : Vector Int ntasks

structure Satellite (ntasks : Nat) where
  localSolutions : List (LocalSolution ntasks)

variable {ntasks : Nat}

/-- `golden_index`, the number of solutions. -/
def Satellite.goldenIndex (sat : Satellite ntasks) : Nat := sat.localSolutions.length

/-- For every satellite, 0 or the number of one of its solutions from 1 on. -/
abbrev Combination := List Nat

variable (arith : Arithmetic) (sats : List (Satellite ntasks)) (combination : Combination)

/-! ## Scores -/

/-- The solutions that the loops over the satellites come to: `combination[k]` is 0 for a satellite
that is left out, and `local_solutions[combination[k] - 1]` otherwise. -/
def chosen : List (Satellite ntasks) → Combination → Option (List (LocalSolution ntasks))
  | [], _ => some []
  | _ :: _, [] => none
  | _ :: sats, 0 :: combination => chosen sats combination
  | sat :: sats, (c + 1) :: combination => do
      let solution ← sat.localSolutions[c]?
      let solutions ← chosen sats combination
      some (solution :: solutions)

/-- `sum`: how often each task is carried out. -/
def occurrences (solutions : List (LocalSolution ntasks)) : List Nat :=
  (List.finRange ntasks).map fun i => solutions.countP fun s => s.tasks[i] = 1

/-- The loop over `sum` that adds up the tasks carried out more than once. -/
def addRepeated (sum : List Nat) : Option Nat :=
  sum.foldlM (fun n r => if r = 0 ∨ r = 1 then some n else checked arith.intMax (n + r)) 0

/-- `(ntasks - nzeros) * 10 / ntasks`. -/
def ticOf (ntasks : Nat) (sum : List Nat) : Option Nat :=
  if ntasks = 0 then none
  else (checked arith.intMax ((ntasks - sum.count 0) * 10)).map (· / ntasks)

/-- `total_occurrences`: its value, and what it leaves in `tic`. -/
def totalOccurrences : Option (Nat × Nat) := do
  let solutions ← chosen sats combination
  let sum := occurrences solutions
  let n ← addRepeated arith sum
  let tic ← ticOf arith ntasks sum
  some (if n = 0 then 1 else n, tic)

/-- `total_reward`. -/
def totalReward (tic : Nat) : Option ℚ := do
  let solutions ← chosen sats combination
  some ((solutions.map LocalSolution.f).sum * tic)

/-- `check_solution`. -/
def checkSolution : Option Bool := do
  let solutions ← chosen sats combination
  some (solutions.all fun s => s.f ≠ 0)

/-- `num`: the reward for each occurrence. -/
def score : Option ℚ := do
  let (n, tic) ← totalOccurrences arith sats combination
  let r ← totalReward sats combination tic
  some (r / n)

/-! ## Combinations -/

/-- `next_combination`, from satellite `n - 1` down. -/
def nextFrom : Nat → Combination → Option Combination
  | 0, combination => some combination
  | n + 1, combination => do
      let sat ← sats[n]?
      let c ← combination[n]?
      let c ← checked arith.intMax (c + 1)
      if sat.goldenIndex < c then nextFrom n (combination.set n 0)
      else some (combination.set n c)

def nextCombination : Option Combination := nextFrom arith sats sats.length combination

/-- `number_of_combinations`; `sats[0]` is read first. -/
def numberOfCombinations : List (Satellite ntasks) → Option Nat
  | [] => none
  | sat :: sats => do
      let combs ← checked arith.intMax (sat.goldenIndex + 1)
      sats.foldlM
        (fun combs sat => do
          let factor ← checked arith.intMax (sat.goldenIndex + 1)
          checked arith.longLongMax (combs * factor))
        combs

/-! ## The search -/

/-- The variables of the loop of `solve`. -/
structure Search where
  combination : Combination
  max : ℚ
  /-- `none` until it is assigned: `malloc` does not initialise it -/
  solution : Option Combination

/-- The part of the loop behind `check_solution`. -/
def Search.consider (s : Search) : Option Search := do
  let num ← score arith sats s.combination
  some (if s.max < num then { s with max := num, solution := some s.combination } else s)

/-- One turn of the loop. -/
def Search.turn (s : Search) : Option Search := do
  let combination ← nextCombination arith sats s.combination
  let s := { s with combination := combination }
  let valid ← checkSolution sats combination
  if valid then s.consider arith sats else some s

/-- The loop, with `left` values of `i` still below `combs`. -/
def Search.loop : Nat → Nat → Search → Option Search
  | 0, _, s => some s
  | left + 1, i, s => do
      let s ← s.turn arith sats
      let i ← checked arith.intMax (i + 1)
      Search.loop left i s

/-- `solve`.  The static variable `max` is 0 when the program starts, and `main` calls this once. -/
def solve : Option Search := do
  let combs ← numberOfCombinations arith sats
  let start : Search :=
    { combination := List.replicate sats.length 0
      max := 0
      solution := none }
  Search.loop arith sats (combs - 1) 1 start

/-! ## Duplicates -/

/-- `compare_solutions`. -/
def compareSolutions (solution1 solution2 : Vector Int ntasks) : Bool :=
  (List.finRange ntasks).all fun i => solution1[i] = solution2[i]

/-- `delete_duplicates(sats, sol, sat)`, on the satellite it is about. -/
def deleteDuplicates (sat : Satellite ntasks) (sol : Nat) : Satellite ntasks :=
  match sat.localSolutions[sol]? with
  | none => sat
  | some kept =>
      { localSolutions := sat.localSolutions.mapIdx fun j s =>
          if sol < j ∧ s.f ≠ 0 ∧ compareSolutions kept.tasks s.tasks then { s with f := 0 } else s }

/-- `delete_duplicates` for every solution of a satellite, from the first one on. -/
def Satellite.pruned (sat : Satellite ntasks) : Satellite ntasks :=
  (List.range sat.goldenIndex).foldl deleteDuplicates sat

end Scheduler
end AbsPlatform

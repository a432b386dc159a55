import Mathlib.Algebra.Order.BigOperators.Group.List
import Mathlib.Algebra.Order.Field.Basic
import Mathlib.Tactic.IntervalCases
import AbsPlatform.Scheduler.Combinations

/-!
# Search — when the scheduler finds an optimum

`solve` keeps the best combination so far, in the order in which `next_combination` produces them.
The running maximum starts from 0 and only a higher score replaces it.  Since the factor for the
covered tasks is a truncated quotient, the scores can all be 0, and then nothing is assigned to
`solution`; and the counter of the loop is an `int`, while the number of combinations is a
`long long int`.
-/

namespace AbsPlatform
namespace Scheduler

open Lib

variable {ntasks : Nat} {arith : Arithmetic} {sats : List (Satellite ntasks)}
  {combination : Combination} {solutions : List (LocalSolution ntasks)}

/-! ## The solutions of a combination -/

theorem chosen_of_inRange (h : InRange sats combination) :
    ∃ solutions, chosen sats combination = some solutions := by
  induction sats generalizing combination with
  | nil => exact ⟨[], rfl⟩
  | cons sat sats ih =>
      cases h with
      | @cons c b cs bs hc hcs =>
          rcases ih hcs with ⟨solutions, hsolutions⟩
          cases c with
          | zero => exact ⟨solutions, hsolutions⟩
          | succ c =>
              have hlt : c < sat.localSolutions.length := hc
              refine ⟨sat.localSolutions[c] :: solutions, ?_⟩
              simp [chosen, hsolutions, List.getElem?_eq_getElem hlt]

/-- A satellite that is not left out comes with its solution in front of the others. -/
theorem chosen_succ_eq_some {sat : Satellite ntasks} {c : Nat}
    (h : chosen (sat :: sats) ((c + 1) :: combination) = some solutions) :
    ∃ first rest, sat.localSolutions[c]? = some first ∧ chosen sats combination = some rest ∧
      solutions = first :: rest := by
  rcases Option.bind_eq_some_iff.1 h with ⟨first, hfirst, hmore⟩
  rcases Option.bind_eq_some_iff.1 hmore with ⟨rest, hrest, heq⟩
  cases heq
  exact ⟨first, rest, hfirst, hrest, rfl⟩

/-- Everything chosen is a solution of a satellite. -/
theorem mem_of_chosen (h : chosen sats combination = some solutions) {s : LocalSolution ntasks}
    (hs : s ∈ solutions) : ∃ sat ∈ sats, s ∈ sat.localSolutions := by
  induction sats, combination using chosen.induct generalizing solutions with
  | case1 combination =>
      cases h
      cases hs
  | case2 sat sats => cases h
  | case3 sat sats combination ih =>
      rcases ih h hs with ⟨sat', hsat', hmem⟩
      exact ⟨sat', List.mem_cons_of_mem _ hsat', hmem⟩
  | case4 sat sats c combination ih =>
      rcases chosen_succ_eq_some h with ⟨first, rest, hfirst, hrest, rfl⟩
      rcases List.mem_cons.1 hs with rfl | hs
      · exact ⟨sat, List.mem_cons_self, List.mem_of_getElem? hfirst⟩
      · rcases ih hrest hs with ⟨sat', hsat', hmem⟩
        exact ⟨sat', List.mem_cons_of_mem _ hsat', hmem⟩

/-- Only the first combination chooses nothing. -/
theorem eq_allZero_of_chosen (hrange : InRange sats combination)
    (h : chosen sats combination = some []) : combination = allZero sats := by
  induction sats, combination using chosen.induct with
  | case1 combination =>
      cases hrange
      rfl
  | case2 sat sats => cases h
  | case3 sat sats combination ih =>
      cases hrange with
      | cons _ hrest => exact congrArg (List.cons 0) (ih hrest h)
  | case4 sat sats c combination ih =>
      rcases chosen_succ_eq_some h with ⟨first, rest, _, _, hcons⟩
      cases hcons

/-! ## The counters -/

/-- How many tasks are carried out at all. -/
def coveredTasks (solutions : List (LocalSolution ntasks)) : Nat :=
  (occurrences solutions).countP (· ≠ 0)

/-- How often the tasks are carried out that are carried out more than once. -/
def repeatedTasks (solutions : List (LocalSolution ntasks)) : Nat :=
  ((occurrences solutions).filter (2 ≤ ·)).sum

/-- The score, in exact arithmetic. -/
def exactScore (solutions : List (LocalSolution ntasks)) : ℚ :=
  (solutions.map LocalSolution.f).sum * (coveredTasks solutions * 10 / ntasks : Nat) /
    (if repeatedTasks solutions = 0 then 1 else repeatedTasks solutions : Nat)

theorem addRepeated_eq (sum : List Nat) :
    addRepeated arith sum = checked arith.intMax (sum.filter (2 ≤ ·)).sum := by
  -- the accumulator fits, and a sum that fits has parts that fit
  have hfold : ∀ n, Fits arith.intMax n →
      sum.foldlM (fun n r => if r = 0 ∨ r = 1 then some n else checked arith.intMax (n + r)) n =
        checked arith.intMax (n + (sum.filter (2 ≤ ·)).sum) := by
    induction sum with
    | nil =>
        intro n hn
        simp [checked_of_fits hn]
    | cons r sum ih =>
        intro n hn
        rw [List.foldlM_cons]
        by_cases hr : r = 0 ∨ r = 1
        · have hsmall : ¬ 2 ≤ r := by omega
          simp only [hr, if_true, Option.bind_eq_bind, Option.bind_some]
          rw [ih n hn, List.filter_cons_of_neg (by simpa using hsmall)]
        · have hlarge : 2 ≤ r := by omega
          rw [List.filter_cons_of_pos (by simpa using hlarge), List.sum_cons, ← Nat.add_assoc]
          simp only [hr, if_false, Option.bind_eq_bind]
          by_cases hfits : Fits arith.intMax (n + r)
          · rw [checked_of_fits hfits, Option.bind_some, ih _ hfits]
          · have hmore : ¬ Fits arith.intMax (n + r + (sum.filter (2 ≤ ·)).sum) :=
              fun h => hfits (h.mono (Nat.le_add_right _ _))
            simp [checked, hfits, hmore]
  have hzero : Fits arith.intMax 0 := fun m _ => Nat.zero_le m
  rw [addRepeated, hfold 0 hzero, Nat.zero_add]

theorem sub_count_zero (solutions : List (LocalSolution ntasks)) :
    ntasks - (occurrences solutions).count 0 = coveredTasks solutions := by
  have hlength : (occurrences solutions).length = ntasks := by simp [occurrences]
  have hsplit := List.length_eq_countP_add_countP (· ≠ 0) (l := occurrences solutions)
  have hcount : (occurrences solutions).count 0 =
      (occurrences solutions).countP (fun a => decide ¬ decide (a ≠ 0) = true) := by
    rw [List.count]
    exact List.countP_congr fun a _ => by simp
  rw [coveredTasks, hcount]
  omega

/-- A combination has a score when the two counters of `total_occurrences` do not overflow. -/
theorem score_eq_some_iff (htasks : 0 < ntasks) (h : chosen sats combination = some solutions)
    {q : ℚ} : score arith sats combination = some q ↔
      Fits arith.intMax (repeatedTasks solutions) ∧
        Fits arith.intMax (coveredTasks solutions * 10) ∧ q = exactScore solutions := by
  have hoccurrences : totalOccurrences arith sats combination =
      (checked arith.intMax (repeatedTasks solutions)).bind fun n =>
        (checked arith.intMax (coveredTasks solutions * 10)).bind fun covered =>
          some (if n = 0 then 1 else n, covered / ntasks) := by
    have hne : ntasks ≠ 0 := Nat.pos_iff_ne_zero.1 htasks
    simp [totalOccurrences, h, addRepeated_eq, ticOf, hne, sub_count_zero, repeatedTasks,
      Option.bind_map]
  rw [score, hoccurrences]
  by_cases hrepeated : Fits arith.intMax (repeatedTasks solutions)
  · by_cases hcovered : Fits arith.intMax (coveredTasks solutions * 10)
    · simp [checked_of_fits hrepeated, checked_of_fits hcovered, totalReward, h, hrepeated,
        hcovered, exactScore, eq_comm]
    · simp [checked, hrepeated, hcovered]
  · simp [checked, hrepeated]

/-! ## Candidates -/

/-- Every figure of merit is positive. -/
def Positive (sats : List (Satellite ntasks)) : Prop :=
  ∀ sat ∈ sats, ∀ s ∈ sat.localSolutions, 0 < s.f

/-- A combination that is not all zero and that `check_solution` accepts. -/
structure Candidate (sats : List (Satellite ntasks)) (combination : Combination) : Prop where
  inRange : InRange sats combination
  ne_allZero : combination ≠ allZero sats
  accepted : checkSolution sats combination = some true

theorem checkSolution_of_positive (hpos : Positive sats) (hrange : InRange sats combination) :
    checkSolution sats combination = some true := by
  rcases chosen_of_inRange hrange with ⟨solutions, hchosen⟩
  have hall : ∀ s ∈ solutions, s.f ≠ 0 := by
    intro s hs
    rcases mem_of_chosen hchosen hs with ⟨sat, hsat, hmem⟩
    exact (hpos sat hsat s hmem).ne'
  simpa [checkSolution, hchosen] using hall

theorem sum_pos_of_positive (hpos : Positive sats) (hne : combination ≠ allZero sats)
    (hrange : InRange sats combination) (h : chosen sats combination = some solutions) :
    0 < (solutions.map LocalSolution.f).sum := by
  have hnil : solutions ≠ [] := by
    rintro rfl
    exact hne (eq_allZero_of_chosen hrange h)
  refine List.sum_pos _ ?_ (by simpa using hnil)
  intro x hx
  rcases List.mem_map.1 hx with ⟨s, hs, rfl⟩
  rcases mem_of_chosen h hs with ⟨sat, hsat, hmem⟩
  exact hpos sat hsat s hmem

/-- A candidate has a positive score if it covers a tenth of the tasks, and else the score 0. -/
theorem exactScore_pos_iff (htasks : 0 < ntasks) (hpos : Positive sats)
    (hcandidate : Candidate sats combination) (h : chosen sats combination = some solutions) :
    0 < exactScore solutions ↔ ntasks ≤ coveredTasks solutions * 10 := by
  have hsum := sum_pos_of_positive hpos hcandidate.ne_allZero hcandidate.inRange h
  have hdiv : 0 < (if repeatedTasks solutions = 0 then 1 else repeatedTasks solutions) := by
    split_ifs with hzero
    · exact Nat.one_pos
    · exact Nat.pos_of_ne_zero hzero
  have hdivq : (0 : ℚ) <
      ((if repeatedTasks solutions = 0 then 1 else repeatedTasks solutions : Nat) : ℚ) :=
    Nat.cast_pos.2 hdiv
  rw [exactScore, div_pos_iff_of_pos_right hdivq, mul_pos_iff_of_pos_left hsum, Nat.cast_pos,
    Nat.div_pos_iff]
  exact and_iff_right htasks

/-! ## The loop -/

/-- The state of the search after `t` turns: `max` bounds the scores so far, and it is the score of
`solution` once there is one. -/
structure Found (arith : Arithmetic) (sats : List (Satellite ntasks)) (t : Nat) (s : Search) :
    Prop where
  current : visited arith sats t = some s.combination
  bound : ∀ k c q, 1 ≤ k → k ≤ t → visited arith sats k = some c →
    score arith sats c = some q → q ≤ s.max
  solution : (s.solution = none ∧ s.max = 0) ∨
    ∃ k c, 1 ≤ k ∧ k ≤ t ∧ visited arith sats k = some c ∧ s.solution = some c ∧
      score arith sats c = some s.max ∧ 0 < s.max

theorem Found.nonneg {t : Nat} {s : Search} (h : Found arith sats t s) : 0 ≤ s.max := by
  rcases h.solution with ⟨_, hmax⟩ | ⟨_, _, _, _, _, _, _, hmax⟩
  · exact hmax.ge
  · exact hmax.le

section Loop

variable (hpos : Positive sats) (hfits : ∀ sat ∈ sats, Fits arith.intMax (sat.goldenIndex + 1))
include hpos hfits

/-- With positive figures of merit, every combination is considered. -/
theorem turn_eq {t : Nat} {s : Search} (h : visited arith sats t = some s.combination) :
    ∃ next, visited arith sats (t + 1) = some next ∧
      s.turn arith sats = Search.consider arith sats { s with combination := next } := by
  have hrange : InRange sats s.combination := inRange_of_visited hfits h
  have hnext := nextCombination_eq hfits hrange
  have hvisited : visited arith sats (t + 1) =
      some (Odometer.tick (bounds sats).reverse s.combination.reverse).reverse := by
    rw [visited, h]
    exact hnext
  refine ⟨_, hvisited, ?_⟩
  have haccepted := checkSolution_of_positive hpos (inRange_of_visited hfits hvisited)
  simp [Search.turn, hnext, haccepted]

theorem Found.turn {t : Nat} {s : Search} (h : Found arith sats t s)
    (hscore : ∀ c, visited arith sats (t + 1) = some c → (score arith sats c).isSome) :
    ∃ s', s.turn arith sats = some s' ∧ Found arith sats (t + 1) s' := by
  rcases turn_eq hpos hfits h.current with ⟨next, hnext, hturn⟩
  rcases Option.isSome_iff_exists.1 (hscore next hnext) with ⟨num, hnum⟩
  -- an earlier score, or the one of this turn
  have hlast : ∀ k c q, 1 ≤ k → k ≤ t + 1 → visited arith sats k = some c →
      score arith sats c = some q → q ≤ s.max ∨ q = num := by
    intro k c q hk hle hc hq
    rcases Nat.lt_or_eq_of_le hle with hlt | rfl
    · exact Or.inl (h.bound k c q hk (Nat.lt_succ_iff.1 hlt) hc hq)
    · cases hnext.symm.trans hc
      exact Or.inr (Option.some.inj (hq.symm.trans hnum))
  have hconsider : s.turn arith sats =
      some (if s.max < num then ⟨next, num, some next⟩ else ⟨next, s.max, s.solution⟩) := by
    rw [hturn, Search.consider, hnum]
    rfl
  refine ⟨_, hconsider, ?_⟩
  split_ifs with hbetter
  · refine ⟨hnext, ?_, Or.inr ⟨t + 1, next, Nat.succ_pos t, Nat.le_refl _, hnext, rfl, hnum, ?_⟩⟩
    · intro k c q hk hle hc hq
      rcases hlast k c q hk hle hc hq with hq | rfl
      · exact hq.trans hbetter.le
      · exact le_refl _
    · exact h.nonneg.trans_lt hbetter
  · refine ⟨hnext, ?_, ?_⟩
    · intro k c q hk hle hc hq
      rcases hlast k c q hk hle hc hq with hq | rfl
      · exact hq
      · exact not_lt.1 hbetter
    · rcases h.solution with hnone | ⟨k, c, hk, hle, hc, hrest⟩
      · exact Or.inl hnone
      · exact Or.inr ⟨k, c, hk, Nat.le_succ_of_le hle, hc, hrest⟩

/-- The loop ends when the scores of all its combinations exist and its counter does not
overflow. -/
theorem Found.loop {left t : Nat} {s : Search} (h : Found arith sats t s)
    (hscores : ∀ k c, t < k → k ≤ t + left → visited arith sats k = some c →
      (score arith sats c).isSome)
    (hcount : Fits arith.intMax (t + left + 1)) :
    ∃ r, Search.loop arith sats left (t + 1) s = some r ∧ Found arith sats (t + left) r := by
  induction left generalizing t s with
  | zero => exact ⟨s, rfl, h⟩
  | succ left ih =>
      rcases h.turn hpos hfits (fun c hc => hscores (t + 1) c (by omega) (by omega) hc) with
        ⟨s', hturn, hfound⟩
      have hchecked : checked arith.intMax (t + 1 + 1) = some (t + 1 + 1) :=
        checked_of_fits (hcount.mono (by omega))
      have hrest : t + (left + 1) = t + 1 + left := by omega
      rcases ih hfound (fun k c hk hle hc => hscores k c (by omega) (by omega) hc)
        (hrest ▸ hcount) with ⟨r, hr, hfound'⟩
      refine ⟨r, ?_, hrest ▸ hfound'⟩
      rw [Search.loop, hturn]
      simp only [Option.bind_eq_bind, Option.bind_some, hchecked]
      exact hr

/-- And conversely. -/
theorem scores_of_loop {left t : Nat} {s r : Search}
    (hcurrent : visited arith sats t = some s.combination)
    (h : Search.loop arith sats left (t + 1) s = some r) :
    (∀ k c, t < k → k ≤ t + left → visited arith sats k = some c →
      (score arith sats c).isSome) ∧ (0 < left → Fits arith.intMax (t + left + 1)) := by
  induction left generalizing t s with
  | zero =>
      refine ⟨fun k c hk hle => ?_, fun hpos => absurd hpos (Nat.lt_irrefl 0)⟩
      omega
  | succ left ih =>
      rw [Search.loop] at h
      rcases Option.bind_eq_some_iff.1 h with ⟨s', hturn, hmore⟩
      rcases Option.bind_eq_some_iff.1 hmore with ⟨i, hi, hloop⟩
      rcases checked_eq_some.1 hi with ⟨hcount, rfl⟩
      rcases turn_eq hpos hfits hcurrent with ⟨next, hnext, hconsider⟩
      rw [hconsider, Search.consider] at hturn
      rcases Option.bind_eq_some_iff.1 hturn with ⟨num, hnum, hs'⟩
      have hcurrent' : visited arith sats (t + 1) = some s'.combination := by
        rw [hnext]
        cases hs'
        split_ifs <;> rfl
      have hrest : t + (left + 1) = t + 1 + left := by omega
      rcases ih hcurrent' hloop with ⟨hscores, hcounts⟩
      refine ⟨fun k c hk hle hc => ?_, fun _ => ?_⟩
      · rcases Nat.lt_or_eq_of_le (Nat.succ_le_of_lt hk) with hlt | rfl
        · exact hscores k c hlt (hrest ▸ hle) hc
        · cases hnext.symm.trans hc
          exact Option.isSome_iff_exists.2 ⟨num, hnum⟩
      · cases left with
        | zero => exact hcount
        | succ left => exact hrest ▸ hcounts (Nat.succ_pos left)

end Loop

/-! ## The result -/

/-- No candidate has a higher score. -/
structure Optimal (sats : List (Satellite ntasks)) (combination : Combination) : Prop where
  candidate : Candidate sats combination
  best : ∃ q, score .exact sats combination = some q ∧
    ∀ c q', Candidate sats c → score .exact sats c = some q' → q' ≤ q

def Search.start (sats : List (Satellite ntasks)) : Search where
  combination := allZero sats
  max := 0
  solution := none

theorem found_start (arith : Arithmetic) (sats : List (Satellite ntasks)) :
    Found arith sats 0 (Search.start sats) where
  current := rfl
  bound := by
    intro k c q hk hle
    omega
  solution := Or.inl ⟨rfl, rfl⟩

theorem solve_eq_some_iff {r : Search} : solve arith sats = some r ↔
    ∃ combs, numberOfCombinations arith sats = some combs ∧
      Search.loop arith sats (combs - 1) 1 (Search.start sats) = some r :=
  Option.bind_eq_some_iff

section Candidates

variable (hfits : ∀ sat ∈ sats, Fits arith.intMax (sat.goldenIndex + 1))
include hfits

theorem Candidate.visited (h : Candidate sats combination) :
    ∃ k, 1 ≤ k ∧ k ≤ Odometer.size (bounds sats) - 1 ∧
      visited arith sats k = some combination := by
  rcases exists_visited hfits h.inRange h.ne_allZero with ⟨k, hk, hlt, hvisited⟩
  exact ⟨k, hk, by omega, hvisited⟩

theorem candidate_of_visited (hpos : Positive sats) {k : Nat} (hk : 1 ≤ k)
    (hle : k ≤ Odometer.size (bounds sats) - 1)
    (h : Scheduler.visited arith sats k = some combination) : Candidate sats combination where
  inRange := inRange_of_visited hfits h
  ne_allZero := ne_allZero_of_visited hfits hk (by omega) h
  accepted := checkSolution_of_positive hpos (inRange_of_visited hfits h)

end Candidates

/-- The whole loop. -/
theorem found_of_scores (hpos : Positive sats)
    (hfits : ∀ sat ∈ sats, Fits arith.intMax (sat.goldenIndex + 1))
    (hscores : ∀ k c, 0 < k → k ≤ Odometer.size (bounds sats) - 1 →
      visited arith sats k = some c → (score arith sats c).isSome)
    (hsize : Fits arith.intMax (Odometer.size (bounds sats))) :
    ∃ r, Search.loop arith sats (Odometer.size (bounds sats) - 1) 1 (Search.start sats) = some r ∧
      Found arith sats (Odometer.size (bounds sats) - 1) r := by
  have hpositive := Odometer.size_pos (bounds sats)
  have hscores' : ∀ k c, 0 < k → k ≤ 0 + (Odometer.size (bounds sats) - 1) →
      visited arith sats k = some c → (score arith sats c).isSome := by
    rw [Nat.zero_add]
    exact hscores
  rcases (found_start arith sats).loop hpos hfits hscores' (hsize.mono (by omega)) with
    ⟨r, hr, hfound⟩
  rw [Nat.zero_add] at hfound
  exact ⟨r, hr, hfound⟩

theorem ne_nil_of_candidate (h : Candidate sats combination) : sats ≠ [] := by
  rintro rfl
  cases h.inRange
  exact h.ne_allZero rfl

/-- Where `solve` returns, every candidate had a score. -/
theorem scores_of_solve (hpos : Positive sats) (hexists : ∃ c, Candidate sats c) {r : Search}
    (h : solve arith sats = some r) :
    Fits arith.intMax (Odometer.size (bounds sats)) ∧
      (∀ c, Candidate sats c → (score arith sats c).isSome) ∧
      Found arith sats (Odometer.size (bounds sats) - 1) r := by
  rcases solve_eq_some_iff.1 h with ⟨combs, hcombs, hloop⟩
  rcases numberOfCombinations_eq_some hcombs with ⟨hfits, rfl⟩
  rcases hexists with ⟨c₀, hc₀⟩
  rcases hc₀.visited hfits with ⟨k₀, hk₀, hle₀, _⟩
  rcases scores_of_loop hpos hfits (t := 0) rfl hloop with ⟨hscores, hcount⟩
  rw [Nat.zero_add] at hscores hcount
  have hsize : Odometer.size (bounds sats) - 1 + 1 = Odometer.size (bounds sats) := by omega
  have hfits' := hcount (by omega)
  rcases found_of_scores hpos hfits hscores (hsize ▸ hfits') with ⟨r', hr', hfound⟩
  cases hloop.symm.trans hr'
  refine ⟨hsize ▸ hfits', ?_, hfound⟩
  intro c hc
  rcases hc.visited hfits with ⟨k, hk, hle, hvisited⟩
  exact hscores k c hk hle hvisited

/-- A combination that was kept has a positive score, so it covers a tenth of the tasks. -/
theorem Found.covers (htasks : 0 < ntasks) (hpos : Positive sats)
    (hfits : ∀ sat ∈ sats, Fits arith.intMax (sat.goldenIndex + 1)) {r : Search}
    (h : Found arith sats (Odometer.size (bounds sats) - 1) r) (hsome : r.solution ≠ none) :
    ∃ c solutions, Candidate sats c ∧ chosen sats c = some solutions ∧
      ntasks ≤ coveredTasks solutions * 10 := by
  rcases h.solution with ⟨hnone, _⟩ | ⟨k, c, hk, hle, hvisited, _, hscore, hmax⟩
  · exact absurd hnone hsome
  · have hc := candidate_of_visited hfits hpos hk hle hvisited
    rcases chosen_of_inRange hc.inRange with ⟨solutions, hchosen⟩
    have hexact := ((score_eq_some_iff htasks hchosen).1 hscore).2.2
    exact ⟨c, solutions, hc, hchosen,
      (exactScore_pos_iff htasks hpos hc hchosen).1 (hexact ▸ hmax)⟩

/-- At the end of the loop the best candidate has been kept, if it has a positive score. -/
theorem Found.optimal (htasks : 0 < ntasks) (hpos : Positive sats)
    (hfits : ∀ sat ∈ sats, Fits arith.intMax (sat.goldenIndex + 1)) {r : Search}
    (h : Found arith sats (Odometer.size (bounds sats) - 1) r)
    (hscore : ∀ c solutions, Candidate sats c → chosen sats c = some solutions →
      score arith sats c = some (exactScore solutions))
    {c₁ : Combination} {solutions₁ : List (LocalSolution ntasks)} (hc₁ : Candidate sats c₁)
    (hchosen₁ : chosen sats c₁ = some solutions₁)
    (hcovers : ntasks ≤ coveredTasks solutions₁ * 10) :
    ∃ c, r.solution = some c ∧ Optimal sats c := by
  -- every candidate was compared with the maximum
  have hbound : ∀ c solutions, Candidate sats c → chosen sats c = some solutions →
      exactScore solutions ≤ r.max := by
    intro c solutions hc hchosen
    rcases hc.visited hfits with ⟨k, hk, hle, hvisited⟩
    exact h.bound k c _ hk hle hvisited (hscore c solutions hc hchosen)
  have hmax : 0 < r.max :=
    ((exactScore_pos_iff htasks hpos hc₁ hchosen₁).2 hcovers).trans_le
      (hbound c₁ solutions₁ hc₁ hchosen₁)
  rcases h.solution with ⟨_, hzero⟩ | ⟨k, c, hk, hle, hvisited, hsolution, hbest, _⟩
  · exact absurd hzero hmax.ne'
  · have hc := candidate_of_visited hfits hpos hk hle hvisited
    rcases chosen_of_inRange hc.inRange with ⟨solutions, hchosen⟩
    refine ⟨c, hsolution, hc, r.max, ?_, ?_⟩
    · exact (score_eq_some_iff htasks hchosen).2
        ⟨fits_none _, fits_none _, ((score_eq_some_iff htasks hchosen).1 hbest).2.2⟩
    · intro c' q' hc' hq'
      rcases chosen_of_inRange hc'.inRange with ⟨solutions', hchosen'⟩
      rw [((score_eq_some_iff htasks hchosen').1 hq').2.2]
      exact hbound c' solutions' hc' hchosen'

/-- For positive figures of merit, `solve` returns with an optimum in `solution` exactly when the
number of combinations is a value of `int`, the counters of `total_occurrences` do not overflow and
some combination covers at least a tenth of the tasks. -/
theorem solve_optimal_iff (htasks : 0 < ntasks) (hpos : Positive sats) :
    ((∃ c, Candidate sats c) →
        ∃ r c, solve .machine sats = some r ∧ r.solution = some c ∧ Optimal sats c) ↔
      ((∃ c, Candidate sats c) →
        Fits Arithmetic.machine.intMax (Odometer.size (bounds sats)) ∧
        (∀ c solutions, Candidate sats c → chosen sats c = some solutions →
          Fits Arithmetic.machine.intMax (repeatedTasks solutions) ∧
            Fits Arithmetic.machine.intMax (coveredTasks solutions * 10)) ∧
        ∃ c solutions, Candidate sats c ∧ chosen sats c = some solutions ∧
          ntasks ≤ coveredTasks solutions * 10) := by
  refine imp_congr_right fun hexists => ?_
  constructor
  · rintro ⟨r, c, hsolve, hsolution, _⟩
    rcases scores_of_solve hpos hexists hsolve with ⟨hsize, hscores, hfound⟩
    rcases solve_eq_some_iff.1 hsolve with ⟨combs, hcombs, _⟩
    have hfits := (numberOfCombinations_eq_some hcombs).1
    refine ⟨hsize, ?_, hfound.covers htasks hpos hfits (by simp [hsolution])⟩
    intro c' solutions hc' hchosen
    rcases Option.isSome_iff_exists.1 (hscores c' hc') with ⟨q, hq⟩
    rcases (score_eq_some_iff htasks hchosen).1 hq with ⟨hrepeated, hcovered, _⟩
    exact ⟨hrepeated, hcovered⟩
  · rintro ⟨hsize, hcounters, c₁, solutions₁, hc₁, hchosen₁, hcovers⟩
    have hcombs : numberOfCombinations .machine sats = some (Odometer.size (bounds sats)) := by
      refine numberOfCombinations_of_fits (fun n hn => ?_) (ne_nil_of_candidate hc₁) hsize
      exact fits_some.2 ((fits_some.1 hn).trans (by decide))
    have hfits := (numberOfCombinations_eq_some hcombs).1
    have hscore : ∀ c solutions, Candidate sats c → chosen sats c = some solutions →
        score .machine sats c = some (exactScore solutions) := by
      intro c solutions hc hchosen
      rcases hcounters c solutions hc hchosen with ⟨hrepeated, hcovered⟩
      exact (score_eq_some_iff htasks hchosen).2 ⟨hrepeated, hcovered, rfl⟩
    have hscores : ∀ k c, 0 < k → k ≤ Odometer.size (bounds sats) - 1 →
        visited .machine sats k = some c → (score .machine sats c).isSome := by
      intro k c hk hle hvisited
      have hc := candidate_of_visited hfits hpos hk hle hvisited
      rcases chosen_of_inRange hc.inRange with ⟨solutions, hchosen⟩
      exact Option.isSome_iff_exists.2 ⟨_, hscore c solutions hc hchosen⟩
    rcases found_of_scores hpos hfits hscores hsize with ⟨r, hloop, hfound⟩
    rcases hfound.optimal htasks hpos hfits hscore hc₁ hchosen₁ hcovers with ⟨c, hsolution, hbest⟩
    exact ⟨r, c, solve_eq_some_iff.2 ⟨_, hcombs, hloop⟩, hsolution, hbest⟩

/-- Two satellites with two solutions each, for three tasks. -/
def threeTasks : List (Satellite 3) :=
  [⟨[⟨1, #v[1, 0, 0]⟩, ⟨2, #v[1, 1, 0]⟩]⟩, ⟨[⟨1, #v[0, 0, 1]⟩, ⟨3, #v[0, 1, 1]⟩]⟩]

theorem chosen_threeTasks {c : Combination} {solutions : List (LocalSolution 3)}
    (h : InRange threeTasks c) (hchosen : chosen threeTasks c = some solutions) :
    repeatedTasks solutions ≤ 6 ∧ coveredTasks solutions ≤ 3 := by
  cases h with
  | @cons a _ as _ ha has =>
      cases has with
      | @cons b _ bs _ hb hbs =>
          cases hbs
          have ha : a ≤ 2 := ha
          have hb : b ≤ 2 := hb
          interval_cases a <;> interval_cases b <;> cases hchosen <;> decide

theorem solve_optimal_threeTasks :
    ∃ r c, solve .machine threeTasks = some r ∧ r.solution = some c ∧ Optimal threeTasks c := by
  have hcandidate : Candidate threeTasks [2, 1] :=
    ⟨.cons (Nat.le_refl 2) (.cons (by decide) .nil), by decide, by decide +kernel⟩
  have hpos : Positive threeTasks := by simp [Positive, threeTasks]
  refine (solve_optimal_iff (by decide) hpos).2 (fun _ => ⟨by decide, ?_, ?_⟩) ⟨_, hcandidate⟩
  · intro c solutions hc hchosen
    rcases chosen_threeTasks hc.inRange hchosen with ⟨hrepeated, hcovered⟩
    exact ⟨fits_some.2 (hrepeated.trans (by decide)),
      fits_some.2 ((Nat.mul_le_mul_right 10 hcovered).trans (by decide))⟩
  · exact ⟨[2, 1], _, hcandidate, rfl, by decide⟩

/-- One satellite with one solution, for one task of eleven. -/
def elevenTasks : List (Satellite 11) := [⟨[⟨1, #v[1, 0, 0, 0, 0, 0, 0, 0, 0, 0, 0]⟩]⟩]

/-- The only candidate covers less than a tenth of the tasks, and its score is 0. -/
theorem solve_elevenTasks_unassigned :
    Positive elevenTasks ∧ Candidate elevenTasks [1] ∧
      (solve .machine elevenTasks).map Search.solution = some none := by
  refine ⟨by simp [Positive, elevenTasks], ⟨.cons (Nat.le_refl 1) .nil, by decide, ?_⟩, ?_⟩
  · decide +kernel
  · decide +kernel

end Scheduler
end AbsPlatform

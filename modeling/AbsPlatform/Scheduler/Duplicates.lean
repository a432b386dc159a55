import Mathlib.Data.Set.Finite.Lemmas
import Mathlib.Order.Bounds.Basic
import AbsPlatform.Scheduler.Search

/-!
# Duplicates — pruning does not lower the best score

`delete_duplicates` sets the figure of merit of a solution to 0 when an earlier one of the same
satellite has the same tasks.  Run for all the solutions from the first one on, it keeps the first
solution of every task vector, which is one with the highest figure of merit since the solutions
are sorted.  A combination of the satellites before the pruning is dominated by the one with the
kept solutions in its place: the tasks are the same, and the reward is not lower.
-/

namespace AbsPlatform
namespace Scheduler

open Lib

variable {ntasks : Nat} {arith : Arithmetic} {sats : List (Satellite ntasks)}
  {sat : Satellite ntasks} {combination : Combination}
  {solutions : List (LocalSolution ntasks)}

/-! ## What is kept -/

theorem compareSolutions_iff {v w : Vector Int ntasks} : compareSolutions v w = true ↔ v = w := by
  constructor
  · intro h
    ext i hi
    simpa using List.all_eq_true.1 h ⟨i, hi⟩ (List.mem_finRange _)
  · rintro rfl
    simp [compareSolutions]

/-- A solution that has been deleted. -/
def LocalSolution.delete (s : LocalSolution ntasks) : LocalSolution ntasks := { s with f := 0 }

theorem delete_eq_self {s : LocalSolution ntasks} (h : s.f = 0) : s.delete = s := by
  cases s
  cases h
  rfl

/-- Some solution before number `j`, and among the first `m`, has these tasks. -/
def hasEarlier (solutions : List (LocalSolution ntasks)) (m j : Nat) (v : Vector Int ntasks) :
    Bool :=
  (solutions.take (min m j)).any fun s => s.tasks = v

theorem hasEarlier_iff {m j : Nat} {v : Vector Int ntasks} :
    hasEarlier solutions m j v = true ↔
      ∃ i s, i < m ∧ i < j ∧ solutions[i]? = some s ∧ s.tasks = v := by
  simp only [hasEarlier, List.any_eq_true, decide_eq_true_eq]
  constructor
  · rintro ⟨s, hs, hv⟩
    rcases List.mem_iff_getElem?.1 hs with ⟨i, hi⟩
    rw [List.getElem?_take] at hi
    split_ifs at hi with hlt
    exact ⟨i, s, (lt_min_iff.1 hlt).1, (lt_min_iff.1 hlt).2, hi, hv⟩
  · rintro ⟨i, s, hm, hj, hs, hv⟩
    refine ⟨s, List.mem_iff_getElem?.2 ⟨i, ?_⟩, hv⟩
    rw [List.getElem?_take, if_pos (lt_min hm hj), hs]

theorem hasEarlier_succ_iff {m j : Nat} {kept : LocalSolution ntasks} {v : Vector Int ntasks}
    (hm : solutions[m]? = some kept) :
    hasEarlier solutions (m + 1) j v = true ↔
      hasEarlier solutions m j v = true ∨ (m < j ∧ kept.tasks = v) := by
  simp only [hasEarlier_iff]
  constructor
  · rintro ⟨i, s, hi, hj, hs, hv⟩
    rcases Nat.lt_or_eq_of_le (Nat.lt_succ_iff.1 hi) with hlt | rfl
    · exact Or.inl ⟨i, s, hlt, hj, hs, hv⟩
    · cases hm.symm.trans hs
      exact Or.inr ⟨hj, hv⟩
  · rintro (⟨i, s, hi, hj, hs, hv⟩ | ⟨hj, hv⟩)
    · exact ⟨i, s, Nat.lt_succ_of_lt hi, hj, hs, hv⟩
    · exact ⟨m, kept, Nat.lt_succ_self m, hj, hm, hv⟩

theorem deleteDuplicates_of_none {sol : Nat} (h : sat.localSolutions[sol]? = none) :
    deleteDuplicates sat sol = sat := by
  simp [deleteDuplicates, h]

theorem getElem?_deleteDuplicates_of_some {sol : Nat} {kept : LocalSolution ntasks}
    (h : sat.localSolutions[sol]? = some kept) (j : Nat) :
    (deleteDuplicates sat sol).localSolutions[j]? = sat.localSolutions[j]?.map fun s =>
      if sol < j ∧ s.f ≠ 0 ∧ kept.tasks = s.tasks then s.delete else s := by
  simp [deleteDuplicates, h, compareSolutions_iff, LocalSolution.delete]

/-- The calls for the solutions before number `m` delete what has an earlier solution among them
with the same tasks. -/
theorem getElem?_foldl_deleteDuplicates (sat : Satellite ntasks) (m j : Nat) :
    ((List.range m).foldl deleteDuplicates sat).localSolutions[j]? =
      sat.localSolutions[j]?.map fun s =>
        if hasEarlier sat.localSolutions m j s.tasks then s.delete else s := by
  induction m generalizing j with
  | zero => cases hj : sat.localSolutions[j]? <;> simp [hasEarlier, hj]
  | succ m ih =>
      rw [List.range_succ, List.foldl_append, List.foldl_cons, List.foldl_nil]
      generalize (List.range m).foldl deleteDuplicates sat = mid at ih
      cases hm : sat.localSolutions[m]? with
      | none =>
          -- there are no more solutions, and every one before `j` has been looked at
          have hmid : mid.localSolutions[m]? = none := by rw [ih, hm, Option.map_none]
          rw [deleteDuplicates_of_none hmid, ih]
          refine Option.map_congr fun s hs => ?_
          have hlt : j < sat.localSolutions.length := (List.getElem?_eq_some_iff.1 hs).1
          have hle : sat.localSolutions.length ≤ m := List.getElem?_eq_none_iff.1 hm
          rw [hasEarlier, hasEarlier, min_eq_right (by omega), min_eq_right (by omega)]
      | some kept =>
          have hmid : ∃ kept', mid.localSolutions[m]? = some kept' ∧ kept'.tasks = kept.tasks := by
            rw [ih, hm]
            refine ⟨_, rfl, ?_⟩
            dsimp only
            split_ifs <;> rfl
          rcases hmid with ⟨kept', hkept', htasks⟩
          rw [getElem?_deleteDuplicates_of_some hkept', ih, Option.map_map]
          refine Option.map_congr fun s _ => ?_
          simp only [Function.comp_apply, htasks, hasEarlier_succ_iff hm]
          by_cases hearlier : hasEarlier sat.localSolutions m j s.tasks = true
          · -- it had been deleted before
            simp [hearlier, LocalSolution.delete]
          · by_cases hsame : m < j ∧ kept.tasks = s.tasks
            · by_cases hf : s.f = 0
              · simp [hearlier, hsame, hf, delete_eq_self hf]
              · simp [hearlier, hsame, hf]
            · have hnot : ¬ (m < j ∧ s.f ≠ 0 ∧ kept.tasks = s.tasks) :=
                fun h => hsame ⟨h.1, h.2.2⟩
              simp [hearlier, hsame, hnot]

theorem getElem?_pruned (sat : Satellite ntasks) (j : Nat) :
    sat.pruned.localSolutions[j]? = sat.localSolutions[j]?.map fun s =>
      if hasEarlier sat.localSolutions sat.goldenIndex j s.tasks then s.delete else s :=
  getElem?_foldl_deleteDuplicates sat sat.goldenIndex j

theorem goldenIndex_pruned (sat : Satellite ntasks) : sat.pruned.goldenIndex = sat.goldenIndex := by
  refine Nat.le_antisymm (List.getElem?_eq_none_iff.1 ?_) (List.getElem?_eq_none_iff.1 ?_)
  · have hnone : sat.localSolutions[sat.goldenIndex]? = none :=
      List.getElem?_eq_none_iff.2 (Nat.le_refl _)
    rw [getElem?_pruned, hnone, Option.map_none]
  · have hnone := List.getElem?_eq_none_iff.2 (Nat.le_refl sat.pruned.localSolutions.length)
    rw [getElem?_pruned] at hnone
    exact Option.map_eq_none_iff.1 hnone

/-- A solution that is left with a figure of merit is as it was, and the first of its kind. -/
theorem getElem?_of_pruned {j : Nat} {s : LocalSolution ntasks}
    (h : sat.pruned.localSolutions[j]? = some s) (hf : s.f ≠ 0) :
    sat.localSolutions[j]? = some s ∧
      ∀ i t, i < j → sat.localSolutions[i]? = some t → t.tasks ≠ s.tasks := by
  rw [getElem?_pruned] at h
  rcases Option.map_eq_some_iff.1 h with ⟨t, ht, heq⟩
  by_cases hearlier : hasEarlier sat.localSolutions sat.goldenIndex j t.tasks = true
  · rw [if_pos hearlier] at heq
    subst heq
    exact absurd rfl hf
  · rw [if_neg hearlier] at heq
    subst heq
    refine ⟨ht, fun i u hi hu hsame => hearlier (hasEarlier_iff.2 ⟨i, u, ?_, hi, hu, hsame⟩)⟩
    exact (List.getElem?_eq_some_iff.1 hu).1

/-- The figures of merit do not increase. -/
def Satellite.Sorted (sat : Satellite ntasks) : Prop :=
  sat.localSolutions.Pairwise fun s t => t.f ≤ s.f

/-- The first solution with given tasks is kept, and no other one with them is better. -/
theorem exists_kept (hsorted : sat.Sorted) {c : Nat} {s : LocalSolution ntasks}
    (hs : sat.localSolutions[c]? = some s) :
    ∃ (j : Nat) (kept : LocalSolution ntasks), sat.localSolutions[j]? = some kept ∧
      sat.pruned.localSolutions[j]? = some kept ∧ kept.tasks = s.tasks ∧
      ∀ t ∈ sat.localSolutions, t.tasks = s.tasks → t.f ≤ kept.f := by
  classical
  have hexists : ∃ (i : Nat) (t : LocalSolution ntasks),
      sat.localSolutions[i]? = some t ∧ t.tasks = s.tasks := ⟨c, s, hs, rfl⟩
  rcases Nat.find_spec hexists with ⟨kept, hkept, htasks⟩
  refine ⟨Nat.find hexists, kept, hkept, ?_, htasks, ?_⟩
  · have hfirst : ¬ hasEarlier sat.localSolutions sat.goldenIndex (Nat.find hexists)
        kept.tasks = true := by
      intro h
      rcases hasEarlier_iff.1 h with ⟨i, t, _, hi, ht, hsame⟩
      exact Nat.find_min hexists hi ⟨t, ht, hsame.trans htasks⟩
    rw [getElem?_pruned, hkept, Option.map_some, if_neg hfirst]
  · intro t ht hsame
    rcases List.mem_iff_getElem?.1 ht with ⟨i, hi⟩
    rcases Nat.lt_or_eq_of_le (Nat.find_min' hexists ⟨t, hi, hsame⟩) with hlt | heq
    · rcases List.getElem?_eq_some_iff.1 hkept with ⟨hlt₁, rfl⟩
      rcases List.getElem?_eq_some_iff.1 hi with ⟨hlt₂, rfl⟩
      exact List.pairwise_iff_getElem.1 hsorted _ _ hlt₁ hlt₂ hlt
    · rw [heq, hi] at hkept
      cases hkept
      exact le_refl _

/-! ## Domination -/

/-- One solution may stand for another: the same tasks, and at least the same reward. -/
structure Dominates (s' s : LocalSolution ntasks) : Prop where
  tasks : s'.tasks = s.tasks
  le : s.f ≤ s'.f
  ne_zero : s'.f ≠ 0

theorem bounds_pruned (sats : List (Satellite ntasks)) :
    bounds (sats.map Satellite.pruned) = bounds sats := by
  simp [bounds, goldenIndex_pruned]

theorem allZero_pruned (sats : List (Satellite ntasks)) :
    allZero (sats.map Satellite.pruned) = allZero sats := by
  simp [allZero]

theorem inRange_pruned_iff :
    InRange (sats.map Satellite.pruned) combination ↔ InRange sats combination := by
  rw [InRange, InRange, bounds_pruned]

theorem chosen_allZero (sats : List (Satellite ntasks)) : chosen sats (allZero sats) = some [] := by
  induction sats with
  | nil => rfl
  | cons sat sats ih => exact ih

/-- What `check_solution` accepts behind the pruning was there before it. -/
theorem chosen_of_pruned (h : chosen (sats.map Satellite.pruned) combination = some solutions)
    (hf : ∀ s ∈ solutions, s.f ≠ 0) : chosen sats combination = some solutions := by
  induction sats, combination using chosen.induct generalizing solutions with
  | case1 combination => exact h
  | case2 sat sats => cases h
  | case3 sat sats combination ih => exact ih h hf
  | case4 sat sats c combination ih =>
      rcases chosen_succ_eq_some h with ⟨first, rest, hfirst, hrest, rfl⟩
      have hkept := (getElem?_of_pruned hfirst (hf first List.mem_cons_self)).1
      have hrest' := ih hrest fun s hs => hf s (List.mem_cons_of_mem _ hs)
      simp [chosen, hkept, hrest']

/-- The kept solutions in the place of the chosen ones. -/
theorem exists_dominating (hpos : Positive sats) (hsorted : ∀ sat ∈ sats, sat.Sorted)
    (hrange : InRange sats combination) (h : chosen sats combination = some solutions) :
    ∃ combination' solutions', InRange sats combination' ∧
      chosen (sats.map Satellite.pruned) combination' = some solutions' ∧
      List.Forall₂ Dominates solutions' solutions := by
  induction sats, combination using chosen.induct generalizing solutions with
  | case1 combination =>
      cases h
      exact ⟨[], [], .nil, rfl, .nil⟩
  | case2 sat sats => cases h
  | case3 sat sats combination ih =>
      cases hrange with
      | cons _ hrange =>
          rcases ih (fun sat' hsat' => hpos sat' (List.mem_cons_of_mem _ hsat'))
            (fun sat' hsat' => hsorted sat' (List.mem_cons_of_mem _ hsat')) hrange h with
            ⟨combination', solutions', hrange', hchosen', hdominates⟩
          exact ⟨0 :: combination', solutions', .cons (Nat.zero_le _) hrange', hchosen',
            hdominates⟩
  | case4 sat sats c combination ih =>
      rcases chosen_succ_eq_some h with ⟨first, rest, hfirst, hrest, rfl⟩
      cases hrange with
      | cons _ hrange =>
          rcases ih (fun sat' hsat' => hpos sat' (List.mem_cons_of_mem _ hsat'))
            (fun sat' hsat' => hsorted sat' (List.mem_cons_of_mem _ hsat')) hrange hrest with
            ⟨combination', solutions', hrange', hchosen', hdominates⟩
          rcases exists_kept (hsorted sat List.mem_cons_self) hfirst with
            ⟨j, kept, hkept, hpruned, htasks, hbest⟩
          have hle : first.f ≤ kept.f := hbest first (List.mem_of_getElem? hfirst) rfl
          have hne : kept.f ≠ 0 :=
            (hpos sat List.mem_cons_self kept (List.mem_of_getElem? hkept)).ne'
          refine ⟨(j + 1) :: combination', kept :: solutions', .cons ?_ hrange', ?_,
            .cons ⟨htasks, hle, hne⟩ hdominates⟩
          · exact (List.getElem?_eq_some_iff.1 hkept).1
          · simp [chosen, hpruned, hchosen']

/-! ## Scores -/

theorem occurrences_eq_of_dominates {solutions' : List (LocalSolution ntasks)}
    (h : List.Forall₂ Dominates solutions' solutions) :
    occurrences solutions' = occurrences solutions := by
  refine List.map_congr_left fun i _ => ?_
  induction h with
  | nil => rfl
  | cons hs _ ih => rw [List.countP_cons, List.countP_cons, ih, hs.tasks]

theorem exactScore_le_of_dominates {solutions' : List (LocalSolution ntasks)}
    (h : List.Forall₂ Dominates solutions' solutions) :
    exactScore solutions ≤ exactScore solutions' := by
  have hsum : (solutions.map LocalSolution.f).sum ≤ (solutions'.map LocalSolution.f).sum := by
    induction h with
    | nil => exact le_refl _
    | cons hs _ ih =>
        rw [List.map_cons, List.map_cons, List.sum_cons, List.sum_cons]
        exact add_le_add hs.le ih
  rw [exactScore, exactScore, coveredTasks, coveredTasks, repeatedTasks, repeatedTasks,
    occurrences_eq_of_dominates h]
  gcongr

variable (arith sats) in
/-- The scores of all the combinations that are not all zero. -/
def allScores : Set ℚ :=
  { q | ∃ c, InRange sats c ∧ c ≠ allZero sats ∧ score arith sats c = some q }

variable (arith sats) in
/-- The scores of those that `check_solution` accepts. -/
def acceptedScores : Set ℚ := { q | ∃ c, Candidate sats c ∧ score arith sats c = some q }

theorem acceptedScores_pruned_subset (htasks : 0 < ntasks) :
    acceptedScores arith (sats.map Satellite.pruned) ⊆ allScores arith sats := by
  rintro q ⟨c, hc, hq⟩
  have hrange := inRange_pruned_iff.1 hc.inRange
  rcases chosen_of_inRange hc.inRange with ⟨solutions, hchosen⟩
  have haccepted := hc.accepted
  rw [checkSolution, hchosen] at haccepted
  have hf : ∀ s ∈ solutions, s.f ≠ 0 := by simpa using haccepted
  refine ⟨c, hrange, allZero_pruned sats ▸ hc.ne_allZero, ?_⟩
  exact (score_eq_some_iff htasks (chosen_of_pruned hchosen hf)).2
    ((score_eq_some_iff htasks hchosen).1 hq)

theorem exists_acceptedScore_ge (htasks : 0 < ntasks) (hpos : Positive sats)
    (hsorted : ∀ sat ∈ sats, sat.Sorted) {q : ℚ} (hq : q ∈ allScores arith sats) :
    ∃ q' ∈ acceptedScores arith (sats.map Satellite.pruned), q ≤ q' := by
  rcases hq with ⟨c, hrange, hne, hq⟩
  rcases chosen_of_inRange hrange with ⟨solutions, hchosen⟩
  rcases exists_dominating hpos hsorted hrange hchosen with
    ⟨c', solutions', hrange', hchosen', hdominates⟩
  have hoccurrences := occurrences_eq_of_dominates hdominates
  rcases (score_eq_some_iff htasks hchosen).1 hq with ⟨hrepeated, hcovered, rfl⟩
  refine ⟨exactScore solutions', ⟨c', ⟨inRange_pruned_iff.2 hrange', ?_, ?_⟩, ?_⟩,
    exactScore_le_of_dominates hdominates⟩
  · -- it chooses as many solutions, so at least one
    intro hzero
    rw [hzero, chosen_allZero] at hchosen'
    cases hchosen'
    cases hdominates
    exact hne (eq_allZero_of_chosen hrange hchosen)
  · have hf : ∀ s ∈ solutions', s.f ≠ 0 := by
      intro s hs
      rcases List.mem_iff_getElem.1 hs with ⟨i, hi, rfl⟩
      have hi' : i < solutions.length := hdominates.length_eq ▸ hi
      exact (hdominates.get hi hi').ne_zero
    simpa [checkSolution, hchosen'] using hf
  · refine (score_eq_some_iff htasks hchosen').2 ⟨?_, ?_, rfl⟩
    · rwa [repeatedTasks, hoccurrences]
    · rwa [coveredTasks, hoccurrences]

theorem finite_allScores (arith : Arithmetic) (sats : List (Satellite ntasks)) :
    (allScores arith sats).Finite := by
  have hrange : { c | InRange sats c }.Finite := by
    refine ((Set.finite_lt_nat (Odometer.size (bounds sats).reverse)).image
      fun n => (Odometer.digits (bounds sats).reverse n).reverse).subset ?_
    intro c hc
    have hvalid : Odometer.Valid (bounds sats).reverse c.reverse :=
      List.forall₂_reverse_iff.2 hc
    refine ⟨_, Odometer.value_lt_size hvalid, ?_⟩
    dsimp only
    rw [Odometer.digits_value hvalid, List.reverse_reverse]
  refine (hrange.image fun c => (score arith sats c).getD 0).subset ?_
  rintro q ⟨c, hc, _, hq⟩
  exact ⟨c, hc, by simp [hq]⟩

/-- Behind `delete_duplicates` for every satellite and every solution in turn, each task vector of a
satellite has one solution that is left, as it was and with the highest figure of merit; and the
best score of the accepted combinations is the best score of all the combinations before. -/
theorem pruning_keeps_best (arith : Arithmetic) (htasks : 0 < ntasks) (hpos : Positive sats)
    (hsorted : ∀ sat ∈ sats, sat.Sorted) :
    (∀ sat ∈ sats, ∀ s ∈ sat.localSolutions,
      ∃ (j : Nat) (kept : LocalSolution ntasks), sat.pruned.localSolutions[j]? = some kept ∧
        sat.localSolutions[j]? = some kept ∧ kept.tasks = s.tasks ∧ kept.f ≠ 0 ∧
        (∀ t ∈ sat.localSolutions, t.tasks = s.tasks → t.f ≤ kept.f) ∧
        ∀ (i : Nat) (t : LocalSolution ntasks), sat.pruned.localSolutions[i]? = some t →
          t.tasks = s.tasks → t.f ≠ 0 → i = j) ∧
      (∀ m, IsGreatest (acceptedScores arith (sats.map Satellite.pruned)) m ↔
        IsGreatest (allScores arith sats) m) ∧
      ((allScores arith sats).Nonempty → ∃ m, IsGreatest (allScores arith sats) m) := by
  refine ⟨fun sat hsat s hs => ?_, fun m => ⟨?_, ?_⟩, fun hne => ?_⟩
  · rcases List.mem_iff_getElem?.1 hs with ⟨c, hc⟩
    rcases exists_kept (hsorted sat hsat) hc with ⟨j, kept, hkept, hpruned, htasks', hbest⟩
    have hne : kept.f ≠ 0 := (hpos sat hsat kept (List.mem_of_getElem? hkept)).ne'
    refine ⟨j, kept, hpruned, hkept, htasks', hne, hbest, ?_⟩
    intro i t ht htasks'' hf
    -- of two solutions with the same tasks that are left, neither comes first
    rcases getElem?_of_pruned ht hf with ⟨ht', hfirst⟩
    rcases getElem?_of_pruned hpruned hne with ⟨_, hfirst'⟩
    refine Nat.le_antisymm (Nat.not_lt.1 fun hlt => ?_) (Nat.not_lt.1 fun hlt => ?_)
    · exact hfirst j kept hlt hkept (htasks'.trans htasks''.symm)
    · exact hfirst' i t hlt ht' (htasks''.trans htasks'.symm)
  · rintro ⟨hmem, hupper⟩
    refine ⟨acceptedScores_pruned_subset htasks hmem, fun q hq => ?_⟩
    rcases exists_acceptedScore_ge htasks hpos hsorted hq with ⟨q', hq', hle⟩
    exact hle.trans (hupper hq')
  · rintro ⟨hmem, hupper⟩
    have hupper' : ∀ q ∈ acceptedScores arith (sats.map Satellite.pruned), q ≤ m :=
      fun q hq => hupper (acceptedScores_pruned_subset htasks hq)
    rcases exists_acceptedScore_ge htasks hpos hsorted hmem with ⟨q', hq', hle⟩
    have heq : m = q' := le_antisymm hle (hupper' q' hq')
    exact ⟨heq ▸ hq', hupper'⟩
  · rcases Set.exists_max_image (allScores arith sats) id (finite_allScores arith sats) hne with
      ⟨m, hm, hmax⟩
    exact ⟨m, hm, hmax⟩

/-- A satellite with three solutions, of which the last one repeats the first. -/
def repeatingSatellite : Satellite 2 where
  localSolutions := [⟨3, #v[1, 0]⟩, ⟨2, #v[0, 1]⟩, ⟨1, #v[1, 0]⟩]

theorem pruning_keeps_best_repeating :
    (repeatingSatellite.pruned.localSolutions.map LocalSolution.f = [3, 2, 0]) ∧
      ∃ m, IsGreatest
        (acceptedScores .exact ([repeatingSatellite].map Satellite.pruned)) m := by
  have hpos : Positive [repeatingSatellite] := by simp [Positive, repeatingSatellite]
  have hsorted : ∀ sat ∈ [repeatingSatellite], sat.Sorted := by
    simp [Satellite.Sorted, repeatingSatellite]
    norm_num
  rcases pruning_keeps_best .exact (by decide) hpos hsorted with ⟨_, hsame, hexists⟩
  have hscore : score .exact [repeatingSatellite] [1] = some 15 := by decide +kernel
  have hrange : InRange [repeatingSatellite] [1] := .cons (by decide) .nil
  rcases hexists ⟨15, [1], hrange, by decide, hscore⟩ with ⟨m, hm⟩
  exact ⟨by decide +kernel, m, (hsame m).2 hm⟩

end Scheduler
end AbsPlatform

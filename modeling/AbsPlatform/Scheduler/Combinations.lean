import AbsPlatform.Lib.Odometer
import AbsPlatform.Scheduler.Shed

/-!
# Combinations — the enumeration is complete

`next_combination` is an odometer with the last satellite as its least significant digit and the
golden indexes as bounds, and `number_of_combinations` is the number of its positions.  So the
search comes across every combination once.
-/

namespace AbsPlatform
namespace Scheduler

open Lib

variable {ntasks : Nat} {arith : Arithmetic} {sats : List (Satellite ntasks)}
  {combination : Combination}

@[simp] theorem fits_none (n : Nat) : Fits none n := by simp [Fits]

@[simp] theorem fits_some {m n : Nat} : Fits (some m) n ↔ n ≤ m := by simp [Fits]

theorem Fits.mono {bound : Option Nat} {m n : Nat} (h : Fits bound n) (hle : m ≤ n) :
    Fits bound m :=
  fun b hb => Nat.le_trans hle (h b hb)

theorem checked_of_fits {bound : Option Nat} {n : Nat} (h : Fits bound n) :
    checked bound n = some n := if_pos h

theorem checked_eq_some {bound : Option Nat} {n m : Nat} :
    checked bound n = some m ↔ Fits bound n ∧ m = n := by
  unfold checked
  split_ifs with h <;> simp [h, eq_comm]

/-! ## The odometer -/

/-- The golden indexes. -/
def bounds (sats : List (Satellite ntasks)) : List Nat := sats.map Satellite.goldenIndex

/-- A combination has a number for every satellite, none above its golden index. -/
def InRange (sats : List (Satellite ntasks)) (combination : Combination) : Prop :=
  Odometer.Valid (bounds sats) combination

/-- The combination that leaves every satellite out. -/
def allZero (sats : List (Satellite ntasks)) : Combination := List.replicate sats.length 0

theorem InRange.length (h : InRange sats combination) : combination.length = sats.length := by
  have hlength := List.Forall₂.length_eq h
  rwa [bounds, List.length_map] at hlength

theorem InRange.get (h : InRange sats combination) {n : Nat} (hn : n < sats.length) :
    ∃ c sat, combination[n]? = some c ∧ sats[n]? = some sat ∧ c ≤ sat.goldenIndex := by
  have hn' : n < combination.length := by rwa [h.length]
  refine ⟨combination[n], sats[n], List.getElem?_eq_getElem hn', List.getElem?_eq_getElem hn, ?_⟩
  have hle := List.Forall₂.get h hn' (by simpa [bounds] using hn)
  simpa [bounds] using hle

theorem InRange.set_zero (h : InRange sats combination) (n : Nat) :
    InRange sats (combination.set n 0) := by
  unfold InRange at h ⊢
  generalize bounds sats = bs at h
  induction h generalizing n with
  | nil => exact .nil
  | @cons c b cs bs hc hcs ih =>
      cases n with
      | zero => exact .cons (Nat.zero_le b) hcs
      | succ n => exact .cons hc (ih n)

theorem inRange_allZero (sats : List (Satellite ntasks)) : InRange sats (allZero sats) := by
  have hzero := Odometer.valid_zero (bounds sats)
  rwa [Odometer.zero, bounds, List.length_map] at hzero

/-- The loop has set the last digits that were at their bound to zero; the digits before satellite
`n` are still to be counted on. -/
theorem nextFrom_eq (hfits : ∀ sat ∈ sats, Fits arith.intMax (sat.goldenIndex + 1))
    (hrange : InRange sats combination) {n : Nat} (hn : n ≤ sats.length) :
    nextFrom arith sats n combination =
      some ((Odometer.tick ((bounds sats).take n).reverse (combination.take n).reverse).reverse ++
        combination.drop n) := by
  induction n generalizing combination with
  | zero => simp [nextFrom, Odometer.tick]
  | succ n ih =>
      rcases hrange.get hn with ⟨c, sat, hc, hsat, hle⟩
      have hlt : n < combination.length := by
        rw [hrange.length]
        exact hn
      have hchecked : checked arith.intMax (c + 1) = some (c + 1) :=
        checked_of_fits ((hfits sat (List.mem_of_getElem? hsat)).mono (Nat.succ_le_succ hle))
      have hbounds : (bounds sats)[n]? = some sat.goldenIndex := by simp [bounds, hsat]
      have htake : (combination.take (n + 1)).reverse = c :: (combination.take n).reverse := by
        simp [List.take_add_one, hc]
      have htake' :
          ((bounds sats).take (n + 1)).reverse =
            sat.goldenIndex :: ((bounds sats).take n).reverse := by
        simp [List.take_add_one, hbounds]
      rw [nextFrom, htake, htake', Odometer.tick]
      simp only [hsat, hc, hchecked, Option.bind_eq_bind, Option.bind_some]
      split_ifs with hcarry
      · -- carry: the digits before this one are counted on
        have hset : combination.set n 0 = combination.take n ++ 0 :: combination.drop (n + 1) := by
          rw [List.set_eq_take_append_cons_drop, if_pos hlt]
        have hlength : (combination.take n).length = n := List.length_take_of_le (Nat.le_of_lt hlt)
        rw [ih (hrange.set_zero n) (Nat.le_of_succ_le hn), hset, List.take_left' hlength,
          List.drop_left' hlength, List.reverse_cons, List.append_assoc, List.singleton_append]
      · simp [List.set_eq_take_append_cons_drop, hlt]

theorem nextCombination_eq (hfits : ∀ sat ∈ sats, Fits arith.intMax (sat.goldenIndex + 1))
    (hrange : InRange sats combination) :
    nextCombination arith sats combination =
      some (Odometer.tick (bounds sats).reverse combination.reverse).reverse := by
  have hlength : (bounds sats).length = sats.length := by simp [bounds]
  rw [nextCombination, nextFrom_eq hfits hrange (Nat.le_refl _), ← hrange.length,
    List.take_length, List.drop_length, List.append_nil, hrange.length, ← hlength,
    List.take_length]

/-! ## The number of combinations -/

/-- One turn of the loop of `number_of_combinations`. -/
def multiply (arith : Arithmetic) (combs : Nat) (sat : Satellite ntasks) : Option Nat := do
  let factor ← checked arith.intMax (sat.goldenIndex + 1)
  checked arith.longLongMax (combs * factor)

theorem numberOfCombinations_cons (sat : Satellite ntasks) :
    numberOfCombinations arith (sat :: sats) =
      (checked arith.intMax (sat.goldenIndex + 1)).bind fun combs =>
        sats.foldlM (multiply arith) combs := rfl

theorem multiply_eq_some {combs combs' : Nat} {sat : Satellite ntasks}
    (h : multiply arith combs sat = some combs') :
    Fits arith.intMax (sat.goldenIndex + 1) ∧ combs' = combs * (sat.goldenIndex + 1) := by
  rcases Option.bind_eq_some_iff.1 h with ⟨factor, hfactor, hcombs⟩
  rcases checked_eq_some.1 hfactor with ⟨hfits, rfl⟩
  exact ⟨hfits, (checked_eq_some.1 hcombs).2⟩

theorem multiply_all_eq_some {combs combs' : Nat}
    (h : sats.foldlM (multiply arith) combs = some combs') :
    (∀ sat ∈ sats, Fits arith.intMax (sat.goldenIndex + 1)) ∧
      combs' = combs * Odometer.size (bounds sats) := by
  induction sats generalizing combs with
  | nil =>
      cases h
      simp [bounds]
  | cons sat sats ih =>
      rw [List.foldlM_cons] at h
      rcases Option.bind_eq_some_iff.1 h with ⟨next, hnext, hrest⟩
      rcases multiply_eq_some hnext with ⟨hfits, rfl⟩
      rcases ih hrest with ⟨hall, rfl⟩
      exact ⟨List.forall_mem_cons.2 ⟨hfits, hall⟩, by simp [bounds, Nat.mul_assoc]⟩

theorem multiply_all_of_fits (hwide : ∀ n, Fits arith.intMax n → Fits arith.longLongMax n)
    {combs : Nat} (hpos : 0 < combs)
    (h : Fits arith.intMax (combs * Odometer.size (bounds sats))) :
    sats.foldlM (multiply arith) combs = some (combs * Odometer.size (bounds sats)) := by
  induction sats generalizing combs with
  | nil => simp [bounds]
  | cons sat sats ih =>
      have hsize : combs * Odometer.size (bounds (sat :: sats)) =
          combs * (sat.goldenIndex + 1) * Odometer.size (bounds sats) := by
        simp [bounds, Nat.mul_assoc]
      rw [hsize] at h ⊢
      have hnext : Fits arith.intMax (combs * (sat.goldenIndex + 1)) :=
        h.mono (Nat.le_mul_of_pos_right _ (Odometer.size_pos _))
      have hfactor : Fits arith.intMax (sat.goldenIndex + 1) :=
        hnext.mono (Nat.le_mul_of_pos_left _ hpos)
      have hmultiply : multiply arith combs sat = some (combs * (sat.goldenIndex + 1)) := by
        rw [multiply, checked_of_fits hfactor]
        exact checked_of_fits (hwide _ hnext)
      rw [List.foldlM_cons, hmultiply]
      exact ih (Nat.mul_pos hpos (Nat.succ_pos _)) h

/-- What the value is, whenever there is one. -/
theorem numberOfCombinations_eq_some {combs : Nat}
    (h : numberOfCombinations arith sats = some combs) :
    (∀ sat ∈ sats, Fits arith.intMax (sat.goldenIndex + 1)) ∧
      combs = Odometer.size (bounds sats) := by
  cases sats with
  | nil => cases h
  | cons sat sats =>
      rw [numberOfCombinations_cons] at h
      rcases Option.bind_eq_some_iff.1 h with ⟨first, hfirst, hrest⟩
      rcases checked_eq_some.1 hfirst with ⟨hfits, rfl⟩
      rcases multiply_all_eq_some hrest with ⟨hall, rfl⟩
      exact ⟨List.forall_mem_cons.2 ⟨hfits, hall⟩, by simp [bounds]⟩

/-- There is a value when the product fits. -/
theorem numberOfCombinations_of_fits
    (hwide : ∀ n, Fits arith.intMax n → Fits arith.longLongMax n) (hne : sats ≠ [])
    (h : Fits arith.intMax (Odometer.size (bounds sats))) :
    numberOfCombinations arith sats = some (Odometer.size (bounds sats)) := by
  cases sats with
  | nil => exact absurd rfl hne
  | cons sat sats =>
      have hsize : Odometer.size (bounds (sat :: sats)) =
          (sat.goldenIndex + 1) * Odometer.size (bounds sats) := by
        simp [bounds]
      rw [hsize] at h ⊢
      have hfirst : Fits arith.intMax (sat.goldenIndex + 1) :=
        h.mono (Nat.le_mul_of_pos_right _ (Odometer.size_pos _))
      rw [numberOfCombinations_cons, checked_of_fits hfirst, Option.bind_some]
      exact multiply_all_of_fits hwide (Nat.succ_pos _) h

/-! ## The enumeration -/

variable (arith sats) in
/-- The combination after `k` calls of `next_combination`. -/
def visited : Nat → Option Combination
  | 0 => some (allZero sats)
  | k + 1 => do nextCombination arith sats (← visited k)

theorem inRange_iterate (sats : List (Satellite ntasks)) (k : Nat) :
    InRange sats ((Odometer.tick (bounds sats).reverse)^[k]
      (Odometer.zero (bounds sats).reverse)).reverse := by
  refine List.forall₂_reverse_iff.1 ?_
  rw [List.reverse_reverse]
  exact Odometer.valid_iterate (bounds sats).reverse k

theorem visited_eq (hfits : ∀ sat ∈ sats, Fits arith.intMax (sat.goldenIndex + 1)) (k : Nat) :
    visited arith sats k =
      some ((Odometer.tick (bounds sats).reverse)^[k]
        (Odometer.zero (bounds sats).reverse)).reverse := by
  induction k with
  | zero => simp [visited, allZero, Odometer.zero, bounds]
  | succ k ih =>
      rw [visited, ih]
      simp only [Option.bind_eq_bind, Option.bind_some]
      rw [nextCombination_eq hfits (inRange_iterate sats k), List.reverse_reverse,
        Function.iterate_succ_apply']

/-- A combination is visited by the calls that are, modulo the number of combinations, its value. -/
theorem visited_eq_some_iff (hfits : ∀ sat ∈ sats, Fits arith.intMax (sat.goldenIndex + 1))
    (hrange : InRange sats combination) {k : Nat} :
    visited arith sats k = some combination ↔
      k % Odometer.size (bounds sats) =
        Odometer.value (bounds sats).reverse combination.reverse := by
  have hvalid : Odometer.Valid (bounds sats).reverse combination.reverse :=
    List.forall₂_reverse_iff.2 hrange
  rw [visited_eq hfits, Option.some_inj, List.reverse_eq_iff, Odometer.iterate_eq_iff hvalid,
    Odometer.size_reverse]

theorem inRange_of_visited (hfits : ∀ sat ∈ sats, Fits arith.intMax (sat.goldenIndex + 1))
    {k : Nat} (h : visited arith sats k = some combination) : InRange sats combination := by
  rw [visited_eq hfits, Option.some_inj] at h
  subst h
  exact inRange_iterate sats k

theorem value_allZero (sats : List (Satellite ntasks)) :
    Odometer.value (bounds sats).reverse (allZero sats).reverse = 0 := by
  have hzero : (allZero sats).reverse = Odometer.zero (bounds sats).reverse := by
    simp [allZero, Odometer.zero, bounds]
  rw [hzero, Odometer.value_zero]

theorem visited_allZero_iff (hfits : ∀ sat ∈ sats, Fits arith.intMax (sat.goldenIndex + 1))
    {k : Nat} : visited arith sats k = some (allZero sats) ↔
      k % Odometer.size (bounds sats) = 0 := by
  rw [visited_eq_some_iff hfits (inRange_allZero sats), value_allZero]

/-- Before the last call, only the start is all zero. -/
theorem ne_allZero_of_visited (hfits : ∀ sat ∈ sats, Fits arith.intMax (sat.goldenIndex + 1))
    {k : Nat} (hk : 1 ≤ k) (hlt : k < Odometer.size (bounds sats))
    (h : visited arith sats k = some combination) : combination ≠ allZero sats := by
  rintro rfl
  have hmod := (visited_allZero_iff hfits).1 h
  rw [Nat.mod_eq_of_lt hlt] at hmod
  omega

/-- Every combination but the first one is visited before the last call. -/
theorem exists_visited (hfits : ∀ sat ∈ sats, Fits arith.intMax (sat.goldenIndex + 1))
    (hrange : InRange sats combination) (hne : combination ≠ allZero sats) :
    ∃ k, 1 ≤ k ∧ k < Odometer.size (bounds sats) ∧ visited arith sats k = some combination := by
  have hvalid : Odometer.Valid (bounds sats).reverse combination.reverse :=
    List.forall₂_reverse_iff.2 hrange
  have hlt := Odometer.value_lt_size hvalid
  rw [Odometer.size_reverse] at hlt
  have hvisited := (visited_eq_some_iff hfits hrange).2 (Nat.mod_eq_of_lt hlt)
  refine ⟨_, Nat.one_le_iff_ne_zero.2 fun hzero => hne ?_, hlt, hvisited⟩
  rw [hzero, visited, Option.some_inj] at hvisited
  exact hvisited.symm

/-- Starting from the combination that is all zero, `number_of_combinations - 1` calls of
`next_combination` come across every other combination exactly once, and one more call leads back
to the first one. -/
theorem nextCombination_visits_all (hne : sats ≠ []) :
    ∃ combs, numberOfCombinations .exact sats = some combs ∧
      (∀ k, 1 ≤ k → k ≤ combs - 1 → ∃ c, visited .exact sats k = some c ∧ InRange sats c ∧
        c ≠ allZero sats) ∧
      (∀ c, InRange sats c → c ≠ allZero sats →
        ∃! k, 1 ≤ k ∧ k ≤ combs - 1 ∧ visited .exact sats k = some c) ∧
      visited .exact sats combs = some (allZero sats) := by
  have hfits : ∀ sat ∈ sats, Fits Arithmetic.exact.intMax (sat.goldenIndex + 1) :=
    fun sat _ => fits_none _
  have hpos := Odometer.size_pos (bounds sats)
  refine ⟨_, numberOfCombinations_of_fits (fun n _ => fits_none n) hne (fits_none _), ?_, ?_, ?_⟩
  · intro k hk hlt
    have hvisited := visited_eq hfits k
    exact ⟨_, hvisited, inRange_iterate sats k,
      ne_allZero_of_visited hfits hk (by omega) hvisited⟩
  · intro c hrange hc
    rcases exists_visited hfits hrange hc with ⟨k, hk, hlt, hvisited⟩
    refine ⟨k, ⟨hk, by omega, hvisited⟩, ?_⟩
    -- two calls with the same combination are equal modulo the number of combinations
    rintro k' ⟨_, hk', hvisited'⟩
    have hmod := (visited_eq_some_iff hfits hrange).1 hvisited
    have hmod' := (visited_eq_some_iff hfits hrange).1 hvisited'
    rw [Nat.mod_eq_of_lt hlt] at hmod
    rw [Nat.mod_eq_of_lt (by omega)] at hmod'
    exact hmod'.trans hmod.symm
  · exact (visited_allZero_iff hfits).2 (Nat.mod_self _)

/-- Two satellites with one and two solutions. -/
def twoSatellites : List (Satellite 1) :=
  [⟨[⟨1, .replicate 1 1⟩]⟩, ⟨[⟨1, .replicate 1 1⟩, ⟨1, .replicate 1 0⟩]⟩]

theorem nextCombination_visits_six :
    numberOfCombinations .exact twoSatellites = some 6 ∧
      (∀ k, 1 ≤ k → k ≤ 5 → ∃ c, visited .exact twoSatellites k = some c ∧
        InRange twoSatellites c ∧ c ≠ [0, 0]) ∧
      (∀ c, InRange twoSatellites c → c ≠ [0, 0] →
        ∃! k, 1 ≤ k ∧ k ≤ 5 ∧ visited .exact twoSatellites k = some c) ∧
      visited .exact twoSatellites 6 = some [0, 0] := by
  have hne : twoSatellites ≠ [] := by simp [twoSatellites]
  rcases nextCombination_visits_all hne with ⟨combs, hcombs, hvisits⟩
  have hsix : combs = 6 := Option.some.inj (hcombs.symm.trans rfl)
  subst hsix
  exact ⟨hcombs, hvisits⟩

end Scheduler
end AbsPlatform

import Mathlib.Order.Lattice
import Mathlib.Tactic.SplitIfs

/-!
# ExchangeSort — two nested loops that exchange neighbours

The inner loop goes over an array and exchanges two neighbours that are in the wrong order, so that
the smallest element it meets ends up at its end; the outer loop leaves out one place more at the
end each time.  The loops are over indexes, and an index outside of the array is a fault, `none`.
Whatever the length of the array, they end with its elements in non-increasing order.
-/

namespace AbsPlatform
namespace Lib

variable {α : Type} [LinearOrder α]

/-! ## The loops -/

/-- The body: the elements at `d` and `d + 1`. -/
def exchange (f : List α) (d : Nat) : Option (List α) := do
  let x ← f[d]?
  let y ← f[d + 1]?
  some (if x < y then (f.set d y).set (d + 1) x else f)

/-- The inner loop, for `d` below `m`. -/
def exchangePass (m : Nat) (f : List α) : Option (List α) := (List.range m).foldlM exchange f

/-- Both loops on an array of length `n`, for `c` below `k`. -/
def exchangePasses (n k : Nat) (f : List α) : Option (List α) :=
  (List.range k).foldlM (fun f c => exchangePass (n - c - 1) f) f

/-! ## One pass -/

/-- What a pass makes of an element and those behind it. -/
def sink (x : α) : List α → List α
  | [] => [x]
  | y :: ys => max x y :: sink (min x y) ys

theorem exchange_at (pre post : List α) (x y : α) :
    exchange (pre ++ x :: y :: post) pre.length =
      some (pre ++ max x y :: min x y :: post) := by
  have hx : (pre ++ x :: y :: post)[pre.length]? = some x := by simp
  have hy : (pre ++ x :: y :: post)[pre.length + 1]? = some y := by
    rw [List.getElem?_append_right (Nat.le_add_right _ _)]
    simp
  simp only [exchange, hx, hy, Option.bind_eq_bind, Option.bind_some]
  split_ifs with hlt
  · simp [max_eq_right hlt.le, min_eq_left hlt.le]
  · rw [max_eq_left (not_lt.1 hlt), min_eq_right (not_lt.1 hlt)]

/-- A pass that starts behind `pre` and ends in front of `post`. -/
theorem foldlM_exchange (pre xs post : List α) (x : α) :
    (List.range' pre.length xs.length).foldlM exchange (pre ++ x :: xs ++ post) =
      some (pre ++ sink x xs ++ post) := by
  induction xs generalizing pre x with
  | nil => simp [sink]
  | cons y ys ih =>
      have hstep := exchange_at pre (ys ++ post) x y
      have hrest := ih (pre ++ [max x y]) (min x y)
      simp only [List.length_append, List.length_singleton, List.append_assoc,
        List.cons_append] at hrest
      simp only [List.append_assoc, List.cons_append, List.length_cons, List.range'_succ,
        List.foldlM_cons, hstep, Option.bind_eq_bind, Option.bind_some, sink]
      exact hrest

theorem exchangePass_eq (xs post : List α) (x : α) :
    exchangePass xs.length (x :: xs ++ post) = some (sink x xs ++ post) := by
  simpa [exchangePass, List.range_eq_range'] using foldlM_exchange [] xs post x

theorem sink_perm (x : α) (xs : List α) : (sink x xs).Perm (x :: xs) := by
  induction xs generalizing x with
  | nil => exact .refl _
  | cons y ys ih =>
      refine ((ih (min x y)).cons (max x y)).trans ?_
      rcases le_total x y with h | h
      · rw [max_eq_right h, min_eq_left h]
        exact .swap x y ys
      · rw [max_eq_left h, min_eq_right h]

/-- The last element after a pass is one of the smallest. -/
theorem sink_eq_append (x : α) (xs : List α) :
    ∃ front low, sink x xs = front ++ [low] ∧ ∀ z ∈ x :: xs, low ≤ z := by
  induction xs generalizing x with
  | nil => exact ⟨[], x, rfl, by simp⟩
  | cons y ys ih =>
      rcases ih (min x y) with ⟨front, low, heq, hlow⟩
      refine ⟨max x y :: front, low, by simp [sink, heq], ?_⟩
      have hmin : low ≤ min x y := hlow _ (List.mem_cons_self ..)
      intro z hz
      rcases List.mem_cons.1 hz with rfl | hz
      · exact hmin.trans (min_le_left ..)
      · rcases List.mem_cons.1 hz with rfl | hz
        · exact hmin.trans (min_le_right ..)
        · exact hlow z (List.mem_cons_of_mem _ hz)

/-! ## All passes -/

/-- After `c` passes: the last `c` elements are in order, and none of them is above one of the
others. -/
structure Settled (f g : List α) (c : Nat) : Prop where
  perm : g.Perm f
  split : ∃ front settled, g = front ++ settled ∧ settled.length = c ∧
    settled.Pairwise (fun a b => b ≤ a) ∧ ∀ z ∈ front, ∀ s ∈ settled, s ≤ z

theorem Settled.pass {f g : List α} {c : Nat} (h : Settled f g c) (hc : c < f.length) :
    ∃ g', exchangePass (f.length - c - 1) g = some g' ∧ Settled f g' (c + 1) := by
  rcases h.split with ⟨front, settled, rfl, hlen, hsorted, hbelow⟩
  have hlength : front.length + c = f.length := by
    rw [← h.perm.length_eq, List.length_append, hlen]
  cases front with
  | nil =>
      simp only [List.length_nil] at hlength
      omega
  | cons x xs =>
      have hxs : xs.length = f.length - c - 1 := by
        simp only [List.length_cons] at hlength
        omega
      rcases sink_eq_append x xs with ⟨front', low, hsink, hlow⟩
      have hperm : (front' ++ [low]).Perm (x :: xs) := hsink ▸ sink_perm x xs
      refine ⟨sink x xs ++ settled, hxs ▸ exchangePass_eq xs settled x, ?_, ?_⟩
      · exact ((sink_perm x xs).append_right settled).trans h.perm
      · -- the smallest of the front joins the elements that are settled
        refine ⟨front', low :: settled, by simp [hsink], by simp [hlen], ?_, ?_⟩
        · refine List.pairwise_cons.2 ⟨fun s hs => ?_, hsorted⟩
          exact hbelow low (hperm.subset (by simp)) s hs
        · intro z hz s hs
          have hzx : z ∈ x :: xs := hperm.subset (List.mem_append_left _ hz)
          rcases List.mem_cons.1 hs with rfl | hs
          · exact hlow z hzx
          · exact hbelow z hzx s hs

theorem exchangePasses_settled (f : List α) {k : Nat} (hk : k ≤ f.length) :
    ∃ g, exchangePasses f.length k f = some g ∧ Settled f g k := by
  induction k with
  | zero => exact ⟨f, rfl, .refl f, f, [], by simp, rfl, .nil, by simp⟩
  | succ k ih =>
      rcases ih (Nat.le_of_succ_le hk) with ⟨g, hg, hsettled⟩
      rcases hsettled.pass hk with ⟨g', hg', hsettled'⟩
      refine ⟨g', ?_, hsettled'⟩
      rw [exchangePasses] at hg ⊢
      simp [List.range_succ, List.foldlM_append, hg, hg']

/-- The loops do not fault, and they sort. -/
theorem exchangePasses_sorts (f : List α) :
    ∃ g, exchangePasses f.length (f.length - 1) f = some g ∧ g.Perm f ∧
      g.Pairwise (fun a b => b ≤ a) := by
  rcases exchangePasses_settled f (Nat.sub_le f.length 1) with ⟨g, hg, hsettled⟩
  refine ⟨g, hg, hsettled.perm, ?_⟩
  rcases hsettled.split with ⟨front, settled, rfl, hlen, hsorted, hbelow⟩
  -- at most one element is left in front
  have hfront : front.length ≤ 1 := by
    have hlength := hsettled.perm.length_eq
    rw [List.length_append, hlen] at hlength
    omega
  refine List.pairwise_append.2 ⟨?_, hsorted, hbelow⟩
  match front, hfront with
  | [], _ => exact .nil
  | [x], _ => exact List.pairwise_singleton _ x

end Lib
end AbsPlatform

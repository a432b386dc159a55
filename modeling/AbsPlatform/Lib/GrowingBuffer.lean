import Mathlib.Algebra.GroupWithZero.Nat
import Mathlib.Data.List.Induction
import Mathlib.Order.Monotone.Basic
import AbsPlatform.Lib.Runs

/-!
# GrowingBuffer — a buffer that grows after it has been written to

Pieces of text are written one behind the other, each with a terminator that the next one
overwrites.  After every piece the buffer grows once if less than a reserve is left.  Nothing is
looked at in front of a write, so a piece that is longer than the reserve need not fit.  Which
pieces fit depends on the sizes the buffer can have and on where the piece begins, and on nothing
else.
-/

namespace AbsPlatform
namespace Lib

/-- How a buffer grows.  A size above the limit cannot be asked for. -/
structure GrowthPolicy where
  start : Nat
  reserve : Nat
  grow : Nat → Nat
  limit : Nat
  start_le : start ≤ limit
  reserve_le : reserve ≤ start
  grow_add : ∀ size, start ≤ size → size + reserve ≤ grow size

/-- The size of the buffer and the number of characters in it. -/
structure Fill where
  size : Nat
  pos : Nat

namespace GrowthPolicy

variable (P : GrowthPolicy)

def empty : Fill where
  size := P.start
  pos := 0

/-- What happens after a piece. -/
def refill (f : Fill) : Option Fill :=
  if f.pos + P.reserve ≤ f.size then
    some f
  else if P.grow f.size ≤ P.limit then
    some { f with size := P.grow f.size }
  else
    none

/-- Write a piece of `n` characters and its terminator. -/
def put (f : Fill) (n : Nat) : Option Fill :=
  if f.pos + n < f.size then P.refill { f with pos := f.pos + n } else none

/-- The sizes one after the other. -/
def size : Nat → Nat
  | 0 => P.start
  | k + 1 => P.grow (size k)

/-- There is room for `n` characters behind `p` others: some size leaves the reserve behind these,
and no size that does is too small. -/
def Room (p n : Nat) : Prop :=
  (∃ k, P.size k ≤ P.limit ∧ p + P.reserve ≤ P.size k) ∧
    ∀ k, p + P.reserve ≤ P.size k → p + n < P.size k

/-! ## Sizes -/

theorem start_le_size (k : Nat) : P.start ≤ P.size k := by
  induction k with
  | zero => exact Nat.le_refl _
  | succ k ih =>
      have hgrow := P.grow_add (P.size k) ih
      simp only [size]
      omega

theorem size_add_reserve_le (k : Nat) : P.size k + P.reserve ≤ P.size (k + 1) :=
  P.grow_add _ (P.start_le_size k)

theorem monotone_size : Monotone P.size :=
  monotone_nat_of_le_succ fun k =>
    (Nat.le_add_right _ _).trans (P.size_add_reserve_le k)

/-- Above one size there is none below the next. -/
theorem size_succ_le {j k : Nat} (h : P.size k < P.size j) : P.size (k + 1) ≤ P.size j := by
  have hlt : k < j := by
    by_contra hle
    exact absurd (P.monotone_size (Nat.not_lt.1 hle)) (Nat.not_le.2 h)
  exact P.monotone_size hlt

/-! ## One piece -/

/-- The buffer has the smallest size that leaves the reserve. -/
structure Fitted (f : Fill) : Prop where
  size : ∃ k, f.size = P.size k
  limit : f.size ≤ P.limit
  reserve : f.pos + P.reserve ≤ f.size
  least : ∀ j, f.pos + P.reserve ≤ P.size j → f.size ≤ P.size j

variable {P}
variable {f f' : Fill} {n : Nat} {ns : List Nat}

theorem fitted_empty (P : GrowthPolicy) : P.Fitted P.empty where
  size := ⟨0, rfl⟩
  limit := P.start_le
  reserve := by simpa [empty] using P.reserve_le
  least := fun j _ => P.start_le_size j

theorem Fitted.room_iff (h : P.Fitted f) : P.Room f.pos n ↔ f.pos + n < f.size := by
  rcases h.size with ⟨k, hk⟩
  constructor
  · rintro ⟨_, hroom⟩
    rw [hk]
    exact hroom k (hk ▸ h.reserve)
  · intro hfits
    refine ⟨⟨k, hk ▸ h.limit, hk ▸ h.reserve⟩, fun j hj => ?_⟩
    exact Nat.lt_of_lt_of_le hfits (h.least j hj)

/-- The next size is enough after a piece that fitted. -/
theorem Fitted.put (h : P.Fitted f) (hput : P.put f n = some f') :
    P.Fitted f' ∧ f'.pos = f.pos + n := by
  rcases h.size with ⟨k, hk⟩
  unfold GrowthPolicy.put refill at hput
  split_ifs at hput with hfits hreserve hlimit
  · cases hput
    refine ⟨⟨⟨k, hk⟩, h.limit, hreserve, fun j hj => ?_⟩, rfl⟩
    exact h.least j (by dsimp only at hj; omega)
  · cases hput
    have hnext : P.grow f.size = P.size (k + 1) := by rw [hk]; rfl
    have hadd := P.size_add_reserve_le k
    dsimp only at hreserve
    refine ⟨⟨⟨k + 1, hnext⟩, hlimit, ?_, fun j hj => ?_⟩, rfl⟩
    · dsimp only
      omega
    · dsimp only at hj ⊢
      rw [hnext]
      exact P.size_succ_le (by omega)

/-- A piece for which there is room is written, when there is room for another one behind it. -/
theorem Fitted.exists_put (h : P.Fitted f) {m : Nat} (hroom : P.Room f.pos n)
    (hnext : P.Room (f.pos + n) m) : ∃ f', P.put f n = some f' := by
  rcases h.size with ⟨k, hk⟩
  have hfits := h.room_iff.1 hroom
  unfold GrowthPolicy.put refill
  rw [if_pos hfits]
  split_ifs with hreserve hlimit
  · exact ⟨_, rfl⟩
  · exact ⟨_, rfl⟩
  · -- a larger size within the limit is one the buffer can grow to
    rcases hnext.1 with ⟨j, hj, hroomj⟩
    dsimp only at hreserve hlimit
    have hle : P.size (k + 1) ≤ P.size j := P.size_succ_le (by omega)
    rw [hk] at hlimit
    exact absurd (Nat.le_trans hle hj) hlimit

/-! ## All pieces -/

theorem Fitted.run (h : P.Fitted f) (hrun : ns.foldlM P.put f = some f') :
    P.Fitted f' ∧ f'.pos = f.pos + ns.sum := by
  induction ns generalizing f with
  | nil =>
      cases hrun
      exact ⟨h, rfl⟩
  | cons n ns ih =>
      rcases run_cons_inv hrun with ⟨f₁, hf₁, hrest⟩
      rcases h.put hf₁ with ⟨hfitted, hpos⟩
      rcases ih hfitted hrest with ⟨hfitted', hpos'⟩
      refine ⟨hfitted', ?_⟩
      rw [hpos', hpos, List.sum_cons, Nat.add_assoc]

/-- Where there is room for each of the pieces, everything in front of one of them is written. -/
theorem exists_run {post : List Nat}
    (hroom : ∀ pre n post', ns = pre ++ n :: post' → P.Room pre.sum n) (hne : post ≠ []) :
    ∀ pre, ns = pre ++ post → ∃ f, pre.foldlM P.put P.empty = some f := by
  intro pre
  induction pre using List.reverseRecOn generalizing post with
  | nil => exact fun _ => ⟨_, rfl⟩
  | append_singleton pre m ih =>
      intro hsplit
      have hsplit' : ns = pre ++ m :: post := by simpa using hsplit
      rcases ih (List.cons_ne_nil m post) hsplit' with ⟨f, hf⟩
      rcases (fitted_empty P).run hf with ⟨hfitted, hpos⟩
      have hsum : f.pos = pre.sum := by simpa [empty] using hpos
      rcases List.exists_cons_of_ne_nil hne with ⟨n, post', rfl⟩
      have hnext : P.Room (f.pos + m) n := by
        have hlast := hroom (pre ++ [m]) n post' hsplit
        rwa [List.sum_append, List.sum_singleton, ← hsum] at hlast
      rcases hfitted.exists_put (hsum ▸ hroom pre m _ hsplit') hnext with ⟨f', hf'⟩
      exact ⟨f', run_snoc hf hf'⟩

/-- What holds for each of some lengths and those in front of it. -/
theorem forall_split_map {α : Type} {length : α → Nat} {items : List α}
    {Q : List Nat → Nat → Prop} :
    (∀ pre n post, items.map length = pre ++ n :: post → Q pre n) ↔
      ∀ pre x post, items = pre ++ x :: post → Q (pre.map length) (length x) := by
  constructor
  · rintro h pre x post rfl
    exact h (pre.map length) (length x) (post.map length) (by simp)
  · intro h pre n post hsplit
    rcases List.map_eq_append_iff.1 hsplit with ⟨items₁, items₂, rfl, rfl, hitems₂⟩
    rcases List.map_eq_cons_iff.1 hitems₂ with ⟨x, items₃, rfl, rfl, _⟩
    exact h items₁ x items₃ rfl

/-- Every piece fits when its turn comes, exactly when there is room for each of them. -/
theorem forall_fits_iff_room {α : Type} (P : GrowthPolicy) (length : α → Nat) (items : List α) :
    (∀ pre x post, items = pre ++ x :: post →
        ∃ f, (pre.map length).foldlM P.put P.empty = some f ∧ f.pos + length x < f.size) ↔
      ∀ pre x post, items = pre ++ x :: post → P.Room (pre.map length).sum (length x) := by
  have hsum : ∀ {ns : List Nat} {f : Fill}, ns.foldlM P.put P.empty = some f →
      P.Fitted f ∧ f.pos = ns.sum := by
    intro ns f hf
    simpa [empty] using (fitted_empty P).run hf
  constructor
  · intro h pre x post hsplit
    rcases h pre x post hsplit with ⟨f, hf, hfits⟩
    rcases hsum hf with ⟨hfitted, hpos⟩
    exact hpos ▸ hfitted.room_iff.2 hfits
  · intro h pre x post hsplit
    have hroom : ∀ ns n ms, items.map length = ns ++ n :: ms → P.Room ns.sum n :=
      (forall_split_map (Q := fun ns n => P.Room ns.sum n)).2 h
    rcases exists_run hroom (List.cons_ne_nil (length x) (post.map length)) (pre.map length)
      (by simp [hsplit]) with ⟨f, hf⟩
    rcases hsum hf with ⟨hfitted, hpos⟩
    exact ⟨f, hf, hfitted.room_iff.1 (hpos ▸ h pre x post hsplit)⟩

end GrowthPolicy

end Lib
end AbsPlatform

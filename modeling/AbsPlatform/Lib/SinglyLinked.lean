import AbsPlatform.Lib.DoublyLinked
import AbsPlatform.Lib.Related

/-!
# SinglyLinked — singly linked lists in a heap

A heap of cells with a value and one pointer.  `Chain h cells n` says that `cells` (addresses with
their values) are linked one to the next and the last one to `n`.

The one operation is `redirect`: let another cell follow `p`, where the cell that follows NULL is
the first one of the list.  Appending at a tail pointer and unlinking behind a trailing pointer are
both of this kind, and `Chain.redirect` is the rule for them.

`Family` is for several lists that live in one heap, each with a pointer to its first and to its
last cell.
-/

namespace AbsPlatform
namespace Lib

structure Cell (α : Type) where
  val : α
  next : Option Nat

abbrev Cells (α : Type) := Nat → Option (Cell α)

variable {α ι : Type}

namespace Cells

/-- The heap with one cell more, or less. -/
def put (h : Cells α) (a : Nat) (c : Option (Cell α)) : Cells α := Function.update h a c

@[simp] theorem put_same (h : Cells α) (a : Nat) (c : Option (Cell α)) : h.put a c a = c := by
  simp [put]

theorem put_other {h : Cells α} {a b : Nat} (hne : b ≠ a) (c : Option (Cell α)) :
    h.put a c b = h b := by
  simp [put, hne]

/-- Write a pointer; a fault when there is no cell. -/
def setNext (h : Cells α) (a : Nat) (n : Option Nat) : Option (Cells α) :=
  (h a).map fun c => h.put a (some { c with next := n })

theorem setNext_of_some {h : Cells α} {a : Nat} {c : Cell α} (ha : h a = some c)
    (n : Option Nat) : h.setNext a n = some (h.put a (some { c with next := n })) := by
  simp [setNext, ha]

/-- `if (p == NULL) first = n; else p->next = n;` -/
def redirect (h : Cells α) (first p n : Option Nat) : Option (Cells α × Option Nat) :=
  match p with
  | none => some (h, n)
  | some a => (h.setNext a n).map fun h => (h, first)

/-- `if (first == NULL) first = a; else last->next = a;` -/
def link (h : Cells α) (first last : Option Nat) (a : Nat) : Option (Cells α × Option Nat) :=
  match first, last with
  | none, _ => some (h, some a)
  | some _, none => none
  | some _, some p => (h.setNext p (some a)).map fun h => (h, first)

/-- `do { .. } while (p = p->next)`: the values from a pointer on.  Starting at NULL is a fault. -/
def walk : Nat → Cells α → Option Nat → Option (List α)
  | 0, _, _ => none
  | _ + 1, _, none => none
  | fuel + 1, h, some a =>
      match h a with
      | none => none
      | some c =>
          match c.next with
          | none => some [c.val]
          | some b => (walk fuel h (some b)).map (c.val :: ·)

end Cells

/-! ## Chains -/

def Chain (h : Cells α) : List (Nat × α) → Option Nat → Prop
  | [], _ => True
  | c :: cells, n => h c.1 = some { val := c.2, next := firstPtr cells n } ∧ Chain h cells n

theorem chain_append {h : Cells α} {n : Option Nat} {l₁ l₂ : List (Nat × α)} :
    Chain h (l₁ ++ l₂) n ↔ Chain h l₁ (firstPtr l₂ n) ∧ Chain h l₂ n := by
  induction l₁ with
  | nil => simp [Chain]
  | cons c l₁ ih => simp only [List.cons_append, Chain, firstPtr_append, ih, and_assoc]

/-- A chain only depends on the heap at its own addresses. -/
theorem Chain.frame {h h' : Cells α} {n : Option Nat} {cells : List (Nat × α)}
    (hchain : Chain h cells n) (hsame : ∀ a ∈ addrs cells, h' a = h a) : Chain h' cells n := by
  induction cells with
  | nil => trivial
  | cons c cells ih =>
      refine ⟨?_, ih hchain.2 fun a ha => hsame a (by simp [ha])⟩
      rw [hsame c.1 (by simp)]
      exact hchain.1

/-- An address without a cell is not one of the chain. -/
theorem Chain.not_mem_of_none {h : Cells α} {n : Option Nat} {cells : List (Nat × α)}
    (hchain : Chain h cells n) {a : Nat} (ha : h a = none) : a ∉ addrs cells := by
  induction cells with
  | nil => simp
  | cons c cells ih =>
      intro hmem
      rcases List.mem_cons.1 hmem with rfl | hmem
      · exact absurd (hchain.1.symm.trans ha) (by simp)
      · exact ih hchain.2 hmem

/-- Let `m` follow the chain in the place of `n`. -/
theorem Chain.redirect {h : Cells α} {n : Option Nat} {cells : List (Nat × α)}
    (hchain : Chain h cells n) (hnodup : (addrs cells).Nodup) (m : Option Nat) :
    ∃ h', h.redirect (firstPtr cells n) (lastPtr none cells) m = some (h', firstPtr cells m) ∧
      Chain h' cells m ∧ ∀ b, b ∉ addrs cells → h' b = h b := by
  rcases List.eq_nil_or_concat cells with rfl | ⟨init, c, rfl⟩
  · exact ⟨h, rfl, trivial, fun _ _ => rfl⟩
  · simp only [List.concat_eq_append] at hchain hnodup ⊢
    rcases chain_append.1 hchain with ⟨hinit, hc, _⟩
    -- the cells in front of the last one are elsewhere
    have hout : ∀ a ∈ addrs init, a ≠ c.1 := by
      intro a ha hac
      subst hac
      simp [List.nodup_append] at hnodup
      exact hnodup.2 _ ha rfl
    refine ⟨h.put c.1 (some { val := c.2, next := m }), ?_, ?_, ?_⟩
    · simp [Cells.redirect, Cells.setNext_of_some hc]
    · refine chain_append.2 ⟨hinit.frame fun a ha => Cells.put_other (hout a ha) _, ?_, trivial⟩
      simp
    · intro b hb
      exact Cells.put_other (by rintro rfl; simp at hb) _

/-- Append a cell at the tail pointer. -/
theorem Chain.append {h : Cells α} {cells : List (Nat × α)} (hchain : Chain h cells none)
    (hnodup : (addrs cells).Nodup) {a : Nat} {v : α} (ha : h a = some { val := v, next := none })
    (hnot : a ∉ addrs cells) :
    ∃ h', h.redirect (firstPtr cells none) (lastPtr none cells) (some a) =
        some (h', firstPtr (cells ++ [(a, v)]) none) ∧
      Chain h' (cells ++ [(a, v)]) none ∧ ∀ b, b ∉ addrs cells → h' b = h b := by
  rcases hchain.redirect hnodup (some a) with ⟨h', hredirect, hcells, hother⟩
  refine ⟨h', by simpa using hredirect, chain_append.2 ⟨hcells, ?_, trivial⟩, hother⟩
  rw [hother a hnot]
  exact ha

/-- Take a cell out of a chain and free it. -/
theorem Chain.unlink {h : Cells α} {n : Option Nat} {kept rest : List (Nat × α)} {c : Nat × α}
    (hchain : Chain h (kept ++ c :: rest) n) (hnodup : (addrs (kept ++ c :: rest)).Nodup) :
    ∃ h', h.redirect (firstPtr (kept ++ c :: rest) n) (lastPtr none kept) (firstPtr rest n) =
        some (h', firstPtr (kept ++ rest) n) ∧
      Chain (h'.put c.1 none) (kept ++ rest) n ∧
      ∀ a, a ∉ addrs (kept ++ c :: rest) → h'.put c.1 none a = h a := by
  rcases chain_append.1 hchain with ⟨hkept, _, hrest⟩
  simp only [addrs_append, addrs_cons] at hnodup
  rcases List.nodup_append.1 hnodup with ⟨hndKept, hndRest, hdisj⟩
  rcases hkept.redirect hndKept (firstPtr rest n) with ⟨h', hredirect, hkept', hout⟩
  have hcKept : c.1 ∉ addrs kept := fun hmem => hdisj c.1 hmem c.1 (by simp) rfl
  have hcRest : c.1 ∉ addrs rest := (List.nodup_cons.1 hndRest).1
  refine ⟨h', by simpa using hredirect, ?_, fun a ha => ?_⟩
  · -- neither part has a cell where the freed one was
    refine chain_append.2 ⟨hkept'.frame fun a ha => ?_, hrest.frame fun a ha => ?_⟩
    · exact Cells.put_other (by rintro rfl; exact hcKept ha) _
    · rw [Cells.put_other (by rintro rfl; exact hcRest ha)]
      exact hout a fun hmem => hdisj a hmem a (by simp [ha]) rfl
  · simp only [addrs_append, addrs_cons, List.mem_append, List.mem_cons, not_or] at ha
    exact (Cells.put_other ha.2.1 _).trans (hout a ha.1)

/-- A walk visits the values of the chain in order. -/
theorem Chain.walk {h : Cells α} {cells : List (Nat × α)} (hchain : Chain h cells none)
    (hne : cells ≠ []) {fuel : Nat} (hfuel : cells.length ≤ fuel) :
    Cells.walk fuel h (firstPtr cells none) = some (cells.map Prod.snd) := by
  induction cells generalizing fuel with
  | nil => exact absurd rfl hne
  | cons c cells ih =>
      cases fuel with
      | zero => simp at hfuel
      | succ fuel =>
          simp only [firstPtr_cons, Cells.walk, hchain.1]
          cases cells with
          | nil => rfl
          | cons d cells =>
              have hrest := ih hchain.2 (by simp) (Nat.le_of_succ_le_succ hfuel)
              simp only [firstPtr_cons] at hrest ⊢
              rw [hrest]
              rfl

/-! ## Families of lists -/

/-- The lists `b i` live in one heap, with a pointer to the first and the last cell of each, and no
cell is in two of them. -/
structure Family (h : Cells α) (first last : ι → Option Nat) (b : ι → List (Nat × α)) : Prop where
  first : ∀ i, first i = firstPtr (b i) none
  last : ∀ i, last i = lastPtr none (b i)
  chain : ∀ i, Chain h (b i) none
  nodup : ∀ i, (addrs (b i)).Nodup
  apart : ∀ i j a, a ∈ addrs (b i) → a ∈ addrs (b j) → i = j

namespace Family

variable {h : Cells α} {first last : ι → Option Nat} {b : ι → List (Nat × α)}

theorem empty (h : Cells α) :
    Family h (fun _ : ι => none) (fun _ => none) (fun _ => []) where
  first := fun _ => rfl
  last := fun _ => rfl
  chain := fun _ => trivial
  nodup := fun _ => List.nodup_nil
  apart := fun _ _ _ ha => absurd ha (by simp)

/-- The cells of one list are not cells of another. -/
theorem not_mem_of_ne (hf : Family h first last b) {i j : ι} (hne : j ≠ i) {a : Nat}
    (ha : a ∈ addrs (b j)) : a ∉ addrs (b i) :=
  fun ha' => hne (hf.apart j i a ha ha')

/-- What happens outside the lists does not concern them. -/
theorem frame (hf : Family h first last b) {h' : Cells α}
    (hsame : ∀ i, ∀ a ∈ addrs (b i), h' a = h a) : Family h' first last b :=
  { hf with chain := fun i => (hf.chain i).frame (hsame i) }

theorem put (hf : Family h first last b) {a : Nat} (ha : ∀ i, a ∉ addrs (b i))
    (c : Option (Cell α)) : Family (h.put a c) first last b :=
  hf.frame fun i _ hd => Cells.put_other (by rintro rfl; exact ha i hd) _

/-- Asking for the first cell instead of the last one comes to the same. -/
theorem link_eq_redirect (hf : Family h first last b) (i : ι) {h' : Cells α} (a : Nat) :
    h'.link (first i) (last i) a = h'.redirect (first i) (last i) (some a) := by
  rw [hf.first, hf.last]
  cases hcells : b i with
  | nil => rfl
  | cons c cells =>
      have hne : c :: cells ≠ [] := by simp
      rcases lastPtr_eq_some (p := none) hne with ⟨_, d, _, hlast⟩
      simp [Cells.link, Cells.redirect, hlast]

variable [DecidableEq ι]

/-- Replacing the cells of one list, in a heap that is the same for the other lists. -/
theorem replace (hf : Family h first last b) {i : ι} {cells : List (Nat × α)} {h' : Cells α}
    (hchain : Chain h' cells none) (hnodup : (addrs cells).Nodup)
    (hsame : ∀ j, j ≠ i → ∀ a ∈ addrs (b j), h' a = h a)
    (hapart : ∀ j, j ≠ i → ∀ a ∈ addrs (b j), a ∉ addrs cells) :
    Family h' (Function.update first i (firstPtr cells none))
      (Function.update last i (lastPtr none cells)) (Function.update b i cells) := by
  constructor
  case first =>
    intro j
    by_cases hj : j = i
    · subst hj
      simp
    · simpa [hj] using hf.first j
  case last =>
    intro j
    by_cases hj : j = i
    · subst hj
      simp
    · simpa [hj] using hf.last j
  case chain =>
    intro j
    by_cases hj : j = i
    · subst hj
      simpa using hchain
    · simpa [hj] using (hf.chain j).frame (hsame j hj)
  case nodup =>
    intro j
    by_cases hj : j = i
    · subst hj
      simpa using hnodup
    · simpa [hj] using hf.nodup j
  case apart =>
    intro j k a hja hka
    by_cases hj : j = i
    · by_cases hk : k = i
      · exact hj.trans hk.symm
      · -- the new cells are in none of the other lists
        subst hj
        rw [Function.update_self] at hja
        rw [Function.update_of_ne hk] at hka
        exact absurd hja (hapart k hk a hka)
    · rw [Function.update_of_ne hj] at hja
      by_cases hk : k = i
      · subst hk
        rw [Function.update_self] at hka
        exact absurd hka (hapart j hj a hja)
      · rw [Function.update_of_ne hk] at hka
        exact hf.apart j k a hja hka

/-- Append a cell to one of the lists. -/
theorem append (hf : Family h first last b) (i : ι) {a : Nat} {v : α}
    (ha : h a = some { val := v, next := none }) (hnot : ∀ j, a ∉ addrs (b j)) :
    ∃ h' p, h.redirect (first i) (last i) (some a) = some (h', p) ∧
      Family h' (Function.update first i p) (Function.update last i (some a))
        (Function.update b i (b i ++ [(a, v)])) ∧
      ∀ c, c ∉ addrs (b i) → h' c = h c := by
  rcases (hf.chain i).append (hf.nodup i) ha (hnot i) with ⟨h', hredirect, hchain, hsame⟩
  rw [hf.first, hf.last]
  refine ⟨h', _, hredirect, ?_, hsame⟩
  have hlast : lastPtr none (b i ++ [(a, v)]) = some a := by simp
  rw [← hlast]
  refine hf.replace hchain ?_ (fun j hj c hc => hsame c (hf.not_mem_of_ne hj hc)) ?_
  · simpa [List.nodup_append] using ⟨hf.nodup i, fun c hc hca => hnot i (hca ▸ hc)⟩
  · intro j hj c hc
    have hne : c ≠ a := by
      rintro rfl
      exact hnot j hc
    simpa [hne] using hf.not_mem_of_ne hj hc

end Family

/-! ## Two heaps -/

namespace Cells

/-- Two heaps with cells at the same addresses, linked in the same way, whose values are related. -/
def Related {β : Type} (R : α → β → Prop) (h : Cells α) (h' : Cells β) : Prop :=
  ∀ a, Option.Rel (fun c c' => R c.val c'.val ∧ c.next = c'.next) (h a) (h' a)

namespace Related

variable {β : Type} {R : α → β → Prop} {h : Cells α} {h' : Cells β}

theorem put (hh : Related R h h') (a : Nat) {v : α} {v' : β} (hv : R v v') (n : Option Nat) :
    Related R (h.put a (some ⟨v, n⟩)) (h'.put a (some ⟨v', n⟩)) := by
  intro b
  by_cases hb : b = a
  · subst hb
    rw [put_same, put_same]
    exact .some ⟨hv, rfl⟩
  · rw [put_other hb, put_other hb]
    exact hh b

theorem setNext (hh : Related R h h') (a : Nat) (n : Option Nat) :
    Option.Rel (Related R) (h.setNext a n) (h'.setNext a n) :=
  rel_map (hh a) fun _ _ hc => hh.put a hc.1 n

theorem link (hh : Related R h h') (first last : Option Nat) (a : Nat) :
    Option.Rel (fun p p' => Related R p.1 p'.1 ∧ p.2 = p'.2) (h.link first last a)
      (h'.link first last a) := by
  cases first with
  | none => exact .some ⟨hh, rfl⟩
  | some f =>
      cases last with
      | none => exact .none
      | some p => exact rel_map (hh.setNext p (some a)) fun _ _ hset => ⟨hset, rfl⟩

end Related
end Cells

end Lib
end AbsPlatform

import Mathlib.Data.List.Nodup
import Mathlib.Logic.Function.Basic

/-!
# DoublyLinked — doubly linked lists in a heap

A heap maps addresses to nodes with a value and two pointers; reading an address that holds no node
is a fault.  `Seg h p cells n` says that `cells` (addresses with their values) are linked to each
other in both directions, the first one back to `p` and the last one on to `n`.

The rules are the ones a proof about pointer code needs: splitting a segment, leaving the heap
alone outside it, and redirecting a pointer at one of its ends.
-/

namespace AbsPlatform
namespace Lib

structure Node (α : Type) where
  val : α
  prev : Option Nat
  next : Option Nat

abbrev Heap (α : Type) := Nat → Option (Node α)

variable {α : Type}

namespace Heap

/-- Change the node at an address; a fault when there is none. -/
def modify? (h : Heap α) (a : Nat) (f : Node α → Node α) : Option (Heap α) :=
  (h a).map fun n => Function.update h a (some (f n))

def setPrev (h : Heap α) (a : Nat) (p : Option Nat) : Option (Heap α) :=
  h.modify? a fun n => { n with prev := p }

def setNext (h : Heap α) (a : Nat) (n : Option Nat) : Option (Heap α) :=
  h.modify? a fun m => { m with next := n }

/-- `if (n != NULL) n->prev = p;` -/
def linkPrev (h : Heap α) (n p : Option Nat) : Option (Heap α) :=
  match n with
  | none => some h
  | some a => h.setPrev a p

/-- Follow `next` from a pointer on to the first node with a property.  `none` is a fault or a loop
that does not end within its fuel, `some none` is NULL. -/
def findFrom (h : Heap α) (test : α → Bool) : Nat → Option Nat → Option (Option Nat)
  | 0, _ => none
  | _ + 1, none => some none
  | fuel + 1, some a =>
      match h a with
      | none => none
      | some n => if test n.val then some (some a) else h.findFrom test fuel n.next

/-- The heap with one node more, or less. -/
def put (h : Heap α) (a : Nat) (n : Option (Node α)) : Heap α := Function.update h a n

@[simp] theorem put_same (h : Heap α) (a : Nat) (n : Option (Node α)) : h.put a n a = n := by
  simp [put]

theorem put_other {h : Heap α} {a b : Nat} (hne : b ≠ a) (n : Option (Node α)) :
    h.put a n b = h b := by
  simp [put, hne]

theorem modify?_of_some {h : Heap α} {a : Nat} {n : Node α} (ha : h a = some n)
    (f : Node α → Node α) : h.modify? a f = some (h.put a (some (f n))) := by
  simp [modify?, ha, put]

end Heap

/-! ## Segments -/

/-- Where a pointer to the front of `cells` leads, `n` being what follows them. -/
def firstPtr : List (Nat × α) → Option Nat → Option Nat
  | [], n => n
  | c :: _, _ => some c.1

/-- Where a pointer to the back of `cells` leads, `p` being what precedes them. -/
def lastPtr : Option Nat → List (Nat × α) → Option Nat
  | p, [] => p
  | _, c :: cells => lastPtr (some c.1) cells

def Seg (h : Heap α) : Option Nat → List (Nat × α) → Option Nat → Prop
  | _, [], _ => True
  | p, c :: cells, n =>
      h c.1 = some { val := c.2, prev := p, next := firstPtr cells n } ∧ Seg h (some c.1) cells n

/-- The addresses of the cells. -/
def addrs (cells : List (Nat × α)) : List Nat := cells.map Prod.fst

@[simp] theorem addrs_nil : addrs ([] : List (Nat × α)) = [] := rfl

@[simp] theorem addrs_cons (c : Nat × α) (cells : List (Nat × α)) :
    addrs (c :: cells) = c.1 :: addrs cells := rfl

@[simp] theorem addrs_append (l₁ l₂ : List (Nat × α)) :
    addrs (l₁ ++ l₂) = addrs l₁ ++ addrs l₂ := by
  simp [addrs]

@[simp] theorem firstPtr_nil (n : Option Nat) : firstPtr ([] : List (Nat × α)) n = n := rfl

@[simp] theorem firstPtr_cons (c : Nat × α) (cells : List (Nat × α)) (n : Option Nat) :
    firstPtr (c :: cells) n = some c.1 := rfl

@[simp] theorem lastPtr_nil (p : Option Nat) : lastPtr p ([] : List (Nat × α)) = p := rfl

@[simp] theorem lastPtr_cons (p : Option Nat) (c : Nat × α) (cells : List (Nat × α)) :
    lastPtr p (c :: cells) = lastPtr (some c.1) cells := rfl

@[simp] theorem firstPtr_append (l₁ l₂ : List (Nat × α)) (n : Option Nat) :
    firstPtr (l₁ ++ l₂) n = firstPtr l₁ (firstPtr l₂ n) := by
  cases l₁ with
  | nil => rfl
  | cons c l₁ => rfl

@[simp] theorem lastPtr_append (p : Option Nat) (l₁ l₂ : List (Nat × α)) :
    lastPtr p (l₁ ++ l₂) = lastPtr (lastPtr p l₁) l₂ := by
  induction l₁ generalizing p with
  | nil => rfl
  | cons c l₁ ih => exact ih (some c.1)

theorem firstPtr_none_iff {cells : List (Nat × α)} : firstPtr cells none = none ↔ cells = [] := by
  cases cells with
  | nil => simp [firstPtr]
  | cons c cells => simp [firstPtr]

/-- A pointer to the back of a list that has one leads to one of its cells. -/
theorem lastPtr_eq_some {p : Option Nat} {cells : List (Nat × α)} (h : cells ≠ []) :
    ∃ init c, cells = init ++ [c] ∧ lastPtr p cells = some c.1 := by
  refine ⟨cells.dropLast, cells.getLast h, (List.dropLast_append_getLast h).symm, ?_⟩
  conv_lhs => rw [← List.dropLast_append_getLast h]
  simp [lastPtr]

theorem lastPtr_none_iff {cells : List (Nat × α)} : lastPtr none cells = none ↔ cells = [] := by
  constructor
  · intro h
    by_contra hne
    rcases lastPtr_eq_some (p := none) hne with ⟨_, c, _, hlast⟩
    simp [hlast] at h
  · rintro rfl
    rfl

theorem seg_append {h : Heap α} {p n : Option Nat} {l₁ l₂ : List (Nat × α)} :
    Seg h p (l₁ ++ l₂) n ↔ Seg h p l₁ (firstPtr l₂ n) ∧ Seg h (lastPtr p l₁) l₂ n := by
  induction l₁ generalizing p with
  | nil => simp [Seg, lastPtr]
  | cons c l₁ ih =>
      simp only [List.cons_append, Seg, lastPtr, firstPtr_append, ih, and_assoc]

/-- A segment only depends on the heap at its own addresses. -/
theorem Seg.frame {h h' : Heap α} {p n : Option Nat} {cells : List (Nat × α)}
    (hseg : Seg h p cells n) (hsame : ∀ a ∈ addrs cells, h' a = h a) : Seg h' p cells n := by
  induction cells generalizing p with
  | nil => trivial
  | cons c cells ih =>
      refine ⟨?_, ih hseg.2 fun a ha => hsame a (by simp [ha])⟩
      rw [hsame c.1 (by simp)]
      exact hseg.1

/-- An address without a node is not one of the cells. -/
theorem Seg.not_mem_of_none {h : Heap α} {p n : Option Nat} {cells : List (Nat × α)}
    (hseg : Seg h p cells n) {a : Nat} (ha : h a = none) : a ∉ addrs cells := by
  induction cells generalizing p with
  | nil => simp
  | cons c cells ih =>
      intro hmem
      rcases List.mem_cons.1 hmem with rfl | hmem
      · exact absurd (hseg.1.symm.trans ha) (by simp)
      · exact ih hseg.2 hmem

/-- Redirect the outgoing pointer at the back of a segment. -/
theorem Seg.relinkNext {h : Heap α} {p n : Option Nat} {init : List (Nat × α)} {c : Nat × α}
    (hseg : Seg h p (init ++ [c]) n) (hnodup : (addrs (init ++ [c])).Nodup) (n' : Option Nat) :
    ∃ h', h.setNext c.1 n' = some h' ∧ Seg h' p (init ++ [c]) n' ∧
      ∀ b, b ≠ c.1 → h' b = h b := by
  rcases seg_append.1 hseg with ⟨hinit, hc, _⟩
  refine ⟨_, Heap.modify?_of_some hc _, ?_, fun b hb => Heap.put_other hb _⟩
  -- the cells in front of `c` are elsewhere, so the write leaves them alone
  have hout : ∀ a ∈ addrs init, a ≠ c.1 := by
    intro a ha hac
    subst hac
    simp [List.nodup_append] at hnodup
    exact hnodup.2 _ ha rfl
  refine seg_append.2 ⟨hinit.frame fun a ha => Heap.put_other (hout a ha) _, ?_, trivial⟩
  simp [firstPtr]

/-- Redirect the pointer back at the front of a segment. -/
theorem Seg.relinkPrev {h : Heap α} {p n : Option Nat} {c : Nat × α} {cells : List (Nat × α)}
    (hseg : Seg h p (c :: cells) n) (hnodup : (addrs (c :: cells)).Nodup) (p' : Option Nat) :
    ∃ h', h.setPrev c.1 p' = some h' ∧ Seg h' p' (c :: cells) n ∧
      ∀ b, b ≠ c.1 → h' b = h b := by
  refine ⟨_, Heap.modify?_of_some hseg.1 _, ?_, fun b hb => Heap.put_other hb _⟩
  have hout : ∀ a ∈ addrs cells, a ≠ c.1 := by
    intro a ha hac
    subst hac
    exact (List.nodup_cons.1 hnodup).1 ha
  refine ⟨by simp, hseg.2.frame fun a ha => Heap.put_other (hout a ha) _⟩

theorem Seg.linkPrev {h : Heap α} {p : Option Nat} {cells : List (Nat × α)}
    (hseg : Seg h p cells none) (hnodup : (addrs cells).Nodup) (p' : Option Nat) :
    ∃ h', h.linkPrev (firstPtr cells none) p' = some h' ∧ Seg h' p' cells none ∧
      ∀ b, b ∉ addrs cells → h' b = h b := by
  cases cells with
  | nil => exact ⟨h, rfl, trivial, fun _ _ => rfl⟩
  | cons c cells =>
      rcases hseg.relinkPrev hnodup p' with ⟨h', hset, hseg', hother⟩
      refine ⟨h', hset, hseg', fun b hb => hother b ?_⟩
      rintro rfl
      simp at hb

/-- The search finds the first cell whose value has the property. -/
theorem Seg.findFrom {h : Heap α} {p : Option Nat} {cells : List (Nat × α)} {fuel : Nat}
    (hseg : Seg h p cells none) (hfuel : cells.length < fuel) (test : α → Bool) :
    h.findFrom test fuel (firstPtr cells none) =
      some ((cells.find? fun c => test c.2).map Prod.fst) := by
  induction cells generalizing fuel p with
  | nil =>
      cases fuel with
      | zero => exact absurd hfuel (Nat.not_lt_zero _)
      | succ fuel => rfl
  | cons c cells ih =>
      cases fuel with
      | zero => exact absurd hfuel (Nat.not_lt_zero _)
      | succ fuel =>
          -- the fuel counts the cells that are left
          have hrest := ih hseg.2 (Nat.lt_of_succ_lt_succ hfuel)
          cases htest : test c.2 with
          | true => simp [Heap.findFrom, hseg.1, htest]
          | false => simp [Heap.findFrom, hseg.1, htest, hrest]

/-! ## Walks -/

/-- Following `next` from a pointer until NULL visits these cells. -/
inductive WalkNext (h : Heap α) : Option Nat → List (Nat × α) → Prop
  | stop : WalkNext h none []
  | step {a : Nat} {n : Node α} {cells : List (Nat × α)} :
      h a = some n → WalkNext h n.next cells → WalkNext h (some a) ((a, n.val) :: cells)

/-- Following `prev` from a pointer until NULL visits these cells. -/
inductive WalkPrev (h : Heap α) : Option Nat → List (Nat × α) → Prop
  | stop : WalkPrev h none []
  | step {a : Nat} {n : Node α} {cells : List (Nat × α)} :
      h a = some n → WalkPrev h n.prev cells → WalkPrev h (some a) ((a, n.val) :: cells)

theorem Seg.walkNext {h : Heap α} {p : Option Nat} {cells : List (Nat × α)}
    (hseg : Seg h p cells none) : WalkNext h (firstPtr cells none) cells := by
  induction cells generalizing p with
  | nil => exact WalkNext.stop
  | cons c cells ih => exact WalkNext.step hseg.1 (ih hseg.2)

/-- Walking back from the last cell visits the cells in the opposite order, and then whatever is
visited from the pointer they start from. -/
theorem Seg.walkPrev_append {h : Heap α} {p n : Option Nat} {cells before : List (Nat × α)}
    (hseg : Seg h p cells n) (hbefore : WalkPrev h p before) :
    WalkPrev h (lastPtr p cells) (cells.reverse ++ before) := by
  induction cells generalizing p before with
  | nil => exact hbefore
  | cons c cells ih =>
      -- from `c` the walk goes on with what comes before the segment
      have hc : WalkPrev h (some c.1) (c :: before) := WalkPrev.step hseg.1 hbefore
      simpa [lastPtr] using ih hseg.2 hc

theorem Seg.walkPrev {h : Heap α} {n : Option Nat} {cells : List (Nat × α)}
    (hseg : Seg h none cells n) : WalkPrev h (lastPtr none cells) cells.reverse := by
  simpa using hseg.walkPrev_append WalkPrev.stop

end Lib
end AbsPlatform

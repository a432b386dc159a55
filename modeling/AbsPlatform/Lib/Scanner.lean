import Mathlib.Data.List.Basic

/-!
# Scanner — programs that move a pointer through a block

A pointer is the list of the elements from it to the end of its block.  A scanner reads through the
pointer and moves it.  It may report a failure at the place where the pointer is; following the
pointer at the end of the block, or moving it past that end, is a fault.

Two ways to reason about a scanner: an equation `p s = .done a rest` for a text that is known
(`bind_done` chains them), and `Outcome.Ends`, which excludes faults and says what holds wherever
the scanner stops.
-/

namespace AbsPlatform
namespace Lib

/-- How a scanner ends: outside of the block, with a failure at a place, or with a value and the
pointer. -/
inductive Outcome (β α : Type)
  | fault
  | fail (place : List β)
  | done (value : α) (rest : List β)
  deriving DecidableEq

def Scanner (β α : Type) : Type :=
  List β → Outcome β α

namespace Scanner

variable {β α γ : Type}

def ret (a : α) : Scanner β α := fun s => .done a s

def andThen (p : Scanner β α) (f : α → Scanner β γ) : Scanner β γ := fun s =>
  match p s with
  | .fault => .fault
  | .fail place => .fail place
  | .done a rest => f a rest

instance : Monad (Scanner β) where
  pure := ret
  bind := andThen

/-- Report a failure at the pointer. -/
def failHere : Scanner β α := fun s => .fail s

/-- Leave the block. -/
def outside : Scanner β α := fun _ => .fault

/-- `p[n]`. -/
def peekAt (n : Nat) : Scanner β β := fun s =>
  match s[n]? with
  | none => .fault
  | some c => .done c s

/-- `*p`. -/
def peek : Scanner β β := peekAt 0

/-- `p += n`. -/
def advance (n : Nat) : Scanner β Unit := fun s =>
  if n ≤ s.length then .done () (s.drop n) else .fault

/-- A look at the text that does not move the pointer, `none` when it leaves the block. -/
def look (f : List β → Option α) : Scanner β α := fun s =>
  match f s with
  | none => .fault
  | some a => .done a s

variable {p : Scanner β α} {f : α → Scanner β γ} {s rest : List β} {a : α} {c : β}

@[simp] theorem pure_apply (a : α) (s : List β) : (pure a : Scanner β α) s = .done a s := rfl

theorem bind_done (h : p s = .done a rest) : (p >>= f) s = f a rest := by
  show andThen p f s = f a rest
  simp [andThen, h]

theorem bind_fault (h : p s = .fault) : (p >>= f) s = .fault := by
  show andThen p f s = .fault
  simp [andThen, h]

@[simp] theorem peek_cons (c : β) (s : List β) : (peek : Scanner β β) (c :: s) = .done c (c :: s) :=
  rfl

@[simp] theorem bind_peek_cons (f : β → Scanner β γ) (c : β) (s : List β) :
    (peek >>= f) (c :: s) = f c (c :: s) := rfl

@[simp] theorem bind_advance_one (f : Unit → Scanner β γ) (c : β) (s : List β) :
    (advance 1 >>= f) (c :: s) = f () s := by
  refine bind_done ?_
  simp [advance]

/-- The pointer moves over a word. -/
theorem advance_append (word : List β) {n : Nat} (h : word.length = n) (s : List β) :
    (advance n : Scanner β Unit) (word ++ s) = .done () s := by
  subst h
  simp [advance]

theorem look_some {g : List β → Option α} (h : g s = some a) : look g s = .done a s := by
  simp [look, h]

end Scanner

/-! ## Without faults -/

namespace Outcome

variable {β α γ : Type}

/-- No fault, a failure only at a place of the given kind, and a value of the other kind. -/
def Ends (At : List β → Prop) (Q : α → List β → Prop) : Outcome β α → Prop
  | fault => False
  | fail place => At place
  | done a rest => Q a rest

variable {At : List β → Prop} {Q Q' : α → List β → Prop} {R : γ → List β → Prop} {o : Outcome β α}

theorem Ends.imp (h : o.Ends At Q) (hQ : ∀ a rest, Q a rest → Q' a rest) : o.Ends At Q' := by
  cases o with
  | fault => exact h
  | fail place => exact h
  | done a rest => exact hQ a rest h

theorem Ends.bind {p : Scanner β α} {f : α → Scanner β γ} {s : List β} (hp : (p s).Ends At Q)
    (hf : ∀ a rest, Q a rest → (f a rest).Ends At R) : ((p >>= f) s).Ends At R := by
  show (Scanner.andThen p f s).Ends At R
  unfold Scanner.andThen
  cases ho : p s with
  | fault =>
      rw [ho] at hp
      exact hp
  | fail place =>
      rw [ho] at hp
      exact hp
  | done a rest =>
      rw [ho] at hp
      exact hf a rest hp

end Outcome
end Lib
end AbsPlatform

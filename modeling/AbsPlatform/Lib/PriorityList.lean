import Mathlib.Data.List.Sort

/-!
# PriorityList — a stable priority list

The entries carry the number of the push that added them.  They are kept in non-increasing
priority, and entries of one priority in the order they were pushed; both facts are fields of the
structure.
-/

namespace AbsPlatform
namespace Lib

variable {α β : Type} [LinearOrder β]

/-- The first entry stands in front of the second: a higher priority, or the same and pushed
earlier. -/
def Before (prio : α → β) (a b : Nat × α) : Prop :=
  prio b.2 < prio a.2 ∨ (prio a.2 = prio b.2 ∧ a.1 < b.1)

instance (prio : α → β) : DecidableRel (Before prio) := fun a b =>
  inferInstanceAs (Decidable (prio b.2 < prio a.2 ∨ (prio a.2 = prio b.2 ∧ a.1 < b.1)))

theorem Before.trans {prio : α → β} {a b c : Nat × α} (hab : Before prio a b)
    (hbc : Before prio b c) : Before prio a c := by
  rcases hab with hab | ⟨hab, hstamp⟩
  · rcases hbc with hbc | ⟨hbc, _⟩
    · exact Or.inl (hbc.trans hab)
    · exact Or.inl (hbc ▸ hab)
  · rcases hbc with hbc | ⟨hbc, hstamp'⟩
    · exact Or.inl (hab ▸ hbc)
    · exact Or.inr ⟨hab.trans hbc, hstamp.trans hstamp'⟩

/-- Of an entry and an older one, one stands in front of the other, and the priority alone
decides. -/
theorem before_iff_of_older {prio : α → β} {a b : Nat × α} (hold : b.1 < a.1) :
    Before prio a b ↔ prio b.2 < prio a.2 := by
  constructor
  · intro h
    rcases h with h | ⟨_, hstamp⟩
    · exact h
    · exact absurd hstamp (Nat.not_lt.2 (Nat.le_of_lt hold))
  · exact Or.inl

theorem before_of_not_before {prio : α → β} {a b : Nat × α} (hold : b.1 < a.1)
    (h : ¬ Before prio a b) : Before prio b a := by
  rw [before_iff_of_older hold, not_lt] at h
  rcases h.lt_or_eq with h | h
  · exact Or.inl h
  · exact Or.inr ⟨h.symm, hold⟩

/-! ## Inserting at the back -/

section Insert

variable {γ : Type} {r : γ → γ → Prop} [DecidableRel r]

/-- An entry that stands in front of the last one is inserted among the others. -/
theorem orderedInsert_concat_of_rel {x t : γ} (h : r x t) (init : List γ) :
    (init ++ [t]).orderedInsert r x = init.orderedInsert r x ++ [t] := by
  induction init with
  | nil => simp [h]
  | cons a init ih =>
      by_cases ha : r x a
      · simp [ha]
      · simp [ha, ih]

/-- An entry that stands in front of none of the others goes to the back. -/
theorem orderedInsert_of_forall_not {x : γ} {l : List γ} (h : ∀ a ∈ l, ¬ r x a) :
    l.orderedInsert r x = l ++ [x] := by
  induction l with
  | nil => rfl
  | cons a l ih =>
      have hl : ∀ b ∈ l, ¬ r x b := fun b hb => h b (List.mem_cons_of_mem a hb)
      simp [h a (by simp), ih hl]

/-- Inserting keeps a list in order when the order is decided between the new entry and each of
the others. -/
theorem pairwise_orderedInsert (htrans : ∀ {a b c : γ}, r a b → r b c → r a c) {x : γ}
    {l : List γ} (hl : l.Pairwise r) (hx : ∀ b ∈ l, ¬ r x b → r b x) :
    (l.orderedInsert r x).Pairwise r := by
  induction l with
  | nil => simp
  | cons a l ih =>
      rw [List.pairwise_cons] at hl
      -- the new entry stands in front of `a`, or it is inserted somewhere behind it
      by_cases ha : r x a
      · rw [List.orderedInsert_cons_of_le r l ha]
        refine List.pairwise_cons.2 ⟨?_, List.pairwise_cons.2 hl⟩
        intro b hb
        rcases List.mem_cons.1 hb with rfl | hb
        · exact ha
        · exact htrans ha (hl.1 b hb)
      · rw [List.orderedInsert_of_not_le r l ha]
        refine List.pairwise_cons.2 ⟨?_, ih hl.2 fun b hb => hx b (List.mem_cons_of_mem a hb)⟩
        intro b hb
        rcases (List.mem_orderedInsert r).1 hb with rfl | hb
        · exact hx a (by simp) ha
        · exact hl.1 b hb

-- `List.map_orderedInsert` also asks that the other direction of the relation is kept, which fails
-- for entries of one priority: only the tests an insertion makes are needed.
theorem map_orderedInsert_of_iff {δ : Type} {s : δ → δ → Prop} [DecidableRel s] (f : γ → δ)
    {x : γ} {l : List γ} (h : ∀ a ∈ l, r x a ↔ s (f x) (f a)) :
    (l.orderedInsert r x).map f = (l.map f).orderedInsert s (f x) := by
  induction l with
  | nil => rfl
  | cons a l ih =>
      have hl := ih fun b hb => h b (List.mem_cons_of_mem a hb)
      have ha := h a (by simp)
      by_cases hxa : r x a
      · simp [hxa, ha.1 hxa]
      · simp [hxa, mt ha.2 hxa, hl]

end Insert

/-! ## The data type -/

structure PriorityList (prio : α → β) where
  entries : List (Nat × α)
  pushed : Nat
  sorted : entries.Pairwise (Before prio)
  older : ∀ e ∈ entries, e.1 < pushed

namespace PriorityList

variable {prio : α → β}

def empty : PriorityList prio where
  entries := []
  pushed := 0
  sorted := List.Pairwise.nil
  older := by simp

/-- The values, front first. -/
def values (S : PriorityList prio) : List α := S.entries.map Prod.snd

def push (S : PriorityList prio) (x : α) : PriorityList prio where
  entries := S.entries.orderedInsert (Before prio) (S.pushed, x)
  pushed := S.pushed + 1
  sorted :=
    pairwise_orderedInsert Before.trans S.sorted fun e he => before_of_not_before (S.older e he)
  older := by
    intro e he
    rcases (List.mem_orderedInsert _).1 he with rfl | he
    · exact Nat.lt_succ_self _
    · exact (S.older e he).trans (Nat.lt_succ_self _)

/-- Remove and return the first value that passes the test. -/
def take (S : PriorityList prio) (test : α → Bool) : PriorityList prio × Option α :=
  ({ entries := S.entries.eraseP fun e => test e.2
     pushed := S.pushed
     sorted := S.sorted.sublist List.eraseP_sublist
     older := fun e he => S.older e (List.mem_of_mem_eraseP he) },
   S.values.find? test)

/-- The list without its front entry. -/
def tail (S : PriorityList prio) : PriorityList prio where
  entries := S.entries.tail
  pushed := S.pushed
  sorted := S.sorted.sublist (List.tail_sublist _)
  older := fun e he => S.older e (List.mem_of_mem_tail he)

/-- Remove and return the front value. -/
def pop? (S : PriorityList prio) : Option (PriorityList prio × α) :=
  S.values.head?.map fun x => (S.tail, x)

/-- The values are in non-increasing priority. -/
theorem values_sorted (S : PriorityList prio) :
    S.values.Pairwise fun a b => ¬ prio a < prio b := by
  refine List.pairwise_map.2 (S.sorted.imp ?_)
  intro a b h
  rcases h with h | ⟨h, _⟩
  · exact not_lt.2 h.le
  · exact not_lt.2 h.ge

/-- A push inserts the value where its priority alone says. -/
theorem values_push (S : PriorityList prio) (x : α) :
    (S.push x).values = S.values.orderedInsert (fun a b => prio b < prio a) x := by
  refine map_orderedInsert_of_iff Prod.snd ?_
  intro e he
  exact before_iff_of_older (S.older e he)

theorem values_take (S : PriorityList prio) (test : α → Bool) :
    (S.take test).1.values = S.values.eraseP test := by
  simp [take, values, List.eraseP_map, Function.comp_def]

theorem values_push_perm (S : PriorityList prio) (x : α) :
    (S.push x).values.Perm (x :: S.values) := by
  rw [values_push]
  exact List.perm_orderedInsert _ _ _

/-- The value that is taken, and the others. -/
theorem values_take_perm {S : PriorityList prio} {test : α → Bool} {x : α}
    (h : S.values.find? test = some x) : S.values.Perm (x :: (S.take test).1.values) := by
  rcases List.find?_eq_some_iff_append.1 h with ⟨hx, front, back, hvalues, hfront⟩
  have herase : S.values.eraseP test = front ++ back := by
    rw [hvalues, List.eraseP_append_right _ (by simpa using hfront)]
    simp [hx]
  rw [values_take, herase, hvalues]
  exact List.perm_middle

theorem pop?_of_values {S : PriorityList prio} {x : α} {rest : List α}
    (h : S.values = x :: rest) : ∃ S', S.pop? = some (S', x) ∧ S'.values = rest := by
  refine ⟨S.tail, by simp [pop?, h], ?_⟩
  simpa [values, tail, List.map_tail] using congrArg List.tail h

end PriorityList

end Lib
end AbsPlatform

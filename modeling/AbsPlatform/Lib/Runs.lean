import Mathlib.Logic.Basic

/-!
# Runs — a partial step function taken again and again

A run of `step : σ → α → Option σ` from a state is the `foldlM` of its actions; it is `none` as soon
as one of them cannot be taken.  Three rules: a relation with a second machine that each step keeps
holds after every run, an invariant of each step is one of every run, and what a step brings about
is avoided in every state of a run exactly when no action of the run does so.  For a run that is
given, the states can be computed (`all_states`).
-/

namespace AbsPlatform
namespace Lib

variable {σ α : Type} {step : σ → α → Option σ} {s s' : σ} {a : α} {acts : List α}

theorem run_cons (h : step s a = some s') (acts : List α) :
    (a :: acts).foldlM step s = acts.foldlM step s' := by
  simp [List.foldlM_cons, h]

/-- The first action of a run can be taken. -/
theorem run_cons_inv (h : (a :: acts).foldlM step s = some s') :
    ∃ s₁, step s a = some s₁ ∧ acts.foldlM step s₁ = some s' := by
  cases hstep : step s a with
  | none => simp [List.foldlM_cons, hstep] at h
  | some s₁ => exact ⟨s₁, rfl, (run_cons hstep acts).symm.trans h⟩

/-- A run and one more action. -/
theorem run_snoc {u : σ} (h : acts.foldlM step s = some u) (hact : step u a = some s') :
    (acts ++ [a]).foldlM step s = some s' := by
  simp [List.foldlM_append, h, hact]

theorem run_snoc_iff : (acts ++ [a]).foldlM step s = some s' ↔
    ∃ u, acts.foldlM step s = some u ∧ step u a = some s' := by
  simp [List.foldlM_append, Option.bind_eq_some_iff]

/-- What holds of every action of a list, together with the actions before it, and one more. -/
theorem forall_split_snoc {P : List α → α → Prop} :
    (∀ pre b post, acts ++ [a] = pre ++ b :: post → P pre b) ↔
      (∀ pre b post, acts = pre ++ b :: post → P pre b) ∧ P acts a := by
  constructor
  · intro hall
    refine ⟨?_, hall acts a [] rfl⟩
    rintro pre b post rfl
    exact hall pre b (post ++ [a]) (by simp)
  · rintro ⟨hall, hlast⟩ pre b post hsplit
    rcases List.eq_nil_or_concat post with rfl | ⟨post, c, rfl⟩
    · rcases List.append_inj' hsplit rfl with ⟨rfl, hab⟩
      cases hab
      exact hlast
    · rw [List.concat_eq_append, ← List.cons_append, ← List.append_assoc] at hsplit
      exact hall pre b post (List.append_inj' hsplit rfl).1

/-- A relation with a second machine that takes the same actions and never stops. -/
theorem run_simulates {τ : Type} {f : τ → α → τ} {t : τ} {R : σ → τ → Prop}
    {C : σ → α → Prop} (hstep : ∀ {s s' t a}, R s t → C s a → step s a = some s' → R s' (f t a))
    (hinit : R s t)
    (hall : ∀ pre a post u, acts = pre ++ a :: post → pre.foldlM step s = some u → C u a)
    (h : acts.foldlM step s = some s') : R s' (acts.foldl f t) := by
  induction acts generalizing s t with
  | nil =>
      cases h
      exact hinit
  | cons a acts ih =>
      rcases run_cons_inv h with ⟨s₁, hs₁, h₁⟩
      refine ih (hstep hinit (hall [] a acts s rfl rfl) hs₁) ?_ h₁
      intro pre b post u hsplit hpre
      exact hall (a :: pre) b post u (congrArg (List.cons a) hsplit) ((run_cons hs₁ pre).trans hpre)

/-- An invariant of the runs whose actions satisfy a condition. -/
theorem run_invariant_of {I : σ → Prop} {C : σ → α → Prop}
    (hstep : ∀ {s s' a}, I s → C s a → step s a = some s' → I s') (hinit : I s)
    (hall : ∀ pre a post u, acts = pre ++ a :: post → pre.foldlM step s = some u → C u a)
    (h : acts.foldlM step s = some s') : I s' :=
  run_simulates (R := fun s (_ : Unit) => I s) (f := fun t _ => t) (t := ())
    (fun hs hC hact => hstep hs hC hact) hinit hall h

/-- An invariant of every run. -/
theorem run_invariant {I : σ → Prop} (hstep : ∀ {s s' a}, I s → step s a = some s' → I s')
    (hinit : I s) (h : acts.foldlM step s = some s') : I s' :=
  run_invariant_of (C := fun _ _ => True) (fun hs _ hact => hstep hs hact) hinit
    (fun _ _ _ _ _ _ => trivial) h

/-- Every action of a run leads to a state. -/
theorem step_of_run {pre post : List α} {u : σ} (hpre : pre.foldlM step s = some u)
    (h : (pre ++ a :: post).foldlM step s = some s') : ∃ u', step u a = some u' := by
  rw [List.foldlM_append, hpre] at h
  rcases run_cons_inv h with ⟨u', hu', _⟩
  exact ⟨u', hu'⟩

/-- Every part of a run from its beginning is a run. -/
theorem isSome_of_run {pre post : List α} (h : acts.foldlM step s = some s')
    (hsplit : acts = pre ++ post) : (pre.foldlM step s).isSome = true := by
  rw [hsplit, List.foldlM_append] at h
  cases hpre : pre.foldlM step s with
  | none => simp [hpre] at h
  | some u => rfl

/-- What a check of each action of a run, in the state before it, finds. -/
theorem all_actions {f : σ → α → Bool} {pre post : List α} {u : σ}
    (hall : ∀ n < acts.length,
      ((acts.take n).foldlM step s).all (fun u => (acts[n]?).all (f u)) = true)
    (hsplit : acts = pre ++ a :: post) (hpre : pre.foldlM step s = some u) : f u a = true := by
  have htake : acts.take pre.length = pre := by simp [hsplit]
  have hact : acts[pre.length]? = some a := by simp [hsplit]
  have hu := hall pre.length (by simp [hsplit])
  rw [htake, hpre, hact] at hu
  exact hu

/-- What a check of the state before each action of a run finds. -/
theorem all_states {f : σ → Bool} {pre post : List α} {u : σ}
    (hall : ∀ n < acts.length, ((acts.take n).foldlM step s).all f = true)
    (hsplit : acts = pre ++ a :: post) (hpre : pre.foldlM step s = some u) : f u = true := by
  refine all_actions (f := fun u _ => f u) (fun n hn => ?_) hsplit hpre
  rw [List.getElem?_eq_getElem hn]
  exact hall n hn

/-- The action of a run that comes after `n` others of a kind. -/
theorem exists_split_of_lt_countP {p : α → Bool} {n : Nat} (h : n < acts.countP p) :
    ∃ pre a post, acts = pre ++ a :: post ∧ p a = true ∧ pre.countP p = n := by
  induction acts generalizing n with
  | nil => simp at h
  | cons a acts ih =>
      by_cases ha : p a = true
      · cases n with
        | zero => exact ⟨[], a, acts, rfl, ha, rfl⟩
        | succ n =>
            rw [List.countP_cons_of_pos ha] at h
            rcases ih (Nat.lt_of_succ_lt_succ h) with ⟨pre, b, post, rfl, hb, hcount⟩
            exact ⟨a :: pre, b, post, rfl, hb, by rw [List.countP_cons_of_pos ha, hcount]⟩
      · rw [List.countP_cons_of_neg ha] at h
        rcases ih h with ⟨pre, b, post, rfl, hb, hcount⟩
        exact ⟨a :: pre, b, post, rfl, hb, by rw [List.countP_cons_of_neg ha, hcount]⟩

/-- When a step leads from a good state to a bad one exactly if it is a trigger, a run stays good
exactly if it has no trigger. -/
theorem never_iff {I Bad : σ → Prop} {Trigger : σ → α → Prop}
    (hinv : ∀ {s s' a}, I s → step s a = some s' → I s')
    (htrigger : ∀ {s s' a}, I s → ¬ Bad s → step s a = some s' → (Bad s' ↔ Trigger s a))
    (hinit : I s) (hgood : ¬ Bad s) (hrun : acts.foldlM step s = some s') :
    (∀ pre post u, acts = pre ++ post → pre.foldlM step s = some u → ¬ Bad u) ↔
      ∀ pre a post u, acts = pre ++ a :: post → pre.foldlM step s = some u → ¬ Trigger u a := by
  -- the first step decides about the state after it, and the rest is a run from there
  induction acts generalizing s with
  | nil =>
      refine iff_of_true ?_ ?_
      · intro pre post u hsplit hpre
        have hnil : pre = [] := (List.append_eq_nil_iff.1 hsplit.symm).1
        subst hnil
        cases hpre
        exact hgood
      · intro pre a post u hsplit
        simp at hsplit
  | cons a acts ih =>
      rcases run_cons_inv hrun with ⟨s₁, hs₁, hrun₁⟩
      have hfirst := htrigger hinit hgood hs₁
      have hih := fun hgood₁ => ih (hinv hinit hs₁) hgood₁ hrun₁
      constructor
      · intro hall pre b post u hsplit hpre
        -- the state after the first step is one of the states of the run
        have hgood₁ : ¬ Bad s₁ := hall [a] acts s₁ rfl (run_cons hs₁ [])
        cases pre with
        | nil =>
            cases hsplit
            cases hpre
            exact fun htrig => hgood₁ (hfirst.2 htrig)
        | cons a' pre =>
            cases hsplit
            rw [run_cons hs₁] at hpre
            refine (hih hgood₁).1 (fun pre' post' u' hsplit' hpre' => ?_) pre b post u rfl hpre
            exact hall (a :: pre') post' u' (congrArg (List.cons a) hsplit')
              ((run_cons hs₁ pre').trans hpre')
      · intro hall pre post u hsplit hpre
        -- the first step is no trigger, so the state after it is good as well
        have hgood₁ : ¬ Bad s₁ := fun hbad => hall [] a acts s rfl rfl (hfirst.1 hbad)
        cases pre with
        | nil =>
            cases hpre
            exact hgood
        | cons a' pre =>
            cases hsplit
            rw [run_cons hs₁] at hpre
            refine (hih hgood₁).2 (fun pre' b post' u' hsplit' hpre' => ?_) pre post u rfl hpre
            exact hall (a :: pre') b post' u' (congrArg (List.cons a) hsplit')
              ((run_cons hs₁ pre').trans hpre')

end Lib
end AbsPlatform

import Mathlib.Data.List.Basic
import AbsPlatform.Lib.Runs
import AbsPlatform.LibSDB.Callbacks

/-!
# CallbackTable — the callbacks as a finite map

`sdb_register_callback` and `sdb_unregister_callback` of `Libraries/SDB/sdb.c` against what they are
for: a map from commands to callbacks.  The list is an array with a fill position.  Removing an
element moves those behind it down by one and leaves the position where it was, so that the last
element stays behind as a copy.
-/

namespace AbsPlatform
namespace LibSDB

variable {α : Type}

/-! ## sdb_unregister_callback -/

/-- The loop over the elements from one position on: each is overwritten by the next one. -/
def shiftDown {β : Type} : List β → List β
  | [] => []
  | [e] => [e]
  | _ :: e :: rest => e :: shiftDown (e :: rest)

@[simp] theorem length_shiftDown {β : Type} (l : List β) : (shiftDown l).length = l.length := by
  induction l using shiftDown.induct with
  | case1 => rfl
  | case2 e => rfl
  | case3 e e' rest ih => simp [shiftDown, ih]

/-- All but the first element are there afterwards, and the last one twice. -/
theorem mem_shiftDown {β : Type} {e x : β} {rest : List β} (hrest : rest ≠ []) :
    x ∈ shiftDown (e :: rest) ↔ x ∈ rest := by
  induction rest generalizing e with
  | nil => exact absurd rfl hrest
  | cons e' rest ih =>
      cases rest with
      | nil => simp [shiftDown]
      | cons e'' rest =>
          rw [shiftDown, List.mem_cons, ih (by simp)]
          exact List.mem_cons.symm

def CallbackList.shift (s : CallbackList α) (index : Nat) : CallbackList α where
  size := s.size
  entries := s.entries.take index ++ shiftDown (s.entries.drop index)
  locked := s.locked
  min_le := s.min_le
  entries_le := by
    have hle := s.entries_le
    simp only [List.length_append, length_shiftDown, List.length_take, List.length_drop]
    omega

/-- `sdb_unregister_callback`, `none` when the lock is never released. -/
def sdbUnregisterCallback (s : CallbackList α) (cmd : UInt32) : Option (CallbackList α × Int) :=
  if s.locked then none
  else
    match s.getCallbackIndex cmd with
    | none => some (s, 0)
    | some index => some (s.shift index, 0)

/-! ## Calls -/

inductive TableCall (α : Type)
  /-- `none` for NULL -/
  | register (cmd : UInt32) (callback : Option α)
  | unregister (cmd : UInt32)

def TableCall.run (s : CallbackList α) : TableCall α → Option (CallbackList α × Int)
  | register cmd callback => sdbRegisterCallback s cmd callback
  | unregister cmd => sdbUnregisterCallback s cmd

/-- The list after a call that returns. -/
def CallbackList.call (s : CallbackList α) (c : TableCall α) : Option (CallbackList α) :=
  (c.run s).map Prod.fst

/-- The callback that is found for a command. -/
def CallbackList.lookup (s : CallbackList α) (cmd : UInt32) : Option α :=
  ((s.getCallbackIndex cmd).bind (s.entries[·]?)).map Prod.snd

/-! ## The map -/

abbrev CallbackMap (α : Type) := UInt32 → Option α

/-- What a call is for, with its return value. -/
def CallbackMap.call (m : CallbackMap α) : TableCall α → CallbackMap α × Int
  | .register _ none => (m, -1)
  | .register cmd (some callback) =>
      if (m cmd).isSome then (m, -1) else (Function.update m cmd (some callback), 0)
  | .unregister cmd => (Function.update m cmd none, 0)

theorem CallbackMap.call_of_registered {m : CallbackMap α} {cmd : UInt32} {old : α}
    (h : m cmd = some old) (callback : α) : m.call (.register cmd (some callback)) = (m, -1) := by
  simp [call, h]

theorem CallbackMap.call_of_free {m : CallbackMap α} {cmd : UInt32} (h : m cmd = none)
    (callback : α) :
    m.call (.register cmd (some callback)) = (Function.update m cmd (some callback), 0) := by
  simp [call, h]

@[simp] theorem CallbackMap.call_unregister (m : CallbackMap α) (cmd : UInt32) :
    m.call (.unregister cmd) = (Function.update m cmd none, 0) :=
  rfl

/-- The map after a sequence of calls. -/
def mapAfter (calls : List (TableCall α)) : CallbackMap α :=
  calls.foldl (fun m c => (m.call c).1) fun _ => none

/-! ## Lookups -/

/-- Elements for one command are copies of each other. -/
def CallbackList.Consistent (s : CallbackList α) : Prop :=
  ∀ e ∈ s.entries, ∀ e' ∈ s.entries, e.1 = e'.1 → e = e'

section

variable {s : CallbackList α} {cmd : UInt32} {callback : α}

theorem CallbackList.lookup_eq_none_iff : s.lookup cmd = none ↔ ∀ e ∈ s.entries, e.1 ≠ cmd := by
  rw [lookup, getElem?_getCallbackIndex, Option.map_eq_none_iff, List.find?_eq_none]
  simp

theorem CallbackList.lookup_eq_some_iff (hs : s.Consistent) :
    s.lookup cmd = some callback ↔ (cmd, callback) ∈ s.entries := by
  rw [lookup, getElem?_getCallbackIndex, Option.map_eq_some_iff]
  constructor
  · rintro ⟨e, he, rfl⟩
    have hcmd : e.1 = cmd := by simpa using List.find?_some he
    rw [← hcmd]
    exact List.mem_of_find?_eq_some he
  · intro hmem
    cases hfind : s.entries.find? (fun e => e.1 = cmd) with
    | none => simpa using List.find?_eq_none.1 hfind _ hmem
    | some e =>
        have hcmd : e.1 = cmd := by simpa using List.find?_some hfind
        refine ⟨e, rfl, ?_⟩
        rw [hs e (List.mem_of_find?_eq_some hfind) _ hmem hcmd]

/-- Two lists with the same elements for a command find the same. -/
theorem CallbackList.lookup_congr {s' : CallbackList α} (hs : s.Consistent) (hs' : s'.Consistent)
    (h : ∀ callback, (cmd, callback) ∈ s.entries ↔ (cmd, callback) ∈ s'.entries) :
    s.lookup cmd = s'.lookup cmd := by
  refine Option.ext fun callback => ?_
  rw [lookup_eq_some_iff hs, lookup_eq_some_iff hs', h]

theorem CallbackList.isSome_getCallbackIndex :
    (s.getCallbackIndex cmd).isSome = (s.lookup cmd).isSome := by
  cases hindex : s.getCallbackIndex cmd with
  | none => simp [lookup, hindex]
  | some index =>
      have hlt : index < s.entries.length := (List.findIdx?_eq_some_iff_getElem.1 hindex).1
      simp [lookup, hindex, hlt]

/-! ## Adding and removing an element -/

theorem CallbackList.consistent_add (hs : s.Consistent) (hnew : s.lookup cmd = none) :
    (s.add cmd callback).Consistent := by
  have hother := lookup_eq_none_iff.1 hnew
  intro e he e' he' hsame
  rw [add, List.mem_append, List.mem_singleton] at he he'
  rcases he with he | rfl <;> rcases he' with he' | rfl
  · exact hs e he e' he' hsame
  · exact absurd hsame (hother e he)
  · exact absurd hsame.symm (hother e' he')
  · rfl

theorem CallbackList.lookup_add (hs : s.Consistent) (hnew : s.lookup cmd = none) :
    (s.add cmd callback).lookup = Function.update s.lookup cmd (some callback) := by
  have hadd : (s.add cmd callback).Consistent := consistent_add hs hnew
  funext c
  by_cases hc : c = cmd
  · subst hc
    rw [Function.update_self, lookup_eq_some_iff hadd]
    simp [add]
  · rw [Function.update_of_ne hc]
    refine lookup_congr hadd hs fun f => ?_
    simp [add, hc]

/-- The element that is removed, with those in front of it and behind it. -/
theorem CallbackList.split_of_index {index : Nat} (h : s.getCallbackIndex cmd = some index) :
    ∃ pre e rest, s.entries = pre ++ e :: rest ∧ e.1 = cmd ∧ (∀ x ∈ pre, x.1 ≠ cmd) ∧
      (s.shift index).entries = pre ++ shiftDown (e :: rest) := by
  rcases List.findIdx?_eq_some_iff_getElem.1 h with ⟨hlt, he, hbefore⟩
  have hdrop : s.entries.drop index = s.entries[index] :: s.entries.drop (index + 1) :=
    List.drop_eq_getElem_cons hlt
  refine ⟨s.entries.take index, s.entries[index], s.entries.drop (index + 1), ?_, by simpa using he,
    ?_, ?_⟩
  · rw [← hdrop, List.take_append_drop]
  · intro x hx
    rcases List.mem_take_iff_getElem.1 hx with ⟨j, hj, rfl⟩
    simpa using hbefore j (by omega)
  · exact congrArg (fun l => s.entries.take index ++ shiftDown l) hdrop

/-- Every element for the command has others behind it, and none of these is for the command. -/
def CallbackList.Removable (s : CallbackList α) (cmd : UInt32) : Prop :=
  ∀ pre e rest, s.entries = pre ++ e :: rest → e.1 = cmd →
    rest ≠ [] ∧ ∀ e' ∈ rest, e'.1 ≠ cmd

theorem CallbackList.consistent_shift (hs : s.Consistent) {index : Nat}
    (hindex : s.getCallbackIndex cmd = some index) : (s.shift index).Consistent := by
  rcases split_of_index hindex with ⟨pre, e, rest, hentries, _, _, hshift⟩
  have hsub : ∀ x ∈ (s.shift index).entries, x ∈ s.entries := by
    intro x hx
    rw [hshift, List.mem_append] at hx
    rw [hentries, List.mem_append, List.mem_cons]
    rcases hx with hx | hx
    · exact .inl hx
    · rcases List.eq_nil_or_concat rest with hnil | ⟨_, _, hconcat⟩
      · subst hnil
        exact .inr (.inl (List.mem_singleton.1 hx))
      · rw [mem_shiftDown (by simp [hconcat])] at hx
        exact .inr (.inr hx)
  intro x hx y hy
  exact hs x (hsub x hx) y (hsub y hy)

/-- The command is gone exactly when its element was removable. -/
theorem CallbackList.lookup_shift_eq_none_iff {index : Nat}
    (hindex : s.getCallbackIndex cmd = some index) :
    (s.shift index).lookup cmd = none ↔ s.Removable cmd := by
  rcases split_of_index hindex with ⟨pre, e, rest, hentries, he, hpre, hshift⟩
  rw [lookup_eq_none_iff, hshift]
  constructor
  · intro hgone pre' e' rest' hentries' he'
    have hne : rest ≠ [] := by
      rintro rfl
      exact hgone e (by simp [shiftDown]) he
    have hrest : ∀ x ∈ rest, x.1 ≠ cmd := fun x hx =>
      hgone x (List.mem_append_right _ ((mem_shiftDown hne).2 hx))
    -- there is one element for the command, so the two ways to split are one
    have hsplit : pre ++ e :: rest = pre' ++ e' :: rest' := hentries.symm.trans hentries'
    rw [List.append_cons_inj_of_notMem (fun h => hpre e' h he') (fun h => hrest e' h he')] at hsplit
    rcases hsplit with ⟨_, _, rfl⟩
    exact ⟨hne, hrest⟩
  · intro hremovable x hx
    rcases hremovable pre e rest hentries he with ⟨hne, hrest⟩
    rw [List.mem_append, mem_shiftDown hne] at hx
    exact hx.elim (hpre x) (hrest x)

/-- The lookups of the other commands do not change. -/
theorem CallbackList.lookup_shift_of_ne (hs : s.Consistent) {index : Nat}
    (hindex : s.getCallbackIndex cmd = some index) {c : UInt32} (hc : c ≠ cmd) :
    (s.shift index).lookup c = s.lookup c := by
  refine lookup_congr (consistent_shift hs hindex) hs fun f => ?_
  rcases split_of_index hindex with ⟨pre, e, rest, hentries, he, _, hshift⟩
  have hne : (c, f) ≠ e := by
    rintro rfl
    exact hc he
  rw [hshift, hentries, List.mem_append, List.mem_append, List.mem_cons]
  cases rest with
  | nil => simp [shiftDown]
  | cons e' rest => simp [mem_shiftDown, hne]

end

/-! ## Refinement -/

/-- The list stands for the map. -/
structure Represents (s : CallbackList α) (m : CallbackMap α) : Prop where
  consistent : s.Consistent
  lookup : s.lookup = m

/-- The lock is free for a call that takes it, and what is removed is removable. -/
def CallbackList.Keeps (s : CallbackList α) : TableCall α → Prop
  | .register _ none => True
  | .register _ (some _) => s.locked = false
  | .unregister cmd => s.locked = false ∧ s.Removable cmd

theorem represents_init : Represents (CallbackList.init : CallbackList α) fun _ => none := by
  refine ⟨by simp [CallbackList.Consistent, CallbackList.init], ?_⟩
  funext cmd
  exact CallbackList.lookup_eq_none_iff.2 (by simp [CallbackList.init])

section

variable {s s' : CallbackList α} {m : CallbackMap α} {c : TableCall α}

theorem Represents.register (hs : Represents s m) (hlock : s.locked = false) (cmd : UInt32)
    (callback : α) :
    ∃ s', sdbRegisterCallback s cmd (some callback) =
        some (s', (m.call (.register cmd (some callback))).2) ∧
      Represents s' (m.call (.register cmd (some callback))).1 := by
  cases hfound : m cmd with
  | some old =>
      -- the call fails and keeps the lock
      have hindex : (s.getCallbackIndex cmd).isSome = true := by
        rw [CallbackList.isSome_getCallbackIndex, hs.lookup, hfound]
        rfl
      rw [CallbackMap.call_of_registered hfound]
      refine ⟨{ s with locked := true }, ?_, hs.consistent, hs.lookup⟩
      simp [sdbRegisterCallback, hlock, hindex]
  | none =>
      have hnew : s.lookup cmd = none := by rw [hs.lookup, hfound]
      have hindex : (s.getCallbackIndex cmd).isSome = false := by
        rw [CallbackList.isSome_getCallbackIndex, hnew]
        rfl
      rw [CallbackMap.call_of_free hfound, ← hs.lookup]
      refine ⟨s.add cmd callback, ?_, CallbackList.consistent_add hs.consistent hnew,
        CallbackList.lookup_add hs.consistent hnew⟩
      simp [sdbRegisterCallback, hlock, hindex]

theorem Represents.unregister (hs : Represents s m) (hlock : s.locked = false) {cmd : UInt32}
    (hremovable : s.Removable cmd) :
    ∃ s', sdbUnregisterCallback s cmd = some (s', 0) ∧
      Represents s' (Function.update m cmd none) := by
  cases hindex : s.getCallbackIndex cmd with
  | none =>
      have hnone : m cmd = none := by
        rw [← hs.lookup]
        simp [CallbackList.lookup, hindex]
      rw [← hnone, Function.update_eq_self]
      exact ⟨s, by simp [sdbUnregisterCallback, hlock, hindex], hs⟩
  | some index =>
      refine ⟨s.shift index, by simp [sdbUnregisterCallback, hlock, hindex],
        CallbackList.consistent_shift hs.consistent hindex, ?_⟩
      funext c
      by_cases hc : c = cmd
      · subst hc
        rw [Function.update_self]
        exact (CallbackList.lookup_shift_eq_none_iff hindex).2 hremovable
      · rw [Function.update_of_ne hc, ← hs.lookup]
        exact CallbackList.lookup_shift_of_ne hs.consistent hindex hc

/-- A call on the list does what the same call does on the map. -/
theorem Represents.run (hs : Represents s m) (hc : s.Keeps c) :
    ∃ s', c.run s = some (s', (m.call c).2) ∧ Represents s' (m.call c).1 := by
  cases c with
  | register cmd callback =>
      cases callback with
      | none => exact ⟨s, rfl, hs⟩
      | some callback => exact hs.register hc cmd callback
  | unregister cmd => exact hs.unregister hc.1 hc.2

theorem Represents.call (hs : Represents s m) (hc : s.Keeps c) (hcall : s.call c = some s') :
    Represents s' (m.call c).1 := by
  rcases hs.run hc with ⟨s₁, hrun, hs₁⟩
  rw [CallbackList.call, hrun] at hcall
  cases hcall
  exact hs₁

/-- A call that returns and leaves the right lookups meets the condition. -/
theorem keeps_of_run {r : Int} (hrun : c.run s = some (s', r))
    (hlookup : ∀ cmd, c = .unregister cmd → s'.lookup cmd = none) : s.Keeps c := by
  cases c with
  | register cmd callback =>
      cases callback with
      | none => trivial
      | some callback =>
          cases hlock : s.locked with
          | true => simp [TableCall.run, sdbRegisterCallback, hlock] at hrun
          | false => exact hlock
  | unregister cmd =>
      have hgone := hlookup cmd rfl
      cases hlock : s.locked with
      | true => simp [TableCall.run, sdbUnregisterCallback, hlock] at hrun
      | false =>
          refine ⟨hlock, ?_⟩
          cases hindex : s.getCallbackIndex cmd with
          | none =>
              intro pre e rest hentries he
              have habsent : s.lookup cmd = none := by simp [CallbackList.lookup, hindex]
              exact absurd he (CallbackList.lookup_eq_none_iff.1 habsent e (by simp [hentries]))
          | some index =>
              simp only [TableCall.run, sdbUnregisterCallback, hlock, hindex, Bool.false_eq_true,
                if_false, Option.some.injEq, Prod.mk.injEq] at hrun
              rw [← hrun.1] at hgone
              exact (CallbackList.lookup_shift_eq_none_iff hindex).1 hgone

end

/-- Every call of a sequence returns what it returns on the map, and every lookup after it finds
what the map has: exactly when each call of the sequence finds the lock free and, if it removes a
callback, finds it in one place that is not the last. -/
theorem callbackTable_refines_iff (calls : List (TableCall α)) :
    (∀ pre c post s, calls = pre ++ c :: post →
      pre.foldlM CallbackList.call CallbackList.init = some s →
      ∃ s', c.run s = some (s', ((mapAfter pre).call c).2) ∧
        ∀ cmd, s'.lookup cmd = ((mapAfter pre).call c).1 cmd) ↔
    ∀ pre c post s, calls = pre ++ c :: post →
      pre.foldlM CallbackList.call CallbackList.init = some s → s.Keeps c := by
  constructor
  · intro h pre c post s hsplit hpre
    rcases h pre c post s hsplit hpre with ⟨s', hrun, hlookup⟩
    refine keeps_of_run hrun ?_
    rintro cmd rfl
    rw [hlookup, CallbackMap.call_unregister]
    exact Function.update_self ..
  · intro hkeeps pre c post s hsplit hpre
    have hs : Represents s (mapAfter pre) := by
      refine Lib.run_simulates (C := CallbackList.Keeps) Represents.call represents_init ?_ hpre
      intro pre' c' post' u hsplit' hpre'
      exact hkeeps pre' c' (post' ++ c :: post) u (by simp [hsplit, hsplit']) hpre'
    rcases hs.run (hkeeps pre c post s hsplit hpre) with ⟨s', hrun, hs'⟩
    exact ⟨s', hrun, fun cmd => congrFun hs'.lookup cmd⟩

/-- A callback that is the only one, and one that has been copied by an earlier removal, are still
found after they have been removed; after a second registration of a command nothing returns. -/
theorem callbackTable_keeps_removed :
    ([TableCall.register 1 (some 10), .unregister 1].foldlM CallbackList.call
        CallbackList.init).map (fun s => s.lookup 1) = some (some 10) ∧
    ([TableCall.register 1 (some 10), .register 2 (some 20), .unregister 1, .register 3 (some 30),
        .unregister 2].foldlM CallbackList.call CallbackList.init).map (fun s => s.lookup 2) =
      some (some 20) ∧
    [TableCall.register 1 (some 10), .register 1 (some 11), .register 2 (some 20)].foldlM
        CallbackList.call CallbackList.init = none := by
  refine ⟨rfl, rfl, rfl⟩

end LibSDB
end AbsPlatform

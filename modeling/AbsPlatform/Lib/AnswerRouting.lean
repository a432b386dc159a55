import Mathlib.Data.List.Nodup
import Mathlib.Logic.Function.Basic
import Mathlib.Logic.Relation

/-!
# AnswerRouting — requests and answers over one hop

Nodes pass packets to each other through one-place boxes.  A node that hears a request may forward
it and notes it in its queue; the node that receives it notes where it came from.  An answer is
matched with a queue by its key alone, first at the node that hears it and then at the node it is
returned to.  Nodes may hear any packets at any time, except that a node with a full box empties it
first.

The result is `answer_routed`: as long as no key is used for two requests, an answer that leaves
the network at a node answers a request of that node, comes from the node the request was
delivered to, was heard after the delivery, and is the only one.
-/

namespace AbsPlatform
namespace Lib

/-- What can be seen of the network from outside, and the moves between boxes. -/
inductive RouteEvent (ν P : Type)
  | heard (m : ν) (p : P)
  | moved (src dst : ν) (p : P)
  | wrote (m : ν) (p : P)

structure Net (ν P : Type) where
  /-- packets waiting for an answer, with the node the answer goes to -/
  queue : ν → List (ν × P)
  /-- the packet a node has been sent, with its sender -/
  box : ν → Option (ν × P)
  history : List (RouteEvent ν P)

namespace Net

variable {ν P ι : Type} [DecidableEq ν] [DecidableEq ι] (key : P → ι) (isAnswer : P → Bool)

def init : Net ν P where
  queue := fun _ => []
  box := fun _ => none
  history := []

inductive Step : Net ν P → Net ν P → Prop
  /-- a packet is heard and dealt with on the spot -/
  | hear {s : Net ν P} (m : ν) (p : P) :
      s.box m = none → Step s { s with history := s.history ++ [.heard m p] }
  /-- a request is heard and only noted -/
  | keep {s : Net ν P} (m : ν) (p : P) :
      s.box m = none → isAnswer p = false →
      Step s
        { s with
          queue := Function.update s.queue m (s.queue m ++ [(m, p)])
          history := s.history ++ [.heard m p] }
  /-- a request is heard, noted and passed on -/
  | forward {s : Net ν P} (m d : ν) (p : P) :
      s.box m = none → s.box d = none → isAnswer p = false →
      Step s
        { queue := Function.update s.queue m (s.queue m ++ [(m, p)])
          box := Function.update s.box d (some (m, p))
          history := s.history ++ [.heard m p, .moved m d p] }
  /-- an answer is heard and matched, and goes nowhere -/
  | drop {s : Net ν P} (m : ν) (p : P) (front back : List (ν × P)) (e : ν × P) :
      s.box m = none → isAnswer p = true → s.queue m = front ++ e :: back → key e.2 = key p →
      Step s
        { s with
          queue := Function.update s.queue m (front ++ back)
          history := s.history ++ [.heard m p] }
  /-- an answer is heard, matched and returned -/
  | reply {s : Net ν P} (m : ν) (p : P) (front back : List (ν × P)) (e : ν × P) :
      s.box m = none → isAnswer p = true → s.queue m = front ++ e :: back → key e.2 = key p →
      s.box e.1 = none →
      Step s
        { queue := Function.update s.queue m (front ++ back)
          box := Function.update s.box e.1 (some (m, p))
          history := s.history ++ [.heard m p, .moved m e.1 p] }
  /-- a request in the box is noted with its sender and leaves the network -/
  | deliver {s : Net ν P} (m src : ν) (p : P) :
      s.box m = some (src, p) → isAnswer p = false →
      Step s
        { queue := Function.update s.queue m (s.queue m ++ [(src, p)])
          box := Function.update s.box m none
          history := s.history ++ [.wrote m p] }
  /-- an answer in the box is matched and leaves the network -/
  | complete {s : Net ν P} (m src : ν) (p : P) (front back : List (ν × P)) (e : ν × P) :
      s.box m = some (src, p) → isAnswer p = true → s.queue m = front ++ e :: back →
      key e.2 = key p →
      Step s
        { queue := Function.update s.queue m (front ++ back)
          box := Function.update s.box m none
          history := s.history ++ [.wrote m p] }
  /-- an answer in the box that nothing matches -/
  | discard {s : Net ν P} (m src : ν) (p : P) :
      s.box m = some (src, p) → isAnswer p = true →
      Step s { s with box := Function.update s.box m none }

/-! ## What is counted -/

/-- A request with the key `x`. -/
@[simp] def isRequest (x : ι) (p : P) : Bool := !isAnswer p && key p == x

/-- An answer with the key `x`. -/
@[simp] def isReply (x : ι) (p : P) : Bool := isAnswer p && key p == x

@[simp] def heardRequest (x : ι) : RouteEvent ν P → Bool
  | .heard _ p => isRequest key isAnswer x p
  | _ => false

@[simp] def heardRequestAt (m : ν) (x : ι) : RouteEvent ν P → Bool
  | .heard k p => k = m && isRequest key isAnswer x p
  | _ => false

@[simp] def movedRequest (x : ι) : RouteEvent ν P → Bool
  | .moved _ _ p => isRequest key isAnswer x p
  | _ => false

@[simp] def movedRequestTo (d : ν) (x : ι) : RouteEvent ν P → Bool
  | .moved _ k p => k = d && isRequest key isAnswer x p
  | _ => false

@[simp] def movedReplyFrom (m : ν) (x : ι) : RouteEvent ν P → Bool
  | .moved k _ p => k = m && isReply key isAnswer x p
  | _ => false

@[simp] def wroteRequest (m : ν) (x : ι) : RouteEvent ν P → Bool
  | .wrote k p => k = m && isRequest key isAnswer x p
  | _ => false

@[simp] def wroteReply (m : ν) (x : ι) : RouteEvent ν P → Bool
  | .wrote k p => k = m && isReply key isAnswer x p
  | _ => false

/-- The entries of a queue with the key `x`. -/
@[simp] def entries (s : Net ν P) (m : ν) (x : ι) : Nat := (s.queue m).countP fun e => key e.2 == x

/-- Whether a box holds a request with the key `x`. -/
@[simp] def boxed (x : ι) : Option (ν × P) → Nat
  | some e => if isRequest key isAnswer x e.2 then 1 else 0
  | none => 0

/-! ## Balances -/

section Balances

variable {key : P → ι} {isAnswer : P → Bool} {s s' : Net ν P}

/-- Every entry of a queue, and every answer that has passed a node, is paid for by a request that
the node has heard or delivered. -/
def Ledger (key : P → ι) (isAnswer : P → Bool) (s : Net ν P) : Prop :=
  ∀ m x,
    s.entries key m x + s.history.countP (movedReplyFrom key isAnswer m x)
        + s.history.countP (wroteReply key isAnswer m x) ≤
      s.history.countP (heardRequestAt key isAnswer m x)
        + s.history.countP (wroteRequest key isAnswer m x)

/-- A step of node `m` changes the queue of `m` and adds events of `m`: the balance of the other
nodes is what it was. -/
theorem ledger_of_local {m : ν} {q : List (ν × P)} {box : ν → Option (ν × P)}
    {new : List (RouteEvent ν P)} (hledger : Ledger key isAnswer s)
    (hself : ∀ x,
      q.countP (fun e => key e.2 == x) + new.countP (movedReplyFrom key isAnswer m x)
          + new.countP (wroteReply key isAnswer m x) ≤
        s.entries key m x + new.countP (heardRequestAt key isAnswer m x)
          + new.countP (wroteRequest key isAnswer m x))
    (hother : ∀ k, k ≠ m → ∀ x,
      new.countP (movedReplyFrom key isAnswer k x) = 0 ∧
        new.countP (wroteReply key isAnswer k x) = 0) :
    Ledger key isAnswer
      { queue := Function.update s.queue m q, box := box, history := s.history ++ new } := by
  intro k x
  have hk := hledger k x
  by_cases hkm : k = m
  · subst hkm
    have hx := hself x
    simp only [entries, Function.update_self, List.countP_append] at hk hx ⊢
    omega
  · have hx := hother k hkm x
    simp only [entries, Function.update_of_ne hkm, List.countP_append] at hk ⊢
    omega

theorem Step.ledger (h : Step key isAnswer s s') (hledger : Ledger key isAnswer s) :
    Ledger key isAnswer s' := by
  cases h with
  | hear m p hbox =>
      intro k x
      have hk := hledger k x
      simp only [entries, List.countP_append] at hk ⊢
      simp
      omega
  | keep m p hbox hp =>
      -- the new note is paid for by the request that was heard
      refine ledger_of_local hledger (fun x => ?_) (fun k hk x => by simp)
      simp [hp, List.countP_append, List.countP_cons]
  | forward m d p hbox hd hp =>
      -- so is this one; the move of a request costs nothing
      refine ledger_of_local hledger (fun x => ?_) (fun k hk x => by simp [hp])
      simp [hp, List.countP_append, List.countP_cons]
  | drop m p front back e hbox hp hq he =>
      -- a note goes, and nothing is bought with it
      refine ledger_of_local hledger (fun x => ?_) (fun k hk x => by simp)
      simp [hp, hq, List.countP_append, List.countP_cons]
  | reply m p front back e hbox hp hq he hd =>
      -- the note that goes pays for the answer that is moved
      refine ledger_of_local hledger (fun x => ?_) (fun k hk x => by simp [Ne.symm hk])
      simp [hp, hq, he, List.countP_append, List.countP_cons]
      omega
  | deliver m src p hbox hp =>
      -- the new note is paid for by the delivery
      refine ledger_of_local hledger (fun x => ?_) (fun k hk x => by simp [Ne.symm hk])
      simp [hp, List.countP_append, List.countP_cons]
  | complete m src p front back e hbox hp hq he =>
      -- the note that goes pays for the answer that leaves
      refine ledger_of_local hledger (fun x => ?_) (fun k hk x => by simp [Ne.symm hk])
      simp [hp, hq, he, List.countP_append, List.countP_cons]
      omega
  | discard m src p hbox hp => simpa [Ledger] using hledger

/-- The requests moved to a node are those it has delivered and the one in its box. -/
def BoxBalance (key : P → ι) (isAnswer : P → Bool) (s : Net ν P) : Prop :=
  ∀ m x,
    s.history.countP (wroteRequest key isAnswer m x) + boxed key isAnswer x (s.box m) =
      s.history.countP (movedRequestTo key isAnswer m x)

theorem Step.boxBalance (h : Step key isAnswer s s') (hbal : BoxBalance key isAnswer s) :
    BoxBalance key isAnswer s' := by
  intro k x
  have hk := hbal k x
  cases h with
  | hear m p hbox => simpa using hk
  | keep m p hbox hp => simpa using hk
  | forward m d p hbox hd hp =>
      -- the box of `d` was empty, and takes the request that is moved
      by_cases hkd : k = d
      · subst hkd
        simp [hd, hp, List.countP_cons] at hk ⊢
        omega
      · simpa [hkd, Ne.symm hkd] using hk
  | drop m p front back e hbox hp hq he => simpa using hk
  | reply m p front back e hbox hp hq he hd =>
      -- an answer in a box is not counted
      by_cases hkd : k = e.1
      · subst hkd
        simpa [hd, hp] using hk
      · simpa [hkd, hp] using hk
  | deliver m src p hbox hp =>
      -- the request in the box becomes one that is delivered
      by_cases hkd : k = m
      · subst hkd
        simpa [hbox, hp, List.countP_cons] using hk
      · simpa [hkd, Ne.symm hkd] using hk
  | complete m src p front back e hbox hp hq he =>
      by_cases hkd : k = m
      · subst hkd
        simpa [hbox, hp] using hk
      · simpa [hkd, hp] using hk
  | discard m src p hbox hp =>
      by_cases hkd : k = m
      · subst hkd
        simpa [hbox, hp] using hk
      · simpa [hkd] using hk

/-- A request is moved at most once for each time it is heard. -/
def MovesHeard (key : P → ι) (isAnswer : P → Bool) (s : Net ν P) : Prop :=
  ∀ x, s.history.countP (movedRequest key isAnswer x) ≤
    s.history.countP (heardRequest key isAnswer x)

theorem Step.movesHeard (h : Step key isAnswer s s') (hmoves : MovesHeard key isAnswer s) :
    MovesHeard key isAnswer s' := by
  intro x
  have hx := hmoves x
  cases h with
  | hear m p hbox =>
      simp [List.countP_append]
      omega
  | keep m p hbox hp =>
      simp [List.countP_append]
      omega
  | forward m d p hbox hd hp =>
      simp [List.countP_append, List.countP_cons]
      omega
  | drop m p front back e hbox hp hq he =>
      simp [List.countP_append]
      omega
  | reply m p front back e hbox hp hq he hd =>
      simp [List.countP_append, hp]
      omega
  | deliver m src p hbox hp => simpa using hx
  | complete m src p front back e hbox hp hq he => simpa using hx
  | discard m src p hbox hp => exact hx

end Balances

/-! ## Traces -/

section Traces

variable {key : P → ι} {isAnswer : P → Bool} {s s' : Net ν P}

open RouteEvent

/-- A request on its way through the network: heard at `a` and delivered at `b`. -/
def delivery (a b : ν) (p : P) : List (RouteEvent ν P) := [heard a p, moved a b p, wrote b p]

/-- A request of `a` delivered at `b`, and then an answer on its way back. -/
def exchange (a b : ν) (req p : P) : List (RouteEvent ν P) :=
  delivery a b req ++ [heard b p, moved b a p]

/-- Everything that is under way can be traced back to a request that was heard. -/
structure Traced (key : P → ι) (isAnswer : P → Bool) (s : Net ν P) : Prop where
  wroteRequest : ∀ {b p}, wrote b p ∈ s.history → isAnswer p = false →
    ∃ a, (delivery a b p).Sublist s.history
  queue : ∀ {b e}, e ∈ s.queue b → isAnswer e.2 = false ∧ heard e.1 e.2 ∈ s.history ∧
    (b = e.1 ∨ (delivery e.1 b e.2).Sublist s.history)
  boxedRequest : ∀ {b a p}, s.box b = some (a, p) → isAnswer p = false →
    [heard a p, moved a b p].Sublist s.history
  -- in the second case the answer was matched with the node's own note of a request that has not
  -- been delivered to it
  boxedAnswer : ∀ {b a p}, s.box b = some (a, p) → isAnswer p = true →
    moved a b p ∈ s.history ∧
      ((∃ req, isAnswer req = false ∧ key req = key p ∧ (exchange b a req p).Sublist s.history) ∨
        (a = b ∧ s.history.countP (Net.wroteRequest key isAnswer b (key p)) = 0))
  wroteAnswer : ∀ {b p}, wrote b p ∈ s.history → isAnswer p = true →
    ∃ a req, isAnswer req = false ∧ key req = key p ∧
      (exchange b a req p ++ [wrote b p]).Sublist s.history

/-- No key is used for two requests. -/
def UniqueRequests (key : P → ι) (isAnswer : P → Bool) (s : Net ν P) : Prop :=
  ∀ x, s.history.countP (heardRequest key isAnswer x) ≤ 1

structure RouteInv (key : P → ι) (isAnswer : P → Bool) (s : Net ν P) : Prop where
  ledger : Ledger key isAnswer s
  boxBalance : BoxBalance key isAnswer s
  movesHeard : MovesHeard key isAnswer s
  traced : Traced key isAnswer s
  once : ∀ m x, s.history.countP (wroteReply key isAnswer m x) ≤ 1

theorem eq_of_countP_le_one {α : Type} {p : α → Bool} {l : List α} (h : l.countP p ≤ 1) {a b : α}
    (ha : a ∈ l) (hb : b ∈ l) (hpa : p a = true) (hpb : p b = true) : a = b := by
  -- both are in the filtered list, which has at most one element
  have ha' : a ∈ l.filter p := List.mem_filter.2 ⟨ha, hpa⟩
  have hb' : b ∈ l.filter p := List.mem_filter.2 ⟨hb, hpb⟩
  rw [List.countP_eq_length_filter] at h
  cases hl : l.filter p with
  | nil => simp [hl] at ha'
  | cons c rest =>
      have hrest : rest = [] := by
        simpa [hl] using h
      simp only [hl, hrest, List.mem_singleton] at ha' hb'
      exact ha'.trans hb'.symm

omit [DecidableEq ι] in
theorem Step.history_sublist (h : Step key isAnswer s s') : s.history.Sublist s'.history := by
  cases h with
  | discard => exact List.Sublist.refl _
  | _ => exact List.sublist_append_left _ _

theorem UniqueRequests.of_step (h : Step key isAnswer s s')
    (hunique : UniqueRequests key isAnswer s') : UniqueRequests key isAnswer s := fun x =>
  Nat.le_trans h.history_sublist.countP_le (hunique x)

section Unique

variable (hinv : RouteInv key isAnswer s) (hunique : UniqueRequests key isAnswer s)

omit [DecidableEq ν] in
include hunique in
/-- Two requests with one key are the same event. -/
theorem heard_unique {a a' : ν} {p p' : P} (h : heard a p ∈ s.history)
    (h' : heard a' p' ∈ s.history) (hp : isAnswer p = false) (hp' : isAnswer p' = false)
    (hkey : key p = key p') : a = a' ∧ p = p' := by
  have heq := eq_of_countP_le_one (hunique (key p')) h h' (by simp [hp, hkey]) (by simp [hp'])
  simpa using heq

include hinv hunique in
/-- A request is moved to one node only. -/
theorem moved_unique {a a' b b' : ν} {p p' : P} (h : moved a b p ∈ s.history)
    (h' : moved a' b' p' ∈ s.history) (hp : isAnswer p = false) (hp' : isAnswer p' = false)
    (hkey : key p = key p') : a = a' ∧ b = b' ∧ p = p' := by
  have hone := Nat.le_trans (hinv.movesHeard (key p')) (hunique (key p'))
  have heq := eq_of_countP_le_one hone h h' (by simp [hp, hkey]) (by simp [hp'])
  simpa using heq

include hunique in
theorem heardRequestAt_le_one (m : ν) (x : ι) :
    s.history.countP (heardRequestAt key isAnswer m x) ≤ 1 := by
  refine Nat.le_trans (List.countP_mono_left ?_) (hunique x)
  intro e _ he
  cases e with
  | heard k p => simpa using (Bool.and_eq_true_iff.1 he).2
  | moved a b p => cases he
  | wrote k p => cases he

include hinv hunique in
theorem wroteRequest_le_one (m : ν) (x : ι) :
    s.history.countP (Net.wroteRequest key isAnswer m x) ≤ 1 := by
  -- what a node delivers was moved to it, and a request is moved once
  have hto : s.history.countP (movedRequestTo key isAnswer m x) ≤
      s.history.countP (movedRequest key isAnswer x) := by
    refine List.countP_mono_left ?_
    intro e _ he
    cases e with
    | heard k p => cases he
    | moved a b p => simpa using (Bool.and_eq_true_iff.1 he).2
    | wrote k p => cases he
  have hbox := hinv.boxBalance m x
  have hmoves := hinv.movesHeard x
  have hheard := hunique x
  omega

/-- An answer in the box of a node that still has a note of its key comes from the node the request
was delivered to. -/
theorem exchange_of_boxed (hinv : RouteInv key isAnswer s)
    (hunique : UniqueRequests key isAnswer s) {m a : ν} {p : P} (hbox : s.box m = some (a, p))
    (hp : isAnswer p = true) (hentry : 0 < s.entries key m (key p)) :
    ∃ req, isAnswer req = false ∧ key req = key p ∧ (exchange m a req p).Sublist s.history := by
  rcases hinv.traced.boxedAnswer hbox hp with ⟨hmoved, hexchange | ⟨rfl, hnone⟩⟩
  · exact hexchange
  · -- the answer and the note would both be paid for by the one request heard here
    have hpos : 0 < s.history.countP (movedReplyFrom key isAnswer a (key p)) :=
      List.countP_pos_iff.2 ⟨_, hmoved, by simp [hp]⟩
    have hledger := hinv.ledger a (key p)
    have hheard := heardRequestAt_le_one hunique a (key p)
    omega

/-- A node that has passed an answer on keeps no note of its key for another one. -/
theorem no_reply_before (hinv : RouteInv key isAnswer s)
    (hunique : UniqueRequests key isAnswer s) {m a : ν} {p : P} (hbox : s.box m = some (a, p))
    (hp : isAnswer p = true) (hentry : 0 < s.entries key m (key p)) :
    s.history.countP (wroteReply key isAnswer m (key p)) = 0 := by
  by_contra hsome
  have hledger := hinv.ledger m (key p)
  have hheard := heardRequestAt_le_one hunique m (key p)
  have hwrote := wroteRequest_le_one hinv hunique m (key p)
  -- so the request was delivered to the node itself, which has returned no answer
  have hdelivered : 0 < s.history.countP (Net.wroteRequest key isAnswer m (key p)) := by omega
  have hreturned : s.history.countP (movedReplyFrom key isAnswer m (key p)) = 0 := by omega
  rcases List.countP_pos_iff.1 hdelivered with ⟨e, he, hreq⟩
  rcases exchange_of_boxed hinv hunique hbox hp hentry with ⟨req, hreqA, hreqK, hex⟩
  cases e with
  | heard k q => cases hreq
  | moved b c q => cases hreq
  | wrote k q =>
      have hq : k = m ∧ isAnswer q = false ∧ key q = key p := by simpa using hreq
      rcases hq with ⟨rfl, hqA, hqK⟩
      rcases hinv.traced.wroteRequest he hqA with ⟨b, hdel⟩
      -- the request that was delivered here is the one this node has forwarded, so it was forwarded
      -- to the node itself, and the answer in the box has passed it
      have hmoved : moved b k q ∈ s.history := hdel.subset (by simp [delivery])
      have hmoved' : moved k a req ∈ s.history := hex.subset (by simp [exchange, delivery])
      have hsame := moved_unique hinv hunique hmoved hmoved' hqA hreqA (hqK.trans hreqK.symm)
      have hself : moved k k p ∈ s.history := by
        have := (hinv.traced.boxedAnswer hbox hp).1
        rwa [← hsame.2.1] at this
      have hpos : 0 < s.history.countP (movedReplyFrom key isAnswer k (key p)) :=
        List.countP_pos_iff.2 ⟨_, hself, by simp [hp]⟩
      omega

end Unique

/-! ## Steps keep the invariant -/

theorem Step.traced_wroteRequest (h : Step key isAnswer s s') (ht : Traced key isAnswer s)
    {b : ν} {p : P} (hw : wrote b p ∈ s'.history) (hp : isAnswer p = false) :
    ∃ a, (delivery a b p).Sublist s'.history := by
  have hold : wrote b p ∈ s.history → ∃ a, (delivery a b p).Sublist s'.history := by
    intro hmem
    rcases ht.wroteRequest hmem hp with ⟨a, ha⟩
    exact ⟨a, ha.trans h.history_sublist⟩
  cases h with
  | deliver m src q hbox hq =>
      rcases List.mem_append.1 hw with hmem | hnew
      · exact hold hmem
      · have hnew : b = m ∧ p = q := by simpa using hnew
        rcases hnew with ⟨rfl, rfl⟩
        -- the request in the box was heard and moved before, and now it is written
        exact ⟨src, (ht.boxedRequest hbox hp).append (List.Sublist.refl [wrote b p])⟩
  | complete m src q front back e hbox hq hqueue he =>
      rcases List.mem_append.1 hw with hmem | hnew
      · exact hold hmem
      · -- what `complete` writes is an answer
        have hnew : b = m ∧ p = q := by simpa using hnew
        simp [hnew.2, hq] at hp
  | _ => exact hold (by simpa using hw)

theorem Step.traced_boxedRequest (h : Step key isAnswer s s') (ht : Traced key isAnswer s)
    {b a : ν} {p : P} (hb : s'.box b = some (a, p)) (hp : isAnswer p = false) :
    [heard a p, moved a b p].Sublist s'.history := by
  have hold : s.box b = some (a, p) → [heard a p, moved a b p].Sublist s'.history := fun hbox =>
    (ht.boxedRequest hbox hp).trans h.history_sublist
  cases h with
  | hear m q hbox => exact hold hb
  | keep m q hbox hq => exact hold hb
  | forward m d q hbox hd hq =>
      -- the two events are the ones the step has added
      by_cases hbd : b = d
      · subst hbd
        have hnew : m = a ∧ q = p := by simpa using hb
        rcases hnew with ⟨rfl, rfl⟩
        exact List.sublist_append_right _ _
      · exact hold (by simpa [hbd] using hb)
  | drop m q front back e hbox hq hqueue he => exact hold hb
  | reply m q front back e hbox hq hqueue he hd =>
      by_cases hbd : b = e.1
      · -- what `reply` puts into a box is an answer
        subst hbd
        have hnew : m = a ∧ q = p := by simpa using hb
        simp [← hnew.2, hq] at hp
      · exact hold (by simpa [hbd] using hb)
  | deliver m src q hbox hq =>
      by_cases hbm : b = m
      · simp [hbm] at hb
      · exact hold (by simpa [hbm] using hb)
  | complete m src q front back e hbox hq hqueue he =>
      by_cases hbm : b = m
      · simp [hbm] at hb
      · exact hold (by simpa [hbm] using hb)
  | discard m src q hbox hq =>
      by_cases hbm : b = m
      · simp [hbm] at hb
      · exact hold (by simpa [hbm] using hb)

theorem Step.traced_queue (h : Step key isAnswer s s') (ht : Traced key isAnswer s)
    {b : ν} {e : ν × P} (he : e ∈ s'.queue b) :
    isAnswer e.2 = false ∧ heard e.1 e.2 ∈ s'.history ∧
      (b = e.1 ∨ (delivery e.1 b e.2).Sublist s'.history) := by
  have hold : e ∈ s.queue b → isAnswer e.2 = false ∧ heard e.1 e.2 ∈ s'.history ∧
      (b = e.1 ∨ (delivery e.1 b e.2).Sublist s'.history) := by
    intro hmem
    rcases ht.queue hmem with ⟨hp, hheard, hwhere⟩
    exact ⟨hp, h.history_sublist.subset hheard,
      hwhere.imp_right fun hd => hd.trans h.history_sublist⟩
  -- an entry that was taken out is not replaced by another one
  have herase : ∀ {m : ν} {front back : List (ν × P)} {e' : ν × P},
      s.queue m = front ++ e' :: back →
      e ∈ Function.update s.queue m (front ++ back) b → e ∈ s.queue b := by
    intro m front back e' hqueue hmem
    by_cases hbm : b = m
    · subst hbm
      simp only [Function.update_self, List.mem_append] at hmem
      simp only [hqueue, List.mem_append, List.mem_cons]
      exact hmem.imp_right Or.inr
    · simpa [hbm] using hmem
  have hadd : ∀ {m : ν} {e' : ν × P}, e ∈ Function.update s.queue m (s.queue m ++ [e']) b →
      e ∈ s.queue b ∨ (b = m ∧ e = e') := by
    intro m e' hmem
    by_cases hbm : b = m
    · subst hbm
      simpa using hmem
    · exact Or.inl (by simpa [hbm] using hmem)
  cases h with
  | hear m p hbox => exact hold he
  | keep m p hbox hp =>
      rcases hadd he with hmem | ⟨rfl, rfl⟩
      · exact hold hmem
      · exact ⟨hp, by simp, Or.inl rfl⟩
  | forward m d p hbox hd hp =>
      rcases hadd he with hmem | ⟨rfl, rfl⟩
      · exact hold hmem
      · exact ⟨hp, by simp, Or.inl rfl⟩
  | drop m p front back e' hbox hp hqueue hkey => exact hold (herase hqueue he)
  | reply m p front back e' hbox hp hqueue hkey hd => exact hold (herase hqueue he)
  | deliver m src p hbox hp =>
      rcases hadd he with hmem | ⟨rfl, rfl⟩
      · exact hold hmem
      · -- the sender has heard the request that is noted here
        have hreq := ht.boxedRequest hbox hp
        refine ⟨hp, ?_, Or.inr (hreq.append (List.Sublist.refl [wrote b p]))⟩
        exact List.mem_append_left _ (hreq.subset (by simp))
  | complete m src p front back e' hbox hp hqueue hkey => exact hold (herase hqueue he)
  | discard m src p hbox hp => exact hold he

omit [DecidableEq ν] in
theorem entries_pos {m : ν} {p : P} {front back : List (ν × P)} {e : ν × P}
    (hqueue : s.queue m = front ++ e :: back) (he : key e.2 = key p) :
    0 < s.entries key m (key p) :=
  List.countP_pos_iff.2 ⟨e, by simp [hqueue], by simp [he]⟩

/-- A returned answer: either the request was delivered to the node that returns it, or the node
has only matched its own note. -/
theorem reply_traced (hinv : RouteInv key isAnswer s) (hunique : UniqueRequests key isAnswer s)
    {m : ν} {p : P} {e : ν × P} (hentry : e ∈ s.queue m) (hkey : key e.2 = key p) :
    (∃ req, isAnswer req = false ∧ key req = key p ∧ (delivery e.1 m req).Sublist s.history) ∨
      (m = e.1 ∧ s.history.countP (Net.wroteRequest key isAnswer m (key p)) = 0) := by
  rcases hinv.traced.queue hentry with ⟨hreq, hheard, hown | hdel⟩
  · by_cases hzero : s.history.countP (Net.wroteRequest key isAnswer m (key p)) = 0
    · exact Or.inr ⟨hown, hzero⟩
    · -- a request with this key was delivered here, and it can only be the noted one
      rcases List.countP_pos_iff.1 (Nat.pos_of_ne_zero hzero) with ⟨ev, hev, hw⟩
      cases ev with
      | heard k q => cases hw
      | moved b c q => cases hw
      | wrote k q =>
          have hq : k = m ∧ isAnswer q = false ∧ key q = key p := by simpa using hw
          rcases hq with ⟨rfl, hqA, hqK⟩
          rcases hinv.traced.wroteRequest hev hqA with ⟨b, hdel⟩
          have hheard' : heard b q ∈ s.history := hdel.subset (by simp [delivery])
          have hsame := heard_unique hunique hheard' hheard hqA hreq (hqK.trans hkey.symm)
          exact Or.inl ⟨q, hqA, hqK, by simpa [hsame.1] using hdel⟩
  · exact Or.inl ⟨e.2, hreq, hkey, hdel⟩

theorem Step.traced_boxedAnswer (h : Step key isAnswer s s') (hinv : RouteInv key isAnswer s)
    (hunique : UniqueRequests key isAnswer s) {b a : ν} {p : P} (hb : s'.box b = some (a, p))
    (hp : isAnswer p = true) :
    moved a b p ∈ s'.history ∧
      ((∃ req, isAnswer req = false ∧ key req = key p ∧ (exchange b a req p).Sublist s'.history) ∨
        (a = b ∧ s'.history.countP (Net.wroteRequest key isAnswer b (key p)) = 0)) := by
  -- a box that is left alone, while its node delivers nothing
  have hold : s.box b = some (a, p) →
      s'.history.countP (Net.wroteRequest key isAnswer b (key p)) =
        s.history.countP (Net.wroteRequest key isAnswer b (key p)) →
      moved a b p ∈ s'.history ∧
        ((∃ req, isAnswer req = false ∧ key req = key p ∧
            (exchange b a req p).Sublist s'.history) ∨
          (a = b ∧ s'.history.countP (Net.wroteRequest key isAnswer b (key p)) = 0)) := by
    intro hbox hcount
    rcases hinv.traced.boxedAnswer hbox hp with ⟨hmoved, hcases⟩
    refine ⟨h.history_sublist.subset hmoved, ?_⟩
    rcases hcases with ⟨req, hreqA, hreqK, hex⟩ | ⟨hab, hzero⟩
    · exact Or.inl ⟨req, hreqA, hreqK, hex.trans h.history_sublist⟩
    · exact Or.inr ⟨hab, hcount.trans hzero⟩
  cases h with
  | hear m q hbox => exact hold hb (by simp)
  | keep m q hbox hq => exact hold hb (by simp)
  | forward m d q hbox hd hq =>
      by_cases hbd : b = d
      · -- what `forward` puts into a box is a request
        subst hbd
        have hnew : m = a ∧ q = p := by simpa using hb
        simp [← hnew.2, hq] at hp
      · exact hold (by simpa [hbd] using hb) (by simp)
  | drop m q front back e hbox hq hqueue he => exact hold hb (by simp)
  | reply m q front back e hbox hq hqueue he hd =>
      by_cases hbd : b = e.1
      · subst hbd
        have hnew : m = a ∧ q = p := by simpa using hb
        rcases hnew with ⟨rfl, rfl⟩
        refine ⟨by simp, ?_⟩
        -- the note that was matched tells where the request came from
        have hentry : e ∈ s.queue m := by simp [hqueue]
        rcases reply_traced hinv hunique hentry he with ⟨req, hreqA, hreqK, hdel⟩ | ⟨hme, hzero⟩
        · exact Or.inl ⟨req, hreqA, hreqK, hdel.append (List.Sublist.refl _)⟩
        · exact Or.inr ⟨hme, by simpa [hme] using hzero⟩
      · exact hold (by simpa [hbd] using hb) (by simp)
  | deliver m src q hbox hq =>
      by_cases hbm : b = m
      · simp [hbm] at hb
      · exact hold (by simpa [hbm] using hb) (by simp [Ne.symm hbm])
  | complete m src q front back e hbox hq hqueue he =>
      by_cases hbm : b = m
      · simp [hbm] at hb
      · exact hold (by simpa [hbm] using hb) (by simp [Ne.symm hbm])
  | discard m src q hbox hq =>
      by_cases hbm : b = m
      · simp [hbm] at hb
      · exact hold (by simpa [hbm] using hb) rfl

theorem Step.traced_wroteAnswer (h : Step key isAnswer s s') (hinv : RouteInv key isAnswer s)
    (hunique : UniqueRequests key isAnswer s) {b : ν} {p : P} (hw : wrote b p ∈ s'.history)
    (hp : isAnswer p = true) :
    ∃ a req, isAnswer req = false ∧ key req = key p ∧
      (exchange b a req p ++ [wrote b p]).Sublist s'.history := by
  have hold : wrote b p ∈ s.history → ∃ a req, isAnswer req = false ∧ key req = key p ∧
      (exchange b a req p ++ [wrote b p]).Sublist s'.history := by
    intro hmem
    rcases hinv.traced.wroteAnswer hmem hp with ⟨a, req, hreqA, hreqK, hex⟩
    exact ⟨a, req, hreqA, hreqK, hex.trans h.history_sublist⟩
  cases h with
  | deliver m src q hbox hq =>
      rcases List.mem_append.1 hw with hmem | hnew
      · exact hold hmem
      · have hnew : b = m ∧ p = q := by simpa using hnew
        simp [hnew.2, hq] at hp
  | complete m src q front back e hbox hq hqueue he =>
      rcases List.mem_append.1 hw with hmem | hnew
      · exact hold hmem
      · have hnew : b = m ∧ p = q := by simpa using hnew
        rcases hnew with ⟨rfl, rfl⟩
        -- the note that is matched excludes the second case of `boxedAnswer`
        have hentry := entries_pos hqueue he
        rcases exchange_of_boxed hinv hunique hbox hp hentry with ⟨req, hreqA, hreqK, hex⟩
        exact ⟨src, req, hreqA, hreqK, hex.append (List.Sublist.refl _)⟩
  | _ => exact hold (by simpa using hw)

theorem Step.once (h : Step key isAnswer s s') (hinv : RouteInv key isAnswer s)
    (hunique : UniqueRequests key isAnswer s) (b : ν) (x : ι) :
    s'.history.countP (wroteReply key isAnswer b x) ≤ 1 := by
  have hb := hinv.once b x
  cases h with
  | complete m src p front back e hbox hp hqueue he =>
      by_cases hnew : m = b ∧ key p = x
      · -- it is the first answer, since the note was still there
        rcases hnew with ⟨rfl, rfl⟩
        have hentry := entries_pos hqueue he
        have hzero := no_reply_before hinv hunique hbox hp hentry
        simp [List.countP_append, hzero, hp]
      · have hcount : ¬ (m = b ∧ isAnswer p = true ∧ key p = x) := fun h => hnew ⟨h.1, h.2.2⟩
        simpa [List.countP_append, List.countP_cons, hcount] using hb
  | deliver m src p hbox hp => simpa [List.countP_append, hp] using hb
  | discard m src p hbox hp => exact hb
  | _ => simpa [List.countP_append] using hb

theorem Step.routeInv (h : Step key isAnswer s s') (hinv : RouteInv key isAnswer s)
    (hunique : UniqueRequests key isAnswer s) : RouteInv key isAnswer s' where
  ledger := h.ledger hinv.ledger
  boxBalance := h.boxBalance hinv.boxBalance
  movesHeard := h.movesHeard hinv.movesHeard
  traced :=
    { wroteRequest := h.traced_wroteRequest hinv.traced
      queue := h.traced_queue hinv.traced
      boxedRequest := h.traced_boxedRequest hinv.traced
      boxedAnswer := h.traced_boxedAnswer hinv hunique
      wroteAnswer := h.traced_wroteAnswer hinv hunique }
  once := h.once hinv hunique

theorem routeInv_init : RouteInv key isAnswer (init : Net ν P) := by
  refine ⟨?_, ?_, ?_, ⟨?_, ?_, ?_, ?_, ?_⟩, ?_⟩ <;>
    simp [init, Ledger, BoxBalance, MovesHeard]

theorem routeInv_of_reachable (h : Relation.ReflTransGen (Step key isAnswer) init s)
    (hunique : UniqueRequests key isAnswer s) : RouteInv key isAnswer s := by
  -- a key that is not used twice in the end has not been used twice before
  induction h with
  | refl => exact routeInv_init
  | tail _ hstep ih =>
      have hbefore := UniqueRequests.of_step hstep hunique
      exact hstep.routeInv (ih hbefore) hbefore

/-- In every run that uses no key for two requests, an answer that leaves the network has been
routed along its request and back, and no other one leaves it there. -/
theorem answer_routed (h : Relation.ReflTransGen (Step key isAnswer) init s)
    (hunique : UniqueRequests key isAnswer s) {m : ν} {p : P} (hw : wrote m p ∈ s.history)
    (hp : isAnswer p = true) :
    (∃ b req, isAnswer req = false ∧ key req = key p ∧
        (exchange m b req p ++ [wrote m p]).Sublist s.history) ∧
      s.history.countP (wroteReply key isAnswer m (key p)) ≤ 1 := by
  have hinv := routeInv_of_reachable h hunique
  exact ⟨hinv.traced.wroteAnswer hw hp, hinv.once m (key p)⟩

end Traces

end Net

end Lib
end AbsPlatform

import AbsPlatform.SDB.Bus
import AbsPlatform.Lib.PriorityList

/-!
# QueueRefinement — the linked queue is a stable priority list

`Holds q cells` relates the heap to a list of cells.  Every operation of the queue takes a state
that holds a list to one that holds the list the operation should leave behind; a run of
operations then goes through the same outputs as a `PriorityList`.  The queues of the bus, which
`Module` keeps as lists, hold packets of the default priority only: a push appends.
-/

namespace AbsPlatform
namespace SDB

open MCS Lib

structure Holds (q : SDBQueue) (cells : List (Nat × SDBPacket)) : Prop where
  seg : Seg q.heap none cells none
  nodup : (addrs cells).Nodup
  first : q.queueFirst = firstPtr cells none
  last : q.queueLast = lastPtr none cells
  count : cells.length ≤ q.allocated

theorem holds_init : Holds sdbQueueInit [] where
  seg := trivial
  nodup := List.nodup_nil
  first := rfl
  last := rfl
  count := Nat.le_refl 0

/-! ## Writing one pointer -/

namespace SDBQueue

/-- One element has been written, and nothing else has changed. -/
structure Wrote (q q' : SDBQueue) (a : Nat) (n : Node SDBPacket) : Prop where
  node : q'.heap a = some n
  other : ∀ b, b ≠ a → q'.heap b = q.heap b
  first : q'.queueFirst = q.queueFirst
  last : q'.queueLast = q.queueLast
  allocated : q'.allocated = q.allocated

theorem setPrev_spec {q : SDBQueue} {a : Nat} {n : Node SDBPacket} (h : q.heap a = some n)
    (p : Option Nat) : ∃ q', q.setPrev a p = some q' ∧ Wrote q q' a { n with prev := p } := by
  refine ⟨{ q with heap := q.heap.put a (some { n with prev := p }) }, ?_,
    Heap.put_same _ _ _, fun b hb => Heap.put_other hb _, rfl, rfl, rfl⟩
  simp [setPrev, Heap.setPrev, Heap.modify?_of_some h]

theorem setNext_spec {q : SDBQueue} {a : Nat} {n : Node SDBPacket} (h : q.heap a = some n)
    (p : Option Nat) : ∃ q', q.setNext a p = some q' ∧ Wrote q q' a { n with next := p } := by
  refine ⟨{ q with heap := q.heap.put a (some { n with next := p }) }, ?_,
    Heap.put_same _ _ _, fun b hb => Heap.put_other hb _, rfl, rfl, rfl⟩
  simp [setNext, Heap.setNext, Heap.modify?_of_some h]

/-- The front part of the queue now leads to `n`, and nothing else has changed. -/
structure LinkedNext (q q' : SDBQueue) (front : List (Nat × SDBPacket)) (n : Option Nat) :
    Prop where
  seg : Seg q'.heap none front n
  first : q'.queueFirst = firstPtr front n
  other : ∀ b, b ∉ addrs front → q'.heap b = q.heap b
  last : q'.queueLast = q.queueLast
  allocated : q'.allocated = q.allocated

/-- The back part of the queue now leads back to `p`, and nothing else has changed. -/
structure LinkedPrev (q q' : SDBQueue) (back : List (Nat × SDBPacket)) (p : Option Nat) :
    Prop where
  seg : Seg q'.heap p back none
  last : q'.queueLast = lastPtr p back
  other : ∀ b, b ∉ addrs back → q'.heap b = q.heap b
  first : q'.queueFirst = q.queueFirst
  allocated : q'.allocated = q.allocated

theorem linkNext_spec {q : SDBQueue} {front : List (Nat × SDBPacket)} {m f : Option Nat}
    (hseg : Seg q.heap none front m) (hnodup : (addrs front).Nodup)
    (hfirst : q.queueFirst = firstPtr front f) (n : Option Nat) :
    ∃ q', q.linkNext (lastPtr none front) n = some q' ∧ LinkedNext q q' front n := by
  rcases Decidable.em (front = []) with rfl | hne
  · exact ⟨_, rfl, trivial, rfl, fun b _ => rfl, rfl, rfl⟩
  · -- the pointer to be written is in the last element of the front part
    rcases lastPtr_eq_some (p := none) hne with ⟨init, c, rfl, hlast⟩
    rcases hseg.relinkNext hnodup n with ⟨h', hset, hseg', hother⟩
    refine ⟨{ q with heap := h' }, ?_, hseg', ?_, fun b hb => hother b ?_, rfl, rfl⟩
    · simp [linkNext, setNext, hset, hlast]
    · -- the front part is not empty, so `queue_first` is what it was
      rw [hfirst]
      cases init <;> rfl
    · rintro rfl
      simp at hb

theorem linkPrev_spec {q : SDBQueue} {back : List (Nat × SDBPacket)} {m l : Option Nat}
    (hseg : Seg q.heap m back none) (hnodup : (addrs back).Nodup)
    (hlast : q.queueLast = lastPtr l back) (p : Option Nat) :
    ∃ q', q.linkPrev (firstPtr back none) p = some q' ∧ LinkedPrev q q' back p := by
  cases back with
  | nil => exact ⟨_, rfl, trivial, rfl, fun b _ => rfl, rfl, rfl⟩
  | cons c back =>
      rcases hseg.relinkPrev hnodup p with ⟨h', hset, hseg', hother⟩
      refine ⟨{ q with heap := h' }, ?_, hseg', hlast, fun b hb => hother b ?_, rfl, rfl⟩
      · simp [linkPrev, setPrev, hset, firstPtr]
      · rintro rfl
        simp at hb

end SDBQueue

/-! ## Deleting an element -/

theorem sdbQueueDelete_spec {q : SDBQueue} {front back : List (Nat × SDBPacket)}
    {c : Nat × SDBPacket} (h : Holds q (front ++ c :: back)) :
    ∃ q', sdbQueueDelete q c.1 = some q' ∧ Holds q' (front ++ back) := by
  rcases h with ⟨hseg, hnodup, hfirst, hlast, hcount⟩
  rcases seg_append.1 hseg with ⟨hfront, hc, hback⟩
  simp only [addrs_append, addrs_cons, List.nodup_append, List.nodup_cons] at hnodup
  rcases hnodup with ⟨hndf, ⟨hcb, hndb⟩, hdisj⟩
  -- the element, the part in front of it and the part behind it have no address in common
  have hcf : c.1 ∉ addrs front := fun hm => hdisj _ hm c.1 (by simp) rfl
  have hbf : ∀ b ∈ addrs back, b ∉ addrs front := fun b hb hm =>
    hdisj b hm b (List.mem_cons_of_mem _ hb) rfl
  rw [firstPtr_append] at hfirst
  rw [lastPtr_append] at hlast
  rcases SDBQueue.linkNext_spec hfront hndf hfirst (firstPtr back none) with ⟨q₁, hlink₁, h₁⟩
  have hc₁ := (h₁.other c.1 hcf).trans hc
  have hback₁ := hback.frame fun b hb => h₁.other b (hbf b hb)
  rcases SDBQueue.linkPrev_spec hback₁ hndb (h₁.last.trans hlast) (lastPtr none front) with
    ⟨q₂, hlink₂, h₂⟩
  refine ⟨{ q₂ with heap := q₂.heap.put c.1 none }, ?_, ?_⟩
  · simp only [sdbQueueDelete, hc, hlink₁, hc₁, hlink₂, Option.bind_eq_bind, Option.bind_some]
  · -- both parts survive the `free`, since the element is in neither
    have hfront₂ := h₁.seg.frame fun b hb => h₂.other b fun hm => hbf b hm hb
    refine ⟨seg_append.2 ⟨hfront₂.frame ?_, h₂.seg.frame ?_⟩, ?_, ?_, ?_, ?_⟩
    · intro b hb
      exact Heap.put_other (ne_of_mem_of_not_mem hb hcf) _
    · intro b hb
      exact Heap.put_other (ne_of_mem_of_not_mem hb hcb) _
    · simp only [addrs_append, List.nodup_append]
      exact ⟨hndf, hndb, fun b hb b' hb' => hdisj b hb b' (List.mem_cons_of_mem _ hb')⟩
    · rw [firstPtr_append]
      exact h₂.first.trans h₁.first
    · rw [lastPtr_append]
      exact h₂.last
    · simp only [List.length_append, List.length_cons, h₂.allocated, h₁.allocated] at hcount ⊢
      omega

/-! ## Pushing an element -/

/-- One turn of the loop: the half-moved element `e` passes the element `t` in front of it, and the
list is whole again. -/
theorem swap_spec {q : SDBQueue} {front back : List (Nat × SDBPacket)} {t e : Nat × SDBPacket}
    (h : Holds q (front ++ t :: e :: back)) :
    ∃ q', swap q e.1 t.1 = some q' ∧ Holds q' (front ++ e :: t :: back) := by
  rcases h with ⟨hseg, hnodup, hfirst, hlast, hcount⟩
  rcases seg_append.1 hseg with ⟨hfront, ht, he, hback⟩
  have hnodup' : (addrs (front ++ e :: t :: back)).Nodup := by
    refine (List.Perm.nodup_iff ?_).1 hnodup
    simp only [addrs_append, addrs_cons]
    exact (List.Perm.swap _ _ _).append_left _
  simp only [addrs_append, addrs_cons, List.nodup_append, List.nodup_cons] at hnodup
  rcases hnodup with ⟨hndf, ⟨htb, heb, hndb⟩, hdisj⟩
  have htf : t.1 ∉ addrs front := fun hm => hdisj _ hm t.1 (by simp) rfl
  have hef : e.1 ∉ addrs front := fun hm => hdisj _ hm e.1 (by simp) rfl
  have hbf : ∀ b ∈ addrs back, b ∉ addrs front := fun b hb hm =>
    hdisj b hm b (List.mem_cons_of_mem _ (List.mem_cons_of_mem _ hb)) rfl
  have hte : t.1 ≠ e.1 := fun hm => htb (by simp [hm])
  have htb : t.1 ∉ addrs back := fun hm => htb (List.mem_cons_of_mem _ hm)
  rw [firstPtr_append] at hfirst
  rw [lastPtr_append] at hlast
  -- `queue_elem->prev = queue_tmp->prev`, and the front part leads to `queue_elem`
  rcases SDBQueue.setPrev_spec he (lastPtr none front) with ⟨q₁, hset₁, h₁⟩
  have hfront₁ := hfront.frame fun b hb => h₁.other b (ne_of_mem_of_not_mem hb hef)
  rcases SDBQueue.linkNext_spec hfront₁ hndf (h₁.first.trans hfirst) (some e.1) with
    ⟨q₂, hlink₂, h₂⟩
  have he₂ := (h₂.other e.1 hef).trans h₁.node
  have ht₂ := (h₂.other t.1 htf).trans ((h₁.other t.1 hte).trans ht)
  -- `queue_tmp->next = queue_elem->next`, and the back part leads back to `queue_tmp`
  rcases SDBQueue.setNext_spec ht₂ (firstPtr back none) with ⟨q₃, hset₃, h₃⟩
  have hback₃ : Seg q₃.heap (some e.1) back none := hback.frame fun b hb =>
    (h₃.other b (ne_of_mem_of_not_mem hb htb)).trans
      ((h₂.other b (hbf b hb)).trans (h₁.other b (ne_of_mem_of_not_mem hb heb)))
  have hlast₃ : q₃.queueLast = lastPtr (some e.1) back :=
    (h₃.last.trans (h₂.last.trans h₁.last)).trans hlast
  rcases SDBQueue.linkPrev_spec hback₃ hndb hlast₃ (some t.1) with ⟨q₄, hlink₄, h₄⟩
  have ht₄ := (h₄.other t.1 htb).trans h₃.node
  have he₄ := (h₄.other e.1 heb).trans ((h₃.other e.1 hte.symm).trans he₂)
  -- the two elements are linked to each other
  rcases SDBQueue.setPrev_spec ht₄ (some e.1) with ⟨q₅, hset₅, h₅⟩
  have he₅ := (h₅.other e.1 hte.symm).trans he₄
  rcases SDBQueue.setNext_spec he₅ (some t.1) with ⟨q₆, hset₆, h₆⟩
  refine ⟨q₆, ?_, seg_append.2 ⟨?_, h₆.node, (h₆.other t.1 hte).trans h₅.node, ?_⟩, hnodup', ?_,
    ?_, ?_⟩
  · simp only [swap, ht, hset₁, h₁.node, hlink₂, he₂, hset₃, h₃.node, hlink₄, hset₅, hset₆,
      Option.bind_eq_bind, Option.bind_some]
  · refine h₂.seg.frame fun b hb => ?_
    have hbb : b ∉ addrs back := fun hm => hbf b hm hb
    have hbt : b ≠ t.1 := ne_of_mem_of_not_mem hb htf
    have hbe : b ≠ e.1 := ne_of_mem_of_not_mem hb hef
    rw [h₆.other b hbe, h₅.other b hbt, h₄.other b hbb, h₃.other b hbt]
  · refine h₄.seg.frame fun b hb => ?_
    rw [h₆.other b (ne_of_mem_of_not_mem hb heb), h₅.other b (ne_of_mem_of_not_mem hb htb)]
  · rw [h₆.first, h₅.first, h₄.first, h₃.first, h₂.first, firstPtr_append]
    rfl
  · rw [h₆.last, h₅.last, h₄.last, lastPtr_append]
    rfl
  · rw [h₆.allocated, h₅.allocated, h₄.allocated, h₃.allocated, h₂.allocated, h₁.allocated]
    simpa using hcount

theorem append_spec {q : SDBQueue} {cells : List (Nat × SDBPacket)} (h : Holds q cells)
    {a : Nat} (hfree : q.heap a = none) (p : SDBPacket) :
    ∃ q', append q a p = some q' ∧ Holds q' (cells ++ [(a, p)]) := by
  rcases h with ⟨hseg, hnodup, hfirst, hlast, hcount⟩
  have ha : a ∉ addrs cells := hseg.not_mem_of_none hfree
  have hnodup' : (addrs (cells ++ [(a, p)])).Nodup := by
    simp only [addrs_append, addrs_cons, addrs_nil, List.nodup_append]
    refine ⟨hnodup, by simp, fun b hb b' hb' => ?_⟩
    rw [List.mem_singleton.1 hb']
    exact ne_of_mem_of_not_mem hb ha
  -- the state after `malloc`
  let q₀ : SDBQueue :=
    { q with
      heap := q.heap.put a (some { val := p, prev := none, next := none })
      allocated := q.allocated + 1 }
  have ha₀ : q₀.heap a = some { val := p, prev := none, next := none } := Heap.put_same _ _ _
  rcases Decidable.em (cells = []) with rfl | hne
  · have hnil : q.queueFirst = none := hfirst
    refine ⟨{ q₀ with queueFirst := some a, queueLast := some a }, ?_, ⟨ha₀, trivial⟩, hnodup',
      rfl, rfl, by simp [q₀]⟩
    simp [append, hnil, q₀]
  · rcases lastPtr_eq_some (p := none) hne with ⟨init, c, hcells, hback⟩
    have hsome : q.queueFirst = some (cells.head hne).1 := by
      rw [hfirst]
      cases cells with
      | nil => exact absurd rfl hne
      | cons d cells => rfl
    -- the new element points back to the last one, which points to it
    rcases SDBQueue.setPrev_spec ha₀ q.queueLast with ⟨q₁, hset₁, h₁⟩
    have hseg₁ : Seg q₁.heap none cells none := hseg.frame fun b hb =>
      have hba := ne_of_mem_of_not_mem hb ha
      (h₁.other b hba).trans (Heap.put_other hba _)
    rcases SDBQueue.linkNext_spec hseg₁ hnodup (h₁.first.trans hfirst) (some a) with
      ⟨q₂, hlink₂, h₂⟩
    have hset₂ : q₁.setNext c.1 (some a) = some q₂ := by
      simpa [SDBQueue.linkNext, hback] using hlink₂
    refine ⟨{ q₂ with queueLast := some a }, ?_, seg_append.2 ⟨h₂.seg, ?_, trivial⟩, hnodup', ?_,
      ?_, ?_⟩
    · have hlast₁ : q₁.queueLast = some c.1 := h₁.last.trans (hlast.trans hback)
      simp only [append, hsome, Option.bind_eq_bind]
      simp only [q₀, hsome] at hset₁
      simp [hset₁, hlast₁, hset₂]
    · simpa [firstPtr, hlast] using (h₂.other a ha).trans h₁.node
    · rw [firstPtr_append]
      exact h₂.first
    · simp [lastPtr]
    · rw [h₂.allocated, h₁.allocated]
      simpa [q₀] using hcount

/-- The first cell's packet has the higher priority: what the loop tests. -/
def outranks (c d : Nat × SDBPacket) : Prop := c.2.priority > d.2.priority

instance : DecidableRel outranks := fun c d =>
  inferInstanceAs (Decidable (c.2.priority > d.2.priority))

/-- The loop carries the element back to its place among the cells in front of it. -/
theorem bubble_spec {fuel : Nat} {q : SDBQueue} {front back : List (Nat × SDBPacket)}
    {e : Nat × SDBPacket} (h : Holds q (front ++ e :: back))
    (hsorted : front.Pairwise fun c d => ¬ outranks d c) (hfuel : front.length < fuel) :
    ∃ q', bubble fuel q e.1 = some q' ∧ Holds q' (front.orderedInsert outranks e ++ back) := by
  induction fuel generalizing q front back with
  | zero => exact absurd hfuel (Nat.not_lt_zero _)
  | succ fuel ih =>
      have he := (seg_append.1 h.seg).2.1
      rcases List.eq_nil_or_concat front with rfl | ⟨init, t, rfl⟩
      · -- `queue_elem->prev == NULL`
        refine ⟨q, ?_, h⟩
        simp only [lastPtr_nil] at he
        simp [bubble, he]
      · rw [List.concat_eq_append] at *
        have ht := (seg_append.1 (seg_append.1 h.seg).1).2.1
        simp only [lastPtr_append, lastPtr_cons, lastPtr_nil] at he
        by_cases hrank : outranks e t
        · -- the element passes the one in front of it
          rw [List.append_assoc] at h
          rcases swap_spec h with ⟨q₁, hswap, h₁⟩
          rcases ih h₁ (List.pairwise_append.1 hsorted).1 (by simpa using hfuel) with
            ⟨q₂, hbubble, h₂⟩
          refine ⟨q₂, ?_, ?_⟩
          · have hgt : e.2.priority > t.2.priority := hrank
            simp [bubble, he, ht, hgt, hswap, hbubble]
          · rw [orderedInsert_concat_of_rel hrank]
            simpa using h₂
        · -- it stops, and stands behind all of them
          have hstay : ∀ c ∈ init ++ [t], ¬ outranks e c := by
            intro c hc
            rcases List.mem_append.1 hc with hc | hc
            · have hct := (List.pairwise_append.1 hsorted).2.2 c hc t (by simp)
              unfold outranks at *
              omega
            · rw [List.mem_singleton.1 hc]
              exact hrank
          refine ⟨q, ?_, ?_⟩
          · have hle : ¬ e.2.priority > t.2.priority := hrank
            simp [bubble, he, ht, hle]
          · rw [orderedInsert_of_forall_not hstay]
            simpa using h

theorem sdbQueuePushNolock_spec {q : SDBQueue} {cells : List (Nat × SDBPacket)}
    (h : Holds q cells) (hsorted : cells.Pairwise fun c d => ¬ outranks d c) {a : Nat}
    (hfree : q.heap a = none) (p : SDBPacket) :
    ∃ q', sdbQueuePushNolock q a p = some q' ∧
      Holds q' (cells.orderedInsert outranks (a, p)) := by
  rcases append_spec h hfree p with ⟨q₁, happend, h₁⟩
  have hfuel : cells.length + 1 ≤ q₁.allocated := by simpa using h₁.count
  rcases bubble_spec h₁ hsorted hfuel with ⟨q₂, hbubble, h₂⟩
  refine ⟨q₂, ?_, by simpa using h₂⟩
  simp [sdbQueuePushNolock, happend, hbubble]

/-! ## Taking elements out -/

/-- The search finds the first cell whose packet has the id. -/
theorem search_spec {q : SDBQueue} {cells : List (Nat × SDBPacket)} (h : Holds q cells)
    (id : UInt32) :
    search q id = some ((cells.find? fun c => c.2.pkt.id == id).map Prod.fst) := by
  rw [search, h.first]
  exact h.seg.findFrom (Nat.lt_succ_of_le h.count) fun sdbPkt => sdbPkt.pkt.id == id

theorem sdbQueueGetNolock_spec {q : SDBQueue} {cells : List (Nat × SDBPacket)}
    (h : Holds q cells) (answer : MCSPacket) :
    ∃ q', sdbQueueGetNolock q answer =
        some (q', (cells.find? fun c => c.2.pkt.id == answer.id).map Prod.snd) ∧
      Holds q' (cells.eraseP fun c => c.2.pkt.id == answer.id) := by
  have hsearch := search_spec h answer.id
  cases hfind : cells.find? fun c => c.2.pkt.id == answer.id with
  | none =>
      -- nothing matches: the queue is returned as it is
      have hnone : ∀ c ∈ cells, ¬ (c.2.pkt.id == answer.id) := by
        simpa using List.find?_eq_none.1 hfind
      refine ⟨q, ?_, ?_⟩
      · simp [sdbQueueGetNolock, hsearch, hfind]
      · rw [List.eraseP_of_forall_not hnone]
        exact h
  | some c =>
      rcases List.find?_eq_some_iff_append.1 hfind with ⟨hc, front, back, rfl, hfront⟩
      have hnode := (seg_append.1 h.seg).2.1
      rcases sdbQueueDelete_spec h with ⟨q', hdelete, h'⟩
      refine ⟨q', ?_, ?_⟩
      · simp [sdbQueueGetNolock, hsearch, hfind, hnode, hdelete]
      · rw [List.eraseP_append_right _ (by simpa using hfront)]
        simpa [List.eraseP_cons, hc] using h'

theorem sdbQueuePop_spec {q : SDBQueue} {c : Nat × SDBPacket} {cells : List (Nat × SDBPacket)}
    (h : Holds q (c :: cells)) :
    ∃ q', sdbQueuePop q = some (q', c.2) ∧ Holds q' cells := by
  have hfront : Holds q ([] ++ c :: cells) := h
  rcases sdbQueueDelete_spec hfront with ⟨q', hdelete, h'⟩
  have hfirst : q.queueFirst = some c.1 := h.first
  refine ⟨q', ?_, h'⟩
  simp [sdbQueuePop, hfirst, h.seg.1, hdelete]

/-! ## Runs of operations -/

inductive QueueOp where
  | push (queueElem : Nat) (sdbPkt : SDBPacket)
  | get (answer : MCSPacket)
  | pop

namespace QueueOp

/-- What the code does: the queue after the operation and the packet it returns, if any. -/
def exec (q : SDBQueue) : QueueOp → Option (SDBQueue × Option SDBPacket)
  | push queueElem sdbPkt => (sdbQueuePushNolock q queueElem sdbPkt).map fun q' => (q', none)
  | get answer => sdbQueueGetNolock q answer
  | pop => (sdbQueuePop q).map fun r => (r.1, some r.2)

/-- `malloc` returns an address that is not in use, and a pop is not made on an empty queue. -/
def Enabled (q : SDBQueue) : QueueOp → Prop
  | push queueElem _ => q.heap queueElem = none
  | get _ => True
  | pop => q.queueFirst ≠ none

/-- What the operation is for. -/
def spec (S : PriorityList SDBPacket.priority) :
    QueueOp → Option (PriorityList SDBPacket.priority × Option SDBPacket)
  | push _ sdbPkt => some (S.push sdbPkt, none)
  | get answer => some (S.take fun sdbPkt => sdbPkt.pkt.id == answer.id)
  | pop => S.pop?.map fun r => (r.1, some r.2)

end QueueOp

def execAll (q : SDBQueue) : List QueueOp → Option (SDBQueue × List (Option SDBPacket))
  | [] => some (q, [])
  | op :: ops => do
      let r ← op.exec q
      let r' ← execAll r.1 ops
      some (r'.1, r.2 :: r'.2)

def specAll (S : PriorityList SDBPacket.priority) :
    List QueueOp → Option (PriorityList SDBPacket.priority × List (Option SDBPacket))
  | [] => some (S, [])
  | op :: ops => do
      let r ← op.spec S
      let r' ← specAll r.1 ops
      some (r'.1, r.2 :: r'.2)

/-- Every operation is enabled in the state the code has reached before it. -/
def Legal (q : SDBQueue) : List QueueOp → Prop
  | [] => True
  | op :: ops =>
      op.Enabled q ∧
        match op.exec q with
        | none => True
        | some r => Legal r.1 ops

instance (q : SDBQueue) (op : QueueOp) : Decidable (op.Enabled q) :=
  match op with
  | .push queueElem _ => inferInstanceAs (Decidable (q.heap queueElem = none))
  | .get _ => inferInstanceAs (Decidable True)
  | .pop => inferInstanceAs (Decidable (q.queueFirst ≠ none))

instance decidableLegal (q : SDBQueue) : (ops : List QueueOp) → Decidable (Legal q ops)
  | [] => inferInstanceAs (Decidable True)
  | op :: ops =>
      match h : op.exec q with
      | none => decidable_of_iff (op.Enabled q) (by simp [Legal, h])
      | some r =>
          have := decidableLegal r.1 ops
          decidable_of_iff (op.Enabled q ∧ Legal r.1 ops) (by simp [Legal, h])

/-- The queue holds the values of the priority list. -/
def Represents (q : SDBQueue) (S : PriorityList SDBPacket.priority) : Prop :=
  ∃ cells, Holds q cells ∧ cells.map Prod.snd = S.values

theorem exec_refines {q : SDBQueue} {S : PriorityList SDBPacket.priority} {op : QueueOp}
    (h : Represents q S) (henabled : op.Enabled q) :
    ∃ q' S' out, op.exec q = some (q', out) ∧ op.spec S = some (S', out) ∧
      Represents q' S' := by
  rcases h with ⟨cells, hcells, hvalues⟩
  cases op with
  | push queueElem sdbPkt =>
      -- the list is sorted by priority, which is what the loop of the push relies on
      have hsorted : cells.Pairwise fun c d => ¬ outranks d c := by
        have := S.values_sorted
        rw [← hvalues] at this
        exact List.pairwise_map.1 this
      rcases sdbQueuePushNolock_spec hcells hsorted henabled sdbPkt with ⟨q', hpush, h'⟩
      refine ⟨q', S.push sdbPkt, none, by simp [QueueOp.exec, hpush], rfl, _, h', ?_⟩
      rw [S.values_push, ← hvalues]
      exact map_orderedInsert_of_iff Prod.snd fun c _ => Iff.rfl
  | get answer =>
      rcases sdbQueueGetNolock_spec hcells answer with ⟨q', hget, h'⟩
      -- searching the cells and searching their values is the same
      let test : SDBPacket → Bool := fun sdbPkt => sdbPkt.pkt.id == answer.id
      refine ⟨q', (S.take test).1, (S.take test).2, ?_, rfl, _, h', ?_⟩
      · have hfind : (S.take test).2 = (cells.find? (test ∘ Prod.snd)).map Prod.snd := by
          rw [← List.find?_map, hvalues]
          rfl
        rw [hfind]
        exact hget
      · rw [S.values_take, ← hvalues, List.eraseP_map]
        rfl
  | pop =>
      cases cells with
      | nil => exact absurd hcells.first henabled
      | cons c cells =>
          rcases sdbQueuePop_spec hcells with ⟨q', hpop, h'⟩
          rcases PriorityList.pop?_of_values hvalues.symm with ⟨S', hspec, hvalues'⟩
          refine ⟨q', S', some c.2, by simp [QueueOp.exec, hpop], ?_, cells, h', hvalues'.symm⟩
          simp [QueueOp.spec, hspec]

theorem execAll_refines {q : SDBQueue} {S : PriorityList SDBPacket.priority}
    {ops : List QueueOp} (h : Represents q S) (hlegal : Legal q ops) :
    ∃ q' S' outs, execAll q ops = some (q', outs) ∧ specAll S ops = some (S', outs) ∧
      Represents q' S' := by
  induction ops generalizing q S with
  | nil => exact ⟨q, S, [], rfl, rfl, h⟩
  | cons op ops ih =>
      rcases exec_refines h hlegal.1 with ⟨q₁, S₁, out, hexec, hspec, h₁⟩
      have hlegal₁ : Legal q₁ ops := by simpa [Legal, hexec] using hlegal.2
      rcases ih h₁ hlegal₁ with ⟨q₂, S₂, outs, hexec₂, hspec₂, h₂⟩
      refine ⟨q₂, S₂, out :: outs, ?_, ?_, h₂⟩
      · simp [execAll, hexec, hexec₂]
      · simp [specAll, hspec, hspec₂]

theorem represents_init : Represents sdbQueueInit PriorityList.empty :=
  ⟨[], holds_init, rfl⟩

/-- Every run of the linked queue goes through the outputs of the stable priority list, without a
fault, and leaves a list that is the same read forwards and backwards. -/
theorem queue_run_refines (ops : List QueueOp) (hlegal : Legal sdbQueueInit ops) :
    ∃ q S outs cells,
      execAll sdbQueueInit ops = some (q, outs) ∧
      specAll PriorityList.empty ops = some (S, outs) ∧
      WalkNext q.heap q.queueFirst cells ∧
      WalkPrev q.heap q.queueLast cells.reverse ∧
      (q.queueFirst = none ↔ cells = []) ∧
      (q.queueLast = none ↔ cells = []) ∧
      cells.map Prod.snd = S.entries.map Prod.snd ∧
      S.entries.Pairwise (Before SDBPacket.priority) := by
  rcases execAll_refines represents_init hlegal with ⟨q, S, outs, hexec, hspec, cells, h, hvalues⟩
  refine ⟨q, S, outs, cells, hexec, hspec, ?_, ?_, ?_, ?_, hvalues, S.sorted⟩
  · rw [h.first]
    exact h.seg.walkNext
  · rw [h.last]
    exact h.seg.walkPrev
  · rw [h.first]
    exact firstPtr_none_iff
  · rw [h.last]
    exact lastPtr_none_iff

/-- Three packets, the last with the highest priority, the second taken out by its id, the front
popped, and the freed address used again. -/
def mixedRun : List QueueOp :=
  [.push 4 ⟨0, 0, mcsOkPacketId 1⟩, .push 9 ⟨0, 0, mcsOkPacketId 2⟩,
    .push 2 ⟨1, 7, mcsOkPacketId 3⟩, .get (mcsOkPacketId 2), .pop,
    .push 9 ⟨2, 0, mcsOkPacketId 4⟩]

theorem queue_run_refines_mixedRun :
    ∃ q S outs cells,
      execAll sdbQueueInit mixedRun = some (q, outs) ∧
      specAll PriorityList.empty mixedRun = some (S, outs) ∧
      WalkNext q.heap q.queueFirst cells ∧
      WalkPrev q.heap q.queueLast cells.reverse ∧
      (q.queueFirst = none ↔ cells = []) ∧
      (q.queueLast = none ↔ cells = []) ∧
      cells.map Prod.snd = S.entries.map Prod.snd ∧
      S.entries.Pairwise (Before SDBPacket.priority) :=
  queue_run_refines mixedRun (by decide)

/-! ## The queues of the bus -/

/-- The linked queue behind a list of packets, all of them with the priority `sdb_packet` gives. -/
structure Behind (q : SDBQueue) (queue : List SDBPacket) : Prop where
  cells : ∃ cells, Holds q cells ∧ cells.map Prod.snd = queue
  default : ∀ p ∈ queue, p.priority = 0

theorem behind_init : Behind sdbQueueInit [] where
  cells := ⟨[], holds_init, rfl⟩
  default := by simp

section Bus

variable {q : SDBQueue} {s : Bus} {me : Nat}

/-- A push appends: nothing is outranked. -/
theorem behind_queuePush (h : Behind q (s.modules me).queue) {a : Nat} (hfree : q.heap a = none)
    (pkt : MCSPacket) (id : Nat) :
    ∃ q', sdbQueuePushNolock q a (sdbPacket pkt id) = some q' ∧
      Behind q' ((queuePush me pkt id s).modules me).queue := by
  rcases h.cells with ⟨cells, hcells, hqueue⟩
  -- all priorities are 0, so the loop of the push stops at once
  have hzero : ∀ c ∈ cells, c.2.priority = 0 := fun c hc =>
    h.default c.2 (hqueue ▸ List.mem_map_of_mem hc)
  have hsorted : cells.Pairwise fun c d => ¬ outranks d c :=
    List.pairwise_of_forall_mem_list fun c hc d hd => by
      simp [outranks, hzero c hc, hzero d hd]
  have hlast : cells.orderedInsert outranks (a, sdbPacket pkt id) =
      cells ++ [(a, sdbPacket pkt id)] :=
    orderedInsert_of_forall_not fun c hc => by simp [outranks, hzero c hc, sdbPacket]
  rcases sdbQueuePushNolock_spec hcells hsorted hfree (sdbPacket pkt id) with ⟨q', hpush, h'⟩
  refine ⟨q', hpush, ⟨_, h', by simp [hlast, hqueue, queuePush]⟩, ?_⟩
  intro p hp
  have hmem : p ∈ (s.modules me).queue ∨ p = sdbPacket pkt id := by
    simpa [queuePush] using hp
  rcases hmem with hold | rfl
  · exact h.default p hold
  · rfl

/-- A get returns and removes the first packet with the id. -/
theorem behind_queueGet (h : Behind q (s.modules me).queue) (answer : MCSPacket) :
    ∃ q', sdbQueueGetNolock q answer = some (q', (queueGet me answer s).1) ∧
      Behind q' ((queueGet me answer s).2.modules me).queue := by
  rcases h.cells with ⟨cells, hcells, hqueue⟩
  rcases sdbQueueGetNolock_spec hcells answer with ⟨q', hget, h'⟩
  have hfind : (queueGet me answer s).1 =
      (cells.find? fun c => c.2.pkt.id == answer.id).map Prod.snd := by
    simp only [queueGet, ← hqueue, List.find?_map]
    rfl
  refine ⟨q', by rw [hfind, hget], ⟨_, h', ?_⟩, ?_⟩
  · simp [queueGet, ← hqueue, List.eraseP_map, Function.comp_def]
  · intro p hp
    have hmem : p ∈ (s.modules me).queue.eraseP fun p => p.pkt.id == answer.id := by
      simpa [queueGet] using hp
    exact h.default p (List.mem_of_mem_eraseP hmem)

end Bus

end SDB
end AbsPlatform

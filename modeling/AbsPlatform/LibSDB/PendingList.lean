import AbsPlatform.Lib.DoublyLinked
import AbsPlatform.LibSDB.Pending

/-!
# PendingList — the linked list behind the pending entries

`add_pending_id`, `delete_pending_id` and `get_pending_packet_id` of `Libraries/SDB/sdb.c` on the
heap: the entries are linked in both directions, and there is a pointer to the first one only.  As
for the queue of the bus, the address `malloc` returns is an argument, and `none` is a fault or a
loop that does not end within its fuel.

Every run of calls keeps the links in order, and the identifiers are those of a stack from which the
first occurrence of one is taken out.  `Pending` works on such a list; `Links` relates the two.
-/

namespace AbsPlatform
namespace LibSDB

open Lib

/-! ## The functions -/

structure PendingList where
  heap : Heap SDBPendingPacket
  pendingListFirst : Option Nat
  /-- entries allocated so far, a bound for the loops -/
  allocated : Nat

def PendingList.init : PendingList where
  heap := fun _ => none
  pendingListFirst := none
  allocated := 0

/-- `get_pending_packet_id`: the entry, or NULL. -/
def getPendingPacketId (q : PendingList) (pktId : UInt32) : Option (Option Nat) :=
  q.heap.findFrom (fun p => p.ppId == pktId) (q.allocated + 1) q.pendingListFirst

/-- `add_pending_id`, `queue_elem` being the address `malloc` returned. -/
def addPendingId (q : PendingList) (queueElem : Nat) (pktId : UInt32) : Option PendingList := do
  let h := q.heap.put queueElem (some { val := newPending pktId, prev := none, next := none })
  let h ← h.linkPrev q.pendingListFirst (some queueElem)
  let h ← h.setNext queueElem q.pendingListFirst
  let h ← h.setPrev queueElem none
  some { heap := h, pendingListFirst := some queueElem, allocated := q.allocated + 1 }

/-- The body of the loop of `delete_pending_id` at the entry that is deleted. -/
def unlink (q : PendingList) (queueElem : Nat) : Option PendingList := do
  let elem ← q.heap queueElem
  let h ← q.heap.linkPrev elem.next elem.prev
  let elem ← h queueElem
  if some queueElem = q.pendingListFirst then
    some { q with heap := h.put queueElem none, pendingListFirst := elem.next }
  else do
    let prev ← elem.prev
    let h ← h.setNext prev elem.next
    -- `free(queue_elem)`
    some { q with heap := h.put queueElem none }

/-- `delete_pending_id`; its loop goes through the list as that of `get_pending_packet_id` does. -/
def deletePendingId (q : PendingList) (pktId : UInt32) : Option PendingList :=
  match getPendingPacketId q pktId with
  | none => none
  | some none => some q
  | some (some queueElem) => unlink q queueElem

/-! ## The list they hold -/

/-- The links from `pending_list_first` on lead through these cells and back. -/
structure PendingList.Holds (q : PendingList) (cells : List (Nat × SDBPendingPacket)) : Prop where
  seg : Seg q.heap none cells none
  nodup : (addrs cells).Nodup
  first : q.pendingListFirst = firstPtr cells none
  count : cells.length ≤ q.allocated

/-- The identifiers of the cells. -/
def ids (cells : List (Nat × SDBPendingPacket)) : List UInt32 := cells.map fun c => c.2.ppId

section

variable {q : PendingList} {cells front back : List (Nat × SDBPendingPacket)}
  {c : Nat × SDBPendingPacket}

theorem holds_init : PendingList.init.Holds [] where
  seg := trivial
  nodup := List.nodup_nil
  first := rfl
  count := Nat.le_refl 0

theorem getPendingPacketId_spec (h : q.Holds cells) (pktId : UInt32) :
    getPendingPacketId q pktId =
      some ((cells.find? fun c => c.2.ppId == pktId).map Prod.fst) := by
  rw [getPendingPacketId, h.first]
  exact h.seg.findFrom (Nat.lt_succ_of_le h.count) fun p => p.ppId == pktId

theorem addPendingId_spec (h : q.Holds cells) {queueElem : Nat} (hfree : q.heap queueElem = none)
    (pktId : UInt32) :
    ∃ q', addPendingId q queueElem pktId = some q' ∧
      q'.Holds ((queueElem, newPending pktId) :: cells) ∧
      ∀ b, b ≠ queueElem → b ∉ addrs cells → q'.heap b = q.heap b := by
  have hout : queueElem ∉ addrs cells := h.seg.not_mem_of_none hfree
  let h₀ := q.heap.put queueElem (some { val := newPending pktId, prev := none, next := none })
  have hseg₀ : Seg h₀ none cells none :=
    h.seg.frame fun b hb => Heap.put_other (ne_of_mem_of_not_mem hb hout) _
  -- the old first entry leads back to the new one, which is not touched by that
  rcases hseg₀.linkPrev h.nodup (some queueElem) with ⟨h₁, hlink₁, hseg₁, hother₁⟩
  have hnode₁ : h₁ queueElem = some { val := newPending pktId, prev := none, next := none } :=
    (hother₁ queueElem hout).trans (Heap.put_same ..)
  have hlink : h₀.linkPrev q.pendingListFirst (some queueElem) = some h₁ := h.first ▸ hlink₁
  let node : Node SDBPendingPacket :=
    { val := newPending pktId, prev := none, next := q.pendingListFirst }
  let h₂ := h₁.put queueElem (some node)
  let h₃ := h₂.put queueElem (some node)
  have hset₂ : h₁.setNext queueElem q.pendingListFirst = some h₂ := Heap.modify?_of_some hnode₁ _
  have hset₃ : h₂.setPrev queueElem none = some h₃ := Heap.modify?_of_some (Heap.put_same ..) _
  refine ⟨{ heap := h₃, pendingListFirst := some queueElem, allocated := q.allocated + 1 }, ?_,
    ⟨⟨?_, ?_⟩, ?_, rfl, ?_⟩, fun b hb hmem => ?_⟩
  · change ((h₀.linkPrev q.pendingListFirst (some queueElem)).bind _) = _
    simp only [hlink, hset₂, hset₃, Option.bind_eq_bind, Option.bind_some]
  · simp [h₃, node, h.first]
  · refine hseg₁.frame fun b hb => ?_
    have hne : b ≠ queueElem := ne_of_mem_of_not_mem hb hout
    exact (Heap.put_other hne _).trans (Heap.put_other hne _)
  · exact List.nodup_cons.2 ⟨hout, h.nodup⟩
  · exact Nat.succ_le_succ h.count
  · exact (Heap.put_other hb _).trans ((Heap.put_other hb _).trans
      ((hother₁ b hmem).trans (Heap.put_other hb _)))

/-- An entry at the front, in the middle or at the end is taken out of the list. -/
theorem unlink_spec (h : q.Holds (front ++ c :: back)) :
    ∃ q', unlink q c.1 = some q' ∧ q'.Holds (front ++ back) ∧
      ∀ b, b ∉ addrs (front ++ c :: back) → q'.heap b = q.heap b := by
  rcases h with ⟨hseg, hnodup, hfirst, hcount⟩
  rcases seg_append.1 hseg with ⟨hfront, hc, hback⟩
  simp only [addrs_append, addrs_cons, List.nodup_append, List.nodup_cons] at hnodup
  rcases hnodup with ⟨hndf, ⟨hcb, hndb⟩, hdisj⟩
  have hcf : c.1 ∉ addrs front := fun hm => hdisj _ hm c.1 (by simp) rfl
  have hfb : ∀ b ∈ addrs front, b ∉ addrs back := fun b hb hm =>
    hdisj b hb b (List.mem_cons_of_mem _ hm) rfl
  have hnodup' : (addrs (front ++ back)).Nodup := by
    simp only [addrs_append, List.nodup_append]
    exact ⟨hndf, hndb, fun b hb b' hb' => hdisj b hb b' (List.mem_cons_of_mem _ hb')⟩
  have hcount' : (front ++ back).length ≤ q.allocated := by
    simp only [List.length_append, List.length_cons] at hcount ⊢
    omega
  -- the entry behind it leads back to what is in front of it
  rcases hback.linkPrev hndb (lastPtr none front) with ⟨h₁, hlink₁, hback₁, hother₁⟩
  have hc₁ := (hother₁ c.1 hcb).trans hc
  have hfront₁ := hfront.frame fun b hb => hother₁ b (hfb b hb)
  rcases Decidable.em (front = []) with rfl | hne
  · -- it is the first one, and the list begins with what is behind it
    refine ⟨{ q with heap := h₁.put c.1 none, pendingListFirst := firstPtr back none }, ?_,
      ⟨hback₁.frame ?_, hnodup', rfl, hcount'⟩, ?_⟩
    · have hfirst' : some c.1 = q.pendingListFirst := hfirst.symm
      simp only [unlink, hc, hlink₁, hc₁, if_pos hfirst', Option.bind_eq_bind, Option.bind_some]
    · exact fun b hb => Heap.put_other (ne_of_mem_of_not_mem hb hcb) _
    · intro b hb
      simp only [List.nil_append, addrs_cons, List.mem_cons, not_or] at hb
      exact (Heap.put_other hb.1 _).trans (hother₁ b hb.2)
  · -- the entry in front of it leads on to what is behind it
    rcases lastPtr_eq_some (p := none) hne with ⟨init, d, rfl, hlast⟩
    rcases hfront₁.relinkNext hndf (firstPtr back none) with ⟨h₂, hset₂, hfront₂, hother₂⟩
    have hd : d.1 ∈ addrs (init ++ [d]) := by simp
    have hnotFirst : ¬ some c.1 = q.pendingListFirst := by
      rw [hfirst]
      intro heq
      refine hcf ?_
      cases init with
      | nil => simp_all
      | cons e init => simp_all
    have hback₂ : Seg h₂ (some d.1) back none := by
      rw [← hlast]
      exact hback₁.frame fun b hb => hother₂ b (by rintro rfl; exact hfb _ hd hb)
    refine ⟨{ q with heap := h₂.put c.1 none }, ?_,
      ⟨seg_append.2 ⟨hfront₂.frame ?_, ?_⟩, hnodup', ?_, hcount'⟩, ?_⟩
    · rw [hlast] at hc hc₁ hlink₁
      simp only [unlink, hc, hlink₁, hc₁, if_neg hnotFirst, hset₂, Option.bind_eq_bind,
        Option.bind_some]
    · exact fun b hb => Heap.put_other (ne_of_mem_of_not_mem hb hcf) _
    · rw [hlast]
      exact hback₂.frame fun b hb => Heap.put_other (ne_of_mem_of_not_mem hb hcb) _
    · rw [hfirst]
      cases init <;> rfl
    · intro b hb
      simp only [addrs_append, addrs_cons, List.mem_append, List.mem_cons, not_or] at hb
      refine (Heap.put_other hb.2.1 _).trans ((hother₂ b ?_).trans (hother₁ b hb.2.2))
      exact fun hbd => hb.1.2.1 hbd

theorem deletePendingId_spec (h : q.Holds cells) (pktId : UInt32) :
    ∃ q', deletePendingId q pktId = some q' ∧
      q'.Holds (cells.eraseP fun c => c.2.ppId == pktId) ∧
      ∀ b, b ∉ addrs cells → q'.heap b = q.heap b := by
  have hget := getPendingPacketId_spec h pktId
  cases hfind : cells.find? fun c => c.2.ppId == pktId with
  | none =>
      have hnone : ∀ c ∈ cells, ¬ (c.2.ppId == pktId) := by
        simpa using List.find?_eq_none.1 hfind
      refine ⟨q, by simp [deletePendingId, hget, hfind], ?_, fun _ _ => rfl⟩
      rw [List.eraseP_of_forall_not hnone]
      exact h
  | some c =>
      rcases List.find?_eq_some_iff_append.1 hfind with ⟨hc, front, back, rfl, hfront⟩
      rcases unlink_spec h with ⟨q', hunlink, h', hother⟩
      refine ⟨q', by simp [deletePendingId, hget, hfind, hunlink], ?_, hother⟩
      rw [List.eraseP_append_right _ (by simpa using hfront)]
      simpa [List.eraseP_cons, hc] using h'

theorem ids_eraseP (pktId : UInt32) :
    ids (cells.eraseP fun c => c.2.ppId == pktId) = (ids cells).erase pktId := by
  rw [List.erase_eq_eraseP', ids, ids, List.eraseP_map]
  rfl

end

/-! ## Runs of calls -/

inductive PendingOp
  | add (queueElem : Nat) (pktId : UInt32)
  | delete (pktId : UInt32)

namespace PendingOp

def exec (q : PendingList) : PendingOp → Option PendingList
  | add queueElem pktId => addPendingId q queueElem pktId
  | delete pktId => deletePendingId q pktId

/-- `malloc` returns an address that is not in use. -/
def Enabled (q : PendingList) : PendingOp → Prop
  | add queueElem _ => q.heap queueElem = none
  | delete _ => True

instance (q : PendingList) (op : PendingOp) : Decidable (op.Enabled q) :=
  match op with
  | add queueElem _ => inferInstanceAs (Decidable (q.heap queueElem = none))
  | delete _ => inferInstanceAs (Decidable True)

/-- What the call does to the identifiers. -/
def spec (stack : List UInt32) : PendingOp → List UInt32
  | add _ pktId => pktId :: stack
  | delete pktId => stack.erase pktId

end PendingOp

section

variable {q q' : PendingList} {cells : List (Nat × SDBPendingPacket)} {op : PendingOp}

theorem exec_refines (h : q.Holds cells) (henabled : op.Enabled q) :
    ∃ q' cells', op.exec q = some q' ∧ q'.Holds cells' ∧ ids cells' = op.spec (ids cells) := by
  cases op with
  | add queueElem pktId =>
      rcases addPendingId_spec h henabled pktId with ⟨q', hadd, h', _⟩
      exact ⟨q', _, hadd, h', rfl⟩
  | delete pktId =>
      rcases deletePendingId_spec h pktId with ⟨q', hdelete, h', _⟩
      exact ⟨q', _, hdelete, h', ids_eraseP pktId⟩

/-- Without a fault, and with the identifiers of the stack. -/
theorem exec_run_refines {ops : List PendingOp} (h : q.Holds cells)
    (hlegal : ∀ pre op post u, ops = pre ++ op :: post →
      pre.foldlM PendingOp.exec q = some u → op.Enabled u) :
    ∃ q' cells', ops.foldlM PendingOp.exec q = some q' ∧ q'.Holds cells' ∧
      ids cells' = ops.foldl PendingOp.spec (ids cells) := by
  induction ops generalizing q cells with
  | nil => exact ⟨q, cells, rfl, h, rfl⟩
  | cons op ops ih =>
      rcases exec_refines h (hlegal [] op ops q rfl rfl) with ⟨q₁, cells₁, hexec, h₁, hids⟩
      have hlegal₁ : ∀ pre op' post u, ops = pre ++ op' :: post →
          pre.foldlM PendingOp.exec q₁ = some u → op'.Enabled u := by
        intro pre op' post u hsplit hpre
        exact hlegal (op :: pre) op' post u (congrArg (List.cons op) hsplit)
          ((run_cons hexec pre).trans hpre)
      rcases ih h₁ hlegal₁ with ⟨q₂, cells₂, hrun, h₂, hids₂⟩
      refine ⟨q₂, cells₂, (run_cons hexec ops).trans hrun, h₂, ?_⟩
      rw [hids₂, hids]
      rfl

end

/-- After every sequence of calls the entries are linked in both directions, from
`pending_list_first` on to NULL and back to NULL; their identifiers are those of the stack, and
`get_pending_packet_id` finds the first entry with an identifier. -/
theorem pending_run_refines (ops : List PendingOp)
    (hlegal : ∀ pre op post u, ops = pre ++ op :: post →
      pre.foldlM PendingOp.exec .init = some u → op.Enabled u) :
    ∃ q cells, ops.foldlM PendingOp.exec .init = some q ∧
      q.pendingListFirst = firstPtr cells none ∧ Seg q.heap none cells none ∧
      (addrs cells).Nodup ∧ WalkNext q.heap q.pendingListFirst cells ∧
      WalkPrev q.heap (lastPtr none cells) cells.reverse ∧
      ids cells = ops.foldl PendingOp.spec [] ∧
      ∀ pktId, getPendingPacketId q pktId =
        some ((cells.find? fun c => c.2.ppId == pktId).map Prod.fst) := by
  rcases exec_run_refines holds_init hlegal with ⟨q, cells, hrun, h, hids⟩
  refine ⟨q, cells, hrun, h.first, h.seg, h.nodup, ?_, h.seg.walkPrev, hids,
    getPendingPacketId_spec h⟩
  rw [h.first]
  exact h.seg.walkNext

/-- Two entries with one identifier, the later one deleted, its address used again, an identifier
that is not there, and the entry in the middle deleted. -/
def pendingRun : List PendingOp :=
  [.add 4 7, .add 9 7, .delete 7, .add 9 8, .add 2 5, .delete 6, .delete 8]

theorem pending_run_refines_pendingRun :
    ∃ q cells, pendingRun.foldlM PendingOp.exec .init = some q ∧
      Seg q.heap none cells none ∧ ids cells = [5, 7] := by
  have henabled : ∀ n < pendingRun.length,
      ((pendingRun.take n).foldlM PendingOp.exec .init).all
        (fun u => (pendingRun[n]?).all fun op => op.Enabled u) = true := by decide
  rcases pending_run_refines pendingRun (fun pre op post u hsplit hpre => by
    simpa using all_actions henabled hsplit hpre) with
    ⟨q, cells, hrun, _, hseg, _, _, _, hids, _⟩
  exact ⟨q, cells, hrun, hseg, hids⟩

/-! ## The list of `Pending` -/

/-- The linked list and the client go through the same entries, each at its address. -/
structure Links (q : PendingList) (s : Client) : Prop where
  cells : ∃ cells, q.Holds cells ∧ addrs cells = s.pending ∧ ∀ c ∈ cells, s.heap c.1 = some c.2
  fresh : ∀ e, s.allocated ≤ e → q.heap e = none

section

variable {q : PendingList} {s : Client}

theorem links_init : Links .init Client.init where
  cells := ⟨[], holds_init, rfl, by simp⟩
  fresh := fun _ _ => rfl

/-- Both find the same entry. -/
theorem getPendingPacketId_of_links (h : Links q s) (pktId : UInt32) :
    getPendingPacketId q pktId = some (s.getPendingPacketId pktId) := by
  rcases h.cells with ⟨cells, hcells, haddrs, hheap⟩
  have hsame : cells.find? (fun c => c.2.ppId == pktId) =
      cells.find? fun c => (s.heap c.1).any fun p => p.ppId == pktId := by
    rw [← List.head?_filter, ← List.head?_filter]
    exact congrArg List.head? (List.filter_congr fun c hc => by simp [hheap c hc])
  rw [getPendingPacketId_spec hcells, Client.getPendingPacketId, ← haddrs, addrs, List.find?_map,
    hsame]
  rfl

/-- Both add an entry in front. -/
theorem addPendingId_of_links (h : Links q s) (pktId : UInt32) :
    ∃ q', addPendingId q s.allocated pktId = some q' ∧ Links q' (s.addPendingId pktId) := by
  rcases h.cells with ⟨cells, hcells, haddrs, hheap⟩
  have hfree := h.fresh s.allocated (Nat.le_refl _)
  have hout : s.allocated ∉ addrs cells := hcells.seg.not_mem_of_none hfree
  rcases addPendingId_spec hcells hfree pktId with ⟨q', hadd, hcells', hother⟩
  refine ⟨q', hadd, ⟨_, hcells', by simp [Client.addPendingId, haddrs], ?_⟩, fun e he => ?_⟩
  · intro c hc
    rcases List.mem_cons.1 hc with rfl | hc
    · simp [Client.addPendingId]
    · have hne : c.1 ≠ s.allocated := ne_of_mem_of_not_mem (List.mem_map_of_mem hc) hout
      simpa [Client.addPendingId, hne] using hheap c hc
  · have hlt : s.allocated < e := he
    have hmem : e ∉ addrs cells := hcells.seg.not_mem_of_none (h.fresh e hlt.le)
    rw [hother e (Nat.ne_of_gt hlt) hmem]
    exact h.fresh e hlt.le

/-- Both delete the first entry with the identifier. -/
theorem deletePendingId_of_links (h : Links q s) (pktId : UInt32) :
    ∃ q', deletePendingId q pktId = some q' ∧ Links q' (s.deletePendingId pktId) := by
  have hget := getPendingPacketId_of_links h pktId
  cases hfind : s.getPendingPacketId pktId with
  | none =>
      refine ⟨q, by simp [deletePendingId, hget, hfind], ?_⟩
      simpa [Client.deletePendingId, hfind] using h
  | some e =>
      rcases h.cells with ⟨cells, hcells, haddrs, hheap⟩
      have hmem : e ∈ addrs cells := haddrs ▸ List.mem_of_find?_eq_some hfind
      rcases List.mem_map.1 hmem with ⟨c, hc, rfl⟩
      rcases List.append_of_mem hc with ⟨front, back, rfl⟩
      rcases unlink_spec hcells with ⟨q', hunlink, hcells', hother⟩
      -- no other entry has the address
      have hnodup := hcells.nodup
      simp only [addrs_append, addrs_cons, List.nodup_append, List.nodup_cons] at hnodup
      have hfront : c.1 ∉ addrs front := fun hm => hnodup.2.2 _ hm c.1 (by simp) rfl
      have herase : addrs (front ++ back) = s.pending.erase c.1 := by
        rw [← haddrs, addrs_append, addrs_append, List.erase_append_right _ hfront]
        simp
      refine ⟨q', by simp [deletePendingId, hget, hfind, hunlink], ⟨_, hcells', ?_, ?_⟩, ?_⟩
      · simp [Client.deletePendingId, hfind, herase]
      · intro d hd
        have hne : d.1 ≠ c.1 := by
          intro heq
          rcases List.mem_append.1 hd with hd | hd
          · exact hfront (heq ▸ List.mem_map_of_mem hd)
          · exact hnodup.2.1.1 (heq ▸ List.mem_map_of_mem hd)
        have hold : d ∈ front ++ c :: back := by
          rcases List.mem_append.1 hd with hd | hd
          · exact List.mem_append_left _ hd
          · exact List.mem_append_right _ (List.mem_cons_of_mem _ hd)
        simpa [Client.deletePendingId, hfind, hne] using hheap d hold
      · intro e he
        have hle : s.allocated ≤ e := by simpa [Client.deletePendingId, hfind] using he
        have hout : e ∉ addrs (front ++ c :: back) :=
          hcells.seg.not_mem_of_none (h.fresh e hle)
        rw [hother e hout]
        exact h.fresh e hle

end

end LibSDB
end AbsPlatform

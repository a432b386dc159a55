import AbsPlatform.SDB.Deadlock

/-!
# Handoff — each packet passes through the region of a module once

Any number of threads write to the region of a module, and its own thread reads from it.  What the
owner has read is what was written, in the same order, but for the last packet while `data_valid` is
set.  The invariant ties `data_valid` to the bytes of the region: whoever is between copying a
packet and setting or clearing the flag holds the lock.
-/

namespace AbsPlatform
namespace SDB

open MCS Lib

/-! ## The invariant -/

/-- The owner has got what was written: the sender's number, and the packet up to its pointers. -/
structure Handed (w r : Nat × MCSPacket) : Prop where
  sender : r.1 = w.1
  packet : SamePacket w.2 r.2

/-- The region of module `m` has the bytes of a packet. -/
def Stored (cfg : ThreadConfig) (t : Threads) (m : Nat) (w : Nat × MCSPacket) : Prop :=
  ∃ r, readPacket cfg.arch (cfg.dataAddr m) (t.data m) = some r ∧ Handed w r

structure HandInv (cfg : ThreadConfig) (t : Threads) : Prop where
  last : t.bus.sdbModuleLast ≤ sdbModuleMax
  order : ∀ m, ∃ done, t.written m = done ++ (t.bus.modules m).mailbox.toList ∧
    List.Forall₂ Handed done (t.read m)
  stored : ∀ {m w}, (t.bus.modules m).mailbox = some w → Stored cfg t m w
  /-- a writer between its copy and the flag -/
  copied : ∀ {i c}, t.pc i = .copied c →
    (t.bus.modules c.dst).mailbox = none ∧ Stored cfg t c.dst (i, c.pkt)
  /-- the owner between its copy and the flag -/
  fetching : ∀ {i src pkt}, t.pc i = .fetching src pkt →
    ∃ w, (t.bus.modules i).mailbox = some w ∧ Handed w (src, pkt)

section Invariant

variable {cfg : ThreadConfig} {t t' : Threads} {a : ThreadAct} {i j m : Nat} {c : Call} {pc' : PC}

theorem handInv_of_started (h : Started t) : HandInv cfg t where
  last := h.last
  order := by
    intro m
    exact ⟨[], by simp [h.written, (h.fresh.mailbox m)], by simp [h.read]⟩
  stored := by
    intro m w hw
    simp [h.fresh.mailbox m] at hw
  copied := by
    intro i c hc
    simp [h.pc] at hc
  fetching := by
    intro i src pkt hpc
    simp [h.pc] at hpc

theorem Stored.of_data {w : Nat × MCSPacket} (h : Stored cfg t m w) (hdata : t'.data m = t.data m) :
    Stored cfg t' m w := by
  simpa [Stored, hdata] using h

/-- Regions, flags and histories stay, and no thread gets between a copy and its flag, but for an
owner that has just fetched. -/
theorem HandInv.move (h : HandInv cfg t) (hboxes : SameBoxes t.bus t'.bus)
    (hdata : t'.data = t.data) (hwritten : t'.written = t.written) (hread : t'.read = t.read)
    (hcopied : ∀ j c, t'.pc j = .copied c → t.pc j = .copied c)
    (hfetching : ∀ j src pkt, t'.pc j = .fetching src pkt →
      ∃ w, (t.bus.modules j).mailbox = some w ∧ Handed w (src, pkt)) : HandInv cfg t' where
  last := hboxes.last ▸ h.last
  order := by
    intro m
    simpa [hwritten, hread, hboxes.mailbox] using h.order m
  stored := by
    intro m w hw
    rw [hboxes.mailbox] at hw
    exact (h.stored hw).of_data (congrFun hdata m)
  copied := by
    intro j c hc
    rcases h.copied (hcopied j c hc) with ⟨hnone, hstored⟩
    exact ⟨(hboxes.mailbox _).trans hnone, hstored.of_data (congrFun hdata _)⟩
  fetching := by
    intro j src pkt hpc
    simpa [hboxes.mailbox] using hfetching j src pkt hpc

/-- A thread goes to a place that is not between a copy and its flag. -/
theorem HandInv.goto (h : HandInv cfg t) (hpc : t'.pc = Function.update t.pc i pc')
    (hboxes : SameBoxes t.bus t'.bus) (hdata : t'.data = t.data) (hwritten : t'.written = t.written)
    (hread : t'.read = t.read) (hcopied : ∀ c, pc' ≠ .copied c)
    (hfetching : ∀ src pkt, pc' ≠ .fetching src pkt) : HandInv cfg t' := by
  refine h.move hboxes hdata hwritten hread (fun j c hc => ?_) (fun j src pkt hj => ?_)
  · exact (Threads.pc_of_update hpc hc (hcopied c).symm).2
  · exact h.fetching (Threads.pc_of_update hpc hj (hfetching src pkt).symm).2

/-- The owner clears the flag: what it has copied was the last packet written. -/
theorem HandInv.consume (h : HandInv cfg t) {src : Nat} {pkt : MCSPacket}
    (hpc : t.pc i = .fetching src pkt) (hlast : t'.bus.sdbModuleLast = t.bus.sdbModuleLast)
    (hempty : (t'.bus.modules i).mailbox = none)
    (hother : ∀ k, k ≠ i → (t'.bus.modules k).mailbox = (t.bus.modules k).mailbox)
    (hpc' : t'.pc = Function.update t.pc i .loop) (hdata : t'.data = t.data)
    (hwritten : t'.written = t.written)
    (hread : t'.read = Function.update t.read i (t.read i ++ [(src, pkt)])) : HandInv cfg t' := by
  rcases h.fetching hpc with ⟨w, hbox, hhanded⟩
  refine ⟨hlast ▸ h.last, fun m => ?_, fun {m v} hv => ?_, fun {j c} hc => ?_,
    fun {j src' pkt'} hj => ?_⟩
  · rcases h.order m with ⟨done, hdone, hall⟩
    by_cases hm : m = i
    · subst hm
      -- the packet that was pending has been read now
      refine ⟨done ++ [w], by simp [hwritten, hempty, hdone, hbox], ?_⟩
      rw [hread, Function.update_self]
      exact List.rel_append hall (.cons hhanded .nil)
    · exact ⟨done, by rw [hwritten, hother m hm, hdone], by simpa [hread, hm] using hall⟩
  · -- a region that is still full is another one
    have hm : m ≠ i := by
      rintro rfl
      simp [hempty] at hv
    exact (h.stored ((hother m hm).symm.trans hv)).of_data (congrFun hdata m)
  · rcases h.copied (Threads.pc_of_update hpc' hc (by simp)).2 with ⟨hnone, hstored⟩
    -- the region the packet was copied to is not the one that was full
    have hdst : c.dst ≠ i := by
      intro hdst
      simp [hdst, hbox] at hnone
    exact ⟨(hother c.dst hdst).trans hnone, hstored.of_data (congrFun hdata _)⟩
  · rcases Threads.pc_of_update hpc' hj (by simp) with ⟨hji, hold⟩
    rcases h.fetching hold with ⟨v, hv, hvr⟩
    exact ⟨v, (hother j hji).trans hv, hvr⟩

/-- Two threads that have copied to one region are the same one. -/
theorem LockInv.copied_unique (hlocks : LockInv t) {d : Call} (hi : (t.pc i).entered = some c.dst)
    (hj : t.pc j = .copied d) (hdst : d.dst = c.dst) : j = i :=
  hlocks.exclusive (PC.holds_entered (by simp [hj, PC.entered, hdst])) (PC.holds_entered hi)

/-- A writer copies its packet: the region was not in use, and nobody else is about to use it. -/
theorem HandInv.copy (h : HandInv cfg t) (hlocks : LockInv t) {ptrs : Pointers}
    {data : Region sdbModuleDataSize} (hlt : i < t.bus.sdbModuleLast) (hpc : t.pc i = .testing c)
    (hvalid : t.valid c.dst = false) (hfits : regionBytes cfg.arch c.pkt ≤ sdbModuleDataSize)
    (hwrite : writePacket cfg.arch (cfg.dataAddr c.dst) i c.pkt ptrs (t.data c.dst) = some data) :
    HandInv cfg ({ t with data := Function.update t.data c.dst data }.goto i (.copied c)) := by
  have hnone : (t.bus.modules c.dst).mailbox = none := by
    simpa [Threads.valid] using hvalid
  -- the number of the sender survives its four bytes
  have hsender : i < 2 ^ 32 := by
    have hlast : t.bus.sdbModuleLast ≤ 20 := h.last
    omega
  rcases (holding_of_writePacket hfits hwrite).readPacket hsender (cfg.dataAddr_pos c.dst)
    (cfg.dataAddr_end c.dst) with ⟨q, hq, hsame⟩
  -- the regions of other modules are not touched
  have hkept : ∀ {m : Nat} {w : Nat × MCSPacket}, m ≠ c.dst → Stored cfg t m w →
      Stored cfg ({ t with data := Function.update t.data c.dst data }.goto i (.copied c)) m w :=
    fun hm hstored => hstored.of_data (Function.update_of_ne hm _ _)
  refine ⟨h.last, h.order, fun {m w} hw => ?_, fun {j d} hd => ?_, fun {j src pkt} hj => ?_⟩
  · -- a full region is not the one that is written to, whose flag is clear
    refine hkept (fun hm => ?_) (h.stored hw)
    subst hm
    exact absurd (hnone.symm.trans hw) (by simp)
  · by_cases hji : j = i
    · subst hji
      have hdc : c = d := by simpa [Threads.goto] using hd
      subst hdc
      exact ⟨hnone, (j, q), by simpa [Threads.goto] using hq, rfl, hsame⟩
    · have hold : t.pc j = .copied d := by simpa [Threads.goto, hji] using hd
      rcases h.copied hold with ⟨hdnone, hstored⟩
      -- another writer has copied to another region, since it holds a lock of its own
      refine ⟨hdnone, hkept (fun hdst => hji ?_) hstored⟩
      exact hlocks.copied_unique (by simp [hpc, PC.entered]) hold hdst
  · exact h.fetching (Threads.pc_of_update rfl hj (by simp)).2

/-- A writer sets the flag: its packet is the last one written, and the owner has read all those
before. -/
theorem HandInv.publish (h : HandInv cfg t) (hlocks : LockInv t) (hpc : t.pc i = .copied c)
    (hlast : t'.bus.sdbModuleLast = t.bus.sdbModuleLast)
    (hfull : (t'.bus.modules c.dst).mailbox = some (i, c.pkt))
    (hother : ∀ k, k ≠ c.dst → (t'.bus.modules k).mailbox = (t.bus.modules k).mailbox)
    (hpc' : t'.pc = Function.update t.pc i .loop) (hdata : t'.data = t.data)
    (hwritten : t'.written = Function.update t.written c.dst (t.written c.dst ++ [(i, c.pkt)]))
    (hread : t'.read = t.read) : HandInv cfg t' := by
  rcases h.copied hpc with ⟨hnone, hstored⟩
  refine ⟨hlast ▸ h.last, fun m => ?_, fun {m w} hw => ?_, fun {j d} hd => ?_,
    fun {j src pkt} hj => ?_⟩
  · rcases h.order m with ⟨done, hdone, hall⟩
    -- the list grows by the packet that is pending from now on
    refine ⟨done, ?_, by simpa [hread] using hall⟩
    by_cases hm : m = c.dst
    · subst hm
      simpa [hwritten, hfull, hnone] using hdone
    · simpa [hwritten, hm, hother m hm] using hdone
  · by_cases hm : m = c.dst
    · subst hm
      have hw' : (i, c.pkt) = w := Option.some.inj (hfull.symm.trans hw)
      exact hw' ▸ hstored.of_data (congrFun hdata _)
    · exact (h.stored ((hother m hm).symm.trans hw)).of_data (congrFun hdata m)
  · rcases Threads.pc_of_update hpc' hd (by simp) with ⟨hji, hold⟩
    rcases h.copied hold with ⟨hdnone, hdstored⟩
    -- a second writer to this region would hold the same lock
    have hdst : d.dst ≠ c.dst := fun hdst =>
      hji (hlocks.copied_unique (by simp [hpc, PC.entered]) hold hdst)
    exact ⟨(hother d.dst hdst).trans hdnone, hdstored.of_data (congrFun hdata _)⟩
  · rcases h.fetching (Threads.pc_of_update hpc' hj (by simp)).2 with ⟨w, hw, hhanded⟩
    -- an owner that has fetched a packet has a full region
    have hjdst : j ≠ c.dst := by
      rintro rfl
      simp [hnone] at hw
    exact ⟨w, (hother j hjdst).trans hw, hhanded⟩

theorem Transition.handInv (htrans : Transition cfg t a t') (hlocks : LockInv t)
    (h : HandInv cfg t) : HandInv cfg t' := by
  cases htrans with
  | quiet bus hboxes =>
      exact h.move hboxes rfl rfl rfl (fun j c hc => hc) (fun j src pkt hj => h.fetching hj)
  | wake i _ => exact h.goto rfl (SameBoxes.refl _) rfl rfl rfl (by simp) (by simp)
  | resume i l _ _ => exact h.goto rfl (SameBoxes.refl _) rfl rfl rfl (by simp) (by simp)
  | rest i _ => exact h.goto rfl (SameBoxes.refl _) rfl rfl rfl (by simp) (by simp)
  | fetch i r _ hvalid hread =>
      refine h.move (SameBoxes.refl _) rfl rfl rfl (fun j c hc => ?_) (fun j src pkt hj => ?_)
      · exact (Threads.pc_of_update rfl hc (by simp)).2
      · by_cases hji : j = i
        · -- the bytes of the region are those of the packet that was written
          subst hji
          rcases Option.isSome_iff_exists.1 hvalid with ⟨w, hw⟩
          rcases h.stored hw with ⟨r', hr', hhanded⟩
          have hr : r' = r := Option.some.inj (hr'.symm.trans hread)
          have hpair : r.1 = src ∧ r.2 = pkt := by simpa [Threads.goto] using hj
          exact ⟨w, hw, by rw [← hpair.1, ← hpair.2]; exact hr ▸ hhanded⟩
        · exact h.fetching (by simpa [Threads.goto, hji] using hj)
  | consume i src pkt bus hpc hlast hempty hother =>
      exact h.consume hpc hlast hempty hother rfl rfl rfl rfl
  | call i ptrs bus c _ _ hboxes => exact h.goto rfl hboxes rfl rfl rfl (by simp) (by simp)
  | enter i c l _ _ => exact h.goto rfl (SameBoxes.refl _) rfl rfl rfl (by simp) (by simp)
  | giveUp i c bus _ _ _ hboxes => exact h.goto rfl hboxes rfl rfl rfl (by simp) (by simp)
  | wait i c _ _ => exact h.goto rfl (SameBoxes.refl _) rfl rfl rfl (by simp) (by simp)
  | again i c _ => exact h.goto rfl (SameBoxes.refl _) rfl rfl rfl (by simp) (by simp)
  | copy i c ptrs data hlt hpc hvalid hfits hwrite =>
      exact h.copy hlocks hlt hpc hvalid hfits hwrite
  | publish i c bus hpc hlast hfull hother =>
      exact h.publish hlocks hpc hlast hfull hother rfl rfl rfl rfl

/-- The invariant holds along every run, together with that of the locks. -/
theorem Threads.run_handInv {acts : List ThreadAct} (hstart : Started t)
    (h : t.run cfg acts = some t') : HandInv cfg t' := by
  have hboth : LockInv t' ∧ HandInv cfg t' :=
    Threads.run_invariant (I := fun t => LockInv t ∧ HandInv cfg t)
      (fun hinv htrans => ⟨htrans.lockInv hinv.1, htrans.handInv hinv.1 hinv.2⟩)
      ⟨lockInv_of_started hstart, handInv_of_started hstart⟩ h
  exact hboth.2

end Invariant

/-! ## Every run -/

/-- In every state of every run, what a module has read is what was written to its region, in order;
only the last packet may not have been read, and then it is in the region with `data_valid` set. -/
theorem handoff (cfg : ThreadConfig) (t t' : Threads) (acts : List ThreadAct) (hstart : Started t)
    (hrun : t.run cfg acts = some t') (m : Nat) :
    (t'.valid m = false ∧ List.Forall₂ Handed (t'.written m) (t'.read m)) ∨
      (t'.valid m = true ∧ ∃ done w r, t'.written m = done ++ [w] ∧
        List.Forall₂ Handed done (t'.read m) ∧
        readPacket cfg.arch (cfg.dataAddr m) (t'.data m) = some r ∧ Handed w r) := by
  have hinv : HandInv cfg t' := Threads.run_handInv hstart hrun
  rcases hinv.order m with ⟨done, hdone, hall⟩
  cases hbox : (t'.bus.modules m).mailbox with
  | none =>
      have hdone' : t'.written m = done := by simpa [hbox] using hdone
      exact Or.inl ⟨by simp [Threads.valid, hbox], hdone' ▸ hall⟩
  | some w =>
      rcases hinv.stored hbox with ⟨r, hr, hhanded⟩
      exact Or.inr ⟨by simp [Threads.valid, hbox], done, w, r, by simpa [hbox] using hdone, hall,
        hr, hhanded⟩

/-- The core sends `test`, and the process manager reads it. -/
def readRun : List ThreadAct :=
  sendRun ++ [.step 1 somePointers, .step 1 somePointers, .step 1 somePointers]

theorem handoff_readRun :
    ∃ t, twoThreads.run shippedThreads readRun = some t ∧ (t.written 1).length = 1 ∧
      List.Forall₂ Handed (t.written 1) (t.read 1) := by
  have hend : (twoThreads.run shippedThreads readRun).any
      (fun t => (t.written 1).length = 1 && !t.valid 1) = true := by decide +kernel
  rcases (Option.any_eq_true _ _).1 hend with ⟨t, hrun, ht⟩
  simp only [Bool.and_eq_true, decide_eq_true_eq, Bool.not_eq_true'] at ht
  refine ⟨t, hrun, ht.1, ?_⟩
  rcases handoff shippedThreads twoThreads t readRun started_twoThreads hrun 1 with hread | hread
  · exact hread.2
  · exact absurd hread.1 (by simp [ht.2])

end SDB
end AbsPlatform

import AbsPlatform.SDB.Module
import AbsPlatform.SDB.Registry

/-!
# Admission — what the other threads meet in the table of modules

Three results about runs of the registry: the slots stay inside the table exactly for at most
`SDB_MODULE_MAX` connections (`indices_lt_iff`), the observer selects on open descriptors exactly as
long as no thread leaves (`observed_open_iff`), and a lookup meets registered modules exactly if
every connection it comes to has finished its handshake (`lookup_registered_iff`).
-/

namespace AbsPlatform
namespace SDB

open Lib MCS

def RegistryAct.isAccept : RegistryAct → Bool
  | .accept _ => true
  | _ => false

namespace Registry

variable {t : MCSTables} {s s' : Registry} {a : RegistryAct} {acts : List RegistryAct}

/-! ## Slots -/

theorem last_act (h : s.act t a = some s') : s'.last = s.last + if a.isAccept then 1 else 0 := by
  cases act_effect h <;> rfl

/-- Every connection takes a slot, and no slot is given back. -/
theorem last_run (h : s.run t acts = some s') :
    s'.last = s.last + acts.countP RegistryAct.isAccept := by
  induction acts generalizing s with
  | nil =>
      cases h
      rfl
  | cons a acts ih =>
      rcases run_cons_inv h with ⟨s₁, hs₁, h₁⟩
      rw [ih h₁, last_act hs₁, List.countP_cons]
      omega

theorem comparedFrom_lt {slots : Nat → Slot} {dest : CString} {n i k : Nat}
    (h : k ∈ comparedFrom slots dest n i) : i ≤ k ∧ k < i + n := by
  induction n generalizing i with
  | zero => cases h
  | succ n ih =>
      rcases List.mem_cons.1 h with rfl | h
      · omega
      · cases hname : (slots i).name with
        | none => simp [hname] at h
        | some name =>
            simp only [hname] at h
            by_cases hdest : dest = name
            · simp [hdest] at h
            · rw [if_neg hdest] at h
              have := ih h
              omega

/-- The slots that a step uses have been taken before, up to the one that `accept` takes. -/
theorem indices_lt (h : s.Inv) (hact : s.act t a = some s') {k : Nat} (hk : k ∈ s.indices a) :
    k < s'.last := by
  cases act_effect hact with
  | accept fd _ _ =>
      simp only [indices, List.mem_singleton] at hk
      simp [hk, accept]
  | store id fd created hd =>
      simp only [indices, hd, Option.map_some, Option.toList_some, List.mem_singleton] at hk
      exact hk ▸ (h.director id fd hd).1
  | start i hphase =>
      rw [List.mem_singleton.1 hk]
      exact h.lt_last (by simp [hphase])
  | receive i input greeting hphase =>
      rw [List.mem_singleton.1 hk]
      exact h.lt_last (by simp [hphase])
  | finish i hphase =>
      rw [List.mem_singleton.1 hk]
      exact h.lt_last (by simp [hphase])
  | leave i hphase =>
      rw [List.mem_singleton.1 hk]
      exact h.lt_last (by simp [hphase])
  | lookup i dest hphase =>
      rcases List.mem_cons.1 hk with rfl | hk
      · exact h.lt_last (by simp [hphase])
      · simpa using (comparedFrom_lt hk).2
  | observe => exact List.mem_range.1 hk

/-- In a run the slots in use stay inside the table exactly if it accepts at most `SDB_MODULE_MAX`
connections. -/
theorem indices_lt_iff (t : MCSTables) (acts : List RegistryAct) (last : Registry)
    (hrun : init.run t acts = some last) :
    (∀ pre a post s, acts = pre ++ a :: post → init.run t pre = some s →
      ∀ k ∈ s.indices a, k < sdbModuleMax) ↔
    acts.countP RegistryAct.isAccept ≤ sdbModuleMax := by
  constructor
  · intro h
    by_contra hmany
    -- the connection after `SDB_MODULE_MAX` of them takes the slot past the end
    rcases exists_split_of_lt_countP (Nat.not_le.1 hmany) with ⟨pre, a, post, hsplit, ha, hcount⟩
    cases a with
    | accept fd =>
        rw [hsplit, run, List.foldlM_append] at hrun
        cases hpre : init.run t pre with
        | none => simp [show pre.foldlM (act t) init = none from hpre] at hrun
        | some s =>
            have hlast : s.last = sdbModuleMax := by
              rw [last_run hpre, hcount]
              rfl
            have hlt := h pre _ post s hsplit hpre s.last (by simp [indices])
            omega
    | _ => cases ha
  · intro hfew pre a post s hsplit hpre k hk
    have hrun' : (pre ++ a :: post).foldlM (act t) init = some last := hsplit ▸ hrun
    rcases step_of_run hpre hrun' with ⟨s', hact⟩
    have hlt := indices_lt (inv_of_run hpre) hact hk
    have hlast := last_run (run_snoc hpre hact)
    have hle : (pre ++ [a]).countP RegistryAct.isAccept ≤ acts.countP RegistryAct.isAccept := by
      rw [hsplit]
      simp only [List.countP_append, List.countP_cons, List.countP_nil]
      omega
    have hzero : init.last = 0 := rfl
    omega

/-- A client connects and sends these bytes. -/
def connectAndSend (i : Nat) (input : List UInt8) : List RegistryAct :=
  [.accept (i + 3), .store true, .start i, .receive i input]

/-- The handshake `"core:app"`. -/
def coreHandshake : List UInt8 :=
  [7, 0, 0, 0, 0, 1, 0, 9, 0, 99, 111, 114, 101, 58, 97, 112, 112, 0]

/-- The handshake `"x:bad"`, with a group that does not exist. -/
def badHandshake : List UInt8 := [7, 0, 0, 0, 0, 1, 0, 6, 0, 120, 58, 98, 97, 100, 0]

/-- One client registers. -/
def coreRun : List RegistryAct := connectAndSend 0 coreHandshake ++ [.finish 0]

/-- One client registers, and another one is refused. -/
def refusedRun : List RegistryAct := coreRun ++ connectAndSend 1 badHandshake ++ [.leave 1]

/-- Three clients: the first registers, the second is refused and leaves, the third registers; both
registered ones send a message to the name that the second one has left. -/
def threeClients : List RegistryAct :=
  refusedRun ++ connectAndSend 2 coreHandshake ++
    [.finish 2, .lookup 2 (CString.ofBuffer [120]), .lookup 0 (CString.ofBuffer [120]), .observe]

theorem indices_lt_threeClients :
    ∃ last, init.run commandSet threeClients = some last ∧ last.last = 3 ∧
      ∀ pre a post s, threeClients = pre ++ a :: post → init.run commandSet pre = some s →
        ∀ k ∈ s.indices a, k < sdbModuleMax := by
  have hrun : (init.run commandSet threeClients).any (fun s => s.last = 3) = true := by
    decide +kernel
  rcases (Option.any_eq_true _ _).1 hrun with ⟨last, hlast, hthree⟩
  exact ⟨last, hlast, of_decide_eq_true hthree,
    (indices_lt_iff commandSet threeClients last hlast).2 (by decide)⟩

/-- Connections one after the other, on descriptors 3, 4 and so on. -/
def connections (n : Nat) : List RegistryAct :=
  (List.range n).flatMap fun i => [.accept (i + 3), .store true]

/-- The connection after `SDB_MODULE_MAX` of them takes the slot past the end of the table. -/
theorem twentyFirst_connection :
    ∃ s s', init.run commandSet (connections 20) = some s ∧
      s.act commandSet (.accept 23) = some s' ∧ s.indices (.accept 23) = [20] ∧
      ¬ 20 < sdbModuleMax :=
  ⟨_, _, rfl, rfl, rfl, by decide⟩

/-! ## Descriptors -/

/-- A slot of the set of the observer has a descriptor that is closed. -/
def SelectsClosed (s : Registry) : Prop := ∃ i < s.last, s.isOpen (s.slots i).rfd = false

/-- The set depends on the descriptors only. -/
theorem SelectsClosed.of_set {i : Nat} {slot : Slot} (h : (s.set i slot).SelectsClosed)
    (hrfd : slot.rfd = (s.slots i).rfd) : s.SelectsClosed := by
  rcases h with ⟨j, hj, hclosed⟩
  refine ⟨j, hj, ?_⟩
  by_cases hji : j = i
  · rw [hji, set_slots_self, hrfd] at hclosed
    exact hji ▸ hclosed
  · rw [set_slots_of_ne s slot hji] at hclosed
    exact hclosed

theorem rfd_greet (slot : Slot) (greeting : Greeting) : (slot.greet greeting).rfd = slot.rfd := by
  rcases greeting with _ | (_ | name) | ⟨name, group⟩ <;> rfl

/-- Descriptors of the set are closed by the threads that leave. -/
theorem selectsClosed_act (h : s.Inv) (hgood : ¬ s.SelectsClosed) (hact : s.act t a = some s') :
    s'.SelectsClosed ↔ ∃ i, a = .leave i := by
  have hopen : ∀ i < s.last, s.isOpen (s.slots i).rfd = true := by
    intro i hi
    by_contra hclosed
    exact hgood ⟨i, hi, Bool.eq_false_of_not_eq_true hclosed⟩
  cases act_effect hact with
  | accept fd _ _ =>
      refine iff_of_false ?_ (by simp)
      rintro ⟨i, hi, hclosed⟩
      -- a slot that has just been taken is still zero, and descriptor 0 is open
      have hbefore : s.isOpen (s.slots i).rfd = true := by
        rcases Nat.lt_or_eq_of_le (Nat.le_of_lt_succ hi) with hlt | rfl
        · exact hopen i hlt
        · rw [h.fresh s.last (Nat.le_refl _)]
          exact h.zero_open
      by_cases hfd : (s.slots i).rfd = fd
      · simp [accept, hfd] at hclosed
      · simp [accept, hfd, hbefore] at hclosed
  | store id fd created hd =>
      refine iff_of_false ?_ (by simp)
      rintro ⟨i, hi, hclosed⟩
      by_cases hid : i = id
      · have hfd : s.isOpen fd = false := by
          rw [hid] at hclosed
          simpa [store, set] using hclosed
        simp [(h.director id fd hd).2.2.1] at hfd
      · have hrfd : s.isOpen (s.slots i).rfd = false := by
          simpa [store, set, hid] using hclosed
        simp [hopen i hi] at hrfd
  | start i _ => exact iff_of_false (fun hbad => hgood (hbad.of_set rfl)) (by simp)
  | receive i input greeting _ =>
      exact iff_of_false (fun hbad => hgood (hbad.of_set (rfd_greet _ greeting))) (by simp)
  | finish i _ => exact iff_of_false (fun hbad => hgood (hbad.of_set rfl)) (by simp)
  | leave i hphase =>
      refine iff_of_true ⟨i, h.lt_last (by simp [hphase]), ?_⟩ ⟨i, rfl⟩
      simp only [set, clean]
      by_cases hwfd : (s.slots i).rfd = (s.slots i).wfd
      · simp [hwfd]
      · simp [hwfd]
  | lookup i dest _ => exact iff_of_false hgood (by simp)
  | observe => exact iff_of_false hgood (by simp)

/-- In a run every descriptor of the set of the observer is open, in every state, exactly if no
thread of a module leaves. -/
theorem observed_open_iff (t : MCSTables) (acts : List RegistryAct) (last : Registry)
    (hrun : init.run t acts = some last) :
    (∀ pre post s, acts = pre ++ post → init.run t pre = some s →
      ∀ i < s.last, s.isOpen (s.slots i).rfd = true) ↔
    ∀ i, RegistryAct.leave i ∉ acts := by
  have hinit : ¬ SelectsClosed init := fun hbad => absurd hbad.choose_spec.1 (Nat.not_lt_zero _)
  have hnever := never_iff (fun hs hact => Inv.act hs hact)
    (fun hs hgood hact => selectsClosed_act hs hgood hact) inv_init hinit hrun
  constructor
  · intro h i hmem
    rcases List.append_of_mem hmem with ⟨pre, post, hsplit⟩
    have hgood : ∀ pre post s, acts = pre ++ post → pre.foldlM (act t) init = some s →
        ¬ s.SelectsClosed := by
      rintro pre post s hsplit' hpre ⟨k, hk, hclosed⟩
      simp [h pre post s hsplit' hpre k hk] at hclosed
    rcases Option.isSome_iff_exists.1 (isSome_of_run hrun hsplit) with ⟨s, hs⟩
    exact hnever.1 hgood pre _ post s hsplit hs ⟨i, rfl⟩
  · intro h pre post s hsplit hpre i hi
    by_contra hclosed
    refine hnever.2 ?_ pre post s hsplit hpre ⟨i, hi, Bool.eq_false_of_not_eq_true hclosed⟩
    rintro pre' _ post' _ hsplit' _ ⟨j, rfl⟩
    exact h j (by simp [hsplit'])

theorem observed_open_core :
    ∃ last, init.run commandSet coreRun = some last ∧
      ∀ pre post s, coreRun = pre ++ post → init.run commandSet pre = some s →
        ∀ i < s.last, s.isOpen (s.slots i).rfd = true := by
  have hrun : (init.run commandSet coreRun).isSome = true := by decide +kernel
  rcases Option.isSome_iff_exists.1 hrun with ⟨last, hlast⟩
  refine ⟨last, hlast, (observed_open_iff commandSet coreRun last hlast).2 fun i hmem => ?_⟩
  simp [coreRun, connectAndSend] at hmem

/-- A client whose handshake is refused leaves a closed descriptor in the set, next to the one of a
registered module. -/
theorem refused_closed :
    ∃ s, init.run commandSet refusedRun = some s ∧
      s.last = 2 ∧ (s.slots 0).phase = .running ∧ s.isOpen (s.slots 1).rfd = false := by
  have hrun : (init.run commandSet refusedRun).any (fun s => s.last = 2 ∧
      (s.slots 0).phase = .running ∧ s.isOpen (s.slots 1).rfd = false) = true := by decide +kernel
  rcases (Option.any_eq_true _ _).1 hrun with ⟨s, hs, hstate⟩
  exact ⟨s, hs, of_decide_eq_true hstate⟩

/-! ## Lookups -/

/-- The loop gets to a slot exactly if all the slots before it have other names. -/
theorem mem_comparedFrom_iff {slots : Nat → Slot} {dest : CString} {n i k : Nat} :
    k ∈ comparedFrom slots dest n i ↔
      i ≤ k ∧ k < i + n ∧
        ∀ j, i ≤ j → j < k → ∃ name, (slots j).name = some name ∧ dest ≠ name := by
  induction n generalizing i with
  | zero =>
      refine iff_of_false (List.not_mem_nil) ?_
      omega
  | succ n ih =>
      constructor
      · intro h
        rcases List.mem_cons.1 h with rfl | h
        · exact ⟨Nat.le_refl _, by omega, fun j hij hjk => by omega⟩
        · cases hname : (slots i).name with
          | none => simp [hname] at h
          | some name =>
              by_cases hdest : dest = name
              · simp [hname, hdest] at h
              · simp only [hname, if_neg hdest] at h
                rcases ih.1 h with ⟨hle, hlt, hbefore⟩
                refine ⟨by omega, by omega, fun j hij hjk => ?_⟩
                rcases Nat.eq_or_lt_of_le hij with rfl | hlt'
                · exact ⟨name, hname, hdest⟩
                · exact hbefore j hlt' hjk
      · rintro ⟨hle, hlt, hbefore⟩
        rcases Nat.eq_or_lt_of_le hle with rfl | hlt'
        · exact List.mem_cons_self
        · rcases hbefore i (Nat.le_refl _) hlt' with ⟨name, hname, hdest⟩
          refine List.mem_cons_of_mem _ ?_
          simp only [hname, if_neg hdest]
          exact ih.2 ⟨hlt', by omega, fun j hij hjk => hbefore j (by omega) hjk⟩

/-- The slot that is found is the last one that was compared. -/
theorem mem_comparedFrom_of_lookupFrom {slots : Nat → Slot} {dest : CString} {n i k : Nat}
    (h : lookupFrom slots dest n i = some (some k)) : k ∈ comparedFrom slots dest n i := by
  induction n generalizing i with
  | zero => cases h
  | succ n ih =>
      simp only [lookupFrom] at h
      cases hname : (slots i).name with
      | none => simp [hname] at h
      | some name =>
          by_cases hdest : dest = name
          · simp only [hname, if_pos hdest, Option.some.injEq] at h
            exact h ▸ List.mem_cons_self
          · simp only [hname, if_neg hdest] at h
            refine List.mem_cons_of_mem _ ?_
            simp only [hname, if_neg hdest]
            exact ih h

/-- A step of another thread, or one before or after the main loop. -/
theorem running_set {i : Nat} {slot : Slot} (hold : (s.slots i).phase ≠ .running)
    (hnew : slot.phase ≠ .running) (k : Nat) :
    ((s.set i slot).slots k).phase = .running ↔ (s.slots k).phase = .running := by
  by_cases hk : k = i
  · rw [hk, set_slots_self]
    exact iff_of_false hnew hold
  · rw [set_slots_of_ne s slot hk]

/-- A thread comes to its main loop by finishing its handshake, and stays there. -/
theorem running_act (h : s.Inv) (hact : s.act t a = some s') (k : Nat) :
    (s'.slots k).phase = .running ↔ (s.slots k).phase = .running ∨ a = .finish k := by
  cases act_effect hact with
  | accept fd _ _ => simp [accept]
  | store id fd created hd =>
      have hzero := (h.director id fd hd).2.1
      refine (running_set (s := s) (by simp [hzero, Slot.zero]) ?_ k).trans (by simp)
      cases created <;> simp
  | start i hphase =>
      exact (running_set (s := s) (by simp [hphase]) (by simp) k).trans (by simp)
  | receive i input greeting hphase =>
      refine (running_set (s := s) (by simp [hphase]) ?_ k).trans (by simp)
      rcases greeting with _ | (_ | name) | ⟨name, group⟩ <;> simp [Slot.greet]
  | finish i hphase =>
      by_cases hk : k = i
      · simp [hk, set]
      · simp [set, hk, Ne.symm hk]
  | leave i hphase =>
      exact (running_set (s := s.clean i) (by simp [clean, hphase]) (by simp) k).trans
        (by simp [clean])
  | lookup i dest _ => simp
  | observe => simp

theorem running_run (h : s.Inv) (hrun : s.run t acts = some s') (k : Nat) :
    (s'.slots k).phase = .running ↔
      (s.slots k).phase = .running ∨ RegistryAct.finish k ∈ acts := by
  induction acts generalizing s with
  | nil =>
      cases hrun
      simp
  | cons a acts ih =>
      rcases run_cons_inv hrun with ⟨s₁, hs₁, hrun₁⟩
      rw [ih (h.act hs₁) hrun₁, running_act h hs₁ k, List.mem_cons, or_assoc, @eq_comm _ a]

/-- After any run, the slots that a lookup compares, and the one it selects, belong to modules that
can be sent to exactly if every connection up to the one with the name has finished its handshake
in the run. -/
theorem lookup_registered_iff (t : MCSTables) (acts : List RegistryAct) (s : Registry)
    (hrun : init.run t acts = some s) (dest : CString) :
    ((∀ k ∈ s.compared dest, (s.slots k).Registered) ∧
      ∀ k, s.lookup dest = some (some k) → (s.slots k).Registered) ↔
    ∀ k < s.last, (∀ j < k, (s.slots j).name ≠ some dest) → RegistryAct.finish k ∈ acts := by
  have hinv : s.Inv := inv_of_run hrun
  have hfinished : ∀ k, (s.slots k).Registered ↔ RegistryAct.finish k ∈ acts := by
    intro k
    rw [(hinv.consistent k).registered_iff, running_run inv_init hrun k]
    simp [init, Slot.zero]
  constructor
  · rintro ⟨hcompared, _⟩ k hk hbefore
    -- everything before slot `k` is compared, has a name, and it is another one
    have hreached : ∀ n ≤ k, n ∈ s.compared dest := by
      intro n
      induction n using Nat.strong_induction_on with
      | _ n ih =>
          intro hn
          refine mem_comparedFrom_iff.2 ⟨Nat.zero_le _, by omega, fun j _ hj => ?_⟩
          have hreg := hcompared j (ih j hj (by omega))
          rcases Option.isSome_iff_exists.1 hreg.name with ⟨name, hname⟩
          refine ⟨name, hname, ?_⟩
          rintro rfl
          exact hbefore j (by omega) hname
    exact (hfinished k).1 (hcompared k (hreached k (Nat.le_refl _)))
  · intro h
    have hcompared : ∀ k ∈ s.compared dest, (s.slots k).Registered := by
      intro k hk
      rcases mem_comparedFrom_iff.1 hk with ⟨_, hlt, hbefore⟩
      refine (hfinished k).2 (h k (by simpa using hlt) fun j hj hname => ?_)
      rcases hbefore j (Nat.zero_le _) hj with ⟨name, hname', hne⟩
      exact hne (Option.some.inj (hname.symm.trans hname'))
    exact ⟨hcompared, fun k hk => hcompared k (mem_comparedFrom_of_lookupFrom hk)⟩

theorem lookup_registered_core :
    ∃ s, init.run commandSet coreRun = some s ∧ (s.slots 0).phase = .running ∧ s.last = 1 ∧
      (∀ k ∈ s.compared procmanName, (s.slots k).Registered) ∧
      ∀ k, s.lookup procmanName = some (some k) → (s.slots k).Registered := by
  have hrun : (init.run commandSet coreRun).any
      (fun s => (s.slots 0).phase = .running ∧ s.last = 1) = true := by decide +kernel
  rcases (Option.any_eq_true _ _).1 hrun with ⟨s, hs, hstate⟩
  rcases of_decide_eq_true hstate with ⟨hrunning, hlast⟩
  refine ⟨s, hs, hrunning, hlast, (lookup_registered_iff commandSet coreRun s hs procmanName).2 ?_⟩
  intro k hk _
  have hzero : k = 0 := by omega
  simp [hzero, coreRun]

/-- A client that has sent nothing stops the lookups of the others at a NULL pointer, and the name
of a refused client is found though its thread has left with the lock. -/
theorem lookups_meet_unregistered :
    (∃ s, init.run commandSet (coreRun ++ [.accept 4, .store true]) = some s ∧
      (s.slots 0).phase = .running ∧ s.compared procmanName = [0, 1] ∧
      s.lookup procmanName = none ∧ ¬ (s.slots 1).Registered) ∧
    ∃ s, init.run commandSet refusedRun = some s ∧ (s.slots 0).phase = .running ∧
      s.lookup (CString.ofBuffer [120]) = some (some 1) ∧ (s.slots 1).phase = .exited ∧
      (s.slots 1).locked = true ∧ ¬ (s.slots 1).Registered := by
  constructor
  · have hrun : (init.run commandSet (coreRun ++ [.accept 4, .store true])).any (fun s =>
        (s.slots 0).phase = .running ∧ s.compared procmanName = [0, 1] ∧
        s.lookup procmanName = none ∧ (s.slots 1).allocated = false) = true := by decide +kernel
    rcases (Option.any_eq_true _ _).1 hrun with ⟨s, hs, hstate⟩
    rcases of_decide_eq_true hstate with ⟨hrunning, hcompared, hlookup, hfree⟩
    exact ⟨s, hs, hrunning, hcompared, hlookup, fun hreg => absurd hreg.region (by simp [hfree])⟩
  · have hrun : (init.run commandSet refusedRun).any (fun s =>
        (s.slots 0).phase = .running ∧ s.lookup (CString.ofBuffer [120]) = some (some 1) ∧
        (s.slots 1).phase = .exited ∧ (s.slots 1).locked = true) = true := by decide +kernel
    rcases (Option.any_eq_true _ _).1 hrun with ⟨s, hs, hstate⟩
    rcases of_decide_eq_true hstate with ⟨hrunning, hlookup, hexited, hlocked⟩
    exact ⟨s, hs, hrunning, hlookup, hexited, hlocked, fun hreg => hreg.lock ⟨hexited, hlocked⟩⟩

/-- Where all modules are registered, the lookup is the one of the handlers. -/
theorem lookupFrom_eq_find? {slots : Nat → Slot} (names : Nat → CString) (dest : CString)
    (n i : Nat) (h : ∀ j, i ≤ j → j < i + n → (slots j).name = some (names j)) :
    lookupFrom slots dest n i =
      some ((List.range' i n).find? fun j => decide (names j = dest)) := by
  induction n generalizing i with
  | zero => rfl
  | succ n ih =>
      have hrest := ih (i + 1) fun j hj hlt => h j (by omega) (by omega)
      rw [lookupFrom, h i (Nat.le_refl _) (by omega), List.range'_succ]
      by_cases hdest : dest = names i
      · simp [hdest]
      · simp [hdest, Ne.symm hdest, hrest]

theorem lookup_eq_findModule (s : Registry) (bus : Bus) (hlast : bus.sdbModuleLast = s.last)
    (hname : ∀ i < s.last, (s.slots i).name = some (bus.modules i).name) (dest : CString) :
    s.lookup dest = some (findModule bus dest) := by
  have h := lookupFrom_eq_find? (fun i => (bus.modules i).name) dest s.last 0
    fun j _ hj => hname j (by simpa using hj)
  rw [lookup, h, findModule, hlast, List.range_eq_range']

end Registry

end SDB
end AbsPlatform

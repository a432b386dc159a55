import AbsPlatform.LibSDB.Pending
import AbsPlatform.MCS.CommandSet

/-!
# Wakeups — no answer is stored behind the back of a thread that waits

`sdb_send_sync` takes `pp_lock` before it writes its packet and keeps it until it waits, and the
reader stores under `pp_lock`: an answer to the packet cannot be stored before the thread waits.
`sdb_wait_async` looks at `pp_valid` under the lock and then waits.  So whoever waits has not been
answered, as long as answers come after their requests.
-/

namespace AbsPlatform
namespace LibSDB

open MCS

/-- An answer has been stored for a thread that is in `pthread_cond_wait`, and the broadcast has
not reached it. -/
def LostAnswer (s : Client) : Prop :=
  ∃ i w e p, s.pc i = .waiting w e ∧ s.heap e = some p ∧ p.ppValid = true

/-- No request with this identifier is still to be written. -/
def Awaited (s : Client) (pktId : UInt32) : Prop :=
  ∀ e p, s.heap e = some p → p.ppId = pktId → s.sent e ≠ .unwritten

/-! ## The invariant -/

/-- What a thread relies on at each place. -/
def CallerOk (s : Client) (i : Nat) : AppPC → Prop
  | .added true _ e => s.sent e = .unwritten
  | .locked _ e => s.sent e = .unwritten ∧ ∀ p, s.heap e = some p → p.ppLock = some i
  | .written _ e => ∀ p, s.heap e = some p → p.ppLock = some i ∧ p.ppValid = false
  | .waiting _ e => ∀ p, s.heap e = some p → p.ppValid = false
  | _ => True

structure WakeInv (s : Client) : Prop where
  callers : ∀ i, CallerOk s i (s.pc i)
  /-- answers come after their requests -/
  stored : ∀ {e p}, s.heap e = some p → p.ppValid = true → s.sent e ≠ .unwritten
  storing : ∀ {e n}, s.reader = some (e, n) → s.sent e ≠ .unwritten

theorem wakeInv_init : WakeInv Client.init where
  callers := fun _ => trivial
  stored := by
    intro e p h
    cases h
  storing := by
    intro e n h
    cases h

section Steps

variable {t : MCSTables} {s s' : Client} {a : ClientAct} {i j : Nat} {pc pc' : AppPC}

/-- The place of a thread that a step does not concern: nothing has changed about its own entry,
and no entry has become valid. -/
theorem CallerOk.frame (h : CallerOk s j pc)
    (hsent : ∀ e, pc.owns = some e → s'.sent e = s.sent e)
    (hheap : ∀ e p', s'.heap e = some p' →
      (∃ p, s.heap e = some p ∧ p'.ppValid = p.ppValid ∧
        (pc.owns = some e → p'.ppLock = p.ppLock)) ∨ (p'.ppValid = false ∧ pc.owns ≠ some e)) :
    CallerOk s' j pc := by
  cases pc with
  | idle => trivial
  | woken w e => trivial
  | done pktIn e pktOut => trivial
  | added sync pktIn e =>
      cases sync with
      | false => trivial
      | true => exact (hsent e rfl).trans h
  | locked pktIn e =>
      refine ⟨(hsent e rfl).trans h.1, fun p' hp' => ?_⟩
      rcases hheap e p' hp' with ⟨p, hp, _, hlock⟩ | ⟨_, hnot⟩
      · exact (hlock rfl).trans (h.2 p hp)
      · exact absurd rfl hnot
  | written pktIn e =>
      intro p' hp'
      rcases hheap e p' hp' with ⟨p, hp, hvalid, hlock⟩ | ⟨_, hnot⟩
      · exact ⟨(hlock rfl).trans (h p hp).1, hvalid.trans (h p hp).2⟩
      · exact absurd rfl hnot
  | waiting w e =>
      intro p' hp'
      rcases hheap e p' hp' with ⟨p, hp, hvalid, _⟩ | ⟨hfalse, _⟩
      · exact hvalid.trans (h p hp)
      · exact hfalse

/-- A thread moves, and nothing else changes. -/
theorem WakeInv.goto (h : WakeInv s) (hi : CallerOk s i pc') : WakeInv (s.goto i pc') where
  callers := by
    intro j
    by_cases hj : j = i
    · subst hj
      rw [show (s.goto j pc').pc j = pc' from Function.update_self ..]
      exact hi.frame (fun _ _ => rfl) fun e p hp => Or.inl ⟨p, hp, rfl, fun _ => rfl⟩
    · rw [show (s.goto i pc').pc j = s.pc j from Function.update_of_ne hj ..]
      exact (h.callers j).frame (fun _ _ => rfl) fun e p hp => Or.inl ⟨p, hp, rfl, fun _ => rfl⟩
  stored := h.stored
  storing := h.storing

/-- A step of thread `i` on its own entry that leaves `pp_valid` alone and does not undo a write. -/
theorem WakeInv.own (h : WakeInv s) (hown : OwnInv s) {e : Nat} (hi : (s.pc i).owns = some e)
    (hpc : s'.pc = Function.update s.pc i pc') (hreader : s'.reader = s.reader)
    (hsent : ∀ e', s'.sent e' = s.sent e' ∨ (e' = e ∧ s'.sent e' ≠ .unwritten))
    (hheap : ∀ e' p', s'.heap e' = some p' →
      ∃ p, s.heap e' = some p ∧ p'.ppValid = p.ppValid ∧ (e' ≠ e → p'.ppLock = p.ppLock))
    (hnew : CallerOk s' i pc') : WakeInv s' where
  callers := by
    intro j
    rw [hpc]
    by_cases hj : j = i
    · subst hj
      rw [Function.update_self]
      exact hnew
    · rw [Function.update_of_ne hj]
      -- the entry of another thread is another one
      have hne : ∀ e', (s.pc j).owns = some e' → e' ≠ e := by
        rintro e' hj' rfl
        exact hj (hown.alone hj' hi)
      refine (h.callers j).frame (fun e' he' => ?_) fun e' p' hp' => ?_
      · exact (hsent e').resolve_right fun hsame => hne e' he' hsame.1
      · rcases hheap e' p' hp' with ⟨p, hp, hvalid, hlock⟩
        exact Or.inl ⟨p, hp, hvalid, fun he' => hlock (hne e' he')⟩
  stored := by
    intro e' p' hp' hvalid'
    rcases hheap e' p' hp' with ⟨p, hp, hvalid, _⟩
    rcases hsent e' with hsame | ⟨_, hwritten⟩
    · exact hsame ▸ h.stored hp (hvalid ▸ hvalid')
    · exact hwritten
  storing := by
    intro e' n hn
    rcases hsent e' with hsame | ⟨_, hwritten⟩
    · exact hsame ▸ h.storing (hreader ▸ hn)
    · exact hwritten

/-- The lists of entries and answers may change as they like. -/
theorem WakeInv.congr (h : WakeInv s) (hpc : s'.pc = s.pc) (hsent : s'.sent = s.sent)
    (hheap : ∀ e p, s'.heap e = some p → s.heap e = some p)
    (hstoring : ∀ {e n}, s'.reader = some (e, n) → s.sent e ≠ .unwritten) : WakeInv s' where
  callers := by
    intro j
    rw [hpc]
    exact (h.callers j).frame (fun e _ => congrFun hsent e) fun e p hp =>
      Or.inl ⟨p, hheap e p hp, rfl, fun _ => rfl⟩
  stored := fun {e p} hp hvalid => hsent ▸ h.stored (hheap e p hp) hvalid
  storing := fun hn => hsent ▸ hstoring hn

theorem WakeInv.delete (h : WakeInv s) (pktId : UInt32) : WakeInv (s.deletePendingId pktId) :=
  h.congr (by simp) (by simp) (fun _ _ => heap_of_deletePendingId s pktId)
    fun hn => h.storing (by simpa using hn)

/-- A new entry has no answer, and its request is still to be written. -/
theorem WakeInv.send (h : WakeInv s) (hown : OwnInv s) (hreader : s.reader = none) (i : Nat)
    (sync : Bool) (pktIn : MCSPacket) : WakeInv (s.send i sync pktIn) where
  callers := by
    intro j
    by_cases hj : j = i
    · subst hj
      cases sync with
      | false => simp [Client.send, Client.goto, CallerOk]
      | true => simp [Client.send, Client.goto, Client.addPendingId, CallerOk]
    · rw [pc_send_of_ne hj]
      have hne : ∀ e, (s.pc j).owns = some e → e ≠ s.allocated :=
        fun e he => Nat.ne_of_lt (hown.old he)
      refine (h.callers j).frame (fun e he => sent_send_of_ne (hne e he)) fun e p' hp' => ?_
      rcases heap_send hp' with ⟨rfl, rfl⟩ | ⟨_, hp⟩
      · exact Or.inr ⟨rfl, fun hj' => hne _ hj' rfl⟩
      · exact Or.inl ⟨p', hp, rfl, fun _ => rfl⟩
  stored := by
    intro e p' hp' hvalid
    rcases heap_send hp' with ⟨_, rfl⟩ | ⟨he, hp⟩
    · cases hvalid
    · exact sent_send_of_ne he ▸ h.stored hp hvalid
  storing := by
    intro e n hn
    simp [Client.send, Client.goto, Client.addPendingId, hreader] at hn

/-- The reader stores: nobody can hold `pp_lock`, and whoever waits is woken. -/
theorem WakeInv.store (h : WakeInv s) {e : Nat} {n : PacketPtr} {p : SDBPendingPacket}
    (hreader : s.reader = some (e, n)) (hp : s.unlocked e = some p) :
    WakeInv (s.storeAnswer e n p) := by
  rcases unlocked_eq_some_iff.1 hp with ⟨hheap, hlock⟩
  have hother : ∀ {e' p'}, e' ≠ e → (s.storeAnswer e n p).heap e' = some p' →
      s.heap e' = some p' := by
    intro e' p' he hp'
    exact ((heap_storeAnswer hp').resolve_left fun hsame => he hsame.1).2
  refine ⟨fun j => ?_, fun {e' p'} hp' _ => ?_, fun {e' m} hm => by cases hm⟩
  · have hj := h.callers j
    change CallerOk (s.storeAnswer e n p) j ((s.pc j).wake e)
    cases hpc : s.pc j with
    | idle => trivial
    | woken w e' => trivial
    | done pktIn e' pktOut => trivial
    | added sync pktIn e' =>
        rw [hpc] at hj
        cases sync with
        | false => trivial
        | true => exact hj
    | locked pktIn e' =>
        rw [hpc] at hj
        refine ⟨hj.1, fun p' hp' => ?_⟩
        by_cases he : e' = e
        · subst he
          simp [hj.2 p hheap] at hlock
        · exact hj.2 p' (hother he hp')
    | written pktIn e' =>
        rw [hpc] at hj
        intro p' hp'
        by_cases he : e' = e
        · subst he
          simp [(hj p hheap).1] at hlock
        · exact hj p' (hother he hp')
    | waiting w e' =>
        rw [hpc] at hj
        by_cases he : e' = e
        · simp [AppPC.wake, he, CallerOk]
        · simp only [AppPC.wake, he, if_false]
          exact fun p' hp' => hj p' (hother he hp')
  · by_cases he : e' = e
    · subst he
      exact h.storing hreader
    · exact h.stored (hother he hp') ‹_›

theorem sent_mark {st : Sent} (hst : st ≠ .unwritten) (e e' : Nat) :
    (s.mark e st).sent e' = s.sent e' ∨ (e' = e ∧ (s.mark e st).sent e' ≠ .unwritten) := by
  by_cases he : e' = e
  · exact Or.inr ⟨he, by simpa [Client.mark, he] using hst⟩
  · exact Or.inl (by simp [Client.mark, he])

/-- Only the lock of an entry has changed. -/
theorem valid_set {e : Nat} {p : SDBPendingPacket} (hp : s.heap e = some p) (l : Option Nat)
    (e' : Nat) (p' : SDBPendingPacket) (hp' : (s.set e { p with ppLock := l }).heap e' = some p') :
    ∃ p₀, s.heap e' = some p₀ ∧ p'.ppValid = p₀.ppValid ∧ (e' ≠ e → p'.ppLock = p₀.ppLock) := by
  rcases heap_set hp' with ⟨rfl, rfl⟩ | ⟨_, hold⟩
  · exact ⟨p, hp, rfl, fun hne => absurd rfl hne⟩
  · exact ⟨p', hold, rfl, fun _ => rfl⟩

theorem Effect.wakeInv (heff : Effect t s a s') (hown : OwnInv s) (h : WakeInv s)
    (harrival : ∀ pkt, a = .answer pkt → Awaited s pkt.id) : WakeInv s' := by
  cases heff with
  | quiet _ => exact h
  | add i sync pktIn _ hreader _ => exact h.send hown hreader i sync pktIn
  | writeAsync i pktIn e fd hpc =>
      exact h.own hown (by rw [hpc]; rfl) rfl rfl
        (sent_mark (writeRequest_ne_unwritten t pktIn fd) e)
        (fun e' p' hp' => ⟨p', hp', rfl, fun _ => rfl⟩) trivial
  | lock i pktIn e p hpc hp =>
      have hcaller := h.callers i
      rw [hpc] at hcaller
      refine h.own hown (by rw [hpc]; rfl) rfl rfl (fun _ => Or.inl rfl)
        (valid_set (unlocked_eq_some_iff.1 hp).1 (some i)) ⟨hcaller, fun p' hp' => ?_⟩
      rcases heap_set hp' with ⟨_, rfl⟩ | ⟨hne, _⟩
      · rfl
      · exact absurd rfl hne
  | write i pktIn e hpc =>
      have hcaller := h.callers i
      rw [hpc] at hcaller
      refine h.own hown (by rw [hpc]; rfl) rfl rfl (sent_mark (by simp) e)
        (fun e' p' hp' => ⟨p', hp', rfl, fun _ => rfl⟩) fun p hp => ⟨hcaller.2 p hp, ?_⟩
      -- the request was not written before, so nothing has been stored
      by_contra hvalid
      exact h.stored hp (by simpa using hvalid) hcaller.1
  | writeFails i pktIn e p hpc hp =>
      exact h.own hown (by rw [hpc]; rfl) rfl rfl (sent_mark (by simp) e) (valid_set hp none)
        trivial
  | wait i pktIn e p hpc hp =>
      have hcaller := h.callers i
      rw [hpc] at hcaller
      refine h.own hown (by rw [hpc]; rfl) rfl rfl (fun _ => Or.inl rfl) (valid_set hp none)
        fun p' hp' => ?_
      rcases heap_set hp' with ⟨_, rfl⟩ | ⟨hne, _⟩
      · exact (hcaller p hp).2
      · exact absurd rfl hne
  | waitAsync i e p _ hp hvalid =>
      refine h.goto fun p' hp' => ?_
      have hsame : p = p' := Option.some.inj ((unlocked_eq_some_iff.1 hp).1.symm.trans hp')
      exact hsame ▸ hvalid
  | spurious i w e _ => exact h.goto trivial
  | resume i fd w e p _ _ _ =>
      cases w with
      | sendSync pktIn => exact h.goto trivial
      | waitAsync => exact h.goto trivial
  | finish i pktIn e pktOut _ _ => exact (h.delete pktIn.id).goto trivial
  | free i e p _ _ _ => exact h.delete p.ppId
  | answer pkt e ha _ hfound =>
      refine h.congr rfl rfl (fun _ _ hp => hp) fun {e' n} hn => ?_
      rcases getPendingPacketId_eq_some hfound with ⟨p, hp, hid⟩
      cases hn
      exact harrival pkt ha e p hp hid
  | unexpected pkt hreader _ =>
      exact h.congr rfl rfl (fun _ _ hp => hp) fun hn => h.storing hn
  | store e n p _ hreader hp => exact h.store hreader hp

end Steps

/-! ## Runs -/

/-- In every state that a run leads to, no thread waits for an answer that has been stored, provided
that no answer arrives while a request with its identifier is still to be written. -/
theorem no_lost_answer (t : MCSTables) (acts : List ClientAct) (s : Client)
    (hrun : Client.init.run t acts = some s)
    (harrival : ∀ pre pkt post u, acts = pre ++ .answer pkt :: post →
      Client.init.run t pre = some u → Awaited u pkt.id) :
    ¬ LostAnswer s := by
  have hinv : OwnInv s ∧ WakeInv s := by
    refine Lib.run_invariant_of (I := fun u => OwnInv u ∧ WakeInv u)
      (C := fun u a => ∀ pkt, a = .answer pkt → Awaited u pkt.id) ?_ ⟨ownInv_init, wakeInv_init⟩ ?_
      hrun
    · rintro u u' a ⟨hown, hwake⟩ hawaited hact
      have heff := act_effect hact
      exact ⟨heff.ownInv hown, heff.wakeInv hown hwake hawaited⟩
    · rintro pre a post u hsplit hpre pkt rfl
      exact harrival pre pkt post u hsplit hpre
  rintro ⟨i, w, e, p, hpc, hp, hvalid⟩
  have hcaller := hinv.2.callers i
  rw [hpc] at hcaller
  simp [hcaller p hp] at hvalid

/-- `procman_start`. -/
def startRequest : MCSPacket := rawPacket 7 5 none emptyBlock emptyBlock

/-- A thread sends it; the answer is read before the thread waits and stored after that. -/
def syncRun : List ClientAct :=
  [.sendSync 0 startRequest, .step 0 openFd, .step 0 openFd, .answer (mcsOkPacket startRequest),
    .step 0 openFd, .store]

theorem syncRun_answered :
    ∃ s, Client.init.run commandSet syncRun = some s ∧
      (s.heap 0).any (fun p => p.ppValid) = true ∧ ¬ LostAnswer s := by
  refine ⟨_, rfl, rfl, no_lost_answer commandSet syncRun _ rfl ?_⟩
  intro pre pkt post u hsplit hpre
  -- the only answer of the run comes after the write
  have hpre' : pre = syncRun.take 3 := by
    have hlen : pre.length = 3 := by
      have hget : syncRun[pre.length]? = some (.answer pkt) := by simp [hsplit]
      match hn : pre.length with
      | 0 | 1 | 2 | 4 | 5 => simp [hn, syncRun] at hget
      | 3 => rfl
      | n + 6 => simp [hn, syncRun] at hget
    rw [← hlen]
    simp [hsplit]
  subst hpre'
  cases hpre
  intro e p hp hid
  by_cases he : e = 0
  · subst he
    decide
  · simp [Client.goto, Client.set, Client.mark, Client.send, Client.addPendingId, Client.init, he]
      at hp

end LibSDB
end AbsPlatform

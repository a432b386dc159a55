import AbsPlatform.LibSDB.Wakeups

/-!
# Exchange — whether a request gets its own answer

`sdb_send_sync` and `sdb_wait_async` call `pthread_cond_wait` once and do not look at `pp_valid`
afterwards, and the reader stores an answer in whatever entry it finds.  `exchanged_iff` says what
this depends on: no wait ends on an entry without an answer, and no second answer finds the entry
of the first.
-/

namespace AbsPlatform
namespace LibSDB

open MCS

/-! ## First answers -/

/-- Packet `n` is the first one with this identifier, from number `since` on. -/
structure FirstAnswer (received : List MCSPacket) (since : Nat) (pktId : UInt32) (n : PacketPtr) :
    Prop where
  le : since ≤ n
  id : ∃ q, received[n]? = some q ∧ q.id = pktId
  before : ∀ m q, since ≤ m → m < n → received[m]? = some q → q.id ≠ pktId

/-- No packet from number `since` on has this identifier. -/
def NoAnswer (received : List MCSPacket) (since : Nat) (pktId : UInt32) : Prop :=
  ∀ m q, since ≤ m → received[m]? = some q → q.id ≠ pktId

section FirstAnswers

variable {received : List MCSPacket} {since : Nat} {pktId : UInt32} {n : PacketPtr}

theorem FirstAnswer.lt (h : FirstAnswer received since pktId n) : n < received.length := by
  rcases h.id with ⟨q, hq, _⟩
  exact (List.getElem?_eq_some_iff.1 hq).1

theorem FirstAnswer.append (h : FirstAnswer received since pktId n) (l : List MCSPacket) :
    FirstAnswer (received ++ l) since pktId n where
  le := h.le
  id := by
    rw [List.getElem?_append_left h.lt]
    exact h.id
  before := by
    intro m q hle hlt hq
    rw [List.getElem?_append_left (hlt.trans h.lt)] at hq
    exact h.before m q hle hlt hq

theorem noAnswer_length (received : List MCSPacket) (pktId : UInt32) :
    NoAnswer received received.length pktId := by
  intro m q hle hq
  exact absurd (List.getElem?_eq_some_iff.1 hq).1 (Nat.not_lt.2 hle)

/-- A packet with another identifier. -/
theorem NoAnswer.append (h : NoAnswer received since pktId) {pkt : MCSPacket}
    (hne : pkt.id ≠ pktId) : NoAnswer (received ++ [pkt]) since pktId := by
  intro m q hle hq
  by_cases hm : m < received.length
  · rw [List.getElem?_append_left hm] at hq
    exact h m q hle hq
  · have hmem := List.mem_of_getElem? (List.getElem?_append_right (Nat.not_lt.1 hm) ▸ hq)
    exact List.mem_singleton.1 hmem ▸ hne

/-- The first packet with this identifier. -/
theorem NoAnswer.first (h : NoAnswer received since pktId) (hle : since ≤ received.length)
    {pkt : MCSPacket} (hid : pkt.id = pktId) :
    FirstAnswer (received ++ [pkt]) since pktId received.length where
  le := hle
  id := ⟨pkt, by simp, hid⟩
  before := by
    intro m q hm hlt hq
    rw [List.getElem?_append_left hlt] at hq
    exact h m q hm hq

end FirstAnswers

/-! ## What an exchange should do -/

/-- A call of `sdb_wait_async` for entry `e` returns in this step. -/
def ReturnsWait (u : Client) (a : ClientAct) (u' : Client) (e : Nat) : Prop :=
  (∃ i, a = .waitAsync i e ∧ u'.pc i = .idle) ∨
    ∃ i fd, a = .step i fd ∧ u.pc i = .woken .waitAsync e ∧ u'.pc i = .idle

/-- In a run, each completed exchange yields the answer to its own request. -/
structure Exchanged (t : MCSTables) (acts : List ClientAct) : Prop where
  /-- `*pkt_out` of a call of `sdb_send_sync` that is going to return 0 -/
  sync : ∀ pre post u i pktIn e pktOut, acts = pre ++ post → Client.init.run t pre = some u →
    u.pc i = .done pktIn e pktOut →
    ∃ n, pktOut = some n ∧ FirstAnswer u.received (u.since e) pktIn.id n
  /-- `sdb_wait_async` returns 0 -/
  wait : ∀ pre a post u u' e, acts = pre ++ a :: post → Client.init.run t pre = some u →
    u.act t a = some u' → ReturnsWait u a u' e → ∃ p, u'.heap e = some p ∧ p.ppValid = true
  /-- an entry that is valid keeps its packet -/
  kept : ∀ pre a post u u' e p p', acts = pre ++ a :: post → Client.init.run t pre = some u →
    u.act t a = some u' → u.heap e = some p → u'.heap e = some p' → p.ppValid = true →
    p'.ppValid = true ∧ p'.ppPkt = p.ppPkt

/-- No request that is outstanding has this identifier: those that have it have failed or have got
an answer. -/
def Unused (s : Client) (pktId : UInt32) : Prop :=
  ∀ e p, s.heap e = some p → p.ppId = pktId → s.sent e = .failed ∨ p.ppValid = true

/-- The step calls `sdb_send_sync` or `sdb_send_async`. -/
def Sends (a : ClientAct) (pktIn : MCSPacket) : Prop :=
  ∃ i, a = .sendSync i pktIn ∨ a = .sendAsync i pktIn

/-- The requests that are outstanding at any one time have distinct identifiers. -/
def DistinctIds (t : MCSTables) (acts : List ClientAct) : Prop :=
  ∀ pre a post u pktIn, acts = pre ++ a :: post → Client.init.run t pre = some u →
    Sends a pktIn → Unused u pktIn.id

/-- A thread goes on after its wait, and nothing has been stored in its entry. -/
def EndsEarly (s : Client) (a : ClientAct) : Prop :=
  ∃ i fd w e p, a = .step i fd ∧ s.pc i = .woken w e ∧ s.unlocked e = some p ∧ p.ppValid = false

/-- The reader stores an answer in an entry that has one. -/
def Overwrites (s : Client) (a : ClientAct) : Prop :=
  a = .store ∧ ∃ e n p, s.reader = some (e, n) ∧ s.unlocked e = some p ∧ p.ppValid = true

/-! ## Lookup -/

section Lookup

variable {s s' : Client} {pktId : UInt32}

/-- Looking up an identifier sees the identifiers of the entries in the list. -/
theorem getPendingPacketId_congr (hpending : s'.pending = s.pending)
    (hheap : ∀ e, (s'.heap e).map SDBPendingPacket.ppId = (s.heap e).map SDBPendingPacket.ppId) :
    s'.getPendingPacketId pktId = s.getPendingPacketId pktId := by
  have hany : ∀ o : Option SDBPendingPacket, o.any (fun p => p.ppId == pktId) =
      (o.map SDBPendingPacket.ppId).any fun x => x == pktId := by
    intro o
    cases o <;> rfl
  simp only [Client.getPendingPacketId, hpending, hany, hheap]

/-- An entry may change as long as it keeps its identifier. -/
theorem getPendingPacketId_set {e : Nat} {p q : SDBPendingPacket} (hp : s.heap e = some p)
    (hid : q.ppId = p.ppId) :
    (s.set e q).getPendingPacketId pktId = s.getPendingPacketId pktId := by
  refine getPendingPacketId_congr rfl fun e' => ?_
  by_cases he : e' = e
  · simp [Client.set, he, hp, hid]
  · simp [Client.set, he]

theorem getPendingPacketId_send_self (s : Client) (i : Nat) (sync : Bool) (pktIn : MCSPacket) :
    (s.send i sync pktIn).getPendingPacketId pktIn.id = some s.allocated := by
  simp [Client.getPendingPacketId, Client.send, Client.goto, Client.addPendingId, newPending]

theorem getPendingPacketId_send_of_ne {pktIn : MCSPacket} (hne : pktIn.id ≠ pktId)
    (hfresh : s.heap s.allocated = none) (i : Nat) (sync : Bool) :
    (s.send i sync pktIn).getPendingPacketId pktId = s.getPendingPacketId pktId := by
  have hpred : ∀ e, ((s.send i sync pktIn).heap e).any (fun p => p.ppId == pktId) =
      (s.heap e).any fun p => p.ppId == pktId := by
    intro e
    by_cases he : e = s.allocated
    · simp [Client.send, Client.goto, Client.addPendingId, newPending, he, hfresh, hne]
    · simp [Client.send, Client.goto, Client.addPendingId, he]
  have hpending : (s.send i sync pktIn).pending = s.allocated :: s.pending := rfl
  simp [Client.getPendingPacketId, hpred, hpending, hfresh]

/-- Removing something that is not looked for. -/
theorem find?_erase_of_not {α : Type} [DecidableEq α] {f : α → Bool} {b : α} (hb : f b = false)
    (l : List α) : (l.erase b).find? f = l.find? f := by
  induction l with
  | nil => rfl
  | cons a l ih =>
      by_cases hab : a = b
      · subst hab
        simp [hb]
      · simp [hab, List.find?_cons, ih]

theorem getPendingPacketId_delete_of_ne {pktId' : UInt32} (hne : pktId' ≠ pktId) :
    (s.deletePendingId pktId').getPendingPacketId pktId = s.getPendingPacketId pktId := by
  unfold Client.deletePendingId
  split
  · rfl
  · next b hb =>
    rcases getPendingPacketId_eq_some hb with ⟨p, hp, hid⟩
    -- the entry that is deleted does not match, before or after
    have hpred : ∀ e, (Function.update s.heap b none e).any (fun q => q.ppId == pktId) =
        (s.heap e).any fun q => q.ppId == pktId := by
      intro e
      by_cases he : e = b
      · simp [he, hp, hid, hne]
      · simp [he]
    have hnot : (s.heap b).any (fun q => q.ppId == pktId) = false := by simp [hp, hid, hne]
    simp only [Client.getPendingPacketId, hpred]
    exact find?_erase_of_not (f := fun e => (s.heap e).any fun q => q.ppId == pktId) hnot s.pending

/-- What is deleted is gone. -/
theorem heap_deletePendingId_of_get {e : Nat} (h : s.getPendingPacketId pktId = some e) :
    (s.deletePendingId pktId).heap e = none := by
  simp [Client.deletePendingId, h]

end Lookup

/-! ## Invariants -/

/-- Whatever the clients and the peer do. -/
structure StoreInv (s : Client) : Prop where
  fresh : ∀ {e p}, s.heap e = some p → e < s.allocated
  unset : ∀ {e p}, s.heap e = some p → p.ppValid = false → p.ppPkt = none
  reader : ∀ {e n}, s.reader = some (e, n) → n + 1 = s.received.length
  older : ∀ {e p m}, s.heap e = some p → p.ppPkt = some m →
    m < s.received.length ∧ ∀ n, s.reader = some (e, n) → m < n

/-- What is in an entry, apart from its lock. -/
def SDBPendingPacket.content (p : SDBPendingPacket) : UInt32 × Option PacketPtr × Bool :=
  (p.ppId, p.ppPkt, p.ppValid)

/-- An entry whose request has not failed: it has the first answer to the request, if there is one,
and is the one its identifier leads to, as long as there is none. -/
structure EntryOk (s : Client) (e : Nat) (p : SDBPendingPacket) : Prop where
  found : p.ppValid = false → s.getPendingPacketId p.ppId = some e
  silent : p.ppValid = false → (∀ n, s.reader ≠ some (e, n)) →
    NoAnswer s.received (s.since e) p.ppId
  storing : p.ppValid = false → ∀ n, s.reader = some (e, n) →
    FirstAnswer s.received (s.since e) p.ppId n
  first : p.ppValid = true → ∃ n, p.ppPkt = some n ∧ FirstAnswer s.received (s.since e) p.ppId n

structure ExchangeInv (s : Client) : Prop where
  since : ∀ {e p}, s.heap e = some p → s.since e ≤ s.received.length
  entries : ∀ {e p}, s.heap e = some p → s.sent e ≠ .failed → EntryOk s e p
  /-- a thread in a call has an entry for its packet -/
  calls : ∀ {i pktIn e}, (s.pc i).request = some (pktIn, e) →
    s.sent e ≠ .failed ∧ ∀ p, s.heap e = some p → p.ppId = pktIn.id
  /-- a thread that has its result has the first answer -/
  results : ∀ {i pktIn e pktOut}, s.pc i = .done pktIn e pktOut →
    e < s.allocated ∧ ∃ n, pktOut = some n ∧ FirstAnswer s.received (s.since e) pktIn.id n

theorem storeInv_init : StoreInv Client.init where
  fresh := by
    intro e p h
    cases h
  unset := by
    intro e p h
    cases h
  reader := by
    intro e n h
    cases h
  older := by
    intro e p m h
    cases h

theorem exchangeInv_init : ExchangeInv Client.init where
  since := by
    intro e p h
    cases h
  entries := by
    intro e p h
    cases h
  calls := by
    intro i pktIn e h
    cases h
  results := by
    intro i pktIn e pktOut h
    cases h

section StoreSteps

variable {t : MCSTables} {s s' : Client} {a : ClientAct}

/-- Entries keep their contents or are freed, and the reader does nothing. -/
theorem StoreInv.frame (h : StoreInv s) (halloc : s'.allocated = s.allocated)
    (hreceived : s'.received = s.received) (hreader : s'.reader = s.reader)
    (hheap : ∀ {e p'}, s'.heap e = some p' → ∃ p, s.heap e = some p ∧ p'.content = p.content) :
    StoreInv s' where
  fresh := by
    intro e p' hp'
    rcases hheap hp' with ⟨p, hp, _⟩
    exact halloc ▸ h.fresh hp
  unset := by
    intro e p' hp' hvalid
    rcases hheap hp' with ⟨p, hp, hsame⟩
    simp only [SDBPendingPacket.content, Prod.mk.injEq] at hsame
    exact hsame.2.1.trans (h.unset hp (hsame.2.2 ▸ hvalid))
  reader := fun hn => hreceived ▸ h.reader (hreader ▸ hn)
  older := by
    intro e p' m hp' hm
    rcases hheap hp' with ⟨p, hp, hsame⟩
    simp only [SDBPendingPacket.content, Prod.mk.injEq] at hsame
    rw [hreceived, hreader]
    exact h.older hp (hsame.2.1 ▸ hm)

/-- Only the lock of an entry changes. -/
theorem content_set {e : Nat} {p : SDBPendingPacket} (hp : s.heap e = some p) (l : Option Nat)
    {e' : Nat} {p' : SDBPendingPacket} (hp' : (s.set e { p with ppLock := l }).heap e' = some p') :
    ∃ q, s.heap e' = some q ∧ p'.content = q.content := by
  rcases heap_set hp' with ⟨rfl, rfl⟩ | ⟨_, hold⟩
  · exact ⟨p, hp, rfl⟩
  · exact ⟨p', hold, rfl⟩

theorem StoreInv.send (h : StoreInv s) (i : Nat) (sync : Bool) (pktIn : MCSPacket) :
    StoreInv (s.send i sync pktIn) where
  fresh := by
    intro e p hp
    rcases heap_send hp with ⟨rfl, _⟩ | ⟨_, hp⟩
    · exact Nat.lt_succ_self _
    · exact Nat.lt_succ_of_lt (h.fresh hp)
  unset := by
    intro e p hp hvalid
    rcases heap_send hp with ⟨_, rfl⟩ | ⟨_, hp⟩
    · rfl
    · exact h.unset hp hvalid
  reader := h.reader
  older := by
    intro e p m hp hm
    rcases heap_send hp with ⟨_, rfl⟩ | ⟨_, hp⟩
    · cases hm
    · exact h.older hp hm

/-- The reader has got another answer. -/
theorem StoreInv.received (h : StoreInv s) (pkt : MCSPacket)
    (hheap : s'.heap = s.heap) (halloc : s'.allocated = s.allocated)
    (hreceived : s'.received = s.received ++ [pkt])
    (hreader : ∀ e n, s'.reader = some (e, n) → n = s.received.length) : StoreInv s' where
  fresh := fun hp => halloc ▸ h.fresh (hheap ▸ hp)
  unset := fun hp => h.unset (hheap ▸ hp)
  reader := fun {e n} hn => by simp [hreader e n hn, hreceived]
  older := by
    intro e p m hp hm
    have hlt := (h.older (hheap ▸ hp) hm).1
    refine ⟨?_, fun n hn => ?_⟩
    · rw [hreceived, List.length_append]
      exact Nat.lt_succ_of_lt hlt
    · rw [hreader e n hn]
      exact hlt

theorem StoreInv.store (h : StoreInv s) {e : Nat} {n : PacketPtr} {p : SDBPendingPacket}
    (hreader : s.reader = some (e, n)) (hp : s.heap e = some p) :
    StoreInv (s.storeAnswer e n p) where
  fresh := by
    intro e' p' hp'
    rcases heap_storeAnswer hp' with ⟨rfl, _⟩ | ⟨_, hold⟩
    · exact h.fresh hp
    · exact h.fresh hold
  unset := by
    intro e' p' hp' hvalid
    rcases heap_storeAnswer hp' with ⟨_, rfl⟩ | ⟨_, hold⟩
    · cases hvalid
    · exact h.unset hold hvalid
  reader := by
    intro e' m hm
    cases hm
  older := by
    intro e' p' m hp' hm
    refine ⟨?_, fun k hk => by cases hk⟩
    rcases heap_storeAnswer hp' with ⟨_, rfl⟩ | ⟨_, hold⟩
    · cases hm
      have hlast := h.reader hreader
      exact hlast ▸ Nat.lt_succ_self n
    · exact (h.older hold hm).1

theorem Effect.storeInv (heff : Effect t s a s') (h : StoreInv s) : StoreInv s' := by
  cases heff with
  | quiet _ => exact h
  | add i sync pktIn _ _ _ => exact h.send i sync pktIn
  | writeAsync i pktIn e fd _ => exact h.frame rfl rfl rfl fun hp => ⟨_, hp, rfl⟩
  | lock i pktIn e p _ hp =>
      exact h.frame rfl rfl rfl (content_set (unlocked_eq_some_iff.1 hp).1 (some i))
  | write i pktIn e _ => exact h.frame rfl rfl rfl fun hp => ⟨_, hp, rfl⟩
  | writeFails i pktIn e p _ hp => exact h.frame rfl rfl rfl (content_set hp none)
  | wait i pktIn e p _ hp => exact h.frame rfl rfl rfl (content_set hp none)
  | waitAsync i e p _ _ _ => exact h.frame rfl rfl rfl fun hp => ⟨_, hp, rfl⟩
  | spurious i w e _ => exact h.frame rfl rfl rfl fun hp => ⟨_, hp, rfl⟩
  | resume i fd w e p _ _ _ =>
      cases w with
      | sendSync pktIn => exact h.frame rfl rfl rfl fun hp => ⟨_, hp, rfl⟩
      | waitAsync => exact h.frame rfl rfl rfl fun hp => ⟨_, hp, rfl⟩
  | finish i pktIn e pktOut _ _ =>
      exact h.frame (by simp [Client.goto]) (by simp [Client.goto]) (by simp [Client.goto])
        fun hp => ⟨_, heap_of_deletePendingId s pktIn.id hp, rfl⟩
  | free i e p _ _ _ =>
      exact h.frame (by simp) (by simp) (by simp)
        fun hp => ⟨_, heap_of_deletePendingId s p.ppId hp, rfl⟩
  | answer pkt e _ _ _ =>
      refine h.received pkt rfl rfl rfl fun e' n hn => ?_
      cases hn
      rfl
  | unexpected pkt hnone _ =>
      exact h.received pkt rfl rfl rfl fun e' n hn => absurd (hnone.symm.trans hn) (by simp)
  | store e n p _ hreader hp => exact h.store hreader (unlocked_eq_some_iff.1 hp).1

end StoreSteps

section ExchangeSteps

variable {t : MCSTables} {s s' : Client} {a : ClientAct} {i : Nat} {pc' : AppPC}

theorem EntryOk.frame {e : Nat} {p p' : SDBPendingPacket} (h : EntryOk s e p)
    (hcontent : p'.content = p.content) (hreceived : s'.received = s.received)
    (hreader : s'.reader = s.reader) (hsince : s'.since e = s.since e)
    (hget : p.ppValid = false → s'.getPendingPacketId p.ppId = s.getPendingPacketId p.ppId) :
    EntryOk s' e p' := by
  simp only [SDBPendingPacket.content, Prod.mk.injEq] at hcontent
  rcases hcontent with ⟨hid, hpkt, hvalid⟩
  constructor
  · rw [hid, hvalid]
    exact fun hfalse => (hget hfalse).trans (h.found hfalse)
  · rw [hid, hvalid, hreceived, hsince, hreader]
    exact h.silent
  · rw [hid, hvalid, hreceived, hsince, hreader]
    exact h.storing
  · rw [hid, hpkt, hvalid, hreceived, hsince]
    exact h.first

/-- A step of the application threads that adds no entry: entries keep their contents or are freed,
and whoever is in a call was in it before. -/
theorem ExchangeInv.frame (h : ExchangeInv s) (halloc : s'.allocated = s.allocated)
    (hreceived : s'.received = s.received) (hreader : s'.reader = s.reader)
    (hsince : s'.since = s.since)
    (hheap : ∀ {e p'}, s'.heap e = some p' → ∃ p, s.heap e = some p ∧ p'.content = p.content)
    (hsent : ∀ {e p'}, s'.heap e = some p' → s'.sent e ≠ .failed → s.sent e ≠ .failed)
    (hget : ∀ {e p'}, s'.heap e = some p' → s'.sent e ≠ .failed →
      s.getPendingPacketId p'.ppId = some e →
      s'.getPendingPacketId p'.ppId = s.getPendingPacketId p'.ppId)
    (hcalls : ∀ {j pktIn e}, (s'.pc j).request = some (pktIn, e) →
      s'.sent e ≠ .failed ∧ ∃ k, (s.pc k).request = some (pktIn, e))
    (hresults : ∀ {j pktIn e pktOut}, s'.pc j = .done pktIn e pktOut →
      s.pc j = .done pktIn e pktOut ∨
        (e < s.allocated ∧
          ∃ n, pktOut = some n ∧ FirstAnswer s.received (s.since e) pktIn.id n)) :
    ExchangeInv s' where
  since := by
    intro e p' hp'
    rcases hheap hp' with ⟨p, hp, _⟩
    rw [hsince, hreceived]
    exact h.since hp
  entries := by
    intro e p' hp' hok
    rcases hheap hp' with ⟨p, hp, hsame⟩
    have hentry := h.entries hp (hsent hp' hok)
    have hid : p'.ppId = p.ppId := congrArg Prod.fst hsame
    refine hentry.frame hsame hreceived hreader (congrFun hsince e) fun hvalid => ?_
    exact hid ▸ hget hp' hok (hid ▸ hentry.found hvalid)
  calls := by
    intro j pktIn e hj
    rcases hcalls hj with ⟨hok, k, hk⟩
    refine ⟨hok, fun p' hp' => ?_⟩
    rcases hheap hp' with ⟨p, hp, hsame⟩
    exact (congrArg Prod.fst hsame).trans ((h.calls hk).2 p hp)
  results := by
    intro j pktIn e pktOut hj
    rw [halloc, hreceived, hsince]
    exact (hresults hj).elim h.results id

/-- A thread moves on inside its call or leaves it, and nothing else changes. -/
theorem ExchangeInv.goto (h : ExchangeInv s)
    (hreq : pc'.request = none ∨ pc'.request = (s.pc i).request)
    (hdone : ∀ pktIn e pktOut, pc' = .done pktIn e pktOut → e < s.allocated ∧
      ∃ n, pktOut = some n ∧ FirstAnswer s.received (s.since e) pktIn.id n) :
    ExchangeInv (s.goto i pc') := by
  refine h.frame rfl rfl rfl rfl (fun hp => ⟨_, hp, rfl⟩) (fun _ hok => hok) (fun _ _ _ => rfl)
    (fun {j pktIn e} hj => ?_) (fun {j pktIn e pktOut} hj => ?_)
  · have hold : (s.pc j).request = some (pktIn, e) := by
      by_cases hji : j = i
      · subst hji
        have hj' : pc'.request = some (pktIn, e) := by simpa [Client.goto] using hj
        rcases hreq with hnone | hsame
        · simp [hnone] at hj'
        · exact hsame ▸ hj'
      · simpa [Client.goto, hji] using hj
    exact ⟨(h.calls hold).1, j, hold⟩
  · by_cases hji : j = i
    · subst hji
      exact Or.inr (hdone pktIn e pktOut (by simpa [Client.goto] using hj))
    · exact Or.inl (by simpa [Client.goto, hji] using hj)

/-- A lock is taken or given back. -/
theorem ExchangeInv.set (h : ExchangeInv s) {e : Nat} {p : SDBPendingPacket}
    (hp : s.heap e = some p) (l : Option Nat) : ExchangeInv (s.set e { p with ppLock := l }) := by
  exact h.frame rfl rfl rfl rfl (content_set hp l) (fun _ hok => hok)
    (fun _ _ _ => getPendingPacketId_set hp rfl) (fun hj => ⟨(h.calls hj).1, _, hj⟩)
    (fun hj => Or.inl hj)

/-- A request has been written, or has failed and its caller is gone. -/
theorem ExchangeInv.mark (h : ExchangeInv s) {e : Nat} {st : Sent} (hok : s.sent e ≠ .failed)
    (hfree : st = .failed → ∀ j, (s.pc j).owns ≠ some e) : ExchangeInv (s.mark e st) := by
  refine h.frame rfl rfl rfl rfl (fun hp => ⟨_, hp, rfl⟩) (fun {e' p'} _ hok' => ?_)
    (fun _ _ _ => rfl) (fun {j pktIn e'} hj => ⟨?_, j, hj⟩) (fun hj => Or.inl hj)
  · by_cases he : e' = e
    · exact he ▸ hok
    · simpa [Client.mark, he] using hok'
  · by_cases he : e' = e
    · subst he
      intro hst
      have hst' : st = .failed := by simpa [Client.mark] using hst
      exact hfree hst' j (by simpa [AppPC.owns] using ⟨pktIn, hj⟩)
    · simpa [Client.mark, he] using (h.calls hj).1

theorem ExchangeInv.delete (h : ExchangeInv s) (pktId : UInt32) :
    ExchangeInv (s.deletePendingId pktId) := by
  refine h.frame (by simp) (by simp) (by simp) (by simp)
    (fun hp => ⟨_, heap_of_deletePendingId s pktId hp, rfl⟩) (fun _ hok => by simpa using hok)
    (fun {e p'} hp' _ hfound => ?_) (fun {j pktIn e} hj => ?_)
    (fun hj => Or.inl (by simpa using hj))
  · -- what its identifier leads to has been deleted, if that is the identifier
    refine getPendingPacketId_delete_of_ne ?_
    rintro rfl
    simp [heap_deletePendingId_of_get hfound] at hp'
  · have hold : (s.pc j).request = some (pktIn, e) := by simpa using hj
    exact ⟨by simpa using (h.calls hold).1, j, hold⟩

theorem since_send_self (s : Client) (i : Nat) (sync : Bool) (pktIn : MCSPacket) :
    (s.send i sync pktIn).since s.allocated = s.received.length := by
  simp [Client.send, Client.goto, Client.addPendingId]

/-- A new entry is the one its identifier leads to, and nothing has been received for it. -/
theorem entryOk_new (hreader : s.reader = none) (i : Nat) (sync : Bool) (pktIn : MCSPacket) :
    EntryOk (s.send i sync pktIn) s.allocated (newPending pktIn.id) where
  found := fun _ => getPendingPacketId_send_self s i sync pktIn
  silent := by
    intro _ _
    rw [since_send_self]
    exact noAnswer_length s.received pktIn.id
  storing := fun _ n hn => absurd (hreader.symm.trans hn) (by simp)
  first := nofun

theorem ExchangeInv.send (h : ExchangeInv s) (hstore : StoreInv s) (hown : OwnInv s)
    (hreader : s.reader = none) {pktIn : MCSPacket} (hunused : Unused s pktIn.id) (i : Nat)
    (sync : Bool) : ExchangeInv (s.send i sync pktIn) := by
  have hnone : s.heap s.allocated = none := by
    cases hp : s.heap s.allocated with
    | none => rfl
    | some p => exact absurd (hstore.fresh hp) (Nat.lt_irrefl _)
  have hreceived : (s.send i sync pktIn).received = s.received := rfl
  refine ⟨fun {e p} hp => ?_, fun {e p} hp hok => ?_, fun {j pkt e} hj => ?_,
    fun {j pkt e pktOut} hj => ?_⟩
  · rcases heap_send hp with ⟨rfl, _⟩ | ⟨he, hold⟩
    · rw [since_send_self, hreceived]
    · rw [since_send_of_ne he, hreceived]
      exact h.since hold
  · rcases heap_send hp with ⟨rfl, rfl⟩ | ⟨he, hold⟩
    · exact entryOk_new hreader i sync pktIn
    · rw [sent_send_of_ne he] at hok
      refine (h.entries hold hok).frame rfl rfl rfl (since_send_of_ne he) fun hvalid => ?_
      -- the entries of requests that are outstanding have other identifiers
      refine getPendingPacketId_send_of_ne (fun hid => ?_) hnone i sync
      rcases hunused e p hold hid.symm with hfailed | htrue
      · exact hok hfailed
      · simp [hvalid] at htrue
  · rcases request_send hj with ⟨rfl, rfl, rfl⟩ | ⟨_, hold⟩
    · refine ⟨by simp [Client.send, Client.goto, Client.addPendingId], fun p hp => ?_⟩
      rcases heap_send hp with ⟨_, rfl⟩ | ⟨he, _⟩
      · rfl
      · exact absurd rfl he
    · have he : e ≠ s.allocated :=
        Nat.ne_of_lt (hown.old (i := j) (by simp [AppPC.owns, hold]))
      refine ⟨sent_send_of_ne he ▸ (h.calls hold).1, fun p hp => ?_⟩
      rcases heap_send hp with ⟨heq, _⟩ | ⟨_, hp⟩
      · exact absurd heq he
      · exact (h.calls hold).2 p hp
  · have hji : j ≠ i := by
      rintro rfl
      simp [Client.send, Client.goto] at hj
    have hold : s.pc j = .done pkt e pktOut := pc_send_of_ne hji ▸ hj
    rcases h.results hold with ⟨hlt, hfirst⟩
    rw [since_send_of_ne (Nat.ne_of_lt hlt), hreceived]
    exact ⟨Nat.lt_succ_of_lt hlt, hfirst⟩

/-- The reader has got an answer: it goes to the entry of its request, if there is one. -/
theorem ExchangeInv.received (h : ExchangeInv s) (hnone : s.reader = none) (pkt : MCSPacket)
    {reader : Option (Nat × PacketPtr)} (replies : List MCSPacket)
    (hreader : reader = (s.getPendingPacketId pkt.id).map fun e => (e, s.received.length)) :
    ExchangeInv
      { s with received := s.received ++ [pkt], reader := reader, replies := replies } := by
  have hlen : s.received.length ≤ (s.received ++ [pkt]).length := by simp
  refine ⟨fun hp => (h.since hp).trans hlen, fun {e p} hp hok => ?_, h.calls, fun hj => ?_⟩
  · have hentry := h.entries hp hok
    have hquiet : ∀ n, s.reader ≠ some (e, n) := by simp [hnone]
    refine ⟨hentry.found, fun hvalid hnot => ?_, fun hvalid n hn => ?_, fun hvalid => ?_⟩
    · refine (hentry.silent hvalid hquiet).append fun hid => ?_
      exact hnot s.received.length (by simp [hreader, hid, hentry.found hvalid])
    · -- the entry that was found has the identifier of the answer
      have hfound : s.getPendingPacketId pkt.id = some e ∧ s.received.length = n := by
        simpa [hreader] using hn
      rcases hfound with ⟨hfound, rfl⟩
      rcases getPendingPacketId_eq_some hfound with ⟨p', hp', hid⟩
      have hsame : p' = p := Option.some.inj (hp'.symm.trans hp)
      exact (hentry.silent hvalid hquiet).first (h.since hp) (hsame ▸ hid.symm)
    · rcases hentry.first hvalid with ⟨n, hn, hfirst⟩
      exact ⟨n, hn, hfirst.append [pkt]⟩
  · rcases h.results hj with ⟨hlt, n, hn, hfirst⟩
    exact ⟨hlt, n, hn, hfirst.append [pkt]⟩

theorem wake_eq_done {e e' : Nat} {pc : AppPC} {pktIn : MCSPacket} {pktOut : Option PacketPtr}
    (h : pc.wake e = .done pktIn e' pktOut) : pc = .done pktIn e' pktOut := by
  cases pc with
  | waiting w e₁ =>
      simp only [AppPC.wake] at h
      split_ifs at h
  | _ => exact h

/-- The reader stores an answer in an entry that had none. -/
theorem ExchangeInv.store (h : ExchangeInv s) {e : Nat} {n : PacketPtr} {p : SDBPendingPacket}
    (hreader : s.reader = some (e, n)) (hp : s.heap e = some p) (hvalid : p.ppValid = false) :
    ExchangeInv (s.storeAnswer e n p) := by
  have hget : ∀ pktId, (s.storeAnswer e n p).getPendingPacketId pktId =
      s.getPendingPacketId pktId := fun pktId =>
    getPendingPacketId_set (q := { p with ppPkt := some n, ppValid := true }) hp rfl
  refine ⟨fun {e' p'} hp' => ?_, fun {e' p'} hp' hok => ?_, fun {j pktIn e'} hj => ?_,
    fun hj => h.results (wake_eq_done hj)⟩
  · rcases heap_storeAnswer hp' with ⟨rfl, _⟩ | ⟨_, hold⟩
    · exact h.since hp
    · exact h.since hold
  · rcases heap_storeAnswer hp' with ⟨rfl, rfl⟩ | ⟨he, hold⟩
    · have hentry := h.entries hp hok
      exact {
        found := nofun
        silent := nofun
        storing := nofun
        first := fun _ => ⟨n, rfl, hentry.storing hvalid n hreader⟩ }
    · have hentry := h.entries hold hok
      have hquiet : ∀ m, s.reader ≠ some (e', m) := fun m hm =>
        he (congrArg Prod.fst (Option.some.inj (hm.symm.trans hreader)))
      exact {
        found := fun hfalse => (hget _).trans (hentry.found hfalse)
        silent := fun hfalse _ => hentry.silent hfalse hquiet
        storing := fun _ m hm => nomatch hm
        first := hentry.first }
  · have hj' : (s.pc j).request = some (pktIn, e') := (request_wake e (s.pc j)).symm.trans hj
    refine ⟨(h.calls hj').1, fun p' hp' => ?_⟩
    rcases heap_storeAnswer hp' with ⟨rfl, rfl⟩ | ⟨_, hold⟩
    · exact (h.calls hj').2 p hp
    · exact (h.calls hj').2 p' hold

/-- What a step preserves when it respects the identifiers in use, ends no wait early and overwrites
no answer. -/
theorem Effect.exchangeInv (heff : Effect t s a s') (hown : OwnInv s) (hstore : StoreInv s)
    (h : ExchangeInv s) (hunused : ∀ pktIn, Sends a pktIn → Unused s pktIn.id)
    (hearly : ¬ EndsEarly s a) (hover : ¬ Overwrites s a) : ExchangeInv s' := by
  -- the thread of a call is the only one with its entry
  have hleft : ∀ {i e}, (s.pc i).owns = some e → ∀ j, ((s.goto i .idle).pc j).owns ≠ some e := by
    intro i e hi j hj
    by_cases hji : j = i
    · simp [Client.goto, hji, AppPC.owns, AppPC.request] at hj
    · exact hji (hown.alone (by simpa [Client.goto, hji] using hj) hi)
  cases heff with
  | quiet _ => exact h
  | add i sync pktIn _ hreader ha =>
      refine h.send hstore hown hreader (hunused pktIn ⟨i, ?_⟩) i sync
      cases sync with
      | false => exact Or.inr ha
      | true => exact Or.inl ha
  | writeAsync i pktIn e fd hpc =>
      have hreq : (s.pc i).request = some (pktIn, e) := by rw [hpc]; rfl
      have hcall := h.calls hreq
      have hidle : ExchangeInv (s.goto i .idle) := h.goto (Or.inl rfl) (by simp)
      exact hidle.mark hcall.1 fun _ => hleft (by rw [hpc]; rfl)
  | lock i pktIn e p hpc hp =>
      refine (h.set (unlocked_eq_some_iff.1 hp).1 (some i)).goto (Or.inr ?_) (by simp)
      exact (congrArg AppPC.request hpc).symm
  | write i pktIn e hpc =>
      have hreq : (s.pc i).request = some (pktIn, e) := by rw [hpc]; rfl
      have hcall := h.calls hreq
      refine (h.mark hcall.1 (by simp)).goto (Or.inr ?_) (by simp)
      exact (congrArg AppPC.request hpc).symm
  | writeFails i pktIn e p hpc hp =>
      have hreq : (s.pc i).request = some (pktIn, e) := by rw [hpc]; rfl
      have hcall := h.calls hreq
      have hidle : ExchangeInv (s.goto i .idle) := h.goto (Or.inl rfl) (by simp)
      exact (hidle.mark hcall.1 fun _ => hleft (by rw [hpc]; rfl)).set hp none
  | wait i pktIn e p hpc hp =>
      refine (h.set hp none).goto (Or.inr ?_) (by simp)
      exact (congrArg AppPC.request hpc).symm
  | waitAsync i e p _ _ _ => exact h.goto (Or.inl rfl) (by simp)
  | spurious i w e hpc =>
      refine h.goto (Or.inr ?_) (by simp)
      cases w <;> simp [hpc, AppPC.request]
  | resume i fd w e p ha hpc hp =>
      cases w with
      | waitAsync => exact h.goto (Or.inl rfl) (by simp)
      | sendSync pktIn =>
          have hheap := (unlocked_eq_some_iff.1 hp).1
          have hvalid : p.ppValid = true := by
            by_contra hfalse
            exact hearly ⟨i, fd, _, e, p, ha, hpc, hp, by simpa using hfalse⟩
          have hreq : (s.pc i).request = some (pktIn, e) := by rw [hpc]; rfl
          have hcall := h.calls hreq
          rcases (h.entries hheap hcall.1).first hvalid with ⟨n, hn, hfirst⟩
          refine h.goto (Or.inl rfl) ?_
          rintro pkt e' pktOut ⟨⟩
          exact ⟨hstore.fresh hheap, n, hn, hcall.2 p hheap ▸ hfirst⟩
  | finish i pktIn e pktOut _ _ => exact (h.delete pktIn.id).goto (Or.inl rfl) (by simp)
  | free i e p _ _ _ => exact h.delete p.ppId
  | answer pkt e _ hnone hfound => exact h.received hnone pkt s.replies (by simp [hfound])
  | unexpected pkt hnone hfound => exact h.received hnone pkt _ (by simp [hnone, hfound])
  | store e n p ha hreader hp =>
      refine h.store hreader (unlocked_eq_some_iff.1 hp).1 ?_
      by_contra htrue
      exact hover ⟨ha, e, n, p, hreader, hp, by simpa using htrue⟩

/-- An entry that is valid keeps its packet, unless the reader overwrites it. -/
theorem Effect.kept (heff : Effect t s a s') (hstore : StoreInv s) (hover : ¬ Overwrites s a)
    {e : Nat} {p p' : SDBPendingPacket} (hp : s.heap e = some p) (hp' : s'.heap e = some p')
    (hvalid : p.ppValid = true) : p'.ppValid = true ∧ p'.ppPkt = p.ppPkt := by
  have hsame : ∀ {q : SDBPendingPacket}, s.heap e = some q → p'.content = q.content →
      p'.ppValid = true ∧ p'.ppPkt = p.ppPkt := by
    intro q hq hcontent
    have hqp : q = p := Option.some.inj (hq.symm.trans hp)
    simp only [SDBPendingPacket.content, Prod.mk.injEq, hqp] at hcontent
    exact ⟨hcontent.2.2.trans hvalid, hcontent.2.1⟩
  have hset : ∀ {e₁ : Nat} {q : SDBPendingPacket} {l : Option Nat}, s.heap e₁ = some q →
      (s.set e₁ { q with ppLock := l }).heap e = some p' →
      p'.ppValid = true ∧ p'.ppPkt = p.ppPkt := by
    intro e₁ q l hq hset'
    rcases content_set hq l hset' with ⟨q', hq', hcontent⟩
    exact hsame hq' hcontent
  cases heff with
  | add i sync pktIn _ _ _ =>
      rcases heap_send hp' with ⟨rfl, _⟩ | ⟨_, hold⟩
      · exact absurd (hstore.fresh hp) (Nat.lt_irrefl _)
      · exact hsame hold rfl
  | lock i pktIn e₁ q _ hq => exact hset (unlocked_eq_some_iff.1 hq).1 hp'
  | writeFails i pktIn e₁ q _ hq => exact hset hq hp'
  | wait i pktIn e₁ q _ hq => exact hset hq hp'
  | resume i fd w e₁ q _ _ _ => cases w <;> exact hsame hp' rfl
  | finish i pktIn e₁ pktOut _ _ => exact hsame (heap_of_deletePendingId s pktIn.id hp') rfl
  | free i e₁ q _ _ _ => exact hsame (heap_of_deletePendingId s q.ppId hp') rfl
  | store e₁ n q ha hreader hq =>
      rcases heap_storeAnswer hp' with ⟨rfl, _⟩ | ⟨_, hold⟩
      · have hqp : q = p := Option.some.inj ((unlocked_eq_some_iff.1 hq).1.symm.trans hp)
        exact absurd ⟨ha, e, n, q, hreader, hq, hqp ▸ hvalid⟩ hover
      · exact hsame hold rfl
  | _ => exact hsame hp' rfl

/-- `sdb_wait_async` returns with a valid entry, unless its wait ends early. -/
theorem act_waited (h : s.act t a = some s') (hearly : ¬ EndsEarly s a) {e : Nat}
    (hret : ReturnsWait s a s' e) : ∃ p, s'.heap e = some p ∧ p.ppValid = true := by
  rcases hret with ⟨i, rfl, hidle⟩ | ⟨i, fd, rfl, hpc, _⟩
  · simp only [Client.act] at h
    split at h
    · next p _ hp =>
      split_ifs at h with hvalid
      · cases h
        exact ⟨p, (unlocked_eq_some_iff.1 hp).1, hvalid⟩
      · cases h
        simp [Client.goto] at hidle
    · cases h
  · cases hp : s.unlocked e with
    | none => simp [Client.act, Client.step, hpc, hp] at h
    | some p =>
        simp only [Client.act, Client.step, hpc, hp, Option.some.injEq] at h
        subst h
        refine ⟨p, (unlocked_eq_some_iff.1 hp).1, ?_⟩
        by_contra hfalse
        exact hearly ⟨i, fd, _, e, p, rfl, hpc, hp, by simpa using hfalse⟩

end ExchangeSteps

/-! ## Runs -/

section Runs

variable {t : MCSTables} {acts pre post : List ClientAct} {a : ClientAct} {u : Client}

theorem run_storeInv (h : Client.init.run t pre = some u) : StoreInv u :=
  Lib.run_invariant (I := StoreInv) (fun hs hact => (act_effect hact).storeInv hs) storeInv_init h

/-- A wait that ends early returns what is not an answer. -/
theorem not_endsEarly (h : Exchanged t acts) (hsplit : acts = pre ++ a :: post)
    (hpre : Client.init.run t pre = some u) : ¬ EndsEarly u a := by
  rintro ⟨i, fd, w, e, p, rfl, hpc, hp, hfalse⟩
  have hheap := (unlocked_eq_some_iff.1 hp).1
  have hact : u.act t (.step i fd) = some (u.resume i w e p) := by
    simp [Client.act, Client.step, hpc, hp]
  cases w with
  | waitAsync =>
      have hidle : (u.resume i .waitAsync e p).pc i = .idle := by simp [Client.resume, Client.goto]
      rcases h.wait pre _ post u _ e hsplit hpre hact (Or.inr ⟨i, fd, rfl, hpc, hidle⟩) with
        ⟨q, hq, htrue⟩
      have hqp : q = p := Option.some.inj (hq.symm.trans hheap)
      simp [hqp, hfalse] at htrue
  | sendSync pktIn =>
      -- the thread has what `malloc` left in the entry
      have hdone : (u.resume i (.sendSync pktIn) e p).pc i = .done pktIn e p.ppPkt := by
        simp [Client.resume, Client.goto]
      have hnext : Client.init.run t (pre ++ [.step i fd]) =
          some (u.resume i (.sendSync pktIn) e p) := Lib.run_snoc hpre hact
      have hsplit' : acts = (pre ++ [.step i fd]) ++ post := by simp [hsplit]
      rcases h.sync _ post _ i pktIn e p.ppPkt hsplit' hnext hdone with ⟨n, hn, _⟩
      simp [(run_storeInv hpre).unset hheap hfalse] at hn

/-- An answer that is overwritten is not kept. -/
theorem not_overwrites (h : Exchanged t acts) (hsplit : acts = pre ++ a :: post)
    (hpre : Client.init.run t pre = some u) : ¬ Overwrites u a := by
  rintro ⟨rfl, e, n, p, hreader, hp, htrue⟩
  have hheap := (unlocked_eq_some_iff.1 hp).1
  have hact : u.act t .store = some (u.storeAnswer e n p) := by
    simp [Client.act, hreader, hp]
  have hnew : (u.storeAnswer e n p).heap e = some { p with ppPkt := some n, ppValid := true } := by
    simp [Client.storeAnswer]
  have hkept := (h.kept pre _ post u _ e p _ hsplit hpre hact hheap hnew htrue).2
  exact Nat.lt_irrefl n (((run_storeInv hpre).older hheap hkept.symm).2 n hreader)

end Runs

/-- When the outstanding requests have distinct identifiers, each completed exchange yields the
answer to its own request exactly if no wait ends early and no answer is overwritten. -/
theorem exchanged_iff (t : MCSTables) (acts : List ClientAct) (hdistinct : DistinctIds t acts) :
    Exchanged t acts ↔ ∀ pre a post u, acts = pre ++ a :: post →
      Client.init.run t pre = some u → ¬ EndsEarly u a ∧ ¬ Overwrites u a := by
  constructor
  · intro h pre a post u hsplit hpre
    exact ⟨not_endsEarly h hsplit hpre, not_overwrites h hsplit hpre⟩
  · intro hall
    -- the invariants hold in every state of the run
    have hinv : ∀ pre post u, acts = pre ++ post → Client.init.run t pre = some u →
        OwnInv u ∧ StoreInv u ∧ ExchangeInv u := by
      intro pre post u hsplit hpre
      refine Lib.run_invariant_of (I := fun v => OwnInv v ∧ StoreInv v ∧ ExchangeInv v)
        (C := fun v a => (∀ pktIn, Sends a pktIn → Unused v pktIn.id) ∧ ¬ EndsEarly v a ∧
          ¬ Overwrites v a) ?_ ⟨ownInv_init, storeInv_init, exchangeInv_init⟩ ?_ hpre
      · rintro v v' a ⟨hown, hstore, hex⟩ ⟨hunused, hearly, hover⟩ hact
        have heff := act_effect hact
        exact ⟨heff.ownInv hown, heff.storeInv hstore,
          heff.exchangeInv hown hstore hex hunused hearly hover⟩
      · intro pre' a post' v hsplit' hpre'
        have hacts : acts = pre' ++ a :: (post' ++ post) := by simp [hsplit, hsplit']
        exact ⟨fun pktIn => hdistinct pre' a _ v pktIn hacts hpre', hall pre' a _ v hacts hpre'⟩
    refine ⟨?_, ?_, ?_⟩
    · intro pre post u i pktIn e pktOut hsplit hpre hpc
      exact ((hinv pre post u hsplit hpre).2.2.results hpc).2
    · intro pre a post u u' e hsplit hpre hact hret
      exact act_waited hact (hall pre a post u hsplit hpre).1 hret
    · intro pre a post u u' e p p' hsplit hpre hact hp hp' hvalid
      have hover := (hall pre a post u hsplit hpre).2
      exact (act_effect hact).kept (run_storeInv hpre) hover hp hp' hvalid

/-- Runs of one request. -/
theorem distinctIds_cons (t : MCSTables) (i : Nat) (pktIn : MCSPacket) {acts : List ClientAct}
    (hothers : ∀ a ∈ acts, ∀ pktIn', ¬ Sends a pktIn') :
    DistinctIds t (.sendSync i pktIn :: acts) := by
  intro pre a post u pktIn' hsplit hpre hsends
  cases pre with
  | nil =>
      cases hpre
      intro e p hp
      cases hp
  | cons b pre =>
      cases hsplit
      exact absurd hsends (hothers a (by simp) pktIn')

/-- The exchange of `syncRun`, up to the return. -/
def exchangeRun : List ClientAct := syncRun ++ [.step 0 openFd, .step 0 openFd]

theorem exchangeRun_exchanged :
    (∃ s, Client.init.run commandSet exchangeRun = some s ∧
      s.received = [mcsOkPacket startRequest] ∧ s.pending = []) ∧
    Exchanged commandSet exchangeRun := by
  have hdistinct : DistinctIds commandSet exchangeRun :=
    distinctIds_cons commandSet 0 startRequest (by simp [Sends])
  refine ⟨⟨_, rfl, rfl, rfl⟩, (exchanged_iff commandSet exchangeRun hdistinct).2 ?_⟩
  -- thread 0 wakes up with a valid entry, and the reader finds one that is not
  have hready : ∀ n < exchangeRun.length,
      (Client.init.run commandSet (exchangeRun.take n)).all (fun u =>
        (match u.pc 0 with
          | .woken _ e => (u.unlocked e).all fun p => p.ppValid
          | _ => true) &&
        (match u.reader with
          | some (e, _) => (u.unlocked e).all fun p => !p.ppValid
          | none => true)) = true := by decide +kernel
  intro pre a post u hsplit hpre
  have hu := Lib.all_states hready hsplit hpre
  simp only [Bool.and_eq_true] at hu
  constructor
  · rintro ⟨i, fd, w, e, p, rfl, hpc, hp, hfalse⟩
    have hi : i = 0 := by
      have hmem : ClientAct.step i fd ∈ exchangeRun := by simp [hsplit]
      simp [exchangeRun, syncRun] at hmem
      exact hmem.1
    have hvalid := hu.1
    simp [hi ▸ hpc, hp, hfalse] at hvalid
  · rintro ⟨rfl, e, n, p, hreader, hp, htrue⟩
    have hvalid := hu.2
    simp [hreader, hp, htrue] at hvalid

/-- `pthread_cond_wait` returns before there is an answer. -/
def earlyRun : List ClientAct :=
  [.sendSync 0 startRequest, .step 0 openFd, .step 0 openFd, .step 0 openFd, .spurious 0,
    .step 0 openFd]

/-- A second answer comes before the thread of the first goes on. -/
def secondRun : List ClientAct :=
  syncRun ++ [.answer (mcsErrPacket startRequest ecmdfault), .store, .step 0 openFd]

/-- In the first run `sdb_send_sync` sets `*pkt_out` to what `malloc` left in the entry, in the
second to the second answer. -/
theorem early_and_second_answers :
    (DistinctIds commandSet earlyRun ∧ ¬ Exchanged commandSet earlyRun ∧
      ∃ s, Client.init.run commandSet earlyRun = some s ∧ s.pc 0 = .done startRequest 0 none) ∧
    (DistinctIds commandSet secondRun ∧ ¬ Exchanged commandSet secondRun ∧
      ∃ s, Client.init.run commandSet secondRun = some s ∧
        s.received = [mcsOkPacket startRequest, mcsErrPacket startRequest ecmdfault] ∧
        s.pc 0 = .done startRequest 0 (some 1)) := by
  refine ⟨⟨?_, fun h => ?_, _, rfl, rfl⟩, ?_, fun h => ?_, _, rfl, rfl, rfl⟩
  · exact distinctIds_cons commandSet 0 startRequest (by simp [Sends])
  · rcases h.sync earlyRun [] _ 0 startRequest 0 none (by simp) rfl rfl with ⟨n, hn, _⟩
    cases hn
  · exact distinctIds_cons commandSet 0 startRequest (by simp [Sends])
  · -- the first answer has the identifier as well
    rcases h.sync secondRun [] _ 0 startRequest 0 (some 1) (by simp) rfl rfl with ⟨n, hn, hfirst⟩
    cases hn
    exact hfirst.before 0 (mcsOkPacket startRequest) (Nat.le_refl 0) Nat.zero_lt_one rfl rfl

end LibSDB
end AbsPlatform

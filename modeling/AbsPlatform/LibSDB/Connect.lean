import AbsPlatform.Lib.Runs
import AbsPlatform.MCS.RoundTrip
import AbsPlatform.SDB.Handshake

/-!
# Connect — a client and its connection to the SDB

`sdb_connect` and `sdb_disconnect`.  The state of the connection is one global, `socket_fd`; -1
stands for no connection (`none` here), and `sdb_connect` does nothing as soon as it has another
value.  What the operating system and the SDB do in a call is an argument of the call.

Two results: `truthful_iff` about sequences of calls, and `agrees_iff`, which compares the handshake
`sdb_connect` sends with the parser of the SDB.
-/

namespace AbsPlatform
namespace LibSDB

open Lib MCS SDB

/-! ## The handshake -/

/-- The size of `handshake_str`. -/
def handshakeSize : Nat := sdbModuleNameSize * 2

/-- `sdb_group_conversion[group].str`. -/
def groupString (group : SDBGroup) : Option CString :=
  (sdbGroupConversion[group.val]?).map Prod.snd

/-- `sprintf(handshake_str, "%s:%s", ...)`, with the terminator; `none` when the buffer is too
short for it. -/
def sprintfHandshake (name str : CString) : Option Block :=
  if h : (name.bytes ++ 58 :: str.bytes).length < handshakeSize then
    some ⟨name.bytes ++ 58 :: str.bytes ++ [0], by
      simp only [handshakeSize, sdbModuleNameSize, List.length_append] at h ⊢
      simp only [List.length_cons, List.length_nil] at h ⊢
      omega⟩
  else none

/-- The arguments that `sdb_connect` goes on with. -/
structure Admitted (name : CString) (group : SDBGroup) : Prop where
  name_le : name.strlen ≤ sdbModuleNameSize
  group_lt : group.val < sdbGroupMax

theorem length_groupString {group : SDBGroup} {str : CString} (h : groupString group = some str) :
    str.bytes.length ≤ 7 := by
  cases group with
  | max => cases h
  | any => cases h
  | _ => cases h; decide

/-- The strings of the groups lead back to them. -/
theorem find?_groupString {group : SDBGroup} {str : CString} (h : groupString group = some str) :
    (sdbGroupConversion.find? fun e => decide (str = e.2)).map Prod.fst = some group := by
  cases group with
  | max => cases h
  | any => cases h
  | _ => cases h; decide

theorem Admitted.groupString_isSome {name : CString} {group : SDBGroup}
    (h : Admitted name group) : ∃ str, groupString group = some str := by
  have hlt := h.group_lt
  cases group with
  | max => simp [SDBGroup.val, sdbGroupMax] at hlt
  | any => simp [SDBGroup.val, sdbGroupMax] at hlt
  | _ => exact ⟨_, rfl⟩

/-- The buffer has room for the longest name and the longest group. -/
theorem Admitted.sprintfHandshake_isSome {name : CString} {group : SDBGroup}
    (h : Admitted name group) {str : CString} (hstr : groupString group = some str) :
    ∃ text, sprintfHandshake name str = some text ∧
      text.bytes = name.bytes ++ 58 :: (str.bytes ++ [0]) := by
  have hname : name.bytes.length ≤ 10 := h.name_le
  have hstr' := length_groupString hstr
  have hfits : (name.bytes ++ 58 :: str.bytes).length < handshakeSize := by
    simp only [handshakeSize, sdbModuleNameSize, List.length_append, List.length_cons]
    omega
  exact ⟨_, dif_pos hfits, by simp⟩

/-! ## The calls -/

structure Connection where
  socketFd : Option Nat
  /-- the descriptors of the library that have not been closed -/
  isOpen : Nat → Bool
  /-- the handshake that was answered with `OK` on a descriptor -/
  accepted : Nat → Option (CString × SDBGroup)
  /-- how many times `socket` has been called -/
  tries : Nat

/-- What happens outside the library during one `sdb_connect`. -/
structure Attempt where
  /-- the descriptor that `socket` returns, `none` for -1 -/
  socket : Option Nat
  /-- whether `connect` succeeds -/
  connects : Bool
  /-- what `generate_id` draws -/
  random : UInt32
  /-- the answer to the handshake, `none` when the handshake could not be sent -/
  answer : Option MCSPacket

namespace Connection

def init : Connection where
  socketFd := none
  isOpen := fun _ => false
  accepted := fun _ => none
  tries := 0

/-- `socket_fd = socket(...)`. -/
def socket (s : Connection) : Option Nat → Connection
  | none => { s with tries := s.tries + 1 }
  | some fd =>
      { socketFd := some fd
        isOpen := Function.update s.isOpen fd true
        accepted := Function.update s.accepted fd none
        tries := s.tries + 1 }

/-- `close(socket_fd)`; the variable keeps its value. -/
def close (s : Connection) : Connection :=
  match s.socketFd with
  | none => s
  | some fd =>
      { s with
        isOpen := Function.update s.isOpen fd false
        accepted := Function.update s.accepted fd none }

/-- `OK` has come for a handshake on descriptor `fd`. -/
def accept (s : Connection) (fd : Nat) (name : CString) (group : SDBGroup) : Connection :=
  { s with accepted := Function.update s.accepted fd (some (name, group)) }

end Connection

/-- `sdb_connect` from `connect` on: the state it leaves and its value. -/
def shakeHands (t : MCSTables) (s : Connection) (fd : Nat) (name : CString) (group : SDBGroup)
    (text : Block) (attempt : Attempt) : Option (Connection × Int) :=
  if attempt.connects then
    match mcsCreatePacket t attempt.random mcsMessageSdbHandshake emptyBlock text with
    | none => none
    | some _ =>
        match attempt.answer with
        | none => some (s.close, -1)
        | some pktOut =>
            if pktOut.type = MCSType.ok.code then some (s.accept fd name group, 0)
            -- `ERR`, and any other answer
            else some (s.close, -1)
  else
    some (s.close, -1)

def sdbConnect (t : MCSTables) (s : Connection) (name : Option CString) (group : SDBGroup)
    (attempt : Attempt) : Option (Connection × Int) :=
  match s.socketFd, name with
  | some _, _ => some (s, 0)
  | none, none => some (s, -1)
  | none, some name =>
      if name.strlen > sdbModuleNameSize then some (s, -1)
      else if group.val ≥ sdbGroupMax then some (s, -1)
      else
        match (groupString group).bind (sprintfHandshake name) with
        | none => none
        | some text =>
            match attempt.socket with
            | none => some (s.socket none, -1)
            | some fd =>
                -- a descriptor in use is not handed out again
                if s.isOpen fd then none
                else shakeHands t (s.socket (some fd)) fd name group text attempt

def sdbDisconnect (s : Connection) : Connection × Int := (s.close, 0)

inductive Call
  | connect (name : Option CString) (group : SDBGroup) (attempt : Attempt)
  | disconnect

namespace Connection

def call (t : MCSTables) (s : Connection) : Call → Option (Connection × Int)
  | .connect name group attempt => sdbConnect t s name group attempt
  | .disconnect => some (sdbDisconnect s)

/-- The state after a call. -/
def act (t : MCSTables) (s : Connection) (c : Call) : Option Connection :=
  (s.call t c).map Prod.fst

def run (t : MCSTables) (s : Connection) (calls : List Call) : Option Connection :=
  calls.foldlM (act t) s

end Connection

/-! ## What a call can do -/

/-- The state and the value after `sdb_connect`. -/
inductive ConnectEffect (s : Connection) (name : Option CString) (group : SDBGroup)
    (attempt : Attempt) : Connection × Int → Prop
  | already (fd : Nat) : s.socketFd = some fd → ConnectEffect s name group attempt (s, 0)
  | notAdmitted : s.socketFd = none → (∀ n, name = some n → ¬ Admitted n group) →
      ConnectEffect s name group attempt (s, -1)
  | noSocket (n : CString) : s.socketFd = none → name = some n → Admitted n group →
      attempt.socket = none → ConnectEffect s name group attempt (s.socket none, -1)
  /-- an exit through `error_close` -/
  | failed (n : CString) (fd : Nat) : s.socketFd = none → name = some n → Admitted n group →
      attempt.socket = some fd →
      (attempt.connects = true → ∀ pktOut, attempt.answer = some pktOut →
        pktOut.type ≠ MCSType.ok.code) →
      ConnectEffect s name group attempt ((s.socket (some fd)).close, -1)
  | connected (n : CString) (fd : Nat) (pktOut : MCSPacket) : s.socketFd = none →
      name = some n → Admitted n group → attempt.socket = some fd → attempt.connects = true →
      attempt.answer = some pktOut → pktOut.type = MCSType.ok.code →
      ConnectEffect s name group attempt ((s.socket (some fd)).accept fd n group, 0)

section Inversion

variable {t : MCSTables} {s : Connection} {name : Option CString} {group : SDBGroup}
  {attempt : Attempt} {r : Connection × Int}

theorem shakeHands_effect {n : CString} {fd : Nat} {text : Block} (hs : s.socketFd = none)
    (hn : name = some n) (hadm : Admitted n group) (hfd : attempt.socket = some fd)
    (h : shakeHands t (s.socket (some fd)) fd n group text attempt = some r) :
    ConnectEffect s name group attempt r := by
  unfold shakeHands at h
  cases hconnects : attempt.connects with
  | false =>
      simp only [hconnects, Bool.false_eq_true, if_false, Option.some.injEq] at h
      subst h
      exact .failed n fd hs hn hadm hfd fun htrue => absurd htrue (by simp [hconnects])
  | true =>
      rw [if_pos hconnects] at h
      cases hpkt : mcsCreatePacket t attempt.random mcsMessageSdbHandshake emptyBlock text with
      | none => simp [hpkt] at h
      | some pkt =>
          cases hanswer : attempt.answer with
          | none =>
              simp only [hpkt, hanswer, Option.some.injEq] at h
              subst h
              exact .failed n fd hs hn hadm hfd fun _ q hq => absurd hq (by simp [hanswer])
          | some pktOut =>
              by_cases hok : pktOut.type = MCSType.ok.code
              · simp only [hpkt, hanswer, if_pos hok, Option.some.injEq] at h
                subst h
                exact .connected n fd pktOut hs hn hadm hfd hconnects hanswer hok
              · simp only [hpkt, hanswer, if_neg hok, Option.some.injEq] at h
                subst h
                refine .failed n fd hs hn hadm hfd fun _ q hq => ?_
                rw [hanswer] at hq
                exact Option.some.inj hq ▸ hok

theorem sdbConnect_effect (h : sdbConnect t s name group attempt = some r) :
    ConnectEffect s name group attempt r := by
  unfold sdbConnect at h
  cases hs : s.socketFd with
  | some fd =>
      simp only [hs, Option.some.injEq] at h
      exact h ▸ .already fd hs
  | none =>
      cases name with
      | none =>
          simp only [hs, Option.some.injEq] at h
          exact h ▸ .notAdmitted hs nofun
      | some n =>
          simp only [hs] at h
          by_cases hlong : n.strlen > sdbModuleNameSize
          · rw [if_pos hlong] at h
            refine Option.some.inj h ▸ .notAdmitted hs fun m hm hadm => ?_
            cases hm
            exact absurd hadm.name_le (Nat.not_le.2 hlong)
          · rw [if_neg hlong] at h
            by_cases hgroup : group.val ≥ sdbGroupMax
            · rw [if_pos hgroup] at h
              refine Option.some.inj h ▸ .notAdmitted hs fun m _ hadm => ?_
              exact absurd hadm.group_lt (Nat.not_lt.2 hgroup)
            · rw [if_neg hgroup] at h
              have hadm : Admitted n group := ⟨Nat.not_lt.1 hlong, Nat.not_le.1 hgroup⟩
              cases htext : (groupString group).bind (sprintfHandshake n) with
              | none => simp [htext] at h
              | some text =>
                  cases hfd : attempt.socket with
                  | none =>
                      simp only [htext, hfd, Option.some.injEq] at h
                      exact h ▸ .noSocket n hs rfl hadm hfd
                  | some fd =>
                      cases hopen : s.isOpen fd with
                      | true => simp [htext, hfd, hopen] at h
                      | false =>
                          simp only [htext, hfd, hopen, Bool.false_eq_true, if_false] at h
                          exact shakeHands_effect hs rfl hadm hfd h

end Inversion

/-! ## Sequences of calls -/

namespace Connection

/-- The library has an open socket on which its handshake was answered with `OK`. -/
def Registered (s : Connection) (m : CString × SDBGroup) : Prop :=
  ∃ fd, s.socketFd = some fd ∧ s.isOpen fd = true ∧ s.accepted fd = some m

/-- The next `sdb_connect` that has valid arguments calls `socket`. -/
def Retries (t : MCSTables) (s : Connection) : Prop :=
  ∀ name group attempt s' ret, Admitted name group →
    sdbConnect t s (some name) group attempt = some (s', ret) → s'.tries = s.tries + 1

/-- The value of a call says how the library is connected after it, and a call that leaves the
library without a connection leaves it ready for a new one.  A call that has connected has done so
under its own name. -/
def Truthful (t : MCSTables) (s s' : Connection) (ret : Int) : Call → Prop
  | .connect name group _ =>
      (ret = 0 ↔ ∃ m, s'.Registered m ∧ (s.socketFd = none → name = some m.1 ∧ group = m.2)) ∧
        (ret ≠ 0 → s'.Retries t)
  | .disconnect => s'.Retries t

/-- The call closes no socket: there is none to disconnect, or the attempt to connect does not fail
once it has a socket. -/
def ClosesNothing (s : Connection) : Call → Prop
  | .connect name group attempt =>
      ∀ n fd, s.socketFd = none → name = some n → Admitted n group → attempt.socket = some fd →
        attempt.connects = true ∧
          ∃ pktOut, attempt.answer = some pktOut ∧ pktOut.type = MCSType.ok.code
  | .disconnect => s.socketFd = none

variable {t : MCSTables} {s s' : Connection} {c : Call}

/-- Only -1 lets a call get as far as `socket`. -/
theorem retries_iff : s.Retries t ↔ s.socketFd = none := by
  constructor
  · intro h
    cases hs : s.socketFd with
    | none => rfl
    | some fd =>
        have htries := h ⟨[], CString.noNul_nil⟩ .app ⟨none, false, 0, none⟩ s 0
          ⟨by decide, by decide⟩ (by simp [sdbConnect, hs])
        omega
  · intro hs name group attempt s' ret hadm hcall
    cases sdbConnect_effect hcall with
    | already fd hfd => simp [hs] at hfd
    | notAdmitted _ hnot => exact absurd hadm (hnot name rfl)
    | noSocket n => rfl
    | failed n fd => rfl
    | connected n fd pktOut => rfl

@[simp] theorem socketFd_close (s : Connection) : s.close.socketFd = s.socketFd := by
  unfold close
  cases hs : s.socketFd <;> simp [hs]

theorem not_registered_of_none (hs : s.socketFd = none) (m : CString × SDBGroup) :
    ¬ s.Registered m := by
  rintro ⟨fd, hfd, _⟩
  simp [hs] at hfd

theorem not_registered_close (s : Connection) (m : CString × SDBGroup) :
    ¬ s.close.Registered m := by
  rintro ⟨fd, hfd, hopen, _⟩
  rw [socketFd_close] at hfd
  simp [close, hfd] at hopen

/-- Connected, or ready to connect. -/
def Settled (s : Connection) : Prop := s.socketFd = none ∨ ∃ m, s.Registered m

theorem registered_connected (s : Connection) (fd : Nat) (name : CString) (group : SDBGroup) :
    ((s.socket (some fd)).accept fd name group).Registered (name, group) :=
  ⟨fd, rfl, by simp [socket, accept], by simp [accept]⟩

/-- A call that closes nothing tells the truth, and leaves the library settled. -/
theorem Settled.call (h : s.Settled) (hc : s.ClosesNothing c) {ret : Int}
    (hcall : s.call t c = some (s', ret)) : Truthful t s s' ret c ∧ s'.Settled := by
  cases c with
  | disconnect =>
      cases hcall
      have hnone : s.close.socketFd = none := (socketFd_close s).trans hc
      exact ⟨retries_iff.2 hnone, .inl hnone⟩
  | connect name group attempt =>
      cases sdbConnect_effect hcall with
      | already fd hfd =>
          have hreg : ∃ m, s.Registered m := h.resolve_left (by simp [hfd])
          rcases hreg with ⟨m, hm⟩
          refine ⟨⟨iff_of_true rfl ⟨m, hm, fun hnone => ?_⟩, fun hne => absurd rfl hne⟩, h⟩
          simp [hfd] at hnone
      | notAdmitted hs _ =>
          refine ⟨⟨iff_of_false (by decide) ?_, fun _ => retries_iff.2 hs⟩, .inl hs⟩
          exact fun ⟨m, hm, _⟩ => not_registered_of_none hs m hm
      | noSocket n hs _ _ _ =>
          refine ⟨⟨iff_of_false (by decide) ?_, fun _ => retries_iff.2 hs⟩, .inl hs⟩
          exact fun ⟨m, hm, _⟩ => not_registered_of_none hs m hm
      | failed n fd hs hn hadm hfd hfail =>
          rcases hc n fd hs hn hadm hfd with ⟨hconnects, pktOut, hanswer, hok⟩
          exact absurd hok (hfail hconnects pktOut hanswer)
      | connected n fd pktOut hs hn hadm hfd hconnects hanswer hok =>
          have hreg := registered_connected s fd n group
          refine ⟨⟨iff_of_true rfl ⟨_, hreg, fun _ => ⟨hn, rfl⟩⟩, fun hne => absurd rfl hne⟩, ?_⟩
          exact .inr ⟨_, hreg⟩

/-- A call that closes a socket leaves the library unable to connect again. -/
theorem closesNothing_of_truthful {ret : Int} (hcall : s.call t c = some (s', ret))
    (h : Truthful t s s' ret c) : s.ClosesNothing c := by
  cases c with
  | disconnect =>
      cases hcall
      exact (socketFd_close s).symm.trans (retries_iff.1 h)
  | connect name group attempt =>
      intro n fd hs hn hadm hfd
      cases sdbConnect_effect hcall with
      | already fd' hfd' => simp [hs] at hfd'
      | notAdmitted _ hnot => exact absurd hadm (hnot n hn)
      | noSocket n' _ _ _ hnone => simp [hfd] at hnone
      | failed n' fd' _ _ _ _ _ =>
          have hretry := retries_iff.1 (h.2 (by decide))
          simp [socket] at hretry
      | connected n' fd' pktOut _ _ _ _ hconnects hanswer hok =>
          exact ⟨hconnects, pktOut, hanswer, hok⟩

theorem call_of_act (h : s.act t c = some s') : ∃ ret, s.call t c = some (s', ret) := by
  rcases Option.map_eq_some_iff.1 h with ⟨⟨u, ret⟩, hcall, rfl⟩
  exact ⟨ret, hcall⟩

/-- In a sequence of calls every value is right, and every failure leaves the library ready for the
next attempt, exactly if no call closes a socket. -/
theorem truthful_iff (t : MCSTables) (calls : List Call) (last : Connection)
    (hrun : init.run t calls = some last) :
    (∀ pre c post s s' ret, calls = pre ++ c :: post → init.run t pre = some s →
      s.call t c = some (s', ret) → Truthful t s s' ret c) ↔
    ∀ pre c post s, calls = pre ++ c :: post → init.run t pre = some s → s.ClosesNothing c := by
  constructor
  · intro h pre c post s hsplit hpre
    rw [hsplit] at hrun
    rcases step_of_run hpre hrun with ⟨s', hact⟩
    rcases call_of_act hact with ⟨ret, hcall⟩
    exact closesNothing_of_truthful hcall (h pre c post s s' ret hsplit hpre hcall)
  · intro h pre c post s s' ret hsplit hpre hcall
    -- up to this call nothing has been closed, so the library is settled
    have hsettled : s.Settled := by
      refine run_invariant_of (C := ClosesNothing) (fun hs hc hact => ?_) (.inl rfl) ?_ hpre
      · rcases call_of_act hact with ⟨ret', hcall'⟩
        exact (hs.call hc hcall').2
      · intro pre' c' post' u hsplit' hpre'
        exact h pre' c' (post' ++ c :: post) u (by simp [hsplit, hsplit']) hpre'
    exact (hsettled.call (h pre c post s hsplit hpre) hcall).1

/-- `"core"`. -/
def coreString : CString := CString.ofBuffer [99, 111, 114, 101]

/-- The SDB answers the handshake with `answer`, on descriptor 3. -/
def answered (answer : MCSPacket) : Attempt := ⟨some 3, true, 7, some answer⟩

def connectCore (answer : MCSPacket) : Call := .connect (some coreString) .syscore (answered answer)

theorem truthful_connectTwice :
    ∃ last, init.run commandSet [connectCore (mcsOkPacketId 7), connectCore (mcsOkPacketId 7)] =
        some last ∧
      ∀ pre c post s s' ret,
        [connectCore (mcsOkPacketId 7), connectCore (mcsOkPacketId 7)] = pre ++ c :: post →
        init.run commandSet pre = some s → s.call commandSet c = some (s', ret) →
        Truthful commandSet s s' ret c := by
  refine ⟨_, rfl, (truthful_iff commandSet _ _ rfl).2 ?_⟩
  intro pre c post s hsplit hpre
  rcases pre with _ | ⟨c₁, _ | ⟨c₂, pre⟩⟩
  · cases hsplit
    cases hpre
    exact fun _ _ _ _ _ _ => ⟨rfl, _, rfl, rfl⟩
  · cases hsplit
    cases hpre
    intro n fd hs
    cases hs
  · simp at hsplit

/-- After a refused handshake, and after a disconnection, `sdb_connect` reports success without a
socket. -/
theorem connect_after_close :
    (∃ s s', init.run commandSet [connectCore (mcsErrPacketId 7 econnrefused)] = some s ∧
      s.call commandSet (connectCore (mcsOkPacketId 7)) = some (s', 0) ∧ s'.tries = 1 ∧
      s'.isOpen 3 = false ∧ ¬ ∃ m, s'.Registered m) ∧
    ∃ s s', init.run commandSet [connectCore (mcsOkPacketId 7), .disconnect] = some s ∧
      s.call commandSet (connectCore (mcsOkPacketId 7)) = some (s', 0) ∧ s'.tries = 1 ∧
      s'.isOpen 3 = false ∧ ¬ ∃ m, s'.Registered m := by
  constructor
  · refine ⟨_, _, rfl, rfl, rfl, rfl, ?_⟩
    exact fun ⟨m, hm⟩ => not_registered_close _ m hm
  · refine ⟨_, _, rfl, rfl, rfl, rfl, ?_⟩
    exact fun ⟨m, hm⟩ => not_registered_close _ m hm

end Connection

/-! ## Client and bus -/

/-- The packet of a handshake. -/
def handshakePacket (random : UInt32) (text : Block) : MCSPacket :=
  rawPacket random mcsMessageSdbHandshake none emptyBlock text

theorem mcsCommand_handshakePacket (random : UInt32) (text : Block) :
    mcsCommand (handshakePacket random text) = mcsMessageSdbHandshake := by
  change (commandType mcsMessageSdbHandshake).toUInt32 <<< 2
    ||| (commandNumber mcsMessageSdbHandshake).toUInt32 = mcsMessageSdbHandshake
  decide

/-- `mcs_create_packet` takes any string for a handshake. -/
theorem mcsCreatePacket_handshake (random : UInt32) {text : Block} (h : text.bytes ≠ []) :
    mcsCreatePacket commandSet random mcsMessageSdbHandshake emptyBlock text =
      some (handshakePacket random text) := by
  have hsize : text.size ≠ 0 := fun hz => h (Block.size_eq_zero_iff.1 hz)
  have hcommand : checkCommand commandSet .message (handshakePacket random text) = true :=
    checkCommand_iff.2 ⟨_, rfl, rfl, iff_of_true rfl hsize⟩
  have hcheck : checkPacket commandSet (handshakePacket random text) = true := by
    refine checkPacket_iff.2 ⟨⟨.message, rfl, hcommand⟩, fun hne => absurd rfl hne, fun _ => ?_⟩
    simp [handshakePacket, rawPacket, Block.copy, hsize]
  have hid : ¬ commandType mcsMessageSdbHandshake = MCSType.payload.code := by decide
  simp only [mcsCreatePacket, if_neg hid]
  exact if_pos hcheck

/-- The SDB reads the handshake as it was sent. -/
theorem read_handshake (random : UInt32) {text : Block} (h : text.bytes ≠ []) (rfd : Nat)
    (rest : List UInt8) :
    (mcsReadCommand commandSet rfd openFd
        ((mcsWriteCommand commandSet (handshakePacket random text) openFd).2 ++ rest)).pkt =
        some (handshakePacket random text) ∧
      (mcsReadCommand commandSet rfd openFd
        ((mcsWriteCommand commandSet (handshakePacket random text) openFd).2 ++ rest)).rest =
        rest := by
  have hsize : text.size ≠ 0 := fun hz => h (Block.size_eq_zero_iff.1 hz)
  have hcreate := mcsCreatePacket_handshake random h
  have hcheck : checkPacket commandSet (handshakePacket random text) = true := by
    simp only [mcsCreatePacket, Option.ite_none_right_eq_some] at hcreate
    exact hcreate.1
  rw [mcsWriteCommand_openFd hcheck]
  have htype : commandType mcsMessageSdbHandshake = MCSType.message.code := by decide
  have hpacket : (handshakePacket random text).type = MCSType.message.code := htype
  have hcmd : commandNumber mcsMessageSdbHandshake = 1 := by decide
  have hargs : emptyBlock.size = 0 := rfl
  have hempty : emptyBlock.bytes = [] := rfl
  refine (mcsReadCommand_iff commandSet (Int.natCast_nonneg rfd) openFd _ rest _).2
    ⟨.command random .message 1 emptyBlock none (some text), ⟨_, rfl, rfl, rfl, rfl⟩, ?_, ?_⟩
  · rw [rawBytes_command hpacket rfl]
    simp [handshakePacket, rawPacket, hsize, hcmd, hargs, hempty, MCSPacket.dataBytes,
      Block.copy_getD, destBytes, Frame.bytes, Frame.id, Frame.body, Frame.destField,
      Frame.dataField, Block.field]
  · ext1 <;> simp [handshakePacket, rawPacket, Frame.packet, Frame.dataSize, Block.copy, hsize,
      htype, hcmd]

/-- The SDB registers the name and the group of a handshake and answers `OK`, whatever follows on
the connection. -/
def Agrees (name : CString) (group : SDBGroup) (text : Block) : Prop :=
  ∀ (random : UInt32) (rfd : Nat) (rest : List UInt8), ∃ pkt,
    mcsCreatePacket commandSet random mcsMessageSdbHandshake emptyBlock text = some pkt ∧
    firstPacket commandSet rfd openFd ((mcsWriteCommand commandSet pkt openFd).2 ++ rest) =
      some
        { greeting := .accepted name group
          rest := rest
          reply := (mcsWriteCommand commandSet (mcsOkPacket pkt) openFd).2 }

theorem agrees_iff_handshake {text : Block} (h : text.bytes ≠ []) (name : CString)
    (group : SDBGroup) :
    Agrees name group text ↔
      ∀ random, handshake (handshakePacket random text) = some (.accepted name group) := by
  constructor
  · intro hagrees random
    rcases hagrees random 0 [] with ⟨pkt, hcreate, hfirst⟩
    cases (mcsCreatePacket_handshake random h).symm.trans hcreate
    have hread := read_handshake random h 0 []
    simp only [firstPacket, hread.1] at hfirst
    cases hshake : handshake (handshakePacket random text) with
    | none => simp [hshake] at hfirst
    | some greeting => cases greeting <;> simp_all
  · intro hshake random rfd rest
    have hread := read_handshake random h rfd rest
    refine ⟨_, mcsCreatePacket_handshake random h, ?_⟩
    simp [firstPacket, hread.1, hread.2, hshake random]

/-- The string that `sdb_connect` builds always fits its buffer.  The SDB registers exactly the name
and the group it was built from, and answers `OK`, if and only if the name has no separator. -/
theorem agrees_iff (name : CString) (group : SDBGroup) (h : Admitted name group) :
    ∃ str text, groupString group = some str ∧ sprintfHandshake name str = some text ∧
      text.bytes.length ≤ handshakeSize ∧ (Agrees name group text ↔ 58 ∉ name.bytes) := by
  rcases h.groupString_isSome with ⟨str, hstr⟩
  rcases h.sprintfHandshake_isSome hstr with ⟨text, htext, hbytes⟩
  have hfits : text.bytes.length ≤ handshakeSize := by
    have hname : name.bytes.length ≤ 10 := h.name_le
    have hlen := length_groupString hstr
    simp only [hbytes, handshakeSize, sdbModuleNameSize, List.length_append, List.length_cons,
      List.length_nil]
    omega
  have hne : text.bytes ≠ [] := by simp [hbytes]
  have hsize : text.size ≠ 0 := fun hz => hne (Block.size_eq_zero_iff.1 hz)
  have hdata : ∀ random, (handshakePacket random text).data = some text.bytes := by
    intro random
    simp [handshakePacket, rawPacket, Block.copy, hsize]
  refine ⟨str, text, hstr, htext, hfits, (agrees_iff_handshake hne name group).trans ?_⟩
  constructor
  · intro hshake hmem
    -- the parser stops at the first separator, inside the name
    rcases List.eq_append_cons_of_mem hmem with ⟨bs, cs, hname, hfirst⟩
    have hrest : text.bytes = bs ++ 58 :: (cs ++ 58 :: (str.bytes ++ [0])) := by
      rw [hbytes, hname]
      simp
    have hnul : ∀ b ∈ bs, b ≠ 0 := fun b hb => name.noNul b (by simp [hname, hb])
    have hsplit := handshake_append (mcsCommand_handshakePacket 0 text)
      ((hdata 0).trans (congrArg some hrest))
      (fun b hb heq => hfirst (heq ▸ hb)) hnul
    rw [hshake 0] at hsplit
    rcases Option.map_eq_some_iff.1 hsplit.symm with ⟨found, _, hgreeting⟩
    cases found with
    | none => cases hgreeting
    | some g =>
        have hshort : CString.ofBuffer bs = name := (Greeting.accepted.inj hgreeting).1
        have hlen : bs = name.bytes := by
          rw [← hshort, CString.ofBuffer_eq_self hnul]
        have := congrArg List.length (hlen.trans hname)
        simp at this
  · intro hmem random
    have hsplit := handshake_append (mcsCommand_handshakePacket random text)
      ((hdata random).trans (congrArg some hbytes))
      (fun b hb heq => hmem (heq ▸ hb)) name.noNul
    rw [hsplit, findGroup_terminated str [], find?_groupString hstr]
    simp [CString.ofBuffer_bytes]

theorem agrees_core :
    ∃ str text, groupString .syscore = some str ∧
      sprintfHandshake Connection.coreString str = some text ∧
      text.bytes.length ≤ handshakeSize ∧ Agrees Connection.coreString .syscore text := by
  rcases agrees_iff Connection.coreString .syscore ⟨by decide, by decide⟩ with
    ⟨str, text, hstr, htext, hfits, hiff⟩
  exact ⟨str, text, hstr, htext, hfits, hiff.2 (by decide)⟩

/-- The name `"a:b"` is cut at its separator, and what is left of it taken for a group. -/
theorem not_agrees_colon :
    ∃ text, sprintfHandshake (CString.ofBuffer [97, 58, 98]) (CString.ofBuffer [97, 112, 112]) =
        some text ∧
      Admitted (CString.ofBuffer [97, 58, 98]) .app ∧
      handshake (handshakePacket 7 text) = some (.refused (some (CString.ofBuffer [97]))) ∧
      ¬ Agrees (CString.ofBuffer [97, 58, 98]) .app text := by
  refine ⟨_, rfl, ⟨by decide, by decide⟩, by decide, ?_⟩
  intro hagrees
  have hshake := (agrees_iff_handshake (by decide) _ _).1 hagrees 7
  exact absurd hshake (by decide)

end LibSDB
end AbsPlatform

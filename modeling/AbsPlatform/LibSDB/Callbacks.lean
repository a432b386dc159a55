import AbsPlatform.LibSDB.Pending
import AbsPlatform.MCS.CommandSet

/-!
# Callbacks — which callback a packet starts

`callback_list` of `Libraries/SDB/sdb.c` with `sdb_register_callback`, and one iteration of
`sdb_thread_read` after the packet has been read.  A callback is registered for a value of the
enumeration `MCSCommand`, that is, for a type and a number; the reader looks for the number alone.
-/

namespace AbsPlatform
namespace LibSDB

open MCS

variable {α : Type}

/-! ## The list -/

/-- `SDB_LIST_MIN`. -/
def sdbListMin : Nat := 5

/-- The elements in use, in an array that has room for them. -/
structure CallbackList (α : Type) where
  /-- `callback_list_size` -/
  size : Nat
  /-- `callback_list[0]` to `callback_list[callback_list_pos - 1]` -/
  entries : List (UInt32 × α)
  /-- `callback_list_lock` is held by nobody who would give it back -/
  locked : Bool
  min_le : sdbListMin ≤ size
  entries_le : entries.length ≤ size

namespace CallbackList

/-- After `sdb_init`. -/
def init : CallbackList α where
  size := sdbListMin
  entries := []
  locked := false
  min_le := Nat.le_refl _
  entries_le := Nat.zero_le _

/-- `get_callback_index`, `none` for -1. -/
def getCallbackIndex (s : CallbackList α) (cmd : UInt32) : Option Nat :=
  s.entries.findIdx? fun e => e.1 = cmd

/-- The size of the array before an element is added: `callback_list_size *= 1.5` when it is
full. -/
def grownSize (s : CallbackList α) : Nat :=
  if s.entries.length = s.size then s.size * 3 / 2 else s.size

theorem entries_lt_grownSize (s : CallbackList α) : s.entries.length < s.grownSize := by
  have hmin : 5 ≤ s.size := s.min_le
  have hle := s.entries_le
  unfold grownSize
  split_ifs with hfull <;> omega

theorem min_le_grownSize (s : CallbackList α) : sdbListMin ≤ s.grownSize := by
  have hmin := s.min_le
  unfold grownSize
  split_ifs <;> omega

def add (s : CallbackList α) (cmd : UInt32) (callback : α) : CallbackList α where
  size := s.grownSize
  entries := s.entries ++ [(cmd, callback)]
  locked := s.locked
  min_le := s.min_le_grownSize
  entries_le := by
    rw [List.length_append]
    exact s.entries_lt_grownSize

end CallbackList

/-- `sdb_register_callback`, `none` when the lock is never released. -/
def sdbRegisterCallback (s : CallbackList α) (cmd : UInt32) :
    Option α → Option (CallbackList α × Int)
  | none => some (s, -1)
  | some callback =>
      if s.locked then none
      else if (s.getCallbackIndex cmd).isSome then
        -- this exit does not unlock
        some ({ s with locked := true }, -1)
      else some (s.add cmd callback, 0)

/-- Callbacks registered one after the other, each of them successfully. -/
def registerAll (s : CallbackList α) : List (UInt32 × α) → Option (CallbackList α)
  | [] => some s
  | (cmd, callback) :: calls =>
      match sdbRegisterCallback s cmd (some callback) with
      | some (s, 0) => registerAll s calls
      | _ => none

/-! ## The reader -/

/-- What becomes of a packet. -/
inductive Reaction (α : Type)
  /-- it is stored for the request it answers -/
  | store
  /-- a thread is started that runs the callback of this element -/
  | start (entry : UInt32 × α)
  /-- it is answered -/
  | reply (pkt : MCSPacket)

/-- One iteration of `sdb_thread_read`; `pending` says for which identifiers there is an entry in
the pending list, and `pkt` is what `mcs_read_command` has returned. -/
def sdbThreadRead (pending : UInt32 → Bool) (s : CallbackList α) :
    Option MCSPacket → Option (Reaction α)
  -- `mcs_is_answer_packet` follows the pointer
  | none => none
  | some pkt =>
      if pkt.isAnswer then
        if pending pkt.id then some .store else some (.reply (mcsErrPacket pkt ecmdfault))
      else if s.locked then none
      else
        match s.getCallbackIndex pkt.cmd.toUInt32 with
        | some index => (s.entries[index]?).map .start
        | none => some (.reply (mcsErrPacket pkt ecmdfault))

/-- On answers the iteration is the step of the client with the pending list. -/
theorem sdbThreadRead_answer (t : MCSTables) (c : Client) (hreader : c.reader = none)
    (s : CallbackList α) (pkt : MCSPacket) (h : pkt.isAnswer = true) :
    ∃ c', c.act t (.answer pkt) = some c' ∧
      c'.replies = c.replies ++
        (match sdbThreadRead (fun id => (c.getPendingPacketId id).isSome) s (some pkt) with
          | some (.reply r) => [r]
          | _ => []) := by
  cases hentry : c.getPendingPacketId pkt.id with
  | some e =>
      refine ⟨_, by simp [Client.act, hreader, hentry]; rfl, ?_⟩
      simp [sdbThreadRead, h, hentry]
  | none =>
      refine ⟨_, by simp [Client.act, hreader, hentry]; rfl, ?_⟩
      simp [sdbThreadRead, h, hentry]

/-! ## Lookups -/

/-- A callback is started for what has been found; otherwise there is an error to send back. -/
def reactionTo (pkt : MCSPacket) : Option (UInt32 × α) → Option (Reaction α)
  | some entry => some (.start entry)
  | none => some (.reply (mcsErrPacket pkt ecmdfault))

theorem reactionTo_injective {pkt : MCSPacket} {found found' : Option (UInt32 × α)}
    (h : reactionTo pkt found = reactionTo pkt found') : found = found' := by
  cases found with
  | none =>
      cases found' with
      | none => rfl
      | some entry => cases h
  | some entry =>
      cases found' with
      | none => cases h
      | some entry' =>
          cases h
          rfl

section Lookup

variable {s : CallbackList α} {calls : List (UInt32 × α)}

/-- The element at the index that is found is the first one for the command. -/
theorem getElem?_getCallbackIndex (s : CallbackList α) (cmd : UInt32) :
    (s.getCallbackIndex cmd).bind (s.entries[·]?) = s.entries.find? fun e => e.1 = cmd := by
  unfold CallbackList.getCallbackIndex
  induction s.entries with
  | nil => rfl
  | cons e entries ih =>
      by_cases he : e.1 = cmd
      · simp [List.findIdx?_cons, he]
      · simp only [List.findIdx?_cons, he, decide_false, Bool.false_eq_true, if_false,
          List.find?_cons_of_neg, not_false_eq_true]
        rw [← ih]
        cases entries.findIdx? (fun e => e.1 = cmd) <;> rfl

/-- A packet that is not an answer starts what is registered for its number. -/
theorem sdbThreadRead_command (hlock : s.locked = false) (pending : UInt32 → Bool)
    {pkt : MCSPacket} (hpkt : pkt.isAnswer = false) :
    sdbThreadRead pending s (some pkt) =
      reactionTo pkt (s.entries.find? fun e => e.1 = pkt.cmd.toUInt32) := by
  rw [← getElem?_getCallbackIndex]
  cases hindex : s.getCallbackIndex pkt.cmd.toUInt32 with
  | none => simp [sdbThreadRead, hpkt, hlock, hindex, reactionTo]
  | some index =>
      have hlt : index < s.entries.length := (List.findIdx?_eq_some_iff_getElem.1 hindex).1
      simp [sdbThreadRead, hpkt, hlock, hindex, reactionTo, hlt]

/-- Registering commands that differ from each other and from the ones in the list adds them. -/
theorem registerAll_eq_some (hlock : s.locked = false)
    (hnodup : ((s.entries ++ calls).map Prod.fst).Nodup) :
    ∃ s', registerAll s calls = some s' ∧ s'.entries = s.entries ++ calls ∧ s'.locked = false := by
  induction calls generalizing s with
  | nil => exact ⟨s, rfl, by simp, hlock⟩
  | cons call calls ih =>
      rcases call with ⟨cmd, callback⟩
      have hnew : s.getCallbackIndex cmd = none := by
        refine List.findIdx?_eq_none_iff.2 fun e he => ?_
        simp only [decide_eq_false_iff_not]
        rintro rfl
        rw [List.map_append, List.nodup_append] at hnodup
        exact hnodup.2.2 _ (List.mem_map_of_mem he) _ (by simp) rfl
      have hadd : sdbRegisterCallback s cmd (some callback) = some (s.add cmd callback, 0) := by
        simp [sdbRegisterCallback, hlock, hnew]
      rcases ih (s := s.add cmd callback) hlock (by simpa [CallbackList.add] using hnodup) with
        ⟨s', hs', hentries, hlock'⟩
      exact ⟨s', by simp [registerAll, hadd, hs'], by simp [hentries, CallbackList.add], hlock'⟩

end Lookup

/-! ## Commands -/

/-- `type << 16 | cmd`, the value of the enumeration. -/
def fullCommand (pkt : MCSPacket) : UInt32 := (pkt.type.toUInt32 <<< 16) ||| pkt.cmd.toUInt32

theorem fullCommand_message {pkt : MCSPacket} (h : pkt.type = MCSType.message.code) :
    fullCommand pkt = pkt.cmd.toUInt32 := by
  simp [fullCommand, h, MCSType.code]

/-- For the other types the number is not the command. -/
theorem fullCommand_ne {pkt : MCSPacket} (h : pkt.type ≠ MCSType.message.code) :
    fullCommand pkt ≠ pkt.cmd.toUInt32 := by
  intro heq
  have hzero : pkt.type.toNat ≠ 0 := fun hz => h (UInt8.toNat_inj.1 hz)
  have hlt : pkt.cmd.toNat < 65536 := pkt.cmd.toNat_lt
  have hle : pkt.type.toNat <<< 16 ≤ (fullCommand pkt).toNat := by
    have htype : pkt.type.toNat < 256 := pkt.type.toNat_lt
    have hfits : pkt.type.toNat * 65536 % 4294967296 = pkt.type.toNat * 65536 := by omega
    simp only [fullCommand, UInt32.toNat_or, UInt32.toNat_shiftLeft, UInt8.toNat_toUInt32]
    simp [Nat.shiftLeft_eq, hfits, Nat.left_le_or]
  rw [heq, Nat.shiftLeft_eq] at hle
  simp at hle
  omega

/-- With callbacks registered for distinct commands, a packet that is not an answer starts the
callback of its command, and none if there is none, exactly for messages and for packets whose
command and number are both without a callback. -/
theorem dispatch_iff (calls : List (UInt32 × α)) (hdistinct : (calls.map Prod.fst).Nodup)
    (pending : UInt32 → Bool) (pkt : MCSPacket) (hpkt : pkt.isAnswer = false) :
    ∃ s, registerAll CallbackList.init calls = some s ∧
      (sdbThreadRead pending s (some pkt) =
          reactionTo pkt (calls.find? fun e => e.1 = fullCommand pkt) ↔
        pkt.type = MCSType.message.code ∨
          ∀ e ∈ calls, e.1 ≠ pkt.cmd.toUInt32 ∧ e.1 ≠ fullCommand pkt) := by
  have hnodup : ((CallbackList.init.entries ++ calls).map Prod.fst).Nodup := hdistinct
  rcases registerAll_eq_some rfl hnodup with
    ⟨s, hs, hentries, hlock⟩
  have hentries' : s.entries = calls := hentries
  refine ⟨s, hs, ?_⟩
  rw [sdbThreadRead_command hlock pending hpkt, hentries']
  constructor
  · intro hsame
    have hfound := reactionTo_injective hsame
    by_cases htype : pkt.type = MCSType.message.code
    · exact .inl htype
    · -- an element that is found for both would be for two commands
      have hnone : calls.find? (fun e => e.1 = pkt.cmd.toUInt32) = none := by
        cases hcase : calls.find? (fun e => e.1 = pkt.cmd.toUInt32) with
        | none => rfl
        | some e =>
            have hnumber : e.1 = pkt.cmd.toUInt32 := by simpa using List.find?_some hcase
            have hfull : e.1 = fullCommand pkt := by
              simpa using List.find?_some (hfound.symm.trans hcase)
            exact absurd (hfull.symm.trans hnumber) (fullCommand_ne htype)
      refine .inr fun e he => ⟨?_, ?_⟩
      · simpa using List.find?_eq_none.1 hnone e he
      · simpa using List.find?_eq_none.1 (hfound.symm.trans hnone) e he
  · rintro (htype | hnone)
    · rw [fullCommand_message htype]
    · have hnumber : calls.find? (fun e => e.1 = pkt.cmd.toUInt32) = none :=
        List.find?_eq_none.2 fun e he => by simpa using (hnone e he).1
      have hfull : calls.find? (fun e => e.1 = fullCommand pkt) = none :=
        List.find?_eq_none.2 fun e he => by simpa using (hnone e he).2
      rw [hnumber, hfull]

/-- A message whose callback is registered. -/
theorem dispatch_testMessage :
    ∃ s, registerAll CallbackList.init [(0, 10), (65536, 11)] = some s ∧
      sdbThreadRead (fun _ => false) s (some (rawPacket 7 0 none emptyBlock emptyBlock)) =
        some (.start (0, 10)) := by
  rcases dispatch_iff [(0, 10), (65536, 11)] (by decide) (fun _ => false)
    (rawPacket 7 0 none emptyBlock emptyBlock) rfl with ⟨s, hs, hiff⟩
  exact ⟨s, hs, hiff.2 (.inl rfl)⟩

/-- The first state starts the callback of the first message, though its own is registered too. -/
theorem dispatch_state_as_message :
    ∃ s pkt, registerAll CallbackList.init [(0, 10), (65536, 11)] = some s ∧
      (mcsReadCommand commandSet 3 openFd [7, 0, 0, 0, 1, 0, 0, 5]).pkt = some pkt ∧
      pkt.isAnswer = false ∧ fullCommand pkt = 65536 ∧
      sdbThreadRead (fun _ => false) s (some pkt) = some (.start (0, 10)) :=
  ⟨_, _, rfl, rfl, by decide, by decide, rfl⟩

end LibSDB
end AbsPlatform

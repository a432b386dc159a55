import AbsPlatform.MCS.Codec
import AbsPlatform.MCS.CommandSet

/-!
# Handshake — the first packet of a connection

What `sdb_module_thread` does before its main loop: it reads one packet, takes it for a handshake,
and looks for a name and a group in its data, `name:group`.  The string functions run over the
block behind `pkt->data`; reading past its end is a fault, `none`.
-/

namespace AbsPlatform
namespace SDB

open MCS

/-! ## string.h -/

/-- `strchr` in a block: where `c` is, if it comes before the terminator. -/
def strchr (c : UInt8) : List UInt8 → Option (Option Nat)
  | [] => none
  | b :: bs =>
      if b = c then some (some 0)
      else if b = 0 then some none
      else (strchr c bs).map (Option.map (· + 1))

/-- `strcmp(block, s) == 0`; it stops at the first difference or at the end of `s`. -/
def strcmpEq : List UInt8 → List UInt8 → Option Bool
  | [], _ => none
  | b :: _, [] => some (b == 0)
  | b :: bs, c :: cs => if b = c then strcmpEq bs cs else some false

/-- A character that is there is found at its first place. -/
theorem strchr_append {c : UInt8} {bs rest : List UInt8} (hc : ∀ b ∈ bs, b ≠ c)
    (h0 : ∀ b ∈ bs, b ≠ 0) : strchr c (bs ++ c :: rest) = some (some bs.length) := by
  induction bs with
  | nil => simp [strchr]
  | cons b bs ih =>
      have hrest := ih (fun d hd => hc d (by simp [hd])) (fun d hd => h0 d (by simp [hd]))
      simp [strchr, hc b (by simp), h0 b (by simp), hrest]

/-- On a string with its terminator the comparison is equality. -/
theorem strcmpEq_terminated {bs cs : List UInt8} (hbs : ∀ b ∈ bs, b ≠ 0) (hcs : ∀ c ∈ cs, c ≠ 0)
    (rest : List UInt8) : strcmpEq (bs ++ 0 :: rest) cs = some (decide (bs = cs)) := by
  induction bs generalizing cs with
  | nil =>
      cases cs with
      | nil => simp [strcmpEq]
      | cons c cs => simp [strcmpEq, (hcs c (by simp)).symm]
  | cons b bs ih =>
      cases cs with
      | nil => simp [strcmpEq, hbs b (by simp)]
      | cons c cs =>
          have htail : strcmpEq (bs ++ 0 :: rest) cs = some (decide (bs = cs)) :=
            ih (fun d hd => hbs d (by simp [hd])) (fun d hd => hcs d (by simp [hd]))
          by_cases hbc : b = c
          · simp [strcmpEq, hbc, htail]
          · simp [strcmpEq, hbc]

/-! ## sdb_module.c -/

/-- `MCS_MESSAGE_SDB_HANDSHAKE`. -/
def mcsMessageSdbHandshake : UInt32 := 1

/-- The loop over `sdb_group_conversion`: the group of the first equal string. -/
def findGroup (group : List UInt8) : List (SDBGroup × CString) → Option (Option SDBGroup)
  | [] => some none
  | (val, str) :: entries =>
      match strcmpEq group str.bytes with
      | none => none
      | some true => some (some val)
      | some false => findGroup group entries

/-- How the handshake ends; `name` is what `mod->name` has been set to. -/
inductive Greeting
  /-- `mcs_read_command` has returned NULL -/
  | unreadable
  /-- `error_pkt` -/
  | refused (name : Option CString)
  | accepted (name : CString) (group : SDBGroup)
  deriving DecidableEq

/-- The name and the group around a separator at `colon`. -/
def splitHandshake (data : List UInt8) (colon : Nat) : Option Greeting :=
  -- `pkt->data - group - 1`, with `group` one past the separator
  if (0 : Int) - (colon + 1) - 1 ≥ sdbModuleNameSize then some (.refused none)
  else
    -- the separator has been overwritten with the terminator of the name
    let name := CString.ofBuffer (data.take colon)
    match findGroup (data.drop (colon + 1)) sdbGroupConversion with
    | none => none
    | some none => some (.refused (some name))
    | some (some group) => some (.accepted name group)

/-- From the test of the command to the lookup of the group. -/
def handshake (pkt : MCSPacket) : Option Greeting :=
  if mcsCommand pkt ≠ mcsMessageSdbHandshake then some (.refused none)
  else
    match pkt.data with
    | none => none
    | some data =>
        match strchr 58 data with
        | none => none
        | some none => some (.refused none)
        | some (some colon) => splitHandshake data colon

/-- What the first packet comes to, with what is sent back for it. -/
structure FirstPacket where
  greeting : Greeting
  rest : List UInt8
  reply : List UInt8

def firstPacket (t : MCSTables) (rfd : Int) (wfd : WriteFd) (s : List UInt8) :
    Option FirstPacket :=
  let read := mcsReadCommand t rfd wfd s
  match read.pkt with
  | none => some { greeting := .unreadable, rest := read.rest, reply := read.reply }
  | some pkt =>
      match handshake pkt with
      | none => none
      | some (.accepted name group) =>
          some
            { greeting := .accepted name group
              rest := read.rest
              reply := (mcsWriteCommand t (mcsOkPacket pkt) wfd).2 }
      | some greeting =>
          some
            { greeting := greeting
              rest := read.rest
              reply := (mcsWriteCommand t (mcsErrPacket pkt econnrefused) wfd).2 }

/-! ## Strings with a separator -/

/-- The length test compares a negative number, so it never refuses a name. -/
theorem splitHandshake_eq (data : List UInt8) (colon : Nat) :
    splitHandshake data colon =
      (findGroup (data.drop (colon + 1)) sdbGroupConversion).map fun
        | none => .refused (some (CString.ofBuffer (data.take colon)))
        | some group => .accepted (CString.ofBuffer (data.take colon)) group := by
  have hneg : ¬ (0 : Int) - (colon + 1) - 1 ≥ sdbModuleNameSize := by
    simp only [sdbModuleNameSize]
    omega
  unfold splitHandshake
  rw [if_neg hneg]
  rcases findGroup (data.drop (colon + 1)) sdbGroupConversion with _ | _ | group <;> rfl

/-- What comes before the first separator is the name. -/
theorem handshake_append {pkt : MCSPacket} {bs rest : List UInt8}
    (hcmd : mcsCommand pkt = mcsMessageSdbHandshake) (hdata : pkt.data = some (bs ++ 58 :: rest))
    (hsep : ∀ b ∈ bs, b ≠ 58) (h0 : ∀ b ∈ bs, b ≠ 0) :
    handshake pkt =
      (findGroup rest sdbGroupConversion).map fun
        | none => .refused (some (CString.ofBuffer bs))
        | some group => .accepted (CString.ofBuffer bs) group := by
  have htake : (bs ++ 58 :: rest).take bs.length = bs := by simp
  have hdrop : (bs ++ 58 :: rest).drop (bs.length + 1) = rest := by simp
  simp only [handshake, hcmd, ne_eq, not_true_eq_false, if_false, hdata,
    strchr_append hsep h0, splitHandshake_eq, htake, hdrop]

/-- A group with its terminator is looked up by its string. -/
theorem findGroup_terminated (group : CString) (rest : List UInt8)
    (entries : List (SDBGroup × CString)) :
    findGroup (group.bytes ++ 0 :: rest) entries =
      some ((entries.find? fun e => decide (group = e.2)).map Prod.fst) := by
  induction entries with
  | nil => rfl
  | cons e entries ih =>
      rcases e with ⟨val, str⟩
      rw [findGroup, strcmpEq_terminated group.noNul str.noNul]
      by_cases heq : group = str
      · simp [heq]
      · have hbytes : ¬ group.bytes = str.bytes := fun h => heq (CString.ext_bytes h)
        simp [hbytes, heq, ih]

end SDB
end AbsPlatform

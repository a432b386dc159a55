import AbsPlatform.Lib.ByteReader
import AbsPlatform.MCS.Packet

/-!
# Codec — packets on a file descriptor

`abs_read`, `abs_write`, `mcs_read_command` and `mcs_write_command`.  A descriptor to read from is
the list of bytes that will still arrive: running out of them is the end of the stream or a
timeout, which the callers do not tell apart.  A descriptor to write to is the number of bytes
`write` takes from a buffer of a given size.
-/

namespace AbsPlatform
namespace MCS

open Lib

/-! ## Libraries/ABS/abs.c -/

/-- `abs_read`: one byte at a time until the buffer is full; `none` for its negative returns. -/
def absRead : (n : Nat) → ByteReader { bs : List UInt8 // bs.length = n }
  | 0 => fun s => (some ⟨[], rfl⟩, s)
  | n + 1 => fun s =>
      match s with
      | [] => (none, [])
      | b :: s =>
          match absRead n s with
          | (some bs, rest) => (some ⟨b :: bs.1, by simp [bs.2]⟩, rest)
          | (none, rest) => (none, rest)

abbrev WriteFd := Nat → Int

/-- A descriptor that takes every buffer whole. -/
def openFd : WriteFd := fun n => n

/-- `abs_write`, with the bytes that went out. -/
def absWrite (fd : WriteFd) (buffer : List UInt8) : Int × List UInt8 :=
  let size := fd buffer.length
  if size < 0 then (eundef, []) else (size, buffer.take size.toNat)

/-- An open descriptor takes everything. -/
@[simp] theorem absWrite_openFd (buffer : List UInt8) :
    absWrite openFd buffer = ((buffer.length : Int), buffer) := by
  have hsize : ¬ (buffer.length : Int) < 0 := by omega
  simp [absWrite, openFd, hsize]

/-! ## Writing -/

/-- The destination: the low byte of its length, then the whole string. -/
def destBytes : Option CString → List UInt8
  | some d => UInt8.ofNat d.strlen :: d.bytes
  | none => []

/-- The buffer `mcs_write_command` fills. -/
def rawBytes (pkt : MCSPacket) : List UInt8 :=
  -- `sizeof(pkt->id) + sizeof(char)` bytes from the start of the struct
  let common := bytes32 pkt.id ++ [pkt.type]
  match MCSType.ofCode? pkt.type with
  | some .err => common ++ pkt.dataBytes
  | some .okData => common ++ bytes16 pkt.dataSize ++ pkt.dataBytes
  | some .ok => common
  | _ =>
      common ++ bytes16 pkt.cmd
        ++ (if pkt.nargs ≠ 0 then pkt.argBytes else [])
        ++ destBytes pkt.dest
        ++ (if pkt.dataSize ≠ 0 then bytes16 pkt.dataSize ++ pkt.dataBytes else [])

/-- `mcs_write_command`: the return value and the bytes that went out. -/
def mcsWriteCommand (t : MCSTables) (pkt : MCSPacket) (fd : WriteFd) : Int × List UInt8 :=
  if checkPacket t pkt then
    let raw := rawBytes pkt
    let written := absWrite fd raw
    if written.1 < raw.length then (eundef, written.2) else (0, written.2)
  else
    (eundef, [])

theorem mcsWriteCommand_openFd {t : MCSTables} {pkt : MCSPacket} (h : checkPacket t pkt = true) :
    mcsWriteCommand t pkt openFd = (0, rawBytes pkt) := by
  simp [mcsWriteCommand, h]

theorem mcsWriteCommand_refused {t : MCSTables} {pkt : MCSPacket} (fd : WriteFd)
    (h : checkPacket t pkt = false) : mcsWriteCommand t pkt fd = (eundef, []) := by
  simp [mcsWriteCommand, h]

/-- A packet that passes the check goes out in one buffer, as far as the descriptor takes it. -/
theorem mcsWriteCommand_sent {t : MCSTables} {pkt : MCSPacket} (fd : WriteFd)
    (h : checkPacket t pkt = true) :
    (mcsWriteCommand t pkt fd).2 = (absWrite fd (rawBytes pkt)).2 := by
  unfold mcsWriteCommand
  rw [if_pos h]
  dsimp only
  split_ifs <;> rfl

/-! ## Reading -/

/-- A length field and the pointer it goes with. -/
@[ext] structure Counted where
  size : UInt16
  block : Option (List UInt8)
  len : ∀ bs ∈ block, bs.length = size.toNat

/-- A length field over a NULL pointer. -/
def Counted.null (n : UInt16) : Counted where
  size := n
  block := none
  len := length_of_mem_none n

/-- A length field over a block that has been read. -/
def Counted.read {n : UInt16} (bs : { bs : List UInt8 // bs.length = n.toNat }) : Counted where
  size := n
  block := some bs.1
  len := length_of_mem_some bs

/-- The arguments: nothing is allocated for a command without any. -/
def readArgs (nargs : UInt16) : ByteReader Counted :=
  if nargs ≠ 0 then do
    let bs ← absRead nargs.toNat
    pure (Counted.read bs)
  else
    pure (Counted.null 0)

/-- The destination: a length byte and that many bytes, closed with a NUL. -/
def readDest : ByteReader (Option CString) := do
  let size ← absRead 1
  let destSize := (size.1.headD 0).toNat
  if destSize > sdbModuleNameSize then
    ByteReader.fail
  else do
    let bs ← absRead destSize
    pure (some (CString.ofBuffer bs.1))

/-- The destination of a command that may carry one. -/
def readDestIf (explicit : Bool) : ByteReader (Option CString) :=
  if explicit then readDest else pure none

/-- A 16-bit size and that many bytes. -/
def readData : ByteReader Counted := do
  let size ← absRead 2
  let bs ← absRead (word16 size.1).toNat
  pure (Counted.read bs)

/-- The raw data of a command that may carry some. -/
def readDataIf (rawData : Bool) : ByteReader Counted :=
  if rawData then readData else pure (Counted.null 0)

def readCheckConfig (t : MCSTables) (id : UInt32) (type : MCSType) (cmd : UInt16) :
    ByteReader MCSPacket :=
  match t.common? type cmd with
  | none => ByteReader.fail
  | some opts => do
      let args ← readArgs opts.nargs
      let dest ← readDestIf (t.explicitDest type cmd)
      let data ← readDataIf opts.rawData
      pure
        { id := id
          type := type.code
          cmd := cmd
          nargs := args.size
          args := args.block
          dest := dest
          dataSize := data.size
          data := data.block
          args_len := args.len
          data_len := data.len }

/-- An answer as the reader leaves it: command, arguments and destination stay zero. -/
def answerPacket (id : UInt32) (type : MCSType) (data : Counted) : MCSPacket where
  id := id
  type := type.code
  cmd := 0
  nargs := 0
  args := none
  dest := none
  dataSize := data.size
  data := data.block
  args_len := null_length
  data_len := data.len

/-- The `switch` on the type. -/
def readTyped (t : MCSTables) (id : UInt32) : Option MCSType → ByteReader MCSPacket
  | some .err => do
      let code ← absRead (4 : UInt16).toNat
      pure (answerPacket id .err (Counted.read code))
  | some .okData => do
      let data ← readData
      pure (answerPacket id .okData data)
  | some .ok => pure (answerPacket id .ok (Counted.null 0))
  | some type => do
      let cmd ← absRead 2
      readCheckConfig t id type (word16 cmd.1)
  | none => ByteReader.fail

/-- `mcs_read_command` past the identifier. -/
def readBody (t : MCSTables) (id : UInt32) : ByteReader MCSPacket := do
  let byte ← absRead 1
  readTyped t id (MCSType.ofCode? (byte.1.headD 0))

/-- What a call of `mcs_read_command` leaves behind. -/
structure ReadResult where
  pkt : Option MCSPacket
  /-- the bytes it did not take from `rfd` -/
  rest : List UInt8
  /-- the bytes it sent to `wfd` -/
  reply : List UInt8

def mcsReadCommand (t : MCSTables) (rfd : Int) (wfd : WriteFd) (input : List UInt8) : ReadResult :=
  if rfd < 0 then
    { pkt := none, rest := input, reply := [] }
  else
    match absRead 4 input with
    | (none, rest) =>
        -- without an identifier there is nobody to notify
        { pkt := none, rest := rest, reply := [] }
    | (some idBytes, rest) =>
        let id := word32 idBytes.1
        match readBody t id rest with
        | (some pkt, rest) => { pkt := some pkt, rest := rest, reply := [] }
        | (none, rest) =>
            { pkt := none
              rest := rest
              reply := (mcsWriteCommand t (mcsErrPacketId id ebadformat) wfd).2 }

end MCS
end AbsPlatform

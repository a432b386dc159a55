import AbsPlatform.Include

/-!
# Packet — building and checking packets

`check_packet` and the constructors of `Libraries/MCS/mcs.c` (non-DEBUG build).  A constructor's
`(count, pointer)` argument is a `Block`: the bytes the pointer leads to, as many as the count says.
-/

namespace AbsPlatform
namespace MCS

open Lib

/-- Bytes counted by an `unsigned short`. -/
structure Block where
  bytes : List UInt8
  short : bytes.length < 2 ^ 16

namespace Block

def size (b : Block) : UInt16 := UInt16.ofNat b.bytes.length

@[simp] theorem toNat_size (b : Block) : b.size.toNat = b.bytes.length := by
  simpa [size] using Nat.mod_eq_of_lt b.short

/-- `abs_malloccpy` of the block, which the constructors skip for an empty one. -/
def copy (b : Block) : Option (List UInt8) :=
  if b.size = 0 then none else some b.bytes

theorem length_of_mem_copy {b : Block} {bs : List UInt8} (h : bs ∈ b.copy) :
    bs.length = b.size.toNat := by
  unfold copy at h
  split_ifs at h
  · cases h
  · cases h
    simp

theorem size_eq_zero_iff {b : Block} : b.size = 0 ↔ b.bytes = [] := by
  constructor
  · intro h
    apply List.length_eq_zero_iff.1
    simpa [h] using (toNat_size b).symm
  · intro h
    simp [size, h]

theorem copy_getD (b : Block) : b.copy.getD [] = b.bytes := by
  by_cases hz : b.size = 0
  · simp [copy, hz, size_eq_zero_iff.1 hz]
  · simp [copy, hz]

end Block

/-! ## Checks -/

/-- The part of `check_packet` for commands: the table's number of arguments, and data exactly
when the table says so. -/
def checkCommand (t : MCSTables) (type : MCSType) (pkt : MCSPacket) : Bool :=
  match t.common? type pkt.cmd with
  | some cmd => cmd.nargs = pkt.nargs && (cmd.rawData == decide (pkt.dataSize ≠ 0))
  | none => false

def checkSizes (t : MCSTables) (pkt : MCSPacket) : MCSType → Bool
  | .err => pkt.nargs = 0
  | .okData => pkt.nargs = 0 && pkt.dataSize ≠ 0
  | .ok => pkt.nargs = 0 && pkt.dataSize = 0
  | type => checkCommand t type pkt

theorem checkSizes_of_isCommand {t : MCSTables} {pkt : MCSPacket} {type : MCSType}
    (h : type.isCommand = true) : checkSizes t pkt type = checkCommand t type pkt := by
  cases type with
  | message => rfl
  | state => rfl
  | payload => rfl
  | ok => cases h
  | okData => cases h
  | err => cases h

/-- A count other than zero comes with a pointer. -/
def checkPointer (n : UInt16) (p : Option (List UInt8)) : Bool := !(n ≠ 0 && p.isNone)

def checkPacket (t : MCSTables) (pkt : MCSPacket) : Bool :=
  (match MCSType.ofCode? pkt.type with
    | some type => checkSizes t pkt type
    | none => false)
    -- The pointer tests come last, for every kind of packet.
    && checkPointer pkt.nargs pkt.args && checkPointer pkt.dataSize pkt.data

theorem checkCommand_iff {t : MCSTables} {type : MCSType} {pkt : MCSPacket} :
    checkCommand t type pkt = true ↔
      ∃ opts, t.common? type pkt.cmd = some opts ∧ opts.nargs = pkt.nargs ∧
        (opts.rawData = true ↔ pkt.dataSize ≠ 0) := by
  unfold checkCommand
  cases t.common? type pkt.cmd with
  | none => simp
  | some opts =>
      by_cases hz : pkt.dataSize = 0
      · simp [hz]
      · simp [hz]

theorem checkPointer_iff {n : UInt16} {p : Option (List UInt8)} :
    checkPointer n p = true ↔ (n ≠ 0 → p.isSome = true) := by
  cases p with
  | none => simp [checkPointer]
  | some bs => simp [checkPointer]

theorem checkPacket_iff {t : MCSTables} {pkt : MCSPacket} :
    checkPacket t pkt = true ↔
      (∃ type, pkt.type = MCSType.code type ∧ checkSizes t pkt type = true) ∧
        (pkt.nargs ≠ 0 → pkt.args.isSome = true) ∧
        (pkt.dataSize ≠ 0 → pkt.data.isSome = true) := by
  unfold checkPacket
  simp only [Bool.and_eq_true, checkPointer_iff, and_assoc]
  refine and_congr_left ?_
  intro _
  cases htype : MCSType.ofCode? pkt.type with
  | none =>
      constructor
      · intro h
        cases h
      · rintro ⟨type, hcode, _⟩
        simp [hcode] at htype
  | some type =>
      -- a type byte stands for one enumerator only
      have hcode : pkt.type = type.code := MCSType.ofCode?_eq_some.1 htype
      constructor
      · intro h
        exact ⟨type, hcode, h⟩
      · rintro ⟨type', hcode', h⟩
        have hsame : type' = type := MCSType.code_injective (hcode'.symm.trans hcode)
        simpa [hsame] using h

/-! ## Answers -/

/-- `mcs_ok_packet_data_id` on a block of any size; the size field keeps its 16 low bits, and only
that many bytes of the copy can be seen through it. -/
def mcsOkPacketDataId (id : UInt32) (data : List UInt8) : MCSPacket where
  id := id
  type := MCSType.okData.code
  cmd := 0
  nargs := 0
  args := none
  dest := none
  dataSize := UInt16.ofNat data.length
  data := if data.length = 0 then none else some (data.take (data.length % 2 ^ 16))
  args_len := null_length
  data_len := by
    intro bs hbs
    split_ifs at hbs
    · cases hbs
    · cases hbs
      have hle : data.length % 2 ^ 16 ≤ data.length := Nat.mod_le _ _
      simpa using hle

def mcsOkPacketId (id : UInt32) : MCSPacket where
  id := id
  type := MCSType.ok.code
  cmd := 0
  nargs := 0
  args := none
  dest := none
  dataSize := 0
  data := none
  args_len := null_length
  data_len := null_length

/-- The four bytes of a C `int`. -/
def intBytes (n : Int) : List UInt8 := leBytes 4 (n % 2 ^ 32).toNat

def mcsErrPacketId (id : UInt32) (errCode : Int) : MCSPacket where
  id := id
  type := MCSType.err.code
  cmd := 0
  nargs := 0
  args := none
  dest := none
  dataSize := 4
  data := some (intBytes errCode)
  args_len := null_length
  data_len := by simp [intBytes]

def mcsOkPacketData (pkt : MCSPacket) (data : List UInt8) : MCSPacket :=
  mcsOkPacketDataId pkt.id data

def mcsOkPacket (pkt : MCSPacket) : MCSPacket := mcsOkPacketId pkt.id

def mcsErrPacket (pkt : MCSPacket) (errCode : Int) : MCSPacket := mcsErrPacketId pkt.id errCode

@[simp] theorem mcsOkPacketData_id (pkt : MCSPacket) (data : List UInt8) :
    (mcsOkPacketData pkt data).id = pkt.id := rfl

@[simp] theorem mcsOkPacket_id (pkt : MCSPacket) : (mcsOkPacket pkt).id = pkt.id := rfl

@[simp] theorem mcsErrPacket_id (pkt : MCSPacket) (e : Int) :
    (mcsErrPacket pkt e).id = pkt.id := rfl

@[simp] theorem isAnswer_mcsOkPacketData (pkt : MCSPacket) (data : List UInt8) :
    (mcsOkPacketData pkt data).isAnswer = true := rfl

@[simp] theorem isAnswer_mcsOkPacket (pkt : MCSPacket) : (mcsOkPacket pkt).isAnswer = true := rfl

@[simp] theorem isAnswer_mcsErrPacket (pkt : MCSPacket) (e : Int) :
    (mcsErrPacket pkt e).isAnswer = true := rfl

@[simp] theorem checkPacket_mcsOkPacketId (t : MCSTables) (id : UInt32) :
    checkPacket t (mcsOkPacketId id) = true := rfl

@[simp] theorem checkPacket_mcsErrPacketId (t : MCSTables) (id : UInt32) (e : Int) :
    checkPacket t (mcsErrPacketId id e) = true := rfl

/-- An answer with data is refused when the size field of its data is zero. -/
theorem checkPacket_mcsOkPacketDataId (t : MCSTables) (id : UInt32) (data : List UInt8) :
    checkPacket t (mcsOkPacketDataId id data) = true ↔ data.length % 2 ^ 16 ≠ 0 := by
  have hsize : UInt16.ofNat data.length = 0 ↔ data.length % 2 ^ 16 = 0 := by
    rw [← UInt16.toNat_inj]
    simp
  -- the check sees the size field, and the field has 16 bits
  by_cases hz : data.length % 2 ^ 16 = 0
  · have h0 : UInt16.ofNat data.length = 0 := hsize.2 hz
    simpa [checkPacket, checkSizes, mcsOkPacketDataId, h0] using hz
  · have h0 : ¬ UInt16.ofNat data.length = 0 := fun h => hz (hsize.1 h)
    have hlen : ¬ data.length = 0 := by
      intro h
      exact hz (by simp [h])
    simpa [checkPacket, checkSizes, checkPointer, mcsOkPacketDataId, h0, hlen] using hz

/-! ## Commands -/

/-- `(cmd & 0xF0000) >> 16`. -/
def commandType (cmd : UInt32) : UInt8 := ((cmd &&& 0xF0000) >>> 16).toUInt8

/-- The constructors never make an answer: the type they fill in has four bits. -/
theorem commandType_ne_err (cmd : UInt32) : commandType cmd ≠ MCSType.err.code := by
  intro h
  have hval : (commandType cmd).toNat = 255 := by
    rw [h]
    rfl
  -- four bits are left, and the code of `ERR` needs eight
  have hle : (cmd.toNat &&& 0xF0000) >>> 16 ≤ 15 := by
    have hand : cmd.toNat &&& 0xF0000 ≤ 0xF0000 := Nat.and_le_right
    rw [Nat.shiftRight_eq_div_pow]
    omega
  simp [commandType] at hval
  omega

/-- `cmd & 0xFFFF`. -/
def commandNumber (cmd : UInt32) : UInt16 := (cmd &&& 0xFFFF).toUInt16

/-- `mcs_command`. -/
def mcsCommand (pkt : MCSPacket) : UInt32 := (pkt.type.toUInt32 <<< 2) ||| pkt.cmd.toUInt32

theorem toNat_mcsCommand (pkt : MCSPacket) :
    (mcsCommand pkt).toNat = pkt.type.toNat <<< 2 ||| pkt.cmd.toNat := by
  have htype : pkt.type.toNat < 256 := pkt.type.toNat_lt
  have hfits : pkt.type.toNat * 4 % 4294967296 = pkt.type.toNat * 4 := by omega
  simp [mcsCommand, Nat.shiftLeft_eq, hfits]

theorem mcsCommand_of_message {pkt : MCSPacket} (h : pkt.type = MCSType.message.code) :
    (mcsCommand pkt).toNat = pkt.cmd.toNat := by
  rw [toNat_mcsCommand, h]
  simp [MCSType.code]

/-- The packet both constructors fill in before they check it. -/
def rawPacket (id cmd : UInt32) (dest : Option CString) (args data : Block) : MCSPacket where
  id := id
  type := commandType cmd
  cmd := commandNumber cmd
  nargs := args.size
  args := args.copy
  dest := dest
  dataSize := data.size
  data := data.copy
  args_len := fun _ h => Block.length_of_mem_copy h
  data_len := fun _ h => Block.length_of_mem_copy h

/-- No bytes at all: `0, NULL`. -/
def emptyBlock : Block := ⟨[], by decide⟩

def byteBlock (b : UInt8) : Block := ⟨[b], by simp⟩

/-- `mcs_create_packet`, with `random` for what `generate_id` draws. -/
def mcsCreatePacket (t : MCSTables) (random cmd : UInt32) (args data : Block) : Option MCSPacket :=
  let id : UInt32 :=
    -- Payload packets go over USB, which has room for seven bits of identifier.
    if commandType cmd = MCSType.payload.code then random &&& 0x7F else random
  let pkt := rawPacket id cmd none args data
  if checkPacket t pkt then some pkt else none

/-- `mcs_create_packet_with_dest`. -/
def mcsCreatePacketWithDest (t : MCSTables) (random cmd : UInt32) (dest : Option CString)
    (args data : Block) : Option MCSPacket :=
  let pkt := rawPacket random cmd dest args data
  if checkPacket t pkt then some pkt else none

end MCS
end AbsPlatform

import Mathlib.Data.List.TakeWhile
import AbsPlatform.Lib.LittleEndian

/-!
# Include — what the shared headers declare

The data types of `abs.h`, `sdb_group.h`, `mcs.h` and `sdb.h`: error codes, groups, packets and the
tables of commands.  A pointer with its length is an optional byte block of exactly that length,
and a `char *` is the string it leads to, up to the terminator.
-/

namespace AbsPlatform

open Lib

/-! ## abs.h -/

def eundef : Int := -1
def econnrefused : Int := -10
def eperm : Int := -13
def ebadmodid : Int := -104
def ecmdfault : Int := -108
def ehwfault : Int := -110
def ebadformat : Int := -113

/-- The data models the code is built for; they differ in the size of a pointer. -/
inductive Arch
  | ilp32
  | lp64
  deriving DecidableEq, Repr

def Arch.ptrSize : Arch → Nat
  | .ilp32 => 4
  | .lp64 => 8

/-- What an `int` of 32 bits keeps of a number. -/
def toCInt (x : Int) : Int := x.bmod (2 ^ 32)

theorem toCInt_eq_iff {x : Int} : toCInt x = x ↔ -2147483648 ≤ x ∧ x < 2147483648 := by
  unfold toCInt
  rw [Int.bmod_def]
  split_ifs
  · omega
  · omega

theorem toCInt_of_lt {x : Int} (hlow : -2147483648 ≤ x) (hhigh : x < 2147483648) : toCInt x = x :=
  toCInt_eq_iff.2 ⟨hlow, hhigh⟩

theorem toCInt_range (x : Int) : -2147483648 ≤ toCInt x ∧ toCInt x < 2147483648 := by
  unfold toCInt
  rw [Int.bmod_def]
  split_ifs
  · omega
  · omega

/-- A sum that overflows is negative. -/
theorem toCInt_neg {x : Int} (hlow : 2147483648 ≤ x) (hhigh : x < 4294967296) : toCInt x < 0 := by
  unfold toCInt
  rw [Int.bmod_def]
  split_ifs
  · omega
  · omega

theorem toCInt_add (x y : Int) : toCInt (toCInt x + y) = toCInt (x + y) := by
  simp [toCInt]

/-! ## C strings -/

/-- A NUL-terminated string, without its terminator. -/
structure CString where
  bytes : List UInt8
  noNul : ∀ b ∈ bytes, b ≠ 0
  deriving DecidableEq

namespace CString

@[ext] theorem ext_bytes {a b : CString} (h : a.bytes = b.bytes) : a = b := by
  cases a
  cases b
  cases h
  rfl

theorem noNul_nil : ∀ b ∈ ([] : List UInt8), b ≠ 0 := by simp

/-- The string a buffer holds: everything in front of its first NUL. -/
def ofBuffer (buf : List UInt8) : CString where
  bytes := buf.takeWhile (· ≠ 0)
  noNul := by
    intro b hb
    simpa using List.mem_takeWhile_imp hb

def strlen (s : CString) : Nat := s.bytes.length

/-- `s[0]`, which is the terminator when the string is empty. -/
def first (s : CString) : UInt8 := s.bytes.headD 0

theorem ofBuffer_eq_self {buf : List UInt8} (h : ∀ b ∈ buf, b ≠ 0) :
    (ofBuffer buf).bytes = buf := by
  simp only [ofBuffer]
  refine List.takeWhile_eq_self_iff.2 ?_
  intro b hb
  simpa using h b hb

theorem ofBuffer_bytes (s : CString) : ofBuffer s.bytes = s :=
  ext_bytes (ofBuffer_eq_self s.noNul)

theorem strlen_ofBuffer_le (buf : List UInt8) : (ofBuffer buf).strlen ≤ buf.length :=
  (List.takeWhile_prefix _).length_le

/-- Cutting a buffer at its first NUL loses nothing exactly when it has none. -/
theorem ofBuffer_bytes_eq_iff {buf : List UInt8} :
    (ofBuffer buf).bytes = buf ↔ ∀ b ∈ buf, b ≠ 0 := by
  constructor
  · intro h b hb
    rw [← h] at hb
    exact (ofBuffer buf).noNul b hb
  · exact ofBuffer_eq_self

end CString

/-! ## sdb_group.h -/

inductive SDBGroup
  | syscore
  | procman
  | sdb
  | hwmod
  | app
  | max
  | any
  deriving DecidableEq, Repr

/-- `SDB_GROUP_MAX`, the length of every array indexed by groups. -/
def sdbGroupMax : Nat := 5

/-- The value of an enumerator. -/
def SDBGroup.val : SDBGroup → Nat
  | .syscore => 0
  | .procman => 1
  | .sdb => 2
  | .hwmod => 3
  | .app => 4
  | .max => 5
  | .any => 6

/-- `sdb_group_priority`, by the value of the group. -/
def sdbGroupPriority : List Int := [0, 1, 1, 99, 100]

/-- `sdb_group_conversion`: "syscore", "procman", "sdb", "hwmod" and "app". -/
def sdbGroupConversion : List (SDBGroup × CString) :=
  [(.syscore, CString.ofBuffer [115, 121, 115, 99, 111, 114, 101]),
    (.procman, CString.ofBuffer [112, 114, 111, 99, 109, 97, 110]),
    (.sdb, CString.ofBuffer [115, 100, 98]),
    (.hwmod, CString.ofBuffer [104, 119, 109, 111, 100]),
    (.app, CString.ofBuffer [97, 112, 112])]

/-- The C array initialised from a list: the elements that are left out are zero, which is the
group `syscore`. -/
def groupArray (groups : List SDBGroup) : Vector SDBGroup sdbGroupMax :=
  Vector.ofFn fun i => groups.getD i .syscore

/-! ## mcs.h -/

inductive MCSType
  | message
  | state
  | payload
  | ok
  | okData
  | err
  deriving DecidableEq, Repr

namespace MCSType

def code : MCSType → UInt8
  | .message => 0
  | .state => 1
  | .payload => 2
  | .ok => 253
  | .okData => 254
  | .err => 255

/-- The enumerator a type byte stands for, if there is one. -/
def ofCode? (c : UInt8) : Option MCSType :=
  if c = 0 then some .message
  else if c = 1 then some .state
  else if c = 2 then some .payload
  else if c = 253 then some .ok
  else if c = 254 then some .okData
  else if c = 255 then some .err
  else none

/-- The types that have a table of commands (`MCS_COMMAND_TYPES`). -/
def isCommand : MCSType → Bool
  | .message | .state | .payload => true
  | .ok | .okData | .err => false

@[simp] theorem ofCode?_code (t : MCSType) : ofCode? t.code = some t := by
  cases t <;> rfl

theorem code_of_ofCode? {c : UInt8} {t : MCSType} (h : ofCode? c = some t) : t.code = c := by
  unfold ofCode? at h
  split_ifs at h <;> cases h <;> simp_all [code]

theorem ofCode?_eq_some {c : UInt8} {t : MCSType} : ofCode? c = some t ↔ c = t.code := by
  constructor
  · intro h
    exact (code_of_ofCode? h).symm
  · rintro rfl
    exact ofCode?_code t

theorem code_injective {t u : MCSType} (h : t.code = u.code) : t = u := by
  have hsome : some t = some u := by
    rw [← ofCode?_code t, h, ofCode?_code u]
  exact Option.some.inj hsome

end MCSType

/-! A length field over a pointer that is NULL, and over one that is not. -/

theorem length_of_mem_none (n : UInt16) :
    ∀ bs ∈ (none : Option (List UInt8)), bs.length = n.toNat := by
  simp

theorem length_of_mem_some {n : UInt16} (bs : { bs : List UInt8 // bs.length = n.toNat }) :
    ∀ cs ∈ some bs.1, cs.length = n.toNat := by
  intro cs hcs
  cases hcs
  exact bs.2

theorem null_length : ∀ bs ∈ (none : Option (List UInt8)), bs.length = (0 : UInt16).toNat :=
  length_of_mem_none 0

/-- A packet.  `type` keeps the raw byte, since the C enumeration holds any value; the two length
fields never disagree with the blocks behind `args` and `data` when these are not NULL. -/
@[ext] structure MCSPacket where
  id : UInt32
  type : UInt8
  cmd : UInt16
  nargs : UInt16
  args : Option (List UInt8)
  dest : Option CString
  dataSize : UInt16
  data : Option (List UInt8)
  args_len : ∀ bs ∈ args, bs.length = nargs.toNat
  data_len : ∀ bs ∈ data, bs.length = dataSize.toNat
  deriving DecidableEq

namespace MCSPacket

/-- The argument bytes, none behind a NULL pointer. -/
def argBytes (pkt : MCSPacket) : List UInt8 := pkt.args.getD []

/-- The data bytes, none behind a NULL pointer. -/
def dataBytes (pkt : MCSPacket) : List UInt8 := pkt.data.getD []

/-- `mcs_is_answer_packet`. -/
def isAnswer (pkt : MCSPacket) : Bool :=
  pkt.type = MCSType.ok.code || pkt.type = MCSType.okData.code || pkt.type = MCSType.err.code

end MCSPacket

structure MCSCommandOptionsCommon where
  nargs : UInt16
  rawData : Bool
  responseSize : Int

structure MCSCommandOptionsMessage where
  cmd : MCSCommandOptionsCommon
  destination : Option CString
  originGroups : Vector SDBGroup sdbGroupMax
  destinationGroups : Vector SDBGroup sdbGroupMax

structure MCSCommandOptionsStatePerms where
  group : SDBGroup
  maxExpire : Int

structure MCSCommandOptionsState where
  cmd : MCSCommandOptionsCommon
  /-- The block the request function returns, `none` for NULL. -/
  request : MCSPacket → Option (List UInt8)
  expireGroup : Vector MCSCommandOptionsStatePerms sdbGroupMax

structure MCSCommandOptionsPayload where
  cmd : MCSCommandOptionsCommon
  command : UInt8
  parameters : UInt8

/-- The three generated tables. -/
structure MCSTables where
  messages : List MCSCommandOptionsMessage
  states : List MCSCommandOptionsState
  payloads : List MCSCommandOptionsPayload

namespace MCSTables

/-- The options common to all commands for number `cmd` of a type: `none` when the number is not
below `mcs_command_list_size[type]`, or when the type has no table. -/
def common? (t : MCSTables) (type : MCSType) (cmd : UInt16) : Option MCSCommandOptionsCommon :=
  match type with
  | .message => (t.messages[cmd.toNat]?).map (·.cmd)
  | .state => (t.states[cmd.toNat]?).map (·.cmd)
  | .payload => (t.payloads[cmd.toNat]?).map (·.cmd)
  | _ => none

/-- The packet itself carries the destination: a message whose table destination starts
with `'@'`. -/
def explicitDest (t : MCSTables) (type : MCSType) (cmd : UInt16) : Bool :=
  match type, t.messages[cmd.toNat]? with
  | .message, some m =>
      match m.destination with
      | some d => d.first = 64
      | none => false
  | _, _ => false

theorem isCommand_of_common? {t : MCSTables} {type : MCSType} {cmd : UInt16}
    {o : MCSCommandOptionsCommon} (h : t.common? type cmd = some o) : type.isCommand = true := by
  cases type <;> simp_all [common?, MCSType.isCommand]

end MCSTables

/-! ## sdb.h -/

/-- `SDB_MODULE_NAME_SIZE`. -/
def sdbModuleNameSize : Nat := 10

end AbsPlatform

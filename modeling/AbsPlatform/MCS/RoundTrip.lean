import AbsPlatform.MCS.CommandSet
import AbsPlatform.MCS.Frame

/-!
# RoundTrip — the writer against the reader

`mcs_write_command` and `mcs_read_command` look the tables up independently.  Here the writer is
compared with the frames the reader accepts:

* `frame_of_packet`: a packet that `check_packet` accepts and whose destination and error code have
  the right shape is written as a fitting frame;
* `readMany_written`: the stream round trip, for any list of conforming packets.
-/

namespace AbsPlatform
namespace MCS

open Lib

/-! ## What the checks guarantee -/

theorem MCSPacket.length_argBytes {pkt : MCSPacket} (h : pkt.nargs ≠ 0 → pkt.args.isSome = true) :
    pkt.argBytes.length = pkt.nargs.toNat := by
  cases hargs : pkt.args with
  | none =>
      -- a NULL pointer is only accepted with a count of zero
      have hz : pkt.nargs = 0 := by
        by_contra hne
        simp [hargs] at h
        exact hne h
      simp [MCSPacket.argBytes, hargs, hz]
  | some bs => simpa [MCSPacket.argBytes, hargs] using pkt.args_len bs hargs

theorem MCSPacket.length_dataBytes {pkt : MCSPacket}
    (h : pkt.dataSize ≠ 0 → pkt.data.isSome = true) :
    pkt.dataBytes.length = pkt.dataSize.toNat := by
  cases hdata : pkt.data with
  | none =>
      have hz : pkt.dataSize = 0 := by
        by_contra hne
        simp [hdata] at h
        exact hne h
      simp [MCSPacket.dataBytes, hdata, hz]
  | some bs => simpa [MCSPacket.dataBytes, hdata] using pkt.data_len bs hdata

theorem MCSPacket.argBytes_eq_nil {pkt : MCSPacket}
    (h : pkt.nargs ≠ 0 → pkt.args.isSome = true) (hz : pkt.nargs = 0) : pkt.argBytes = [] := by
  apply List.length_eq_zero_iff.1
  simp [MCSPacket.length_argBytes h, hz]

theorem MCSPacket.dataBytes_eq_nil {pkt : MCSPacket}
    (h : pkt.dataSize ≠ 0 → pkt.data.isSome = true) (hz : pkt.dataSize = 0) :
    pkt.dataBytes = [] := by
  apply List.length_eq_zero_iff.1
  simp [MCSPacket.length_dataBytes h, hz]

theorem isAnswer_of_isCommand {pkt : MCSPacket} {type : MCSType} (htype : pkt.type = type.code)
    (hcommand : type.isCommand = true) : pkt.isAnswer = false := by
  cases type <;> simp_all [MCSPacket.isAnswer, MCSType.isCommand, MCSType.code]

theorem isAnswer_of_not_isCommand {pkt : MCSPacket} {type : MCSType} (htype : pkt.type = type.code)
    (hcommand : type.isCommand = false) : pkt.isAnswer = true := by
  cases type <;> simp_all [MCSPacket.isAnswer, MCSType.isCommand, MCSType.code]

/-- The destination is there exactly for the messages that carry one. -/
def carriesDest (t : MCSTables) (code : UInt8) (cmd : UInt16) : Bool :=
  match MCSType.ofCode? code with
  | some type => t.explicitDest type cmd
  | none => false

/-- What the reader takes for granted and `check_packet` does not look at. -/
structure ReaderShape (t : MCSTables) (pkt : MCSPacket) : Prop where
  dest : pkt.dest.isSome = carriesDest t pkt.type pkt.cmd
  name : ∀ d ∈ pkt.dest, d.strlen ≤ sdbModuleNameSize
  err : pkt.type = MCSType.err.code → pkt.dataSize = 4

/-- `q` has everything `pkt` puts on the wire.  An answer has no command number there. -/
structure WireEq (pkt q : MCSPacket) : Prop where
  id : q.id = pkt.id
  type : q.type = pkt.type
  cmd : q.cmd = if pkt.isAnswer then 0 else pkt.cmd
  nargs : q.nargs = pkt.nargs
  args : q.argBytes = pkt.argBytes
  dest : q.dest = pkt.dest
  dataSize : q.dataSize = pkt.dataSize
  data : q.dataBytes = pkt.dataBytes

/-! ## Accepted packets as frames -/

/-- The arguments of an accepted packet as a block. -/
def argBlock (pkt : MCSPacket) (h : pkt.nargs ≠ 0 → pkt.args.isSome = true) : Block where
  bytes := pkt.argBytes
  short := by
    rw [MCSPacket.length_argBytes h]
    exact pkt.nargs.toNat_lt

/-- The data of an accepted packet as a block. -/
def dataBlock (pkt : MCSPacket) (h : pkt.dataSize ≠ 0 → pkt.data.isSome = true) : Block where
  bytes := pkt.dataBytes
  short := by
    rw [MCSPacket.length_dataBytes h]
    exact pkt.dataSize.toNat_lt

theorem size_argBlock {pkt : MCSPacket} (h : pkt.nargs ≠ 0 → pkt.args.isSome = true) :
    (argBlock pkt h).size = pkt.nargs := by
  apply UInt16.toNat_inj.1
  simp [argBlock, MCSPacket.length_argBytes h]

theorem size_dataBlock {pkt : MCSPacket} (h : pkt.dataSize ≠ 0 → pkt.data.isSome = true) :
    (dataBlock pkt h).size = pkt.dataSize := by
  apply UInt16.toNat_inj.1
  simp [dataBlock, MCSPacket.length_dataBytes h]

theorem rawBytes_command {pkt : MCSPacket} {type : MCSType} (htype : pkt.type = type.code)
    (hcommand : type.isCommand = true) :
    rawBytes pkt =
      bytes32 pkt.id ++ [type.code] ++ bytes16 pkt.cmd
        ++ (if pkt.nargs ≠ 0 then pkt.argBytes else [])
        ++ destBytes pkt.dest
        ++ (if pkt.dataSize ≠ 0 then bytes16 pkt.dataSize ++ pkt.dataBytes else []) := by
  cases type with
  | message => simp [rawBytes, htype]
  | state => simp [rawBytes, htype]
  | payload => simp [rawBytes, htype]
  | ok => cases hcommand
  | okData => cases hcommand
  | err => cases hcommand

/-- The arguments are written whole, whether or not there are any. -/
theorem argPart_eq {pkt : MCSPacket} (h : pkt.nargs ≠ 0 → pkt.args.isSome = true) :
    (if pkt.nargs ≠ 0 then pkt.argBytes else []) = pkt.argBytes := by
  by_cases hz : pkt.nargs = 0
  · simp [hz, MCSPacket.argBytes_eq_nil h hz]
  · simp [hz]

/-- The destination as the frame wants it. -/
theorem exists_destField {t : MCSTables} {pkt : MCSPacket} {type : MCSType}
    (htype : pkt.type = type.code) (hshape : ReaderShape t pkt) :
    ∃ dest : Option { d : List UInt8 // d.length ≤ sdbModuleNameSize },
      dest.isSome = t.explicitDest type pkt.cmd ∧
      destBytes pkt.dest = Frame.destField dest ∧
      (dest.map fun d => CString.ofBuffer d.1) = pkt.dest := by
  have hsome : pkt.dest.isSome = t.explicitDest type pkt.cmd := by
    simpa [carriesDest, htype] using hshape.dest
  -- the string has no NUL, so cutting it at the first one changes nothing
  cases hd : pkt.dest with
  | none => exact ⟨none, by simpa [hd] using hsome, rfl, rfl⟩
  | some d =>
      refine ⟨some ⟨d.bytes, hshape.name d hd⟩, by simpa [hd] using hsome, rfl, ?_⟩
      simp [CString.ofBuffer_bytes]

/-- The data as the frame wants them: the writer leaves the field out when there are none, and the
table asks for none then. -/
theorem exists_dataField {pkt : MCSPacket} {raw : Bool} (hraw : raw = true ↔ pkt.dataSize ≠ 0)
    (hdata : pkt.dataSize ≠ 0 → pkt.data.isSome = true) :
    ∃ data : Option Block, data.isSome = raw ∧
      (if pkt.dataSize ≠ 0 then bytes16 pkt.dataSize ++ pkt.dataBytes else []) =
        Frame.dataField data ∧
      Frame.dataSize data = pkt.dataSize ∧
      (data.map Block.bytes).getD [] = pkt.dataBytes := by
  by_cases hz : pkt.dataSize = 0
  · refine ⟨none, ?_, by simp [hz, Frame.dataField], hz.symm, ?_⟩
    · simpa [hz] using hraw
    · simp [MCSPacket.dataBytes_eq_nil hdata hz]
  · refine ⟨some (dataBlock pkt hdata), ?_, ?_, size_dataBlock hdata, rfl⟩
    · simpa using (hraw.2 hz).symm
    · simp only [Frame.dataField, Block.field, size_dataBlock hdata]
      simp [hz, dataBlock]

theorem frame_of_command {t : MCSTables} {pkt : MCSPacket} {type : MCSType}
    (htype : pkt.type = type.code) (hcommand : type.isCommand = true)
    (hsizes : checkCommand t type pkt = true)
    (hargs : pkt.nargs ≠ 0 → pkt.args.isSome = true)
    (hdata : pkt.dataSize ≠ 0 → pkt.data.isSome = true) (hshape : ReaderShape t pkt) :
    ∃ f : Frame, f.Fits t ∧ rawBytes pkt = f.bytes ∧ WireEq pkt f.packet := by
  rcases checkCommand_iff.1 hsizes with ⟨opts, hopts, hnargs, hraw⟩
  have hanswer := isAnswer_of_isCommand htype hcommand
  rcases exists_destField htype hshape with ⟨dest, hdestSome, hdestField, hdestMap⟩
  rcases exists_dataField hraw hdata with ⟨data, hdataSome, hdataField, hdataSize, hdataBytes⟩
  refine ⟨Frame.command pkt.id type pkt.cmd (argBlock pkt hargs) dest data,
    ⟨opts, hopts, (size_argBlock hargs).trans hnargs.symm, hdestSome, hdataSome⟩, ?_, ?_⟩
  · -- field by field, the buffer is the spelling of the frame
    rw [rawBytes_command htype hcommand, argPart_eq hargs, hdestField, hdataField]
    simp [Frame.bytes, Frame.body, Frame.id, argBlock]
  · exact
      { id := rfl
        type := htype.symm
        cmd := by simp [Frame.packet, hanswer]
        nargs := size_argBlock hargs
        args := Block.copy_getD (argBlock pkt hargs)
        dest := hdestMap
        dataSize := hdataSize
        data := hdataBytes }

/-- An answer without arguments and destination has on the wire what the reader leaves of it. -/
theorem wireEq_answerPacket {pkt : MCSPacket} {type : MCSType} {data : Counted}
    (htype : pkt.type = type.code) (hanswer : type.isCommand = false) (hnargs : pkt.nargs = 0)
    (hargs : pkt.argBytes = []) (hdest : pkt.dest = none) (hsize : data.size = pkt.dataSize)
    (hdata : data.block.getD [] = pkt.dataBytes) : WireEq pkt (answerPacket pkt.id type data) where
  id := rfl
  type := htype.symm
  cmd := by simp [isAnswer_of_not_isCommand htype hanswer, answerPacket]
  nargs := hnargs.symm
  args := hargs.symm
  dest := hdest.symm
  dataSize := hsize
  data := hdata

/-- An accepted packet of the reader's shape is written as a fitting frame, and the frame stands
for a packet with the same contents. -/
theorem frame_of_packet {t : MCSTables} {pkt : MCSPacket} (hcheck : checkPacket t pkt = true)
    (hshape : ReaderShape t pkt) :
    ∃ f : Frame, f.Fits t ∧ rawBytes pkt = f.bytes ∧ WireEq pkt f.packet := by
  rcases checkPacket_iff.1 hcheck with ⟨⟨type, htype, hsizes⟩, hargs, hdata⟩
  -- no answer carries a destination
  have hnoDest : t.explicitDest type pkt.cmd = false → pkt.dest = none := by
    intro hfalse
    have hsome : pkt.dest.isSome = false := by
      simpa [carriesDest, htype, hfalse] using hshape.dest
    simpa using hsome
  cases type with
  | message => exact frame_of_command htype rfl hsizes hargs hdata hshape
  | state => exact frame_of_command htype rfl hsizes hargs hdata hshape
  | payload => exact frame_of_command htype rfl hsizes hargs hdata hshape
  | ok =>
      have hsz : pkt.nargs = 0 ∧ pkt.dataSize = 0 := by simpa [checkSizes] using hsizes
      refine ⟨Frame.ok pkt.id, trivial, ?_, ?_⟩
      · simp [rawBytes, htype, Frame.bytes, Frame.body, Frame.id]
      · exact wireEq_answerPacket htype rfl hsz.1 (MCSPacket.argBytes_eq_nil hargs hsz.1)
          (hnoDest rfl) hsz.2.symm (MCSPacket.dataBytes_eq_nil hdata hsz.2).symm
  | okData =>
      have hsz : pkt.nargs = 0 ∧ pkt.dataSize ≠ 0 := by simpa [checkSizes] using hsizes
      refine ⟨Frame.okData pkt.id (dataBlock pkt hdata), trivial, ?_, ?_⟩
      · simp only [Frame.bytes, Frame.body, Frame.id, Block.field, size_dataBlock hdata]
        simp [rawBytes, htype, dataBlock]
      · exact wireEq_answerPacket htype rfl hsz.1 (MCSPacket.argBytes_eq_nil hargs hsz.1)
          (hnoDest rfl) (size_dataBlock hdata) rfl
  | err =>
      have hsz : pkt.nargs = 0 := by simpa [checkSizes] using hsizes
      have hfour : pkt.dataSize = 4 := hshape.err htype
      have hlen : pkt.dataBytes.length = 4 := by
        simp [MCSPacket.length_dataBytes hdata, hfour]
      refine ⟨Frame.err pkt.id ⟨pkt.dataBytes, hlen⟩, trivial, ?_, ?_⟩
      · simp [rawBytes, htype, Frame.bytes, Frame.body, Frame.id]
      · exact wireEq_answerPacket htype rfl hsz (MCSPacket.argBytes_eq_nil hargs hsz)
          (hnoDest rfl) hfour.symm rfl

/-! ## The stream round trip -/

/-- What the fields of an answer share. -/
structure AnswerHeader (pkt : MCSPacket) : Prop where
  cmd : pkt.cmd = 0
  nargs : pkt.nargs = 0
  dest : pkt.dest = none

def FieldsConform (t : MCSTables) (pkt : MCSPacket) : MCSType → Prop
  | .ok => AnswerHeader pkt ∧ pkt.dataSize = 0
  | .okData => AnswerHeader pkt ∧ pkt.dataSize ≠ 0
  | .err => AnswerHeader pkt ∧ pkt.dataSize = 4
  | type =>
      ∃ opts, t.common? type pkt.cmd = some opts ∧
        pkt.nargs = opts.nargs ∧
        (pkt.dataSize ≠ 0 ↔ opts.rawData = true) ∧
        pkt.dest.isSome = t.explicitDest type pkt.cmd ∧
        ∀ d ∈ pkt.dest, d.strlen ≤ sdbModuleNameSize

/-- A packet as the tables describe it, with all the bytes its length fields announce. -/
structure Conforms (t : MCSTables) (pkt : MCSPacket) : Prop where
  args : pkt.argBytes.length = pkt.nargs.toNat
  data : pkt.dataBytes.length = pkt.dataSize.toNat
  fields : ∃ type, pkt.type = MCSType.code type ∧ FieldsConform t pkt type

structure SamePacket (pkt q : MCSPacket) : Prop where
  id : q.id = pkt.id
  type : q.type = pkt.type
  cmd : q.cmd = pkt.cmd
  nargs : q.nargs = pkt.nargs
  args : q.argBytes = pkt.argBytes
  dest : q.dest = pkt.dest
  dataSize : q.dataSize = pkt.dataSize
  data : q.dataBytes = pkt.dataBytes

namespace Conforms

variable {t : MCSTables} {pkt : MCSPacket}

theorem args_isSome (h : Conforms t pkt) (hne : pkt.nargs ≠ 0) : pkt.args.isSome = true := by
  cases hargs : pkt.args with
  | some bs => rfl
  | none =>
      have hz : pkt.nargs.toNat = 0 := by
        simpa [MCSPacket.argBytes, hargs] using h.args.symm
      exact absurd (UInt16.toNat_inj.1 hz) hne

theorem data_isSome (h : Conforms t pkt) (hne : pkt.dataSize ≠ 0) : pkt.data.isSome = true := by
  cases hdata : pkt.data with
  | some bs => rfl
  | none =>
      have hz : pkt.dataSize.toNat = 0 := by
        simpa [MCSPacket.dataBytes, hdata] using h.data.symm
      exact absurd (UInt16.toNat_inj.1 hz) hne

theorem checkPacket_eq_true (h : Conforms t pkt) : checkPacket t pkt = true := by
  rcases h.fields with ⟨type, htype, hfields⟩
  refine checkPacket_iff.2 ⟨⟨type, htype, ?_⟩, h.args_isSome, h.data_isSome⟩
  -- the three kinds of commands are checked against their tables in the same way
  have hcommand : ∀ {type : MCSType}, (∃ opts, t.common? type pkt.cmd = some opts ∧
      pkt.nargs = opts.nargs ∧ (pkt.dataSize ≠ 0 ↔ opts.rawData = true) ∧
      pkt.dest.isSome = t.explicitDest type pkt.cmd ∧
      ∀ d ∈ pkt.dest, d.strlen ≤ sdbModuleNameSize) → checkCommand t type pkt = true := by
    rintro type ⟨opts, hopts, hnargs, hraw, _, _⟩
    exact checkCommand_iff.2 ⟨opts, hopts, hnargs.symm, hraw.symm⟩
  cases type with
  | message => exact hcommand hfields
  | state => exact hcommand hfields
  | payload => exact hcommand hfields
  | ok => simp [checkSizes, hfields.1.nargs, hfields.2]
  | okData => simp [checkSizes, hfields.1.nargs, hfields.2]
  | err => simp [checkSizes, hfields.1.nargs]

theorem readerShape (h : Conforms t pkt) : ReaderShape t pkt := by
  rcases h.fields with ⟨type, htype, hfields⟩
  -- answers carry no destination, whatever their type
  have hanswer : ∀ {type : MCSType}, AnswerHeader pkt → t.explicitDest type pkt.cmd = false →
      pkt.dest.isSome = t.explicitDest type pkt.cmd := by
    intro type hheader hexplicit
    simp [hheader.dest, hexplicit]
  refine ⟨?_, ?_, ?_⟩
  · simp only [carriesDest, htype, MCSType.ofCode?_code]
    cases type with
    | message => exact hfields.choose_spec.2.2.2.1
    | state => exact hfields.choose_spec.2.2.2.1
    | payload => exact hfields.choose_spec.2.2.2.1
    | ok => exact hanswer hfields.1 rfl
    | okData => exact hanswer hfields.1 rfl
    | err => exact hanswer hfields.1 rfl
  · intro d hd
    cases type with
    | message => exact hfields.choose_spec.2.2.2.2 d hd
    | state => exact hfields.choose_spec.2.2.2.2 d hd
    | payload => exact hfields.choose_spec.2.2.2.2 d hd
    | ok => simp [hfields.1.dest] at hd
    | okData => simp [hfields.1.dest] at hd
    | err => simp [hfields.1.dest] at hd
  · intro herr
    have hsame : type = MCSType.err := MCSType.code_injective (htype.symm.trans herr)
    subst hsame
    exact hfields.2

theorem cmd_eq_zero (h : Conforms t pkt) (hanswer : pkt.isAnswer = true) : pkt.cmd = 0 := by
  rcases h.fields with ⟨type, htype, hfields⟩
  cases type with
  | message => simp [MCSPacket.isAnswer, htype, MCSType.code] at hanswer
  | state => simp [MCSPacket.isAnswer, htype, MCSType.code] at hanswer
  | payload => simp [MCSPacket.isAnswer, htype, MCSType.code] at hanswer
  | ok => exact hfields.1.cmd
  | okData => exact hfields.1.cmd
  | err => exact hfields.1.cmd

/-- One packet: writing succeeds, and reading what was written gives the packet back and leaves
what follows it. -/
theorem read_write (h : Conforms t pkt) {rfd : Int} (hrfd : 0 ≤ rfd) (wfd : WriteFd)
    (tail : List UInt8) :
    (mcsWriteCommand t pkt openFd).1 = 0 ∧
      ∃ q, (mcsReadCommand t rfd wfd ((mcsWriteCommand t pkt openFd).2 ++ tail)).pkt = some q ∧
        (mcsReadCommand t rfd wfd ((mcsWriteCommand t pkt openFd).2 ++ tail)).rest = tail ∧
        SamePacket pkt q := by
  have hwrite := mcsWriteCommand_openFd h.checkPacket_eq_true
  rcases frame_of_packet h.checkPacket_eq_true h.readerShape with ⟨f, hfits, hbytes, heq⟩
  have hread := (mcsReadCommand_iff t hrfd wfd (rawBytes pkt ++ tail) tail f.packet).2
    ⟨f, hfits, by rw [hbytes], rfl⟩
  -- the command number of an answer is not on the wire, but it is zero
  have hcmd : f.packet.cmd = pkt.cmd := by
    cases hanswer : pkt.isAnswer with
    | true => simpa [hanswer, h.cmd_eq_zero hanswer] using heq.cmd
    | false => simpa [hanswer] using heq.cmd
  refine ⟨by simp [hwrite], f.packet, by simpa [hwrite] using hread.1,
    by simpa [hwrite] using hread.2, ?_⟩
  exact
    { id := heq.id
      type := heq.type
      cmd := hcmd
      nargs := heq.nargs
      args := heq.args
      dest := heq.dest
      dataSize := heq.dataSize
      data := heq.data }

theorem of_samePacket {q : MCSPacket} (h : Conforms t pkt) (hsame : SamePacket pkt q) :
    Conforms t q := by
  rcases h.fields with ⟨type, htype, hfields⟩
  refine ⟨by rw [hsame.args, hsame.nargs, h.args], by rw [hsame.data, hsame.dataSize, h.data], type,
    hsame.type.trans htype, ?_⟩
  have hheader : AnswerHeader pkt → AnswerHeader q := fun ha =>
    ⟨hsame.cmd.trans ha.cmd, hsame.nargs.trans ha.nargs, hsame.dest.trans ha.dest⟩
  cases type with
  | message =>
      simpa only [FieldsConform, hsame.cmd, hsame.nargs, hsame.dataSize, hsame.dest] using hfields
  | state =>
      simpa only [FieldsConform, hsame.cmd, hsame.nargs, hsame.dataSize, hsame.dest] using hfields
  | payload =>
      simpa only [FieldsConform, hsame.cmd, hsame.nargs, hsame.dataSize, hsame.dest] using hfields
  | ok => exact ⟨hheader hfields.1, hsame.dataSize.trans hfields.2⟩
  | okData => exact ⟨hheader hfields.1, hsame.dataSize ▸ hfields.2⟩
  | err => exact ⟨hheader hfields.1, hsame.dataSize.trans hfields.2⟩

end Conforms

/-- The bytes of a list of packets, one after the other. -/
def written (t : MCSTables) (pkts : List MCSPacket) : List UInt8 :=
  pkts.flatMap fun pkt => (mcsWriteCommand t pkt openFd).2

/-- `n` calls of `mcs_read_command` in a row: their results and the bytes left. -/
def readMany (t : MCSTables) (rfd : Int) (wfd : WriteFd) :
    Nat → List UInt8 → List (Option MCSPacket) × List UInt8
  | 0, s => ([], s)
  | n + 1, s =>
      let r := mcsReadCommand t rfd wfd s
      let later := readMany t rfd wfd n r.rest
      (r.pkt :: later.1, later.2)

/-- The stream round trip: what is written for a list of conforming packets is read back as the
same packets in the same order, and the bytes after them stay unread. -/
theorem readMany_written (t : MCSTables) {rfd : Int} (hrfd : 0 ≤ rfd) (wfd : WriteFd)
    (pkts : List MCSPacket) (hconf : ∀ pkt ∈ pkts, Conforms t pkt) (tail : List UInt8) :
    (∀ pkt ∈ pkts, (mcsWriteCommand t pkt openFd).1 = 0) ∧
      ∃ qs : List MCSPacket,
        readMany t rfd wfd pkts.length (written t pkts ++ tail) = (qs.map some, tail) ∧
          List.Forall₂ SamePacket pkts qs := by
  refine ⟨fun pkt hpkt => ((hconf pkt hpkt).read_write hrfd wfd []).1, ?_⟩
  -- the first call takes the first packet and leaves the bytes of the others, and so on
  induction pkts with
  | nil => exact ⟨[], rfl, List.Forall₂.nil⟩
  | cons pkt pkts ih =>
      rcases ih (fun q hq => hconf q (List.mem_cons_of_mem _ hq)) with ⟨qs, hqs, hsame⟩
      rcases (hconf pkt (by simp)).read_write hrfd wfd (written t pkts ++ tail) with
        ⟨_, q, hq, hrest, hsame₁⟩
      refine ⟨q :: qs, ?_, List.Forall₂.cons hsame₁ hsame⟩
      have hsplit : written t (pkt :: pkts) ++ tail =
          (mcsWriteCommand t pkt openFd).2 ++ (written t pkts ++ tail) := by
        simp [written]
      simp only [List.length_cons, readMany, hsplit, hq, hrest, hqs, List.map_cons]

/-- A `test` message for the module `app2`, and the answer to it. -/
def testExchange : List MCSPacket :=
  [rawPacket 7 0 (some ⟨[97, 112, 112, 50], by simp⟩) emptyBlock emptyBlock, mcsOkPacketId 7]

theorem readMany_written_testExchange :
    (∀ pkt ∈ testExchange, Conforms commandSet pkt) ∧
      ∃ qs : List MCSPacket,
        readMany commandSet 3 openFd 2 (written commandSet testExchange ++ [9]) =
            (qs.map some, [9]) ∧
          List.Forall₂ SamePacket testExchange qs := by
  have hconf : ∀ pkt ∈ testExchange, Conforms commandSet pkt := by
    intro pkt hpkt
    rcases List.mem_pair.1 hpkt with rfl | rfl
    · refine ⟨rfl, rfl, .message, rfl, testMessage.cmd, rfl, rfl, by decide, rfl, ?_⟩
      intro d hd
      cases hd
      decide
    · exact ⟨rfl, rfl, .ok, rfl, ⟨rfl, rfl, rfl⟩, rfl⟩
  exact ⟨hconf, (readMany_written commandSet (by decide) openFd testExchange hconf [9]).2⟩

end MCS
end AbsPlatform

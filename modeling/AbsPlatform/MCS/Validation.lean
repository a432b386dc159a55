import AbsPlatform.MCS.RoundTrip

/-!
# Validation — the checks of the reader against those of the writer

`read_check_config` and `check_packet` are two readings of the same tables, and neither implies the
other.

* The reader takes frames the writer refuses (no data where the tables ask for some) or shortens
  (a NUL inside the destination): `mcsWriteCommand_of_read_iff` says exactly when a packet that has
  been read is written back byte for byte.
* `check_packet` never looks at the destination, nor at the size of an error code:
  `decodable_iff_arguments` says exactly which packets that pass it can be read.
-/

namespace AbsPlatform
namespace MCS

open Lib

/-! ## Writing back what has been read -/

/-- No NUL inside the destination, and no empty data field. -/
def Frame.Clean : Frame → Prop
  | .command _ _ _ _ dest data =>
      (∀ d ∈ dest, ∀ b ∈ d.1, b ≠ 0) ∧ ∀ block ∈ data, block.bytes ≠ []
  | .okData _ data => data.bytes ≠ []
  | _ => True

/-- The destination a frame's packet writes back is the one of the frame exactly when it has
no NUL. -/
theorem destBytes_map_ofBuffer_iff
    (dest : Option { d : List UInt8 // d.length ≤ sdbModuleNameSize }) :
    destBytes (dest.map fun d => CString.ofBuffer d.1) = Frame.destField dest ↔
      ∀ d ∈ dest, ∀ b ∈ d.1, b ≠ 0 := by
  cases dest with
  | none => simp [destBytes, Frame.destField]
  | some d =>
      constructor
      · intro h d' hd'
        cases hd'
        -- behind the length byte there is the string, which ends at the first NUL
        have htail : (CString.ofBuffer d.1).bytes = d.1 := (List.cons.inj h).2
        exact CString.ofBuffer_bytes_eq_iff.1 htail
      · intro h
        have hself : (CString.ofBuffer d.1).bytes = d.1 := CString.ofBuffer_eq_self (h d rfl)
        simp [destBytes, Frame.destField, CString.strlen, hself]

theorem dataPart_eq_dataField {data : Option Block} (h : ∀ block ∈ data, block.bytes ≠ []) :
    (if Frame.dataSize data ≠ 0 then
        bytes16 (Frame.dataSize data) ++ (data.map Block.bytes).getD [] else []) =
      Frame.dataField data := by
  cases data with
  | none => simp [Frame.dataSize, Frame.dataField]
  | some block =>
      have hne : block.size ≠ 0 := fun hz => h block rfl (Block.size_eq_zero_iff.1 hz)
      simp [Frame.dataSize, Frame.dataField, Block.field, hne]

/-- The bytes of a command frame's packet, with the destination still to be compared. -/
theorem rawBytes_packet_command {id : UInt32} {type : MCSType} {cmd : UInt16} {args : Block}
    {dest : Option { d : List UInt8 // d.length ≤ sdbModuleNameSize }} {data : Option Block}
    (hcommand : type.isCommand = true) (hdata : ∀ block ∈ data, block.bytes ≠ []) :
    rawBytes (Frame.command id type cmd args dest data).packet =
      bytes32 id ++ type.code :: (bytes16 cmd ++ (args.bytes ++
        (destBytes (dest.map fun d => CString.ofBuffer d.1) ++ Frame.dataField data))) := by
  have hargs : (if args.size ≠ 0 then args.copy.getD [] else []) = args.bytes := by
    by_cases hz : args.size = 0
    · simp [hz, Block.size_eq_zero_iff.1 hz]
    · simp [hz, Block.copy_getD]
  have htype : (Frame.command id type cmd args dest data).packet.type = type.code := rfl
  calc
    rawBytes (Frame.command id type cmd args dest data).packet
        = bytes32 id ++ [type.code] ++ bytes16 cmd
            ++ (if args.size ≠ 0 then args.copy.getD [] else [])
            ++ destBytes (dest.map fun d => CString.ofBuffer d.1)
            ++ (if Frame.dataSize data ≠ 0 then
                  bytes16 (Frame.dataSize data) ++ (data.map Block.bytes).getD [] else []) :=
          rawBytes_command htype hcommand
    _ = _ := by
          rw [hargs, dataPart_eq_dataField hdata]
          simp

/-- The packet of a frame passes `check_packet` only if the frame has no empty data field. -/
theorem data_ne_nil_of_checkPacket {t : MCSTables} {id : UInt32} {type : MCSType} {cmd : UInt16}
    {args : Block} {dest : Option { d : List UInt8 // d.length ≤ sdbModuleNameSize }}
    {data : Option Block} (hfits : (Frame.command id type cmd args dest data).Fits t)
    (hcheck : checkPacket t (Frame.command id type cmd args dest data).packet = true) :
    ∀ block ∈ data, block.bytes ≠ [] := by
  intro block hblock hnil
  cases hblock
  rcases hfits with ⟨opts, hopts, _, _, hraw⟩
  rcases checkPacket_iff.1 hcheck with ⟨⟨type', htype', hsizes⟩, _, _⟩
  have hsame : type = type' := MCSType.code_injective htype'
  subst hsame
  rw [checkSizes_of_isCommand (MCSTables.isCommand_of_common? hopts)] at hsizes
  rcases checkCommand_iff.1 hsizes with ⟨opts', hopts', _, hiff⟩
  -- a data field means raw data in the table, for which the check wants some bytes
  have hopt : opts = opts' := Option.some.inj (hopts.symm.trans hopts')
  have hne : block.size ≠ 0 := hiff.1 (by rw [← hopt]; exact hraw.symm)
  exact hne (Block.size_eq_zero_iff.2 hnil)

theorem checkPacket_packet_command {t : MCSTables} {id : UInt32} {type : MCSType} {cmd : UInt16}
    {args : Block} {dest : Option { d : List UInt8 // d.length ≤ sdbModuleNameSize }}
    {data : Option Block} (hfits : (Frame.command id type cmd args dest data).Fits t)
    (hdata : ∀ block ∈ data, block.bytes ≠ []) :
    checkPacket t (Frame.command id type cmd args dest data).packet = true := by
  rcases hfits with ⟨opts, hopts, hnargs, _, hraw⟩
  have hcommand : checkCommand t type (Frame.command id type cmd args dest data).packet = true := by
    refine checkCommand_iff.2 ⟨opts, hopts, hnargs.symm, ?_⟩
    -- the size is zero exactly when there is no data field, since none of them is empty
    cases data with
    | none => simp [← hraw, Frame.packet, Frame.dataSize]
    | some block =>
        have hne : block.size ≠ 0 := fun hz => hdata block rfl (Block.size_eq_zero_iff.1 hz)
        simpa [← hraw, Frame.packet, Frame.dataSize] using hne
  refine checkPacket_iff.2 ⟨⟨type, rfl, ?_⟩, ?_, ?_⟩
  · rw [checkSizes_of_isCommand (MCSTables.isCommand_of_common? hopts)]
    exact hcommand
  · intro hne
    have hne' : args.size ≠ 0 := hne
    simp [Frame.packet, Block.copy, hne']
  · intro hne
    cases data with
    | none => exact absurd rfl hne
    | some block => rfl

/-- A return value of 0 means that the check was passed and the whole buffer went out. -/
theorem mcsWriteCommand_eq_iff {t : MCSTables} {pkt : MCSPacket} {s : List UInt8} :
    mcsWriteCommand t pkt openFd = (0, s) ↔ checkPacket t pkt = true ∧ rawBytes pkt = s := by
  cases hcheck : checkPacket t pkt with
  | false => simp [mcsWriteCommand_refused openFd hcheck, eundef]
  | true => simp [mcsWriteCommand_openFd hcheck]

/-- `check_packet` wants data in an `OK_DATA`, and the reader does not. -/
theorem checkPacket_packet_okData_iff {t : MCSTables} {id : UInt32} {data : Block} :
    checkPacket t (Frame.okData id data).packet = true ↔ data.bytes ≠ [] := by
  rw [Ne, ← Block.size_eq_zero_iff]
  by_cases hz : data.size = 0
  · simp [checkPacket, checkSizes, Frame.packet, answerPacket, hz]
  · simp [checkPacket, checkSizes, checkPointer, Frame.packet, answerPacket, hz]

/-- A packet that has been read from a frame is written back as that frame exactly when the frame
is clean. -/
theorem mcsWriteCommand_packet_iff {t : MCSTables} {f : Frame} (hfits : f.Fits t) :
    mcsWriteCommand t f.packet openFd = (0, f.bytes) ↔ f.Clean := by
  rw [mcsWriteCommand_eq_iff]
  cases f with
  | command id type cmd args dest data =>
      have hcommand : type.isCommand = true := type_isCommand_of_fits hfits
      -- everything but the destination is the same on both sides
      have hraw : (∀ block ∈ data, block.bytes ≠ []) →
          (rawBytes (Frame.command id type cmd args dest data).packet =
              (Frame.command id type cmd args dest data).bytes ↔
            ∀ d ∈ dest, ∀ b ∈ d.1, b ≠ 0) := by
        intro hdata
        rw [rawBytes_packet_command hcommand hdata, ← destBytes_map_ofBuffer_iff dest]
        simp [Frame.bytes, Frame.body, Frame.id]
      constructor
      · rintro ⟨hcheck, hbytes⟩
        have hdata := data_ne_nil_of_checkPacket hfits hcheck
        exact ⟨(hraw hdata).1 hbytes, hdata⟩
      · rintro ⟨hdest, hdata⟩
        exact ⟨checkPacket_packet_command hfits hdata, (hraw hdata).2 hdest⟩
  | err id code =>
      refine iff_of_true ⟨rfl, ?_⟩ trivial
      simp [rawBytes, Frame.packet, answerPacket, Frame.bytes, Frame.body, Frame.id,
        MCSPacket.dataBytes]
  | okData id data =>
      rw [checkPacket_packet_okData_iff]
      refine and_iff_left ?_
      simp [rawBytes, Frame.packet, answerPacket, Frame.bytes, Frame.body, Frame.id,
        MCSPacket.dataBytes, Block.field]
  | ok id =>
      refine iff_of_true ⟨rfl, ?_⟩ trivial
      simp [rawBytes, Frame.packet, answerPacket, Frame.bytes, Frame.body, Frame.id]

/-- When `mcs_read_command` has returned a packet for the bytes `s`, `mcs_write_command` on that
packet succeeds and emits exactly `s` if and only if `s` is a frame with a NUL-free destination
field and without an empty data field. -/
theorem mcsWriteCommand_of_read_iff (t : MCSTables) {rfd : Int} (hrfd : 0 ≤ rfd) (wfd : WriteFd)
    (s rest : List UInt8) (pkt : MCSPacket)
    (hpkt : (mcsReadCommand t rfd wfd (s ++ rest)).pkt = some pkt)
    (hrest : (mcsReadCommand t rfd wfd (s ++ rest)).rest = rest) :
    mcsWriteCommand t pkt openFd = (0, s) ↔ ∃ f : Frame, f.Fits t ∧ f.bytes = s ∧ f.Clean := by
  rcases (mcsReadCommand_iff t hrfd wfd (s ++ rest) rest pkt).1 ⟨hpkt, hrest⟩ with
    ⟨f, hfits, hs, rfl⟩
  -- the bytes that were consumed are one frame
  have hs' : s = f.bytes := List.append_cancel_right hs
  subst hs'
  constructor
  · intro h
    exact ⟨f, hfits, rfl, (mcsWriteCommand_packet_iff hfits).1 h⟩
  · rintro ⟨g, hg, hbytes, hclean⟩
    -- another frame with these bytes stands for the same packet
    have hsame : g.packet = f.packet :=
      (Frame.packet_eq_of_bytes hg hfits (congrArg (· ++ []) hbytes)).1
    rw [← hsame, ← hbytes]
    exact (mcsWriteCommand_packet_iff hg).2 hclean

/-- A message with an argument and raw data, for a destination that the packet names. -/
def noteMessage : MCSCommandOptionsMessage where
  cmd := { nargs := 1, rawData := true, responseSize := 0 }
  destination := some argDestination
  originGroups := anyGroup
  destinationGroups := anyGroup

def noteTables : MCSTables := { messages := [noteMessage], states := [], payloads := [] }

/-- Argument 5 and the data `"AB"` for `"procman"`. -/
def noteFrame : Frame :=
  .command 7 .message 0 ⟨[5], by decide⟩ (some ⟨procmanName.bytes, by decide⟩)
    (some ⟨[65, 66], by decide⟩)

/-- The message is read with its destination and its data, and written back as it came. -/
theorem mcsWriteCommand_of_read_note :
    ∃ pkt, (mcsReadCommand noteTables 3 openFd (noteFrame.bytes ++ [1])).pkt = some pkt ∧
      pkt.dest = some procmanName ∧ pkt.data = some [65, 66] ∧
      mcsWriteCommand noteTables pkt openFd = (0, noteFrame.bytes) := by
  have hfits : noteFrame.Fits noteTables := ⟨noteMessage.cmd, rfl, rfl, rfl, rfl⟩
  have hclean : noteFrame.Clean := by simp [noteFrame, Frame.Clean, procmanName]
  refine ⟨_, rfl, rfl, rfl, ?_⟩
  exact (mcsWriteCommand_of_read_iff noteTables (show (0 : Int) ≤ 3 by decide) openFd
    noteFrame.bytes [1] _ rfl rfl).2 ⟨noteFrame, hfits, rfl, hclean⟩

/-- A handshake with an empty data field is read whole, and refused when it is written back. -/
theorem mcsWriteCommand_of_read_emptyHandshake :
    ∃ pkt, (mcsReadCommand commandSet 3 openFd ([7, 0, 0, 0, 0, 1, 0, 0, 0] ++ [])).pkt = some pkt ∧
      (mcsReadCommand commandSet 3 openFd ([7, 0, 0, 0, 0, 1, 0, 0, 0] ++ [])).rest = [] ∧
      mcsWriteCommand commandSet pkt openFd ≠ (0, [7, 0, 0, 0, 0, 1, 0, 0, 0]) := by
  refine ⟨_, rfl, rfl, ?_⟩
  decide

/-! ## Reading what has been checked -/

/-- The reader of the same tables gives the packet back from the bytes written for it, and leaves
whatever follows. -/
def Decodable (t : MCSTables) (pkt : MCSPacket) : Prop :=
  ∀ (rfd : Int) (wfd : WriteFd) (tail : List UInt8), 0 ≤ rfd →
    ∃ q, (mcsReadCommand t rfd wfd ((mcsWriteCommand t pkt openFd).2 ++ tail)).pkt = some q ∧
      (mcsReadCommand t rfd wfd ((mcsWriteCommand t pkt openFd).2 ++ tail)).rest = tail ∧
      WireEq pkt q

theorem decodable_of_readerShape {t : MCSTables} {pkt : MCSPacket}
    (hcheck : checkPacket t pkt = true) (hshape : ReaderShape t pkt) : Decodable t pkt := by
  intro rfd wfd tail hrfd
  rcases frame_of_packet hcheck hshape with ⟨f, hfits, hbytes, heq⟩
  have hread := (mcsReadCommand_iff t hrfd wfd (rawBytes pkt ++ tail) tail f.packet).2
    ⟨f, hfits, by rw [hbytes], rfl⟩
  refine ⟨f.packet, ?_, ?_, heq⟩
  · simpa [mcsWriteCommand_openFd hcheck] using hread.1
  · simpa [mcsWriteCommand_openFd hcheck] using hread.2

/-- An answer without a destination has the reader's shape if an error has its code. -/
theorem readerShape_of_answer {t : MCSTables} {pkt : MCSPacket} (type : MCSType)
    (htype : pkt.type = type.code) (hdest : pkt.dest = none)
    (hanswer : t.explicitDest type pkt.cmd = false)
    (herr : type = .err → pkt.dataSize = 4) : ReaderShape t pkt where
  dest := by simp [hdest, carriesDest, htype, hanswer]
  name := by simp [hdest]
  err h := herr (MCSType.code_injective (htype.symm.trans h))

/-- Whatever agrees with the packet of a fitting frame has the reader's shape. -/
theorem readerShape_of_wireEq {t : MCSTables} {pkt : MCSPacket} {f : Frame} (hfits : f.Fits t)
    (heq : WireEq pkt f.packet) : ReaderShape t pkt := by
  cases f with
  | command id type cmd args dest data =>
      have hcommand : type.isCommand = true := type_isCommand_of_fits hfits
      have htype : pkt.type = type.code := heq.type.symm
      have hanswer := isAnswer_of_isCommand htype hcommand
      have hcmd : cmd = pkt.cmd := by simpa [hanswer, Frame.packet] using heq.cmd
      have hdest : pkt.dest = dest.map fun d => CString.ofBuffer d.1 := heq.dest.symm
      rcases hfits with ⟨opts, _, _, hsome, _⟩
      refine ⟨?_, ?_, ?_⟩
      · simp [hdest, carriesDest, htype, ← hcmd, hsome]
      · intro d hd
        rw [hdest] at hd
        -- cutting at a NUL does not make a name longer
        rcases Option.map_eq_some_iff.1 hd with ⟨name, _, rfl⟩
        exact Nat.le_trans (CString.strlen_ofBuffer_le name.1) name.2
      · intro herr
        have hsame : type = MCSType.err := MCSType.code_injective (htype.symm.trans herr)
        simp [hsame, MCSType.isCommand] at hcommand
  | err id code =>
      exact readerShape_of_answer .err heq.type.symm heq.dest.symm rfl
        fun _ => heq.dataSize.symm
  | okData id data =>
      exact readerShape_of_answer .okData heq.type.symm heq.dest.symm rfl
        fun herr => absurd herr (by decide)
  | ok id =>
      exact readerShape_of_answer .ok heq.type.symm heq.dest.symm rfl
        fun herr => absurd herr (by decide)

theorem decodable_iff_readerShape {t : MCSTables} {pkt : MCSPacket}
    (hcheck : checkPacket t pkt = true) : Decodable t pkt ↔ ReaderShape t pkt := by
  constructor
  · intro h
    -- the packet that is read comes from a frame, and agrees with the one written
    rcases h 0 openFd [] (Int.le_refl 0) with ⟨q, hq, hrest, heq⟩
    rcases (mcsReadCommand_iff t (Int.le_refl 0) openFd _ [] q).1 ⟨hq, hrest⟩ with
      ⟨f, hfits, _, rfl⟩
    exact readerShape_of_wireEq hfits heq
  · exact decodable_of_readerShape hcheck

/-- Which packets can be read again, in terms of what the callers pass in: the constructors' and
`check_packet`'s own tests leave exactly these conditions open. -/
theorem decodable_iff_arguments (t : MCSTables) :
    (∀ random cmd args data pkt, mcsCreatePacket t random cmd args data = some pkt →
      (Decodable t pkt ↔ carriesDest t (commandType cmd) (commandNumber cmd) = false)) ∧
    (∀ random cmd dest args data pkt,
      mcsCreatePacketWithDest t random cmd dest args data = some pkt →
      (Decodable t pkt ↔
        dest.isSome = carriesDest t (commandType cmd) (commandNumber cmd) ∧
          ∀ d ∈ dest, d.strlen ≤ sdbModuleNameSize)) ∧
    (∀ pkt, checkPacket t pkt = true →
      (Decodable t pkt ↔
        pkt.dest.isSome = carriesDest t pkt.type pkt.cmd ∧
          (∀ d ∈ pkt.dest, d.strlen ≤ sdbModuleNameSize) ∧
          (pkt.type = MCSType.err.code → pkt.dataSize = 4))) := by
  refine ⟨?_, ?_, ?_⟩
  · intro random cmd args data pkt hcreate
    simp only [mcsCreatePacket, Option.ite_none_right_eq_some, Option.some.injEq] at hcreate
    rcases hcreate with ⟨hcheck, rfl⟩
    rw [decodable_iff_readerShape hcheck]
    constructor
    · intro h
      exact h.dest.symm
    · intro h
      exact ⟨h.symm, by simp [rawPacket], fun herr => absurd herr (commandType_ne_err cmd)⟩
  · intro random cmd dest args data pkt hcreate
    simp only [mcsCreatePacketWithDest, Option.ite_none_right_eq_some, Option.some.injEq] at hcreate
    rcases hcreate with ⟨hcheck, rfl⟩
    rw [decodable_iff_readerShape hcheck]
    constructor
    · intro h
      exact ⟨h.dest, h.name⟩
    · rintro ⟨hdest, hname⟩
      exact ⟨hdest, hname, fun herr => absurd herr (commandType_ne_err cmd)⟩
  · intro pkt hcheck
    rw [decodable_iff_readerShape hcheck]
    constructor
    · intro h
      exact ⟨h.dest, h.name, h.err⟩
    · rintro ⟨hdest, hname, herr⟩
      exact ⟨hdest, hname, herr⟩

theorem decodable_iff_arguments_test :
    mcsCreatePacketWithDest commandSet 7 0 (some procmanName) emptyBlock emptyBlock =
        some (rawPacket 7 0 (some procmanName) emptyBlock emptyBlock) ∧
      Decodable commandSet (rawPacket 7 0 (some procmanName) emptyBlock emptyBlock) := by
  refine ⟨rfl, ((decodable_iff_arguments commandSet).2.1 7 0 (some procmanName) emptyBlock
    emptyBlock _ rfl).2 ⟨rfl, ?_⟩⟩
  intro d hd
  cases hd
  decide

/-- `mcs_create_packet` makes a `test` message without the destination its entry asks for, and the
reader cannot make anything of it. -/
theorem not_decodable_testPacket :
    ∃ pkt, mcsCreatePacket commandSet 7 0 emptyBlock emptyBlock = some pkt ∧
      pkt.dest = none ∧ ¬ Decodable commandSet pkt := by
  refine ⟨_, rfl, rfl, ?_⟩
  intro h
  rcases h 0 openFd [] (Int.le_refl 0) with ⟨q, hq, _⟩
  cases hq

end MCS
end AbsPlatform

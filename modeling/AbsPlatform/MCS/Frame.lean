import AbsPlatform.MCS.Codec

/-!
# Frame — the wire format of a packet

The format the documentation of the command system describes, stated without the code: a `Frame`
is what is on the wire for one packet, `Frame.bytes` its spelling, and `Frame.Fits` says that the
fields are the ones the tables ask for.  The main result is `mcsReadCommand_iff`: the reader
returns a packet exactly when a fitting frame is at the head of the stream, and takes that frame.
-/

namespace AbsPlatform
namespace MCS

open Lib

/-- One packet on the wire.  A destination has at most `SDB_MODULE_NAME_SIZE` bytes, any bytes. -/
inductive Frame
  | command (id : UInt32) (type : MCSType) (cmd : UInt16) (args : Block)
      (dest : Option { d : List UInt8 // d.length ≤ sdbModuleNameSize }) (data : Option Block)
  | err (id : UInt32) (code : { c : List UInt8 // c.length = 4 })
  | okData (id : UInt32) (data : Block)
  | ok (id : UInt32)

/-- A size field and the bytes it counts. -/
def Block.field (b : Block) : List UInt8 := bytes16 b.size ++ b.bytes

namespace Frame

def id : Frame → UInt32
  | command id .. => id
  | err id _ => id
  | okData id _ => id
  | ok id => id

def destField : Option { d : List UInt8 // d.length ≤ sdbModuleNameSize } → List UInt8
  | some d => UInt8.ofNat d.1.length :: d.1
  | none => []

def dataField : Option Block → List UInt8
  | some b => b.field
  | none => []

/-- Everything after the identifier. -/
def body : Frame → List UInt8
  | command _ type cmd args dest data =>
      type.code :: (bytes16 cmd ++ (args.bytes ++ (destField dest ++ dataField data)))
  | err _ code => MCSType.err.code :: code.1
  | okData _ data => MCSType.okData.code :: data.field
  | ok _ => [MCSType.ok.code]

def bytes (f : Frame) : List UInt8 := bytes32 f.id ++ f.body

/-- What the first byte of the body says. -/
def type : Frame → MCSType
  | command _ type .. => type
  | err .. => .err
  | okData .. => .okData
  | ok _ => .ok

theorem exists_body (f : Frame) : ∃ b, f.body = f.type.code :: b := by
  cases f <;> exact ⟨_, rfl⟩

theorem type_of_body (f : Frame) {type : MCSType} {b : List UInt8}
    (h : f.body = type.code :: b) : f.type = type := by
  rcases f.exists_body with ⟨b', hb'⟩
  exact MCSType.code_injective (List.cons.inj (hb'.symm.trans h)).1

/-- The fields are the ones the tables ask for. -/
def Fits (t : MCSTables) : Frame → Prop
  | command _ type cmd args dest data =>
      ∃ opts, t.common? type cmd = some opts ∧
        args.size = opts.nargs ∧
        dest.isSome = t.explicitDest type cmd ∧
        data.isSome = opts.rawData
  | _ => True

def dataSize : Option Block → UInt16
  | some b => b.size
  | none => 0

theorem length_of_mem_map_bytes {data : Option Block} {bs : List UInt8}
    (h : bs ∈ data.map Block.bytes) : bs.length = (dataSize data).toNat := by
  cases data with
  | none => cases h
  | some b =>
      cases h
      simp [dataSize]

/-- The packet a frame stands for.  The destination is a C string from here on. -/
def packet : Frame → MCSPacket
  | command id type cmd args dest data =>
      { id := id
        type := type.code
        cmd := cmd
        nargs := args.size
        args := args.copy
        dest := dest.map fun d => CString.ofBuffer d.1
        dataSize := dataSize data
        data := data.map Block.bytes
        args_len := fun _ h => Block.length_of_mem_copy h
        data_len := fun _ h => length_of_mem_map_bytes h }
  | err id code => answerPacket id .err ⟨4, some code.1, by simpa using code.2⟩
  | okData id data => answerPacket id .okData ⟨data.size, some data.bytes, by simp⟩
  | ok id => answerPacket id .ok (Counted.null 0)

end Frame

/-! ## The readers of the fields -/

theorem absRead_recognises (n : Nat) :
    ByteReader.Recognises (absRead n) (fun b v => b = v.1) := by
  induction n with
  | zero =>
      intro s v rest
      have hv : v = ⟨[], rfl⟩ := Subtype.ext (List.length_eq_zero_iff.1 v.2)
      subst hv
      constructor
      · intro h
        have h' : s = rest := congrArg Prod.snd h
        exact ⟨[], by simpa using h', rfl⟩
      · rintro ⟨b, rfl, rfl⟩
        rfl
  | succ n ih =>
      intro s v rest
      rcases v with ⟨vs, hvs⟩
      cases s with
      | nil =>
          constructor
          · intro h
            exact absurd (congrArg Prod.fst h) (by simp [absRead])
          · rintro ⟨b, hb, rfl⟩
            have hnil : b = [] := (List.append_eq_nil_iff.1 hb.symm).1
            simp [hnil] at hvs
      | cons c s =>
          cases vs with
          | nil => simp at hvs
          | cons v vs =>
              -- one byte, and then what the induction hypothesis says about the others
              have hvs' : vs.length = n := by simpa using hvs
              constructor
              · intro h
                simp only [absRead] at h
                rcases hread : absRead n s with ⟨_ | bs, r⟩
                · rw [hread] at h
                  simp at h
                · rw [hread] at h
                  rcases (ih s bs r).1 hread with ⟨b, rfl, rfl⟩
                  have h₁ : c = v ∧ bs.1 = vs := by simpa using (Prod.mk.inj h).1
                  have h₂ : r = rest := (Prod.mk.inj h).2
                  refine ⟨v :: vs, ?_, rfl⟩
                  simp [h₁.1, h₁.2, h₂]
              · rintro ⟨b, hb, rfl⟩
                have hcs : c = v ∧ s = vs ++ rest := by simpa using hb
                have hread : absRead n s = (some ⟨vs, hvs'⟩, rest) :=
                  (ih s ⟨vs, hvs'⟩ rest).2 ⟨vs, hcs.2, rfl⟩
                simp [absRead, hread, hcs.1]

/-- Reading one byte. -/
theorem absRead_one_recognises :
    ByteReader.Recognises (absRead 1) (fun b v => ∃ c, b = [c] ∧ v.1 = [c]) := by
  refine (absRead_recognises 1).congr ?_
  intro b v
  constructor
  · rintro rfl
    rcases List.length_eq_one_iff.1 v.2 with ⟨c, hc⟩
    exact ⟨c, hc, hc⟩
  · rintro ⟨c, rfl, hv⟩
    exact hv.symm

theorem readArgs_recognises (nargs : UInt16) :
    ByteReader.Recognises (readArgs nargs)
      (fun b v => ∃ args : Block, b = args.bytes ∧ args.size = nargs ∧
        v.size = args.size ∧ v.block = args.copy) := by
  have hblock := (absRead_recognises nargs.toNat).bind
    (fun bs => ByteReader.Recognises.ret (Counted.read bs))
  refine (ByteReader.Recognises.ite (fun _ => hblock) (fun _ =>
    ByteReader.Recognises.ret (Counted.null 0))).congr ?_
  intro b v
  constructor
  · rintro (⟨hne, b₁, a, b₂, rfl, rfl, rfl, rfl⟩ | ⟨hz, rfl, rfl⟩)
    · -- as many bytes as the table says make a block
      have hshort : a.1.length < 2 ^ 16 := by
        rw [a.2]
        exact nargs.toNat_lt
      have hsize : (Block.mk a.1 hshort).size = nargs := by
        apply UInt16.toNat_inj.1
        simp [a.2]
      refine ⟨⟨a.1, hshort⟩, by simp, hsize, hsize.symm, ?_⟩
      simp [Block.copy, hsize, hne, Counted.read]
    · -- without arguments nothing is read, and the pointer stays NULL
      have hz' : nargs = 0 := by simpa using hz
      subst hz'
      exact ⟨⟨[], by simp⟩, rfl, rfl, rfl, rfl⟩
  · rintro ⟨args, rfl, rfl, hv, hblock⟩
    -- an empty block is not read at all
    by_cases hz : args.size = 0
    · refine Or.inr ⟨by simpa using hz, ?_, ?_⟩
      · have hlen : args.bytes.length = 0 := by
          simpa [hz] using (Block.toNat_size args).symm
        exact List.length_eq_zero_iff.1 hlen
      · have hnull : v.block = none := by simpa [Block.copy, hz] using hblock
        exact Counted.ext (hv.trans hz) hnull
    · refine Or.inl ⟨hz, args.bytes, ⟨args.bytes, by simp⟩, [], by simp, rfl, rfl, ?_⟩
      have hsome : v.block = some args.bytes := by simpa [Block.copy, hz] using hblock
      exact Counted.ext hv hsome

theorem readDest_recognises :
    ByteReader.Recognises readDest
      (fun b v => ∃ d : { d : List UInt8 // d.length ≤ sdbModuleNameSize },
        b = Frame.destField (some d) ∧ v = some (CString.ofBuffer d.1)) := by
  refine (absRead_one_recognises.bind (fun size =>
    ByteReader.Recognises.ite (fun _ => ByteReader.Recognises.fail) (fun _ =>
      (absRead_recognises (size.1.headD 0).toNat).bind (fun bs =>
        ByteReader.Recognises.ret (some (CString.ofBuffer bs.1)))))).congr ?_
  intro b v
  constructor
  · rintro ⟨b₁, size, b₂, rfl, ⟨c, rfl, hsize⟩, ⟨_, h⟩ | ⟨hle, b₃, bs, b₄, rfl, rfl, rfl, rfl⟩⟩
    · exact h.elim
    · -- the length byte is at most 10, so it is the length
      have hc : bs.1.length = c.toNat := by simpa [hsize] using bs.2
      have hname : bs.1.length ≤ sdbModuleNameSize := by
        rw [bs.2]
        exact Nat.le_of_not_lt hle
      refine ⟨⟨bs.1, hname⟩, ?_, rfl⟩
      simp [Frame.destField, hc]
  · rintro ⟨d, rfl, rfl⟩
    -- the other way round, a name of at most 10 bytes has its length in one byte
    have hlen : d.1.length < 2 ^ 8 := Nat.lt_of_le_of_lt d.2 (by decide)
    have hc : (UInt8.ofNat d.1.length).toNat = d.1.length := by
      simpa using Nat.mod_eq_of_lt hlen
    refine ⟨[UInt8.ofNat d.1.length], ⟨[UInt8.ofNat d.1.length], rfl⟩, d.1, rfl, ⟨_, rfl, rfl⟩,
      Or.inr ⟨?_, ?_⟩⟩
    · simpa [hc] using d.2
    · exact ⟨d.1, ⟨d.1, by simp [hc]⟩, [], by simp, rfl, rfl, rfl⟩

theorem readData_recognises :
    ByteReader.Recognises readData
      (fun b v => ∃ data : Block, b = data.field ∧
        v.size = data.size ∧ v.block = some data.bytes) := by
  refine ((absRead_recognises 2).bind (fun size =>
    (absRead_recognises (word16 size.1).toNat).bind (fun bs =>
      ByteReader.Recognises.ret (Counted.read bs)))).congr ?_
  intro b v
  constructor
  · rintro ⟨b₁, size, b₂, rfl, rfl, b₃, bs, b₄, rfl, rfl, rfl, rfl⟩
    have hshort : bs.1.length < 2 ^ 16 := by
      rw [bs.2]
      exact (word16 size.1).toNat_lt
    have hsize : (Block.mk bs.1 hshort).size = word16 size.1 := by
      apply UInt16.toNat_inj.1
      simp [bs.2]
    refine ⟨⟨bs.1, hshort⟩, ?_, hsize.symm, rfl⟩
    simp [Block.field, hsize, bytes16_word16 size.2]
  · rintro ⟨data, rfl, hsize, hblock⟩
    refine ⟨bytes16 data.size, ⟨bytes16 data.size, by simp⟩, data.bytes, rfl, rfl,
      data.bytes, ⟨data.bytes, by simp⟩, [], by simp, rfl, rfl, ?_⟩
    exact Counted.ext (by simpa [Counted.read] using hsize) hblock

/-! ## The readers of packets -/

/-- The grammar of the part of a command after its number. -/
def CommandTail (t : MCSTables) (id : UInt32) (type : MCSType) (cmd : UInt16) (b : List UInt8)
    (v : MCSPacket) : Prop :=
  ∃ args dest data, (Frame.command id type cmd args dest data).Fits t ∧
    b = args.bytes ++ (Frame.destField dest ++ Frame.dataField data) ∧
    v = (Frame.command id type cmd args dest data).packet

theorem readDestIf_recognises (explicit : Bool) :
    ByteReader.Recognises (readDestIf explicit)
      (fun b v => ∃ dest, dest.isSome = explicit ∧ b = Frame.destField dest ∧
        v = dest.map fun d => CString.ofBuffer d.1) := by
  cases explicit with
  | true =>
      refine readDest_recognises.congr ?_
      intro b v
      constructor
      · rintro ⟨d, rfl, rfl⟩
        exact ⟨some d, rfl, rfl, rfl⟩
      · rintro ⟨dest, hdest, rfl, rfl⟩
        rcases Option.isSome_iff_exists.1 hdest with ⟨d, rfl⟩
        exact ⟨d, rfl, rfl⟩
  | false =>
      refine (ByteReader.Recognises.ret none).congr ?_
      intro b v
      constructor
      · rintro ⟨rfl, rfl⟩
        exact ⟨none, rfl, rfl, rfl⟩
      · rintro ⟨dest, hdest, rfl, rfl⟩
        have hnone : dest = none := by simpa using hdest
        subst hnone
        exact ⟨rfl, rfl⟩

theorem readDataIf_recognises (raw : Bool) :
    ByteReader.Recognises (readDataIf raw)
      (fun b v => ∃ data, data.isSome = raw ∧ b = Frame.dataField data ∧
        v.size = Frame.dataSize data ∧ v.block = data.map Block.bytes) := by
  cases raw with
  | true =>
      refine readData_recognises.congr ?_
      intro b v
      constructor
      · rintro ⟨data, rfl, hsize, hblock⟩
        exact ⟨some data, rfl, rfl, hsize, hblock⟩
      · rintro ⟨data, hdata, rfl, hsize, hblock⟩
        rcases Option.isSome_iff_exists.1 hdata with ⟨d, rfl⟩
        exact ⟨d, rfl, hsize, hblock⟩
  | false =>
      refine (ByteReader.Recognises.ret (Counted.null 0)).congr ?_
      intro b v
      constructor
      · rintro ⟨rfl, rfl⟩
        exact ⟨none, rfl, rfl, rfl, rfl⟩
      · rintro ⟨data, hdata, rfl, hsize, hblock⟩
        have hnone : data = none := by simpa using hdata
        subst hnone
        exact ⟨rfl, Counted.ext hsize hblock⟩

theorem readCheckConfig_recognises (t : MCSTables) (id : UInt32) (type : MCSType) (cmd : UInt16) :
    ByteReader.Recognises (readCheckConfig t id type cmd) (CommandTail t id type cmd) := by
  unfold readCheckConfig
  cases hopts : t.common? type cmd with
  | none =>
      refine ByteReader.Recognises.fail.congr ?_
      intro b v
      constructor
      · exact False.elim
      · rintro ⟨args, dest, data, ⟨opts, hsome, _⟩, _⟩
        simp [hopts] at hsome
  | some opts =>
      -- the three fields one after the other, each with its own grammar
      refine ((readArgs_recognises opts.nargs).bind (fun args =>
        (readDestIf_recognises (t.explicitDest type cmd)).bind (fun dest =>
          (readDataIf_recognises opts.rawData).bind (fun data =>
            ByteReader.Recognises.ret _)))).congr ?_
      intro b v
      constructor
      · rintro ⟨_, args, _, rfl, ⟨args', rfl, hnargs, hsize, hargs⟩, _, dest, _, rfl,
          ⟨dest', hdest, rfl, rfl⟩, _, data, _, rfl, ⟨data', hdata, rfl, hds, hdb⟩, rfl, rfl⟩
        refine ⟨args', dest', data', ⟨opts, hopts, hnargs, hdest, hdata⟩, by simp, ?_⟩
        simp [Frame.packet, hsize, hargs, hds, hdb]
      · rintro ⟨args, dest, data, ⟨opts', hopts', hnargs, hdest, hdata⟩, rfl, rfl⟩
        -- the frame fits the entry that the reader has looked up
        have hsame : opts = opts' := Option.some.inj (hopts.symm.trans hopts')
        subst hsame
        refine ⟨_, ⟨args.size, args.copy, fun _ h => Block.length_of_mem_copy h⟩, _, rfl,
          ⟨args, rfl, hnargs, rfl, rfl⟩, _, _, _, rfl, ⟨dest, hdest, rfl, rfl⟩, _,
          ⟨Frame.dataSize data, data.map Block.bytes, fun _ h => Frame.length_of_mem_map_bytes h⟩,
          [], by simp, ⟨data, hdata, rfl, rfl, rfl⟩, rfl, rfl⟩

/-- What may follow a type byte. -/
def TypedBody (t : MCSTables) (id : UInt32) (type : MCSType) (b : List UInt8) (v : MCSPacket) :
    Prop :=
  ∃ f : Frame, f.Fits t ∧ f.id = id ∧ f.body = type.code :: b ∧ v = f.packet

theorem readCommand_recognises (t : MCSTables) (id : UInt32) {type : MCSType}
    (htype : type.isCommand = true) :
    ByteReader.Recognises (absRead 2 >>= fun cmd => readCheckConfig t id type (word16 cmd.1))
      (TypedBody t id type) := by
  refine ((absRead_recognises 2).bind (fun cmd =>
    readCheckConfig_recognises t id type (word16 cmd.1))).congr ?_
  intro b v
  constructor
  · rintro ⟨_, cmd, _, rfl, rfl, args, dest, data, hfits, rfl, rfl⟩
    refine ⟨_, hfits, rfl, ?_, rfl⟩
    simp [Frame.body, bytes16_word16 cmd.2]
  · rintro ⟨f, hfits, rfl, hbody, rfl⟩
    -- the type byte tells that the frame is a command of this type
    have hcode := f.type_of_body hbody
    cases f with
    | command id' type' cmd args dest data =>
        cases hcode
        refine ⟨bytes16 cmd, ⟨bytes16 cmd, by simp⟩, _, (List.cons.inj hbody).2.symm, rfl, args,
          dest, data, ?_⟩
        simpa [Frame.id, Frame.type] using hfits
    | err _ code =>
        cases hcode
        cases htype
    | okData _ data =>
        cases hcode
        cases htype
    | ok _ =>
        cases hcode
        cases htype

/-- Only the types of commands have a table. -/
theorem type_isCommand_of_fits {t : MCSTables} {id : UInt32} {type : MCSType} {cmd : UInt16}
    {args : Block} {dest : Option { d : List UInt8 // d.length ≤ sdbModuleNameSize }}
    {data : Option Block} (h : (Frame.command id type cmd args dest data).Fits t) :
    type.isCommand = true := by
  rcases h with ⟨opts, hopts, _⟩
  exact MCSTables.isCommand_of_common? hopts

section Answers

variable {t : MCSTables} {f : Frame}

theorem Frame.eq_ok (hfits : f.Fits t) (htype : f.type = .ok) : ∃ id, f = .ok id := by
  cases f with
  | command id type cmd args dest data =>
      cases htype
      exact absurd (type_isCommand_of_fits hfits) (by decide)
  | err id code => cases htype
  | okData id data => cases htype
  | ok id => exact ⟨id, rfl⟩

theorem Frame.eq_okData (hfits : f.Fits t) (htype : f.type = .okData) :
    ∃ id data, f = .okData id data := by
  cases f with
  | command id type cmd args dest data =>
      cases htype
      exact absurd (type_isCommand_of_fits hfits) (by decide)
  | err id code => cases htype
  | okData id data => exact ⟨id, data, rfl⟩
  | ok id => cases htype

theorem Frame.eq_err (hfits : f.Fits t) (htype : f.type = .err) : ∃ id code, f = .err id code := by
  cases f with
  | command id type cmd args dest data =>
      cases htype
      exact absurd (type_isCommand_of_fits hfits) (by decide)
  | err id code => exact ⟨id, code, rfl⟩
  | okData id data => cases htype
  | ok id => cases htype

end Answers

theorem readTyped_recognises (t : MCSTables) (id : UInt32) (type : MCSType) :
    ByteReader.Recognises (readTyped t id (some type)) (TypedBody t id type) := by
  cases type with
  | message => exact readCommand_recognises t id rfl
  | state => exact readCommand_recognises t id rfl
  | payload => exact readCommand_recognises t id rfl
  | ok =>
      refine (ByteReader.Recognises.ret (answerPacket id .ok (Counted.null 0))).congr ?_
      intro b v
      constructor
      · rintro ⟨rfl, rfl⟩
        exact ⟨Frame.ok id, trivial, rfl, rfl, rfl⟩
      · rintro ⟨f, hfits, rfl, hbody, rfl⟩
        rcases Frame.eq_ok hfits (f.type_of_body hbody) with ⟨id, rfl⟩
        exact ⟨(List.cons.inj hbody).2.symm, rfl⟩
  | okData =>
      refine (readData_recognises.bind (fun data =>
        ByteReader.Recognises.ret (answerPacket id .okData data))).congr ?_
      intro b v
      constructor
      · rintro ⟨_, data, _, rfl, ⟨data', rfl, hsize, hblock⟩, rfl, rfl⟩
        refine ⟨Frame.okData id data', trivial, rfl, by simp [Frame.body], ?_⟩
        simp [Frame.packet, answerPacket, hsize, hblock]
      · rintro ⟨f, hfits, rfl, hbody, rfl⟩
        rcases Frame.eq_okData hfits (f.type_of_body hbody) with ⟨id, data, rfl⟩
        refine ⟨data.field, ⟨data.size, some data.bytes, by simp⟩, [], ?_,
          ⟨data, rfl, rfl, rfl⟩, rfl, rfl⟩
        simpa using (List.cons.inj hbody).2.symm
  | err =>
      refine ((absRead_recognises (4 : UInt16).toNat).bind (fun code =>
        ByteReader.Recognises.ret (answerPacket id .err (Counted.read code)))).congr ?_
      intro b v
      constructor
      · rintro ⟨_, code, _, rfl, rfl, rfl, rfl⟩
        exact ⟨Frame.err id ⟨code.1, code.2⟩, trivial, rfl, by simp [Frame.body], rfl⟩
      · rintro ⟨f, hfits, rfl, hbody, rfl⟩
        rcases Frame.eq_err hfits (f.type_of_body hbody) with ⟨id, code, rfl⟩
        refine ⟨code.1, ⟨code.1, code.2⟩, [], ?_, rfl, rfl, rfl⟩
        simpa using (List.cons.inj hbody).2.symm

theorem readBody_recognises (t : MCSTables) (id : UInt32) :
    ByteReader.Recognises (readBody t id)
      (fun b v => ∃ f : Frame, f.Fits t ∧ f.id = id ∧ f.body = b ∧ v = f.packet) := by
  -- the `switch`: an unknown type byte fails, and every other one has its own grammar
  have hrest : ∀ byte : { bs : List UInt8 // bs.length = 1 },
      ByteReader.Recognises (readTyped t id (MCSType.ofCode? (byte.1.headD 0)))
        (fun b v => ∃ type, MCSType.ofCode? (byte.1.headD 0) = some type ∧
          TypedBody t id type b v) := by
    intro byte
    cases htype : MCSType.ofCode? (byte.1.headD 0) with
    | none =>
        refine ByteReader.Recognises.fail.congr ?_
        simp
    | some type =>
        refine (readTyped_recognises t id type).congr ?_
        simp
  refine (absRead_one_recognises.bind hrest).congr ?_
  intro b v
  constructor
  · rintro ⟨_, byte, _, rfl, ⟨c, rfl, hbyte⟩, type, htype, f, hfits, hid, hbody, rfl⟩
    refine ⟨f, hfits, hid, ?_, rfl⟩
    have hc : type.code = c := MCSType.code_of_ofCode? (by simpa [hbyte] using htype)
    simp [hbody, hc]
  · rintro ⟨f, hfits, hid, rfl, rfl⟩
    rcases f.exists_body with ⟨b, hb⟩
    exact ⟨[f.type.code], ⟨[f.type.code], rfl⟩, b, hb, ⟨_, rfl, rfl⟩, f.type, by simp, f, hfits,
      hid, hb, rfl⟩

/-- `mcs_read_command` returns a packet exactly when a fitting frame is at the head of the stream;
it takes that frame and leaves the rest. -/
theorem mcsReadCommand_iff (t : MCSTables) {rfd : Int} (hrfd : 0 ≤ rfd) (wfd : WriteFd)
    (s rest : List UInt8) (pkt : MCSPacket) :
    ((mcsReadCommand t rfd wfd s).pkt = some pkt ∧ (mcsReadCommand t rfd wfd s).rest = rest) ↔
      ∃ f : Frame, f.Fits t ∧ s = f.bytes ++ rest ∧ pkt = f.packet := by
  have hnonneg : ¬ rfd < 0 := Int.not_lt.2 hrfd
  constructor
  · intro h
    simp only [mcsReadCommand, if_neg hnonneg] at h
    -- without an identifier, or with a body that fails, no packet is returned
    rcases hid : absRead 4 s with ⟨_ | idBytes, mid⟩
    · simp [hid] at h
    · rcases (absRead_recognises 4 s idBytes mid).1 hid with ⟨b, rfl, rfl⟩
      rcases hbody : readBody t (word32 idBytes.1) mid with ⟨_ | q, rest'⟩
      · simp [hid, hbody] at h
      · have hq : q = pkt ∧ rest' = rest := by simpa [hid, hbody] using h
        rcases (readBody_recognises t _ mid q rest').1 hbody with ⟨_, rfl, f, hfits, hfid, rfl, hp⟩
        refine ⟨f, hfits, ?_, hq.1.symm.trans hp⟩
        simp [Frame.bytes, hfid, bytes32_word32 idBytes.2, hq.2]
  · rintro ⟨f, hfits, rfl, rfl⟩
    -- the identifier is read, and then the body of the frame
    have hid : absRead 4 (f.bytes ++ rest) = (some ⟨bytes32 f.id, by simp⟩, f.body ++ rest) :=
      (absRead_recognises 4 _ _ _).2 ⟨bytes32 f.id, by simp [Frame.bytes], rfl⟩
    have hbody : readBody t f.id (f.body ++ rest) = (some f.packet, rest) :=
      (readBody_recognises t f.id _ _ _).2 ⟨f.body, rfl, f, hfits, rfl, rfl, rfl⟩
    simp [mcsReadCommand, if_neg hnonneg, hid, hbody]

/-- The streams from which a packet is read. -/
theorem isSome_mcsReadCommand_iff (t : MCSTables) {rfd : Int} (hrfd : 0 ≤ rfd) (wfd : WriteFd)
    (s : List UInt8) :
    (mcsReadCommand t rfd wfd s).pkt.isSome = true ↔ ∃ f : Frame, f.Fits t ∧ f.bytes <+: s := by
  constructor
  · intro h
    rcases Option.isSome_iff_exists.1 h with ⟨pkt, hpkt⟩
    rcases (mcsReadCommand_iff t hrfd wfd s _ pkt).1 ⟨hpkt, rfl⟩ with ⟨f, hfits, hs, _⟩
    exact ⟨f, hfits, _, hs.symm⟩
  · rintro ⟨f, hfits, rest, hs⟩
    have hpkt := ((mcsReadCommand_iff t hrfd wfd s rest f.packet).2 ⟨f, hfits, hs.symm, rfl⟩).1
    simp [hpkt]

/-- Fitting frames are told apart by their bytes: no stream starts with two of them that stand for
different packets or end at different places. -/
theorem Frame.packet_eq_of_bytes {t : MCSTables} {f g : Frame} (hf : f.Fits t) (hg : g.Fits t)
    {r₁ r₂ : List UInt8} (h : f.bytes ++ r₁ = g.bytes ++ r₂) : f.packet = g.packet ∧ r₁ = r₂ := by
  have e₁ := (mcsReadCommand_iff t (Int.le_refl 0) openFd _ r₁ f.packet).2 ⟨f, hf, rfl, rfl⟩
  have e₂ := (mcsReadCommand_iff t (Int.le_refl 0) openFd _ r₂ g.packet).2 ⟨g, hg, h, rfl⟩
  exact ⟨Option.some.inj (e₁.1.symm.trans e₂.1), e₁.2.symm.trans e₂.2⟩

/-! ## Rejections -/

/-- The error with this code. -/
def Frame.error (id : UInt32) (code : Int) : Frame := .err id ⟨intBytes code, by simp [intBytes]⟩

/-- The answer to a packet that cannot be read. -/
def Frame.badFormat (id : UInt32) : Frame := .error id ebadformat

theorem rawBytes_mcsErrPacketId (id : UInt32) (code : Int) :
    rawBytes (mcsErrPacketId id code) = (Frame.error id code).bytes := by
  simp [rawBytes, mcsErrPacketId, MCSPacket.dataBytes, Frame.error, Frame.bytes, Frame.body,
    Frame.id]

theorem rawBytes_mcsOkPacketId (id : UInt32) :
    rawBytes (mcsOkPacketId id) = (Frame.ok id).bytes := by
  simp [rawBytes, mcsOkPacketId, Frame.bytes, Frame.body, Frame.id]

/-- Enough bytes for a field are a field. -/
theorem absRead_of_le {n : Nat} {s : List UInt8} (h : n ≤ s.length) :
    absRead n s = (some ⟨s.take n, List.length_take_of_le h⟩, s.drop n) :=
  (absRead_recognises n _ _ _).2 ⟨s.take n, (List.take_append_drop n s).symm, rfl⟩

theorem absRead_of_lt {n : Nat} {s : List UInt8} (h : s.length < n) : (absRead n s).1 = none := by
  rcases hread : absRead n s with ⟨_ | bs, rest⟩
  · rfl
  · rcases (absRead_recognises n _ _ _).1 hread with ⟨b, rfl, rfl⟩
    have hlen := bs.2
    simp at h
    omega

/-- When no packet is returned, one error goes out if there was an identifier to put in it. -/
theorem mcsReadCommand_reply (t : MCSTables) (rfd : Nat) (wfd : WriteFd) (s : List UInt8)
    (h : (mcsReadCommand t rfd wfd s).pkt = none) :
    (mcsReadCommand t rfd wfd s).reply =
      if 4 ≤ s.length then (absWrite wfd (Frame.badFormat (word32 (s.take 4))).bytes).2
      else [] := by
  have hnonneg : ¬ (rfd : Int) < 0 := by omega
  by_cases hid : 4 ≤ s.length
  · simp only [mcsReadCommand, if_neg hnonneg, absRead_of_le hid] at h ⊢
    rcases hbody : readBody t (word32 (s.take 4)) (s.drop 4) with ⟨_ | pkt, rest⟩
    · rw [if_pos hid, Frame.badFormat, ← rawBytes_mcsErrPacketId]
      exact mcsWriteCommand_sent wfd (checkPacket_mcsErrPacketId t _ _)
    · simp [hbody] at h
  · have hnone : (absRead 4 s).1 = none := absRead_of_lt (by omega)
    rcases hread : absRead 4 s with ⟨_ | bs, rest⟩
    · simp [mcsReadCommand, if_neg hnonneg, hread, hid]
    · simp [hread] at hnone

/-- Nothing is answered to a packet that was read. -/
theorem mcsReadCommand_no_reply (t : MCSTables) (rfd : Nat) (wfd : WriteFd) (s : List UInt8)
    {pkt : MCSPacket} (h : (mcsReadCommand t rfd wfd s).pkt = some pkt) :
    (mcsReadCommand t rfd wfd s).reply = [] := by
  have hnonneg : ¬ (rfd : Int) < 0 := by omega
  simp only [mcsReadCommand, if_neg hnonneg] at h ⊢
  rcases hid : absRead 4 s with ⟨_ | idBytes, mid⟩
  · rfl
  · rcases hbody : readBody t (word32 idBytes.1) mid with ⟨_ | q, rest⟩
    · simp [hid, hbody] at h
    · simp [hbody]

/-- The reader returns a packet exactly for the streams that start with a frame and takes that
frame; for any other stream it returns NULL and reports it once, if it knows whom to answer: one
error frame, as far as the descriptor takes it, and the whole of it when that is open. -/
theorem mcsReadCommand_accepts_frames (t : MCSTables) (rfd : Nat) (wfd : WriteFd)
    (s : List UInt8) :
    ((mcsReadCommand t rfd wfd s).pkt.isSome = true ↔ ∃ f : Frame, f.Fits t ∧ f.bytes <+: s) ∧
    (∀ pkt, (mcsReadCommand t rfd wfd s).pkt = some pkt →
      (mcsReadCommand t rfd wfd s).reply = [] ∧
      ∃ f : Frame, f.Fits t ∧ s = f.bytes ++ (mcsReadCommand t rfd wfd s).rest ∧
        pkt = f.packet) ∧
    ((mcsReadCommand t rfd wfd s).pkt = none →
      (mcsReadCommand t rfd wfd s).reply =
        if 4 ≤ s.length then (absWrite wfd (Frame.badFormat (word32 (s.take 4))).bytes).2
        else []) ∧
    (wfd = openFd → (mcsReadCommand t rfd wfd s).pkt = none →
      (mcsReadCommand t rfd wfd s).reply =
        if 4 ≤ s.length then (Frame.badFormat (word32 (s.take 4))).bytes else []) := by
  have hrfd : (0 : Int) ≤ rfd := Int.natCast_nonneg rfd
  refine ⟨isSome_mcsReadCommand_iff t hrfd wfd s, ?_, mcsReadCommand_reply t rfd wfd s, ?_⟩
  · intro pkt hpkt
    exact ⟨mcsReadCommand_no_reply t rfd wfd s hpkt,
      (mcsReadCommand_iff t hrfd wfd s _ pkt).1 ⟨hpkt, rfl⟩⟩
  · rintro rfl hnone
    rw [mcsReadCommand_reply t rfd openFd s hnone, absWrite_openFd]

/-- A type that there is not: the answer has the identifier 7 and the code of `EBADFORMAT`. -/
theorem mcsReadCommand_accepts_frames_unknownType :
    (mcsReadCommand ⟨[], [], []⟩ (3 : Nat) openFd [7, 0, 0, 0, 9]).pkt = none ∧
      (mcsReadCommand ⟨[], [], []⟩ (3 : Nat) openFd [7, 0, 0, 0, 9]).reply =
        [7, 0, 0, 0, 255] ++ intBytes ebadformat :=
  ⟨rfl, (mcsReadCommand_accepts_frames ⟨[], [], []⟩ 3 openFd [7, 0, 0, 0, 9]).2.2.2 rfl rfl⟩

end MCS
end AbsPlatform

import AbsPlatform.MCSG.Translator
import AbsPlatform.SDB.States
import AbsPlatform.Lib.Separated

/-!
# StatePath — the size of a state from the configuration to the answer

The configuration gives a state its dimensions and the type of each of them.  The generator prints
a `response_size` for it, and `process_pkt_state` takes as many bytes of what the request function
returns; a size of -1 stands for a string.
-/

namespace AbsPlatform
namespace MCSG

open MCS SDB

/-! ## Configuration -/

inductive ReturnType
  | int
  | float
  | string
  deriving DecidableEq

/-- `"int"`, `"float"` and `"string"`. -/
def ReturnType.name : ReturnType → CString
  | int => CString.ofBuffer [105, 110, 116]
  | float => CString.ofBuffer [102, 108, 111, 97, 116]
  | string => CString.ofBuffer [115, 116, 114, 105, 110, 103]

/-- A state of the configuration. -/
structure StateConfig where
  name : CString
  /-- `none` for `null`, here and below -/
  description : Option CString
  nargs : Nat
  rawData : Bool
  updateFunction : CString
  dimensions : Nat
  returnType : ReturnType
  unit : Option CString
  dimensionName : Option CString
  expireGroup : List (CString × Int)
  dimensions_pos : 1 ≤ dimensions

/-- The item cJSON makes of a state. -/
def StateConfig.item (c : StateConfig) : CJSON :=
  .parseObject none
    [.parseString none c.name, optionalString c.description, .parseNumber none c.nargs,
      .parseBool none c.rawData, .parseString none (typeName .state),
      .parseObject none
        [.parseString none c.updateFunction, .parseNumber none c.dimensions,
          .parseString none c.returnType.name, optionalString c.unit,
          optionalString c.dimensionName,
          .parseArray none (c.expireGroup.map fun (group, expire) =>
            .parseObject none [.parseNumber (some group) expire])]]

/-! ## The generator -/

/-- The number in the line `.response_size`, which is printed before the unit. -/
def emittedResponseSize (json : CJSON) : Option Int := do
  let (_, _, _, config) ← commonFields json
  let dimensions := (← config[1]?).valueint
  let returnType ← (← config[2]?).valuestring
  some (dimensions * returnSize returnType)

/-- It is the one of the entry, if the generator gets to its end. -/
theorem emittedResponseSize_of_translator {json : CJSON} {init : StateInit}
    (h : mcsgStateTranslator json = some init) :
    emittedResponseSize json = some init.cmd.responseSize := by
  simp only [mcsgStateTranslator, Option.bind_eq_bind, Option.bind_eq_some_iff] at h
  rcases h with ⟨common, hcommon, dimensions, hdimensions, item, hitem, returnType, hreturn, _, _,
    request, _, _, _, unit, _, dimensionName, _, h⟩
  have hsize : init.cmd.responseSize = dimensions.valueint * returnSize returnType := by
    -- what is printed after the size does not change it
    split_ifs at h
    · simp only [Option.bind_some, Option.bind_eq_some_iff] at h
      rcases h with ⟨_, _, _, _, hinit⟩
      cases hinit
      rfl
    · simp only [Option.bind_eq_some_iff] at h
      rcases h with ⟨_, _, _, _, _, _, hinit⟩
      cases hinit
      rfl
  simp [emittedResponseSize, hcommon, hdimensions, hitem, hreturn, hsize]

/-- The size is printed after the description, which is given to `fprintf` as it is. -/
theorem emittedResponseSize_item (c : StateConfig) :
    emittedResponseSize c.item =
      c.description.map fun _ => c.dimensions * returnSize c.returnType.name := by
  rcases c with ⟨name, description⟩
  cases description <;> rfl

/-! ## The answer -/

/-- What the request function returns for a state of `d` dimensions, and the part of it that the
answer has to carry. -/
def ReturnType.Gives (d : Nat) (block answer : List UInt8) : ReturnType → Prop
  | int => block.length = d * 4 ∧ answer = block
  | float => block.length = d * 8 ∧ answer = block
  | string => ∃ (s : CString) (rest : List UInt8),
      block = s.bytes ++ 0 :: rest ∧ answer = s.bytes ++ [0]

/-- The answer fits in a packet, and a string has one dimension. -/
def ReturnType.Fits (d : Nat) (answer : List UInt8) : ReturnType → Prop
  | int => d * 4 ≤ 65535
  | float => d * 8 ≤ 65535
  | string => d = 1 ∧ answer.length ≤ 65535

theorem responseData_of_length {n : Nat} {block : List UInt8} (hn : 0 < n)
    (hlen : block.length = n) : responseData n (some block) = .ok block := by
  subst hlen
  have hneg : ¬ (block.length : Int) = -1 := by omega
  have hzero : ¬ (block.length : Int) = 0 := by omega
  have hsize : 0 < (block.length : Int) ∧ (block.length : Int) ≤ block.length := by omega
  rw [responseData, if_neg hneg, if_neg hzero]
  simp only [if_pos hsize, Int.toNat_natCast, List.take_length]

theorem responseData_string (s : CString) (rest : List UInt8) :
    responseData (-1) (some (s.bytes ++ 0 :: rest)) = .ok (s.bytes ++ [0]) := by
  have hmem : (0 : UInt8) ∈ s.bytes ++ 0 :: rest := by simp
  have hstring : (CString.ofBuffer (s.bytes ++ 0 :: rest)).bytes = s.bytes :=
    Lib.takeWhile_append_cons fun hmem => s.noNul 0 hmem rfl
  have hcut : (s.bytes ++ 0 :: rest).take (s.bytes.length + 1) = s.bytes ++ [0] := by
    rw [show s.bytes ++ 0 :: rest = (s.bytes ++ [0]) ++ rest by simp]
    exact List.take_left' (by simp)
  simp only [responseData, if_true, if_pos hmem, CString.strlen, hstring, hcut]

/-- A negative size is given to `malloc` and `memcpy`. -/
theorem responseData_of_neg {n : Int} (hn : n < -1) (block : List UInt8) :
    responseData n (some block) = .error .fault := by
  have hneg : ¬ n = -1 := by omega
  have hzero : ¬ n = 0 := by omega
  have hsize : ¬ (0 < n ∧ n ≤ block.length) := by omega
  rw [responseData, if_neg hneg, if_neg hzero]
  simp only [if_neg hsize]

theorem not_answersData_of_error {cfg : SDBConfig} {me : Nat} {pkt : MCSPacket} {s : Bus}
    {entry : MCSCommandOptionsState} {e : Stuck} {data : List UInt8}
    (hentry : cfg.tables.states[pkt.cmd.toNat]? = some entry)
    (herror : responseData entry.cmd.responseSize (entry.request pkt) = .error e) :
    ¬ AnswersData cfg me pkt s data := by
  rintro ⟨answer, ⟨s', hs', _⟩, _⟩
  simp [processPktState, hentry, expireRefused_eq, herror, bind, Except.bind] at hs'

/-- The answer to a state request carries exactly what its type calls for when it fits in a packet;
of strings, only a single one does. -/
theorem state_size_iff (c : StateConfig) (cfg : SDBConfig) (me : Nat) (pkt : MCSPacket) (s : Bus)
    (entry : MCSCommandOptionsState) (block answer : List UInt8)
    (hentry : cfg.tables.states[pkt.cmd.toNat]? = some entry)
    (hsize : emittedResponseSize c.item = some entry.cmd.responseSize)
    (hblock : entry.request pkt = some block)
    (hgives : c.returnType.Gives c.dimensions block answer) :
    AnswersData cfg me pkt s answer ↔ c.returnType.Fits c.dimensions answer := by
  have hpos := c.dimensions_pos
  rw [emittedResponseSize_item] at hsize
  rcases Option.map_eq_some_iff.1 hsize with ⟨_, _, hsize⟩
  -- a fixed number of bytes for each dimension
  have hfixed : ∀ n : Nat, 0 < n → returnSize c.returnType.name = n →
      block.length = c.dimensions * n → answer = block →
      (AnswersData cfg me pkt s answer ↔ c.dimensions * n ≤ 65535) := by
    rintro n hn hreturn hlen rfl
    have hcount : 0 < c.dimensions * n := Nat.mul_pos hpos hn
    have hdata : responseData entry.cmd.responseSize (entry.request pkt) = .ok answer := by
      rw [hblock, ← hsize, hreturn]
      exact_mod_cast responseData_of_length hcount hlen
    rw [answersData_iff hentry hdata, ← List.length_pos_iff, hlen]
    exact and_iff_right hcount
  cases htype : c.returnType with
  | int =>
      rw [htype] at hgives
      exact hfixed 4 (by decide) (by rw [htype]; decide) hgives.1 hgives.2
  | float =>
      rw [htype] at hgives
      exact hfixed 8 (by decide) (by rw [htype]; decide) hgives.1 hgives.2
  | string =>
      rw [htype] at hgives hsize
      rcases hgives with ⟨string, rest, rfl, rfl⟩
      have hminus : returnSize ReturnType.string.name = -1 := by decide
      rw [hminus] at hsize
      dsimp only [ReturnType.Fits]
      by_cases hone : c.dimensions = 1
      · have hdata : responseData entry.cmd.responseSize (entry.request pkt) =
            .ok (string.bytes ++ [0]) := by
          rw [hblock, ← hsize, hone]
          exact responseData_string string rest
        rw [answersData_iff hentry hdata]
        simp [hone]
      · have herror : responseData entry.cmd.responseSize (entry.request pkt) = .error .fault := by
          rw [hblock]
          exact responseData_of_neg (by omega) _
        exact iff_of_false (not_answersData_of_error hentry herror) fun h => hone h.1

/-- A state whose value has this many dimensions of a type. -/
def plainState (dimensions : Nat) (returnType : ReturnType) (hpos : 1 ≤ dimensions) :
    StateConfig where
  name := CString.ofBuffer [116]
  description := some (CString.ofBuffer [])
  nargs := 1
  rawData := false
  updateFunction := CString.ofBuffer [102]
  dimensions := dimensions
  returnType := returnType
  unit := some (CString.ofBuffer [75])
  dimensionName := none
  expireGroup := []
  dimensions_pos := hpos

theorem temperature_size :
    AnswersData (temperatureConfig .lp64) 0 (temperatureRequest 20) oneApplication eightBytes :=
  (state_size_iff (plainState 1 .float (by decide)) (temperatureConfig .lp64) 0
    (temperatureRequest 20) oneApplication _ eightBytes eightBytes rfl rfl rfl ⟨rfl, rfl⟩).2
    (by decide : 1 * 8 ≤ 65535)

/-- A state with a given size whose function returns the string `"ab"`. -/
def stringTables (responseSize : Int) : MCSTables where
  messages := []
  states :=
    [{ cmd := { nargs := 1, rawData := false, responseSize := responseSize }
       request := fun _ => some [97, 98, 0]
       expireGroup := appExpire.array }]
  payloads := []

/-- The size for two strings is -2, which no branch of the bus takes for a string. -/
theorem two_strings_fault :
    emittedResponseSize (plainState 2 .string (by decide)).item = some (-2) ∧
      processPktState { shippedConfig .lp64 with tables := stringTables (-2) } 0
        (temperatureRequest 20) oneApplication = .error .fault :=
  ⟨rfl, rfl⟩

end MCSG
end AbsPlatform

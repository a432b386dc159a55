import Mathlib.Tactic.SplitIfs
import AbsPlatform.Arduino.Assets

/-!
# Hdlc — reception over the radio

`hdlc_rx` of `Arduino/comms/hdlc.cpp`, which `Comms::rx` calls.  The FIFO of the
transceiver is a list of register pairs; when the list is at its end the function does not return.
The block with the answer is where an uninitialised pointer happens to lead: what may be written
there is an argument, and a write behind it is a fault.

In C the comparisons bind more tightly than `&`, so each test of the source has the form
`control & (comparison)`.
-/

namespace AbsPlatform
namespace Arduino

/-! ## The FIFO -/

/-- What one read of `FIFOCTRL` and one of `FIFODATA` give. -/
structure FifoPair where
  control : UInt8
  data : UInt8
  deriving DecidableEq

/-- A bit of the control register. -/
def FifoPair.flag (p : FifoPair) (n : Nat) : Bool := p.control.toBitVec.getLsbD n

/-! ## hdlc_rx -/

/-- `bit(n)`, an `unsigned long`. -/
def bit (n : Nat) : BitVec 32 := 1 <<< n

/-- The value of a comparison. -/
def comparison (p : Prop) [Decidable p] : CInt := if p then 1 else 0

/-- A write through the pointer. -/
def store (memory : List UInt8) (i : Nat) (value : UInt8) : Option (List UInt8) :=
  if i < memory.length then some (memory.set i value) else none

/-- The search for the delimiter; the pair that ends it is not looked at again. -/
def searchDelimiter : List FifoPair → Option (List FifoPair)
  | [] => none
  | p :: fifo =>
      if cint p.control &&& comparison (bit 1 ||| bit 0 ≠ 0x01) ≠ 0 then searchDelimiter fifo
      else some fifo

def receivePacket (memory : List UInt8) (i : Nat) : List FifoPair → Option (List UInt8)
  | [] => none
  | p :: fifo =>
      if cint p.control &&& comparison (bit 0 = bit 0) ≠ 0 then store memory 0 2
      else if cint p.control &&& comparison (bit 1 = bit 1) ≠ 0 then
        if cint p.data &&& comparison (bit 3 = bit 3) ≠ 0 then
          if cint p.data &&& comparison (bit 2 ||| bit 1 ||| bit 0 = 0x06) ≠ 0 then do
            let memory ← store memory 0 0
            store memory 1 (UInt8.ofNat (i - 2))
          else receivePacket memory 2 fifo
        else store memory 0 1
      else do
        let memory ← store memory i p.data
        receivePacket memory (i + 1) fifo

def hdlcRx (memory : List UInt8) (fifo : List FifoPair) : Option (List UInt8) := do
  let fifo ← searchDelimiter fifo
  receivePacket memory 2 fifo

/-! ## What the tests come to -/

theorem cint_and_one_ne_zero_iff (x : UInt8) :
    cint x &&& 1 ≠ 0 ↔ x.toBitVec.getLsbD 0 = true := by
  have hbit : (cint x).getLsbD 0 = x.toBitVec.getLsbD 0 := by
    simp [cint]
  rw [show (1 : CInt) = 1#16 from rfl, BitVec.and_one_eq_setWidth_ofBool_getLsbD, hbit]
  cases x.toBitVec.getLsbD 0 with
  | false => decide
  | true => decide

section

variable {memory response : List UInt8} {i : Nat} {p : FifoPair} {fifo : List FifoPair}

/-- A test whose comparison is true looks at bit 0. -/
theorem test_iff {c : CInt} (hc : c = 1) : cint p.control &&& c ≠ 0 ↔ p.flag 0 = true := by
  rw [hc]
  exact cint_and_one_ne_zero_iff p.control

theorem searchDelimiter_cons :
    searchDelimiter (p :: fifo) = if p.flag 0 = true then searchDelimiter fifo else some fifo := by
  have htest := test_iff (p := p) (c := comparison (bit 1 ||| bit 0 ≠ 0x01)) (by decide)
  rw [searchDelimiter]
  by_cases hp : p.flag 0 = true
  · rw [if_pos (htest.2 hp), if_pos hp]
  · rw [if_neg (mt htest.1 hp), if_neg hp]

/-- The branch for the end of a packet has the test of the branch for an abort, so it is dead. -/
theorem receivePacket_cons :
    receivePacket memory i (p :: fifo) =
      if p.flag 0 = true then store memory 0 2
      else (store memory i p.data).bind fun memory => receivePacket memory (i + 1) fifo := by
  have habort := test_iff (p := p) (c := comparison (bit 0 = bit 0)) (by decide)
  have hend := test_iff (p := p) (c := comparison (bit 1 = bit 1)) (by decide)
  rw [receivePacket]
  by_cases hp : p.flag 0 = true
  · rw [if_pos (habort.2 hp), if_pos hp]
  · rw [if_neg (mt habort.1 hp), if_neg (mt hend.1 hp), if_neg hp]
    rfl

theorem store_eq_some_iff {value : UInt8} :
    store memory i value = some response ↔ i < memory.length ∧ memory.set i value = response := by
  unfold store
  split_ifs with h <;> simp [h]

theorem searchDelimiter_eq_some_iff {fifo' : List FifoPair} :
    searchDelimiter fifo = some fifo' ↔
      ∃ skipped first, fifo = skipped ++ first :: fifo' ∧ (∀ p ∈ skipped, p.flag 0 = true) ∧
        first.flag 0 = false := by
  induction fifo with
  | nil => simp [searchDelimiter]
  | cons p fifo ih =>
      rw [searchDelimiter_cons]
      cases hp : p.flag 0 with
      | true =>
          rw [if_pos rfl, ih]
          constructor
          · rintro ⟨skipped, first, rfl, hskipped, hfirst⟩
            exact ⟨p :: skipped, first, rfl, List.forall_mem_cons.2 ⟨hp, hskipped⟩, hfirst⟩
          · rintro ⟨skipped, first, hsplit, hskipped, hfirst⟩
            cases skipped with
            | nil =>
                cases hsplit
                simp [hp] at hfirst
            | cons q skipped =>
                cases hsplit
                exact ⟨skipped, first, rfl, (List.forall_mem_cons.1 hskipped).2, hfirst⟩
      | false =>
          simp only [Bool.false_eq_true, if_false, Option.some.injEq]
          constructor
          · rintro rfl
            exact ⟨[], p, rfl, by simp, hp⟩
          · rintro ⟨skipped, first, hsplit, hskipped, hfirst⟩
            cases skipped with
            | nil =>
                cases hsplit
                rfl
            | cons q skipped =>
                cases hsplit
                simp [hp] at hskipped

/-- The only status that is stored is 2. -/
theorem status_of_receivePacket (h : receivePacket memory i fifo = some response) :
    response[0]? = some 2 := by
  induction fifo generalizing memory i with
  | nil => simp [receivePacket] at h
  | cons p fifo ih =>
      rw [receivePacket_cons] at h
      split_ifs at h
      · rcases store_eq_some_iff.1 h with ⟨hlt, rfl⟩
        simp [hlt]
      · rcases Option.bind_eq_some_iff.1 h with ⟨memory', _, h'⟩
        exact ih h'

/-- There is room for a status and for `n` bytes from position `i` on. -/
def Room (memory : List UInt8) (i n : Nat) : Prop :=
  0 < memory.length ∧ (0 < n → i + n ≤ memory.length)

theorem isSome_receivePacket_iff :
    (receivePacket memory i fifo).isSome = true ↔
      ∃ stored last rest, fifo = stored ++ last :: rest ∧ (∀ p ∈ stored, p.flag 0 = false) ∧
        last.flag 0 = true ∧ Room memory i stored.length := by
  induction fifo generalizing memory i with
  | nil => simp [receivePacket]
  | cons p fifo ih =>
      rw [receivePacket_cons]
      cases hp : p.flag 0 with
      | true =>
          rw [if_pos rfl]
          constructor
          · intro h
            refine ⟨[], p, fifo, rfl, by simp, hp, ?_⟩
            by_cases hlen : 0 < memory.length
            · exact ⟨hlen, by simp⟩
            · simp [store, hlen] at h
          · rintro ⟨stored, last, rest, _, _, _, hlen, _⟩
            simp [store, hlen]
      | false =>
          simp only [Bool.false_eq_true, if_false]
          constructor
          · intro h
            rcases Option.isSome_iff_exists.1 h with ⟨response, hresponse⟩
            rcases Option.bind_eq_some_iff.1 hresponse with ⟨memory', hstore, hrest⟩
            rcases store_eq_some_iff.1 hstore with ⟨hlt, rfl⟩
            rcases ih.1 (Option.isSome_iff_exists.2 ⟨response, hrest⟩) with
              ⟨stored, last, rest, rfl, hstored, hlast, hroom⟩
            refine ⟨p :: stored, last, rest, rfl, List.forall_mem_cons.2 ⟨hp, hstored⟩, hlast, ?_⟩
            simp only [Room, List.length_set, List.length_cons] at hroom ⊢
            omega
          · rintro ⟨stored, last, rest, hsplit, hstored, hlast, hroom⟩
            cases stored with
            | nil =>
                cases hsplit
                simp [hp] at hlast
            | cons q stored =>
                cases hsplit
                simp only [Room, List.length_cons] at hroom
                have hlt : i < memory.length := by omega
                rw [store, if_pos hlt, Option.bind_some]
                refine ih.2 ⟨stored, last, rest, rfl, (List.forall_mem_cons.1 hstored).2, hlast, ?_⟩
                simp only [Room, List.length_set]
                omega

end

/-- The sequences on which `hdlc_rx` returns: pairs with bit 0 set, one with bit 0 clear, then as
many of those as there is room for, and again one with bit 0 set. -/
def Returns (memory : List UInt8) (fifo : List FifoPair) : Prop :=
  ∃ skipped first stored last rest,
    fifo = skipped ++ first :: (stored ++ last :: rest) ∧ (∀ p ∈ skipped, p.flag 0 = true) ∧
      first.flag 0 = false ∧ (∀ p ∈ stored, p.flag 0 = false) ∧ last.flag 0 = true ∧
      Room memory 2 stored.length

theorem isSome_hdlcRx_iff {memory : List UInt8} {fifo : List FifoPair} :
    (hdlcRx memory fifo).isSome = true ↔ Returns memory fifo := by
  constructor
  · intro h
    rcases Option.isSome_iff_exists.1 h with ⟨response, hresponse⟩
    rcases Option.bind_eq_some_iff.1 hresponse with ⟨fifo', hsearch, hreceive⟩
    rcases searchDelimiter_eq_some_iff.1 hsearch with ⟨skipped, first, rfl, hskipped, hfirst⟩
    rcases isSome_receivePacket_iff.1 (Option.isSome_iff_exists.2 ⟨response, hreceive⟩) with
      ⟨stored, last, rest, rfl, hstored, hlast, hroom⟩
    exact ⟨skipped, first, stored, last, rest, rfl, hskipped, hfirst, hstored, hlast, hroom⟩
  · rintro ⟨skipped, first, stored, last, rest, rfl, hskipped, hfirst, hstored, hlast, hroom⟩
    have hsearch : searchDelimiter (skipped ++ first :: (stored ++ last :: rest)) =
        some (stored ++ last :: rest) :=
      searchDelimiter_eq_some_iff.2 ⟨skipped, first, rfl, hskipped, hfirst⟩
    rw [hdlcRx, hsearch]
    exact isSome_receivePacket_iff.2 ⟨stored, last, rest, rfl, hstored, hlast, hroom⟩

theorem status_of_hdlcRx {memory response : List UInt8} {fifo : List FifoPair}
    (h : hdlcRx memory fifo = some response) : response[0]? = some 2 := by
  rcases Option.bind_eq_some_iff.1 h with ⟨fifo', _, hreceive⟩
  exact status_of_receivePacket hreceive

end Arduino
end AbsPlatform

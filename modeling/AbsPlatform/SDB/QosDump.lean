import AbsPlatform.Lib.GrowingBuffer
import AbsPlatform.MCS.RoundTrip
import AbsPlatform.SDB.States

/-!
# QosDump — the text buffer of a dump and its way to the module

`sdb_qos_dump_module` prints the events of a module into a buffer that it makes larger after each
line, and sends what it has printed in an `OK_DATA` packet.  A line that is longer than what is left
in the buffer is written past its end, and a text that is longer than the size field of a packet
says is cut, or not sent at all.  The events are gone by then.
-/

namespace AbsPlatform
namespace SDB

open MCS Lib

/-! ## The buffer -/

/-- `INT_MAX`. -/
def intMax : Nat := 2147483647

/-- The variables `output` and `output_size`. -/
structure DumpOutput where
  outputSize : Nat
  /-- what has been printed; `output_pos` is its length -/
  printed : List UInt8
  /-- the byte at `output_pos` -/
  behind : UInt8

namespace DumpOutput

def outputPos (o : DumpOutput) : Nat := o.printed.length

/-- After `malloc(500)`, which leaves `fresh` in the first byte. -/
def init (fresh : UInt8) : DumpOutput where
  outputSize := 500
  printed := []
  behind := fresh

/-- `sprintf` of a line and its terminator; writing past the end of the buffer is a fault. -/
def sprintf (o : DumpOutput) (line : List UInt8) : Option DumpOutput :=
  if o.outputPos + line.length + 1 ≤ o.outputSize then
    some { o with printed := o.printed ++ line, behind := 0 }
  else
    none

/-- The test after a line.  A product that is no `int` is a fault. -/
def enlarge (o : DumpOutput) : Option DumpOutput :=
  if (o.outputPos : Int) > o.outputSize - 50 then
    -- `output_size *= 1.5`
    let outputSize := o.outputSize * 3 / 2
    if outputSize ≤ intMax then some { o with outputSize := outputSize } else none
  else
    some o

/-- The loop for one event of the module. -/
def print (o : DumpOutput) (e : SDBQOSStoreEvent) : Option DumpOutput :=
  (o.sprintf e.text).bind enlarge

end DumpOutput

/-- The buffer after the loop. -/
def dumpOutput (fresh : UInt8) (events : List SDBQOSStoreEvent) : Option DumpOutput :=
  events.foldlM DumpOutput.print (.init fresh)

/-- Every `sprintf` of a dump stays inside the buffer, with its terminator. -/
def DumpFits (fresh : UInt8) (events : List SDBQOSStoreEvent) : Prop :=
  ∀ pre e post, events = pre ++ e :: post →
    ∃ o, dumpOutput fresh pre = some o ∧ o.outputPos + e.text.length + 1 ≤ o.outputSize

/-! ## As a growing buffer -/

/-- 500 bytes that become half as many again when less than 50 are left. -/
def dumpPolicy : GrowthPolicy where
  start := 500
  reserve := 50
  grow := fun size => size * 3 / 2
  limit := intMax
  start_le := by decide
  reserve_le := by decide
  grow_add := by
    intro size hsize
    omega

def DumpOutput.fill (o : DumpOutput) : Fill where
  size := o.outputSize
  pos := o.outputPos

/-- The number of characters of some events. -/
def printedLength (events : List SDBQOSStoreEvent) : Nat :=
  (events.map fun e => e.text.length).sum

theorem fill_print (o : DumpOutput) (e : SDBQOSStoreEvent) :
    (o.print e).map DumpOutput.fill = dumpPolicy.put o.fill e.text.length := by
  by_cases hfits : o.outputPos + e.text.length + 1 ≤ o.outputSize
  · have hput : o.fill.pos + e.text.length < o.fill.size := hfits
    have hpos : ({ o with printed := o.printed ++ e.text, behind := 0 } : DumpOutput).outputPos =
        o.outputPos + e.text.length := by simp [DumpOutput.outputPos]
    simp only [DumpOutput.print, DumpOutput.sprintf, if_pos hfits, Option.bind_some,
      DumpOutput.enlarge, hpos, GrowthPolicy.put, if_pos hput, GrowthPolicy.refill]
    by_cases hreserve : o.outputPos + e.text.length + 50 ≤ o.outputSize
    · have hstay : ¬ ((o.outputPos + e.text.length : Nat) : Int) > o.outputSize - 50 := by omega
      have hkeep : o.fill.pos + e.text.length + dumpPolicy.reserve ≤ o.fill.size := hreserve
      rw [if_neg hstay, if_pos hkeep]
      simp [DumpOutput.fill, DumpOutput.outputPos]
    · have hgrow : ((o.outputPos + e.text.length : Nat) : Int) > o.outputSize - 50 := by omega
      have hless : ¬ o.fill.pos + e.text.length + dumpPolicy.reserve ≤ o.fill.size := hreserve
      rw [if_pos hgrow, if_neg hless]
      change Option.map _ (if o.outputSize * 3 / 2 ≤ intMax then _ else _) =
        if o.outputSize * 3 / 2 ≤ intMax then _ else _
      split_ifs
      · simp [DumpOutput.fill, DumpOutput.outputPos, dumpPolicy]
      · rfl
  · have hput : ¬ o.fill.pos + e.text.length < o.fill.size := hfits
    simp [DumpOutput.print, DumpOutput.sprintf, hfits, GrowthPolicy.put, hput]

/-- The buffer is filled as the policy says. -/
theorem fill_foldlM (o : DumpOutput) (events : List SDBQOSStoreEvent) :
    (events.foldlM DumpOutput.print o).map DumpOutput.fill =
      (events.map fun e => e.text.length).foldlM dumpPolicy.put o.fill := by
  induction events generalizing o with
  | nil => rfl
  | cons e events ih =>
      rw [List.map_cons, List.foldlM_cons, List.foldlM_cons, ← fill_print]
      cases hprint : o.print e with
      | none => rfl
      | some o' => exact ih o'

theorem fill_dumpOutput (fresh : UInt8) (events : List SDBQOSStoreEvent) :
    (dumpOutput fresh events).map DumpOutput.fill =
      (events.map fun e => e.text.length).foldlM dumpPolicy.put dumpPolicy.empty :=
  fill_foldlM _ _

/-- No dump writes past its buffer, as long as none of the sizes 500, 750, 1125, ... of the buffer
lies where it leaves a reserve of 50 bytes in front of a line and is too small for it. -/
theorem dumpFits_iff_room (fresh : UInt8) (events : List SDBQOSStoreEvent) :
    DumpFits fresh events ↔
      ∀ pre e post, events = pre ++ e :: post →
        dumpPolicy.Room (printedLength pre) e.text.length := by
  refine Iff.trans ?_ (dumpPolicy.forall_fits_iff_room (fun e => e.text.length) events)
  refine forall_congr' fun pre => forall_congr' fun e => forall_congr' fun post =>
    forall_congr' fun _ => ?_
  rw [← fill_dumpOutput fresh pre]
  constructor
  · rintro ⟨o, ho, hfits⟩
    exact ⟨o.fill, by rw [ho]; rfl, hfits⟩
  · rintro ⟨f, hf, hfits⟩
    rcases Option.map_eq_some_iff.1 hf with ⟨o, ho, rfl⟩
    exact ⟨o, ho, hfits⟩

/-- A packet for a module that is not there, with message number 10. -/
def scrapEvent : SDBQOSStoreEvent where
  seEvent := .pktScrap
  seData :=
    { mcsId := 4294967295
      mcsType := 0
      mcsCmd := 10
      mcsDest := some (CString.ofBuffer [117, 110, 107, 110, 111, 119, 110, 109, 111, 100]) }
  seT := 1789603200000000
  seAgent := 0

/-- Nine lines of 50 characters leave a reserve of exactly 50 bytes, and the tenth one needs 51. -/
theorem tenScrapped_overrun :
    scrapEvent.seData.mcsDest.all (fun d => d.strlen ≤ sdbModuleNameSize) = true ∧
      (dumpOutput 0 (List.replicate 9 scrapEvent)).any (fun o =>
        o.outputPos = 450 ∧ o.outputSize = 500 ∧
          o.outputSize < o.outputPos + scrapEvent.text.length + 1) = true ∧
      ¬ DumpFits 0 (List.replicate 10 scrapEvent) := by
  have hninth : (dumpOutput 0 (List.replicate 9 scrapEvent)).any (fun o =>
      o.outputPos = 450 ∧ o.outputSize = 500 ∧
        o.outputSize < o.outputPos + scrapEvent.text.length + 1) = true := by decide +kernel
  refine ⟨by decide, hninth, fun hfits => ?_⟩
  rcases hfits (List.replicate 9 scrapEvent) scrapEvent [] rfl with ⟨o, ho, hroom⟩
  rw [ho] at hninth
  have hover : o.outputSize < o.outputPos + scrapEvent.text.length + 1 := by
    simpa using (of_decide_eq_true hninth).2.2
  omega

/-! ## What has been printed -/

theorem printed_of_foldlM {o o' : DumpOutput} {events : List SDBQOSStoreEvent}
    (h : events.foldlM DumpOutput.print o = some o') :
    o'.printed = o.printed ++ events.flatMap SDBQOSStoreEvent.text ∧
      o'.behind = if events = [] then o.behind else 0 := by
  induction events generalizing o with
  | nil =>
      cases h
      simp
  | cons e events ih =>
      rcases run_cons_inv h with ⟨o₁, ho₁, hrest⟩
      rcases ih hrest with ⟨hprinted, hbehind⟩
      -- making the buffer larger leaves what is in it
      have hline : o₁.printed = o.printed ++ e.text ∧ o₁.behind = 0 := by
        unfold DumpOutput.print DumpOutput.sprintf DumpOutput.enlarge at ho₁
        split_ifs at ho₁ with hfits
        · rw [Option.bind_some] at ho₁
          dsimp only at ho₁
          split_ifs at ho₁
          all_goals
            cases ho₁
            exact ⟨rfl, rfl⟩
        · simp at ho₁
      refine ⟨by simp [hprinted, hline.1], ?_⟩
      rw [hbehind, hline.2]
      simp

/-- The bytes that are copied into the answer.  Without events nothing is printed, no terminator
either. -/
theorem dumpOutput_spec {fresh : UInt8} {events : List SDBQOSStoreEvent} {o : DumpOutput}
    (h : dumpOutput fresh events = some o) :
    o.printed = events.flatMap SDBQOSStoreEvent.text ∧
      o.behind = if events = [] then fresh else 0 := by
  simpa [DumpOutput.init] using printed_of_foldlM h

/-- `sdb_qos_dump_module` with its buffer: `none` is a fault, and `some none` the failure of a
module that does not log. -/
def sdbQosDumpModuleBuffered (fresh : UInt8) (me : Nat) (pkt : MCSPacket) (s : Bus) :
    Option (Option (MCSPacket × Bus)) :=
  if (s.modules me).qosEnabled then
    (dumpOutput fresh (s.qosTable.eventsOf me)).map fun o =>
      -- `mcs_ok_packet_data(from, output, output_pos + 1)`
      some (mcsOkPacketData pkt (o.printed ++ [o.behind]),
        { s with qosTable := s.qosTable.removeEvents me })
  else
    some none

/-- With something to print and room for it, this is the dump of the bus. -/
theorem sdbQosDumpModuleBuffered_eq {fresh : UInt8} {me : Nat} {pkt : MCSPacket} {s : Bus}
    (hne : s.qosTable.eventsOf me ≠ [])
    (hsome : (dumpOutput fresh (s.qosTable.eventsOf me)).isSome = true) :
    sdbQosDumpModuleBuffered fresh me pkt s = some (sdbQosDumpModule me pkt s) := by
  rcases Option.isSome_iff_exists.1 hsome with ⟨o, ho⟩
  rcases dumpOutput_spec ho with ⟨hprinted, hbehind⟩
  rw [if_neg hne] at hbehind
  unfold sdbQosDumpModuleBuffered sdbQosDumpModule
  split_ifs
  · simp [ho, hprinted, hbehind, QOSTable.dumpText, QOSTable.printed]
  · rfl

section Answer

variable {t : MCSTables} {fresh : UInt8} {me : Nat} {pkt : MCSPacket} {s : Bus}
  {data text : List UInt8}

end Answer

end SDB
end AbsPlatform

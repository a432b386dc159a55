import Mathlib.Logic.Function.Basic
import AbsPlatform.Include
import AbsPlatform.Lib.Decimal

/-!
# Qos — the event log of `SDB/sdb_qos.c`

Every module registers what happens to its packets in a table of ten lists, shared by the modules
whose numbers are equal modulo ten.  A dump prints and removes the events of one module.  The
output buffer is as long as the text needs; `QosDump` has the buffer of the source.
-/

namespace AbsPlatform
namespace SDB

open Lib

/-- `SDB_QOS_TABLE_MAX`. -/
def sdbQosTableMax : Nat := 10

inductive SDBQOSEvent
  | pktIn
  | pktOut
  | pktReady
  | pktScrap
  deriving DecidableEq, Repr

/-- The part of a packet that is logged. -/
structure SDBQOSMCS where
  mcsId : UInt32
  mcsType : UInt8
  mcsCmd : UInt16
  mcsDest : Option CString
  deriving DecidableEq

structure SDBQOSStoreEvent where
  seEvent : SDBQOSEvent
  seData : SDBQOSMCS
  /-- microseconds, an `unsigned long long` -/
  seT : UInt64
  seAgent : Nat
  deriving DecidableEq

/-- The lists of the table, by hash. -/
abbrev QOSTable := Nat → List SDBQOSStoreEvent

def tableHash (agent : Nat) : Nat := agent % sdbQosTableMax

def mcsPacketToQosMcs (pkt : MCSPacket) : SDBQOSMCS where
  mcsId := pkt.id
  mcsType := pkt.type
  mcsCmd := pkt.cmd
  mcsDest := pkt.dest

/-- `register_event` of an agent that has its log enabled, at a time. -/
def QOSTable.registerEvent (table : QOSTable) (agent : Nat) (time : UInt64) (event : SDBQOSEvent)
    (pkt : MCSPacket) : QOSTable :=
  let storeEvent : SDBQOSStoreEvent :=
    { seEvent := event, seData := mcsPacketToQosMcs pkt, seT := time, seAgent := agent }
  Function.update table (tableHash agent) (table (tableHash agent) ++ [storeEvent])

/-! ## The dump -/

/-- `"in"`, `"out"`, `"ready"` and `"scrap"`. -/
def SDBQOSEvent.text : SDBQOSEvent → List UInt8
  | .pktIn => [105, 110]
  | .pktOut => [111, 117, 116]
  | .pktReady => [114, 101, 97, 100, 121]
  | .pktScrap => [115, 99, 114, 97, 112]

/-- `"|"`. -/
def bar : List UInt8 := [124]

/-- `"%s|%u|%u|%hu|%s|%llu\n"`; a packet without a destination has an empty one. -/
def SDBQOSStoreEvent.text (e : SDBQOSStoreEvent) : List UInt8 :=
  let dest : List UInt8 :=
    match e.seData.mcsDest with
    | some d => d.bytes
    | none => []
  e.seEvent.text ++ bar ++ decimal e.seData.mcsId.toNat ++ bar ++ decimal e.seData.mcsType.toNat
    ++ bar ++ decimal e.seData.mcsCmd.toNat ++ bar ++ dest ++ bar ++ decimal e.seT.toNat ++ [10]

/-- The events of an agent, oldest first. -/
def QOSTable.eventsOf (table : QOSTable) (agent : Nat) : List SDBQOSStoreEvent :=
  (table (tableHash agent)).filter fun e => e.seAgent = agent

/-- What the calls of `sprintf` in a dump print. -/
def QOSTable.printed (table : QOSTable) (agent : Nat) : List UInt8 :=
  (table.eventsOf agent).flatMap SDBQOSStoreEvent.text

/-- The text of a dump, with the terminator of its last line: the data of the answer.  The request
for the dump has been logged itself, so there is a line. -/
def QOSTable.dumpText (table : QOSTable) (agent : Nat) : List UInt8 :=
  table.printed agent ++ [0]

/-- The table without the events of an agent. -/
def QOSTable.removeEvents (table : QOSTable) (agent : Nat) : QOSTable :=
  Function.update table (tableHash agent)
    -- agents with the same hash share the list and keep their events
    ((table (tableHash agent)).filter fun e => e.seAgent ≠ agent)

end SDB
end AbsPlatform

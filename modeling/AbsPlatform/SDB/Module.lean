import AbsPlatform.MCS.Codec
import AbsPlatform.SDB.Qos
import AbsPlatform.SDB.Queue

/-!
# Module — the handlers of `SDB/sdb_module.c`

The state of the bus is the table of modules, the event log and the history of what went over the
sockets and between the modules.  Each handler runs to its end in one step: while it runs, its
module's lock is held, and no other thread looks at the module's queue.

A handler that cannot end is stuck: it waits for a mailbox to be emptied, or it has met a fault,
that is a NULL pointer or a block that is followed past its end.
-/

namespace AbsPlatform
namespace SDB

open MCS

/-! ## sdb_private.h -/

/-- `SDB_MODULE_DATA_SIZE`. -/
def sdbModuleDataSize : Nat := 1024

/-- `SDB_MODULE_MAX`. -/
def sdbModuleMax : Nat := 20

/-- `sizeof(MCSPacket)`. -/
def sizeofPacket : Arch → Nat
  | .ilp32 => 28
  | .lp64 => 48

/-- `sizeof(SDBGroup)`, an enumeration. -/
def sizeofGroup : Nat := 4

/-- `sizeof(struct MCSCommandOptionsStatePerms)`. -/
def sizeofStatePerms : Arch → Nat
  | .ilp32 => 8
  | .lp64 => 16

structure SDBModule where
  name : CString
  group : SDBGroup
  /-- what the region `data` holds while `data_valid` is set: the sender and its packet -/
  mailbox : Option (Nat × MCSPacket)
  dataSocket : Bool
  queue : List SDBPacket
  qosEnabled : Bool
  /-- the bytes that wait at `rfd` -/
  input : List UInt8

/-- The two functions that write packets to a socket. -/
inductive Writer
  | socket
  | sdb
  deriving DecidableEq, Repr

inductive BusEvent
  /-- `process_pkt_socket` has read a packet -/
  | socketIn (m : Nat) (pkt : MCSPacket)
  /-- a packet has been written to a module's socket -/
  | socketOut (m : Nat) (writer : Writer) (pkt : MCSPacket)
  /-- `mcs_read_command` has sent this back instead of returning a packet -/
  | rejected (m : Nat) (reply : List UInt8)
  /-- a packet has been put into a module's mailbox -/
  | mailed (src dst : Nat) (pkt : MCSPacket)
  deriving DecidableEq

/-- What the program is compiled for, and the readings of its clock. -/
structure SDBConfig where
  tables : MCSTables
  arch : Arch
  /-- `MCS_MESSAGE_SDB_QOS_START` -/
  qosStart : Nat
  /-- `MCS_MESSAGE_SDB_QOS_DUMP` -/
  qosDump : Nat
  /-- `MCS_MESSAGE_SDB_QOS_STOP` -/
  qosStop : Nat
  /-- the labels of one `switch` -/
  labels : [qosStart, qosDump, qosStop].Nodup
  clock : Nat → UInt64

structure Bus where
  modules : Nat → SDBModule
  sdbModuleLast : Nat
  qosTable : QOSTable
  /-- how many times the clock has been read -/
  readings : Nat
  history : List BusEvent

inductive Stuck
  | waiting
  | fault
  deriving DecidableEq, Repr

namespace Bus

def update (s : Bus) (m : Nat) (f : SDBModule → SDBModule) : Bus :=
  { s with modules := Function.update s.modules m (f (s.modules m)) }

def log (s : Bus) (e : BusEvent) : Bus := { s with history := s.history ++ [e] }

end Bus

/-! ## Logging and writing -/

variable (cfg : SDBConfig) (me : Nat)

/-- `register_event`, called by the thread of module `me`. -/
def registerEvent (event : SDBQOSEvent) (pkt : MCSPacket) (s : Bus) : Bus :=
  if (s.modules me).qosEnabled then
    { s with
      qosTable := s.qosTable.registerEvent me (cfg.clock s.readings) event pkt
      readings := s.readings + 1 }
  else
    s

/-- `mcs_write_command(pkt, mod->wfd)`, on a socket that takes what is written. -/
def writeCommand (writer : Writer) (pkt : MCSPacket) (s : Bus) : Bus :=
  if (mcsWriteCommand cfg.tables pkt openFd).1 = 0 then
    s.log (.socketOut me writer pkt)
  else
    s

/-- The error exits: an answer with an error code, and the packet is scrap. -/
def refuse (pkt : MCSPacket) (errCode : Int) (s : Bus) : Bus :=
  registerEvent cfg me .pktScrap pkt (writeCommand cfg me .socket (mcsErrPacket pkt errCode) s)

def setQosEnabled (on : Bool) (s : Bus) : Bus := s.update me fun m => { m with qosEnabled := on }

/-- `sdb_qos_start`. -/
def sdbQosStart (s : Bus) : Bus := setQosEnabled me true s

/-- `sdb_qos_stop`. -/
def sdbQosStop (s : Bus) : Bus := setQosEnabled me false s

/-- `sdb_qos_dump_module`: the answer to `pkt` and the state after it, or a failure. -/
def sdbQosDumpModule (pkt : MCSPacket) (s : Bus) : Option (MCSPacket × Bus) :=
  if (s.modules me).qosEnabled then
    some (mcsOkPacketData pkt (s.qosTable.dumpText me),
      { s with qosTable := s.qosTable.removeEvents me })
  else
    none

/-! ## Mailboxes and queues -/

/-- The bytes `sdb_module_write_mcs_packet` copies into the region. -/
def regionBytes (arch : Arch) (pkt : MCSPacket) : Nat :=
  let destSize : Nat :=
    match pkt.dest with
    | some d => d.strlen + 1
    | none => 0
  4 + sizeofPacket arch + destSize + pkt.nargs.toNat + pkt.dataSize.toNat

/-- `sdb_module_write_mcs_packet`, with its return value.  The size test leaves out the sender's
number and the destination; a packet that passes it and does not fit is a fault. -/
def sdbModuleWriteMcsPacket (pkt : MCSPacket) (dst : Nat) (s : Bus) : Except Stuck (Int × Bus) :=
  if dst ≥ s.sdbModuleLast then
    .ok (-1, s)
  else if sizeofPacket cfg.arch + pkt.nargs.toNat + pkt.dataSize.toNat > sdbModuleDataSize then
    .ok (-1, s)
  else
    match (s.modules dst).mailbox with
    | some _ => if me = dst then .ok (-1, s) else .error .waiting
    | none =>
        if regionBytes cfg.arch pkt > sdbModuleDataSize then
          .error .fault
        else
          let s := s.update dst fun m => { m with mailbox := some (me, pkt) }
          .ok (0, registerEvent cfg me .pktOut pkt (s.log (.mailed me dst pkt)))

/-- `sdb_queue_push_nolock(&mod->queue, sdb_packet(pkt, id))`. -/
def queuePush (pkt : MCSPacket) (id : Nat) (s : Bus) : Bus :=
  s.update me fun m => { m with queue := m.queue ++ [sdbPacket pkt id] }

/-- `sdb_queue_get_nolock(&mod->queue, answer)`. -/
def queueGet (answer : MCSPacket) (s : Bus) : Option SDBPacket × Bus :=
  ((s.modules me).queue.find? fun p => p.pkt.id == answer.id,
    s.update me fun m => { m with queue := m.queue.eraseP fun p => p.pkt.id == answer.id })

/-! ## Messages -/

/-- The loop over the first entries of an array of groups, as many as fit in a pointer. -/
def scanGroups (arch : Arch) (groups : Vector SDBGroup sdbGroupMax) (group : SDBGroup) : Bool :=
  (groups.toList.take (arch.ptrSize / sizeofGroup)).any fun g => g = group

/-- The test for origins and destinations: `any` in front, or the group among those scanned. -/
def groupAllowed (arch : Arch) (groups : Vector SDBGroup sdbGroupMax) (group : SDBGroup) : Bool :=
  groups.toList.head? = some .any || scanGroups arch groups group

/-- The first module with a name. -/
def findModule (s : Bus) (name : CString) : Option Nat :=
  (List.range s.sdbModuleLast).find? fun i => (s.modules i).name = name

/-- The messages for the SDB itself. -/
def processSdbCommand (pkt : MCSPacket) (s : Bus) : Bus :=
  if pkt.cmd.toNat = cfg.qosStart then
    writeCommand cfg me .socket (mcsOkPacket pkt) (sdbQosStart me s)
  else if pkt.cmd.toNat = cfg.qosDump then
    match sdbQosDumpModule me pkt s with
    | some (pktRes, s) => writeCommand cfg me .socket pktRes s
    | none => writeCommand cfg me .socket (mcsErrPacket pkt eundef) s
  else if pkt.cmd.toNat = cfg.qosStop then
    let s :=
      match sdbQosDumpModule me pkt s with
      | some (pktRes, s) => writeCommand cfg me .socket pktRes (sdbQosStop me s)
      | none => writeCommand cfg me .socket (mcsErrPacket pkt eundef) (sdbQosStop me s)
    -- there is no `break` here: the default case follows
    refuse cfg me pkt ebadformat s
  else
    refuse cfg me pkt ebadformat s

/-- The end of `process_pkt_message`: the result of the write is not looked at. -/
def sendMessage (pkt : MCSPacket) (destIndex : Nat) (s : Bus) : Except Stuck Bus := do
  let r ← sdbModuleWriteMcsPacket cfg me pkt destIndex (queuePush me pkt me s)
  .ok r.2

/-- The name of the module a message goes to: the packet's own for `'@'`. -/
def destName (destination : CString) (pkt : MCSPacket) : Option CString :=
  if destination.first = 64 then pkt.dest else some destination

def processPktMessage (pkt : MCSPacket) (s : Bus) : Except Stuck Bus :=
  match cfg.tables.messages[pkt.cmd.toNat]? with
  | none => .ok (refuse cfg me pkt ecmdfault s)
  | some entry =>
      if !groupAllowed cfg.arch entry.originGroups (s.modules me).group then
        .ok (refuse cfg me pkt eperm s)
      else
        match entry.destination with
        | none => .ok (processSdbCommand cfg me pkt s)
        | some destination =>
            match destName destination pkt with
            | none => .error .fault
            | some name =>
                match findModule s name with
                | none => .ok (refuse cfg me pkt ebadmodid s)
                | some destIndex =>
                    if !groupAllowed cfg.arch entry.destinationGroups
                        (s.modules destIndex).group then
                      .ok (refuse cfg me pkt eperm s)
                    else
                      sendMessage cfg me pkt destIndex s

/-! ## States and payload commands -/

/-- The data of the answer to a state request: `data_size` bytes, or the string and its terminator
when the size is -1. -/
def responseData (responseSize : Int) (data : Option (List UInt8)) : Except Stuck (List UInt8) :=
  if responseSize = -1 then
    match data with
    | none => .error .fault
    | some block =>
        if (0 : UInt8) ∈ block then
          .ok (block.take ((CString.ofBuffer block).strlen + 1))
        else
          .error .fault
  else if responseSize = 0 then
    .ok []
  else
    match data with
    | none => .error .fault
    | some block =>
        if 0 < responseSize ∧ responseSize ≤ block.length then
          .ok (block.take responseSize.toNat)
        else
          .error .fault

/-- The permissions a state request is checked against: as many entries as fit in a pointer. -/
def scannedPerms (arch : Arch) (entry : MCSCommandOptionsState) :
    List MCSCommandOptionsStatePerms :=
  entry.expireGroup.toList.take (arch.ptrSize / sizeofStatePerms arch)

/-- The minimum expire time of a group, against the first argument. -/
def expireRefused (arch : Arch) (entry : MCSCommandOptionsState) (group : SDBGroup)
    (pkt : MCSPacket) : Except Stuck Bool :=
  match (scannedPerms arch entry).find? fun p => p.group = group with
  | none => .ok false
  | some perms =>
      match pkt.argBytes.head? with
      | none => .error .fault
      | some arg => .ok (perms.maxExpire > arg.toNat)

def processPktState (pkt : MCSPacket) (s : Bus) : Except Stuck Bus :=
  match cfg.tables.states[pkt.cmd.toNat]? with
  | none => .ok (refuse cfg me pkt ecmdfault s)
  | some entry => do
      let refused ← expireRefused cfg.arch entry (s.modules me).group pkt
      if refused then
        .ok (refuse cfg me pkt eperm s)
      else do
        let data ← responseData entry.cmd.responseSize (entry.request pkt)
        .ok (writeCommand cfg me .socket (mcsOkPacketData pkt data)
          (registerEvent cfg me .pktReady pkt s))

def processPktPayload (pkt : MCSPacket) (s : Bus) : Bus :=
  match cfg.tables.payloads[pkt.cmd.toNat]? with
  | none => refuse cfg me pkt ecmdfault s
  | some _ => queuePush me pkt me s

/-! ## The two entry points -/

/-- An answer from the mailbox, with what the queue has for it. -/
def completeAnswer (pkt : MCSPacket) (pktOrigin : Option SDBPacket) (s : Bus) : Bus :=
  match pktOrigin with
  | none => registerEvent cfg me .pktScrap pkt s
  | some pktOrigin =>
      let s := registerEvent cfg me .pktReady pkt s
      let s := writeCommand cfg me .sdb pkt s
      let s := registerEvent cfg me .pktOut pkt s
      registerEvent cfg me .pktReady pktOrigin.pkt s

/-- `process_pkt_sdb`. -/
def processPktSdb (s : Bus) : Bus :=
  match (s.modules me).mailbox with
  | none => s
  | some (idOrigin, pkt) =>
      let s := s.update me fun m => { m with mailbox := none }
      let s := registerEvent cfg me .pktIn pkt s
      if pkt.isAnswer then
        let r := queueGet me pkt s
        completeAnswer cfg me pkt r.1 r.2
      else
        let s := queuePush me pkt idOrigin s
        let s := writeCommand cfg me .sdb pkt s
        registerEvent cfg me .pktOut pkt s

/-- An answer from the socket, which goes back to where its request came from. -/
def returnAnswer (pkt : MCSPacket) (pktOrigin : Option SDBPacket) (s : Bus) : Except Stuck Bus :=
  match pktOrigin with
  | none => .ok (registerEvent cfg me .pktScrap pkt s)
  | some pktOrigin => do
      let r ← sdbModuleWriteMcsPacket cfg me pkt pktOrigin.idProcess s
      .ok (registerEvent cfg me .pktReady pktOrigin.pkt r.2)

def processAnswer (pkt : MCSPacket) (s : Bus) : Except Stuck Bus :=
  let r := queueGet me pkt s
  returnAnswer cfg me pkt r.1 r.2

/-- The `switch` on the type of a command. -/
def processCommand (pkt : MCSPacket) (s : Bus) : Except Stuck Bus :=
  match MCSType.ofCode? pkt.type with
  | some .message => processPktMessage cfg me pkt s
  | some .state => processPktState cfg me pkt s
  | some .payload => .ok (processPktPayload cfg me pkt s)
  | _ => .ok (refuse cfg me pkt eundef s)

def dispatch (pkt : MCSPacket) (s : Bus) : Except Stuck Bus :=
  if pkt.isAnswer then processAnswer cfg me pkt s else processCommand cfg me pkt s

/-- What `process_pkt_socket` does with a packet it has read. -/
def handlePacket (pkt : MCSPacket) (s : Bus) : Except Stuck Bus := do
  let s := registerEvent cfg me .pktIn pkt (s.log (.socketIn me pkt))
  let s ← dispatch cfg me pkt s
  .ok (s.update me fun m => { m with dataSocket := false })

/-- `mcs_read_command(mod->rfd, mod->wfd)`. -/
def readSocket (s : Bus) : ReadResult :=
  mcsReadCommand cfg.tables 0 openFd (s.modules me).input

/-- `process_pkt_socket`.  When nothing could be read, `data_socket` stays set. -/
def processPktSocket (s : Bus) : Except Stuck Bus :=
  let r := readSocket cfg me s
  let s := s.update me fun m => { m with input := r.rest }
  match r.pkt with
  | none => .ok (if r.reply = [] then s else s.log (.rejected me r.reply))
  | some pkt => handlePacket cfg me pkt s

/-- A turn of the main loop of `sdb_module_thread`: the mailbox comes before the socket. -/
def mainLoop (s : Bus) : Except Stuck Bus :=
  if (s.modules me).mailbox.isSome then
    .ok (processPktSdb cfg me s)
  else if (s.modules me).dataSocket then
    processPktSocket cfg me s
  else
    .error .waiting

end SDB
end AbsPlatform

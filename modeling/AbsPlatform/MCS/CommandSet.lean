import AbsPlatform.Include

/-!
# CommandSet — the tables of the shipped configuration

What the generator makes of `MCS/mcsg.json`.  The numbers of the commands are their positions in
the list of their type.
-/

namespace AbsPlatform
namespace MCS

/-- `"@arg0"`: the packet names its destination. -/
def argDestination : CString := ⟨[64, 97, 114, 103, 48], by simp⟩

/-- `"procman"`. -/
def procmanName : CString := ⟨[112, 114, 111, 99, 109, 97, 110], by simp⟩

def anyGroup : Vector SDBGroup sdbGroupMax := groupArray [.any]

/-- A message for the SDB itself. -/
def sdbMessage (rawData : Bool) (responseSize : Int) : MCSCommandOptionsMessage where
  cmd := { nargs := 0, rawData := rawData, responseSize := responseSize }
  destination := none
  originGroups := anyGroup
  destinationGroups := groupArray []

def testMessage : MCSCommandOptionsMessage where
  cmd := { nargs := 0, rawData := false, responseSize := 0 }
  destination := some argDestination
  originGroups := anyGroup
  destinationGroups := anyGroup

def procmanStartMessage : MCSCommandOptionsMessage where
  cmd := { nargs := 0, rawData := false, responseSize := 0 }
  destination := some procmanName
  originGroups := groupArray [.syscore]
  destinationGroups := groupArray []

def temperatureArduinoState : MCSCommandOptionsState where
  cmd := { nargs := 1, rawData := false, responseSize := 8 }
  -- `get_sensor_value_arduino` is a stub
  request := fun _ => none
  expireGroup := Vector.ofFn fun i =>
    if i.val = 0 then { group := .app, maxExpire := 15 } else { group := .syscore, maxExpire := 0 }

/-- The bit strings of the configuration have no number value, so both fields are zero. -/
def arduinoGetPinPayload : MCSCommandOptionsPayload where
  cmd := { nargs := 1, rawData := false, responseSize := 1 }
  command := 0
  parameters := 0

def commandSet : MCSTables where
  messages :=
    [testMessage, sdbMessage true 0, sdbMessage false 0, sdbMessage false (-1),
      sdbMessage false (-1), procmanStartMessage]
  states := [temperatureArduinoState]
  payloads := [arduinoGetPinPayload]

end MCS
end AbsPlatform

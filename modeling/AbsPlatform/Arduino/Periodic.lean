import Mathlib.Data.Nat.ModEq
import AbsPlatform.Arduino.Loop

/-!
# Periodic — the ticks at which an event is flagged

`events_routine` flags an event when the counter `time` is a multiple of its interval.  The counter
has 16 bits and wraps, so after 65536 interrupts it starts over: the multiples go on in step only
for an interval that divides 65536.  For any other one the distance from the last flag before the
wrap to the first one after it is not the interval.

`flagTrace` is what happens to one event at the timer interrupts of a run, whatever else the
firmware does between them.
-/

namespace AbsPlatform
namespace Arduino

/-! ## Flags -/

/-- The counter is a multiple of the interval. -/
def dueAt (time interval : CInt) : Bool := time.srem interval = 0

/-- The next timer interrupt flags event `i`. -/
def Firmware.flags (s : Firmware) (i : Nat) : Bool := (s.intervals[i]?).any (dueAt s.time)

section

variable {s s' : Firmware} {a : FirmwareStep} {i : Nat} {n : CInt}

end

/-! ## Multiples of an interval -/

section

variable {time n : CInt}

end

section

variable {s : Firmware} {i : Nat} {n : CInt}

end

end Arduino
end AbsPlatform

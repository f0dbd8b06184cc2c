import AirSurvey.Average

set_option autoImplicit false

/-!
What a survey can be told when it starts, and the room it has.
-/

namespace AirSurvey

def Capacity.devices : Nat := 128

def Capacity.networks : Nat := 32

def Capacity.channels : Nat := 64

def Capacity.presences : Nat := 512

structure Settings where
  /-- The part of a new sample in the moving average of the signal. -/
  weight : Float32
  /-- Seconds of silence after which a device is forgotten. -/
  timeout : UInt32
  /-- Seconds between sweeps. -/
  interval : UInt32

namespace Settings

def defaultTimeout : UInt32 := 60

def defaultInterval : UInt32 := 1

def default : Settings := ⟨Average.defaultWeight, defaultTimeout, defaultInterval⟩

/-- The least weight that still counts, 2⁻¹²⁶. -/
def leastWeight : Float32 := .ofBits 0x00800000

/-- A weight in (0, 1]: one beyond an end is moved to it, and one that is no number is not taken. -/
def clampWeight (w : Float32) : Float32 :=
  if w.isNaN then Average.defaultWeight
  else if w ≤ 0.0 then leastWeight
  else if 1.0 < w then 1.0
  else w

def withWeight (s : Settings) (w : Float32) : Settings := { s with weight := clampWeight w }

def withTimeout (s : Settings) (seconds : UInt32) : Settings := { s with timeout := seconds }

/-- Sweeps are at least a second apart. -/
def withInterval (s : Settings) (seconds : UInt32) : Settings :=
  { s with interval := if seconds = 0 then 1 else seconds }

end Settings

end AirSurvey

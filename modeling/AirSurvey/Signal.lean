import AirSurvey.Average
import AirSurvey.Clock
import AirSurvey.SignedFloat

set_option autoImplicit false

/-!
Signal strength over a device's life: the greatest sample, the moving average, and what the plain
mean needs.
-/

namespace AirSurvey

structure Signal where
  max : Int8
  average : Float32
  sum : Int64
  count : UInt32

namespace Signal

def silent : Signal := ⟨0, 0.0, 0, 0⟩

def record (s : Signal) (sample : Int8) (weight : Float32) : Signal where
  max := if s.count = 0 ∨ s.max < sample then sample else s.max
  average :=
    Average.blend (if s.count = 0 then none else some s.average) (SignedFloat.ofInt sample.toInt) weight
  sum := s.sum + sample.toInt64
  count := nextCount s.count

def mean (s : Signal) : Option Float32 :=
  if s.count = 0 then none else some (SignedFloat.ofInt s.sum.toInt / s.count.toFloat32)

/-- A strength in whole dBm, halves away from zero. -/
def wholeDbm (x : Float32) : Int16 :=
  SignedFloat.toInt16 (x + if x < 0.0 then -0.5 else 0.5)

end Signal

end AirSurvey

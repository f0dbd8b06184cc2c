import AirSurvey.Text.Hex

set_option autoImplicit false

/-!
Hardware addresses of radios.
-/

namespace AirSurvey

structure MacAddress where
  a : UInt8
  b : UInt8
  c : UInt8
  d : UInt8
  e : UInt8
  f : UInt8
  deriving DecidableEq, Repr

namespace MacAddress

def zero : MacAddress := ⟨0, 0, 0, 0, 0, 0⟩

def octets (m : MacAddress) : List UInt8 := [m.a, m.b, m.c, m.d, m.e, m.f]

def isZero (m : MacAddress) : Bool := m == zero

/-- Addresses of many receivers, broadcast among them, have the lowest bit of the first byte set. -/
def isGroup (m : MacAddress) : Bool := m.a &&& 1 != 0

instance : Ord MacAddress where
  compare x y := compareLex (compareOn (·.a)) (compareLex (compareOn (·.b)) (compareLex
    (compareOn (·.c)) (compareLex (compareOn (·.d)) (compareLex (compareOn (·.e))
    (compareOn (·.f)))))) x y

def chars (m : MacAddress) : List Char := [':'].intercalate (m.octets.map Text.hexByte)

def text (m : MacAddress) : String := String.ofList m.chars

end MacAddress

end AirSurvey

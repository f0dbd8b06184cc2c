set_option autoImplicit false

/-!
Upper-case hexadecimal digits, two to a byte.
-/

namespace AirSurvey.Text

def hexDigit (n : Nat) : Char := n.digitChar.toUpper

def hexByte (b : UInt8) : List Char := [hexDigit (b.toNat / 16), hexDigit (b.toNat % 16)]

end AirSurvey.Text

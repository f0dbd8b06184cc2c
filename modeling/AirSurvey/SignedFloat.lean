set_option autoImplicit false

/-!
Whole numbers as floats and back, by sign and magnitude. Magnitudes go through the conversions of
unsigned words, which can be computed in proofs.
-/

namespace AirSurvey.SignedFloat

/-- The float nearest to a number of magnitude below 2⁶⁴. -/
def ofInt (n : Int) : Float32 :=
  let magnitude := n.natAbs.toUInt64.toFloat32
  if n < 0 then -magnitude else magnitude

/-- The whole part of a float, the nearest word if it lies outside, and zero if it is no number. -/
def toInt16 (x : Float32) : Int16 :=
  if x < 0.0 then Int16.ofInt (-(min (-x).toUInt16.toNat 0x8000 : Nat))
  else Int16.ofInt (min x.toUInt16.toNat 0x7fff : Nat)

end AirSurvey.SignedFloat

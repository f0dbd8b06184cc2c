set_option autoImplicit false

/-!
The moving average of signal strength: each sample takes a fixed part of the weight, and what went
before keeps the rest.
-/

namespace AirSurvey.Average

/-- A new sample counts one eighth unless settings say otherwise. -/
def defaultWeight : Float32 := 0.125

/-- The average after a sample; the first sample is taken as it is. -/
def blend (previous : Option Float32) (sample weight : Float32) : Float32 :=
  match previous with
  | some average => weight * sample + (1.0 - weight) * average
  | none => sample

def running (weight : Float32) : Option Float32 → List Float32 → List Float32
  | _, [] => []
  | previous, s :: r =>
    let average := blend previous s weight
    average :: running weight (some average) r

end AirSurvey.Average

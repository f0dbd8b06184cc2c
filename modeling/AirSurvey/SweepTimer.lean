import AirSurvey.Clock
import AirSurvey.Settings

set_option autoImplicit false

/-!
Tells the owner of a survey when to sweep again.
-/

namespace AirSurvey

structure SweepTimer where
  interval : UInt32
  last : Option Timestamp
  deriving DecidableEq, Repr

namespace SweepTimer

def ofInterval (interval : UInt32) : SweepTimer := ⟨interval, none⟩

def ofSettings (s : Settings) : SweepTimer := ofInterval s.interval

/-- Whether a sweep is due at `now`. The first reading always is; later ones are once the interval
has passed since the last that was. -/
def due (t : SweepTimer) (now : Timestamp) : Bool × SweepTimer :=
  match t.last with
  | some last =>
    if elapsed now last < t.interval then (false, t) else (true, { t with last := now })
  | none => (true, { t with last := now })

def readings (t : SweepTimer) : List Timestamp → List Bool
  | [] => []
  | now :: r => (t.due now).1 :: (t.due now).2.readings r

end SweepTimer

end AirSurvey

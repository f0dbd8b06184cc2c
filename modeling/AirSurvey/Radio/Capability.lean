set_option autoImplicit false

/-!
What a radio says about itself: its part in a network, its channel width, its encryption, and the
internet address behind it.
-/

namespace AirSurvey

inductive Mode where
  | accessPoint
  | station
  | adHoc
  deriving DecidableEq, Repr

def Mode.abbreviation : Mode → String
  | .accessPoint => "ap"
  | .station => "sta"
  | .adHoc => "ibss"

def Mode.text : Mode → String
  | .accessPoint => "access_point"
  | .station => "station"
  | .adHoc => "ad_hoc"

/-- Widths from the least to the most capable; one that was never reported comes first. -/
inductive ChannelWidth where
  | unspecified
  | mhz20NoHt
  | mhz20
  | mhz40
  | mhz80
  | mhz160
  | mhz80Plus80
  deriving DecidableEq, Ord, Repr

instance : Inhabited ChannelWidth := ⟨.unspecified⟩

structure Encryption where
  wep : Bool
  wpa : Bool
  rsn : Bool
  deriving DecidableEq, Repr

def Encryption.none : Encryption := ⟨false, false, false⟩

def Encryption.isNone (x : Encryption) : Bool := !(x.wep || x.wpa || x.rsn)

structure IpAddress where
  word : UInt32
  deriving DecidableEq, Repr

def IpAddress.text (x : IpAddress) : String :=
  let shifts : List UInt32 := [24, 16, 8, 0]
  ".".intercalate (shifts.map fun shift => toString (x.word >>> shift).toUInt8)

end AirSurvey

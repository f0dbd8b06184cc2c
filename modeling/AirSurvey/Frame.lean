import AirSurvey.Clock
import AirSurvey.Radio.Capability
import AirSurvey.Radio.MacAddress
import AirSurvey.Radio.NetworkName
import AirSurvey.Radio.TrafficKinds
import AirSurvey.Refusal

set_option autoImplicit false

/-!
A frame as it was decoded: who sent it, how strong it was, and whatever else it told.
-/

namespace AirSurvey

structure Frame where
  /-- The sender. -/
  source : MacAddress
  /-- Strength in dBm. -/
  signal : Int8
  timestamp : Timestamp
  /-- The cell that the frame belongs to. -/
  bssid : Option MacAddress := none
  kinds : TrafficKinds := .none
  /-- The channel it was heard on or announces. -/
  channel : Option UInt8 := none
  name : Option NetworkName := none
  mode : Option Mode := none
  /-- The sender's synchronisation timer. -/
  tsf : Option UInt64 := none
  beaconInterval : Option UInt16 := none
  /-- Sent again because the first time was not acknowledged. -/
  retry : Bool := false
  sequence : UInt16 := 0
  encryption : Option Encryption := none
  width : Option ChannelWidth := none
  ht40Plus : Bool := false
  txStreams : Option UInt8 := none
  rxStreams : Option UInt8 := none
  ip : Option IpAddress := none
  olsrNeighbors : Option UInt16 := none
  olsrTopology : Option UInt16 := none
  batmanGateway : Bool := false
  deriving DecidableEq

namespace Frame

/-- The frame with a network name: as much of a text as fits into one. -/
def named (f : Frame) (text : String) : Frame := { f with name := some (.truncate text) }

/-- Refuses frames that cannot be told to belong to one device. -/
def validate (f : Frame) : Except Refusal Unit :=
  if f.source.isZero then .error .zeroSource
  else if f.source.isGroup then .error .groupSource
  else if f.channel = some 0 then .error .channelZero
  else .ok ()

def visibleName (f : Frame) : Option NetworkName := f.name.filter fun n => !n.isHidden

end Frame

end AirSurvey

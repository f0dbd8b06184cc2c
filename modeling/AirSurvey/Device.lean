import AirSurvey.Channels
import AirSurvey.Profile

set_option autoImplicit false

/-!
A tracked device: its profile, and its places in the indices of a survey.
-/

namespace AirSurvey

structure Device where
  id : Handle
  address : MacAddress
  profile : Profile
  inAges : Link
  inNetwork : Link
  /-- Its presences on channels. -/
  channels : Chain Presence.byDevice
  channelCount : UInt16
  network : Option Handle
  accessPoint : Option Handle

def Device.byAge : LinkField Device where
  get := inAges
  set x l := { x with inAges := l }
  get_set _ _ := rfl
  set_get _ := rfl
  set_set _ _ _ := rfl

def Device.byNetwork : LinkField Device where
  get := inNetwork
  set x l := { x with inNetwork := l }
  get_set _ _ := rfl
  set_get _ := rfl
  set_set _ _ _ := rfl

theorem Device.byAge_independent : Device.byAge.Independent Device.byNetwork :=
  ⟨fun _ _ => rfl, fun _ _ => rfl⟩

abbrev DevicePool := Pool Device Capacity.devices

namespace Device

/-- A device as its first frame shows it, on no index yet. -/
def ofFrame (f : Frame) (weight : Float32) (id : Handle) : Device where
  id := id
  address := f.source
  profile := .ofFrame f weight
  inAges := .loose
  inNetwork := .loose
  channels := .empty
  channelCount := 0
  network := none
  accessPoint := none

/-- A client of some other cell: it says so, or it has not said what it is and sends in a cell that
is not its own. -/
def isStation (d : Device) : Bool :=
  match d.profile.mode with
  | some mode => mode == .station
  | none => d.profile.bssid.any (· != d.address)

def isStale (d : Device) (now : Timestamp) (timeout : UInt32) : Bool :=
  timeout < elapsed now d.profile.lastSeen

end Device

end AirSurvey

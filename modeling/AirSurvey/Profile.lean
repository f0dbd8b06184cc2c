import AirSurvey.Frame
import AirSurvey.Signal

set_option autoImplicit false

/-!
All that the frames of one device have told about it. A profile is the frames of the device folded
one by one; nothing else changes it.
-/

namespace AirSurvey

structure MeshProfile where
  batmanGateway : Bool
  ip : Option IpAddress
  olsrCount : UInt32
  olsrNeighbors : UInt16
  olsrTopology : UInt16
  deriving DecidableEq, Repr

namespace MeshProfile

def blank : MeshProfile := ⟨false, none, 0, 0, 0⟩

def absorb (m : MeshProfile) (f : Frame) : MeshProfile where
  batmanGateway := m.batmanGateway || f.batmanGateway
  ip := f.ip.or m.ip
  olsrCount := if f.kinds.contains .olsr then nextCount m.olsrCount else m.olsrCount
  olsrNeighbors := f.olsrNeighbors.getD m.olsrNeighbors
  olsrTopology := f.olsrTopology.getD m.olsrTopology

end MeshProfile

structure Profile where
  lastSeen : Timestamp
  kinds : TrafficKinds
  frameCount : UInt32
  signal : Signal
  bssid : Option MacAddress
  /-- The channel announced last, or the first one heard of. -/
  channel : Option UInt8
  mode : Option Mode
  tsf : UInt64
  beaconInterval : UInt16
  width : ChannelWidth
  txStreams : UInt8
  rxStreams : UInt8
  retries : UInt32
  lastRetry : Bool
  sequence : UInt16
  encryption : Encryption
  ht40Plus : Bool
  mesh : MeshProfile
  lastFrame : Frame

namespace Profile

def blank (f : Frame) : Profile where
  lastSeen := f.timestamp
  kinds := .none
  frameCount := 0
  signal := .silent
  bssid := none
  channel := none
  mode := none
  tsf := 0
  beaconInterval := 0
  width := .unspecified
  txStreams := 0
  rxStreams := 0
  retries := 0
  lastRetry := false
  sequence := 0
  encryption := .none
  ht40Plus := false
  mesh := .blank
  lastFrame := f

/-- Announcements move the channel; any other frame only tells it of a device without one. -/
def nextChannel (known : Option UInt8) (f : Frame) : Option UInt8 :=
  if f.kinds.advertises then f.channel.or known else known.or f.channel

/-- Takes in a frame. What the frame tells replaces what was known, and what it leaves out stays. -/
def absorb (p : Profile) (f : Frame) (weight : Float32) : Profile where
  lastSeen := f.timestamp
  kinds := p.kinds ∪ f.kinds
  frameCount := nextCount p.frameCount
  signal := p.signal.record f.signal weight
  bssid := f.bssid.or p.bssid
  channel := nextChannel p.channel f
  mode := f.mode.or p.mode
  tsf := f.tsf.getD p.tsf
  beaconInterval := f.beaconInterval.getD p.beaconInterval
  width := f.width.getD p.width
  txStreams := f.txStreams.getD p.txStreams
  rxStreams := f.rxStreams.getD p.rxStreams
  retries := if f.retry then nextCount p.retries else p.retries
  lastRetry := f.retry
  sequence := f.sequence
  encryption := f.encryption.getD p.encryption
  ht40Plus := p.ht40Plus || f.ht40Plus
  mesh := p.mesh.absorb f
  lastFrame := f

def ofFrame (f : Frame) (weight : Float32) : Profile := (blank f).absorb f weight

end Profile

end AirSurvey

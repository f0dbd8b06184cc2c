import AirSurvey.AddressIndex
import AirSurvey.Networks

set_option autoImplicit false

/-!
A survey tracks every device that was heard lately. One pool holds the devices; they are found by
address, ordered by age, grouped by network name and listed by channel. Reading never changes it.
-/

namespace AirSurvey

structure Survey where
  settings : Settings
  devices : DevicePool
  addresses : AddressIndex
  /-- All devices, the newest first. -/
  ages : Chain Device.byAge
  networks : NetworkTable
  channels : ChannelTable

namespace Survey

def new (settings : Settings) : Survey :=
  ⟨settings, .empty, .empty, .empty, .empty, .empty⟩

def size (s : Survey) : Nat := s.devices.size

def isEmpty (s : Survey) : Bool := s.devices.isEmpty

def allDevices (s : Survey) : Except Fault (List Device) := s.ages.items s.devices

def find? (s : Survey) (m : MacAddress) : Except Fault (Option Device) :=
  (s.addresses.find? m).mapM s.devices.item

def device? (s : Survey) (h : Handle) : Option Device := s.devices.get? h

/-- The access point of a device, unless it is unknown or gone. -/
def accessPointOf? (s : Survey) (d : Device) : Option Device := d.accessPoint.bind s.device?

def networkOf? (s : Survey) (d : Device) : Option Network := d.network.bind s.networks.get?

/-- Members of a network in the order in which they joined; none of a network that is gone. -/
def membersOf (s : Survey) (h : Handle) : Except Fault (List Device) :=
  match s.networks.get? h with
  | none => .ok []
  | some n => n.members.items s.devices

def devicesOn (s : Survey) (channel : UInt8) : Except Fault (List Device) := do
  (← s.channels.members channel).mapM s.devices.item

def channelsOf (s : Survey) (d : Device) : Except Fault (List UInt8) :=
  s.channels.channelsOf d.channels

def channelEntries (s : Survey) : List ChannelEntry := s.channels.entries.toList

def onNetworks {α : Type} (a : Action NetworkTable α) : Action Survey α :=
  a.within networks fun s networks => { s with networks }

def onChannels {α : Type} (a : Action ChannelTable α) : Action Survey α :=
  a.within channels fun s channels => { s with channels }

def deviceAt (i : Nat) : Action Survey Device := do
  let s ← Action.read
  s.devices.item i

def changeDevice (i : Nat) (f : Device → Device) : Action Survey Unit := do
  let s ← Action.read
  let devices ← s.devices.modifyItem i f
  Action.write { s with devices }

def refreshSplit (h : Handle) : Action Survey Unit := do
  let s ← Action.read
  onNetworks (NetworkTable.refreshSplit h s.devices)

def withMembers (s : Survey) (h : Handle) (x : Chain Device.byNetwork × DevicePool) : Survey :=
  { s with devices := x.2, networks := ⟨s.networks.pool.modify h fun n => { n with members := x.1 }⟩ }

/-- Takes a device off the members of a network; answers whether there is such a network. -/
def leaveNetwork (i : Nat) (h : Handle) : Action Survey Bool := do
  let s ← Action.read
  match s.networks.get? h with
  | none => return false
  | some n =>
    let _ ← Action.settle (s.withMembers h) (n.members.remove s.devices i)
    return true

end Survey

end AirSurvey

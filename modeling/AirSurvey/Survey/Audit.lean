import AirSurvey.Survey.Basic

set_option autoImplicit false

/-!
The audit of a survey compares every index with the devices and ends with the first defect.
-/

namespace AirSurvey.Survey

def ensure (holds : Bool) (d : Defect) : Except Fault Unit :=
  if holds then .ok () else .error (.defect d)

/-- A device is a member of the network that it names, and linked into none if it names none. -/
def auditNetworkOf (s : Survey) (i : Nat) (d : Device) : Except Fault Unit :=
  match d.network with
  | none => ensure (!d.inNetwork.isLinked) .linkedWithoutNetwork
  | some h => do
    let isMember ← match s.networks.get? h with
      | none => pure false
      | some n => n.members.contains s.devices i
    ensure isMember .missingFromNetwork

def auditDevice (s : Survey) (i : Nat) : Except Fault Unit := do
  let d ← s.devices.item i
  ensure (s.addresses.find? d.address == some i) .addressStale
  ensure (s.devices.handleAt? i == some d.id) .handleStale
  s.auditNetworkOf i d
  s.channels.auditDevice i d.channels
  ensure (d.channels.length == d.channelCount.toNat) .channelCount
  ensure (d.accessPoint.all fun h => (s.device? h).isSome) .danglingAccessPoint

def audit (s : Survey) : Except Fault Unit := do
  s.ages.audit s.devices
  ensure (s.ages.length == s.devices.size) .agesMissDevices
  ensure (s.addresses.size == s.devices.size) .addressCount
  (← s.ages.toList s.devices).forM s.auditDevice
  let networks := s.networks.pool.entries.map Prod.snd
  networks.forM fun n => n.members.audit s.devices
  let members ← networks.mapM fun n => n.members.toList s.devices
  let named := (← s.allDevices).filter fun d => d.network.isSome
  ensure (members.flatten.length == named.length) .twoNetworks
  s.channels.audit

end AirSurvey.Survey

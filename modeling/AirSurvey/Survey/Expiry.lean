import AirSurvey.Survey.Basic

set_option autoImplicit false

/-!
Forgetting devices: the silent ones when the owner sweeps, all of them when the survey is cleared.
-/

namespace AirSurvey.Survey

def withChannels (s : Survey) (i : Nat) (x : ChannelTable × Chain Presence.byDevice) : Survey :=
  { s with
    channels := x.1
    devices := s.devices.modifyAt i fun d => { d with channels := x.2 } }

def discard (i : Nat) : Action Survey Unit := do
  let s ← Action.read
  let d ← s.devices.item i
  let _ ← Action.settle (s.withChannels i) (s.channels.leaveAll d.channels)
  let s ← Action.read
  Action.write { s with devices := s.devices.release i, addresses := s.addresses.erase d.address }
  Action.record (.evicted d.address d.profile.lastSeen)

def evict (i : Nat) : Action Survey Unit := do
  let s ← Action.read
  match s.devices.handleAt? i with
  | none => return
  | some _ =>
    let _ ← Action.settle (fun (ages, devices) => { s with ages, devices })
      (s.ages.remove s.devices i)
    match (← deviceAt i).network with
    | none => pure ()
    | some h =>
      let _ ← leaveNetwork i h
      refreshSplit h
    discard i

/-- Walks the devices from a slot on and evicts the stale ones; answers how many they were. Each
successor is read before its predecessor goes. -/
def sweepFrom (now : Timestamp) (timeout : UInt32) : Nat → Option Nat → Action Survey Nat
  | _, none => return 0
  | 0, some _ => Action.attempt (.error .endlessWalk)
  | fuel + 1, some i => do
    let s ← Action.read
    let next ← s.ages.next? s.devices i
    let d ← s.devices.item i
    if d.isStale now timeout then
      evict i
      return (← sweepFrom now timeout fuel next) + 1
    else sweepFrom now timeout fuel next

def dropDangling (i : Nat) : Action Survey Unit := do
  let s ← Action.read
  let d ← deviceAt i
  if d.accessPoint.any fun h => (s.device? h).isNone then
    changeDevice i fun d => { d with accessPoint := none }

def dropAllDangling : Action Survey Unit := do
  let s ← Action.read
  (← s.ages.toList s.devices).forM dropDangling

/-- Evicts every device that has been silent for longer than `timeout` seconds at `now`. -/
def sweep (now : Timestamp) (timeout : UInt32) : Action Survey Unit := do
  let s ← Action.read
  let gone ← sweepFrom now timeout s.devices.size s.ages.first?
  if gone = 0 then return
  dropAllDangling
  let s ← Action.read
  Action.record (.swept gone s.size)

def expire (now : Timestamp) : Action Survey Unit := do
  let s ← Action.read
  sweep now s.settings.timeout

/-- Forgets everything. Handles given out before stay stale. -/
def clear (s : Survey) : Survey where
  settings := s.settings
  devices := s.devices.clear
  addresses := .empty
  ages := .empty
  networks := s.networks.clear
  channels := s.channels.clear

def purgeNetworks (s : Survey) : Nat × Survey :=
  (s.networks.purge.1, { s with networks := s.networks.purge.2 })

end AirSurvey.Survey

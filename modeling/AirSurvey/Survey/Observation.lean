import AirSurvey.Survey.Basic

set_option autoImplicit false

/-!
Taking in a frame. Whatever may be lacking is looked for before anything changes, so that a refused
frame leaves no trace; then the frame is folded into its device, and the indices follow.
-/

namespace AirSurvey.Survey

def turnAway (e : Event) (supply : Supply) : Action Survey Unit := do
  Action.record e
  Action.refuse (.full supply)

def reserveDevice (f : Frame) (known : Option Nat) : Action Survey Unit := do
  let s ← Action.read
  if known.isNone && s.devices.isFull then turnAway (.noDeviceRoom f.source) .devices

def reserveNetwork (f : Frame) : Action Survey Unit := do
  let s ← Action.read
  match f.visibleName with
  | none => return
  | some name =>
    if !s.networks.hasRoomFor name.text then turnAway (.noNetworkRoom f.source) .networks

def wasOn (s : Survey) (known : Option Nat) (channel : UInt8) : Except Fault Bool :=
  match known with
  | none => .ok false
  | some i => do
    let d ← s.devices.item i
    s.channels.isOn d.channels channel

def reserveChannel (f : Frame) (known : Option Nat) : Action Survey Unit := do
  let s ← Action.read
  match f.channel with
  | none => return
  | some channel =>
    if ← s.wasOn known channel then return
    match s.channels.shortage? channel with
    | none => return
    | some supply => turnAway (.noChannelRoom f.source) supply

def reserve (f : Frame) (known : Option Nat) : Action Survey Unit := do
  reserveDevice f known
  reserveNetwork f
  reserveChannel f known

/-- Folds a frame into a known device, unless the frame is older than the device's last. -/
def revisit (f : Frame) (i : Nat) : Action Survey Nat := do
  let s ← Action.read
  let d ← s.devices.item i
  if f.timestamp < d.profile.lastSeen then Action.refuse .clockBackwards
  else
    changeDevice i fun d => { d with profile := d.profile.absorb f s.settings.weight }
    return i

def admitNew (f : Frame) : Action Survey Nat := do
  let s ← Action.read
  match s.devices.insert? (.ofFrame f s.settings.weight) with
  | none => Action.refuse (.full .devices)
  | some (h, devices) =>
    match s.addresses.insert? f.source h.index with
    | none =>
      Action.write { s with devices := devices.release h.index }
      Action.refuse (.full .addresses)
    | some addresses =>
      let _ ← Action.settle (fun (ages, devices) => { s with devices, addresses, ages })
        (s.ages.pushFront devices h.index)
      Action.record (.newDevice f.source f.signal)
      return h.index

def joinNetwork (i : Nat) (h : Handle) (name : String) : Action Survey Unit := do
  let s ← Action.read
  match s.networks.get? h with
  | none => pure ()
  | some n =>
    let _ ← Action.settle (s.withMembers h) (n.members.pushBack s.devices i)
  changeDevice i fun d => { d with network := some h }
  let d ← deviceAt i
  Action.record (.joined d.address name)

def moveTo (i : Nat) (current : Option Handle) (name : String) : Action Survey Unit := do
  let target ← onNetworks (NetworkTable.enter name)
  match current with
  | none => pure ()
  | some old =>
    if ← leaveNetwork i old then refreshSplit old
    else Action.refuse .releasedNetwork
  joinNetwork i target name

/-- Lets a device follow the name that its frame shows. A frame that shows none, or the name that
the device goes by, changes nothing. -/
def followName (f : Frame) (i : Nat) : Action Survey Unit := do
  match f.visibleName with
  | none => return
  | some name =>
    let s ← Action.read
    let d ← deviceAt i
    match s.networkOf? d with
    | some n => if n.name = name then return else moveTo i d.network name.text
    | none => moveTo i d.network name.text

/-- Notes the channel of a frame for its device. Channels are never taken off a tracked device. -/
def followChannel (f : Frame) (i : Nat) : Action Survey Unit := do
  match f.channel with
  | none => return
  | some channel =>
    let s ← Action.read
    let d ← deviceAt i
    if ← s.channels.isOn d.channels channel then return
    let channels ← onChannels (ChannelTable.join i d.channels channel)
    changeDevice i fun d => { d with channels, channelCount := d.channelCount + 1 }

def handleOf? (s : Survey) (m : MacAddress) : Option Handle :=
  (s.addresses.find? m).bind s.devices.handleAt?

/-- Points a station at the tracked device that heads its cell, and anything else at nothing. A
station that names no cell keeps what it has. -/
def resolveAccessPoint (i : Nat) : Action Survey Unit := do
  let s ← Action.read
  let d ← deviceAt i
  if !d.isStation then
    if d.accessPoint.isSome then changeDevice i fun d => { d with accessPoint := none }
  else
    match d.profile.bssid with
    | none => return
    | some bssid =>
      if (s.accessPointOf? d).any fun a => a.address == bssid then return
      changeDevice i fun d => { d with accessPoint := s.handleOf? bssid }

def observe (f : Frame) : Action Survey Device := do
  Action.require f.validate
  let s ← Action.read
  let known := s.addresses.find? f.source
  reserve f known
  let i ← match known with
    | some i => revisit f i
    | none => admitNew f
  followName f i
  followChannel f i
  resolveAccessPoint i
  match (← deviceAt i).network with
  | none => pure ()
  | some h => refreshSplit h
  deviceAt i

end AirSurvey.Survey

import AirSurvey.Action
import AirSurvey.Chain.Audit
import AirSurvey.Chain.Cursor
import AirSurvey.Settings

set_option autoImplicit false

/-!
Which device was heard on which channel. Each such pair is a presence, threaded onto two chains: the
channels of its device and the devices of its channel. A channel that was heard of once keeps its
place when its last device goes.
-/

namespace AirSurvey

structure Presence where
  /-- The slot of the device. -/
  device : Nat
  /-- The place of the channel in the table. -/
  entry : Nat
  onDevice : Link
  onChannel : Link
  deriving DecidableEq, Repr

def Presence.byDevice : LinkField Presence where
  get := onDevice
  set x l := { x with onDevice := l }
  get_set _ _ := rfl
  set_get _ := rfl
  set_set _ _ _ := rfl

def Presence.byChannel : LinkField Presence where
  get := onChannel
  set x l := { x with onChannel := l }
  get_set _ _ := rfl
  set_get _ := rfl
  set_set _ _ _ := rfl

theorem Presence.byDevice_independent : Presence.byDevice.Independent Presence.byChannel :=
  ⟨fun _ _ => rfl, fun _ _ => rfl⟩

structure ChannelEntry where
  channel : UInt8
  members : Chain Presence.byChannel

structure ChannelTable where
  /-- Channels in the order in which they were first heard. -/
  entries : Array ChannelEntry
  presences : Pool Presence Capacity.presences

namespace ChannelTable

def empty : ChannelTable := ⟨#[], .empty⟩

def position? (t : ChannelTable) (channel : UInt8) : Option Nat :=
  t.entries.findIdx? fun e => e.channel == channel

def find? (t : ChannelTable) (channel : UInt8) : Option ChannelEntry :=
  t.entries.find? fun e => e.channel == channel

def entryAt (t : ChannelTable) (i : Nat) : Except Fault ChannelEntry :=
  match t.entries[i]? with
  | some e => .ok e
  | none => .error (.noSuchChannel t.entries.size i)

def withMembers (t : ChannelTable) (i : Nat) (e : ChannelEntry)
    (x : Chain Presence.byChannel × Pool Presence Capacity.presences) : ChannelTable :=
  ⟨t.entries.setIfInBounds i { e with members := x.1 }, x.2⟩

def shortage? (t : ChannelTable) (channel : UInt8) : Option Supply :=
  if t.presences.isFull then some .presences
  else if (t.position? channel).isNone ∧ t.entries.size = Capacity.channels then some .channels
  else none

def channelOf (t : ChannelTable) (m : Nat) : Except Fault UInt8 := do
  let x ← t.presences.item m
  let e ← t.entryAt x.entry
  return e.channel

/-- The channels of a device, in the order in which it was first heard on them. -/
def channelsOf (t : ChannelTable) (c : Chain Presence.byDevice) : Except Fault (List UInt8) := do
  (← c.toList t.presences).mapM t.channelOf

def isOn (t : ChannelTable) (c : Chain Presence.byDevice) (channel : UInt8) :
    Except Fault Bool := do
  return (← t.channelsOf c).contains channel

/-- Slots of the devices on a channel, in the order in which they were first heard there. -/
def members (t : ChannelTable) (channel : UInt8) : Except Fault (List Nat) :=
  match t.find? channel with
  | none => .ok []
  | some e => do return (← e.members.items t.presences).map Presence.device

/-- The place of a channel, which gets one at the end if it is new. -/
def place (channel : UInt8) : Action ChannelTable Nat := do
  let t ← Action.read
  match t.position? channel with
  | some i => return i
  | none =>
    if t.entries.size = Capacity.channels then Action.refuse (.full .channels)
    else
      Action.write { t with entries := t.entries.push ⟨channel, .empty⟩ }
      Action.record (.newChannel channel)
      return t.entries.size

/-- Puts a device on a channel that it was not on; answers the new chain of its channels. -/
def join (device : Nat) (c : Chain Presence.byDevice) (channel : UInt8) :
    Action ChannelTable (Chain Presence.byDevice) := do
  let i ← place channel
  let t ← Action.read
  match t.presences.insert? fun _ => ⟨device, i, .loose, .loose⟩ with
  | none => Action.refuse (.full .presences)
  | some (h, presences) =>
    Action.write { t with presences }
    let e ← t.entryAt i
    let (_, presences) ← Action.settle (t.withMembers i e) (e.members.pushBack presences h.index)
    let t ← Action.read
    -- to push to the back changes the head last, so a fault has left `c` as it was
    let (c, _) ← Action.settle (fun (_, presences) => { t with presences })
      (c.pushBack presences h.index)
    return c

/-- Ends the presence in a slot, which is off its device's chain already. -/
def endPresence (t : ChannelTable) (m : Nat) : Except (Halt ChannelTable) ChannelTable := do
  let x ← orHalt t (t.presences.item m)
  let e ← orHalt t (t.entryAt x.entry)
  let (members, presences) ← within (t.withMembers x.entry e) (e.members.remove t.presences m)
  return t.withMembers x.entry e (members, presences.release m)

/-- Takes up to `fuel` presences from the front of a device's chain and ends them. -/
def leaveUpTo : Nat → ChannelTable → Chain Presence.byDevice →
    Except (Halt (ChannelTable × Chain Presence.byDevice))
      (ChannelTable × Chain Presence.byDevice)
  | fuel, t, c => do
    match ← within (fun (c, presences) => ({ t with presences }, c)) (c.popFront? t.presences) with
    | none => return (t, c)
    | some (m, c, presences) =>
      let t := { t with presences }
      match fuel with
      | 0 => throw ⟨.endlessWalk, (t, c)⟩
      | fuel + 1 => leaveUpTo fuel (← within (fun t => (t, c)) (t.endPresence m)) c

def leaveAll (t : ChannelTable) (c : Chain Presence.byDevice) :
    Except (Halt (ChannelTable × Chain Presence.byDevice))
      (ChannelTable × Chain Presence.byDevice) :=
  leaveUpTo t.presences.size t c

def clear (t : ChannelTable) : ChannelTable := ⟨#[], t.presences.clear⟩

def auditEntry (t : ChannelTable) (e : ChannelEntry) (i : Nat) : Except Fault (List Nat) := do
  e.members.audit t.presences
  let members ← e.members.toList t.presences
  members.forM fun m => do
    let x ← t.presences.item m
    if x.entry != i then throw (.defect (.wrongChannel m))
  return members

/-- Every presence is on the chain of the channel that it names and on no other. -/
def audit (t : ChannelTable) : Except Fault Unit := do
  let members ← t.entries.toList.zipIdx.mapM fun (e, i) => t.auditEntry e i
  if members.flatten.length != t.presences.size then throw (.defect .orphanedPresence)

def auditDevice (t : ChannelTable) (device : Nat) (c : Chain Presence.byDevice) :
    Except Fault Unit := do
  c.audit t.presences
  (← c.toList t.presences).forM fun m => do
    let x ← t.presences.item m
    if x.device != device then throw (.defect (.foreignPresence m))

end ChannelTable

end AirSurvey

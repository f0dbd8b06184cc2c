import AirSurvey.Proofs.Survey.Aiming
import AirSurvey.Proofs.Survey.Naming
import AirSurvey.Proofs.Survey.Reception

set_option autoImplicit false

/-!
The outlook of a survey: all that it shows of devices, networks and channels, told by addresses and
names. No slot and no handle is part of it, and yet it tells what every operation will come to.
-/

namespace AirSurvey

open NetworkTable (differ regard regardNews)

def Profile.adHocCell (p : Profile) : Option MacAddress :=
  if p.mode = some .adHoc then p.bssid else none

def Profile.isStation (p : Profile) (m : MacAddress) : Bool :=
  match p.mode with
  | some mode => mode == .station
  | none => p.bssid.any (· != m)

structure Outlook where
  settings : Settings
  /-- The addresses of all devices, the newest first. -/
  tracked : List MacAddress
  dossier : MacAddress → Option Dossier
  /-- The address of the access point of a device. -/
  aim : MacAddress → Option MacAddress
  /-- The addresses of the devices in networks, in the order in which they came to theirs. -/
  joined : List MacAddress
  names : Finset NetworkName
  /-- The names of the networks that have split. -/
  split : Finset NetworkName
  /-- The addresses of the devices on a channel, in the order in which they first appeared there. -/
  heard : UInt8 → List MacAddress
  numbers : List UInt8

/-- An answer without the handles in it. -/
inductive Tidings where
  | device (address : MacAddress) (profile : Profile) (channelCount : UInt16)
  | released (n : Nat)
  | done

def Reply.tidings : Reply → Tidings
  | .device d => .device d.address d.profile d.channelCount
  | .released n => .released n
  | .done => .done

namespace Outlook

variable (x : Outlook)

def blank (settings : Settings) : Outlook where
  settings := settings
  tracked := []
  dossier := fun _ => none
  aim := fun _ => none
  joined := []
  names := ∅
  split := ∅
  heard := fun _ => []
  numbers := []

def nameOf (m : MacAddress) : Option NetworkName := (x.dossier m).bind Dossier.name

def channelsOf (m : MacAddress) : List UInt8 := ((x.dossier m).map Dossier.channels).getD []

def members (name : NetworkName) : List MacAddress :=
  x.joined.filter fun m => x.nameOf m == some name

def differs (l : List MacAddress) : Bool :=
  differ (l.filterMap fun m => (x.dossier m).bind fun k => k.profile.adHocCell)

def isSplit (name : NetworkName) : Bool := x.differs (x.members name)

def isSplitWithout (m : MacAddress) (name : NetworkName) : Bool :=
  x.differs ((x.members name).filter (· != m))

/-! ## Taking in a frame -/

def presences : Nat := (x.tracked.map fun m => (x.channelsOf m).length).sum

def verdict (f : Frame) : Option Refusal :=
  if f.source.isZero then some .zeroSource
  else if f.source.isGroup then some .groupSource
  else if f.channel = some 0 then some .channelZero
  else if f.source ∉ x.tracked ∧ x.tracked.length = Capacity.devices then some (.full .devices)
  else if (f.visibleName.any fun name => name ∉ x.names) ∧ x.names.card = Capacity.networks then
    some (.full .networks)
  else if (f.newChannel (x.channelsOf f.source)).isSome ∧ x.presences = Capacity.presences then
    some (.full .presences)
  else if ((f.newChannel (x.channelsOf f.source)).any fun channel => channel ∉ x.numbers) ∧
    x.numbers.length = Capacity.channels then some (.full .channels)
  else if (x.dossier f.source).any fun k => f.timestamp < k.profile.lastSeen then
    some .clockBackwards
  else none

/-- The name that the sender of a frame comes to with it. -/
def newName (f : Frame) : Option NetworkName :=
  f.visibleName.filter fun name => x.nameOf f.source != some name

def oldName (f : Frame) : Option NetworkName :=
  (x.newName f).bind fun _ => x.nameOf f.source

/-- Once a frame is taken in and its device is on the indices that it belongs on. -/
def followed (f : Frame) : Outlook where
  settings := x.settings
  tracked := if f.source ∈ x.tracked then x.tracked else f.source :: x.tracked
  dossier := fun m =>
    if m = f.source then some (.follow x.settings.weight f (x.dossier m)) else x.dossier m
  aim := x.aim
  joined :=
    if (x.newName f).isSome then x.joined.filter (· != f.source) ++ [f.source] else x.joined
  names := (x.newName f).elim x.names fun name => insert name x.names
  split := regard x.split (x.isSplitWithout f.source) (x.oldName f)
  heard := fun channel => x.heard channel ++
    if f.newChannel (x.channelsOf f.source) = some channel then [f.source] else []
  numbers := x.numbers ++ (f.newChannel x.numbers).toList

def aimOf (m : MacAddress) : Option MacAddress :=
  (x.dossier m).bind fun k =>
    if k.profile.isStation m then k.profile.bssid.filter fun a => x.tracked.contains a else none

/-- Once a device is aimed and its network is looked at anew. -/
def settled (m : MacAddress) : Outlook :=
  { x with
    aim := fun a => if a = m then x.aimOf m else x.aim a
    split := regard x.split x.isSplit (x.nameOf m) }

def observed (f : Frame) : Outlook := (x.followed f).settled f.source

def moveNews (f : Frame) : List Event :=
  (x.newName f).toList.flatMap fun name =>
    (if name ∈ x.names then [] else [.newNetwork name.text]) ++
      regardNews x.split (x.isSplitWithout f.source) (x.nameOf f.source) ++
      [.joined f.source name.text]

def observeNews (f : Frame) : List Event :=
  (if f.source ∈ x.tracked then [] else [.newDevice f.source f.signal]) ++
    (x.moveNews f ++
      ((f.newChannel (x.channelsOf f.source)).filter fun channel =>
        !x.numbers.contains channel).toList.map Event.newChannel ++
      regardNews (x.followed f).split (x.followed f).isSplit ((x.followed f).nameOf f.source))

def told (f : Frame) : Tidings :=
  let k := Dossier.follow x.settings.weight f (x.dossier f.source)
  .device f.source k.profile (UInt16.ofNat k.channels.length)

/-! ## Forgetting devices -/

def isStale (now : Timestamp) (timeout : UInt32) (m : MacAddress) : Bool :=
  (x.dossier m).any fun k => timeout < elapsed now k.profile.lastSeen

def evicted (m : MacAddress) : Outlook where
  settings := x.settings
  tracked := x.tracked.filter (· != m)
  dossier := fun a => if a = m then none else x.dossier a
  aim := fun a => if a = m then none else (x.aim a).filter (· != m)
  joined := x.joined.filter (· != m)
  names := x.names
  split := regard x.split (x.isSplitWithout m) (x.nameOf m)
  heard := fun channel => (x.heard channel).filter (· != m)
  numbers := x.numbers

def evictNews (m : MacAddress) : List Event :=
  regardNews x.split (x.isSplitWithout m) (x.nameOf m) ++
    (x.dossier m).toList.map fun k => .evicted m k.profile.lastSeen

/-- Without the stale devices among some, who go one by one; with the records of that, and with how
many they were. -/
def sweepFrom (now : Timestamp) (timeout : UInt32) :
    List MacAddress → Outlook → Outlook × List Event × Nat
  | [], x => (x, [], 0)
  | m :: r, x =>
    if x.isStale now timeout m then
      let (y, events, n) := sweepFrom now timeout r (x.evicted m)
      (y, x.evictNews m ++ events, n + 1)
    else sweepFrom now timeout r x

def swept (now : Timestamp) (timeout : UInt32) : Outcome Outlook Tidings :=
  let (y, events, n) := sweepFrom now timeout x.tracked x
  ⟨y, if n = 0 then [] else events ++ [.swept n y.tracked.length], .ok .done⟩

def purged : Outlook :=
  { x with
    names := x.names.filter fun name => (x.members name).isEmpty = false
    split := x.split.filter fun name => (x.members name).isEmpty = false }

def next : Operation → Outcome Outlook Tidings
  | .observe f =>
    match x.verdict f with
    | some r => ⟨x, Survey.refusalNews f r, .error r⟩
    | none => ⟨x.observed f, x.observeNews f, .ok (x.told f)⟩
  | .sweep now timeout => x.swept now timeout
  | .expire now => x.swept now x.settings.timeout
  | .purge =>
    ⟨x.purged, [], .ok (.released (x.names.filter fun name => (x.members name).isEmpty = true).card)⟩
  | .clear => ⟨.blank x.settings, [], .ok .done⟩

end Outlook

namespace Survey

variable {s : Survey} {c : Chronicle} {i : Nat} {d : Device}

def aimAt (s : Survey) (i : Nat) : Option MacAddress :=
  ((s.devices.at? i).bind s.accessPointOf?).map Device.address

def aim (s : Survey) (m : MacAddress) : Option MacAddress := (s.addresses.find? m).bind s.aimAt

def outlook (s : Survey) (c : Chronicle) : Outlook where
  settings := s.settings
  tracked := s.addressesByAge c
  dossier := s.dossier c
  aim := s.aim
  joined := s.joinedAddresses c
  names := s.networks.names
  split := s.networks.splitNames
  heard := s.heardAddresses c
  numbers := s.channels.numbers

/-! ## What the networks show of their members -/

theorem dossier_outlook (hs : s.Indexed c) (hd : s.devices.at? i = some d) :
    (s.outlook c).dossier d.address = s.dossierAt c i := dossier_of_at? hs hd

theorem nameOf_outlook (hs : s.Indexed c) (hd : s.devices.at? i = some d) :
    (s.outlook c).nameOf d.address = (s.networkOf? d).map Network.name := by
  rw [Outlook.nameOf, dossier_outlook hs hd, dossierAt, hd]
  rfl

/-- The members of a network are those that go by its name. -/
theorem members_outlook (hs : s.Indexed c) {h : Handle} {n : Network}
    (hn : s.networks.get? h = some n) :
    (picked (networkSlot s.devices) c.joined h.index).filterMap (addressIn s.devices) =
      (s.outlook c).members n.name := by
  rw [Outlook.members, picked, List.filterMap_filter]
  change _ = (c.joined.filterMap (addressIn s.devices)).filter _
  rw [List.filter_filterMap]
  refine List.filterMap_congr fun j hj => ?_
  obtain ⟨a, ha⟩ := Option.isSome_iff_exists.1 ((hs.grouping.mem j).1 hj)
  obtain ⟨e, he, hnetwork⟩ := Option.bind_eq_some_iff.1 ha
  obtain ⟨k, hk, rfl⟩ := Option.map_eq_some_iff.1 hnetwork
  have haddress := addressIn_of_at? he
  -- A device names a network by the handle that the network has.
  have hslot : networkSlot s.devices j = some h.index ↔ e.network = some h := by
    have hhome := hs.home j e k he hk
    have hh := ((Pool.get?_eq_some_iff _ _ _).1 hn).1
    rw [ha, hk, Option.some.injEq, Option.some.injEq]
    constructor
    · intro hindex
      rw [hindex, hh] at hhome
      exact (Option.some.inj hhome).symm
    · exact congrArg Handle.index
  have hiff := hslot.trans (network_eq_some_iff hs e hn)
  rw [← nameOf_outlook hs he] at hiff
  rw [haddress, Option.filter_some]
  by_cases hname : (s.outlook c).nameOf e.address = some n.name
  · simp [hiff.2 hname, hname]
  · simp [mt hiff.1 hname, hname]

theorem splitAmong_outlook (hs : s.Indexed c) (l : List Nat) :
    NetworkTable.splitAmong s.devices l =
      (s.outlook c).differs (l.filterMap (addressIn s.devices)) := by
  rw [NetworkTable.splitAmong, NetworkTable.adHocCells, Outlook.differs, List.filterMap_filterMap,
    List.filterMap_filterMap]
  refine congrArg differ (List.filterMap_congr fun j _ => ?_)
  cases hd : s.devices.at? j with
  | none => simp [addressIn, hd]
  | some d =>
    simp [addressIn, hd, dossier_outlook hs hd, dossierAt, Profile.adHocCell]

theorem splitWithout_outlook (hs : s.Indexed c) (hd : s.devices.at? i = some d) {h : Handle}
    {n : Network} (hn : s.networks.get? h = some n) :
    s.splitWithout c i h = (s.outlook c).isSplitWithout d.address n.name := by
  rw [splitWithout, splitAmong_outlook hs, hs.roster.addresses_without hd, members_outlook hs hn,
    Outlook.isSplitWithout]

end Survey

end AirSurvey

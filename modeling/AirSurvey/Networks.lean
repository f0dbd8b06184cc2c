import AirSurvey.Device

set_option autoImplicit false

/-!
Networks by name, each with its members in the order in which they joined. A network stays when its
last member goes, until the owner of the survey has the empty ones released.
-/

namespace AirSurvey

structure Network where
  name : NetworkName
  members : Chain Device.byNetwork
  /-- Its ad-hoc members are in different cells. -/
  isSplit : Bool

def Network.isEmpty (n : Network) : Bool := n.members.isEmpty

structure NetworkTable where
  pool : Pool Network Capacity.networks

namespace NetworkTable

def empty : NetworkTable := ⟨.empty⟩

def get? (t : NetworkTable) (h : Handle) : Option Network := t.pool.get? h

def find? (t : NetworkTable) (name : String) : Option Handle :=
  (t.pool.entries.find? fun e => e.2.name.text == name).map Prod.fst

def hasRoomFor (t : NetworkTable) (name : String) : Bool :=
  !t.pool.isFull || (t.find? name).isSome

def enter (name : String) : Action NetworkTable Handle := do
  let t ← Action.read
  match t.find? name with
  | some h => return h
  | none =>
    match NetworkName.ofText? name with
    | none => Action.refuse .nameTooLong
    | some n =>
      match t.pool.insert? fun _ => ⟨n, .empty, false⟩ with
      | none =>
        Action.record (.networkTableFull name)
        Action.refuse (.full .networks)
      | some (h, pool) =>
        Action.write ⟨pool⟩
        Action.record (.newNetwork name)
        return h

def emptyOnes (t : NetworkTable) : List Handle :=
  (t.pool.entries.filter fun e => e.2.isEmpty).map Prod.fst

def purge (t : NetworkTable) : Nat × NetworkTable :=
  (t.emptyOnes.length, ⟨t.emptyOnes.foldl (fun p h => p.release h.index) t.pool⟩)

def clear (t : NetworkTable) : NetworkTable := ⟨t.pool.clear⟩

/-- The known cells of the ad-hoc devices among some. -/
def adHocCells (devices : List Device) : List MacAddress :=
  devices.filterMap fun d => if d.profile.mode = some .adHoc then d.profile.bssid else none

def differ : List MacAddress → Bool
  | [] => false
  | first :: rest => rest.any (· != first)

/-- Looks anew whether a network has split, and records it if that is news. -/
def refreshSplit (h : Handle) (devices : DevicePool) : Action NetworkTable Unit := do
  let t ← Action.read
  match t.get? h with
  | none => return
  | some n =>
    let members ← n.members.items devices
    let isSplit := differ (adHocCells members)
    if isSplit && !n.isSplit then Action.record (.split n.name.text)
    Action.write ⟨t.pool.modify h fun n => { n with isSplit }⟩

end NetworkTable

end AirSurvey

set_option autoImplicit false

/-!
Faults are states that no correct use of the library reaches: a link into a vacant slot, an entry
threaded twice, an index that an audit finds out of step. They end an operation where they are met,
with whatever it had written by then, and are kept apart from refusals, which are answers.
-/

namespace AirSurvey

inductive Defect where
  | backLink (slot : Nat)
  | chainTooLong
  | chainOpen
  | headBackLink
  | chainLength
  | agesMissDevices
  | addressCount
  | addressStale
  | handleStale
  | missingFromNetwork
  | linkedWithoutNetwork
  | foreignPresence (slot : Nat)
  | channelCount
  | danglingAccessPoint
  | twoNetworks
  | wrongChannel (slot : Nat)
  | orphanedPresence
  deriving DecidableEq, Repr

def Defect.message : Defect → String
  | .backLink i => s!"list entry {i}: back link disagrees"
  | .chainTooLong => "list longer than recorded length"
  | .chainOpen => "list does not close on its head"
  | .headBackLink => "head back link disagrees"
  | .chainLength => "list length mismatch"
  | .agesMissDevices => "global list misses nodes"
  | .addressCount => "mac index out of step"
  | .addressStale => "mac index stale"
  | .handleStale => "node id stale"
  | .missingFromNetwork => "node missing from its essid group"
  | .linkedWithoutNetwork => "node on an essid list without a group"
  | .foreignPresence i => s!"membership {i} belongs to another node"
  | .channelCount => "channel_count out of step"
  | .danglingAccessPoint => "dangling AP reference"
  | .twoNetworks => "node in more than one essid group"
  | .wrongChannel i => s!"membership {i} on the wrong channel list"
  | .orphanedPresence => "orphaned channel memberships"

inductive Fault where
  /-- A link was followed to a slot that holds nothing. -/
  | vacantSlot (slot : Nat)
  /-- An entry that is on a chain was put on one again. -/
  | alreadyLinked (slot : Nat)
  /-- An entry that is on no chain was taken off one. -/
  | notLinked (slot : Nat)
  /-- A neighbour to be rewired stands on no chain. -/
  | looseNeighbour
  /-- An entry was taken off a chain that counts none. -/
  | countBelowZero
  /-- A presence names a channel entry that does not exist. -/
  | noSuchChannel (count entry : Nat)
  /-- A walk met more entries than the pool has. -/
  | endlessWalk
  | defect (found : Defect)
  deriving DecidableEq, Repr

def Fault.message : Fault → String
  | .vacantSlot i => s!"list link points at vacant slot {i}"
  | .alreadyLinked i => s!"entry {i} is already linked"
  | .notLinked i => s!"removing unlinked entry {i}"
  | .countBelowZero => "attempt to subtract with overflow"
  | .looseNeighbour => "internal error: entered unreachable code: link through an unlinked position"
  | .noSuchChannel count entry =>
      s!"index out of bounds: the len is {count} but the index is {entry}"
  | .endlessWalk => "list walk does not end"
  | .defect found => found.message

/-- A fault, and the state that it was met in. -/
structure Halt (σ : Type) where
  fault : Fault
  state : σ

def Halt.map {σ τ : Type} (whole : σ → τ) (h : Halt σ) : Halt τ := ⟨h.fault, whole h.state⟩

/-- Something that writes nothing itself, done in a state. -/
def orHalt {σ α : Type} (s : σ) (x : Except Fault α) : Except (Halt σ) α :=
  x.mapError fun fault => ⟨fault, s⟩

/-- A change to a part of a state, where `whole` puts the part back. -/
def within {σ τ α : Type} (whole : σ → τ) (x : Except (Halt σ) α) : Except (Halt τ) α :=
  x.mapError (Halt.map whole)

section Halt

variable {σ τ α : Type} (s : σ) (whole : σ → τ)

@[simp] theorem orHalt_ok (x : α) : orHalt s (.ok x) = .ok x := rfl

@[simp] theorem orHalt_error (fault : Fault) :
    orHalt s (.error fault : Except Fault α) = .error ⟨fault, s⟩ := rfl

@[simp] theorem within_ok (x : α) : within whole (.ok x) = .ok x := rfl

@[simp] theorem within_error (h : Halt σ) :
    within whole (.error h : Except (Halt σ) α) = .error ⟨h.fault, whole h.state⟩ := rfl

end Halt

end AirSurvey

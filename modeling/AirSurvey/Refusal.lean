set_option autoImplicit false

/-!
Refusals are the answers to requests that cannot be met: a frame that names no device, a pool
without room, a record that contradicts what is known. The caller drops the frame and goes on.
-/

namespace AirSurvey

inductive Supply where
  | devices
  | addresses
  | networks
  | presences
  | channels
  deriving DecidableEq, Repr

def Supply.text : Supply → String
  | .devices => "node"
  | .addresses => "mac index"
  | .networks => "essid"
  | .presences => "channel membership"
  | .channels => "channel"

inductive Refusal where
  | zeroSource
  | groupSource
  | channelZero
  | nameTooLong
  | full (supply : Supply)
  /-- The frame is older than the last one of its device. -/
  | clockBackwards
  /-- A device names a network that is gone. -/
  | releasedNetwork
  deriving DecidableEq, Repr

namespace Refusal

inductive Kind where
  | invalidFrame
  | outOfRoom
  | inconsistent
  deriving DecidableEq, Repr

def Kind.message : Kind → String → String
  | .invalidFrame, subject => "invalid frame record: " ++ subject
  | .outOfRoom, subject => "out of memory: " ++ subject ++ " pool is full"
  | .inconsistent, subject => "internal inconsistency: " ++ subject

def kind : Refusal → Kind
  | .zeroSource | .groupSource | .channelZero | .nameTooLong => .invalidFrame
  | .full _ => .outOfRoom
  | .clockBackwards | .releasedNetwork => .inconsistent

def subject : Refusal → String
  | .zeroSource => "zero source address"
  | .groupSource => "group source address"
  | .channelZero => "channel 0"
  | .nameTooLong => "essid too long"
  | .full supply => supply.text
  | .clockBackwards => "frame timestamp before node last_seen"
  | .releasedNetwork => "node names a released essid group"

def message (r : Refusal) : String := r.kind.message r.subject

end Refusal

end AirSurvey

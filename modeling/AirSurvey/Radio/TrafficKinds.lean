set_option autoImplicit false

/-!
Kinds of traffic as a set of bits: a frame carries the kinds it was recognised as, a device all
kinds it has sent.
-/

namespace AirSurvey

structure TrafficKinds where
  bits : UInt32
  deriving DecidableEq, Repr

namespace TrafficKinds

def none : TrafficKinds := ⟨0⟩

def bit (i : UInt32) : TrafficKinds := ⟨1 <<< i⟩

def beacon : TrafficKinds := bit 0
def probeRequest : TrafficKinds := bit 1
def probeResponse : TrafficKinds := bit 2
def association : TrafficKinds := bit 3
def authentication : TrafficKinds := bit 4
def rtsCts : TrafficKinds := bit 5
def acknowledgement : TrafficKinds := bit 6
def nullData : TrafficKinds := bit 7
def data : TrafficKinds := bit 8
def qosData : TrafficKinds := bit 9
def arp : TrafficKinds := bit 10
def ip : TrafficKinds := bit 11
def icmp : TrafficKinds := bit 12
def udp : TrafficKinds := bit 13
def tcp : TrafficKinds := bit 14
def olsr : TrafficKinds := bit 15
def batman : TrafficKinds := bit 16
def mesh : TrafficKinds := bit 17

instance : Union TrafficKinds := ⟨fun x y => ⟨x.bits ||| y.bits⟩⟩

def isEmpty (x : TrafficKinds) : Bool := x.bits == 0

def contains (x y : TrafficKinds) : Bool := x.bits &&& y.bits == y.bits

def intersects (x y : TrafficKinds) : Bool := x.bits &&& y.bits != 0

/-- Beacons and probe responses announce the channel of their sender. -/
def advertises (x : TrafficKinds) : Bool := x.intersects (beacon ∪ probeResponse)

end TrafficKinds

end AirSurvey

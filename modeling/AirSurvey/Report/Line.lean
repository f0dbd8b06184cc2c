import AirSurvey.Clock
import AirSurvey.Radio.Capability
import AirSurvey.Radio.MacAddress
import AirSurvey.Radio.TrafficKinds
import AirSurvey.Report.Value
import AirSurvey.Text.Bytes

set_option autoImplicit false

/-!
Reports, one line each: an object whose first field tells the kind of report. What is unknown is
left out.
-/

namespace AirSurvey

structure DeviceReport where
  address : MacAddress
  network : Option String
  bssid : Option MacAddress
  mode : Option Mode
  channel : Option UInt8
  channels : List UInt8
  strongest : Int8
  /-- The moving average in whole dBm. -/
  average : Int16
  frames : UInt32
  kinds : TrafficKinds
  encryption : Encryption
  accessPoint : Option MacAddress
  lastSeen : Timestamp
  deriving DecidableEq

def Report.version : String := "0.1.0"

inductive Report where
  | device (r : DeviceReport)
  | network (name : String) (members : Nat) (isSplit : Bool)
  | status (devices networks channels : Nat) (version : String := Report.version)
  deriving DecidableEq

namespace Report

def maxBytes : Nat := 512

def maxChannels : Nat := 16

def ofText (s : String) : Value := .text s.toList

def ofAddress (m : MacAddress) : Value := .text m.chars

def ofEncryption (e : Encryption) : Value :=
  .flags [("wep", e.wep), ("wpa", e.wpa), ("rsn", e.rsn)]

/-- The fields of a device, in order; `none` for one that is unknown. -/
def deviceFields (r : DeviceReport) : List (String × Option Value) := [
  ("type", some (ofText "node")),
  ("mac", some (ofAddress r.address)),
  ("essid", r.network.map ofText),
  ("bssid", r.bssid.map ofAddress),
  ("mode", r.mode.map fun m => ofText m.text),
  ("ch", r.channel.map fun c => .number c.toNat),
  ("channels", some (.numbers (r.channels.map UInt8.toNat))),
  ("sig_max", some (.number r.strongest.toInt)),
  ("sig_avg", some (.number r.average.toInt)),
  ("pkts", some (.number r.frames.toNat)),
  ("kinds", some (.number r.kinds.bits.toNat)),
  ("enc", some (ofEncryption r.encryption)),
  ("ap", r.accessPoint.map ofAddress),
  ("last_seen", some (.number r.lastSeen.toNat))]

def fields : Report → List (String × Option Value)
  | .device r => deviceFields r
  | .network name members isSplit => [
    ("type", some (ofText "essid")),
    ("name", some (ofText name)),
    ("members", some (.number members)),
    ("split", some (.flag isSplit))]
  | .status devices networks channels version => [
    ("type", some (ofText "status")),
    ("nodes", some (.number devices)),
    ("essids", some (.number networks)),
    ("channels", some (.number channels)),
    ("version", some (ofText version))]

def text (r : Report) : List Char :=
  object (r.fields.filterMap fun (name, value) => value.map fun v => (name, v.chars))

def line (r : Report) : List Char := r.text ++ ['\n']

def textWithin? (r : Report) (room : Nat) : Option (List Char) :=
  if Text.byteLength r.text ≤ room then some r.text else none

/-- The line in `room` bytes: the text has to fit, and a newline behind it. -/
def lineWithin? (r : Report) (room : Nat) : Option (List Char) := do
  let text ← r.textWithin? room
  if Text.byteLength text < room then some (text ++ ['\n']) else none

end Report

end AirSurvey

import AirSurvey.Radio.MacAddress
import AirSurvey.Clock

set_option autoImplicit false

/-!
Records of what a survey did, for its log.
-/

namespace AirSurvey

inductive Event where
  | noDeviceRoom (source : MacAddress)
  | noNetworkRoom (source : MacAddress)
  | noChannelRoom (source : MacAddress)
  | networkTableFull (name : String)
  | newDevice (address : MacAddress) (signal : Int8)
  | newNetwork (name : String)
  | newChannel (channel : UInt8)
  | joined (address : MacAddress) (name : String)
  | split (name : String)
  | evicted (address : MacAddress) (lastSeen : Timestamp)
  | swept (gone remain : Nat)
  | reportTooLarge (room : Nat)
  deriving DecidableEq, Repr

namespace Event

inductive Level where
  | debug
  | info
  | warn
  deriving DecidableEq, Repr

def Level.text : Level → String
  | .debug => "DEBUG"
  | .info => "INFO"
  | .warn => "WARN"

def level : Event → Level
  | .noDeviceRoom _ | .noNetworkRoom _ | .noChannelRoom _ | .networkTableFull _ => .warn
  | .newDevice _ _ | .newNetwork _ | .newChannel _ | .joined _ _ | .evicted _ _ => .debug
  | .split _ | .swept _ _ => .info
  | .reportTooLarge _ => .warn

def text : Event → String
  | .noDeviceRoom source => "node table full, dropping frame from " ++ source.text
  | .noNetworkRoom source => "essid table full, dropping frame from " ++ source.text
  | .noChannelRoom source => "channel index full, dropping frame from " ++ source.text
  | .networkTableFull name => "essid table full, dropping \"" ++ name ++ "\""
  | .newDevice address signal =>
      "new node " ++ address.text ++ " (" ++ toString signal.toInt ++ " dBm)"
  | .newNetwork name => "new essid \"" ++ name ++ "\""
  | .newChannel channel => "first node on channel " ++ toString channel.toNat
  | .joined address name => address.text ++ " joined essid \"" ++ name ++ "\""
  | .split name => "IBSS split detected on \"" ++ name ++ "\""
  | .evicted address lastSeen =>
      "evicted " ++ address.text ++ " (last seen " ++ toString lastSeen.toNat ++ ")"
  | .swept gone remain =>
      "evicted " ++ toString gone ++ " stale nodes, " ++ toString remain ++ " remain"
  | .reportTooLarge room => "report too large for " ++ toString room ++ " byte buffer, skipped"

end Event

end AirSurvey

import AirSurvey.Report.Line
import AirSurvey.Survey.Basic

set_option autoImplicit false

/-!
Reports of a survey: one device, one network, the whole, or a snapshot of everything.
-/

namespace AirSurvey

structure Snapshot where
  lines : List (List Char)
  events : List Event

namespace Survey

def reportOf (s : Survey) (d : Device) : Except Fault Report := do
  let channels ← s.channelsOf d
  return .device {
    address := d.address
    network := (s.networkOf? d).map fun n => n.name.text
    bssid := d.profile.bssid
    mode := d.profile.mode
    channel := d.profile.channel
    channels := channels.take Report.maxChannels
    strongest := d.profile.signal.max
    average := Signal.wholeDbm d.profile.signal.average
    frames := d.profile.frameCount
    kinds := d.profile.kinds
    encryption := d.profile.encryption
    accessPoint := (s.accessPointOf? d).map Device.address
    lastSeen := d.profile.lastSeen }

def reportOfNetwork (n : Network) : Report :=
  .network n.name.text n.members.length n.isSplit

def status (s : Survey) : Report :=
  .status s.size s.networks.pool.size s.channelEntries.length

/-- The status, then the networks in slot order, then the devices, the newest first. -/
def reports (s : Survey) : Except Fault (List Report) := do
  let devices ← (← s.allDevices).mapM s.reportOf
  let networks := s.networks.pool.entries.map fun e => reportOfNetwork e.2
  return s.status :: networks ++ devices

/-- The lines of all reports; one that is too long is left out, with a record. -/
def snapshot (s : Survey) : Except Fault Snapshot := do
  let lines := (← s.reports).map fun r => r.lineWithin? Report.maxBytes
  return {
    lines := lines.filterMap id
    events := (lines.filter Option.isNone).map fun _ => .reportTooLarge Report.maxBytes }

end Survey

end AirSurvey

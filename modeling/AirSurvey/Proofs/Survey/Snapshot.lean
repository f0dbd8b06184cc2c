import AirSurvey.Proofs.Report.Length
import AirSurvey.Proofs.Survey.Membership
import AirSurvey.Survey.Snapshot

set_option autoImplicit false

/-!
What a snapshot tells of a survey. The lines of the whole and of the networks always have room; the
line of a device has room unless JSON makes too much of the name of its network.
-/

namespace AirSurvey

namespace Snapshot

def ofReports (rs : List Report) : Snapshot where
  lines := (rs.filter Report.fits).map Report.line
  events := (rs.filter fun r => !r.fits).map fun _ => .reportTooLarge Report.maxBytes

theorem ofReports_eq (rs : List Report) :
    ofReports rs =
      { lines := (rs.map fun r => r.lineWithin? Report.maxBytes).filterMap id
        events := ((rs.map fun r => r.lineWithin? Report.maxBytes).filter Option.isNone).map
          fun _ => .reportTooLarge Report.maxBytes } := by
  induction rs with
  | nil => rfl
  | cons r rs ih =>
    obtain ⟨hlines, hevents⟩ := mk.inj ih
    rw [List.map_cons, Report.lineWithin?_maxBytes]
    cases hr : r.fits with
    | true => simp [ofReports, hr, hlines, hevents]
    | false => simp [ofReports, hr, hlines, hevents]

theorem ofReports_append (rs rs' : List Report) :
    ofReports (rs ++ rs') =
      ⟨(ofReports rs).lines ++ (ofReports rs').lines,
        (ofReports rs).events ++ (ofReports rs').events⟩ := by
  simp [ofReports]

theorem ofReports_of_fits {rs : List Report} (h : ∀ r ∈ rs, r.fits = true) :
    ofReports rs = ⟨rs.map Report.line, []⟩ := by
  rw [ofReports, List.filter_eq_self.2 h, List.filter_eq_nil_iff.2 fun r hr => by simp [h r hr]]
  rfl

end Snapshot

theorem Device.mode_of_isStation {d : Device} (h : d.isStation = true) :
    d.profile.mode = none ∨ d.profile.mode = some .station := by
  unfold isStation at h
  cases hmode : d.profile.mode with
  | none => exact .inl rfl
  | some mode =>
    rw [hmode] at h
    exact .inr (by rw [beq_iff_eq.1 h])

namespace Survey

variable {s : Survey} {c : Chronicle}

theorem exists_reportOf (hs : s.Sound c) {i : Nat} {d : Device} (hd : s.devices.at? i = some d) :
    ∃ r, s.reportOf d = .ok (.device r) ∧ r.kinds = d.profile.kinds ∧
      r.network = ((s.networkOf? d).map Network.name).map NetworkName.text ∧
      r.channels.length ≤ Report.maxChannels ∧
      (r.accessPoint.isSome = true → r.mode = none ∨ r.mode = some .station) := by
  refine ⟨_, by rw [reportOf, channelsOf_eq hs.toIndexed hd]; rfl, rfl, ?_,
    List.length_take_le .., fun hsome => ?_⟩
  · rw [Option.map_map]
    rfl
  · rw [Option.isSome_map, accessPointOf?, Option.isSome_iff_exists] at hsome
    obtain ⟨a, ha⟩ := hsome
    obtain ⟨h, hh, -⟩ := Option.bind_eq_some_iff.1 ha
    obtain ⟨-, -, hstation, -⟩ := hs.aimed i d hd h hh
    exact Device.mode_of_isStation hstation

theorem size_lt (hs : s.Indexed c) : s.size < 1000 := by
  have hsum := hs.roster.pool.size_add_free
  have hbound : s.devices.slots.size ≤ 128 := hs.roster.pool.bounded
  rw [size]
  omega

theorem status_fits (hs : s.Indexed c) : s.status.fits = true := by
  have hnetworks : s.networks.pool.size < 1000 := by
    have hsum := hs.grouping.pool.size_add_free
    have hbound : s.networks.pool.slots.size ≤ 32 := hs.grouping.pool.bounded
    omega
  have hchannels : s.channelEntries.length < 1000 := by
    have hroom : s.channels.numbers.length ≤ 64 := hs.hearing.room
    rw [ChannelTable.numbers, List.length_map] at hroom
    rw [channelEntries]
    omega
  rw [Report.fits_iff, status]
  exact Nat.le_trans (Report.byteLength_line_status_le (size_lt hs) hnetworks hchannels) (by decide)

theorem reportOfNetwork_fits (hs : s.Indexed c) {h : Handle} {n : Network}
    (hn : s.networks.get? h = some n) : (reportOfNetwork n).fits = true := by
  have hmembers : n.members.length < 1000 := by
    rw [(hs.grouping.spells hn).length]
    refine Nat.lt_of_le_of_lt (hs.roster.pool.length_le_size (picked_nodup hs.grouping.nodup)
      fun i hi => ?_) (size_lt hs)
    obtain ⟨d, hd, -⟩ := Option.bind_eq_some_iff.1 (mem_picked.1 hi).2
    simp [hd]
  have hname : Text.byteLength (Text.quoted n.name.text.toList) ≤ 6 * 32 + 2 := by
    have hfits : Text.byteLength n.name.text.toList ≤ 32 := by
      rw [Text.byteLength_toList]
      exact n.name.fits
    exact Nat.le_trans (Text.byteLength_quoted_le _) (by omega)
  have hline := Report.byteLength_line_network_le n.name.text hmembers n.isSplit
  rw [Report.fits_iff, reportOfNetwork, Report.maxBytes]
  omega

def overview (s : Survey) : List Report :=
  s.status :: s.networks.pool.entries.map fun e => reportOfNetwork e.2

theorem overview_fits (hs : s.Indexed c) : ∀ r ∈ s.overview, r.fits = true := by
  rw [overview, List.forall_mem_cons, List.forall_mem_map]
  refine ⟨status_fits hs, fun e he => reportOfNetwork_fits hs ((Pool.mem_entries _ _ _).1 he)⟩

/-- What a snapshot is made of, once each device has its report. -/
theorem snapshot_eq {ds : List Device} {rs : List Report} (hds : s.allDevices = .ok ds)
    (hrs : ds.mapM s.reportOf = .ok rs) : s.snapshot = .ok (.ofReports (s.overview ++ rs)) := by
  have hreports : s.reports = .ok (s.overview ++ rs) := by
    simp only [reports, hds, hrs, bind, Except.bind, pure, Except.pure]
    rfl
  rw [snapshot, hreports, Snapshot.ofReports_eq]
  rfl

end Survey

end AirSurvey

import AirSurvey.Proofs.Survey.Reading
import AirSurvey.Proofs.Survey.Records

set_option autoImplicit false

/-!
What the readers of a survey answer after a sweep: what they answered before, without the devices
that were evicted.
-/

namespace AirSurvey

/-- Silent for longer than `timeout` seconds at `now`, counted without bound. -/
def Device.silentFor (d : Device) (now : Timestamp) (timeout : UInt32) : Bool :=
  decide (timeout.toNat < now.toNat - d.profile.lastSeen.toNat)

theorem Device.isStale_eq (d : Device) (now : Timestamp) (timeout : UInt32) :
    d.isStale now timeout = d.silentFor now timeout := by
  rw [isStale, silentFor, ← elapsed_toNat]
  simp only [UInt32.lt_iff_toNat_lt]

namespace Survey

variable {s t : Survey} {c : Chronicle} {now : Timestamp} {timeout : UInt32}

namespace Thinned

variable {gone : Nat → Bool} {coat : Device → Device}

theorem devices (h : Thinned gone coat s t) (l : List Nat) :
    ((l.filter fun j => !gone j).filterMap t.devices.at?).map Device.core =
      ((l.filter fun j => !gone j).filterMap s.devices.at?).map coat := by
  rw [List.map_filterMap, List.map_filterMap]
  refine List.filterMap_congr fun j hj => ?_
  have hstays : gone j = false := by simpa using (List.mem_filter.1 hj).2
  rw [h.core, hstays]
  rfl

theorem networkSlot (h : Thinned gone coat s t) (hcoat : ∀ d, (coat d).network = d.network)
    {j : Nat} (hj : gone j = false) :
    AirSurvey.networkSlot t.devices j = AirSurvey.networkSlot s.devices j := by
  have hcore := h.core j
  rw [hj] at hcore
  have hnetwork := congrArg (Option.bind · fun d => d.network.map Handle.index) hcore
  simpa [AirSurvey.networkSlot, Option.bind_map, Function.comp_def, Device.core, hcoat] using hnetwork

theorem picked_networkSlot (h : Thinned gone coat s t) (hcoat : ∀ d, (coat d).network = d.network)
    (a : Nat) :
    picked (AirSurvey.networkSlot t.devices) (c.without s.channels gone).joined a =
      (picked (AirSurvey.networkSlot s.devices) c.joined a).filter fun j => !gone j := by
  rw [← picked_filter]
  refine picked_congr (fun j hj => h.networkSlot hcoat ?_) a
  simpa using (List.mem_filter.1 hj).2

theorem channelAt (h : Thinned gone coat s t) (m : Nat) :
    t.channels.channelAt m =
      if (s.channels.deviceOf m).any gone then none else s.channels.channelAt m := by
  rw [ChannelTable.channelAt, h.entryOf, h.numbers]
  split <;> rfl

theorem channelsAt (h : Thinned gone coat s t) {i : Nat} (hi : gone i = false) :
    t.channels.channelsAt (c.without s.channels gone).heard i =
      s.channels.channelsAt c.heard i := by
  have hpicked : picked t.channels.deviceOf (c.without s.channels gone).heard i =
      picked s.channels.deviceOf c.heard i := by
    simp only [picked, Chronicle.without, List.filter_filter]
    refine List.filter_congr fun m _ => ?_
    rw [h.deviceOf]
    cases s.channels.deviceOf m with
    | none => rfl
    | some j =>
      by_cases hj : j = i
      · simp [hj, hi, Option.filter_some]
      · cases hg : gone j <;> simp [hg, hj, Option.filter_some]
  rw [ChannelTable.channelsAt, hpicked]
  refine List.filterMap_congr fun m hm => ?_
  rw [h.channelAt, (mem_picked.1 hm).2]
  simp [hi]

theorem slotsOn (h : Thinned gone coat s t) (channel : UInt8) :
    t.channels.slotsOn (c.without s.channels gone).heard channel =
      (s.channels.slotsOn c.heard channel).filter fun j => !gone j := by
  simp only [ChannelTable.slotsOn, Chronicle.without, List.filter_filter, List.filterMap_filter,
    List.filter_filterMap]
  refine List.filterMap_congr fun m _ => ?_
  rw [h.channelAt, h.deviceOf]
  cases s.channels.deviceOf m with
  | none => simp
  | some j =>
    cases hg : gone j <;> cases hc : s.channels.channelAt m == some channel <;>
      simp [hg, hc, Option.filter_some]

end Thinned

/-- What a sweep leaves of a device that stays: everything but an access point that is evicted. -/
def spared (s : Survey) (now : Timestamp) (timeout : UInt32) (d : Device) : Device :=
  { d.core with
    accessPoint := d.accessPoint.filter fun h => !(s.device? h).any (·.silentFor now timeout) }

/-- `after` is what a sweep leaves of the devices `before`, in the order in which they were. -/
def Spares (s : Survey) (now : Timestamp) (timeout : UInt32) (before after : List Device) : Prop :=
  after.map Device.core =
    (before.filter fun d => !d.silentFor now timeout).map (s.spared now timeout)

theorem stale_eq (s : Survey) (now : Timestamp) (timeout : UInt32) (j : Nat) :
    s.stale now timeout j = (s.devices.at? j).any (·.silentFor now timeout) := by
  rw [stale]
  exact congrArg (s.devices.at? j).any (funext fun d => d.isStale_eq now timeout)

theorem survivor_eq (hs : s.Sound c) {i : Nat} {d : Device} (hd : s.devices.at? i = some d) :
    survivor (s.stale now timeout) d = s.spared now timeout d := by
  rw [survivor, spared]
  congr 1
  cases hh : d.accessPoint with
  | none => rfl
  | some h =>
    obtain ⟨a, ha, -⟩ := hs.aimed i d hd h hh
    simp [Option.filter_some, stale_eq, Pool.at?_of_get? ha, device?, ha]

namespace Thinned

theorem spares (h : Thinned (s.stale now timeout) (survivor (s.stale now timeout)) s t)
    (hs : s.Sound c) (l : List Nat) :
    s.Spares now timeout (l.filterMap s.devices.at?)
      ((l.filter fun j => !s.stale now timeout j).filterMap t.devices.at?) := by
  rw [Spares, h.devices, List.filterMap_filter, List.filter_filterMap, List.map_filterMap,
    List.map_filterMap]
  refine List.filterMap_congr fun j _ => ?_
  cases hd : s.devices.at? j with
  | none => simp
  | some d =>
    cases hsilent : d.silentFor now timeout <;>
      simp [stale_eq, hd, hsilent, Option.filter_some, survivor_eq hs hd]

theorem device? (h : Thinned (s.stale now timeout) (survivor (s.stale now timeout)) s t)
    (hs : s.Sound c) (k : Handle) :
    (t.device? k).map Device.core =
      ((s.device? k).filter fun d => !d.silentFor now timeout).map (s.spared now timeout) := by
  rw [Survey.device?, Survey.device?, h.get?]
  cases hd : s.devices.get? k with
  | none => simp
  | some d =>
    have hat := Pool.at?_of_get? hd
    cases hsilent : d.silentFor now timeout <;>
      simp [stale_eq, hat, hsilent, Option.filter_some, survivor_eq hs hat]

theorem find? {gone : Nat → Bool} {coat : Device → Device} {c' : Chronicle}
    (h : Thinned gone coat s t) (hcoat : ∀ d, (coat d).address = d.address) (hs : s.Indexed c)
    (ht : t.Indexed c') (m : MacAddress) :
    t.addresses.find? m = (s.addresses.find? m).filter fun j => !gone j := by
  refine Option.ext fun j => ?_
  rw [ht.roster.tells, Option.filter_eq_some_iff, hs.roster.tells]
  cases hj : gone j with
  | true =>
    have hcore := h.core j
    rw [hj, if_pos rfl, Option.map_eq_none_iff] at hcore
    simp [addressIn, hcore]
  | false => simp [h.addressIn_eq hcoat hj]

end Thinned

theorem sum_channelCountAt (s : Survey) (l : List Nat) :
    ((l.filter (s.stale now timeout)).map s.channelCountAt).sum =
      (((l.filterMap s.devices.at?).filter (·.silentFor now timeout)).map
        (·.channelCount.toNat)).sum := by
  induction l with
  | nil => rfl
  | cons j l ih =>
    cases hd : s.devices.at? j with
    | none => simp [stale_eq, hd, ← ih]
    | some d =>
      cases hsilent : d.silentFor now timeout <;>
        simp [stale_eq, hd, hsilent, channelCountAt, ← ih]

/-- A sweep evicts exactly the devices that were silent for too long, and takes nothing else away but
their memberships, their presences and the access points that they were. -/
theorem sweep_exact (hs : s.Reachable) (now : Timestamp) (timeout : UInt32) :
    ∃ t events, (sweep now timeout).run s = .ok ⟨t, events, .ok ()⟩ ∧
      (∃ ds es, s.allDevices = .ok ds ∧ t.allDevices = .ok es ∧ s.Spares now timeout ds es ∧
        t.channels.presences.size +
            ((ds.filter (·.silentFor now timeout)).map (·.channelCount.toNat)).sum =
          s.channels.presences.size ∧
        ((∀ d ∈ ds, d.silentFor now timeout = false) → t = s)) ∧
      (∀ k, (t.device? k).map Device.core =
        ((s.device? k).filter fun d => !d.silentFor now timeout).map (s.spared now timeout)) ∧
      (∀ m, ∃ d e, s.find? m = .ok d ∧ t.find? m = .ok e ∧
        s.Spares now timeout d.toList e.toList) ∧
      (∀ k d e, s.device? k = some d → t.device? k = some e →
        ∃ channels, s.channelsOf d = .ok channels ∧ t.channelsOf e = .ok channels) ∧
      (∀ k, (t.networks.get? k).map Network.name = (s.networks.get? k).map Network.name) ∧
      (∀ k, ∃ ds es, s.membersOf k = .ok ds ∧ t.membersOf k = .ok es ∧
        s.Spares now timeout ds es) ∧
      t.channelEntries.map ChannelEntry.channel = s.channelEntries.map ChannelEntry.channel ∧
      ∀ channel, ∃ ds es, s.devicesOn channel = .ok ds ∧ t.devicesOn channel = .ok es ∧
        s.Spares now timeout ds es := by
  obtain ⟨c, hs⟩ := hs.sound
  obtain ⟨t, events, hrun, ht, hthinned, hpresences, hself⟩ := sweep_thins hs now timeout
  rw [sum_channelCountAt] at hpresences
  have hnames : ∀ k, (t.networks.get? k).map Network.name =
      (s.networks.get? k).map Network.name := by
    intro k
    rw [NetworkTable.get?, NetworkTable.get?, ← Pool.get?_view, hthinned.names, Pool.get?_view]
  refine ⟨t, events, hrun, ?_, hthinned.device? hs, fun m => ?_, fun k d e hd he => ?_, hnames,
    fun k => ?_, hthinned.numbers, fun channel => ?_⟩
  · refine ⟨_, _, allDevices_eq hs.toIndexed, allDevices_eq ht.toIndexed, hthinned.spares hs _,
      hpresences, fun hfresh => hself fun j => ?_⟩
    rw [stale_eq]
    cases hd : s.devices.at? j with
    | none => rfl
    | some d => exact hfresh d (List.mem_filterMap.2 ⟨j, (hs.roster.mem j).2 (by simp [hd]), hd⟩)
  · refine ⟨_, _, find?_eq hs.toIndexed m, find?_eq ht.toIndexed m, ?_⟩
    have hspares := hthinned.spares hs (s.addresses.find? m).toList
    rw [hthinned.find? (fun _ => rfl) hs.toIndexed ht.toIndexed]
    simpa only [Option.toList_bind, Option.toList_filter, List.filterMap_eq_flatMap_toList,
      Function.comp_def] using hspares
  · have hat := Pool.at?_of_get? hd
    have hat' := Pool.at?_of_get? he
    have hstays : s.stale now timeout k.index = false := by
      by_contra hgone
      have hcore := hthinned.core k.index
      rw [if_pos (by simpa using hgone), hat'] at hcore
      cases hcore
    refine ⟨_, channelsOf_eq hs.toIndexed hat, ?_⟩
    rw [channelsOf_eq ht.toIndexed hat', hthinned.channelsAt hstays]
  · refine ⟨_, _, membersOf_eq hs.toIndexed k, membersOf_eq ht.toIndexed k, ?_⟩
    have hsome := congrArg Option.isSome (hnames k)
    rw [Option.isSome_map, Option.isSome_map] at hsome
    rw [hsome, hthinned.picked_networkSlot fun _ => rfl]
    split
    · exact hthinned.spares hs _
    · rfl
  · refine ⟨_, _, devicesOn_eq hs.toIndexed channel, devicesOn_eq ht.toIndexed channel, ?_⟩
    rw [hthinned.slotsOn]
    exact hthinned.spares hs _

theorem sweep_exact_second :
    ∃ t events ds es, (sweep 110 60).run (.ofRun .default [.observe (.heardAt ⟨2, 0, 0, 0, 0, 1⟩ 5),
        .observe (.heardAt ⟨2, 0, 0, 0, 0, 2⟩ 100)]) = .ok ⟨t, events, .ok ()⟩ ∧
      allDevices (.ofRun .default [.observe (.heardAt ⟨2, 0, 0, 0, 0, 1⟩ 5),
        .observe (.heardAt ⟨2, 0, 0, 0, 0, 2⟩ 100)]) = .ok ds ∧
      ds.map Device.address = [⟨2, 0, 0, 0, 0, 2⟩, ⟨2, 0, 0, 0, 0, 1⟩] ∧
      t.allDevices = .ok es ∧ es.map Device.address = [⟨2, 0, 0, 0, 0, 2⟩] := by
  obtain ⟨t, events, hrun, ⟨ds, es, hds, hes, hspares, -⟩, -⟩ := sweep_exact
    (ofRun_reachable .default [.observe (.heardAt ⟨2, 0, 0, 0, 0, 1⟩ 5),
      .observe (.heardAt ⟨2, 0, 0, 0, 0, 2⟩ 100)]) 110 60
  have hbefore : (allDevices (.ofRun .default [.observe (.heardAt ⟨2, 0, 0, 0, 0, 1⟩ 5),
      .observe (.heardAt ⟨2, 0, 0, 0, 0, 2⟩ 100)])).map
        (·.map fun d => (d.address, d.silentFor 110 60)) =
        .ok [(⟨2, 0, 0, 0, 0, 2⟩, false), (⟨2, 0, 0, 0, 0, 1⟩, true)] := by
    decide +kernel
  rw [hds, Action.map_ok, Except.ok.injEq] at hbefore
  have hleft : es.map Device.address =
      (ds.filter fun d => !d.silentFor 110 60).map Device.address := by
    have haddresses := congrArg (List.map Device.address) hspares
    rwa [List.map_map, List.map_map] at haddresses
  refine ⟨t, events, ds, es, hrun, hds, ?_, hes, ?_⟩
  · simpa [Function.comp_def] using congrArg (List.map Prod.fst) hbefore
  · have hfresh := congrArg (fun l => (l.filter fun e => !e.2).map Prod.fst) hbefore
    simpa [hleft, List.filter_map, Function.comp_def] using hfresh

end Survey

end AirSurvey

import AirSurvey.Proofs.Survey.Channels
import AirSurvey.Proofs.Survey.Networks
import AirSurvey.Proofs.Survey.Roster

set_option autoImplicit false

/-!
What each index sees of a device. A change that an index does not see leaves it in step; the actions
that a survey builds its operations from are run here with what they change.
-/

namespace AirSurvey

open Chain (Woven)
open Function (update)

/-- What the order of ages and the addresses see of a device. -/
def Device.rosterPart (d : Device) : Handle × MacAddress × Link := (d.id, d.address, d.inAges)

def Device.networkPart (d : Device) : Option Handle × Link := (d.network, d.inNetwork)

def Device.channelPart (d : Device) : Chain Presence.byDevice × UInt16 := (d.channels, d.channelCount)

def Device.places (d : Device) :
    (Handle × MacAddress × Link) × (Option Handle × Link) × (Chain Presence.byDevice × UInt16) :=
  (d.rosterPart, d.networkPart, d.channelPart)

/-- A device apart from its links. -/
def Device.core (d : Device) : Device :=
  { d with inAges := .loose, inNetwork := .loose }

section Parts

variable {p q : DevicePool}

theorem Roster.of_view {x : AddressIndex} {ages : Chain Device.byAge} {order : List Nat}
    (r : Roster p x ages order) (hv : q.view Device.rosterPart = p.view Device.rosterPart) :
    Roster q x ages order where
  pool := r.pool.of_view_eq hv
  woven := r.woven.transport (Pool.at?_map_of_view_eq (Pool.view_eq_comp hv fun y => y.2.2))
  mem i := by rw [r.mem, Pool.isSome_of_view_eq hv]
  found m i := by
    rw [r.found]
    constructor
    · intro hgiven
      rcases hgiven with ⟨d, hd, hm⟩
      obtain ⟨e, he, hde⟩ := Pool.exists_of_view_eq hv.symm hd
      exact ⟨e, he, hm ▸ congrArg (fun y => y.2.1) hde⟩
    · intro hgiven
      rcases hgiven with ⟨d, hd, hm⟩
      obtain ⟨e, he, hde⟩ := Pool.exists_of_view_eq hv hd
      exact ⟨e, he, hm ▸ congrArg (fun y => y.2.1) hde⟩
  once := r.once
  handle i d hd := by
    obtain ⟨e, he, hde⟩ := Pool.exists_of_view_eq hv hd
    have hid : e.id = d.id := congrArg (fun y => y.1) hde
    rw [Pool.handleAt?_of_view_eq hv, r.handle i e he, hid]
  single i d hd := by
    obtain ⟨e, he, hde⟩ := Pool.exists_of_view_eq hv hd
    have haddress : e.address = d.address := congrArg (fun y => y.2.1) hde
    rw [← haddress]
    exact r.single i e he

theorem networkSlot_of_view (hv : q.view Device.network = p.view Device.network) :
    networkSlot q = networkSlot p := by
  funext i
  have hi := congrArg (Option.bind · (Option.map Handle.index)) (Pool.at?_map_of_view_eq hv i)
  simpa [networkSlot, Option.bind_map, Function.comp_def] using hi

theorem Grouping.of_view {t : NetworkTable} {key : Nat → Option Nat} {order : List Nat}
    (g : Grouping p t key order)
    (hv : q.view Device.networkPart = p.view Device.networkPart) : Grouping q t key order :=
  g.of_links (Pool.at?_map_of_view_eq (Pool.view_eq_comp hv Prod.snd))

theorem deviceChain_of_view (hv : q.view Device.channelPart = p.view Device.channelPart) :
    deviceChain q = deviceChain p :=
  funext fun i => congrArg (fun o : Option (Chain Presence.byDevice) => o.getD .empty)
    (Pool.at?_map_of_view_eq (Pool.view_eq_comp hv Prod.fst) i)

end Parts

namespace Survey

variable {s : Survey} {c : Chronicle} {q : DevicePool}

/-- The indices stay in step when the devices change in ways that no index sees. -/
theorem Indexed.of_places (hs : s.Indexed c)
    (hv : q.view Device.places = s.devices.view Device.places) :
    Indexed { s with devices := q } c where
  roster := hs.roster.of_view (Pool.view_eq_comp hv Prod.fst)
  grouping := by
    have hnetwork := Pool.view_eq_comp hv fun y => y.2.1
    rw [networkSlot_of_view (Pool.view_eq_comp hnetwork Prod.fst)]
    exact hs.grouping.of_view hnetwork
  home i d h hd hh := by
    obtain ⟨e, he, hde⟩ := Pool.exists_of_view_eq hv hd
    have hnetwork : e.network = d.network := congrArg (fun y => y.2.1.1) hde
    exact hs.home i e h he (hnetwork.trans hh)
  hearing := by
    rw [deviceChain_of_view (Pool.view_eq_comp hv fun y => y.2.2)]
    exact hs.hearing
  owner m i hm := by
    rw [Pool.isSome_of_view_eq hv]
    exact hs.owner m i hm
  count i d hd := by
    obtain ⟨e, he, hde⟩ := Pool.exists_of_view_eq hv hd
    have hcount : e.channelCount = d.channelCount := congrArg (fun y => y.2.2.2) hde
    have hchannels : e.channels = d.channels := congrArg (fun y => y.2.2.1) hde
    rw [← hcount, ← hchannels]
    exact hs.count i e he

theorem Indexed.exists_network (hs : s.Indexed c) {i : Nat} {d : Device}
    (hd : s.devices.at? i = some d) {h : Handle} (hh : d.network = some h) :
    ∃ n, s.networks.get? h = some n :=
  hs.grouping.exists_get? (i := i) (by simp [networkSlot, hd, hh]) (hs.home i d h hd hh)

theorem deviceAt_run {i : Nat} {d : Device} (hd : s.devices.at? i = some d) :
    (deviceAt i).run s = .ok ⟨s, [], .ok d⟩ := by
  simp [deviceAt, Pool.item_of_at? hd]

theorem changeDevice_run {i : Nat} {d : Device} (hd : s.devices.at? i = some d)
    (f : Device → Device) :
    (changeDevice i f).run s =
      .ok ⟨{ s with devices := s.devices.modifyAt i f }, [], .ok ()⟩ := by
  simp [changeDevice, Pool.modifyItem_of_at? hd]

theorem refreshSplit_run {key : Nat → Option Nat} {order : List Nat} {h : Handle} {n : Network}
    (g : Grouping s.devices s.networks key order) (hn : s.networks.get? h = some n) :
    (refreshSplit h).run s = .ok
      ⟨{ s with networks := ⟨s.networks.pool.modifyAt h.index
          (.marked (NetworkTable.splitAmong s.devices (picked key order h.index)))⟩ },
        s.networks.splitNews h (NetworkTable.splitAmong s.devices (picked key order h.index)),
        .ok ()⟩ := by
  have hrun := NetworkTable.refreshSplit_run hn (g.spells hn)
  simp [refreshSplit, onNetworks, Action.run_within_of_ok hrun]

theorem leaveNetwork_run {key : Nat → Option Nat} {order : List Nat} {i : Nat} {h : Handle}
    {n : Network} (g : Grouping s.devices s.networks key order)
    (hn : s.networks.get? h = some n) (hi : key i = some h.index) :
    ∃ q t, (leaveNetwork i h).run s = .ok ⟨{ s with devices := q, networks := t }, [], .ok true⟩ ∧
      q.view Device.byNetwork.bare = s.devices.view Device.byNetwork.bare ∧
      t.pool.view Network.core = s.networks.pool.view Network.core ∧
      Grouping q t (update key i none) (order.filter (· != i)) := by
  obtain ⟨d, q, hrun, hview, hgrouping⟩ := g.leave hn hi
  have hget : s.networks.pool.get? h = some n := hn
  refine ⟨q, ⟨s.networks.pool.modifyAt h.index fun n => { n with members := d }⟩, ?_, hview,
    Pool.view_modifyAt_of_eq _ _ _ _ fun _ => rfl, hgrouping⟩
  simp [leaveNetwork, hn, hrun, withMembers, Pool.modify_of_get? hget, Except.map]

theorem leave_refresh_run {key : Nat → Option Nat} {order : List Nat} {i : Nat} {h : Handle}
    {n : Network} (g : Grouping s.devices s.networks key order)
    (hn : s.networks.get? h = some n) (hi : key i = some h.index) {isSplit : Bool}
    (hsplit : NetworkTable.splitAmong s.devices ((picked key order h.index).filter (· != i)) =
      isSplit) :
    ∃ q t u, (leaveNetwork i h).run s =
        .ok ⟨{ s with devices := q, networks := t }, [], .ok true⟩ ∧
      (refreshSplit h).run { s with devices := q, networks := t } =
        .ok ⟨{ s with devices := q, networks := u }, s.networks.splitNews h isSplit, .ok ()⟩ ∧
      q.view Device.byNetwork.bare = s.devices.view Device.byNetwork.bare ∧
      u.pool.view Network.core =
        (s.networks.pool.modifyAt h.index (.marked isSplit)).view Network.core ∧
      Grouping q u (update key i none) (order.filter (· != i)) := by
  obtain ⟨q, t, hrun, hview, hcore, hgrouping⟩ := leaveNetwork_run g hn hi
  obtain ⟨m, hm, -⟩ := NetworkTable.exists_of_names (Pool.view_eq_comp hcore Prod.fst) hn
  have hsplit' : NetworkTable.splitAmong q
      (picked (update key i none) (order.filter (· != i)) h.index) = isSplit := by
    rw [picked_without, NetworkTable.splitAmong_of_view (Pool.view_eq_comp hview Device.profile),
      hsplit]
  refine ⟨q, t, ⟨t.pool.modifyAt h.index (.marked isSplit)⟩, hrun, ?_, hview,
    NetworkTable.view_marked hcore _ _, hgrouping.refreshed _ _⟩
  rw [← NetworkTable.splitNews_of_view hcore, ← hsplit']
  exact refreshSplit_run (s := { s with devices := q, networks := t }) hgrouping hm

def depart (otherwise : Handle → Action Survey Unit) (i : Nat) : Option Handle → Action Survey Unit
  | none => pure ()
  | some old => do
    if ← leaveNetwork i old then refreshSplit old
    else otherwise old

theorem depart_run {key : Nat → Option Nat} {order : List Nat} {i : Nat} {current : Option Handle}
    (otherwise : Handle → Action Survey Unit) (isSplit : Handle → Bool)
    (g : Grouping s.devices s.networks key order) (hi : key i = current.map Handle.index)
    (hlive : ∀ old, current = some old → s.networks.pool.handleAt? old.index = some old)
    (hsplit : ∀ old, NetworkTable.splitAmong s.devices
      ((picked key order old.index).filter (· != i)) = isSplit old) :
    ∃ q u, (depart otherwise i current).run s = .ok ⟨{ s with devices := q, networks := u },
        current.toList.flatMap fun old => s.networks.splitNews old (isSplit old), .ok ()⟩ ∧
      q.view Device.byNetwork.bare = s.devices.view Device.byNetwork.bare ∧
      u.pool.view Network.core = (s.networks.departed isSplit current).pool.view Network.core ∧
      Grouping q u (update key i none) (order.filter (· != i)) := by
  cases current with
  | none => exact ⟨s.devices, s.networks, by simp [depart], rfl, rfl, g.without hi⟩
  | some old =>
    obtain ⟨n, hn⟩ := g.exists_get? hi (hlive old rfl)
    obtain ⟨q, t, u, hleave, hrefresh, hview, hcore, hgrouping⟩ :=
      leave_refresh_run g hn hi (hsplit old)
    refine ⟨q, u, ?_, hview, hcore, hgrouping⟩
    rw [depart, Action.run_bind_of_ok hleave]
    simp [hrefresh]

def splitWithout (s : Survey) (c : Chronicle) (i : Nat) (h : Handle) : Bool :=
  NetworkTable.splitAmong s.devices
    ((picked (networkSlot s.devices) c.joined h.index).filter (· != i))

end Survey

end AirSurvey

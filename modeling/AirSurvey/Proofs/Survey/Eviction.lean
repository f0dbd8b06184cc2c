import AirSurvey.Proofs.Slots
import AirSurvey.Proofs.Survey.Keeping
import AirSurvey.Survey.Expiry

set_option autoImplicit false

/-!
Evicting one device: it goes from all indices, and nothing else changes but the links around it.
-/

namespace AirSurvey

open Chain (Woven)
open Function (update)

section Released

variable {p q : DevicePool}

theorem networkSlot_release (p : DevicePool) (i : Nat) :
    networkSlot (p.release i) = update (networkSlot p) i none :=
  p.read_release i (Option.bind · fun d => d.network.map Handle.index)

theorem deviceChain_release (p : DevicePool) (i : Nat) :
    deviceChain (p.release i) = update (deviceChain p) i .empty :=
  p.read_release i fun o => (o.map Device.channels).getD .empty

theorem Grouping.released {t : NetworkTable} {key : Nat → Option Nat} {order : List Nat} {i : Nat}
    (g : Grouping p t key order) (hi : i ∉ order) : Grouping (p.release i) t key order :=
  g.rewoven rfl (g.woven.released fun b => by simp [hi]) g.nodup g.mem

end Released

def Chronicle.without (c : Chronicle) (t : ChannelTable) (gone : Nat → Bool) : Chronicle where
  ages := c.ages.filter fun i => !gone i
  joined := c.joined.filter fun i => !gone i
  heard := c.heard.filter fun m => !(t.deviceOf m).any gone

namespace Survey

/-- `t` is `s` without the devices in some slots, but for links and for which networks are split;
what is left of a device that stays is `coat`. -/
structure Thinned (gone : Nat → Bool) (coat : Device → Device) (s t : Survey) : Prop where
  settings : t.settings = s.settings
  core : ∀ j, (t.devices.at? j).map Device.core =
    if gone j then none else (s.devices.at? j).map coat
  handle : ∀ j, t.devices.handleAt? j = if gone j then none else s.devices.handleAt? j
  names : t.networks.pool.view Network.name = s.networks.pool.view Network.name
  numbers : t.channels.numbers = s.channels.numbers
  deviceOf : ∀ m, t.channels.deviceOf m = (s.channels.deviceOf m).filter fun i => !gone i
  entryOf : ∀ m, t.channels.entryOf m =
    if (s.channels.deviceOf m).any gone then none else s.channels.entryOf m

variable {s : Survey} {c : Chronicle} {i : Nat} {d : Device}

theorem evict_eq {s : Survey} {i : Nat} {ages : Chain Device.byAge} {q : DevicePool} {d : Device}
    (hi : (s.devices.handleAt? i).isSome) (hremove : s.ages.remove s.devices i = .ok (ages, q))
    (hd : q.at? i = some d) :
    (evict i).run s =
      (depart refreshSplit i d.network >>= fun _ => discard i).run { s with ages, devices := q } := by
  obtain ⟨h, hh⟩ := Option.isSome_iff_exists.1 hi
  have hdevice := deviceAt_run (s := { s with ages, devices := q }) hd
  simp only [evict, Action.run_read_bind, hh, hremove, Action.run_settle_ok_bind,
    Action.run_bind_of_ok hdevice, Action.following_nil]
  cases d.network with
  | none =>
    rw [depart, pure_bind]
  | some old =>
    have hleave : (leaveNetwork i old >>= fun _ => refreshSplit old) =
        depart refreshSplit i (some old) :=
      congrArg _ (funext fun b => by cases b <;> rfl)
    rw [← hleave, bind_assoc]

/-- `q`, `u` and `v` are the devices, networks and channels of `s` once the device in slot `i` is
off all indices; it still is in its slot. -/
structure Detached (s : Survey) (c : Chronicle) (i : Nat) (ages : Chain Device.byAge)
    (q : DevicePool) (u : NetworkTable) (v : ChannelTable) : Prop where
  core : q.view Device.core = s.devices.view Device.core
  channel : q.view Device.channelPart = s.devices.view Device.channelPart
  names : u.pool.view Network.name = s.networks.pool.view Network.name
  woven : Woven Device.byAge q (fun _ : Unit => ages) (fun _ => c.ages.filter (· != i))
  grouping : Grouping q u (update (networkSlot s.devices) i none) (c.joined.filter (· != i))
  hearing : Hearing v (update (deviceChain s.devices) i .empty)
    (c.heard.filter fun m => s.channels.deviceOf m != some i)
  left : Hearing.Left s.channels i v

def detached (s : Survey) (i : Nat) (d : Device) (ages : Chain Device.byAge) (q : DevicePool)
    (u : NetworkTable) (v : ChannelTable) : Survey :=
  { s with
    ages
    devices := q.release i
    networks := u
    channels := v
    addresses := s.addresses.erase d.address }

namespace Detached

variable {ages : Chain Device.byAge} {q : DevicePool} {u : NetworkTable} {v : ChannelTable}

theorem thinned (m : s.Detached c i ages q u v) :
    Thinned (· == i) Device.core s (s.detached i d ages q u v) where
  settings := rfl
  core j := by
    rw [detached, Pool.at?_release]
    by_cases hj : i = j
    · simp [hj]
    · have hj' : ¬ j = i := fun e => hj e.symm
      simpa [hj, hj'] using Pool.at?_map_of_view_eq m.core j
  handle j := by
    rw [detached, Pool.handleAt?_release]
    by_cases hj : i = j
    · simp [hj]
    · have hj' : ¬ j = i := fun e => hj e.symm
      simpa [hj, hj'] using Pool.handleAt?_of_view_eq m.core j
  names := m.names
  numbers := m.left.numbers
  deviceOf l := by
    rw [detached, m.left.deviceOf]
    cases hl : s.channels.deviceOf l with
    | none => simp
    | some j => by_cases hj : j = i <;> simp [hj, Option.filter_some]
  entryOf l := by
    rw [detached, m.left.entryOf]
    cases hl : s.channels.deviceOf l with
    | none => simp
    | some j => by_cases hj : j = i <;> simp [hj]

theorem indexed (m : s.Detached c i ages q u v) (hs : s.Indexed c)
    (hd : s.devices.at? i = some d) :
    (s.detached i d ages q u v).Indexed (c.without s.channels (· == i)) := by
  have hcase : ∀ j e, (q.release i).at? j = some e →
      j ≠ i ∧ ∃ e', s.devices.at? j = some e' ∧ e'.core = e.core := by
    intro j e he
    rw [Pool.at?_release] at he
    split at he
    · cases he
    · next hij =>
      obtain ⟨e', he', hee⟩ := Pool.exists_of_view_eq m.core he
      exact ⟨fun h => hij h.symm, e', he', hee⟩
  have hheard : (c.heard.filter fun l => !(s.channels.deviceOf l).any (· == i)) =
      c.heard.filter fun l => s.channels.deviceOf l != some i := by
    refine List.filter_congr fun l _ => ?_
    cases s.channels.deviceOf l <;> simp [bne]
  refine ⟨?_, ?_, fun j e h he hh => ?_, ?_, fun l j hl => ?_, fun j e he => ?_⟩
  · exact hs.roster.released hd m.woven (Pool.view_eq_comp m.core Device.identity)
  · have hslot : networkSlot (q.release i) = update (networkSlot s.devices) i none := by
      rw [networkSlot_release, networkSlot_of_view (Pool.view_eq_comp m.core Device.network)]
    rw [detached, hslot]
    exact m.grouping.released (by simp)
  · obtain ⟨-, e', he', hee⟩ := hcase j e he
    have hnetwork : e'.network = e.network := (congrArg Device.network hee :)
    rw [detached, Pool.handleAt?_of_view_eq m.names]
    exact hs.home j e' h he' (hnetwork.trans hh)
  · have hchain : deviceChain (q.release i) = update (deviceChain s.devices) i .empty := by
      rw [deviceChain_release, deviceChain_of_view m.channel]
    rw [detached, hchain, Chronicle.without, hheard]
    exact m.hearing
  · rw [detached, m.left.deviceOf] at hl
    split at hl
    · cases hl
    · next hne =>
      have hij : ¬ i = j := fun e => hne (e ▸ hl)
      rw [detached, Pool.at?_release, if_neg hij, Pool.isSome_of_view_eq m.core]
      exact hs.owner l j hl
  · rw [detached, Pool.at?_release] at he
    split at he
    · cases he
    · obtain ⟨e', he', hee⟩ := Pool.exists_of_view_eq m.channel he
      obtain ⟨hchannels, hcount⟩ := Prod.mk.inj hee
      rw [← hcount, ← hchannels]
      exact hs.count j e' he'

end Detached

def evictNews (s : Survey) (c : Chronicle) (i : Nat) (d : Device) : List Event :=
  d.network.toList.flatMap (fun old => s.networks.splitNews old (s.splitWithout c i old)) ++
    [.evicted d.address d.profile.lastSeen]

/-- `t` is `s` without the device `d`, which was in slot `i`. -/
structure Evicts (s : Survey) (c : Chronicle) (i : Nat) (d : Device) (t : Survey) : Prop where
  device : s.devices.at? i = some d
  indexed : t.Indexed (c.without s.channels (· == i))
  thinned : Thinned (· == i) Device.core s t
  slots : t.devices.skeleton = s.devices.skeleton.release i
  addresses : t.addresses = s.addresses.erase d.address
  networks : t.networks.pool.view Network.core =
    (s.networks.departed (s.splitWithout c i) d.network).pool.view Network.core
  presences : t.channels.presences.size + d.channelCount.toNat = s.channels.presences.size

theorem evict_run (hs : s.Indexed c) (hd : s.devices.at? i = some d) :
    ∃ t, (evict i).run s = .ok ⟨t, s.evictNews c i d, .ok ()⟩ ∧ s.Evicts c i d t := by
  have hmem : i ∈ c.ages := (hs.roster.mem i).2 (by simp [hd])
  obtain ⟨ages, q₁, hremove, hw, hpool₁⟩ := hs.roster.woven.remove (a := ()) hmem
  have hview₁ := hpool₁.view
  obtain ⟨d₁, hd₁, hdd₁⟩ := Pool.exists_of_view_eq hview₁.symm hd
  have hnetwork₁ : d₁.network = d.network := (congrArg Device.network hdd₁ :)
  have hi : networkSlot s.devices i = d.network.map Handle.index := by simp [networkSlot, hd]
  have hgrouping₁ : Grouping q₁ s.networks (networkSlot s.devices) c.joined :=
    hs.grouping.of_view (Pool.view_eq_comp hview₁ Device.networkPart)
  obtain ⟨q₂, u, hquit, hview₂, hcore, hgrouping₂⟩ :=
    depart_run (s := { s with ages, devices := q₁ }) refreshSplit (s.splitWithout c i) hgrouping₁ hi
      (fun old hold => hs.home i d old hd hold)
      fun old => NetworkTable.splitAmong_of_view (Pool.view_eq_comp hview₁ Device.profile) _
  obtain ⟨d₂, hd₂, hdd₂⟩ := Pool.exists_of_view_eq hview₂.symm hd₁
  obtain ⟨v, hleave, hhearing, hleft, hsize⟩ := hs.hearing.leaveAll_run i
  have hchannel : q₂.view Device.channelPart = s.devices.view Device.channelPart :=
    (Pool.view_eq_comp hview₂ Device.channelPart).trans (Pool.view_eq_comp hview₁ Device.channelPart)
  have hw₁ : Woven Device.byAge q₁ (fun _ : Unit => ages) (fun _ => c.ages.filter (· != i)) :=
    hw.congr (fun _ => by simp) fun _ => rfl
  have hw₂ := hw₁.transport (Pool.at?_map_of_view_eq (Pool.view_eq_comp hview₂ Device.inAges))
  have hdetached : s.Detached c i ages q₂ u v :=
    ⟨(Pool.view_eq_comp hview₂ Device.core).trans (Pool.view_eq_comp hview₁ Device.core), hchannel,
      (Pool.view_eq_comp hcore Prod.fst).trans (s.networks.departed_names _ _), hw₂, hgrouping₂,
      hhearing, hleft⟩
  have hslots : (q₂.release i).skeleton = s.devices.skeleton.release i := by
    rw [Pool.skeleton_release, Pool.skeleton_of_view_eq hdetached.core]
  refine ⟨s.detached i d ages q₂ u v, ?_, hd, hdetached.indexed hs hd, hdetached.thinned, hslots, rfl,
    hcore, ?_⟩
  · have haddress : d₂.address = d.address :=
      (congrArg Device.address hdd₂ :).trans (congrArg Device.address hdd₁ :)
    have hprofile : d₂.profile = d.profile :=
      (congrArg Device.profile hdd₂ :).trans (congrArg Device.profile hdd₁ :)
    have hchain : deviceChain s.devices i = d₂.channels := by
      rw [← deviceChain_of_view hchannel]
      exact deviceChain_of_at? hd₂
    rw [hchain] at hleave
    rw [evict_eq (by simp [Pool.handleAt?_isSome, hd]) hremove hd₁, hnetwork₁,
      Action.run_bind_of_ok hquit]
    simp [discard, Pool.item_of_at? hd₂, hleave, haddress, hprofile, detached, evictNews,
      withChannels, Pool.release_modifyAt hd₂]
  · have hlength := (hs.hearing.onDevice.spells i).length
    have hcount := hs.count i d hd
    have hchain : deviceChain s.devices i = d.channels := deviceChain_of_at? hd
    rw [hchain] at hlength
    change v.presences.size + d.channelCount.toNat = s.channels.presences.size
    omega

end Survey

end AirSurvey

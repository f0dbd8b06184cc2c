import AirSurvey.Proofs.Survey.Keeping
import AirSurvey.Survey.Observation

set_option autoImplicit false

/-!
The indices follow a device after its frame: to the network that the frame names, to the channel
that it was heard on, and to the access point of its cell.
-/

namespace AirSurvey

open Function (update)

theorem networkSlot_settle {p : DevicePool} {i : Nat} {d : Device} (hd : p.at? i = some d)
    (h : Handle) :
    networkSlot (p.modifyAt i fun d => { d with network := some h }) =
      update (networkSlot p) i (some h.index) :=
  Pool.read_modifyAt hd _ (Option.bind · fun d => d.network.map Handle.index)

theorem deviceChain_settle {p : DevicePool} {i : Nat} {d : Device} (hd : p.at? i = some d)
    (b : Chain Presence.byDevice) :
    deviceChain (p.modifyAt i fun d =>
        { d with channels := b, channelCount := d.channelCount + 1 }) =
      update (deviceChain p) i b :=
  Pool.read_modifyAt hd _ fun o => (o.map Device.channels).getD .empty

namespace Survey

variable {s : Survey} {c : Chronicle} {i : Nat} {d : Device}

theorem joinNetwork_run {key : Nat → Option Nat} {order : List Nat} {h : Handle} {n : Network}
    (g : Grouping s.devices s.networks key order) (hn : s.networks.get? h = some n)
    (hd : s.devices.at? i = some d) (hi : key i = none) (name : String) :
    ∃ q t, (joinNetwork i h name).run s =
        .ok ⟨{ s with devices := q, networks := t }, [.joined d.address name], .ok ()⟩ ∧
      q.view Device.byNetwork.bare =
        (s.devices.modifyAt i fun d => { d with network := some h }).view Device.byNetwork.bare ∧
      t.pool.view Network.core = s.networks.pool.view Network.core ∧
      Grouping q t (update key i (some h.index)) (order ++ [i]) := by
  obtain ⟨b, q, hrun, hview, hgrouping⟩ := g.join hn hd hi
  have hget : s.networks.pool.get? h = some n := hn
  obtain ⟨e, he, hde⟩ := Pool.exists_of_view_eq hview.symm hd
  have haddress : e.address = d.address := (congrArg Device.address hde :)
  refine ⟨q.modifyAt i fun d => { d with network := some h },
    ⟨s.networks.pool.modifyAt h.index fun n => { n with members := b }⟩, ?_, ?_,
    Pool.view_modifyAt_of_eq _ _ _ _ fun _ => rfl, hgrouping.of_links fun j => ?_⟩
  · simp [joinNetwork, hn, hrun, withMembers, Pool.modify_of_get? hget, changeDevice,
      Pool.modifyItem_of_at? he, deviceAt, Pool.item, Pool.at?_modifyAt, he, haddress]
  · rw [Pool.view_modifyAt Device.byNetwork.bare _ _ _ (fun d => { d with network := some h })
        fun _ => rfl,
      Pool.view_modifyAt Device.byNetwork.bare _ _ _ (fun d => { d with network := some h })
        fun _ => rfl, hview]
  · rw [Pool.at?_modifyAt]
    split
    · simp [Function.comp_def]
    · rfl

theorem moveTo_eq (i : Nat) (current : Option Handle) (name : String) :
    moveTo i current name =
      (onNetworks (NetworkTable.enter name) >>= fun target =>
        depart (fun _ => Action.refuse .releasedNetwork) i current >>= fun _ =>
          joinNetwork i target name) := by
  cases current with
  | none => simp [moveTo, depart]
  | some old =>
    simp only [moveTo, depart, bind_assoc]
    refine congrArg _ (funext fun _ => congrArg _ (funext fun b => ?_))
    cases b <;> rfl

/-- The device `d` in slot `i` of `s` ends up in the network `h` of a name; `q` and `t` are the
devices and the networks then. -/
structure Moved (s : Survey) (c : Chronicle) (i : Nat) (d : Device) (name : NetworkName) (h : Handle)
    (q : DevicePool) (t : NetworkTable) : Prop where
  devices : q.view Device.byNetwork.bare =
    (s.devices.modifyAt i fun d => { d with network := some h }).view Device.byNetwork.bare
  networks : ∃ u, s.networks.Entered name h u ∧
    t.pool.view Network.core = (u.departed (s.splitWithout c i) d.network).pool.view Network.core
  named : ∃ n, t.get? h = some n ∧ n.name = name
  grouping : Grouping q t (networkSlot q) (c.joined.filter (· != i) ++ [i])

def moveNews (s : Survey) (c : Chronicle) (i : Nat) (d : Device) (name : String) : List Event :=
  s.networks.entryNews name ++
    d.network.toList.flatMap (fun old => s.networks.splitNews old (s.splitWithout c i old)) ++
    [.joined d.address name]

theorem moveTo_run (hs : s.Indexed c) (hd : s.devices.at? i = some d) {name : NetworkName}
    (hvisible : name.isHidden = false) (hroom : s.networks.hasRoomFor name.text = true) :
    ∃ h q t, (moveTo i d.network name.text).run s = .ok
        ⟨{ s with devices := q, networks := t }, s.moveNews c i d name.text, .ok ()⟩ ∧
      s.Moved c i d name h q t := by
  obtain ⟨h, u, henter, hgrouping, hentered, n, hn, rfl⟩ := hs.grouping.enter_run hvisible hroom
  have hi : networkSlot s.devices i = d.network.map Handle.index := by simp [networkSlot, hd]
  have hold : ∀ old, d.network = some old → ∃ m, s.networks.get? old = some m :=
    fun old hnet => hs.exists_network hd hnet
  have hrun₁ : (onNetworks (NetworkTable.enter n.name.text)).run s =
      .ok ⟨{ s with networks := u }, s.networks.entryNews n.name.text, .ok h⟩ := by
    simp [onNetworks, Action.run_within_of_ok henter]
  obtain ⟨q₁, u₁, hrun₂, hview₁, hcore₁, hgrouping₁⟩ :=
    depart_run (s := { s with networks := u }) _ (s.splitWithout c i) hgrouping hi
      (fun old hnet => by
        obtain ⟨m, hm⟩ := hold old hnet
        exact ((Pool.get?_eq_some_iff _ _ _).1 (hentered.get?_of_get? hm)).1)
      fun _ => rfl
  have hnames : u₁.pool.view Network.name = u.pool.view Network.name :=
    (Pool.view_eq_comp hcore₁ Prod.fst).trans (u.departed_names _ _)
  obtain ⟨m, hm, hmn⟩ := NetworkTable.exists_of_names hnames hn
  obtain ⟨e, he, hed⟩ := Pool.exists_of_view_eq hview₁.symm hd
  have haddress : e.address = d.address := (congrArg Device.address hed :)
  obtain ⟨q, t, hrun₃, hview, hcore, hgrouping₂⟩ := joinNetwork_run
    (s := { s with devices := q₁, networks := u₁ }) hgrouping₁ hm he (Function.update_self ..)
    n.name.text
  have hview' : q.view Device.byNetwork.bare =
      (s.devices.modifyAt i fun d => { d with network := some h }).view Device.byNetwork.bare := by
    rw [hview, Pool.view_modifyAt Device.byNetwork.bare _ _ _ (fun d => { d with network := some h })
        fun _ => rfl,
      Pool.view_modifyAt Device.byNetwork.bare _ _ _ (fun d => { d with network := some h })
        fun _ => rfl, hview₁]
  obtain ⟨k, hk, hkn⟩ := NetworkTable.exists_of_names (Pool.view_eq_comp hcore Prod.fst) hm
  refine ⟨h, q, t, ?_, hview', ⟨u, hentered, hcore.trans hcore₁⟩, ⟨k, hk, hkn.trans hmn⟩, ?_⟩
  · rw [moveTo_eq, Action.run_bind_of_ok hrun₁, Action.run_bind_of_ok hrun₂, hrun₃]
    have hnews : d.network.toList.flatMap (fun old => u.splitNews old (s.splitWithout c i old)) =
        d.network.toList.flatMap fun old => s.networks.splitNews old (s.splitWithout c i old) := by
      cases hnet : d.network with
      | none => rfl
      | some old =>
        obtain ⟨m, hm⟩ := hold old hnet
        simp [hentered.splitNews hm]
    simp [moveNews, hnews, haddress]
  · have hslots := networkSlot_of_view (Pool.view_eq_comp hview' Device.network)
    rw [networkSlot_settle hd, ← Function.update_idem] at hslots
    exact hgrouping₂.congr_key fun j => by rw [← hslots]

namespace Moved

variable {name : NetworkName} {h : Handle} {q : DevicePool} {t : NetworkTable}

theorem names (m : s.Moved c i d name h q t) {k : Handle} {n : Network}
    (hn : s.networks.get? k = some n) : ∃ n', t.get? k = some n' ∧ n'.name = n.name := by
  obtain ⟨u, hentered, hcore⟩ := m.networks
  exact NetworkTable.exists_of_names
    ((Pool.view_eq_comp hcore Prod.fst).trans (u.departed_names _ _)) (hentered.get?_of_get? hn)

theorem view_eq (m : s.Moved c i d name h q t) {β : Type} (g : Device → β)
    (hlink : ∀ x l, g (Device.byNetwork.set x l) = g x)
    (hnetwork : ∀ x k, g { x with network := some k } = g x) : q.view g = s.devices.view g := by
  have hbare : ∀ x, g (Device.byNetwork.bare x) = g x := fun x => hlink x .loose
  have hview := Pool.view_eq_comp m.devices g
  simp only [hbare] at hview
  exact hview.trans (Pool.view_modifyAt_of_eq _ _ _ _ fun x => hnetwork x h)

theorem network (m : s.Moved c i d name h q t) {j : Nat} {e : Device} (he : q.at? j = some e) :
    if i = j then e.network = some h
    else ∃ e', s.devices.at? j = some e' ∧ e'.network = e.network := by
  obtain ⟨e', he', hee⟩ := Pool.exists_of_view_eq (Pool.view_eq_comp m.devices Device.network) he
  rw [Pool.at?_modifyAt] at he'
  split at he'
  · next hj =>
    rw [if_pos hj]
    obtain ⟨x, hx, rfl⟩ := Option.map_eq_some_iff.1 he'
    exact hee.symm
  · next hj =>
    rw [if_neg hj]
    exact ⟨e', he', hee⟩

theorem indexed (m : s.Moved c i d name h q t) (hs : s.Indexed c) :
    Indexed { s with devices := q, networks := t }
      { c with joined := c.joined.filter (· != i) ++ [i] } := by
  have hroster := m.view_eq Device.rosterPart (fun _ _ => rfl) fun _ _ => rfl
  have hchannel := m.view_eq Device.channelPart (fun _ _ => rfl) fun _ _ => rfl
  refine ⟨hs.roster.of_view hroster, m.grouping, fun j e k he hk => ?_, ?_, fun l j hl => ?_,
    fun j e he => ?_⟩
  · have hcase := m.network he
    split at hcase
    · obtain rfl := Option.some.inj (hcase.symm.trans hk)
      obtain ⟨n, hn, -⟩ := m.named
      exact ((Pool.get?_eq_some_iff _ _ _).1 hn).1
    · obtain ⟨e', he', hee⟩ := hcase
      obtain ⟨n, hn⟩ := hs.exists_network he' (hee.trans hk)
      obtain ⟨n', hn', -⟩ := m.names hn
      exact ((Pool.get?_eq_some_iff _ _ _).1 hn').1
  · rw [deviceChain_of_view hchannel]
    exact hs.hearing
  · rw [Pool.isSome_of_view_eq hchannel]
    exact hs.owner l j hl
  · obtain ⟨e', he', hee⟩ := Pool.exists_of_view_eq hchannel he
    obtain ⟨hchannels, hcount⟩ := Prod.mk.inj hee
    rw [← hcount, ← hchannels]
    exact hs.count j e' he'

end Moved

/-- `t` is `s` once the device `d` in slot `i` has followed the name of a frame. -/
inductive FollowsName (s : Survey) (c : Chronicle) (f : Frame) (i : Nat) (d : Device) :
    Survey → Chronicle → List Event → Prop
  | stays (h : ∀ name, f.visibleName = some name → ∃ n, s.networkOf? d = some n ∧ n.name = name) :
      FollowsName s c f i d s c []
  | moves {name : NetworkName} {h : Handle} {q : DevicePool} {t : NetworkTable}
      (hname : f.visibleName = some name) (hother : ∀ n, s.networkOf? d = some n → n.name ≠ name)
      (hmoved : s.Moved c i d name h q t) :
      FollowsName s c f i d { s with devices := q, networks := t }
        { c with joined := c.joined.filter (· != i) ++ [i] } (s.moveNews c i d name.text)

theorem FollowsName.indexed {f : Frame} {t : Survey} {c' : Chronicle} {events : List Event}
    (m : s.FollowsName c f i d t c' events) (hs : s.Indexed c) : t.Indexed c' := by
  cases m with
  | stays => exact hs
  | moves _ _ hmoved => exact hmoved.indexed hs

theorem followName_run (hs : s.Indexed c) (hd : s.devices.at? i = some d) {f : Frame}
    (hroom : ∀ name, f.visibleName = some name → s.networks.hasRoomFor name.text = true) :
    ∃ t c' events, (followName f i).run s = .ok ⟨t, events, .ok ()⟩ ∧
      s.FollowsName c f i d t c' events := by
  cases hname : f.visibleName with
  | none => exact ⟨s, c, [], by simp [followName, hname], .stays (by simp [hname])⟩
  | some name =>
    have hvisible : name.isHidden = false := by
      simpa using (Option.filter_eq_some_iff.1 hname).2
    obtain ⟨h, q, t, hrun, hmoved⟩ := moveTo_run hs hd hvisible (hroom name hname)
    cases hnet : s.networkOf? d with
    | none =>
      refine ⟨_, _, _, ?_, .moves hname (by simp [hnet]) hmoved⟩
      rw [← hrun]
      simp [followName, hname, Action.run_bind_of_ok (deviceAt_run hd), hnet, Action.following_nil]
    | some n =>
      by_cases hn : n.name = name
      · refine ⟨s, c, [], ?_, .stays fun k hk => ⟨n, hnet, ?_⟩⟩
        · simp [followName, hname, Action.run_bind_of_ok (deviceAt_run hd), hnet, hn]
        · exact hn.trans (Option.some.inj (hname.symm.trans hk))
      · refine ⟨_, _, _, ?_, .moves hname (by simpa [hnet] using hn) hmoved⟩
        rw [← hrun]
        simp [followName, hname, Action.run_bind_of_ok (deviceAt_run hd), hnet, hn,
          Action.following_nil]

theorem Indexed.tuned (hs : s.Indexed c) (hd : s.devices.at? i = some d) {channel : UInt8}
    {t : ChannelTable} {b : Chain Presence.byDevice} {m k : Nat}
    (hhearing : Hearing t (update (deviceChain s.devices) i b) (c.heard ++ [m]))
    (hjoined : s.channels.Joined i channel m k t) :
    Indexed
      { s with
        channels := t
        devices := s.devices.modifyAt i fun d =>
          { d with channels := b, channelCount := d.channelCount + 1 } }
      { c with heard := c.heard ++ [m] } := by
  have hnetwork : (s.devices.modifyAt i fun d =>
      { d with channels := b, channelCount := d.channelCount + 1 }).view Device.networkPart =
        s.devices.view Device.networkPart := Pool.view_modifyAt_of_eq _ _ _ _ fun _ => rfl
  refine ⟨hs.roster.of_view (Pool.view_modifyAt_of_eq _ _ _ _ fun _ => rfl), ?_,
    fun j e h he hh => ?_, ?_, fun l j hl => ?_, fun j e he => ?_⟩
  · rw [networkSlot_of_view (Pool.view_eq_comp hnetwork Prod.fst)]
    exact hs.grouping.of_view hnetwork
  · obtain ⟨e', he', hee⟩ := Pool.exists_of_view_eq hnetwork he
    exact hs.home j e' h he' ((congrArg Prod.fst hee).trans hh)
  · rw [deviceChain_settle hd]
    exact hhearing
  · rw [Pool.isSome_of_view_eq hnetwork]
    rw [hjoined.deviceOf] at hl
    by_cases hlm : l = m
    · rw [hlm, Function.update_self, Option.some.injEq] at hl
      simp [← hl, hd]
    · rw [Function.update_of_ne hlm] at hl
      exact hs.owner l j hl
  · rw [Pool.at?_modifyAt] at he
    split at he
    · next hij =>
      subst hij
      rw [hd, Option.map_some, Option.some.injEq] at he
      subst he
      have hold := hs.count i d hd
      have hchain : deviceChain s.devices i = d.channels := deviceChain_of_at? hd
      have hbefore := (hs.hearing.onDevice.spells i).length
      have hafter := (hhearing.onDevice.spells i).length
      have hle := hs.hearing.length_picked_le i
      rw [hjoined.picked hs.hearing, Function.update_self, List.length_append,
        List.length_singleton] at hafter
      rw [hchain] at hbefore
      have hroom : Capacity.channels = 64 := rfl
      simp only [UInt16.toNat_add, UInt16.reduceToNat]
      omega
    · exact hs.count j e he

inductive FollowsChannel (s : Survey) (c : Chronicle) (f : Frame) (i : Nat) :
    Survey → Chronicle → List Event → Prop
  | stays (h : ∀ channel, f.channel = some channel → channel ∈ s.channels.channelsAt c.heard i) :
      FollowsChannel s c f i s c []
  | tunes {channel : UInt8} {m k : Nat} {b : Chain Presence.byDevice} {t : ChannelTable}
      (hchannel : f.channel = some channel) (hother : channel ∉ s.channels.channelsAt c.heard i)
      (hjoined : s.channels.Joined i channel m k t)
      (hhearing : Hearing t (update (deviceChain s.devices) i b) (c.heard ++ [m])) :
      FollowsChannel s c f i
        { s with
          channels := t
          devices := s.devices.modifyAt i fun d =>
            { d with channels := b, channelCount := d.channelCount + 1 } }
        { c with heard := c.heard ++ [m] } (s.channels.placeNews channel)

theorem FollowsChannel.indexed {f : Frame} {t : Survey} {c' : Chronicle} {events : List Event}
    (m : s.FollowsChannel c f i t c' events) (hs : s.Indexed c) (hd : s.devices.at? i = some d) :
    t.Indexed c' := by
  cases m with
  | stays => exact hs
  | tunes _ _ hjoined hhearing => exact hs.tuned hd hhearing hjoined

theorem followChannel_run (hs : s.Indexed c) (hd : s.devices.at? i = some d) {f : Frame}
    (hroom : ∀ channel, f.channel = some channel → channel ∉ s.channels.channelsAt c.heard i →
      s.channels.shortage? channel = none) :
    ∃ t c' events, (followChannel f i).run s = .ok ⟨t, events, .ok ()⟩ ∧
      s.FollowsChannel c f i t c' events := by
  cases hchannel : f.channel with
  | none => exact ⟨s, c, [], by simp [followChannel, hchannel], .stays (by simp [hchannel])⟩
  | some channel =>
    have hchain : deviceChain s.devices i = d.channels := deviceChain_of_at? hd
    have hon := hs.hearing.isOn i channel
    rw [hchain] at hon
    by_cases hmem : channel ∈ s.channels.channelsAt c.heard i
    · refine ⟨s, c, [], ?_, .stays (by simpa [hchannel] using hmem)⟩
      simp [followChannel, hchannel, Action.run_bind_of_ok (deviceAt_run hd), hon, hmem]
    · obtain ⟨t, b, m, k, hrun, hhearing, hjoined⟩ :=
        hs.hearing.join i channel (hroom channel hchannel hmem) hmem
      rw [hchain] at hrun
      have hrun' : (onChannels (ChannelTable.join i d.channels channel)).run s =
          .ok ⟨{ s with channels := t }, s.channels.placeNews channel, .ok b⟩ := by
        simp [onChannels, Action.run_within_of_ok hrun]
      have hchange := changeDevice_run (s := { s with channels := t }) hd fun d =>
        { d with channels := b, channelCount := d.channelCount + 1 }
      refine ⟨_, _, _, ?_, .tunes hchannel hmem hjoined hhearing⟩
      simp [followChannel, hchannel, Action.run_bind_of_ok (deviceAt_run hd), hon, hmem,
        Action.run_bind_of_ok hrun', hchange]

def aimOf (s : Survey) (d : Device) : Option Handle :=
  if d.isStation then d.profile.bssid.bind s.handleOf? else none

def aimed (s : Survey) (i : Nat) (d : Device) : Survey :=
  { s with devices := s.devices.modifyAt i fun x => { x with accessPoint := s.aimOf d } }

theorem resolveAccessPoint_run (hs : s.Indexed c) (hd : s.devices.at? i = some d)
    (haim : d.accessPoint.isSome → d.profile.bssid.isSome) :
    (resolveAccessPoint i).run s = .ok ⟨s.aimed i d, [], .ok ()⟩ := by
  rw [aimed]
  have hsame : d.accessPoint = s.aimOf d →
      s.devices.modifyAt i (fun x => { x with accessPoint := s.aimOf d }) = s.devices := by
    intro h
    refine Pool.modifyAt_eq_self fun x hx => ?_
    rw [← Option.some.inj (hd.symm.trans hx), ← h]
  by_cases hstation : d.isStation
  · cases hbssid : d.profile.bssid with
    | none =>
      have hnone : d.accessPoint = none := by
        cases hap : d.accessPoint with
        | none => rfl
        | some h => simp [hap, hbssid] at haim
      rw [hsame (by simp [aimOf, hbssid, hnone])]
      simp [resolveAccessPoint, Action.run_bind_of_ok (deviceAt_run hd), hstation, hbssid]
    | some bssid =>
      have haimed : s.aimOf d = s.handleOf? bssid := by simp [aimOf, hstation, hbssid]
      by_cases hkept : (s.accessPointOf? d).any fun a => a.address == bssid
      · obtain ⟨a, hbind, hbeq⟩ := (Option.any_eq_true _ _).1 hkept
        obtain ⟨h, hap, ha⟩ := Option.bind_eq_some_iff.1 hbind
        have ha : s.devices.get? h = some a := ha
        have hab : a.address = bssid := by simpa using hbeq
        have hhandle : s.handleOf? bssid = some h := by
          obtain ⟨hh, hat⟩ := (Pool.get?_eq_some_iff _ _ _).1 ha
          simp [handleOf?, (hs.roster.found bssid h.index).2 ⟨a, hat, hab⟩, hh]
        rw [hsame (by rw [haimed, hhandle, hap])]
        simp [resolveAccessPoint, Action.run_bind_of_ok (deviceAt_run hd), hstation, hbssid, hkept]
      · simp [resolveAccessPoint, Action.run_bind_of_ok (deviceAt_run hd), hstation, hbssid, hkept,
          haimed, changeDevice_run hd]
  · have haimed : s.aimOf d = none := by simp [aimOf, hstation]
    cases hap : d.accessPoint with
    | none =>
      rw [hsame (by rw [haimed, hap])]
      simp [resolveAccessPoint, Action.run_bind_of_ok (deviceAt_run hd), hstation, hap]
    | some h =>
      simp [resolveAccessPoint, Action.run_bind_of_ok (deviceAt_run hd), hstation, hap, haimed,
        changeDevice_run hd]

end Survey

end AirSurvey

import AirSurvey.Proofs.Survey.Keeping
import AirSurvey.Survey.Observation

set_option autoImplicit false

/-!
A frame reaches its device: a known one takes it in, and an unknown one gets a slot, an address and
the first place by age.
-/

namespace AirSurvey

open Chain (Woven)
open Function (update)

section Taken

variable {p q : DevicePool} {build : Handle → Device} {h : Handle}

theorem networkSlot_taken (ht : p.Taken build h q) (hnetwork : (build h).network = none) :
    networkSlot q = networkSlot p := by
  have hread : networkSlot q = update (networkSlot p) h.index ((build h).network.map Handle.index) :=
    ht.read (Option.bind · fun d => d.network.map Handle.index)
  have hvacant : networkSlot p h.index = none := by simp [networkSlot, ht.vacant]
  rw [hread, hnetwork, Option.map_none, ← hvacant, Function.update_eq_self]

theorem deviceChain_taken (ht : p.Taken build h q) (hchannels : (build h).channels = .empty) :
    deviceChain q = deviceChain p := by
  have hread : deviceChain q = update (deviceChain p) h.index (build h).channels :=
    ht.read fun o => (o.map Device.channels).getD .empty
  have hvacant : deviceChain p h.index = .empty := by simp [deviceChain, ht.vacant]
  rw [hread, hchannels, ← hvacant, Function.update_eq_self]

theorem Grouping.occupied {t : NetworkTable} {key : Nat → Option Nat} {order : List Nat}
    (g : Grouping p t key order) (ht : p.Taken build h q) (hloose : (build h).inNetwork = .loose) :
    Grouping q t key order :=
  g.rewoven rfl (g.woven.occupied ht hloose) g.nodup g.mem

end Taken

namespace Survey

variable {s : Survey} {c : Chronicle}

/-- A device that is new on all indices but those of ages and of addresses. -/
theorem Indexed.admitted (hs : s.Indexed c) {f : Frame} {h : Handle} {q r : DevicePool}
    {y : AddressIndex} {ages : Chain Device.byAge}
    (ht : s.devices.Taken (.ofFrame f s.settings.weight) h r)
    (hview : q.view Device.byAge.bare = r.view Device.byAge.bare)
    (hroster : Roster q y ages (h.index :: c.ages)) :
    Indexed { s with devices := q, addresses := y, ages }
      { c with ages := h.index :: c.ages } := by
  have hnetwork : q.view Device.networkPart = r.view Device.networkPart :=
    Pool.view_eq_comp hview Device.networkPart
  have hchannel : q.view Device.channelPart = r.view Device.channelPart :=
    Pool.view_eq_comp hview Device.channelPart
  refine ⟨hroster, ?_, fun j d k hd hk => ?_, ?_, fun m j hm => ?_, fun j d hd => ?_⟩
  · rw [networkSlot_of_view (Pool.view_eq_comp hnetwork Prod.fst), networkSlot_taken ht rfl]
    exact (hs.grouping.occupied ht rfl).of_view hnetwork
  · obtain ⟨e, he, hde⟩ := Pool.exists_of_view_eq hnetwork hd
    have hek : e.network = some k := (congrArg Prod.fst hde).trans hk
    rw [ht.at?] at he
    split at he
    · obtain rfl := Option.some.inj he
      cases hek
    · exact hs.home j e k he hek
  · rw [deviceChain_of_view hchannel, deviceChain_taken ht rfl]
    exact hs.hearing
  · rw [Pool.isSome_of_view_eq hnetwork, ht.at?]
    split
    · rfl
    · exact hs.owner m j hm
  · obtain ⟨e, he, hde⟩ := Pool.exists_of_view_eq hchannel hd
    obtain ⟨hchannels, hcount⟩ := Prod.mk.inj hde
    rw [← hcount, ← hchannels]
    rw [ht.at?] at he
    split at he
    · obtain rfl := Option.some.inj he
      rfl
    · exact hs.count j e he

theorem admitNew_run (hs : s.Indexed c) {f : Frame} (hnew : s.addresses.find? f.source = none)
    (hroom : s.devices.size ≠ Capacity.devices)
    (hsingle : f.source.isZero = false ∧ f.source.isGroup = false) :
    ∃ h r q y ages, s.devices.Taken (.ofFrame f s.settings.weight) h r ∧
      q.view Device.byAge.bare = r.view Device.byAge.bare ∧
      s.addresses.insert? f.source h.index = some y ∧
      (admitNew f).run s = .ok
        ⟨{ s with devices := q, addresses := y, ages }, [.newDevice f.source f.signal],
          .ok h.index⟩ ∧
      Indexed { s with devices := q, addresses := y, ages }
        { c with ages := h.index :: c.ages } := by
  obtain ⟨h, r, hins, ht⟩ := hs.roster.pool.insert?_room (.ofFrame f s.settings.weight) hroom
  obtain ⟨y, ages, q, hy, hrun, hview, hroster⟩ :=
    hs.roster.enrolled ht rfl rfl hnew hroom hsingle
  refine ⟨h, r, q, y, ages, ht, hview, hy, ?_, hs.admitted ht hview hroster⟩
  have hinsert : s.addresses.insert? f.source h.index = some y := hy
  simp [admitNew, hins, hinsert, hrun, Except.map]

theorem revisit_run {f : Frame} {i : Nat} {d : Device} (hd : s.devices.at? i = some d)
    (hclock : ¬ f.timestamp < d.profile.lastSeen) :
    (revisit f i).run s = .ok
      ⟨{ s with devices := s.devices.modifyAt i fun d =>
          { d with profile := d.profile.absorb f s.settings.weight } }, [], .ok i⟩ := by
  simp [revisit, Pool.item_of_at? hd, hclock, changeDevice_run hd, Except.map]

theorem revisit_refused {f : Frame} {i : Nat} {d : Device} (hd : s.devices.at? i = some d)
    (hclock : f.timestamp < d.profile.lastSeen) :
    (revisit f i).run s = .ok ⟨s, [], .error .clockBackwards⟩ := by
  simp [revisit, Pool.item_of_at? hd, hclock]

end Survey

end AirSurvey

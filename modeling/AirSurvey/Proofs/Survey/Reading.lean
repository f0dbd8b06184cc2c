import AirSurvey.Proofs.Survey.Keeping

set_option autoImplicit false

/-!
What the readers of a survey answer when its indices are in step. None of them faults.
-/

namespace AirSurvey

def ChannelTable.slotsOn (t : ChannelTable) (order : List Nat) (channel : UInt8) : List Nat :=
  (order.filter fun m => t.channelAt m == some channel).filterMap t.deviceOf

theorem ChannelTable.channelAt_ne {t : ChannelTable} {channel : UInt8}
    (hnone : t.find? channel = none) (m : Nat) : t.channelAt m ≠ some channel := by
  intro hm
  obtain ⟨k, -, hk⟩ := Option.bind_eq_some_iff.1 hm
  rw [ChannelTable.numbers_getElem?, Option.map_eq_some_iff] at hk
  obtain ⟨e, he, hchannel⟩ := hk
  have hall := Array.find?_eq_none.1 hnone e (Array.mem_of_getElem? he)
  exact hall (by simpa using hchannel)

namespace Hearing

variable {t : ChannelTable} {chains : Nat → Chain Presence.byDevice} {order : List Nat}

theorem picked_entryOf (h : Hearing t chains order) {channel : UInt8} {k : Nat}
    (hk : t.numbers[k]? = some channel) :
    picked t.entryOf order k = order.filter fun m => t.channelAt m == some channel := by
  refine List.filter_congr fun m _ => ?_
  cases hm : t.entryOf m with
  | none => simp [ChannelTable.channelAt, hm]
  | some j =>
    have hiff : j = k ↔ t.numbers[j]? = some channel := by
      constructor
      · rintro rfl
        exact hk
      · intro hj
        obtain ⟨hlt, -⟩ := List.getElem?_eq_some_iff.1 hj
        exact (List.getElem?_inj hlt h.distinct).1 (hj.trans hk.symm)
    rw [Bool.eq_iff_iff]
    simpa [ChannelTable.channelAt, hm] using hiff

theorem members (h : Hearing t chains order) (channel : UInt8) :
    t.members channel = .ok (t.slotsOn order channel) := by
  cases hfind : t.find? channel with
  | none =>
    have hnone : (order.filter fun m => t.channelAt m == some channel) = [] :=
      List.filter_eq_nil_iff.2 fun m _ => by simpa using t.channelAt_ne hfind m
    simp [ChannelTable.members, hfind, ChannelTable.slotsOn, hnone]
  | some e =>
    obtain ⟨hchannel, k, hk, he, -⟩ := Array.find?_eq_some_iff_getElem.1 hfind
    have hget : t.entries[k]? = some e := by rw [Array.getElem?_eq_getElem hk, he]
    have hnumber : t.numbers[k]? = some channel := by
      rw [ChannelTable.numbers_getElem?, hget]
      simpa using hchannel
    have hspells := h.onChannel.spells k
    have hchain : t.chain k = e.members := by simp [ChannelTable.chain, hget]
    rw [hchain, h.picked_entryOf hnumber] at hspells
    simp only [ChannelTable.members, hfind, hspells.items, ChannelTable.slotsOn, bind, Except.bind,
      pure, Except.pure, List.map_filterMap]
    rfl

end Hearing

namespace Survey

variable {s : Survey} {c : Chronicle}

theorem allDevices_eq (hs : s.Indexed c) :
    s.allDevices = .ok (c.ages.filterMap s.devices.at?) := (hs.roster.woven.spells ()).items

theorem length_allDevices (hs : s.Indexed c) :
    (c.ages.filterMap s.devices.at?).length = s.size := by
  rw [List.filterMap_length_eq_length.2 fun i hi => (hs.roster.mem i).1 hi]
  exact hs.roster.pool.length_eq_size (hs.roster.woven.spells ()).nodup hs.roster.mem

theorem find?_eq (hs : s.Indexed c) (m : MacAddress) :
    s.find? m = .ok ((s.addresses.find? m).bind s.devices.at?) := by
  cases hfind : s.addresses.find? m with
  | none => simp [find?, hfind, pure, Except.pure]
  | some i =>
    obtain ⟨d, hd, -⟩ := (hs.roster.found m i).1 hfind
    simp [find?, hfind, Pool.item_of_at? hd, hd, Functor.map, Except.map]

theorem membersOf_eq (hs : s.Indexed c) (h : Handle) :
    s.membersOf h = .ok (if (s.networks.get? h).isSome then
      (picked (networkSlot s.devices) c.joined h.index).filterMap s.devices.at? else []) := by
  cases hn : s.networks.get? h with
  | none => simp [membersOf, hn]
  | some n => simpa [membersOf, hn] using (hs.grouping.spells hn).items

theorem channelsOf_eq (hs : s.Indexed c) {i : Nat} {d : Device} (hd : s.devices.at? i = some d) :
    s.channelsOf d = .ok (s.channels.channelsAt c.heard i) := by
  have hchain : deviceChain s.devices i = d.channels := deviceChain_of_at? hd
  rw [channelsOf, ← hchain]
  exact hs.hearing.channelsOf i

theorem devicesOn_eq (hs : s.Indexed c) (channel : UInt8) :
    s.devicesOn channel = .ok ((s.channels.slotsOn c.heard channel).filterMap s.devices.at?) := by
  have hslots : ∀ i ∈ s.channels.slotsOn c.heard channel, (s.devices.at? i).isSome := by
    intro i hi
    obtain ⟨m, -, hm⟩ := List.mem_filterMap.1 hi
    exact hs.owner m i hm
  simp [devicesOn, hs.hearing.members channel, Chain.mapM_item hslots, bind, Except.bind]

end Survey

end AirSurvey

import AirSurvey.Proofs.Survey.Keeping
import AirSurvey.Survey.Expiry

set_option autoImplicit false

/-!
Releasing the networks without members, and forgetting everything.
-/

namespace AirSurvey.Survey

variable {s : Survey} {c : Chronicle}

theorem purge_keeps (hs : s.Indexed c) {i : Nat} {d : Device} {h : Handle}
    (hd : s.devices.at? i = some d) (hh : d.network = some h) :
    h.index ∉ s.networks.emptyOnes.map Handle.index := by
  intro hmem
  have hempty := ((hs.grouping.mem_emptyOnes h.index).1 hmem).2
  have hslot : networkSlot s.devices i = some h.index := by simp [networkSlot, hd, hh]
  have hi : i ∈ picked (networkSlot s.devices) c.joined h.index :=
    mem_picked.2 ⟨(hs.grouping.mem i).2 (by simp [hslot]), hslot⟩
  simp [hempty] at hi

theorem purge_sound (hs : s.Sound c) : s.purgeNetworks.2.Sound c where
  roster := hs.roster
  grouping := hs.grouping.purged
  home i d h hd hh := by
    have hkept := purge_keeps hs.toIndexed hd hh
    change (s.networks.purge.2).pool.handleAt? h.index = some h
    rw [NetworkTable.purge, Pool.handleAt?_foldl_release, if_neg hkept]
    exact hs.home i d h hd hh
  hearing := hs.hearing
  owner := hs.owner
  count := hs.count
  aimed := hs.aimed

theorem clear_sound (hs : s.Sound c) : s.clear.Sound ⟨[], [], []⟩ := by
  have hvacant : ∀ i, s.clear.devices.at? i = none := Pool.at?_clear s.devices
  have hslot : networkSlot s.clear.devices = fun _ => none := by
    funext i
    simp [networkSlot, hvacant]
  have hchain : deviceChain s.clear.devices = fun _ => .empty := by
    funext i
    simp [deviceChain, hvacant]
  refine ⟨⟨⟨hs.roster.pool.clear, woven_vacant hvacant, ?_, ?_, List.nodup_nil, ?_, ?_⟩,
    ?_, ?_, ?_, ?_, ?_⟩, ?_⟩
  · simp [hvacant]
  · simp [clear, Pool.at?_clear, AddressIndex.empty, AddressIndex.find?]
  · simp [hvacant]
  · simp [hvacant]
  · rw [hslot]
    exact hs.grouping.clear hvacant
  · simp [hvacant]
  · rw [hchain]
    exact hs.hearing.clear
  · intro m i hm
    simp [clear, ChannelTable.clear, ChannelTable.deviceOf, Pool.at?_clear] at hm
  · simp [hvacant]
  · simp [hvacant]

end AirSurvey.Survey

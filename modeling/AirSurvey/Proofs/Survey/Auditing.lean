import AirSurvey.Proofs.Chain.Walking
import AirSurvey.Proofs.Survey.Reception
import AirSurvey.Survey.Audit

set_option autoImplicit false

/-!
The audit of a survey whose indices are in step: no check of it finds a defect.
-/

namespace AirSurvey

theorem forM_eq_ok {ε α : Type} {g : α → Except ε Unit} {l : List α}
    (h : ∀ x ∈ l, g x = .ok ()) : l.forM g = .ok () := by
  induction l with
  | nil => rfl
  | cons x l ih =>
    rw [List.forall_mem_cons] at h
    simp only [List.forM_eq_forM, List.forM_cons, h.1] at ih ⊢
    exact ih h.2

namespace Hearing

variable {t : ChannelTable} {chains : Nat → Chain Presence.byDevice} {order : List Nat}

theorem auditDevice (h : Hearing t chains order) (i : Nat) :
    t.auditDevice i (chains i) = .ok () := by
  have hspells := h.onDevice.spells i
  have hown : ∀ m ∈ picked t.deviceOf order i, (do
      let x ← t.presences.item m
      if x.device != i then throw (Fault.defect (.foreignPresence m))) = .ok () := by
    intro m hm
    obtain ⟨x, hx, hdevice⟩ := Option.map_eq_some_iff.1 (mem_picked.1 hm).2
    simp [Pool.item_of_at? hx, hdevice, bind, Except.bind, pure, Except.pure]
  rw [ChannelTable.auditDevice, hspells.audit, hspells.toList]
  exact forM_eq_ok hown

theorem auditEntry (h : Hearing t chains order) {k : Nat} {e : ChannelEntry}
    (he : t.entries[k]? = some e) : t.auditEntry e k = .ok (picked t.entryOf order k) := by
  have hspells := h.onChannel.spells k
  rw [show t.chain k = e.members by simp [ChannelTable.chain, he]] at hspells
  have hown : ∀ m ∈ picked t.entryOf order k, (do
      let x ← t.presences.item m
      if x.entry != k then throw (Fault.defect (.wrongChannel m))) = .ok () := by
    intro m hm
    obtain ⟨x, hx, hentry⟩ := Option.map_eq_some_iff.1 (mem_picked.1 hm).2
    simp [Pool.item_of_at? hx, hentry, bind, Except.bind, pure, Except.pure]
  rw [ChannelTable.auditEntry, hspells.audit, hspells.toList]
  exact congrArg (· >>= fun _ => pure (picked t.entryOf order k)) (forM_eq_ok hown)

theorem audit (h : Hearing t chains order) : t.audit = .ok () := by
  have hentries : (t.entries.toList.zipIdx.mapM fun x => t.auditEntry x.1 x.2) =
      .ok (t.entries.toList.zipIdx.map fun x => picked t.entryOf order x.2) := by
    refine mapM_eq_ok fun x hx => ?_
    rw [List.mem_zipIdx_iff_getElem?, Array.getElem?_toList] at hx
    exact h.auditEntry hx
  -- Every presence is on the chain of one channel.
  have hcount : (t.entries.toList.zipIdx.map fun x => picked t.entryOf order x.2).flatten.length =
      t.presences.size := by
    have hsum := length_eq_sum_picked h.nodup (List.nodup_range (n := t.entries.size))
      fun m hm => by
        obtain ⟨k, hk⟩ : ∃ k, t.entryOf m = some k := by
          have hsome := (h.mem m).1 hm
          rw [ChannelTable.deviceOf, Option.isSome_map] at hsome
          rw [ChannelTable.entryOf]
          exact Option.isSome_iff_exists.1 (by rwa [Option.isSome_map])
        exact ⟨k, List.mem_range.2 (by rw [← ChannelTable.length_numbers]; exact h.entry m k hk), hk⟩
    rw [← h.pool.length_eq_size h.nodup h.mem_order, hsum, List.length_flatten, List.map_map,
      List.range_eq_range', ← Array.length_toList, ← List.zipIdx_map_snd, List.map_map]
    rfl
  rw [ChannelTable.audit, hentries]
  simp [hcount, bind, Except.bind, pure, Except.pure]

end Hearing

namespace Survey

variable {s : Survey} {c : Chronicle}

theorem networkSlot_eq_none_iff {p : DevicePool} {i : Nat} {d : Device} (hd : p.at? i = some d) :
    networkSlot p i = none ↔ d.network = none := by
  rw [networkSlot, hd, Option.bind_some, Option.map_eq_none_iff]

theorem auditNetworkOf_eq (hs : s.Indexed c) {i : Nat} {d : Device}
    (hd : s.devices.at? i = some d) : s.auditNetworkOf i d = .ok () := by
  unfold auditNetworkOf
  cases hnetwork : d.network with
  | none =>
    have hloose : d.inNetwork = .loose := hs.grouping.woven.loose i d hd fun a ha => by
      have hslot := (mem_picked.1 ha).2
      rw [(networkSlot_eq_none_iff hd).2 hnetwork] at hslot
      cases hslot
    simp [ensure, hloose, Link.isLinked, Link.loose]
  | some h =>
    obtain ⟨n, hn⟩ := hs.exists_network hd hnetwork
    have hslot : networkSlot s.devices i = some h.index := by simp [networkSlot, hd, hnetwork]
    have hmem : i ∈ picked (networkSlot s.devices) c.joined h.index :=
      mem_picked.2 ⟨(hs.grouping.mem i).2 (by simp [hslot]), hslot⟩
    have hcontains : n.members.contains s.devices i = .ok true := by
      rw [(hs.grouping.spells hn).contains, List.contains_iff_mem.2 hmem]
    simp [hn, hcontains, ensure, bind, Except.bind]

theorem auditDevice_eq (hs : s.Sound c) {i : Nat} (hi : i ∈ c.ages) : s.auditDevice i = .ok () := by
  obtain ⟨d, hd⟩ := Option.isSome_iff_exists.1 ((hs.roster.mem i).1 hi)
  have haddress : s.addresses.find? d.address = some i := (hs.roster.found _ i).2 ⟨d, hd, rfl⟩
  have hhandle := hs.roster.handle i d hd
  have hchannels : s.channels.auditDevice i d.channels = .ok () := by
    rw [← deviceChain_of_at? hd]
    exact hs.hearing.auditDevice i
  have haimed : (d.accessPoint.all fun h => (s.device? h).isSome) = true := by
    cases hh : d.accessPoint with
    | none => rfl
    | some h =>
      obtain ⟨a, ha, -⟩ := hs.aimed i d hd h hh
      rw [Option.all_some, device?, ha, Option.isSome_some]
  simp [auditDevice, Pool.item_of_at? hd, ensure, haddress, hhandle,
    auditNetworkOf_eq hs.toIndexed hd, hchannels, hs.count i d hd, haimed, bind, Except.bind]

theorem length_members (hs : s.Indexed c) :
    (s.networks.pool.entries.map fun e =>
        picked (networkSlot s.devices) c.joined e.1.index).flatten.length =
      ((c.ages.filterMap s.devices.at?).filter fun d => d.network.isSome).length := by
  have hsum := length_eq_sum_picked hs.grouping.nodup s.networks.pool.entries_nodup
    fun i hi => by
      obtain ⟨g, hg⟩ := Option.isSome_iff_exists.1 ((hs.grouping.mem i).1 hi)
      exact ⟨g, (Pool.mem_entries_index _ g).2 (hs.grouping.isSome_of_key hg), hg⟩
  have hnamed : (c.ages.filterMap s.devices.at?).filter (fun d => d.network.isSome) =
      (c.ages.filter fun i => (networkSlot s.devices i).isSome).filterMap s.devices.at? := by
    rw [List.filter_filterMap, List.filterMap_filter]
    refine List.filterMap_congr fun i _ => ?_
    cases hd : s.devices.at? i <;> simp [networkSlot, hd, Option.filter_some]
  have hoccupied : ∀ i, (networkSlot s.devices i).isSome → (s.devices.at? i).isSome := by
    intro i hi
    cases hd : s.devices.at? i with
    | none => simp [networkSlot, hd] at hi
    | some d => rfl
  have hperm : c.joined.Perm (c.ages.filter fun i => (networkSlot s.devices i).isSome) := by
    refine (List.perm_ext_iff_of_nodup hs.grouping.nodup
      ((hs.roster.woven.spells ()).nodup.filter _)).2 fun i => ?_
    rw [hs.grouping.mem, List.mem_filter, hs.roster.mem]
    exact ⟨fun hi => ⟨hoccupied i hi, hi⟩, And.right⟩
  rw [hnamed, List.filterMap_length_eq_length.2 fun i hi => hoccupied i (List.mem_filter.1 hi).2,
    ← hperm.length_eq, hsum, List.length_flatten, List.map_map, List.map_map]
  rfl

theorem audit_eq (hs : s.Sound c) : s.audit = .ok () := by
  have hages := hs.roster.woven.spells ()
  have hlength : s.ages.length = s.devices.size :=
    hages.length.trans (hs.roster.pool.length_eq_size hages.nodup hs.roster.mem)
  have hdevices : c.ages.forM s.auditDevice = .ok () := forM_eq_ok fun i hi => auditDevice_eq hs hi
  have hspells : ∀ e ∈ s.networks.pool.entries,
      e.2.members.Spells s.devices (picked (networkSlot s.devices) c.joined e.1.index) :=
    fun e he => hs.grouping.spells ((Pool.mem_entries _ _ _).1 he)
  have hnetworks : (s.networks.pool.entries.map Prod.snd).forM
      (fun n => n.members.audit s.devices) = .ok () := by
    refine forM_eq_ok fun n hn => ?_
    obtain ⟨e, he, rfl⟩ := List.mem_map.1 hn
    exact (hspells e he).audit
  have hmembers : (s.networks.pool.entries.map Prod.snd).mapM
      (fun n => n.members.toList s.devices) =
        .ok (s.networks.pool.entries.map fun e =>
          picked (networkSlot s.devices) c.joined e.1.index) := by
    rw [List.mapM_map]
    exact mapM_eq_ok fun e he => (hspells e he).toList
  rw [audit, hages.audit, hages.toList]
  simp only [ensure, hlength, hs.roster.size_addresses, beq_self_eq_true, if_true, hdevices,
    hnetworks, hmembers, allDevices_eq hs.toIndexed, length_members hs.toIndexed,
    hs.hearing.audit, bind, Except.bind]

end Survey

end AirSurvey

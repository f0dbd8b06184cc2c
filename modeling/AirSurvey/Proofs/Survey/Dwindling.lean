import AirSurvey.Proofs.Survey.Foresight

set_option autoImplicit false

/-!
The outlook of a survey tells what becomes of it when devices are evicted, when networks are released
and when everything is forgotten.
-/

namespace AirSurvey

open NetworkTable (regard regardNews)

theorem filter_bind_eq {α β : Type} (o : Option α) (g : α → Option β) (p : β → Bool) :
    (o.bind g).filter p = o.bind fun a => (g a).filter p := by
  cases o <;> rfl

namespace Survey

variable {s t u : Survey} {c c' : Chronicle} {i : Nat} {d : Device} {events : List Event}

namespace Evicts

/-- An order of devices, told by their addresses, loses the one that is evicted. -/
theorem addressIn (m : s.Evicts c i d t) (hs : s.Indexed c) (l : List Nat) :
    (l.filter fun j => !(j == i)).filterMap (AirSurvey.addressIn t.devices) =
      (l.filterMap (AirSurvey.addressIn s.devices)).filter (· != d.address) := by
  rw [← hs.roster.addresses_without m.device]
  refine List.filterMap_congr fun j hj => m.thinned.addressIn_eq (fun _ => rfl) ?_
  simpa using (List.mem_filter.1 hj).2

theorem slot_ne (m : s.Evicts c i d t) (hs : s.Indexed c) {a : MacAddress} (ha : a ≠ d.address)
    {j : Nat} (hfind : s.addresses.find? a = some j) : (j == i) = false := by
  obtain ⟨e, he, rfl⟩ := (hs.roster.found a j).1 hfind
  rw [beq_eq_false_iff_ne]
  rintro rfl
  exact ha (congrArg Device.address (Option.some.inj (he.symm.trans m.device)))

theorem dossier (m : s.Evicts c i d t) (hs : s.Indexed c) (a : MacAddress) :
    t.dossier (c.without s.channels (· == i)) a =
      if a = d.address then none else s.dossier c a := by
  rw [Survey.dossier, m.addresses, AddressIndex.find?_erase]
  split
  · rfl
  · next ha =>
    rw [Survey.dossier]
    refine Option.bind_congr fun j hfind => ?_
    rw [m.thinned.dossierAt fun _ => ⟨rfl, rfl⟩, m.slot_ne hs ha hfind]
    rfl

theorem aim (m : s.Evicts c i d t) (hs : s.Indexed c) (a : MacAddress) :
    t.aim a = if a = d.address then none else (s.aim a).filter (· != d.address) := by
  rw [Survey.aim, m.addresses, AddressIndex.find?_erase]
  split
  · rfl
  · next ha =>
    rw [Survey.aim, filter_bind_eq]
    refine Option.bind_congr fun j hfind => ?_
    have hcore := m.thinned.core j
    rw [m.slot_ne hs ha hfind, if_neg Bool.false_ne_true] at hcore
    rw [aimAt_of_core hcore, aimAt_eq, filter_bind_eq]
    refine Option.bind_congr fun k _ => ?_
    have hget := congrArg (Option.map Device.address) (m.thinned.get? k)
    rw [Option.map_map] at hget
    rw [show (t.devices.get? k).map Device.address = _ from hget]
    cases hb : s.devices.get? k with
    | none => simp
    | some b =>
      have hat := Pool.at?_of_get? hb
      by_cases hk : k.index = i
      · subst hk
        obtain rfl := Option.some.inj (hat.symm.trans m.device)
        simp [Option.filter_some]
      · have hne : b.address ≠ d.address := fun e => hk (hs.roster.address_inj hat m.device e)
        simp [hk, hne, Option.filter_some, Device.core]

theorem outlook (m : s.Evicts c i d t) (hs : s.Indexed c) :
    t.outlook (c.without s.channels (· == i)) = (s.outlook c).evicted d.address ∧
      s.evictNews c i d = (s.outlook c).evictNews d.address := by
  have hname : (d.network.bind fun h => (s.networks.get? h).map Network.name) =
      (s.outlook c).nameOf d.address := by
    rw [nameOf_outlook hs m.device, map_name_networkOf?]
  have hlive : ∀ h, d.network = some h → ∃ n, s.networks.get? h = some n ∧
      s.splitWithout c i h = (s.outlook c).isSplitWithout d.address n.name := by
    intro h hh
    obtain ⟨n, hn⟩ := hs.exists_network m.device hh
    exact ⟨n, hn, splitWithout_outlook hs m.device hn⟩
  have hleft := hs.grouping.regard_departed hlive
  rw [hname] at hleft
  constructor
  · simp only [Outlook.evicted, Survey.outlook, Outlook.mk.injEq]
    refine ⟨m.thinned.settings, m.addressIn hs _, funext (m.dossier hs), funext (m.aim hs),
      m.addressIn hs _, NetworkTable.names_of_view m.thinned.names, ?_, funext fun channel => ?_,
      m.thinned.numbers⟩
    · rw [NetworkTable.splitNames_of_view m.networks]
      exact hleft.1
    · rw [heardAddresses, m.thinned.slotsOn]
      exact m.addressIn hs _
  · have hdossier := dossier_outlook hs m.device
    rw [dossierAt, m.device] at hdossier
    rw [Survey.evictNews, hleft.2, Outlook.evictNews, hdossier]
    rfl

end Evicts

/-- The outlook tells what the walk of a sweep leaves, its records and how many it evicts. -/
theorem Sweeps.outlook {now : Timestamp} {timeout : UInt32} {r : List Nat} {n : Nat}
    (m : Sweeps now timeout r s c t c' events n) (hs : s.Indexed c) (hnodup : r.Nodup) :
    Outlook.sweepFrom now timeout (r.filterMap (AirSurvey.addressIn s.devices)) (s.outlook c) =
      (t.outlook c', events, n) := by
  induction m with
  | done => rfl
  | @spares i r d s _ c _ _ _ hd hfresh _ ih =>
    have haddress := addressIn_of_at? hd
    have hstale : (s.outlook c).isStale now timeout d.address = false := by
      rw [Outlook.isStale, dossier_outlook hs hd, dossierAt, hd]
      exact hfresh
    rw [List.filterMap_cons_some haddress, Outlook.sweepFrom, hstale, if_neg Bool.false_ne_true]
    exact ih hs (List.nodup_cons.1 hnodup).2
  | @evicts i r d s _ u c _ _ _ hstale step _ ih =>
    obtain ⟨hi, hnodup⟩ := List.nodup_cons.1 hnodup
    have haddress := addressIn_of_at? step.device
    have hstale : (s.outlook c).isStale now timeout d.address = true := by
      rw [Outlook.isStale, dossier_outlook hs step.device, dossierAt, step.device]
      exact hstale
    have hrest : r.filterMap (AirSurvey.addressIn u.devices) =
        r.filterMap (AirSurvey.addressIn s.devices) := by
      refine List.filterMap_congr fun j hj => step.thinned.addressIn_eq (fun _ => rfl) ?_
      rw [beq_eq_false_iff_ne]
      rintro rfl
      exact hi hj
    obtain ⟨houtlook, hnews⟩ := step.outlook hs
    have hwalk := ih step.indexed hnodup
    rw [hrest, houtlook] at hwalk
    rw [List.filterMap_cons_some haddress, Outlook.sweepFrom, if_pos hstale, hwalk, hnews]

theorem cleansed_outlook (hs : s.Indexed c) : (s.cleansed c.ages).outlook c = s.outlook c := by
  have haddresses : addressIn (s.cleansed c.ages).devices = addressIn s.devices :=
    addressIn_of_view (s.view_cleansed _ Device.address fun _ _ => rfl)
  have hdossier : (s.cleansed c.ages).dossierAt c = s.dossierAt c := by
    funext j
    have hview := Pool.at?_map_of_view_eq
      (s.view_cleansed c.ages (fun d => (d.profile, d.network)) fun _ _ => rfl) j
    rw [dossierAt_eq, hview, dossierAt_eq]
    rfl
  have haim : (s.cleansed c.ages).aimAt = s.aimAt := by
    funext j
    have hget : ∀ k, ((s.cleansed c.ages).devices.get? k).map Device.address =
        (s.devices.get? k).map Device.address := by
      intro k
      rw [← Pool.get?_view, s.view_cleansed _ Device.address fun _ _ => rfl, Pool.get?_view]
    rw [aimAt_eq, aimAt_eq, at?_cleansed hs, funext hget]
    cases s.devices.at? j with
    | none => rfl
    | some d =>
      change (d.accessPoint.filter _).bind _ = d.accessPoint.bind _
      cases d.accessPoint with
      | none => rfl
      | some k => cases hk : s.devices.get? k <;> simp [device?, hk, Option.filter_some]
  simp only [outlook, Outlook.mk.injEq]
  refine ⟨rfl, ?_, ?_, ?_, ?_, rfl, rfl, ?_, rfl⟩
  · rw [addressesByAge, haddresses, addressesByAge]
  · funext a
    rw [dossier, hdossier]
    rfl
  · funext a
    rw [aim, haim]
    rfl
  · rw [joinedAddresses, haddresses, joinedAddresses]
  · funext channel
    rw [heardAddresses, haddresses]
    rfl

theorem Sweeps.swept_outlook {now : Timestamp} {timeout : UInt32} {n : Nat}
    (m : Sweeps now timeout c.ages s c u c' events n) (hs : s.Sound c) (hu : u.Indexed c') :
    (s.outlook c).swept now timeout =
      ⟨(u.swept c' n).outlook c', u.sweptNews events n, .ok .done⟩ := by
  have hwalk := m.outlook hs.toIndexed (hs.roster.woven.spells ()).nodup
  change Outlook.sweepFrom now timeout (s.outlook c).tracked (s.outlook c) = _ at hwalk
  rw [m.swept_eq hs, cleansed_outlook hu, Outlook.swept, hwalk, sweptNews,
    ← length_addressesByAge hu]
  rfl

theorem isEmpty_outlook (hs : s.Indexed c) {h : Handle} {n : Network}
    (hn : s.networks.get? h = some n) :
    n.isEmpty = ((s.outlook c).members n.name).isEmpty := by
  rw [← members_outlook hs hn, Network.isEmpty, (hs.grouping.spells hn).isEmpty_iff]
  cases hmembers : picked (networkSlot s.devices) c.joined h.index with
  | nil => rfl
  | cons j l =>
    have hj : j ∈ picked (networkSlot s.devices) c.joined h.index :=
      hmembers ▸ List.mem_cons_self
    obtain ⟨e, he, -⟩ := Option.bind_eq_some_iff.1 (mem_picked.1 hj).2
    simp [addressIn_of_at? he]

theorem purge_outlook (hs : s.Indexed c) :
    s.purgeNetworks.2.outlook c = (s.outlook c).purged ∧
      s.purgeNetworks.1 = ((s.outlook c).names.filter fun name =>
        ((s.outlook c).members name).isEmpty = true).card := by
  obtain ⟨hnames, hsplit, hcount⟩ := hs.grouping.names_purge
    (fun name => ((s.outlook c).members name).isEmpty) fun _ _ => isEmpty_outlook hs
  refine ⟨?_, hcount⟩
  have hdossier : s.purgeNetworks.2.dossier c = s.dossier c := by
    funext a
    rw [dossier, funext (dossierAt_purge hs)]
    rfl
  simp only [Outlook.purged, outlook, Outlook.mk.injEq]
  exact ⟨rfl, rfl, hdossier, rfl, rfl, hnames, hsplit, rfl, rfl⟩

theorem clear_outlook (s : Survey) : s.clear.outlook ⟨[], [], []⟩ = .blank s.settings := by
  have hvacant : s.networks.clear.pool.entries = [] := by
    rw [List.eq_nil_iff_forall_not_mem]
    rintro ⟨h, n⟩ hn
    have hat := Pool.at?_of_get? ((Pool.mem_entries _ _ _).1 hn)
    simp [NetworkTable.clear, Pool.at?_clear] at hat
  have hnames : s.networks.clear.names = ∅ := by rw [NetworkTable.names, hvacant]; rfl
  have hsplit : s.networks.clear.splitNames = ∅ := by rw [NetworkTable.splitNames, hvacant]; rfl
  simp only [Outlook.blank, outlook, Outlook.mk.injEq]
  exact ⟨rfl, rfl, rfl, rfl, rfl, hnames, hsplit, rfl, rfl⟩

theorem new_outlook (settings : Settings) :
    (new settings).outlook ⟨[], [], []⟩ = .blank settings := by
  simp only [Outlook.blank, outlook, Outlook.mk.injEq]
  exact ⟨rfl, rfl, rfl, rfl, rfl, rfl, rfl, rfl, rfl⟩

end Survey

end AirSurvey

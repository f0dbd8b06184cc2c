import AirSurvey.Proofs.Survey.Outlook

set_option autoImplicit false

/-!
The outlook of a survey tells what every operation comes to: its records, its answer and the outlook
afterwards. Two surveys that have the same outlook cannot be told apart, whatever their slots are.
-/

namespace AirSurvey

open NetworkTable (regard regardNews)

theorem Grouping.of_entered {p : DevicePool} {t u : NetworkTable} {key : Nat → Option Nat}
    {order : List Nat} (g : Grouping p t key order) {name : NetworkName} {h : Handle}
    (hvisible : name.isHidden = false) (he : t.Entered name h u) : Grouping p u key order := by
  cases he with
  | known => exact g
  | made hfind ht => exact g.entered hfind hvisible ht

namespace Survey

variable {s t : Survey} {c c' : Chronicle} {f : Frame} {i : Nat} {d e : Device}
  {events : List Event}

/-! ## Refusals -/

theorem length_addressesByAge (hs : s.Indexed c) : (s.addressesByAge c).length = s.size := by
  rw [← length_allDevices hs, ← List.length_map Device.address, List.map_filterMap]
  rfl

theorem channelCount_eq (hs : s.Indexed c) (hd : s.devices.at? i = some d) :
    d.channelCount = UInt16.ofNat (s.channels.channelsAt c.heard i).length := by
  rw [hs.hearing.length_channelsAt, ← hs.channelCount hd, UInt16.ofNat_toNat]

theorem presences_outlook (hs : s.Indexed c) :
    s.channels.presences.size = (s.outlook c).presences := by
  rw [hs.size_presences, Outlook.presences]
  change _ = ((c.ages.filterMap (addressIn s.devices)).map _).sum
  rw [List.map_filterMap, List.map_filterMap]
  refine congrArg List.sum (List.filterMap_congr fun j _ => ?_)
  cases hd : s.devices.at? j with
  | none => simp [addressIn, hd]
  | some d =>
    simp [addressIn, hd, Outlook.channelsOf, dossier_outlook hs hd, dossierAt, hs.channelCount hd,
      hs.hearing.length_channelsAt]

theorem known_outlook (hs : s.Indexed c) (m : MacAddress) :
    ((s.addresses.find? m).bind s.devices.at?).isNone = true ↔ m ∉ (s.outlook c).tracked := by
  change _ ↔ m ∉ s.addressesByAge c
  rw [mem_addressesByAge hs]
  cases hfind : s.addresses.find? m with
  | none => simp
  | some i => simpa [Option.isSome_iff_ne_none] using occupied_of_find? hs hfind

theorem knownChannels_outlook (hs : s.Indexed c) (m : MacAddress) :
    s.knownChannels c (s.addresses.find? m) = (s.outlook c).channelsOf m := by
  change _ = ((s.dossier c m).map Dossier.channels).getD []
  rw [knownChannels, dossier]
  cases hfind : s.addresses.find? m with
  | none => rfl
  | some i =>
    obtain ⟨d, hd⟩ := Option.isSome_iff_exists.1 (occupied_of_find? hs hfind)
    simp [dossierAt, hd]

theorem knownProfile_outlook (s : Survey) (c : Chronicle) (m : MacAddress) (p : Profile → Bool) :
    (((s.addresses.find? m).bind s.devices.at?).any fun d => p d.profile) =
      ((s.outlook c).dossier m).any fun k => p k.profile := by
  change _ = (s.dossier c m).any _
  rw [dossier]
  cases s.addresses.find? m with
  | none => rfl
  | some i => cases hd : s.devices.at? i <;> simp [dossierAt, hd]

theorem newName_outlook (hs : s.Indexed c) (f : Frame) :
    (f.name.any fun name => name.text != "" && !s.knowsName name) =
      f.visibleName.any fun name => decide (name ∉ (s.outlook c).names) := by
  have hknows : ∀ name, s.knowsName name = decide (name ∈ (s.outlook c).names) := by
    intro name
    rw [knowsName_eq, Bool.eq_iff_iff, decide_eq_true_eq]
    exact hs.grouping.find?_isSome_iff name
  cases hname : f.name with
  | none => simp [Frame.visibleName, hname]
  | some name =>
    cases hhidden : name.isHidden <;>
      simp_all [Frame.visibleName, NetworkName.isHidden, Option.filter_some]

theorem newNumber_outlook (s : Survey) (c : Chronicle) (channel : UInt8) :
    (!s.knowsChannel channel) = decide (channel ∉ (s.outlook c).numbers) := by
  have hmem := ChannelTable.position?_eq_none_iff (t := s.channels) channel
  rw [knowsChannel_eq, Option.not_isSome, Bool.eq_iff_iff, Option.isNone_iff_eq_none, hmem,
    decide_eq_true_eq]
  rfl

theorem refusalOf_outlook (hs : s.Indexed c) (f : Frame) :
    s.refusalOf c f = (s.outlook c).verdict f := by
  have hsize : s.size = (s.outlook c).tracked.length := (length_addressesByAge hs).symm
  have hnetworks : s.networks.pool.size = (s.outlook c).names.card := hs.grouping.size_eq_card
  have hnumbers : s.channelEntries.length = (s.outlook c).numbers.length :=
    s.channels.length_numbers.symm
  have hclock := s.knownProfile_outlook c f.source fun p => f.timestamp < p.lastSeen
  rw [← verdict_eq hs]
  simp only [verdict, Outlook.verdict, known_outlook hs, newName_outlook hs,
    knownChannels_outlook hs, s.newNumber_outlook c, presences_outlook hs, hclock, hsize, hnetworks,
    hnumbers]

/-! ## Frames that are taken in -/

theorem Arrives.slot_ne (m : s.Arrives c f i d t c' events) (ht : t.Indexed c') {a : MacAddress}
    (ha : a ≠ f.source) {j : Nat} (hfind : s.addresses.find? a = some j) : j ≠ i := by
  rintro rfl
  have hother := (ht.roster.tells a j).1 (by rw [m.find?, if_neg ha, hfind])
  have hsource := (ht.roster.tells f.source j).1 (by rw [m.find?, if_pos rfl])
  exact ha (Option.some.inj (hother.symm.trans hsource))

theorem Arrives.dossier_of_ne (m : s.Arrives c f i d t c' events) (hs : s.Indexed c)
    (ht : t.Indexed c') {a : MacAddress} (ha : a ≠ f.source) : t.dossier c' a = s.dossier c a := by
  rw [dossier, m.find?, if_neg ha, dossier]
  refine Option.bind_congr fun j hfind => ?_
  rw [m.dossierAt hs, if_neg (m.slot_ne ht ha hfind)]

theorem Arrives.nameOf (m : s.Arrives c f i d t c' events) (hs : s.Indexed c) (ht : t.Indexed c') :
    (t.outlook c').nameOf = (s.outlook c).nameOf := by
  funext a
  by_cases ha : a = f.source
  · subst ha
    rw [← m.address hs, nameOf_outlook ht m.device, (m.known hs).1, m.address hs]
    rfl
  · rw [Outlook.nameOf, Outlook.nameOf]
    exact congrArg (Option.bind · Dossier.name) (m.dossier_of_ne hs ht ha)

theorem Arrives.newName (m : s.Arrives c f i d t c' events) (hs : s.Indexed c)
    (ht : t.Indexed c') : (t.outlook c').newName f = (s.outlook c).newName f := by
  rw [Outlook.newName, m.nameOf hs ht, Outlook.newName]

theorem Arrives.isSplitWithout (m : s.Arrives c f i d t c' events) (hs : s.Indexed c)
    (ht : t.Indexed c') :
    (t.outlook c').isSplitWithout f.source = (s.outlook c).isSplitWithout f.source := by
  funext name
  have hjoined : (t.outlook c').joined = (s.outlook c).joined := m.joinedAddresses hs
  rw [Outlook.isSplitWithout, Outlook.isSplitWithout, Outlook.members, Outlook.members,
    m.nameOf hs ht, hjoined, Outlook.differs, Outlook.differs]
  refine congrArg _ (List.filterMap_congr fun a ha => ?_)
  have hne : a ≠ f.source := by simpa using (List.mem_filter.1 ha).2
  exact congrArg (Option.bind · _) (m.dossier_of_ne hs ht hne)

theorem newName_of_stays (hs : s.Indexed c) (hd : s.devices.at? i = some d)
    (hsource : d.address = f.source)
    (hstays : ∀ name, f.visibleName = some name → ∃ n, s.networkOf? d = some n ∧ n.name = name) :
    (s.outlook c).newName f = none := by
  rw [Outlook.newName, Option.filter_eq_none_iff]
  intro name hvisible
  obtain ⟨n, hn, rfl⟩ := hstays name hvisible
  rw [← hsource, nameOf_outlook hs hd, hn]
  simp

theorem newName_of_moves (hs : s.Indexed c) (hd : s.devices.at? i = some d)
    (hsource : d.address = f.source) {name : NetworkName} (hvisible : f.visibleName = some name)
    (hother : ∀ n, s.networkOf? d = some n → n.name ≠ name) :
    (s.outlook c).newName f = some name := by
  have hne : (s.networkOf? d).map Network.name ≠ some name := by
    rw [Ne, Option.map_eq_some_iff, not_exists]
    exact fun n hn => hother n hn.1 hn.2
  rw [Outlook.newName, hvisible, Option.filter_some, ← hsource, nameOf_outlook hs hd,
    if_pos (by simpa using hne)]

/-- What following a name does to the networks. -/
theorem FollowsName.foreseen (m : s.FollowsName c f i d t c' events) (hs : s.Indexed c)
    (hd : s.devices.at? i = some d) (hsource : d.address = f.source) :
    t.networks.names = ((s.outlook c).newName f).elim s.networks.names (insert · s.networks.names) ∧
      t.networks.splitNames = regard s.networks.splitNames
        ((s.outlook c).isSplitWithout f.source) ((s.outlook c).oldName f) ∧
      events = (s.outlook c).moveNews f := by
  have hname : (s.outlook c).nameOf f.source = (s.networkOf? d).map Network.name := by
    rw [← hsource, nameOf_outlook hs hd]
  cases m with
  | stays hstays =>
    rw [Outlook.oldName, Outlook.moveNews, newName_of_stays hs hd hsource hstays]
    exact ⟨rfl, rfl, rfl⟩
  | @moves name h q v hvisible hother hmoved =>
    have hnew := newName_of_moves hs hd hsource hvisible hother
    have hhidden : name.isHidden = false := by
      simpa using (Option.filter_eq_some_iff.1 hvisible).2
    obtain ⟨u, hentered, hcore⟩ := hmoved.networks
    obtain ⟨hnames, hsplit⟩ := hs.grouping.names_entered hentered
    have hlive : ∀ k, d.network = some k → ∃ n, s.networks.get? k = some n ∧
        s.splitWithout c i k = (s.outlook c).isSplitWithout f.source n.name := by
      intro k hk
      obtain ⟨n, hn⟩ := hs.exists_network hd hk
      exact ⟨n, hn, by rw [splitWithout_outlook hs hd hn, hsource]⟩
    have hlive' : ∀ k, d.network = some k → ∃ n, u.get? k = some n ∧
        s.splitWithout c i k = (s.outlook c).isSplitWithout f.source n.name := by
      intro k hk
      obtain ⟨n, hn, hsame⟩ := hlive k hk
      exact ⟨n, hentered.get?_of_get? hn, hsame⟩
    have hold : (d.network.bind fun k => (u.get? k).map Network.name) =
        (s.outlook c).nameOf f.source := by
      rw [hname, map_name_networkOf?]
      cases hk : d.network with
      | none => rfl
      | some k =>
        obtain ⟨n, hn, -⟩ := hlive k hk
        rw [Option.bind_some, Option.bind_some, hn, hentered.get?_of_get? hn]
    have hleft := (hs.grouping.of_entered hhidden hentered).regard_departed hlive'
    have hnews := (hs.grouping.regard_departed hlive).2
    rw [hold, hsplit] at hleft
    rw [← map_name_networkOf?, ← hname] at hnews
    refine ⟨?_, ?_, ?_⟩
    · have hview : v.pool.view Network.name = u.pool.view Network.name :=
        (Pool.view_eq_comp hcore Prod.fst).trans (u.departed_names _ _)
      rw [hnew, Option.elim_some, ← hnames]
      exact NetworkTable.names_of_view hview
    · rw [Outlook.oldName, hnew, Option.bind_some, ← hleft.1]
      exact NetworkTable.splitNames_of_view hcore
    · rw [Survey.moveNews, Outlook.moveNews, hnew, hs.grouping.entryNews_eq, hnews, hsource,
        Option.toList_some, List.flatMap_singleton]
      rfl

theorem LooksAnew.foreseen (m : s.LooksAnew c d t events) (hs : s.Indexed c)
    (hd : s.devices.at? i = some d) :
    t.networks.names = s.networks.names ∧
      t.networks.splitNames = regard s.networks.splitNames (s.outlook c).isSplit
        ((s.outlook c).nameOf d.address) ∧
      events = regardNews s.networks.splitNames (s.outlook c).isSplit
        ((s.outlook c).nameOf d.address) := by
  rw [nameOf_outlook hs hd, map_name_networkOf?]
  cases m with
  | outside hnone =>
    rw [hnone]
    exact ⟨rfl, rfl, rfl⟩
  | @inside h isSplit hnetwork hsplit =>
    have hlive : ∀ k, d.network = some k → ∃ n, s.networks.get? k = some n ∧
        isSplit = (s.outlook c).isSplit n.name := by
      intro k hk
      obtain ⟨n, hn⟩ := hs.exists_network hd hk
      obtain rfl := Option.some.inj (hnetwork.symm.trans hk)
      refine ⟨n, hn, ?_⟩
      rw [← hsplit, splitAmong_outlook hs, members_outlook hs hn, Outlook.isSplit]
    have hregard := hs.grouping.regard_departed hlive
    refine ⟨NetworkTable.names_of_view (Pool.view_modifyAt_of_eq _ _ _ _ fun _ => rfl), ?_, ?_⟩
    · rw [← hregard.1, hnetwork]
      rfl
    · rw [← hregard.2, hnetwork]
      simp

theorem LooksAnew.outlook (m : s.LooksAnew c d t events) :
    t.outlook c =
      { s.outlook c with names := t.networks.names, split := t.networks.splitNames } := by
  have hdossier : t.dossier c = s.dossier c := by
    obtain ⟨-, -, haddresses, -⟩ := m.frame
    funext a
    rw [dossier, haddresses, funext m.dossierAt, dossier]
  cases m with
  | outside => rfl
  | inside =>
    rw [Survey.outlook, hdossier]
    rfl

theorem FollowsChannel.news (m : s.FollowsChannel c f i t c' events) :
    events = ((f.newChannel (s.channels.channelsAt c.heard i)).filter fun channel =>
      !s.channels.numbers.contains channel).toList.map Event.newChannel := by
  cases m with
  | stays hstays =>
    have hnone : f.newChannel (s.channels.channelsAt c.heard i) = none := by
      rw [Frame.newChannel, Option.filter_eq_none_iff]
      exact fun channel hchannel => by simpa using hstays channel hchannel
    rw [hnone]
    rfl
  | @tunes channel _ _ _ _ hchannel hother =>
    rw [Frame.newChannel, hchannel, Option.filter_some, if_pos (by simpa using hother),
      Option.filter_some, ChannelTable.placeNews]
    by_cases hknown : channel ∈ s.channels.numbers <;> simp [hknown]

theorem Settles.foreseen (m : s.Settles c f i d t c' events) (hs : s.Indexed c)
    (hd : s.devices.at? i = some d) (hsource : d.address = f.source) :
    t.networks.names = ((s.outlook c).newName f).elim s.networks.names (insert · s.networks.names) ∧
      t.networks.splitNames =
        regard (regard s.networks.splitNames ((s.outlook c).isSplitWithout f.source)
          ((s.outlook c).oldName f)) (t.outlook c').isSplit ((t.outlook c').nameOf f.source) ∧
      events = (s.outlook c).moveNews f ++
        ((f.newChannel (s.channels.channelsAt c.heard i)).filter fun channel =>
          !s.channels.numbers.contains channel).toList.map Event.newChannel ++
        regardNews (regard s.networks.splitNames ((s.outlook c).isSplitWithout f.source)
          ((s.outlook c).oldName f)) (t.outlook c').isSplit ((t.outlook c').nameOf f.source) := by
  obtain @⟨_, s₂, _, _, _, d₂, _, _, _, hname, hchannel, hd₂, hlook⟩ := m
  have hs₁ := hname.indexed hs
  obtain ⟨d₁, hd₁, hface₁⟩ := hname.touched.exists_at? hd
  have hs₂ := hchannel.indexed hs₁ hd₁
  obtain ⟨e, he, hface₂⟩ := hchannel.touched.exists_at? hd₁
  obtain rfl := Option.some.inj (hd₂.symm.trans he)
  have haddress : d₂.address = f.source :=
    (congrArg (fun y => y.2.1) (hface₂.trans hface₁) :).trans hsource
  have hs₃ : (s₂.aimed i d₂).Indexed c' :=
    hs₂.of_places (Pool.view_modifyAt_of_eq _ _ _ _ fun _ => rfl)
  have hd₃ : (s₂.aimed i d₂).devices.at? i = some { d₂ with accessPoint := s₂.aimOf d₂ } := by
    simp [aimed, Pool.at?_modifyAt, hd₂]
  obtain ⟨hnames₁, hsplit₁, hnews₁⟩ := hname.foreseen hs hd hsource
  obtain ⟨-, -, -, hchannels, -, hheard⟩ := hname.frame
  obtain ⟨-, -, -, hnetworks, -⟩ := hchannel.frame
  have hnews₂ := hchannel.news
  obtain ⟨hnames₃, hsplit₃, hnews₃⟩ := hlook.foreseen hs₃ hd₃
  have hsame : (s₂.aimed i d₂).networks = _ := hnetworks
  have hisSplit : (t.outlook c').isSplit = ((s₂.aimed i d₂).outlook c').isSplit := by
    rw [hlook.outlook]
    rfl
  have hnameOf : (t.outlook c').nameOf = ((s₂.aimed i d₂).outlook c').nameOf := by
    rw [hlook.outlook]
    rfl
  rw [hchannels, hheard] at hnews₂
  rw [hsame, hsplit₁, haddress, ← hisSplit, ← hnameOf] at hsplit₃ hnews₃
  refine ⟨?_, hsplit₃, ?_⟩
  · rw [hnames₃, hsame, hnames₁]
  · rw [hnews₁, hnews₂, hnews₃]

theorem aimAt_eq (s : Survey) (j : Nat) :
    s.aimAt j = ((s.devices.at? j).bind Device.accessPoint).bind fun k =>
      (s.devices.get? k).map Device.address := by
  rw [aimAt, Option.map_bind, Option.bind_assoc]
  refine Option.bind_congr fun d _ => ?_
  exact Option.map_bind

theorem aimAt_of_core {j : Nat}
    (hcore : (t.devices.at? j).map Device.core = (s.devices.at? j).map Device.core) :
    t.aimAt j = ((s.devices.at? j).bind Device.accessPoint).bind fun k =>
      (t.devices.get? k).map Device.address := by
  have haccess := congrArg (Option.bind · Device.accessPoint) hcore
  simp only [Option.bind_map] at haccess
  rw [aimAt_eq, show (t.devices.at? j).bind Device.accessPoint = _ from haccess]
  rfl

theorem address_of_handleOf? (hs : s.Indexed c) (a : MacAddress) :
    ((s.handleOf? a).bind fun k => (s.devices.get? k).map Device.address) =
      if a ∈ s.addressesByAge c then some a else none := by
  simp only [mem_addressesByAge hs, handleOf?]
  cases hfind : s.addresses.find? a with
  | none => rfl
  | some j =>
    obtain ⟨d, hd, hda⟩ := (hs.roster.found a j).1 hfind
    simp [hs.roster.handle j d hd, hs.roster.get?_id hd, hda]

section observed

variable {s₁ : Survey} {c₁ : Chronicle} {e₁ e₂ : List Event}

/-- A frame aims its sender anew and nobody else. -/
theorem aim_of_observed (harrives : s.Arrives c f i d s₁ c₁ e₁)
    (hsettles : s₁.Settles c₁ f i d t c' e₂)
    (hs : s.Sound c) (hs₁ : s₁.Indexed c₁) (ht : t.Indexed c') :
    t.aim = fun a => if a = f.source then (t.outlook c').aimOf f.source else s.aim a := by
  funext a
  rw [aim, hsettles.frame.2.1, harrives.find?]
  by_cases ha : a = f.source
  · obtain ⟨e, he, hface⟩ := hsettles.touched.exists_at? harrives.device
    have haddress : e.address = f.source :=
      (congrArg (fun y => y.2.1) hface :).trans (harrives.address hs.toIndexed)
    have hdossier := dossier_outlook ht he
    rw [haddress, dossierAt, he, Option.map_some] at hdossier
    rw [if_pos ha, if_pos ha, Option.bind_some, aimAt_eq, he, Option.bind_some,
      hsettles.accessPoint he, aimOf, Outlook.aimOf, hdossier, Option.bind_some]
    have hstation : e.isStation = e.profile.isStation f.source := haddress ▸ rfl
    rw [hstation]
    split
    · cases e.profile.bssid with
      | none => rfl
      | some bssid =>
        rw [Option.bind_some, address_of_handleOf? ht, Option.filter_some]
        simp [outlook]
    · rfl
  · rw [if_neg ha, if_neg ha, aim]
    refine Option.bind_congr fun j hfind => ?_
    have hj := harrives.slot_ne hs₁ ha hfind
    rw [aimAt_of_core ((hsettles.touched.kept j hj).trans (harrives.others hj)), aimAt_eq]
    refine Option.bind_congr fun k hk => ?_
    obtain ⟨b, hb, hbk⟩ := Option.bind_eq_some_iff.1 hk
    obtain ⟨p, hp, -⟩ := hs.aimed j b hb k hbk
    obtain ⟨q, hq, hqp⟩ := harrives.kept hp
    obtain ⟨r, hr, hrq⟩ := hsettles.touched.exists_get? hq
    have haddress : r.address = p.address := (congrArg (fun y => y.2.1) hrq :).trans hqp
    rw [hr, hp, Option.map_some, Option.map_some, haddress]

theorem Arrives.tracked (m : s.Arrives c f i d t c' events) (hs : s.Indexed c) :
    t.addressesByAge c' = (if f.source ∈ s.addressesByAge c then s.addressesByAge c
        else f.source :: s.addressesByAge c) ∧
      events = if f.source ∈ s.addressesByAge c then [] else [.newDevice f.source f.signal] := by
  have horder := (m.addressesByAge hs).1
  have hmem := mem_addressesByAge hs (m := f.source)
  cases m with
  | revisits hfind =>
    have htracked := hmem.2 (by rw [hfind]; rfl)
    exact ⟨horder.trans (if_pos htracked).symm, (if_pos htracked).symm⟩
  | admits hfind =>
    have hunknown : f.source ∉ s.addressesByAge c := by simp [hmem, hfind]
    exact ⟨horder.trans (if_neg hunknown).symm, (if_neg hunknown).symm⟩

theorem followed_outlook (harrives : s.Arrives c f i d s₁ c₁ e₁)
    (hsettles : s₁.Settles c₁ f i d t c' e₂) (hs : s.Sound c) (hs₁ : s₁.Indexed c₁) :
    (s.outlook c).followed f =
      { t.outlook c' with
        aim := s.aim
        split := regard s.networks.splitNames ((s.outlook c).isSplitWithout f.source)
          ((s.outlook c).oldName f) } := by
  have hsource := harrives.address hs.toIndexed
  obtain ⟨hsettings, hnetworks, hchannels, -, -⟩ := harrives.frame
  obtain ⟨hname, hknown⟩ := harrives.known hs.toIndexed
  have htracked : t.addressesByAge c' = s₁.addressesByAge c₁ :=
    addressesByAge_of_view (Pool.view_eq_comp hsettles.touched.view fun y => y.2.1)
      hsettles.frame.2.2.2
  have hjoined : t.joinedAddresses c' = if ((s.outlook c).newName f).isSome then
      (s.joinedAddresses c).filter (· != f.source) ++ [f.source] else s.joinedAddresses c := by
    rw [← harrives.joinedAddresses hs.toIndexed, Outlook.newName]
    change (s₁.networkOf? d).map Network.name = (s.outlook c).nameOf f.source at hname
    obtain ⟨hsame, hstays⟩ | ⟨horder, name, hvisible, hother⟩ :=
      hsettles.joinedAddresses hs₁ harrives.device
    · have hnone : (f.visibleName.filter fun name =>
          (s.outlook c).nameOf f.source != some name) = none := by
        rw [Option.filter_eq_none_iff]
        intro name hvisible
        simp [← hname, hstays name hvisible]
      rw [hnone, hsame]
      rfl
    · rw [hname] at hother
      rw [hvisible, Option.filter_some, if_pos (by simpa using hother), horder, hsource]
  simp only [Outlook.followed, outlook, Outlook.mk.injEq, true_and]
  refine ⟨?_, ?_, ?_, hjoined.symm, ?_, ?_, ?_⟩
  · rw [hsettles.frame.1, hsettings]
  · exact (htracked.trans (harrives.tracked hs.toIndexed).1).symm
  · funext a
    rw [dossier_of_observed harrives hsettles hs.toIndexed hs₁]
  · rw [(hsettles.foreseen hs₁ harrives.device hsource).1, harrives.newName hs.toIndexed hs₁,
      hnetworks]
    rfl
  · funext channel
    rw [hsettles.heardAddresses hs₁ harrives.device, harrives.heardAddresses hs.toIndexed, hknown,
      hsource]
    rfl
  · rw [(hsettles.channels hs₁).1, hchannels]

/-- The outlook tells what a frame that is taken in comes to. -/
theorem observed_outlook (harrives : s.Arrives c f i d s₁ c₁ e₁)
    (hsettles : s₁.Settles c₁ f i d t c' e₂) (hs : s.Sound c) (hs₁ : s₁.Indexed c₁)
    (ht : t.Indexed c') :
    (s.outlook c).observed f = t.outlook c' ∧ (s.outlook c).observeNews f = e₁ ++ e₂ := by
  have hsource := harrives.address hs.toIndexed
  obtain ⟨-, hnetworks, hchannels, -, -⟩ := harrives.frame
  have hknown := (harrives.known hs.toIndexed).2
  have hnameOf := harrives.nameOf hs.toIndexed hs₁
  have hwithout := harrives.isSplitWithout hs.toIndexed hs₁
  have hnew := harrives.newName hs.toIndexed hs₁
  have hold : (s₁.outlook c₁).oldName f = (s.outlook c).oldName f := by
    rw [Outlook.oldName, hnew, hnameOf, Outlook.oldName]
  have hnames : (s₁.outlook c₁).names = (s.outlook c).names :=
    congrArg NetworkTable.names hnetworks
  have hsplits : (s₁.outlook c₁).split = (s.outlook c).split :=
    congrArg NetworkTable.splitNames hnetworks
  have hmove : (s₁.outlook c₁).moveNews f = (s.outlook c).moveNews f := by
    rw [Outlook.moveNews, hnew, hnames, hsplits, hwithout, hnameOf, Outlook.moveNews]
  obtain ⟨-, hsplit, hnews⟩ := hsettles.foreseen hs₁ harrives.device hsource
  rw [hwithout, hold, hnetworks] at hsplit hnews
  rw [hmove, hknown, hchannels] at hnews
  rw [Outlook.observed, Outlook.observeNews, followed_outlook harrives hsettles hs hs₁,
    (harrives.tracked hs.toIndexed).2, hnews]
  constructor
  · change { t.outlook c' with
      aim := fun a => if a = f.source then (t.outlook c').aimOf f.source else s.aim a
      split := regard (regard s.networks.splitNames ((s.outlook c).isSplitWithout f.source)
        ((s.outlook c).oldName f)) (t.outlook c').isSplit ((t.outlook c').nameOf f.source) } = _
    rw [← aim_of_observed harrives hsettles hs hs₁ ht, ← hsplit]
    rfl
  · rfl

theorem told_outlook (harrives : s.Arrives c f i d s₁ c₁ e₁)
    (hsettles : s₁.Settles c₁ f i d t c' e₂) (hs : s.Indexed c) (hs₁ : s₁.Indexed c₁)
    (ht : t.Indexed c') (he : t.devices.at? i = some e) :
    (s.outlook c).told f = .device e.address e.profile e.channelCount := by
  obtain ⟨e', he', hface⟩ := hsettles.touched.exists_at? harrives.device
  obtain rfl := Option.some.inj (he.symm.trans he')
  have haddress : e.address = f.source :=
    (congrArg (fun y => y.2.1) hface :).trans (harrives.address hs)
  have hdossier := dossier_of_at? ht he
  rw [haddress, dossier_of_observed harrives hsettles hs hs₁, if_pos rfl, dossierAt, he,
    Option.map_some, Option.some.injEq] at hdossier
  change Tidings.device f.source (Dossier.follow s.settings.weight f (s.dossier c f.source)).profile
    (UInt16.ofNat (Dossier.follow s.settings.weight f (s.dossier c f.source)).channels.length) = _
  rw [hdossier, haddress, channelCount_eq ht he]

end observed

end Survey

end AirSurvey

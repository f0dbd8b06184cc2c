import AirSurvey.Proofs.Survey.Splitting
import AirSurvey.Proofs.Survey.Handles

set_option autoImplicit false

/-!
Bystanders: the devices that a frame did not come from, the networks that its sender is not in, and
the channels that it was not heard on. Taking the frame in rewires links that stand in them, and
leaves all that they show as it was.
-/

namespace AirSurvey

namespace Outlook

open NetworkTable (mem_regard)

variable {x : Outlook} {f : Frame} {name : NetworkName}

theorem filter_tracked_observed (x : Outlook) (f : Frame) :
    (x.observed f).tracked.filter (· != f.source) = x.tracked.filter (· != f.source) := by
  change (if f.source ∈ x.tracked then x.tracked else f.source :: x.tracked).filter _ = _
  split
  · rfl
  · exact List.filter_cons_of_neg (by simp)

theorem channelsOf_observed {m : MacAddress} (hm : m ≠ f.source) :
    (x.observed f).channelsOf m = x.channelsOf m := by
  have hdossier : (x.observed f).dossier m = x.dossier m := if_neg hm
  rw [channelsOf, hdossier, channelsOf]

theorem filter_members_observed (x : Outlook) (f : Frame) (name : NetworkName) :
    ((x.observed f).members name).filter (· != f.source) =
      (x.members name).filter (· != f.source) :=
  filter_members_congr (fun _ ha => if_neg ha) (filter_joined_followed x f) name

theorem members_observed (hbefore : x.nameOf f.source ≠ some name)
    (hafter : (x.observed f).nameOf f.source ≠ some name) :
    (x.observed f).members name = x.members name := by
  rw [← filter_members_of_ne hafter, filter_members_observed, filter_members_of_ne hbefore]

theorem mem_split_observed (hbefore : x.nameOf f.source ≠ some name)
    (hafter : (x.observed f).nameOf f.source ≠ some name) :
    name ∈ (x.observed f).split ↔ name ∈ x.split := by
  have hold : x.oldName f ≠ some name := by
    intro hold
    obtain ⟨-, -, hname⟩ := Option.bind_eq_some_iff.1 hold
    exact hbefore hname
  change name ∈ NetworkTable.regard (NetworkTable.regard x.split (x.isSplitWithout f.source)
    (x.oldName f)) (x.followed f).isSplit ((x.observed f).nameOf f.source) ↔ _
  rw [mem_regard, if_neg hafter, mem_regard, if_neg hold]

theorem filter_heard_observed (x : Outlook) (f : Frame) (channel : UInt8) :
    ((x.observed f).heard channel).filter (· != f.source) =
      (x.heard channel).filter (· != f.source) := by
  change (x.heard channel ++ if f.newChannel (x.channelsOf f.source) = some channel then [f.source]
    else []).filter _ = _
  rw [List.filter_append]
  split <;> simp

theorem heard_observed {channel : UInt8} (hother : f.channel ≠ some channel) :
    (x.observed f).heard channel = x.heard channel := by
  have hnew : f.newChannel (x.channelsOf f.source) ≠ some channel := fun hnew =>
    hother (Option.filter_eq_some_iff.1 hnew).1
  change x.heard channel ++ (if f.newChannel (x.channelsOf f.source) = some channel then [f.source]
    else []) = _
  rw [if_neg hnew, List.append_nil]

end Outlook

/-- The devices in `after` are those in `before`, in the same order and as they were, when the
sender of a frame is left out of both. -/
def Frame.Spares (f : Frame) (before after : List Device) : Prop :=
  (after.filter fun d => d.address != f.source).map Device.core =
    (before.filter fun d => d.address != f.source).map Device.core

namespace Survey

variable {s t : Survey} {c c' : Chronicle} {f : Frame} {i : Nat} {d : Device} {o : Operation}
  {events : List Event} {answer : Except Refusal Reply}

def trait {β : Type} (s : Survey) (g : Device → β) (m : MacAddress) : Option β :=
  ((s.addresses.find? m).bind s.devices.at?).map g

theorem trait_of_at? {β : Type} (hs : s.Indexed c) (hd : s.devices.at? i = some d)
    (g : Device → β) : s.trait g d.address = some (g d) := by
  rw [trait, (hs.roster.found _ i).2 ⟨d, hd, rfl⟩, Option.bind_some, hd, Option.map_some]

theorem Shows.devices {reading : Except Fault (List Device)} {l : List MacAddress}
    (h : s.Shows reading l) :
    ∃ ds, reading = .ok ds ∧ ds.map Device.address = l ∧
      ∀ d ∈ ds, ∃ i, s.devices.at? i = some d := by
  obtain ⟨slots, rfl, rfl⟩ := h
  refine ⟨_, rfl, List.map_filterMap .., fun d hd => ?_⟩
  obtain ⟨i, -, hi⟩ := List.mem_filterMap.1 hd
  exact ⟨i, hi⟩

theorem map_eq_traits {β : Type} (hs : s.Indexed c) (g : Device → β) {ds : List Device}
    (hds : ∀ d ∈ ds, ∃ i, s.devices.at? i = some d) :
    ds.map g = (ds.map Device.address).filterMap (s.trait g) := by
  rw [List.filterMap_map, ← List.filterMap_eq_map]
  refine List.filterMap_congr fun d hd => ?_
  obtain ⟨i, hi⟩ := hds d hd
  exact (trait_of_at? hs hi g).symm

theorem channelsOf_outlook (hs : s.Indexed c) (hd : s.devices.at? i = some d) :
    s.channelsOf d = .ok ((s.outlook c).channelsOf d.address) := by
  rw [channelsOf_eq hs hd, Outlook.channelsOf, dossier_outlook hs hd, dossierAt, hd]
  rfl

theorem observe_run (hs : s.Sound c) (f : Frame) : ∃ o, (observe f).run s = .ok o := by
  obtain ⟨t, c', events, answer, hact, -⟩ := act_run hs (.observe f)
  change (Reply.device <$> observe f).run s = _ at hact
  rw [Action.run_map] at hact
  obtain ⟨o, ho, -⟩ := Action.exists_of_map_eq_ok hact
  exact ⟨o, ho⟩

theorem act_observe (hrun : (observe f).run s = .ok ⟨t, events, .ok d⟩) :
    (Operation.observe f).act.run s = .ok ⟨t, events, .ok (.device d)⟩ := by
  rw [Operation.act, Action.run_map, hrun]
  rfl

theorem Becomes.of_observe (hs : s.Sound c)
    (hrun : (observe f).run s = .ok ⟨t, events, .ok d⟩) :
    ∃ c', s.Becomes c (.observe f) t c' events (.ok (.device d)) ∧ t.Sound c' := by
  obtain ⟨t', c', events', answer, hact, hbecomes, ht⟩ := act_run hs (.observe f)
  rw [act_observe hrun] at hact
  cases hact
  exact ⟨c', hbecomes, ht⟩

theorem Becomes.identity (m : s.Becomes c o t c' events answer) (hs : s.Sound c)
    (ht : t.Indexed c') (hkept : ∀ k, s.forgets k o = false) {a : MacAddress} {x : Handle × MacAddress}
    (hx : s.trait Device.identity a = some x) : t.trait Device.identity a = some x := by
  obtain ⟨d, hd, rfl⟩ := Option.map_eq_some_iff.1 hx
  obtain ⟨i, hfind, hi⟩ := Option.bind_eq_some_iff.1 hd
  obtain ⟨e, he, rfl⟩ := (hs.roster.found a i).1 hfind
  obtain rfl := Option.some.inj (hi.symm.trans he)
  obtain ⟨y, hy, haddress⟩ := (m.sheds_devices hs).kept d.id d (hs.roster.get?_id hi) (hkept _)
  rw [← haddress, trait_of_at? ht (Pool.at?_of_get? hy), Device.identity, ht.roster.id_of_get? hy,
    haddress]
  rfl

/-- The devices that a frame did not come from keep all but their links. -/
theorem Becomes.trait_core (m : s.Becomes c (.observe f) t c' events answer) {a : MacAddress}
    (ha : a ≠ f.source) :
    t.trait Device.core a = s.trait Device.core a := by
  cases m with
  | refuses => rfl
  | sweeps hoperation => simp at hoperation
  | observes _ harrives hindexed hsettles =>
    rw [trait, trait, hsettles.frame.2.1, harrives.find?, if_neg ha, Option.map_bind,
      Option.map_bind]
    refine Option.bind_congr fun j hfind => ?_
    have hj := harrives.slot_ne hindexed ha hfind
    exact (hsettles.touched.kept j hj).trans (harrives.others hj)

theorem Becomes.observed (m : s.Becomes c (.observe f) t c' events (.ok (.device d)))
    (hs : s.Sound c) (ht : t.Indexed c') : (s.outlook c).observed f = t.outlook c' := by
  cases m with
  | observes _ harrives hindexed hsettles =>
    exact (observed_outlook harrives hsettles hs hindexed ht).1

theorem Becomes.find?_source (m : s.Becomes c (.observe f) t c' events (.ok (.device d)))
    (hs : s.Sound c) (ht : t.Indexed c') : t.find? f.source = .ok (some d) := by
  cases m with
  | observes _ harrives hindexed hsettles hd =>
    exact hsettles.find?_source hindexed ht harrives.device (harrives.address hs.toIndexed) hd

/-- A reader that tells the same but for the sender of a frame spares the bystanders. -/
theorem Becomes.spares (m : s.Becomes c (.observe f) t c' events answer) (hs : s.Sound c)
    (ht : t.Indexed c') {before after : Except Fault (List Device)} {l l' : List MacAddress}
    (hbefore : s.Shows before l) (hafter : t.Shows after l')
    (hsame : l'.filter (· != f.source) = l.filter (· != f.source)) :
    ∃ ds es, before = .ok ds ∧ after = .ok es ∧ f.Spares ds es ∧
      (l' = l → es.map Device.identity = ds.map Device.identity) := by
  obtain ⟨ds, rfl, rfl, hds⟩ := hbefore.devices
  obtain ⟨es, rfl, rfl, hes⟩ := hafter.devices
  have haddresses : ∀ l : List Device, (l.filter fun d => d.address != f.source).map Device.address =
      (l.map Device.address).filter (· != f.source) := fun l => by
    rw [List.filter_map]
    rfl
  refine ⟨ds, es, rfl, rfl, ?_, fun hall => ?_⟩
  · rw [Frame.Spares, map_eq_traits ht _ fun e he => hes e (List.mem_filter.1 he).1,
      map_eq_traits hs.toIndexed _ fun d hd => hds d (List.mem_filter.1 hd).1, haddresses,
      haddresses, hsame]
    refine List.filterMap_congr fun a ha => m.trait_core ?_
    simpa using (List.mem_filter.1 ha).2
  · rw [map_eq_traits ht _ hes, map_eq_traits hs.toIndexed _ hds, hall]
    refine List.filterMap_congr fun a ha => ?_
    obtain ⟨d, hd, rfl⟩ := List.mem_map.1 ha
    obtain ⟨i, hi⟩ := hds d hd
    have hidentity := trait_of_at? hs.toIndexed hi Device.identity
    rw [hidentity, m.identity hs ht (fun _ => rfl) hidentity]

theorem membersNamed_eq (hs : s.Indexed c) {k : Handle} {n : Network}
    (hn : s.networks.get? k = some n) : s.membersNamed n.name = s.membersOf k := by
  rw [membersNamed, (hs.grouping.find?_eq_some_iff _ _).2 ⟨n, hn, rfl⟩]

theorem exists_at?_of_find? (hs : s.Indexed c) {a : MacAddress}
    (hfind : s.find? a = .ok (some d)) : ∃ i, s.devices.at? i = some d ∧ d.address = a := by
  rw [find?_eq hs, Except.ok.injEq] at hfind
  obtain ⟨i, hi, hd⟩ := Option.bind_eq_some_iff.1 hfind
  obtain ⟨e, he, haddress⟩ := (hs.roster.found a i).1 hi
  obtain rfl := Option.some.inj (hd.symm.trans he)
  exact ⟨i, hd, haddress⟩

theorem nameOf_ne (hs : s.Indexed c) {k : Handle} {n : Network} (hn : s.networks.get? k = some n)
    {a : MacAddress} (hout : ∀ e, s.find? a = .ok (some e) → e.network ≠ some k) :
    (s.outlook c).nameOf a ≠ some n.name := by
  intro hname
  obtain ⟨x, hx, -⟩ := Option.bind_eq_some_iff.1 hname
  obtain ⟨i, hfind, -⟩ := Option.bind_eq_some_iff.1 hx
  obtain ⟨e, he, rfl⟩ := (hs.roster.found a i).1 hfind
  rw [nameOf_outlook hs he, ← network_eq_some_iff hs e hn] at hname
  refine hout e ?_ hname
  rw [find?_eq hs, hfind, Option.bind_some, he]

theorem Becomes.keeps_bystander (m : s.Becomes c (.observe f) t c' events (.ok (.device d)))
    (hs : s.Sound c) (ht : t.Indexed c') {a : MacAddress} (ha : a ≠ f.source) {e : Device}
    (he : s.find? a = .ok (some e)) :
    ∃ e' channels, t.find? a = .ok (some e') ∧ e'.core = e.core ∧
      s.channelsOf e = .ok channels ∧ t.channelsOf e' = .ok channels := by
  obtain ⟨i, hi, rfl⟩ := exists_at?_of_find? hs.toIndexed he
  have hcore := m.trait_core ha
  rw [trait_of_at? hs.toIndexed hi] at hcore
  obtain ⟨e', he', hsame⟩ := Option.map_eq_some_iff.1 hcore
  have hfind : t.find? e.address = .ok (some e') := by rw [find?_eq ht, he']
  obtain ⟨j, hj, haddress⟩ := exists_at?_of_find? ht hfind
  refine ⟨e', _, hfind, hsame, channelsOf_outlook hs.toIndexed hi, ?_⟩
  rw [channelsOf_outlook ht hj, haddress, ← m.observed hs ht, Outlook.channelsOf_observed ha]

theorem Becomes.keeps_network (m : s.Becomes c (.observe f) t c' events (.ok (.device d)))
    (hs : s.Sound c) (ht : t.Indexed c') {k : Handle} {n n' : Network}
    (hn : s.networks.get? k = some n) (hn' : t.networks.get? k = some n') (hname : n'.name = n.name)
    (hbefore : ∀ e, s.find? f.source = .ok (some e) → e.network ≠ some k)
    (hafter : d.network ≠ some k) :
    n'.isSplit = n.isSplit ∧ ∃ ds es, s.membersOf k = .ok ds ∧ t.membersOf k = .ok es ∧
      es.map Device.core = ds.map Device.core := by
  have hobserved := m.observed hs ht
  have hout := nameOf_ne hs.toIndexed hn hbefore
  have hout' : ((s.outlook c).observed f).nameOf f.source ≠ some n.name := by
    rw [hobserved, ← hname]
    refine nameOf_ne ht hn' fun e he => ?_
    rw [m.find?_source hs ht] at he
    cases he
    exact hafter
  have hmembers := Outlook.members_observed hout hout'
  have hsplit := Outlook.mem_split_observed hout hout'
  rw [hobserved] at hmembers hsplit
  constructor
  · rw [Bool.eq_iff_iff, ← ht.grouping.mem_splitNames_iff hn',
      ← hs.grouping.mem_splitNames_iff hn, hname]
    exact hsplit
  · have hshows := shows_membersNamed hs.toIndexed n.name
    have hshows' := shows_membersNamed ht n'.name
    rw [membersNamed_eq hs.toIndexed hn] at hshows
    rw [membersNamed_eq ht hn', hname, hmembers] at hshows'
    obtain ⟨ds, hds, hl, hdevices⟩ := hshows.devices
    obtain ⟨es, hes, hl', hdevices'⟩ := hshows'.devices
    refine ⟨ds, es, hds, hes, ?_⟩
    rw [map_eq_traits ht _ hdevices', map_eq_traits hs.toIndexed _ hdevices, hl', hl]
    refine List.filterMap_congr fun a ha => m.trait_core ?_
    -- the sender is not among the members
    rintro rfl
    exact hout (by simpa using (List.mem_filter.1 ha).2)

end Survey

/-- A frame that is taken in changes its sender, and the network and the channel that this goes to,
and nothing else. All other devices keep what is known of them, their handles and their channels, and
stay in the order in which they were, among all devices, in every network and on every channel. A
network that the sender neither leaves nor comes to keeps its members and whether it has split, a
channel that the frame was not heard on keeps those that are on it, and no network and no channel
goes. -/
theorem play_spares (settings : Settings) (ops : List Operation) (f : Frame) :
    ∃ h t events answer, play settings ops = .ok h ∧
      (Survey.observe f).run h.survey = .ok ⟨t, events, answer⟩ ∧ ∀ d, answer = .ok d →
      (∀ m e, m ≠ f.source → h.survey.find? m = .ok (some e) →
        ∃ e' channels, t.find? m = .ok (some e') ∧ e'.core = e.core ∧
          h.survey.channelsOf e = .ok channels ∧ t.channelsOf e' = .ok channels) ∧
      (∃ ds es, h.survey.allDevices = .ok ds ∧ t.allDevices = .ok es ∧ f.Spares ds es) ∧
      (∀ name, ∃ ds es, h.survey.membersNamed name = .ok ds ∧ t.membersNamed name = .ok es ∧
        f.Spares ds es) ∧
      (∀ channel, ∃ ds es, h.survey.devicesOn channel = .ok ds ∧ t.devicesOn channel = .ok es ∧
        f.Spares ds es ∧
        (f.channel ≠ some channel → es.map Device.identity = ds.map Device.identity)) ∧
      (∀ k n, h.survey.networks.get? k = some n →
        ∃ n', t.networks.get? k = some n' ∧ n'.name = n.name ∧
          ((∀ e, h.survey.find? f.source = .ok (some e) → e.network ≠ some k) →
            d.network ≠ some k → n'.isSplit = n.isSplit ∧
            ∃ ds es, h.survey.membersOf k = .ok ds ∧ t.membersOf k = .ok es ∧
              es.map Device.core = ds.map Device.core)) ∧
      h.survey.channelEntries.map ChannelEntry.channel <+:
        t.channelEntries.map ChannelEntry.channel := by
  obtain ⟨h, c, hplay, hs, -⟩ := play_accounts settings ops
  obtain ⟨⟨t, events, answer⟩, hrun⟩ := Survey.observe_run hs f
  refine ⟨h, t, events, answer, hplay, hrun, ?_⟩
  rintro d rfl
  obtain ⟨c', hbecomes, ht⟩ := Survey.Becomes.of_observe hs hrun
  have hobserved := hbecomes.observed hs ht.toIndexed
  refine ⟨fun m e hm he => hbecomes.keeps_bystander hs ht.toIndexed hm he, ?_, fun name => ?_,
    fun channel => ?_, fun k n hn => ?_, ?_⟩
  · have hsame := Outlook.filter_tracked_observed (h.survey.outlook c) f
    rw [hobserved] at hsame
    obtain ⟨ds, es, hds, hes, hspares, -⟩ := hbecomes.spares hs ht.toIndexed
      (Survey.shows_allDevices hs.toIndexed) (Survey.shows_allDevices ht.toIndexed) hsame
    exact ⟨ds, es, hds, hes, hspares⟩
  · have hsame := Outlook.filter_members_observed (h.survey.outlook c) f name
    rw [hobserved] at hsame
    obtain ⟨ds, es, hds, hes, hspares, -⟩ := hbecomes.spares hs ht.toIndexed
      (Survey.shows_membersNamed hs.toIndexed name) (Survey.shows_membersNamed ht.toIndexed name)
      hsame
    exact ⟨ds, es, hds, hes, hspares⟩
  · have hsame := Outlook.filter_heard_observed (h.survey.outlook c) f channel
    rw [hobserved] at hsame
    obtain ⟨ds, es, hds, hes, hspares, hall⟩ := hbecomes.spares hs ht.toIndexed
      (Survey.shows_devicesOn hs.toIndexed channel) (Survey.shows_devicesOn ht.toIndexed channel)
      hsame
    refine ⟨ds, es, hds, hes, hspares, fun hne => hall ?_⟩
    rw [← hobserved]
    exact Outlook.heard_observed hne
  · obtain ⟨n', hn', hname⟩ := (hbecomes.sheds_networks hs).kept k n hn rfl
    exact ⟨n', hn', hname, hbecomes.keeps_network hs ht.toIndexed hn hn' hname⟩
  · change (h.survey.outlook c).numbers <+: (t.outlook c').numbers
    rw [← hobserved]
    exact List.prefix_append ..

end AirSurvey

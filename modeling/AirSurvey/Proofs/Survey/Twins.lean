import AirSurvey.Proofs.Survey.Bystanders
import AirSurvey.Proofs.Survey.Plates
import AirSurvey.Proofs.Survey.Portraits

set_option autoImplicit false

/-!
Surveys that show the same devices and networks but keep the devices in other slots. Their readers
tell the same but for the handles of devices, and what is done to both comes to the same.
-/

namespace AirSurvey

def Device.renamed (ρ : Handle → Handle) (d : Device) : Device :=
  { d with
    id := ρ d.id
    accessPoint := d.accessPoint.map ρ
    inAges := .loose
    inNetwork := .loose
    channels := .empty }

namespace Survey

variable {s t s' t' : Survey} {c c' d d' : Chronicle} {o : Operation} {events events' : List Event}
  {answer answer' : Except Refusal Reply}

/-- The handle in `t` of the device that a handle names in `s`. -/
def counterpart (s t : Survey) (k : Handle) : Handle :=
  ((s.device? k).bind fun e => t.handleOf? e.address).getD k

/-- The devices and the networks are the same, and so are the slots of networks. -/
structure Twins (s : Survey) (c : Chronicle) (t : Survey) (c' : Chronicle) : Prop where
  outlook : t.outlook c' = s.outlook c
  plates : t.plates = s.plates

theorem handleOf?_of_at? (hs : s.Indexed c) {i : Nat} {e : Device}
    (he : s.devices.at? i = some e) : s.handleOf? e.address = some e.id := by
  rw [handleOf?, (hs.roster.found e.address i).2 ⟨e, he, rfl⟩, Option.bind_some,
    hs.roster.handle i e he]

theorem counterpart_id (hs : s.Indexed c) (ht : t.Indexed c') {i j : Nat} {e e' : Device}
    (he : s.devices.at? i = some e) (he' : t.devices.at? j = some e')
    (haddress : e'.address = e.address) : s.counterpart t e.id = e'.id := by
  have hdevice : s.device? e.id = some e := hs.roster.get?_id he
  rw [counterpart, hdevice, Option.bind_some, ← haddress, handleOf?_of_at? ht he',
    Option.getD_some]

namespace Twins

theorem name_eq (h : s.Twins c t c') (k : Handle) :
    (t.networks.get? k).map Network.name = (s.networks.get? k).map Network.name := by
  have hplates : t.plates.get? k = s.plates.get? k := by rw [h.plates]
  rwa [Survey.plates, Survey.plates, Pool.get?_view, Pool.get?_view] at hplates

theorem network_eq (h : s.Twins c t c') (hs : s.Indexed c) (ht : t.Indexed c') {i j : Nat}
    {e e' : Device} (he : s.devices.at? i = some e) (he' : t.devices.at? j = some e')
    (haddress : e'.address = e.address) : e'.network = e.network := by
  have hnames : (t.networkOf? e').map Network.name = (s.networkOf? e).map Network.name := by
    rw [← nameOf_outlook hs he, ← nameOf_outlook ht he', h.outlook, haddress]
  refine Option.ext fun k => ?_
  constructor
  · intro hk
    obtain ⟨n', hn'⟩ := ht.exists_network he' hk
    have hname := h.name_eq k
    rw [hn', Option.map_some, eq_comm, Option.map_eq_some_iff] at hname
    obtain ⟨n, hn, hname⟩ := hname
    rw [network_eq_some_iff ht e' hn', hnames, ← hname] at hk
    exact (network_eq_some_iff hs e hn).2 hk
  · intro hk
    obtain ⟨n, hn⟩ := hs.exists_network he hk
    have hname := h.name_eq k
    rw [hn, Option.map_some, Option.map_eq_some_iff] at hname
    obtain ⟨n', hn', hname⟩ := hname
    rw [network_eq_some_iff hs e hn, ← hnames, ← hname] at hk
    exact (network_eq_some_iff ht e' hn').2 hk

theorem accessPoint_eq (h : s.Twins c t c') (hs : s.Sound c) (ht : t.Sound c') {i j : Nat}
    {e e' : Device} (he : s.devices.at? i = some e) (he' : t.devices.at? j = some e')
    (haddress : e'.address = e.address) : e'.accessPoint = e.accessPoint.map (s.counterpart t) := by
  have haims : (t.accessPointOf? e').map Device.address = (s.accessPointOf? e).map Device.address := by
    rw [← aim_outlook hs.toIndexed he, ← aim_outlook ht.toIndexed he', h.outlook, haddress]
  cases hk : e.accessPoint with
  | none =>
    rw [accessPointOf?, accessPointOf?, hk, Option.bind_none, Option.map_none,
      Option.map_eq_none_iff] at haims
    cases hk' : e'.accessPoint with
    | none => rfl
    | some k' =>
      obtain ⟨a', ha', -⟩ := ht.aimed j e' he' k' hk'
      have hdevice' : t.device? k' = some a' := ha'
      rw [hk', Option.bind_some, hdevice'] at haims
      cases haims
  | some k =>
    obtain ⟨a, ha, -⟩ := hs.aimed i e he k hk
    have hdevice : s.device? k = some a := ha
    have hof : s.accessPointOf? e = some a := by rw [accessPointOf?, hk, Option.bind_some, hdevice]
    rw [hof, Option.map_some, Option.map_eq_some_iff] at haims
    obtain ⟨a', haim', hsame⟩ := haims
    obtain ⟨k', hk', hdevice'⟩ := Option.bind_eq_some_iff.1 haim'
    rw [hk', Option.map_some, ← hs.roster.id_of_get? ha, ← ht.roster.id_of_get? hdevice',
      counterpart_id hs.toIndexed ht.toIndexed (Pool.at?_of_get? ha) (Pool.at?_of_get? hdevice')
        hsame]

theorem renamed_eq (h : s.Twins c t c') (hs : s.Sound c) (ht : t.Sound c') {i j : Nat}
    {e e' : Device} (he : s.devices.at? i = some e) (he' : t.devices.at? j = some e')
    (haddress : e'.address = e.address) : e'.renamed id = e.renamed (s.counterpart t) := by
  have hdossier : t.dossierAt c' j = s.dossierAt c i := by
    rw [← dossier_outlook hs.toIndexed he, ← dossier_outlook ht.toIndexed he', h.outlook, haddress]
  rw [dossierAt, dossierAt, he, he', Option.map_some, Option.map_some, Option.some.injEq] at hdossier
  obtain ⟨hprofile, -, hchannels⟩ := Dossier.mk.inj hdossier
  have hid := counterpart_id hs.toIndexed ht.toIndexed he he' haddress
  have hnetwork := h.network_eq hs.toIndexed ht.toIndexed he he' haddress
  have hcount : e'.channelCount = e.channelCount := by
    rw [channelCount_eq hs.toIndexed he, channelCount_eq ht.toIndexed he', hchannels]
  have haim := h.accessPoint_eq hs ht he he' haddress
  rw [Device.renamed, Device.renamed, haddress, hprofile, hid, hnetwork, hcount, haim, Option.map_id]
  rfl

end Twins

/-! ## What the readers tell -/

/-- What two readers answer is the same, but for the handles of devices, and so is all that is told
of these devices otherwise. -/
def Mirrors (s t : Survey) (ρ : Handle → Handle) (x y : Except Fault (List Device)) : Prop :=
  ∃ ds es, x = .ok ds ∧ y = .ok es ∧ es.map (Device.renamed id) = ds.map (Device.renamed ρ) ∧
    Agree (s.sights x) (t.sights y)

structure Matches (s t : Survey) (ρ : Handle → Handle) : Prop where
  devices : s.Mirrors t ρ s.allDevices t.allDevices
  found : ∀ m, s.Mirrors t ρ ((s.find? m).map Option.toList) ((t.find? m).map Option.toList)
  members : ∀ name, s.Mirrors t ρ (s.membersNamed name) (t.membersNamed name)
  heard : ∀ channel, s.Mirrors t ρ (s.devicesOn channel) (t.devicesOn channel)
  networks : (t.networks.pool.entries.map fun e => (e.1, e.2.core)) =
    s.networks.pool.entries.map fun e => (e.1, e.2.core)
  named : ∀ name, t.networks.find? name = s.networks.find? name
  channels : t.channelEntries.map ChannelEntry.channel = s.channelEntries.map ChannelEntry.channel
  snapshot : Agree s.snapshot t.snapshot

theorem networks_find?_eq (s : Survey) (name : String) :
    s.networks.find? name = (s.plates.entries.find? fun e => e.2.text == name).map Prod.fst := by
  rw [plates, Pool.entries_view, List.find?_map, Option.map_map]
  rfl

theorem entries_names (s : Survey) :
    (s.networks.pool.entries.map fun e => e.2.name) = s.plates.entries.map Prod.snd := by
  rw [plates, Pool.entries_view, List.map_map]
  rfl

theorem entries_core (hs : s.Indexed c) :
    (s.networks.pool.entries.map fun e => (e.1, e.2.core)) =
      s.plates.entries.map fun e => (e.1, e.2, decide (e.2 ∈ (s.outlook c).split)) := by
  rw [plates, Pool.entries_view, List.map_map]
  refine List.map_congr_left fun e he => ?_
  have hsplit := hs.grouping.mem_splitNames_iff ((Pool.mem_entries _ _ _).1 he)
  change _ ∈ (s.outlook c).split ↔ _ at hsplit
  simp [Network.core, hsplit]

namespace Twins

theorem mirrors (h : s.Twins c t c') (hs : s.Sound c) (ht : t.Sound c')
    {x y : Except Fault (List Device)} {l l' : List MacAddress} (hx : s.Shows x l)
    (hy : t.Shows y l') (hl : l' = l) : s.Mirrors t (s.counterpart t) x y := by
  subst hl
  have hsights := Agree.of_eq (hx.sights hs.toIndexed) (hy.sights ht.toIndexed) (by rw [h.outlook])
  obtain ⟨ds, rfl, hds, hslots⟩ := hx.devices
  obtain ⟨es, rfl, hes, hslots'⟩ := hy.devices
  refine ⟨ds, es, rfl, rfl, ?_, hsights⟩
  rw [map_eq_traits hs.toIndexed _ hslots, map_eq_traits ht.toIndexed _ hslots', hds, hes]
  refine List.filterMap_congr fun a ha => ?_
  obtain ⟨e, he, rfl⟩ := List.mem_map.1 (hds ▸ ha)
  obtain ⟨e', he', haddress⟩ := List.mem_map.1 (hes ▸ ha)
  obtain ⟨i, hi⟩ := hslots e he
  obtain ⟨j, hj⟩ := hslots' e' he'
  rw [trait_of_at? hs.toIndexed hi, ← haddress, trait_of_at? ht.toIndexed hj,
    h.renamed_eq hs ht hi hj haddress]

theorem readers (h : s.Twins c t c') (hs : s.Sound c) (ht : t.Sound c') :
    s.Matches t (s.counterpart t) where
  devices := h.mirrors hs ht (shows_allDevices hs.toIndexed) (shows_allDevices ht.toIndexed)
    (by rw [h.outlook])
  found m := h.mirrors hs ht (shows_find? hs.toIndexed m) (shows_find? ht.toIndexed m)
    (by rw [h.outlook])
  members name := h.mirrors hs ht (shows_membersNamed hs.toIndexed name)
    (shows_membersNamed ht.toIndexed name) (by rw [h.outlook])
  heard channel := h.mirrors hs ht (shows_devicesOn hs.toIndexed channel)
    (shows_devicesOn ht.toIndexed channel) (by rw [h.outlook])
  networks := by rw [entries_core hs.toIndexed, entries_core ht.toIndexed, h.plates, h.outlook]
  named name := by rw [networks_find?_eq, networks_find?_eq, h.plates]
  channels := congrArg Outlook.numbers h.outlook
  snapshot := .of_eq (snapshot_outlook hs.toIndexed) (snapshot_outlook ht.toIndexed)
    (by rw [h.outlook, entries_names, entries_names, h.plates])

theorem next (h : s.Twins c t c') (hs : s.Sound c) (ht : t.Sound c')
    (m : s.Becomes c o s' d events answer) (m' : t.Becomes c' o t' d' events' answer')
    (hs' : s'.Sound d) (ht' : t'.Sound d') :
    s'.Twins d t' d' ∧ events' = events ∧ answer'.map Reply.tidings = answer.map Reply.tidings := by
  have hnext := m'.outlook ht ht'
  rw [h.outlook, m.outlook hs hs'] at hnext
  obtain ⟨houtlook, hevents, htold⟩ := Outcome.mk.inj hnext
  refine ⟨⟨houtlook.symm, ?_⟩, hevents.symm, htold.symm⟩
  rw [m.plates hs, m'.plates ht, h.plates, h.outlook]

end Twins

end Survey

end AirSurvey

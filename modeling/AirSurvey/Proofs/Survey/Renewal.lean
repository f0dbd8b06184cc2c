import AirSurvey.Proofs.Survey.Dwindling
import AirSurvey.Proofs.Survey.Snapshot

set_option autoImplicit false

/-!
A survey that was cleared is as good as new: nothing that is done to it later and nothing that is
read of it tells it from a new one.
-/

namespace AirSurvey

namespace Survey

variable {s t : Survey} {c c' : Chronicle} {f : Frame} {i : Nat} {d : Device}

/-- The outlook tells what every operation comes to. -/
theorem Becomes.outlook {o : Operation} {events : List Event} {answer : Except Refusal Reply}
    (m : s.Becomes c o t c' events answer) (hs : s.Sound c) (ht : t.Sound c') :
    (s.outlook c).next o = ⟨t.outlook c', events, answer.map Reply.tidings⟩ := by
  cases m with
  | @refuses f r hrefusal =>
    rw [refusalOf_outlook hs.toIndexed] at hrefusal
    rw [Outlook.next, hrefusal]
    rfl
  | @observes f i d e s₁ _ c₁ _ e₁ e₂ hrefusal harrives hindexed hsettles he =>
    rw [refusalOf_outlook hs.toIndexed] at hrefusal
    obtain ⟨hobserved, hnews⟩ :=
      observed_outlook harrives hsettles hs hindexed ht.toIndexed
    have htold := told_outlook harrives hsettles hs.toIndexed hindexed ht.toIndexed he
    rw [Outlook.next, hrefusal]
    dsimp only
    rw [hobserved, hnews, htold]
    rfl
  | sweeps hoperation hsweeps hindexed =>
    obtain rfl | ⟨rfl, rfl⟩ := hoperation
    · exact hsweeps.swept_outlook hs hindexed
    · exact hsweeps.swept_outlook hs hindexed
  | purges =>
    obtain ⟨hpurged, hcount⟩ := purge_outlook hs.toIndexed
    rw [Outlook.next, hpurged, hcount]
    rfl
  | clears =>
    rw [Outlook.next, clear_outlook]
    rfl

/-! ## What the readers tell -/

end Survey

structure Sight where
  address : MacAddress
  profile : Profile
  network : Option NetworkName
  channels : List UInt8
  channelCount : UInt16
  accessPoint : Option MacAddress

def Sight.report (x : Sight) : Report := .device {
  address := x.address
  network := x.network.map NetworkName.text
  bssid := x.profile.bssid
  mode := x.profile.mode
  channel := x.profile.channel
  channels := x.channels.take Report.maxChannels
  strongest := x.profile.signal.max
  average := Signal.wholeDbm x.profile.signal.average
  frames := x.profile.frameCount
  kinds := x.profile.kinds
  encryption := x.profile.encryption
  accessPoint := x.accessPoint
  lastSeen := x.profile.lastSeen }

def Outlook.sight (x : Outlook) (m : MacAddress) : Option Sight :=
  (x.dossier m).map fun k =>
    ⟨m, k.profile, k.name, k.channels, UInt16.ofNat k.channels.length, x.aim m⟩

def Outlook.sights (x : Outlook) : List Sight := x.tracked.filterMap x.sight

def Outlook.networkReport (x : Outlook) (name : NetworkName) : Report :=
  .network name.text (x.members name).length (name ∈ x.split)

def Outlook.status (x : Outlook) : Report :=
  .status x.tracked.length x.names.card x.numbers.length

namespace Survey

variable {s : Survey} {c : Chronicle} {i : Nat} {d : Device}

def sight (s : Survey) (d : Device) : Except Fault Sight := do
  let channels ← s.channelsOf d
  return ⟨d.address, d.profile, (s.networkOf? d).map Network.name, channels, d.channelCount,
    (s.accessPointOf? d).map Device.address⟩

def sights (s : Survey) (ds : Except Fault (List Device)) : Except Fault (List Sight) := do
  (← ds).mapM s.sight

/-- The device with an address, looked up again by its own handle. -/
def heldDevice? (s : Survey) (m : MacAddress) : Except Fault (Option Device) :=
  (s.find? m).map fun o => o.bind fun d => s.device? d.id

/-- The members of the network of a name; none if there is none. -/
def membersNamed (s : Survey) (name : NetworkName) : Except Fault (List Device) :=
  match s.networks.find? name.text with
  | some h => s.membersOf h
  | none => .ok []

def splitFlag (s : Survey) (name : NetworkName) : Option Bool :=
  ((s.networks.find? name.text).bind s.networks.get?).map Network.isSplit

theorem aim_outlook (hs : s.Indexed c) (hd : s.devices.at? i = some d) :
    (s.outlook c).aim d.address = (s.accessPointOf? d).map Device.address := by
  change (s.addresses.find? d.address).bind s.aimAt = _
  rw [(hs.roster.found _ i).2 ⟨d, hd, rfl⟩, Option.bind_some, aimAt, hd, Option.bind_some]

theorem sight_eq (hs : s.Indexed c) (hd : s.devices.at? i = some d) :
    ∃ x, s.sight d = .ok x ∧ (s.outlook c).sight d.address = some x := by
  refine ⟨_, by rw [sight, channelsOf_eq hs hd]; rfl, ?_⟩
  rw [Outlook.sight, dossier_outlook hs hd, dossierAt, hd, aim_outlook hs hd, channelCount_eq hs hd]
  rfl

/-- What a reader answers are the devices with some addresses, in this order. -/
def Shows (s : Survey) (answer : Except Fault (List Device)) (l : List MacAddress) : Prop :=
  ∃ slots : List Nat, answer = .ok (slots.filterMap s.devices.at?) ∧
    slots.filterMap (addressIn s.devices) = l

theorem Shows.mapM {β : Type} {g : Device → Except Fault β} {k : MacAddress → Option β}
    {answer : Except Fault (List Device)} {l : List MacAddress} (h : s.Shows answer l)
    (hg : ∀ i d, s.devices.at? i = some d → ∃ y, g d = .ok y ∧ k d.address = some y) :
    (do (← answer).mapM g) = .ok (l.filterMap k) := by
  obtain ⟨slots, rfl, rfl⟩ := h
  change (slots.filterMap s.devices.at?).mapM g = _
  rw [mapM_eq_filterMap (k := fun d => k d.address) fun d hd => ?_]
  · rw [List.filterMap_filterMap, List.filterMap_filterMap]
    simp only [addressIn, Option.bind_map]
    rfl
  · obtain ⟨i, -, hi⟩ := List.mem_filterMap.1 hd
    obtain ⟨y, hy, hk⟩ := hg i d hi
    exact ⟨y, hk, hy⟩

theorem Shows.sights {answer : Except Fault (List Device)} {l : List MacAddress}
    (h : s.Shows answer l) (hs : s.Indexed c) :
    s.sights answer = .ok (l.filterMap (s.outlook c).sight) :=
  h.mapM fun _ _ hd => sight_eq hs hd

theorem shows_allDevices (hs : s.Indexed c) : s.Shows s.allDevices (s.outlook c).tracked :=
  ⟨c.ages, allDevices_eq hs, rfl⟩

theorem shows_find? (hs : s.Indexed c) (m : MacAddress) :
    s.Shows ((s.find? m).map Option.toList) (if m ∈ (s.outlook c).tracked then [m] else []) := by
  have htracked : m ∈ (s.outlook c).tracked ↔ (s.addresses.find? m).isSome :=
    mem_addressesByAge hs
  rw [find?_eq hs, Action.map_ok]
  cases hfind : s.addresses.find? m with
  | none => exact ⟨[], rfl, (if_neg (by simp [htracked, hfind])).symm⟩
  | some i =>
    obtain ⟨d, hd, rfl⟩ := (hs.roster.found m i).1 hfind
    refine ⟨[i], ?_, ?_⟩
    · rw [Option.bind_some, List.filterMap_cons_some hd, hd]
      rfl
    · rw [if_pos (htracked.2 (by rw [hfind]; rfl)), List.filterMap_cons_some (addressIn_of_at? hd)]
      rfl

theorem shows_devicesOn (hs : s.Indexed c) (channel : UInt8) :
    s.Shows (s.devicesOn channel) ((s.outlook c).heard channel) := ⟨_, devicesOn_eq hs channel, rfl⟩

theorem mem_names_of_member (hs : s.Indexed c) {name : NetworkName} {m : MacAddress}
    (hm : m ∈ (s.outlook c).members name) : name ∈ (s.outlook c).names := by
  obtain ⟨hjoined, hname⟩ := List.mem_filter.1 hm
  obtain ⟨j, -, hj⟩ := List.mem_filterMap.1 hjoined
  obtain ⟨d, hd, rfl⟩ := Option.map_eq_some_iff.1 hj
  rw [beq_iff_eq, nameOf_outlook hs hd, Option.map_eq_some_iff] at hname
  obtain ⟨n, hn, rfl⟩ := hname
  obtain ⟨h, -, hget⟩ := Option.bind_eq_some_iff.1 hn
  exact NetworkTable.mem_names.2 ⟨h, by rw [hget, Option.map_some]⟩

theorem shows_membersNamed (hs : s.Indexed c) (name : NetworkName) :
    s.Shows (s.membersNamed name) ((s.outlook c).members name) := by
  have hknown := hs.grouping.find?_isSome_iff name
  change _ ↔ name ∈ (s.outlook c).names at hknown
  rw [membersNamed]
  cases hfind : s.networks.find? name.text with
  | none =>
    have hnone : (s.outlook c).members name = [] := by
      refine List.eq_nil_iff_forall_not_mem.2 fun m hm => ?_
      have hsome := hknown.2 (mem_names_of_member hs hm)
      rw [hfind] at hsome
      cases hsome
    exact ⟨[], rfl, hnone.symm⟩
  | some h =>
    obtain ⟨n, hn, htext⟩ := (hs.grouping.find?_eq_some_iff _ _).1 hfind
    obtain rfl := NetworkName.eq_of_text htext
    refine ⟨picked (networkSlot s.devices) c.joined h.index, ?_, members_outlook hs hn⟩
    dsimp only
    rw [membersOf_eq hs, hn, if_pos (Option.isSome_some)]

theorem reportOf_eq (s : Survey) (d : Device) :
    s.reportOf d = (s.sight d).map Sight.report := by
  rw [reportOf, sight]
  cases s.channelsOf d with
  | error e => rfl
  | ok channels =>
    change Except.ok _ = Except.ok _
    simp only [Sight.report, Option.map_map]
    rfl

theorem heldDevice?_eq (hs : s.Indexed c) (m : MacAddress) : s.heldDevice? m = s.find? m := by
  rw [heldDevice?, find?_eq hs, Action.map_ok]
  cases hd : (s.addresses.find? m).bind s.devices.at? with
  | none => rfl
  | some d =>
    obtain ⟨i, -, hi⟩ := Option.bind_eq_some_iff.1 hd
    rw [Option.bind_some, device?, hs.roster.get?_id hi]

theorem splitFlag_outlook (hs : s.Indexed c) (name : NetworkName) :
    s.splitFlag name = if name ∈ (s.outlook c).names then
      some (decide (name ∈ (s.outlook c).split)) else none := by
  have hknown := hs.grouping.find?_isSome_iff name
  change _ ↔ name ∈ (s.outlook c).names at hknown
  rw [splitFlag]
  cases hfind : s.networks.find? name.text with
  | none =>
    have hunknown : name ∉ (s.outlook c).names := fun hmem => by
      have hsome := hknown.2 hmem
      simp [hfind] at hsome
    rw [if_neg hunknown]
    rfl
  | some h =>
    obtain ⟨n, hn, htext⟩ := (hs.grouping.find?_eq_some_iff _ _).1 hfind
    obtain rfl := NetworkName.eq_of_text htext
    have hsplit := hs.grouping.mem_splitNames_iff hn
    change _ ∈ (s.outlook c).split ↔ _ at hsplit
    rw [if_pos (hknown.1 (by rw [hfind]; rfl)), Option.bind_some, hn, Option.map_some]
    simp [hsplit]

theorem mapM_reportOf (s : Survey) (ds : List Device) :
    ds.mapM s.reportOf = (s.sights (.ok ds)).map (List.map Sight.report) := by
  change _ = (ds.mapM s.sight).map _
  induction ds with
  | nil => rfl
  | cons d ds ih =>
    rw [List.mapM_cons, List.mapM_cons, ih, reportOf_eq]
    cases s.sight d with
    | error e => rfl
    | ok x => cases ds.mapM s.sight <;> rfl

theorem status_outlook (hs : s.Indexed c) : s.status = (s.outlook c).status := by
  have hdevices : s.size = (s.outlook c).tracked.length := (length_addressesByAge hs).symm
  have hnetworks : s.networks.pool.size = (s.outlook c).names.card := hs.grouping.size_eq_card
  have hchannels : s.channelEntries.length = (s.outlook c).numbers.length :=
    s.channels.length_numbers.symm
  rw [status, Outlook.status, hdevices, hnetworks, hchannels]

theorem reportOfNetwork_outlook (hs : s.Indexed c) {h : Handle} {n : Network}
    (hn : s.networks.get? h = some n) :
    reportOfNetwork n = (s.outlook c).networkReport n.name := by
  have hmembers : n.members.length = ((s.outlook c).members n.name).length := by
    rw [(hs.grouping.spells hn).length, ← members_outlook hs hn]
    refine (List.filterMap_length_eq_length.2 fun i hi => ?_).symm
    obtain ⟨d, hd, -⟩ := Option.bind_eq_some_iff.1 (mem_picked.1 hi).2
    simp [addressIn_of_at? hd]
  have hsplit := hs.grouping.mem_splitNames_iff hn
  change _ ∈ (s.outlook c).split ↔ _ at hsplit
  rw [reportOfNetwork, Outlook.networkReport, hmembers]
  simp [hsplit]

/-- A snapshot, told from the outlook and the order in which the networks stand in their slots. -/
theorem snapshot_outlook (hs : s.Indexed c) :
    s.snapshot = .ok {
      lines := (s.outlook c).status.line ::
        ((s.networks.pool.entries.map fun e => e.2.name).map fun name =>
          ((s.outlook c).networkReport name).line) ++
          (Snapshot.ofReports ((s.outlook c).sights.map Sight.report)).lines
      events := (Snapshot.ofReports ((s.outlook c).sights.map Sight.report)).events } := by
  have hdevices := allDevices_eq hs
  have hreports := mapM_reportOf s (c.ages.filterMap s.devices.at?)
  rw [← hdevices, (shows_allDevices hs).sights hs, Action.map_ok] at hreports
  have hnetworks : (s.networks.pool.entries.map fun e => reportOfNetwork e.2) =
      s.networks.pool.entries.map fun e => (s.outlook c).networkReport e.2.name :=
    List.map_congr_left fun e he => reportOfNetwork_outlook hs ((Pool.mem_entries _ _ _).1 he)
  rw [snapshot_eq hdevices hreports, Snapshot.ofReports_append,
    Snapshot.ofReports_of_fits (overview_fits hs), overview, hnetworks, status_outlook hs]
  simp only [List.map_cons, List.map_map, List.nil_append]
  rfl

end Survey

/-- Both answers are the same, and neither is a fault. -/
def Agree {α : Type} (x y : Except Fault α) : Prop := ∃ a, x = .ok a ∧ y = .ok a

theorem Agree.of_eq {α : Type} {x y : Except Fault α} {a b : α} (hx : x = .ok a) (hy : y = .ok b)
    (hab : a = b) : Agree x y := ⟨a, hx, by rw [hy, hab]⟩

namespace Survey

/-- The readers of both surveys tell the same, except for handles and for the order in which the
networks stand in their slots. -/
structure Alike (s t : Survey) : Prop where
  devices : Agree (s.sights s.allDevices) (t.sights t.allDevices)
  found : ∀ m, Agree (s.sights ((s.find? m).map Option.toList))
    (t.sights ((t.find? m).map Option.toList))
  held : ∀ m, Agree (s.sights ((s.heldDevice? m).map Option.toList))
    (t.sights ((t.heldDevice? m).map Option.toList))
  members : ∀ name, Agree (s.sights (s.membersNamed name)) (t.sights (t.membersNamed name))
  split : ∀ name, s.splitFlag name = t.splitFlag name
  channels : s.channelEntries.map ChannelEntry.channel = t.channelEntries.map ChannelEntry.channel
  heard : ∀ channel, Agree (s.sights (s.devicesOn channel)) (t.sights (t.devicesOn channel))
  snapshot : ∃ first networks networks' rest events,
    s.snapshot = .ok ⟨first :: networks ++ rest, events⟩ ∧
      t.snapshot = .ok ⟨first :: networks' ++ rest, events⟩ ∧ networks.Perm networks'

variable {s t : Survey} {c c' : Chronicle}

theorem alike_of_outlook (hs : s.Indexed c) (ht : t.Indexed c')
    (h : s.outlook c = t.outlook c') : s.Alike t where
  devices := .of_eq ((shows_allDevices hs).sights hs) ((shows_allDevices ht).sights ht) (by rw [h])
  found m := .of_eq ((shows_find? hs m).sights hs) ((shows_find? ht m).sights ht) (by rw [h])
  held m := by
    rw [heldDevice?_eq hs, heldDevice?_eq ht]
    exact .of_eq ((shows_find? hs m).sights hs) ((shows_find? ht m).sights ht) (by rw [h])
  members name :=
    .of_eq ((shows_membersNamed hs name).sights hs) ((shows_membersNamed ht name).sights ht)
      (by rw [h])
  split name := by rw [splitFlag_outlook hs, splitFlag_outlook ht, h]
  channels := congrArg Outlook.numbers h
  heard channel :=
    .of_eq ((shows_devicesOn hs channel).sights hs) ((shows_devicesOn ht channel).sights ht)
      (by rw [h])
  snapshot := by
    have hsnapshot := snapshot_outlook hs
    have hnames : s.networks.names = t.networks.names := congrArg Outlook.names h
    have hperm := List.perm_of_nodup_nodup_toFinset_eq hs.grouping.names_nodup
      ht.grouping.names_nodup hnames
    rw [h] at hsnapshot
    exact ⟨_, _, _, _, _, hsnapshot, snapshot_outlook ht, hperm.map _⟩

end Survey

/-! ## Runs -/

/-- What a step tells, without handles. -/
def Step.tidings (x : Step) : Operation × List Event × Except Refusal Tidings :=
  (x.operation, x.events, x.answer.map Reply.tidings)

def Outlook.play (x : Outlook) :
    List Operation → Outlook × List (Operation × List Event × Except Refusal Tidings)
  | [] => (x, [])
  | o :: ops =>
    let first := x.next o
    let rest := first.state.play ops
    (rest.1, rest.2 ++ [(o, first.events, first.answer)])

theorem Outlook.length_play (x : Outlook) (ops : List Operation) :
    (x.play ops).2.length = ops.length := by
  induction ops generalizing x with
  | nil => rfl
  | cons o ops ih => simp [play, ih]

theorem foldlM_outlook {h : History} {c : Chronicle} (hs : h.survey.Sound c)
    (ops : List Operation) :
    ∃ t c' later, ops.foldlM History.next h = .ok ⟨t, later ++ h.steps⟩ ∧ t.Sound c' ∧
      (h.survey.outlook c).play ops = (t.outlook c', later.map Step.tidings) := by
  induction ops generalizing h c with
  | nil => exact ⟨h.survey, c, [], rfl, hs, rfl⟩
  | cons o ops ih =>
    obtain ⟨t, c', events, answer, hrun, hbecomes, ht⟩ := Survey.act_run hs o
    obtain ⟨u, c'', later, hrest, hu, hplay⟩ := ih (h := ⟨t, ⟨o, events, answer⟩ :: h.steps⟩) ht
    refine ⟨u, c'', later ++ [⟨o, events, answer⟩], ?_, hu, ?_⟩
    · rw [List.foldlM_cons, History.next_of_run hrun, List.append_assoc]
      exact hrest
    · rw [Outlook.play, hbecomes.outlook hs ht]
      dsimp only at hplay ⊢
      rw [hplay, List.map_append]
      rfl

/-- Surveys with the same outlook cannot be told apart by anything that is done to both. -/
theorem foldlM_alike {h k : History} {c c' : Chronicle} (hs : h.survey.Sound c)
    (hk : k.survey.Sound c') (hsame : h.survey.outlook c = k.survey.outlook c')
    (ops : List Operation) :
    ∃ t t' later later', ops.foldlM History.next h = .ok ⟨t, later ++ h.steps⟩ ∧
      ops.foldlM History.next k = .ok ⟨t', later' ++ k.steps⟩ ∧ later.length = ops.length ∧
      later.map Step.tidings = later'.map Step.tidings ∧ t.Alike t' := by
  obtain ⟨t, d, later, hrun, ht, hplay⟩ := foldlM_outlook hs ops
  obtain ⟨t', d', later', hrun', ht', hplay'⟩ := foldlM_outlook hk ops
  have hlength := Outlook.length_play (h.survey.outlook c) ops
  rw [hplay, List.length_map] at hlength
  rw [hsame, hplay', Prod.mk.injEq] at hplay
  obtain ⟨houtlook, htold⟩ := hplay
  exact ⟨t, t', later, later', hrun, hrun', hlength, htold.symm,
    Survey.alike_of_outlook ht.toIndexed ht'.toIndexed houtlook.symm⟩

/-- Whatever was done to a survey before it was cleared, all that is done to it later comes to what
it would come to on a new survey, and the readers tell the same afterwards. Handles and the order in
which the networks stand in their slots are all that may differ. -/
theorem play_renewed (settings : Settings) (before later : List Operation) :
    ∃ h h', play settings (before ++ .clear :: later) = .ok h ∧ play settings later = .ok h' ∧
      (h.steps.take later.length).map Step.tidings = h'.steps.map Step.tidings ∧
      h.survey.Alike h'.survey := by
  obtain ⟨k, c, hbefore, hk, hsettings⟩ :=
    play_run (P := fun h _ => h.survey.settings = settings) settings rfl
      (fun _ _ _ _ _ _ _ hs hkept hbecomes _ => (hbecomes.settings hs).trans hkept) before
  have hblank :
      k.survey.clear.outlook ⟨[], [], []⟩ = (Survey.new settings).outlook ⟨[], [], []⟩ := by
    rw [Survey.clear_outlook, Survey.new_outlook, hsettings]
  obtain ⟨t, t', recent, whole, hrun, hrun', hlength, htold, halike⟩ := foldlM_alike
    (h := ⟨k.survey.clear, ⟨.clear, [], .ok .done⟩ :: k.steps⟩) (k := .new settings)
    (Survey.clear_sound hk) (Survey.new_sound settings) hblank later
  have hplay : play settings (before ++ .clear :: later) =
      .ok ⟨t, recent ++ ⟨.clear, [], .ok .done⟩ :: k.steps⟩ := by
    rw [play, List.foldlM_append]
    change (play settings before >>= _) = _
    rw [hbefore]
    exact hrun
  have hplay' : play settings later = .ok ⟨t', whole⟩ := by
    rw [play, hrun']
    change Except.ok (History.mk t' (whole ++ [])) = _
    rw [List.append_nil]
  exact ⟨_, _, hplay, hplay', by rw [← hlength, List.take_left, htold], halike⟩

end AirSurvey

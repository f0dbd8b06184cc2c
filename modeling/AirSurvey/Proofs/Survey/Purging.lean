import AirSurvey.Proofs.Survey.Portraits
import AirSurvey.Proofs.Survey.Splitting
import Mathlib.Data.List.ReduceOption

set_option autoImplicit false

/-!
Purges do not show. A survey that was purged on the way has fewer networks than it would have, but
the ones that are missing have no members; so frames and sweeps come to what they would come to, and
no reader tells the difference, except that names without members may be unknown.
-/

namespace AirSurvey

namespace Outlook

variable {x y : Outlook} {names : Finset NetworkName} {f : Frame}

abbrev withNames (x : Outlook) (names : Finset NetworkName) : Outlook := { x with names := names }

/-- `y` is `x` with fewer names. -/
def Trimmed (x y : Outlook) : Prop := ∃ names ⊆ x.names, y = x.withNames names

theorem Trimmed.refl (x : Outlook) : x.Trimmed x := ⟨x.names, Finset.Subset.refl _, rfl⟩

theorem verdict_withNames (hnames : names ⊆ x.names) (hbound : x.names.card ≤ Capacity.networks)
    (hroom : x.verdict f ≠ some (.full .networks)) :
    (x.withNames names).verdict f = x.verdict f := by
  have hlack : (f.visibleName.any fun name => name ∉ names) ∧ names.card = Capacity.networks →
      (f.visibleName.any fun name => name ∉ x.names) ∧ x.names.card = Capacity.networks := by
    -- fewer names fill the table only if they are all of them
    rintro ⟨hnew, hfull⟩
    obtain rfl := Finset.eq_of_subset_of_card_le hnames (by omega)
    exact ⟨hnew, hfull⟩
  unfold verdict at hroom ⊢
  refine ite_congr rfl (fun _ => rfl) fun hzero => ?_
  refine ite_congr rfl (fun _ => rfl) fun hgroup => ?_
  refine ite_congr rfl (fun _ => rfl) fun hchannel => ?_
  refine ite_congr rfl (fun _ => rfl) fun hdevices => ?_
  rw [if_neg hzero, if_neg hgroup, if_neg hchannel, if_neg hdevices] at hroom
  have hroomy : ¬((f.visibleName.any fun name => name ∉ x.names) ∧
      x.names.card = Capacity.networks) := fun hfull => hroom (if_pos hfull)
  rw [if_neg hroomy, if_neg (mt hlack hroomy)]
  rfl

theorem Trimmed.verdict (h : x.Trimmed y) (hbound : x.names.card ≤ Capacity.networks) (f : Frame)
    (hroom : (x.next (.observe f)).answer ≠ .error (.full .networks)) :
    y.verdict f = x.verdict f := by
  obtain ⟨names, hnames, rfl⟩ := h
  refine verdict_withNames hnames hbound fun hfull => hroom ?_
  rw [Outlook.next, hfull]

theorem sweepFrom_withNames (x : Outlook) (names : Finset NetworkName) (now : Timestamp)
    (timeout : UInt32) (l : List MacAddress) :
    (sweepFrom now timeout l x).1.names = x.names ∧
      sweepFrom now timeout l (x.withNames names) =
        ((sweepFrom now timeout l x).1.withNames names, (sweepFrom now timeout l x).2) := by
  induction l generalizing x with
  | nil => exact ⟨rfl, rfl⟩
  | cons m l ih =>
    have hstale : (x.withNames names).isStale now timeout m = x.isStale now timeout m := rfl
    have hevicted : (x.withNames names).evicted m = (x.evicted m).withNames names := rfl
    rw [sweepFrom, sweepFrom, hstale, hevicted]
    split
    · obtain ⟨hkept, hswept⟩ := ih (x.evicted m)
      rw [hswept]
      exact ⟨hkept, rfl⟩
    · exact ih x

theorem swept_withNames (now : Timestamp) (timeout : UInt32) (hnames : names ⊆ x.names) :
    (x.swept now timeout).state.Trimmed ((x.withNames names).swept now timeout).state ∧
      ((x.withNames names).swept now timeout).answer = (x.swept now timeout).answer := by
  obtain ⟨hkept, hswept⟩ := sweepFrom_withNames x names now timeout x.tracked
  refine ⟨⟨names, ?_, ?_⟩, rfl⟩
  · exact hnames.trans hkept.symm.subset
  · rw [swept]
    exact congrArg Prod.fst hswept

theorem observed_withNames (hnames : names ⊆ x.names) (f : Frame) :
    (x.observed f).Trimmed ((x.withNames names).observed f) := by
  refine ⟨(x.newName f).elim names fun name => insert name names, ?_, rfl⟩
  change _ ⊆ (x.newName f).elim x.names fun name => insert name x.names
  cases x.newName f with
  | none => exact hnames
  | some name => exact Finset.insert_subset_insert name hnames

/-- An operation that is not refused for want of room comes to the same with fewer names. -/
theorem Trimmed.next (h : x.Trimmed y) (hbound : x.names.card ≤ Capacity.networks) {o : Operation}
    (hroom : (x.next o).answer ≠ .error (.full .networks)) :
    (x.next o).state.Trimmed (y.next o).state ∧
      (o ≠ .purge → (y.next o).answer = (x.next o).answer) := by
  have hverdict := h.verdict hbound
  obtain ⟨names, hnames, rfl⟩ := h
  cases o with
  | observe f =>
    rw [Outlook.next, Outlook.next, hverdict f hroom]
    cases x.verdict f with
    | some r => exact ⟨⟨names, hnames, rfl⟩, fun _ => rfl⟩
    | none => exact ⟨observed_withNames hnames f, fun _ => rfl⟩
  | sweep now timeout =>
    obtain ⟨hswept, hanswer⟩ := swept_withNames now timeout hnames
    exact ⟨hswept, fun _ => hanswer⟩
  | expire now =>
    obtain ⟨hswept, hanswer⟩ := swept_withNames now x.settings.timeout hnames
    exact ⟨hswept, fun _ => hanswer⟩
  | purge =>
    have hpurged :=
      Finset.filter_subset_filter (fun name => (x.members name).isEmpty = false) hnames
    exact ⟨⟨_, hpurged, rfl⟩, fun hne => absurd rfl hne⟩
  | clear => exact ⟨.refl _, fun _ => rfl⟩

theorem Trimmed.purged (h : x.Trimmed y) (hy : y.Honest) : x.Trimmed y.purged := by
  have hsubset : y.purged.names ⊆ y.names := Finset.filter_subset _ _
  have hpurged : y.purged = { y with names := y.purged.names, split := y.purged.split } := rfl
  rw [hy.purged] at hpurged
  obtain ⟨names, hnames, rfl⟩ := h
  exact ⟨_, hsubset.trans hnames, hpurged⟩

end Outlook

theorem Berths.next_trimmed {x y : Outlook} (h : x.Trimmed y)
    (hbound : x.names.card ≤ Capacity.networks) {o : Operation}
    (hroom : (x.next o).answer ≠ .error (.full .networks)) (b : Berths) :
    b.next y o = b.next x o := by
  have hverdict := h.verdict hbound
  obtain ⟨names, hnames, rfl⟩ := h
  cases o with
  | observe f =>
    rw [Berths.next, hverdict f hroom]
    rfl
  | _ => rfl

namespace Survey

variable {s t s' t' : Survey} {c c' d d' : Chronicle} {o : Operation} {events events' : List Event}
  {answer answer' : Except Refusal Reply}

/-! ## What the readers tell -/

/-- Both surveys show the same devices, in the same order, on the same channels and in the same
networks, as far as these have members. Only handles of networks may differ. -/
structure Resembles (s t : Survey) : Prop where
  devices : Agree (s.portraits s.allDevices) (t.portraits t.allDevices)
  found : ∀ m, Agree (s.portraits ((s.find? m).map Option.toList))
    (t.portraits ((t.find? m).map Option.toList))
  held : ∀ k, Agree (s.portraits (.ok (s.device? k).toList))
    (t.portraits (.ok (t.device? k).toList))
  members : ∀ name, Agree (s.portraits (s.membersNamed name)) (t.portraits (t.membersNamed name))
  split : ∀ name, s.membersNamed name ≠ .ok [] →
    ∃ isSplit, s.splitFlag name = some isSplit ∧ t.splitFlag name = some isSplit
  channels : s.channelEntries.map ChannelEntry.channel = t.channelEntries.map ChannelEntry.channel
  heard : ∀ channel, Agree (s.portraits (s.devicesOn channel)) (t.portraits (t.devicesOn channel))

theorem resembles_of_trimmed (hs : s.Sound c) (ht : t.Sound c')
    (htrimmed : (s.outlook c).Trimmed (t.outlook c')) (hberths : t.berths = s.berths) :
    s.Resembles t := by
  obtain ⟨names, -, houtlook⟩ := htrimmed
  have hagree : ∀ {l l' : List MacAddress} {x y}, s.Shows x l → t.Shows y l' → l' = l →
      Agree (s.portraits x) (t.portraits y) := by
    rintro l _ x y hx hy rfl
    refine .of_eq (hx.portraits hs) (hy.portraits ht) ?_
    rw [houtlook, hberths]
    rfl
  have hmembers : ∀ name, (t.outlook c').members name = (s.outlook c).members name := by
    intro name
    rw [houtlook]
    rfl
  refine {
    devices := hagree (shows_allDevices hs.toIndexed) (shows_allDevices ht.toIndexed)
      (by rw [houtlook])
    found := fun m => hagree (shows_find? hs.toIndexed m) (shows_find? ht.toIndexed m)
      (by rw [houtlook])
    held := fun k => hagree (s.shows_device? k) (t.shows_device? k)
      (by rw [hberths, addressIn_berths hs.toIndexed ht.toIndexed hberths])
    members := fun name => hagree (shows_membersNamed hs.toIndexed name)
      (shows_membersNamed ht.toIndexed name) (hmembers name)
    split := fun name hne => ?_
    channels := (congrArg Outlook.numbers houtlook).symm
    heard := fun channel => hagree (shows_devicesOn hs.toIndexed channel)
      (shows_devicesOn ht.toIndexed channel) (by rw [houtlook]) }
  have hshows := shows_membersNamed hs.toIndexed name
  cases hmembersOf : (s.outlook c).members name with
  | nil =>
    rw [hmembersOf] at hshows
    exact absurd hshows.eq_nil hne
  | cons m l =>
    have hm : m ∈ (s.outlook c).members name := hmembersOf ▸ List.mem_cons_self
    have hsplit : (t.outlook c').split = (s.outlook c).split := by rw [houtlook]
    refine ⟨decide (name ∈ (s.outlook c).split), ?_, ?_⟩
    · rw [splitFlag_outlook hs.toIndexed, if_pos (mem_names_of_member hs.toIndexed hm)]
    · rw [← hmembers] at hm
      rw [splitFlag_outlook ht.toIndexed, if_pos (mem_names_of_member ht.toIndexed hm), hsplit]

/-! ## What a purge releases -/

theorem isEmpty_iff (hs : s.Indexed c) {h : Handle} {n : Network}
    (hn : s.networks.get? h = some n) : n.isEmpty = true ↔ s.membersOf h = .ok [] := by
  rw [Network.isEmpty, (hs.grouping.spells hn).isEmpty_iff, membersOf_eq hs, hn,
    if_pos (Option.isSome_some), Except.ok.injEq, List.isEmpty_iff]
  constructor
  · intro hnone
    rw [hnone, List.filterMap_nil]
  · intro hnone
    refine List.eq_nil_iff_forall_not_mem.2 fun j hj => ?_
    obtain ⟨d, hd, -⟩ := Option.bind_eq_some_iff.1 (mem_picked.1 hj).2
    rw [List.filterMap_eq_nil_iff.1 hnone j hj] at hd
    cases hd

theorem purge_releases (hs : s.Indexed c) :
    ∃ gone : List Handle, gone.Nodup ∧
      (∀ g, g ∈ gone ↔ (s.networks.get? g).isSome ∧ s.membersOf g = .ok []) ∧
      Operation.purge.act.run s = .ok ⟨s.purgeNetworks.2, [], .ok (.released gone.length)⟩ ∧
      ∀ g, s.purgeNetworks.2.networks.get? g = if g ∈ gone then none else s.networks.get? g := by
  have hmem : ∀ g, g ∈ s.networks.emptyOnes ↔
      ∃ n, s.networks.get? g = some n ∧ n.isEmpty = true := by
    intro g
    simp only [NetworkTable.emptyOnes, List.mem_map, List.mem_filter, Prod.exists, exists_and_right,
      exists_eq_right, Pool.mem_entries, NetworkTable.get?]
  refine ⟨s.networks.emptyOnes, ?_, fun g => ?_, rfl, fun g => ?_⟩
  · exact s.networks.pool.handles_nodup.sublist (List.filter_sublist.map _)
  · rw [hmem, Option.isSome_iff_exists]
    constructor
    · rintro ⟨n, hn, hempty⟩
      exact ⟨⟨n, hn⟩, (isEmpty_iff hs hn).1 hempty⟩
    · rintro ⟨⟨n, hn⟩, hnone⟩
      exact ⟨n, hn, (isEmpty_iff hs hn).2 hnone⟩
  · change s.networks.purge.2.get? g = _
    rw [NetworkTable.get?_purge]
    cases hn : s.networks.get? g with
    | none => rw [Option.filter_none, ite_self]
    | some n => cases hempty : n.isEmpty <;> simp [hmem, hn, hempty, Option.filter_some]

/-! ## Runs -/

/-- A survey and one that was purged in between. -/
structure Shadows (s : Survey) (c : Chronicle) (t : Survey) (c' : Chronicle) : Prop where
  honest : (t.outlook c').Honest
  trimmed : (s.outlook c).Trimmed (t.outlook c')
  berths : t.berths = s.berths

theorem card_names_le (hs : s.Indexed c) : (s.outlook c).names.card ≤ Capacity.networks := by
  have hsum := hs.grouping.pool.size_add_free
  have hbounded := hs.grouping.pool.bounded
  have hcard : s.networks.pool.size = (s.outlook c).names.card := hs.grouping.size_eq_card
  omega

theorem Shadows.next (h : s.Shadows c t c') (hs : s.Sound c) (ht : t.Sound c')
    (m : s.Becomes c o s' d events answer) (m' : t.Becomes c' o t' d' events' answer')
    (hs' : s'.Sound d) (ht' : t'.Sound d') (hroom : answer ≠ .error (.full .networks)) :
    s'.Shadows d t' d' ∧ (o ≠ .purge → answer'.map Reply.plain = answer.map Reply.plain) := by
  have hnext := m.outlook hs hs'
  have hnext' := m'.outlook ht ht'
  have hbound := card_names_le hs.toIndexed
  have hroom' : ((s.outlook c).next o).answer ≠ .error (.full .networks) := by
    rw [hnext]
    intro hfull
    cases answer with
    | error r => exact hroom (congrArg Except.error (Except.error.inj hfull))
    | ok reply => cases hfull
  obtain ⟨htrimmed, htold⟩ := h.trimmed.next hbound hroom'
  have hberths : t'.berths = s'.berths := by
    rw [m'.berths ht, m.berths hs, h.berths, Berths.next_trimmed h.trimmed hbound hroom']
  have hhonest := (h.honest.heeds o).honest
  rw [hnext'] at htrimmed hhonest htold
  rw [hnext] at htrimmed htold
  refine ⟨⟨hhonest, htrimmed, hberths⟩, fun hne => ?_⟩
  refine m.plain_eq m' hs' ht' (fun a => ?_) (htold hne)
  obtain ⟨names, -, houtlook⟩ := htrimmed
  dsimp only at houtlook
  rw [houtlook, hberths]
  rfl

theorem Shadows.purged (h : s.Shadows c t c') (ht : t.Sound c')
    (m : t.Becomes c' .purge t' d' events answer) (ht' : t'.Sound d') : s.Shadows c t' d' := by
  have hnext := m.outlook ht ht'
  have htrimmed := h.trimmed.purged h.honest
  have hhonest := (h.honest.heeds .purge).honest
  rw [hnext] at hhonest
  have hpurged : (t.outlook c').purged = t'.outlook d' := congrArg Outcome.state hnext
  rw [hpurged] at htrimmed
  exact ⟨hhonest, htrimmed, (m.berths ht).trans h.berths⟩

end Survey

/-- What was done in a step that is not a purge, and what it came to. -/
def Step.result? (x : Step) : Option (Operation × Except Refusal Reply) :=
  match x.operation with
  | .purge => none
  | o => some (o, x.answer.map Reply.plain)

/-- A run, and the run with purges put in: `none` in the script stands for one of these. -/
theorem play_shadows (settings : Settings) (script : List (Option Operation)) :
    ∃ h c k d, play settings script.reduceOption = .ok h ∧
      play settings (script.map fun o => o.getD .purge) = .ok k ∧
      h.survey.Sound c ∧ k.survey.Sound d ∧
      ((∀ x ∈ h.steps, x.answer ≠ .error (.full .networks)) →
        h.survey.Shadows c k.survey d ∧
          k.steps.filterMap Step.result? = h.steps.filterMap Step.result?) := by
  -- from the end of the script, so that what came before is a run of its own
  induction script using List.reverseRecOn with
  | nil =>
    have hnew := Survey.new_sound settings
    have hblank : ((Survey.new settings).outlook ⟨[], [], []⟩).Honest := by
      rw [Survey.new_outlook]
      exact Outlook.blank_honest settings
    exact ⟨_, _, _, _, rfl, rfl, hnew, hnew, fun _ => ⟨⟨hblank, .refl _, rfl⟩, rfl⟩⟩
  | append_singleton script o ih =>
    obtain ⟨h, c, k, d, hplay, hplay', hs, ht, hshadows⟩ := ih
    rw [List.reduceOption_append, List.map_append]
    cases o with
    | none =>
      obtain ⟨t, d', events, answer, hrun, hbecomes, ht'⟩ := Survey.act_run ht .purge
      refine ⟨h, c, _, d', ?_, play_concat hplay' hrun, hs, ht', fun hroom => ?_⟩
      · rw [List.reduceOption_singleton, Option.toList_none, List.append_nil, hplay]
      · obtain ⟨hsurvey, hresults⟩ := hshadows hroom
        exact ⟨hsurvey.purged ht hbecomes ht', hresults⟩
    | some o =>
      obtain ⟨s, c', events, answer, hrun, hbecomes, hs'⟩ := Survey.act_run hs o
      obtain ⟨t, d', events', answer', hrun', hbecomes', ht'⟩ := Survey.act_run ht o
      refine ⟨_, c', _, d', play_concat hplay hrun, play_concat hplay' hrun', hs', ht',
        fun hroom => ?_⟩
      rw [List.forall_mem_cons] at hroom
      obtain ⟨hroom, hbefore⟩ := hroom
      obtain ⟨hsurvey, hresults⟩ := hshadows hbefore
      obtain ⟨hnext, hanswer⟩ := hsurvey.next hs ht hbecomes hbecomes' hs' ht' hroom
      refine ⟨hnext, ?_⟩
      have hresult : (Step.mk o events' answer').result? = (Step.mk o events answer).result? := by
        cases o with
        | purge => rfl
        | _ => simp only [Step.result?, hanswer (by simp)]
      simp only [List.filterMap_cons, Option.getD_some, hresult, hresults]

/-- Purges can be put anywhere into a run that refuses no frame for want of room for a network. All
other operations come to what they would come to without them, and the survey shows the same devices
in the same order, with the same handles, on the same channels, and the same networks with the same
members. Each purge releases the networks without members and answers how many there were; the
others keep their handles. -/
theorem play_purged (settings : Settings) (script : List (Option Operation)) :
    ∃ h k, play settings script.reduceOption = .ok h ∧
      play settings (script.map fun o => o.getD .purge) = .ok k ∧
      ((∀ x ∈ h.steps, x.answer ≠ .error (.full .networks)) →
        k.steps.filterMap Step.result? = h.steps.filterMap Step.result? ∧
          h.survey.Resembles k.survey) ∧
      ∃ (t : Survey) (gone : List Handle),
        Operation.purge.act.run k.survey = .ok ⟨t, [], .ok (.released gone.length)⟩ ∧ gone.Nodup ∧
          (∀ g, g ∈ gone ↔ (k.survey.networks.get? g).isSome ∧ k.survey.membersOf g = .ok []) ∧
          ∀ g, t.networks.get? g = if g ∈ gone then none else k.survey.networks.get? g := by
  obtain ⟨h, c, k, d, hplay, hplay', hs, ht, hshadows⟩ := play_shadows settings script
  obtain ⟨gone, hnodup, hgone, hrun, hget⟩ := Survey.purge_releases ht.toIndexed
  refine ⟨h, k, hplay, hplay', fun hroom => ?_, _, gone, hrun, hnodup, hgone, hget⟩
  obtain ⟨hsurvey, hresults⟩ := hshadows hroom
  exact ⟨hresults, Survey.resembles_of_trimmed hs ht hsurvey.trimmed hsurvey.berths⟩

end AirSurvey

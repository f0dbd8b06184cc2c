import AirSurvey.Proofs.Survey.Renewal

set_option autoImplicit false

/-!
Networks that split. Whether a network has split is noted with it and looked at anew whenever a
device comes, goes or tells of itself; so the note is right after every operation. The log tells of
a split once, when the network splits, and it can only split by what one of its devices tells: a
network that a device leaves, or that the device is forgotten in, was split before if it is after.
-/

namespace AirSurvey

def Event.splitName? : Event → Option String
  | .split name => some name
  | _ => none

theorem Event.split_mem_iff {events : List Event} {name : String} :
    .split name ∈ events ↔ name ∈ events.filterMap splitName? := by
  rw [List.mem_filterMap]
  constructor
  · exact fun h => ⟨.split name, h, rfl⟩
  · rintro ⟨e, he, hname⟩
    cases e <;> simp_all [splitName?]

namespace NetworkTable

theorem differ_iff (l : List MacAddress) : differ l = true ↔ ∃ a ∈ l, ∃ b ∈ l, a ≠ b := by
  cases l with
  | nil => simp [differ]
  | cons first rest =>
    simp only [differ, List.any_eq_true, bne_iff_ne, ne_eq]
    constructor
    · rintro ⟨b, hb, hne⟩
      exact ⟨b, .tail _ hb, first, .head _, hne⟩
    · rintro ⟨a, ha, b, hb, hne⟩
      -- one of two that differ is not the first
      by_cases hfirst : a = first
      · subst hfirst
        rcases List.mem_cons.1 hb with rfl | hb
        · exact absurd rfl hne
        · exact ⟨b, hb, fun h => hne h.symm⟩
      · rcases List.mem_cons.1 ha with rfl | ha
        · exact absurd rfl hfirst
        · exact ⟨a, ha, hfirst⟩

theorem mem_regard {split : Finset NetworkName} {isSplit : NetworkName → Bool}
    {current : Option NetworkName} {name : NetworkName} :
    name ∈ regard split isSplit current ↔
      if current = some name then isSplit name = true else name ∈ split := by
  cases current with
  | none => simp [regard]
  | some other =>
    by_cases hname : other = name
    · subst hname
      cases hsplit : isSplit other <;> simp [regard, hsplit]
    · have hne : name ≠ other := Ne.symm hname
      cases hsplit : isSplit other <;> simp [regard, hsplit, hname, hne]

end NetworkTable

namespace Outlook

open NetworkTable (differ differ_iff regard regardNews mem_regard)

variable {x y : Outlook} {m : MacAddress} {f : Frame} {name : NetworkName}

theorem differs_congr {l : List MacAddress} (h : ∀ a ∈ l, y.dossier a = x.dossier a) :
    y.differs l = x.differs l :=
  congrArg differ (List.filterMap_congr fun a ha => by rw [h a ha])

theorem differs_of_sublist {l l' : List MacAddress} (hsub : l.Sublist l')
    (h : x.differs l = true) : x.differs l' = true := by
  rw [differs, differ_iff] at h ⊢
  obtain ⟨a, ha, b, hb, hne⟩ := h
  have hcells := (hsub.filterMap fun m => (x.dossier m).bind fun k => k.profile.adHocCell).subset
  exact ⟨a, hcells ha, b, hcells hb, hne⟩

theorem isSplit_of_isSplitWithout (h : x.isSplitWithout m name = true) : x.isSplit name = true :=
  differs_of_sublist List.filter_sublist h

theorem filter_members_of_ne (h : x.nameOf m ≠ some name) :
    (x.members name).filter (· != m) = x.members name := by
  refine List.filter_eq_self.2 fun a ha => ?_
  have hname : x.nameOf a = some name := by simpa using (List.mem_filter.1 ha).2
  rw [bne_iff_ne]
  rintro rfl
  exact h hname

theorem isSplitWithout_of_ne (h : x.nameOf m ≠ some name) :
    x.isSplitWithout m name = x.isSplit name := by
  rw [isSplitWithout, isSplit, filter_members_of_ne h]

theorem filter_members_congr (hdossier : ∀ a, a ≠ m → y.dossier a = x.dossier a)
    (hjoined : y.joined.filter (· != m) = x.joined.filter (· != m)) (name : NetworkName) :
    (y.members name).filter (· != m) = (x.members name).filter (· != m) := by
  have hothers : ∀ z : Outlook, (z.members name).filter (· != m) =
      (z.joined.filter (· != m)).filter fun a => z.nameOf a == some name :=
    fun z => List.filter_comm _ _ _
  rw [hothers, hothers, hjoined]
  refine List.filter_congr fun a ha => ?_
  have hne : a ≠ m := by simpa using (List.mem_filter.1 ha).2
  rw [nameOf, nameOf, hdossier a hne]

/-- A network without a device is what the others make it. -/
theorem isSplit_eq_isSplitWithout (hdossier : ∀ a, a ≠ m → y.dossier a = x.dossier a)
    (hjoined : y.joined.filter (· != m) = x.joined.filter (· != m))
    (hout : y.nameOf m ≠ some name) : y.isSplit name = x.isSplitWithout m name := by
  rw [← isSplitWithout_of_ne hout, isSplitWithout, isSplitWithout,
    filter_members_congr hdossier hjoined]
  refine differs_congr fun a ha => hdossier a ?_
  simpa using (List.mem_filter.1 ha).2

theorem filter_joined_followed (x : Outlook) (f : Frame) :
    (x.followed f).joined.filter (· != f.source) = x.joined.filter (· != f.source) := by
  rw [followed]
  dsimp only
  split
  · simp [List.filter_append, List.filter_filter]
  · rfl

theorem isSplit_followed (h : (x.followed f).nameOf f.source ≠ some name) :
    (x.followed f).isSplit name = x.isSplitWithout f.source name :=
  isSplit_eq_isSplitWithout (fun _ ha => if_neg ha) (filter_joined_followed x f) h

theorem isSplit_evicted (x : Outlook) (m : MacAddress) (name : NetworkName) :
    (x.evicted m).isSplit name = x.isSplitWithout m name := by
  refine isSplit_eq_isSplitWithout (fun a ha => if_neg ha) ?_ ?_
  · simp [evicted, List.filter_filter]
  · simp [nameOf, evicted]

theorem nameOf_followed (x : Outlook) (f : Frame) :
    (x.followed f).nameOf f.source = (x.newName f).or (x.nameOf f.source) := by
  have hname : (x.followed f).nameOf f.source = f.visibleName.or (x.nameOf f.source) := by
    simp [nameOf, followed, Dossier.follow]
  rw [hname, newName]
  cases f.visibleName with
  | none => rfl
  | some name =>
    by_cases hsame : x.nameOf f.source = some name <;> simp [Option.filter_some, hsame]

/-! ## The notes are right -/

/-- The networks noted as split are those that are. -/
def Honest (x : Outlook) : Prop := ∀ name, name ∈ x.split ↔ x.isSplit name = true

theorem blank_honest (settings : Settings) : (blank settings).Honest := by
  intro name
  simp [blank, isSplit, members, differs, differ]

theorem Honest.followed (hx : x.Honest) (f : Frame)
    (hout : (x.followed f).nameOf f.source ≠ some name) :
    name ∈ (x.followed f).split ↔ (x.followed f).isSplit name = true := by
  rw [isSplit_followed hout]
  change name ∈ regard x.split (x.isSplitWithout f.source) (x.oldName f) ↔ _
  rw [mem_regard]
  split
  · rfl
  · next hold =>
    have hbefore : x.nameOf f.source ≠ some name := by
      intro hname
      rw [nameOf_followed] at hout
      cases hnew : x.newName f with
      | none => exact hout (by rw [hnew, Option.none_or, hname])
      | some other => exact hold (by rw [oldName, hnew, Option.bind_some, hname])
    rw [isSplitWithout_of_ne hbefore]
    exact hx name

theorem Honest.observed (hx : x.Honest) (f : Frame) : (x.observed f).Honest := by
  intro name
  change name ∈ regard (x.followed f).split (x.followed f).isSplit _ ↔
    (x.followed f).isSplit name = true
  rw [mem_regard]
  split
  · rfl
  · next hout => exact hx.followed f hout

theorem Honest.evicted (hx : x.Honest) (m : MacAddress) : (x.evicted m).Honest := by
  intro name
  rw [isSplit_evicted]
  change name ∈ regard x.split (x.isSplitWithout m) (x.nameOf m) ↔ _
  rw [mem_regard]
  split
  · rfl
  · next hout =>
    rw [isSplitWithout_of_ne hout]
    exact hx name

/-- Networks without members are not split, so a purge takes no note away. -/
theorem Honest.purged (hx : x.Honest) : x.purged.split = x.split := by
  refine Finset.filter_eq_self.2 fun name hname => ?_
  have hsplit := (hx name).1 hname
  cases hmembers : x.members name with
  | nil => simp [isSplit, differs, hmembers, differ] at hsplit
  | cons => rfl

/-! ## What the log tells -/

theorem splits_of_regardNews {split : Finset NetworkName} {isSplit : NetworkName → Bool}
    {current : Option NetworkName} :
    (regardNews split isSplit current).filterMap Event.splitName? =
      (current.filter fun name => isSplit name ∧ name ∉ split).toList.map NetworkName.text := by
  cases current with
  | none => rfl
  | some name =>
    rw [regardNews, Option.filter_some]
    by_cases hnews : isSplit name = true ∧ name ∉ split <;> simp [hnews, Event.splitName?]

/-- That a device goes is never news of a split. -/
theorem Honest.regardNews_eq_nil (hx : x.Honest) (m : MacAddress) (current : Option NetworkName) :
    regardNews x.split (x.isSplitWithout m) current = [] := by
  cases current with
  | none => rfl
  | some name =>
    refine if_neg ?_
    rintro ⟨hsplit, hnew⟩
    exact hnew ((hx name).2 (isSplit_of_isSplitWithout hsplit))

theorem Honest.splits_of_evictNews (hx : x.Honest) (m : MacAddress) :
    (x.evictNews m).filterMap Event.splitName? = [] := by
  rw [evictNews, hx.regardNews_eq_nil]
  cases x.dossier m <;> rfl

theorem Honest.splits_of_moveNews (hx : x.Honest) (f : Frame) :
    (x.moveNews f).filterMap Event.splitName? = [] := by
  rw [moveNews]
  cases x.newName f with
  | none => rfl
  | some name =>
    rw [Option.toList_some, List.flatMap_singleton, hx.regardNews_eq_nil]
    split <;> rfl

theorem Honest.split_evicted_subset (hx : x.Honest) (m : MacAddress) :
    (x.evicted m).split ⊆ x.split := by
  intro name hname
  have hsplit := (hx.evicted m name).1 hname
  rw [isSplit_evicted] at hsplit
  exact (hx name).2 (isSplit_of_isSplitWithout hsplit)

theorem Honest.sweepFrom (hx : x.Honest) (now : Timestamp) (timeout : UInt32)
    (l : List MacAddress) :
    (sweepFrom now timeout l x).1.Honest ∧ (sweepFrom now timeout l x).1.split ⊆ x.split ∧
      (sweepFrom now timeout l x).2.1.filterMap Event.splitName? = [] := by
  induction l generalizing x with
  | nil => exact ⟨hx, Finset.Subset.refl _, rfl⟩
  | cons m l ih =>
    rw [Outlook.sweepFrom]
    split
    · obtain ⟨hhonest, hsubset, hnews⟩ := ih (hx.evicted m)
      refine ⟨hhonest, hsubset.trans (hx.split_evicted_subset m), ?_⟩
      dsimp only
      rw [List.filterMap_append, hx.splits_of_evictNews, hnews]
      rfl
    · exact ih hx

theorem mem_split_followed (h : (x.followed f).nameOf f.source = some name) :
    name ∈ (x.followed f).split ↔ name ∈ x.split := by
  change name ∈ regard x.split (x.isSplitWithout f.source) (x.oldName f) ↔ _
  have hold : x.oldName f ≠ some name := by
    intro hold
    obtain ⟨other, hnew, hname⟩ := Option.bind_eq_some_iff.1 hold
    rw [nameOf_followed, hnew, Option.some_or] at h
    have hdiffers := (Option.filter_eq_some_iff.1 hnew).2
    simp [hname, Option.some.inj h] at hdiffers
  rw [mem_regard, if_neg hold]

theorem Honest.splits_of_observeNews (hx : x.Honest) (f : Frame) :
    (x.observeNews f).filterMap Event.splitName? = (((x.observed f).nameOf f.source).filter
      fun name => (x.observed f).isSplit name ∧ name ∉ x.split).toList.map NetworkName.text := by
  have hdevice : (if f.source ∈ x.tracked then [] else [Event.newDevice f.source f.signal]).filterMap
      Event.splitName? = [] := by
    split <;> rfl
  have hchannel : ∀ channel : Option UInt8,
      (channel.toList.map Event.newChannel).filterMap Event.splitName? = [] := by
    rintro (_ | _) <;> rfl
  rw [observeNews, List.filterMap_append, List.filterMap_append, List.filterMap_append, hdevice,
    hx.splits_of_moveNews, hchannel, splits_of_regardNews]
  change (Option.filter _ ((x.followed f).nameOf f.source)).toList.map _ =
    (Option.filter _ ((x.followed f).nameOf f.source)).toList.map _
  cases hname : (x.followed f).nameOf f.source with
  | none => rfl
  | some name =>
    have hbefore := mem_split_followed hname
    simp only [Option.filter_some, hbefore]
    rfl

theorem Honest.nameOf_of_split (hx : x.Honest) (hbefore : name ∉ x.split)
    (hafter : name ∈ (x.observed f).split) : (x.observed f).nameOf f.source = some name := by
  by_contra hout
  have hsplit := (hx.observed f name).1 hafter
  change (x.followed f).isSplit name = true at hsplit
  rw [isSplit_followed hout] at hsplit
  exact hbefore ((hx name).2 (isSplit_of_isSplitWithout hsplit))

/-- What an operation does about splits: the notes are right again, and the records tell of a
network that splits, at most one, and only if a frame was taken in that leaves its sender there. -/
structure Heeds (x : Outlook) (o : Operation) (y : Outlook) (events : List Event) : Prop where
  honest : y.Honest
  told : ∀ name, .split name.text ∈ events ↔ name ∉ x.split ∧ name ∈ y.split
  once : events.filterMap Event.splitName? = [] ∨ ∃ f name, o = .observe f ∧
    x.verdict f = none ∧ y.nameOf f.source = some name ∧
    events.filterMap Event.splitName? = [name.text]

theorem Honest.heeds_quiet (hy : y.Honest) (o : Operation) {events : List Event}
    (hsubset : y.split ⊆ x.split) (hnews : events.filterMap Event.splitName? = []) :
    x.Heeds o y events where
  honest := hy
  told name := by
    rw [Event.split_mem_iff, hnews]
    simpa using fun hnew hname => hnew (hsubset hname)
  once := .inl hnews

theorem Honest.heeds_observe (hx : x.Honest) (hverdict : x.verdict f = none) :
    x.Heeds (.observe f) (x.observed f) (x.observeNews f) := by
  have hnews := hx.splits_of_observeNews f
  refine ⟨hx.observed f, fun name => ?_, ?_⟩
  · rw [Event.split_mem_iff, hnews, List.mem_map]
    constructor
    · rintro ⟨other, hother, htext⟩
      obtain rfl := NetworkName.eq_of_text htext
      obtain ⟨-, hsplits⟩ := Option.filter_eq_some_iff.1 (Option.mem_toList.1 hother)
      obtain ⟨hsplit, hbefore⟩ := of_decide_eq_true hsplits
      exact ⟨hbefore, (hx.observed f other).2 hsplit⟩
    · rintro ⟨hbefore, hafter⟩
      have hname := hx.nameOf_of_split hbefore hafter
      have hsplit := (hx.observed f name).1 hafter
      exact ⟨name, by simp [hname, hsplit, hbefore], rfl⟩
  · rw [hnews]
    cases hname : (x.observed f).nameOf f.source with
    | none => exact .inl rfl
    | some name =>
      rw [Option.filter_some]
      split
      · exact .inr ⟨f, name, rfl, hverdict, hname, rfl⟩
      · exact .inl rfl

theorem Honest.heeds_swept (hx : x.Honest) (o : Operation) (now : Timestamp) (timeout : UInt32) :
    x.Heeds o (x.swept now timeout).state (x.swept now timeout).events := by
  obtain ⟨hhonest, hsubset, hnews⟩ := hx.sweepFrom now timeout x.tracked
  refine hhonest.heeds_quiet o hsubset ?_
  rw [swept]
  dsimp only
  split
  · rfl
  · rw [List.filterMap_append, hnews]
    rfl

theorem Honest.heeds (hx : x.Honest) (o : Operation) :
    x.Heeds o (x.next o).state (x.next o).events := by
  cases o with
  | observe f =>
    rw [next]
    cases hverdict : x.verdict f with
    | none => exact hx.heeds_observe hverdict
    | some r =>
      refine hx.heeds_quiet _ (Finset.Subset.refl _) ?_
      cases r with
      | full what => cases what <;> rfl
      | _ => rfl
  | sweep now timeout => exact hx.heeds_swept _ now timeout
  | expire now => exact hx.heeds_swept _ now x.settings.timeout
  | purge =>
    have hhonest : x.purged.Honest := fun name => by
      rw [hx.purged]
      exact hx name
    exact hhonest.heeds_quiet _ (Finset.filter_subset _ _) rfl
  | clear => exact (blank_honest _).heeds_quiet _ (Finset.empty_subset _) rfl

end Outlook

namespace Survey

variable {s t : Survey} {c c' : Chronicle}

theorem splitFlag_eq_true (hs : s.Indexed c) (name : NetworkName) :
    s.splitFlag name = some true ↔ name ∈ (s.outlook c).split := by
  have hknown : name ∈ (s.outlook c).split → name ∈ (s.outlook c).names := by
    intro hsplit
    obtain ⟨h, hcore⟩ := NetworkTable.mem_splitNames.1 hsplit
    refine NetworkTable.mem_names.2 ?_
    obtain ⟨n, hn, hn'⟩ := Option.map_eq_some_iff.1 hcore
    exact ⟨h, by rw [hn, Option.map_some, (Prod.mk.inj hn').1]⟩
  rw [splitFlag_outlook hs]
  constructor
  · intro h
    split at h
    · exact of_decide_eq_true (Option.some.inj h)
    · exact absurd h (by decide)
  · intro h
    rw [if_pos (hknown h), decide_eq_true h]

theorem isSplit_iff (hs : s.Indexed c) (hx : (s.outlook c).Honest) {h : Handle} {n : Network}
    (hn : s.networks.get? h = some n) :
    ∃ ds, s.membersOf h = .ok ds ∧ (n.isSplit = true ↔ ∃ d ∈ ds, ∃ e ∈ ds, ∃ a b,
      d.profile.mode = some .adHoc ∧ e.profile.mode = some .adHoc ∧
        d.profile.bssid = some a ∧ e.profile.bssid = some b ∧ a ≠ b) := by
  have hmembers := membersOf_eq hs h
  rw [hn, if_pos (Option.isSome_some)] at hmembers
  refine ⟨_, hmembers, ?_⟩
  have hcells : (s.outlook c).isSplit n.name = NetworkTable.differ (NetworkTable.adHocCells
      ((picked (networkSlot s.devices) c.joined h.index).filterMap s.devices.at?)) := by
    rw [Outlook.isSplit, ← members_outlook hs hn, ← splitAmong_outlook hs]
    rfl
  have hmem : ∀ a (ds : List Device), a ∈ NetworkTable.adHocCells ds ↔
      ∃ d ∈ ds, d.profile.mode = some .adHoc ∧ d.profile.bssid = some a := by
    intro a ds
    rw [NetworkTable.adHocCells, List.mem_filterMap]
    refine exists_congr fun d => and_congr_right fun _ => ?_
    split
    · next hmode => simp [hmode]
    · next hmode => simp [hmode]
  rw [← hs.grouping.mem_splitNames_iff hn]
  refine (hx n.name).trans ?_
  rw [hcells, NetworkTable.differ_iff]
  simp only [hmem]
  constructor
  · rintro ⟨a, ⟨d, hd, hmode, ha⟩, b, ⟨e, he, hmode', hb⟩, hne⟩
    exact ⟨d, hd, e, he, a, b, hmode, hmode', ha, hb, hne⟩
  · rintro ⟨d, hd, e, he, a, b, hmode, hmode', ha, hb, hne⟩
    exact ⟨a, ⟨d, hd, hmode, ha⟩, b, ⟨e, he, hmode', hb⟩, hne⟩

theorem Becomes.honest {o : Operation} {events : List Event} {answer : Except Refusal Reply}
    (m : s.Becomes c o t c' events answer) (hs : s.Sound c) (ht : t.Sound c')
    (hx : (s.outlook c).Honest) : (t.outlook c').Honest := by
  have hheeds := (hx.heeds o).honest
  rwa [m.outlook hs ht] at hheeds

theorem new_honest (settings : Settings) :
    ((new settings).outlook ⟨[], [], []⟩).Honest := by
  rw [new_outlook]
  exact Outlook.blank_honest settings

end Survey

theorem play_honest (settings : Settings) (ops : List Operation) :
    ∃ h c, play settings ops = .ok h ∧ h.survey.Sound c ∧ (h.survey.outlook c).Honest :=
  play_run (P := fun h c => (h.survey.outlook c).Honest) settings (Survey.new_honest settings)
    (fun _ _ _ _ _ _ _ hs hx hbecomes ht => hbecomes.honest hs ht hx) ops

/-- In any state that a run can reach, a network is noted as split exactly if two of its members are
ad-hoc devices in different cells. Whatever is done next, there is a record that a network has split
exactly if it had not before and has then. There is at most one such record, it comes with a frame
that is taken in, and it is about the network that the sender is in then. -/
theorem play_splits (settings : Settings) (ops : List Operation) (o : Operation) :
    ∃ h t events answer, play settings ops = .ok h ∧
      o.act.run h.survey = .ok ⟨t, events, answer⟩ ∧
      (∀ k n, h.survey.networks.get? k = some n → ∃ ds, h.survey.membersOf k = .ok ds ∧
        (n.isSplit = true ↔ ∃ d ∈ ds, ∃ e ∈ ds, ∃ a b,
          d.profile.mode = some .adHoc ∧ e.profile.mode = some .adHoc ∧
            d.profile.bssid = some a ∧ e.profile.bssid = some b ∧ a ≠ b)) ∧
      (∀ name : NetworkName, .split name.text ∈ events ↔
        h.survey.splitFlag name ≠ some true ∧ t.splitFlag name = some true) ∧
      (events.filterMap Event.splitName? = [] ∨ ∃ f d n, o = .observe f ∧
        answer = .ok (.device d) ∧ t.networkOf? d = some n ∧
        events.filterMap Event.splitName? = [n.name.text]) := by
  obtain ⟨h, c, hplay, hs, hx⟩ := play_honest settings ops
  obtain ⟨t, c', events, answer, hrun, hbecomes, ht⟩ := Survey.act_run hs o
  have hnext := hbecomes.outlook hs ht
  have hheeds := hx.heeds o
  rw [hnext] at hheeds
  refine ⟨h, t, events, answer, hplay, hrun, fun k n hn => Survey.isSplit_iff hs.toIndexed hx hn,
    fun name => ?_, ?_⟩
  · rw [Ne, Survey.splitFlag_eq_true hs.toIndexed, Survey.splitFlag_eq_true ht.toIndexed]
    exact hheeds.told name
  · obtain hnone | ⟨f, name, rfl, hverdict, hname, hnews⟩ := hheeds.once
    · exact .inl hnone
    · -- the frame is taken in, and the answer is its sender
      rw [Outlook.next, hverdict] at hnext
      obtain ⟨-, -, htold⟩ := Outcome.mk.inj hnext
      cases answer with
      | error r => exact absurd htold (by simp [Except.map])
      | ok reply =>
        have htold := Except.ok.inj htold
        cases reply with
        | device d =>
          obtain ⟨i, hd⟩ := hbecomes.at?_of_device
          have haddress : f.source = d.address := (Tidings.device.inj htold).1
          rw [haddress, Survey.nameOf_outlook ht.toIndexed hd, Option.map_eq_some_iff] at hname
          obtain ⟨n, hn, rfl⟩ := hname
          exact .inr ⟨f, d, n, rfl, rfl, hn, hnews⟩
        | released n => cases htold
        | done => cases htold

end AirSurvey

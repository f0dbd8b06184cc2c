import AirSurvey.Proofs.Survey.Lives

set_option autoImplicit false

/-!
Who is in which network after a run. A device is in the network of the name that it showed last in
its life, and stands there by when it came to that name.
-/

namespace AirSurvey

/-- The name that `m` showed last in its life. -/
def nameSince (steps : List Step) (m : MacAddress) : Option NetworkName :=
  (lifeOf steps m).findSome? Frame.visibleName

/-- Whether `m` shows a name in a step that is not the one it went by. -/
def Step.moves (m : MacAddress) (x : Step) (earlier : List Step) : Bool :=
  ((x.takenFrom? m).bind Frame.visibleName).any fun name => nameSince earlier m != some name

theorem nameSince_cons (x : Step) (steps : List Step) (m : MacAddress) :
    nameSince (x :: steps) m =
      if x.drops m then none
      else ((x.takenFrom? m).bind Frame.visibleName).or (nameSince steps m) := by
  rw [nameSince, lifeOf_cons]
  split
  · rfl
  · cases x.takenFrom? m with
    | none => rfl
    | some f =>
      cases hname : f.visibleName with
      | none => simp [hname, nameSince]
      | some name => simp [hname]

theorem since_moves_lt {steps : List Step} {m : MacAddress} (h : (nameSince steps m).isSome) :
    since (Step.moves m) steps < steps.length := by
  refine since_lt_length (P := fun steps => (nameSince steps m).isSome)
    (by simp [nameSince, lifeOf]) (fun x earlier hsome => ?_) h
  rw [nameSince_cons] at hsome
  split at hsome
  · simp at hsome
  · cases hshown : (x.takenFrom? m).bind Frame.visibleName with
    | none => exact .inr (by simpa [hshown] using hsome)
    | some name =>
      by_cases hsame : nameSince earlier m = some name
      · exact .inr (by simp [hsame])
      · exact .inl (by simpa [Step.moves, hshown] using hsame)

theorem Dossier.name_ofLife (weight : Float32) (life : List Frame) :
    (ofLife weight life).bind name = life.findSome? Frame.visibleName := by
  induction life with
  | nil => rfl
  | cons f life ih =>
    rw [ofLife, Option.bind_some, follow, ih, List.findSome?_cons]
    cases f.visibleName <;> rfl

theorem History.Told.nameSince {h : History} {c : Chronicle} (hh : h.Told c) (m : MacAddress) :
    (h.survey.dossier c m).bind Dossier.name = AirSurvey.nameSince h.steps m := by
  rw [hh m, Dossier.name_ofLife, AirSurvey.nameSince]

/-- A tracked device goes by the name that it showed last. -/
theorem History.Told.nameSince_eq {h : History} {c : Chronicle} (hh : h.Told c)
    (hs : h.survey.Indexed c) {i : Nat} {d : Device} (hd : h.survey.devices.at? i = some d) :
    AirSurvey.nameSince h.steps d.address = (h.survey.networkOf? d).map Network.name := by
  rw [AirSurvey.nameSince, ← Dossier.name_ofLife h.survey.settings.weight, hh.ofLife hs hd,
    Option.bind_some]

theorem Grouping.handle_inj {p : DevicePool} {t : NetworkTable} {key : Nat → Option Nat}
    {order : List Nat} (g : Grouping p t key order) {h k : Handle} {n n' : Network}
    (hn : t.get? h = some n) (hn' : t.get? k = some n') (hname : n.name.text = n'.name.text) :
    h = k := by
  obtain ⟨hh, hat⟩ := (Pool.get?_eq_some_iff _ _ _).1 hn
  obtain ⟨hk, hat'⟩ := (Pool.get?_eq_some_iff _ _ _).1 hn'
  rw [g.distinct _ _ _ _ hat hat' hname, hk] at hh
  exact (Option.some.inj hh).symm

namespace Survey

variable {s t : Survey} {c c' : Chronicle} {f : Frame} {i : Nat} {d : Device} {events : List Event}

/-- The addresses of the devices that are in networks, in the order in which they came to them. -/
def joinedAddresses (s : Survey) (c : Chronicle) : List MacAddress :=
  c.joined.filterMap (addressIn s.devices)

theorem mem_allDevices (hs : s.Indexed c) :
    d ∈ c.ages.filterMap s.devices.at? ↔ ∃ i, s.devices.at? i = some d := by
  rw [List.mem_filterMap]
  constructor
  · intro hgiven
    rcases hgiven with ⟨i, -, hd⟩
    exact ⟨i, hd⟩
  · intro hgiven
    rcases hgiven with ⟨i, hd⟩
    exact ⟨i, (hs.roster.mem i).2 (by simp [hd]), hd⟩

theorem mem_members (hs : s.Indexed c) {h : Handle} {n : Network} (hn : s.networks.get? h = some n) :
    d ∈ (picked (networkSlot s.devices) c.joined h.index).filterMap s.devices.at? ↔
      d.network = some h ∧ ∃ i, s.devices.at? i = some d := by
  have hh := ((Pool.get?_eq_some_iff _ _ _).1 hn).1
  rw [List.mem_filterMap]
  constructor
  · intro hgiven
    rcases hgiven with ⟨i, hi, hd⟩
    refine ⟨?_, i, hd⟩
    have hslot := (mem_picked.1 hi).2
    rw [networkSlot, hd, Option.bind_some, Option.map_eq_some_iff] at hslot
    obtain ⟨k, hk, hindex⟩ := hslot
    have hhome := hs.home i d k hd hk
    rw [hindex, hh] at hhome
    rw [hk, Option.some.inj hhome]
  · intro hgiven
    rcases hgiven with ⟨hnetwork, i, hd⟩
    have hslot : networkSlot s.devices i = some h.index := by simp [networkSlot, hd, hnetwork]
    exact ⟨i, mem_picked.2 ⟨(hs.grouping.mem i).2 (by simp [hslot]), hslot⟩, hd⟩

theorem mem_membersOf_iff (hs : s.Indexed c) (hd : s.devices.at? i = some d) (h : Handle) :
    (∃ es, s.membersOf h = .ok es ∧ d ∈ es) ↔ d.network = some h := by
  rw [membersOf_eq hs]
  cases hn : s.networks.get? h with
  | none =>
    have hother : d.network ≠ some h := fun hh => by
      obtain ⟨n, hn'⟩ := hs.exists_network hd hh
      simp [hn] at hn'
    simp [hother]
  | some n =>
    have hmem := mem_members (d := d) hs hn
    simpa [show ∃ i, s.devices.at? i = some d from ⟨i, hd⟩] using hmem

theorem network_eq_some_iff (hs : s.Indexed c) (d : Device) {h : Handle} {n : Network}
    (hn : s.networks.get? h = some n) :
    d.network = some h ↔ (s.networkOf? d).map Network.name = some n.name := by
  rw [map_name_networkOf?]
  constructor
  · intro hh
    simp [hh, hn]
  · intro hgiven
    obtain ⟨k, hk, hname⟩ := Option.bind_eq_some_iff.1 hgiven
    obtain ⟨n', hn', hnn⟩ := Option.map_eq_some_iff.1 hname
    rw [hk, hs.grouping.handle_inj hn' hn (by rw [hnn])]

theorem network_eq_none_iff (hs : s.Indexed c) (hd : s.devices.at? i = some d) :
    d.network = none ↔ (s.networkOf? d).map Network.name = none := by
  rw [map_name_networkOf?]
  cases hh : d.network with
  | none => simp
  | some h =>
    obtain ⟨n, hn⟩ := hs.exists_network hd hh
    simp [hn]

theorem addresses_members_sublist (s : Survey) (c : Chronicle) (a : Nat) :
    (((picked (networkSlot s.devices) c.joined a).filterMap s.devices.at?).map
      Device.address).Sublist (s.joinedAddresses c) := by
  rw [List.map_filterMap]
  exact List.filter_sublist.filterMap _

/-! ## What an operation does to the order of the members -/

theorem Arrives.joinedAddresses (m : s.Arrives c f i d t c' events) (hs : s.Indexed c) :
    t.joinedAddresses c' = s.joinedAddresses c := by
  obtain ⟨-, -, -, hjoined, -⟩ := m.frame
  rw [Survey.joinedAddresses, hjoined]
  refine List.filterMap_congr fun j hj => m.addressIn hs ?_
  obtain ⟨a, ha⟩ := Option.isSome_iff_exists.1 ((hs.grouping.mem j).1 hj)
  obtain ⟨e, he, -⟩ := Option.bind_eq_some_iff.1 ha
  simp [he]

/-- A device that comes to a network goes behind all others, and one that stays keeps its place. -/
theorem Settles.joinedAddresses (m : s.Settles c f i d t c' events) (hs : s.Indexed c)
    (hd : s.devices.at? i = some d) :
    t.joinedAddresses c' = s.joinedAddresses c ∧
        (∀ name, f.visibleName = some name → (s.networkOf? d).map Network.name = some name) ∨
      t.joinedAddresses c' = (s.joinedAddresses c).filter (· != d.address) ++ [d.address] ∧
        ∃ name, f.visibleName = some name ∧ (s.networkOf? d).map Network.name ≠ some name := by
  have hsame : addressIn t.devices = addressIn s.devices :=
    addressIn_of_view (Pool.view_eq_comp m.touched.view fun y => y.2.1)
  obtain ⟨hname, hchannel, -, hlook⟩ := m
  obtain ⟨-, -, -, -, -, hjoined⟩ := hchannel.frame
  rw [Survey.joinedAddresses, hjoined, hsame]
  cases hname with
  | stays hstays =>
    refine .inl ⟨rfl, fun name hvisible => ?_⟩
    obtain ⟨n, hn, rfl⟩ := hstays name hvisible
    rw [hn, Option.map_some]
  | @moves name h q u hvisible hother hmoved =>
    refine .inr ⟨?_, name, hvisible, ?_⟩
    · have hi := addressIn_of_at? hd
      rw [List.filterMap_append, hs.roster.addresses_without hd, Survey.joinedAddresses]
      simp [hi]
    · rw [Ne, Option.map_eq_some_iff, not_exists]
      exact fun n hn => hother n hn.1 hn.2

theorem Sweeps.joinedAddresses {now : Timestamp} {timeout : UInt32} {u : Survey} {n : Nat}
    (m : Sweeps now timeout c.ages s c u c' events n) (hs : s.Sound c) (hu : u.Indexed c') :
    (u.swept c' n).joinedAddresses c' =
      (s.joinedAddresses c).filter fun a => !(leavers events).contains a := by
  have hjoined : c'.joined = c.joined.filter fun j => !s.stale now timeout j :=
    congrArg Chronicle.joined (m.swept_thinned hs hu).2
  rw [Survey.joinedAddresses, Survey.joinedAddresses, hjoined, m.addressIn hs hu]

theorem Becomes.reorders_joined {o : Operation} {answer : Except Refusal Reply}
    (m : s.Becomes c o t c' events answer) (hs : s.Sound c) {steps : List Step}
    (hnames : ∀ a, (s.dossier c a).bind Dossier.name = nameSince steps a) :
    (Step.mk o events answer).Reorders Step.moves steps (s.joinedAddresses c)
      (t.joinedAddresses c') := by
  cases m with
  | refuses => exact .same fun _ _ => rfl
  | @observes f i d e s₁ _ c₁ _ e₁ e₂ _ harrives hindexed hsettles =>
    have haddress := harrives.address hs.toIndexed
    have hname : (s₁.networkOf? d).map Network.name = nameSince steps f.source :=
      (harrives.known hs.toIndexed).1.trans (hnames f.source)
    have hmoves : ∀ a, (Step.mk (.observe f) (e₁ ++ e₂) (.ok (.device e))).moves a steps =
        if f.source = a then
          f.visibleName.any fun name => nameSince steps f.source != some name
        else false := by
      intro a
      rw [Step.moves, Step.takenFrom?_accepted]
      split
      · next ha => rw [← ha, Option.bind_some]
      · rfl
    rw [← harrives.joinedAddresses hs.toIndexed]
    obtain ⟨hsame, hstays⟩ | ⟨horder, name, hvisible, hother⟩ :=
      hsettles.joinedAddresses hindexed harrives.device
    · rw [hsame]
      refine .same fun a _ => ?_
      rw [hmoves]
      split
      · rw [Option.any_eq_false]
        intro name hvisible
        simp [← hname, hstays name hvisible]
      · rfl
    · rw [horder, haddress]
      refine ⟨(· != f.source), some f.source, rfl, fun a _ ha => ?_, fun a ha => ?_⟩
      · have hne : ¬ f.source = a := fun e => by simp [e] at ha
        rw [hmoves, if_neg hne]
      · obtain rfl := Option.some.inj ha
        rw [hname] at hother
        rw [hmoves, if_pos rfl]
        simpa [hvisible] using hother
  | sweeps hoperation hsweeps hindexed =>
    rw [hsweeps.joinedAddresses hs hindexed]
    obtain rfl | ⟨rfl, -⟩ := hoperation
    · exact .thins _ fun _ _ => rfl
    · exact .thins _ fun _ _ => rfl
  | purges => exact .same fun _ _ => rfl
  | clears => exact ⟨fun _ => false, none, by simp [Survey.joinedAddresses], by simp, by simp⟩

end Survey

theorem play_joined (settings : Settings) (ops : List Operation) :
    ∃ h c, play settings ops = .ok h ∧ h.survey.Sound c ∧ h.Told c ∧
      InOrder Step.moves h.steps (h.survey.joinedAddresses c) :=
  play_run (P := fun h c => h.Told c ∧ InOrder Step.moves h.steps (h.survey.joinedAddresses c))
    settings ⟨.new settings, .nil⟩
    (fun _ _ _ _ _ _ _ hs htold hbecomes _ => ⟨htold.1.step hs hbecomes,
      htold.2.step (hbecomes.reorders_joined hs htold.1.nameSince)⟩) ops

/-- After every run a device is a member of one network, the one of the name that it showed last in
its life, or of none if it showed none. The members of a network stand in the order in which they
came to its name. -/
theorem play_groups (settings : Settings) (ops : List Operation) :
    ∃ s steps ds, play settings ops = .ok ⟨s, steps⟩ ∧ s.allDevices = .ok ds ∧
      (∀ d ∈ ds, (nameSince steps d.address = none → d.network = none) ∧
        (∀ name, nameSince steps d.address = some name →
          ∃ h n, d.network = some h ∧ s.networks.get? h = some n ∧ n.name = name) ∧
        ∀ h, (∃ es, s.membersOf h = .ok es ∧ d ∈ es) ↔ d.network = some h) ∧
      (∀ h n, s.networks.get? h = some n → ∃ es, s.membersOf h = .ok es ∧
        (∀ d, d ∈ es ↔ d ∈ ds ∧ nameSince steps d.address = some n.name) ∧
        (es.map Device.address).Nodup ∧
        (∀ d ∈ es, since (Step.moves d.address) steps < steps.length) ∧
        InOrder Step.moves steps (es.map Device.address)) ∧
      (∀ h n, s.networks.get? h = some n →
        n.name.text ≠ "" ∧ n.name.text.utf8ByteSize ≤ NetworkName.maxBytes) ∧
      ∀ h k n n', s.networks.get? h = some n → s.networks.get? k = some n' →
        n.name.text = n'.name.text → h = k := by
  obtain ⟨⟨s, steps⟩, c, hplay, hs, htold, horder⟩ := play_joined settings ops
  have hname : ∀ i d, s.devices.at? i = some d →
      nameSince steps d.address = (s.networkOf? d).map Network.name :=
    fun _ _ => htold.nameSince_eq hs.toIndexed
  refine ⟨s, steps, _, hplay, Survey.allDevices_eq hs.toIndexed, fun d hd => ?_, fun h n hn => ?_,
    fun h n hn => ⟨?_, n.name.fits⟩, fun h k n n' => hs.grouping.handle_inj⟩
  · obtain ⟨i, hd⟩ := (Survey.mem_allDevices hs.toIndexed).1 hd
    refine ⟨fun hnone => ?_, fun name hsome => ?_, Survey.mem_membersOf_iff hs.toIndexed hd⟩
    · rwa [Survey.network_eq_none_iff hs.toIndexed hd, ← hname i d hd]
    · rw [hname i d hd, Option.map_eq_some_iff] at hsome
      obtain ⟨n, hn, hnn⟩ := hsome
      obtain ⟨h, hh, hn⟩ := Option.bind_eq_some_iff.1 hn
      exact ⟨h, n, hh, hn, hnn⟩
  · have hes := Survey.membersOf_eq hs.toIndexed h
    rw [hn, Option.isSome_some, if_pos rfl] at hes
    have hin : InOrder Step.moves steps (((picked (networkSlot s.devices) c.joined
        h.index).filterMap s.devices.at?).map Device.address) :=
      List.Pairwise.sublist (s.addresses_members_sublist c h.index) horder
    have hmem : ∀ d, d ∈ (picked (networkSlot s.devices) c.joined h.index).filterMap
        s.devices.at? ↔ d ∈ c.ages.filterMap s.devices.at? ∧
          nameSince steps d.address = some n.name := by
      intro d
      rw [Survey.mem_members hs.toIndexed hn, Survey.mem_allDevices hs.toIndexed, and_comm]
      refine and_congr_right fun hd => ?_
      obtain ⟨i, hd⟩ := hd
      rw [Survey.network_eq_some_iff hs.toIndexed d hn, hname i d hd]
    refine ⟨_, hes, hmem, hin.nodup, fun d hd => since_moves_lt ?_, hin⟩
    rw [((hmem d).1 hd).2, Option.isSome_some]
  · have hvisible := hs.grouping.visible _ _ (Pool.at?_of_get? hn)
    simpa [NetworkName.isHidden, String.isEmpty_iff] using hvisible

end AirSurvey

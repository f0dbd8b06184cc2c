import AirSurvey.Proofs.Survey.Reading
import AirSurvey.Proofs.Survey.Records

set_option autoImplicit false

/-!
Which devices are tracked after a run: those that a frame was taken in from since they were last
dropped, the one that was made last first.
-/

namespace AirSurvey

namespace Step

def accepts (x : Step) (m : MacAddress) : Bool :=
  match x.operation, x.answer with
  | .observe f, .ok _ => f.source == m
  | _, _ => false

def makes (x : Step) (m : MacAddress) : Bool := (newcomers x.events).contains m

/-- Whether a device with an address was evicted, or all devices were forgotten. -/
def drops (x : Step) (m : MacAddress) : Bool :=
  match x.operation with
  | .clear => true
  | _ => (leavers x.events).contains m

/-- What a step does to the addresses of the tracked devices. -/
structure Updates (x : Step) (l l' : List MacAddress) : Prop where
  order : l' = newcomers x.events ++ l.filter fun m => !x.drops m
  single : (newcomers x.events).length ≤ 1
  fresh : ∀ m ∈ newcomers x.events, m ∉ l
  accepted : ∀ m ∈ newcomers x.events, x.accepts m = true
  tracked : ∀ m, x.accepts m = true → m ∈ l'

theorem Updates.of_not_accepts {x : Step} {l l' : List MacAddress}
    (hnew : newcomers x.events = []) (horder : l' = l.filter fun m => !x.drops m)
    (hnot : ∀ m, x.accepts m = false) : x.Updates l l' where
  order := by rw [horder, hnew, List.nil_append]
  single := by simp [hnew]
  fresh := by simp [hnew]
  accepted := by simp [hnew]
  tracked := by simp [hnot]

end Step

/-- A frame from `m` was taken in since a device with that address was last dropped. -/
def HeardSince (steps : List Step) (m : MacAddress) : Prop :=
  ∃ later x earlier, steps = later ++ x :: earlier ∧ x.accepts m = true ∧
    ∀ y ∈ later, y.drops m = false

theorem heardSince_cons {x : Step} {steps : List Step} {m : MacAddress} :
    HeardSince (x :: steps) m ↔
      x.accepts m = true ∨ x.drops m = false ∧ HeardSince steps m := by
  constructor
  · intro hgiven
    rcases hgiven with ⟨later, y, earlier, heq, hy, hlater⟩
    cases later with
    | nil =>
      obtain ⟨rfl, rfl⟩ := List.cons.inj heq
      exact .inl hy
    | cons z later =>
      obtain ⟨rfl, rfl⟩ := List.cons.inj heq
      exact .inr ⟨hlater x (by simp), later, y, earlier, rfl, hy,
        fun z hz => hlater z (by simp [hz])⟩
  · intro hgiven
    rcases hgiven with hx | ⟨hx, later, y, earlier, rfl, hy, hlater⟩
    · exact ⟨[], x, steps, rfl, hx, by simp⟩
    · exact ⟨x :: later, y, earlier, rfl, hy, by simpa using ⟨hx, hlater⟩⟩

def sinceMade (steps : List Step) (m : MacAddress) : Nat := steps.findIdx fun x => x.makes m

/-- The steps of a run account for the addresses of the devices that are tracked after it. -/
structure Accounts (steps : List Step) (l : List MacAddress) : Prop where
  made : ∀ m ∈ l, ∃ x ∈ steps, x.makes m = true
  newest : l.Pairwise fun m m' => sinceMade steps m < sinceMade steps m'
  heard : ∀ m, m ∈ l ↔ HeardSince steps m

namespace Accounts

variable {steps : List Step} {l l' : List MacAddress} {x : Step}

theorem nil : Accounts [] [] where
  made := by simp
  newest := .nil
  heard m := by simp [HeardSince]

theorem step (h : Accounts steps l) (hx : x.Updates l l') : Accounts (x :: steps) l' := by
  have hmem : ∀ m, m ∈ l' ↔ m ∈ newcomers x.events ∨ m ∈ l ∧ x.drops m = false := by
    intro m
    simp [hx.order]
  have hold : ∀ m ∈ l, sinceMade (x :: steps) m = sinceMade steps m + 1 := by
    intro m hm
    have hnot : x.makes m = false := by
      simpa [Step.makes] using fun hnew : m ∈ newcomers x.events => hx.fresh m hnew hm
    simp [sinceMade, List.findIdx_cons, hnot]
  have hnew : ∀ m ∈ newcomers x.events, sinceMade (x :: steps) m = 0 := by
    intro m hm
    have hmakes : x.makes m = true := by simpa [Step.makes] using hm
    simp [sinceMade, List.findIdx_cons, hmakes]
  refine ⟨fun m hm => ?_, ?_, fun m => ?_⟩
  · obtain hnew | ⟨hm, -⟩ := (hmem m).1 hm
    · exact ⟨x, by simp, by simpa [Step.makes] using hnew⟩
    · obtain ⟨y, hy, hmakes⟩ := h.made m hm
      exact ⟨y, by simp [hy], hmakes⟩
  · rw [hx.order, List.pairwise_append]
    refine ⟨?_, ?_, fun m hm m' hm' => ?_⟩
    · match newcomers x.events, hx.single with
      | [], _ => exact .nil
      | [m], _ => exact List.pairwise_singleton _ m
      | _ :: _ :: _, hsingle => simp at hsingle
    · refine (h.newest.filter _).imp_of_mem fun {m m'} hm hm' hlt => ?_
      rw [hold m (List.mem_filter.1 hm).1, hold m' (List.mem_filter.1 hm').1]
      omega
    · rw [hnew m hm, hold m' (List.mem_filter.1 hm').1]
      omega
  · rw [heardSince_cons, ← h.heard]
    constructor
    · intro hm
      obtain hnew | ⟨hm, hdrops⟩ := (hmem m).1 hm
      · exact .inl (hx.accepted m hnew)
      · exact .inr ⟨hdrops, hm⟩
    · intro hgiven
      rcases hgiven with haccepts | ⟨hdrops, hm⟩
      · exact hx.tracked m haccepts
      · exact (hmem m).2 (.inr ⟨hm, hdrops⟩)

end Accounts

namespace Survey

variable {s t : Survey} {c c' : Chronicle}

def addressesByAge (s : Survey) (c : Chronicle) : List MacAddress :=
  c.ages.filterMap (addressIn s.devices)

theorem mem_addressesByAge (hs : s.Indexed c) {m : MacAddress} :
    m ∈ s.addressesByAge c ↔ (s.addresses.find? m).isSome := by
  simp only [addressesByAge, List.mem_filterMap, Option.isSome_iff_exists, hs.roster.tells m]
  constructor
  · intro hgiven
    rcases hgiven with ⟨i, -, hi⟩
    exact ⟨i, hi⟩
  · intro hgiven
    rcases hgiven with ⟨i, hi⟩
    obtain ⟨d, hd, -⟩ := Option.map_eq_some_iff.1 hi
    exact ⟨i, (hs.roster.mem i).2 (by simp [hd]), hi⟩

theorem addressesByAge_of_view (hv : t.devices.view Device.address = s.devices.view Device.address)
    (hages : c'.ages = c.ages) : t.addressesByAge c' = s.addressesByAge c := by
  rw [addressesByAge, hages, addressIn_of_view hv, addressesByAge]

theorem Arrives.addressIn {f : Frame} {i : Nat} {d : Device} {events : List Event}
    (m : s.Arrives c f i d t c' events) (hs : s.Indexed c) {j : Nat}
    (hj : (s.devices.at? j).isSome) :
    AirSurvey.addressIn t.devices j = AirSurvey.addressIn s.devices j := by
  by_cases hji : j = i
  · subst hji
    rw [AirSurvey.addressIn, m.device, Option.map_some, m.address hs]
    cases m with
    | revisits hfind => exact ((hs.roster.tells _ j).1 hfind).symm
    | admits _ ht => simp [ht.vacant] at hj
  · have hcore := congrArg (Option.map Device.address) (m.others hji)
    simpa [AirSurvey.addressIn, Function.comp_def, Device.core] using hcore

theorem Arrives.addressesByAge {f : Frame} {i : Nat} {d : Device} {events : List Event}
    (m : s.Arrives c f i d t c' events) (hs : s.Indexed c) :
    t.addressesByAge c' = newcomers events ++ s.addressesByAge c ∧
      (newcomers events = [] ∨ newcomers events = [f.source] ∧ f.source ∉ s.addressesByAge c) ∧
      leavers events = [] := by
  have hsame : c.ages.filterMap (AirSurvey.addressIn t.devices) = s.addressesByAge c :=
    List.filterMap_congr fun j hj => m.addressIn hs ((hs.roster.mem j).1 hj)
  have hi : AirSurvey.addressIn t.devices i = some f.source := by
    simp [AirSurvey.addressIn, m.device, m.address hs]
  cases m with
  | revisits => exact ⟨hsame, .inl rfl, rfl⟩
  | admits hfind =>
    refine ⟨?_, .inr ⟨rfl, ?_⟩, rfl⟩
    · rw [Survey.addressesByAge, List.filterMap_cons_some hi, hsame]
      rfl
    · rw [mem_addressesByAge hs, hfind]
      simp

theorem Sweeps.mem_leavers {now : Timestamp} {timeout : UInt32} {u : Survey} {events : List Event}
    {n : Nat} (m : Sweeps now timeout c.ages s c u c' events n) (hs : s.Indexed c) {j : Nat}
    {a : MacAddress} (ha : addressIn s.devices j = some a) :
    a ∈ leavers events ↔ s.stale now timeout j = true := by
  rw [m.leavers_eq (hs.roster.woven.spells ()).nodup, List.mem_filterMap]
  constructor
  · intro hgiven
    rcases hgiven with ⟨k, hk, hka⟩
    obtain rfl := Option.some.inj (((hs.roster.tells a k).2 hka).symm.trans
      ((hs.roster.tells a j).2 ha))
    exact (List.mem_filter.1 hk).2
  · intro hstale
    obtain ⟨d, hd, -⟩ := Option.map_eq_some_iff.1 ha
    exact ⟨j, List.mem_filter.2 ⟨(hs.roster.mem j).2 (by simp [hd]), hstale⟩, ha⟩

/-- An order of devices, told by their addresses, loses those that are recorded as evicted. -/
theorem Sweeps.addressIn {now : Timestamp} {timeout : UInt32} {u : Survey} {events : List Event}
    {n : Nat} (m : Sweeps now timeout c.ages s c u c' events n) (hs : s.Sound c) (hu : u.Indexed c')
    (l : List Nat) :
    (l.filter fun j => !s.stale now timeout j).filterMap (addressIn (u.swept c' n).devices) =
      (l.filterMap (addressIn s.devices)).filter fun a => !(leavers events).contains a := by
  have hthinned := (m.swept_thinned hs hu).1
  rw [List.filterMap_filter, List.filter_filterMap]
  refine List.filterMap_congr fun j _ => ?_
  cases hgone : s.stale now timeout j with
  | true =>
    cases ha : AirSurvey.addressIn s.devices j with
    | none => rfl
    | some a => simpa [Option.filter_some, hgone] using m.mem_leavers hs.toIndexed ha
  | false =>
    rw [hthinned.addressIn_eq (fun _ => rfl) hgone]
    cases ha : AirSurvey.addressIn s.devices j with
    | none => rfl
    | some a => simpa [Option.filter_some, hgone] using m.mem_leavers hs.toIndexed ha

theorem Sweeps.addressesByAge {now : Timestamp} {timeout : UInt32} {u : Survey}
    {events : List Event} {n : Nat} (m : Sweeps now timeout c.ages s c u c' events n)
    (hs : s.Sound c) (hu : u.Indexed c') :
    (u.swept c' n).addressesByAge c' =
      (s.addressesByAge c).filter fun a => !(leavers events).contains a := by
  have hages : c'.ages = c.ages.filter fun j => !s.stale now timeout j := by
    rw [(m.swept_thinned hs hu).2]
    rfl
  rw [Survey.addressesByAge, Survey.addressesByAge, hages, m.addressIn hs hu]

theorem Becomes.updates {o : Operation} {events : List Event} {answer : Except Refusal Reply}
    (m : s.Becomes c o t c' events answer) (hs : s.Sound c) :
    (Step.mk o events answer).Updates (s.addressesByAge c) (t.addressesByAge c') := by
  cases m with
  | @refuses f r =>
    obtain ⟨hnew, hleave⟩ := Quiet.refusalNews f r
    exact .of_not_accepts hnew (by simp [Step.drops, hleave]) fun _ => rfl
  | @observes f i d e s₁ _ c₁ _ e₁ e₂ _ harrives hindexed hsettles hdevice =>
    obtain ⟨horder, hsource, hleave⟩ := harrives.addressesByAge hs.toIndexed
    obtain ⟨hnew₂, hleave₂⟩ := hsettles.quiet
    have hview := Pool.view_eq_comp hsettles.touched.view fun y => y.2.1
    have hsame := addressesByAge_of_view hview hsettles.frame.2.2.2
    have hmem : f.source ∈ t.addressesByAge c' := by
      rw [hsame, mem_addressesByAge hindexed, Option.isSome_iff_exists]
      exact ⟨i, (hindexed.roster.found _ i).2 ⟨d, harrives.device, harrives.address hs.toIndexed⟩⟩
    refine ⟨?_, ?_, ?_, ?_, ?_⟩
    · simp [hsame, horder, hnew₂, hleave, hleave₂, Step.drops]
    · obtain hnone | ⟨hone, -⟩ := hsource
      · simp [hnone, hnew₂]
      · simp [hone, hnew₂]
    · obtain hnone | ⟨hone, hnot⟩ := hsource
      · simp [hnone, hnew₂]
      · simp [hone, hnew₂, hnot]
    · obtain hnone | ⟨hone, -⟩ := hsource
      · simp [hnone, hnew₂]
      · simp [hone, hnew₂, Step.accepts]
    · simpa [Step.accepts] using hmem
  | sweeps hoperation hsweeps hindexed =>
    obtain ⟨hnew, hleave⟩ := hsweeps.swept_records
    have horder := hsweeps.addressesByAge hs hindexed
    rw [← hleave] at horder
    obtain rfl | ⟨rfl, -⟩ := hoperation
    · exact .of_not_accepts hnew horder fun _ => rfl
    · exact .of_not_accepts hnew horder fun _ => rfl
  | purges =>
    have hsame : s.purgeNetworks.2.addressesByAge c = s.addressesByAge c := rfl
    exact .of_not_accepts rfl (by simp [hsame, Step.drops, leavers]) fun _ => rfl
  | clears => exact .of_not_accepts rfl (by simp [Survey.addressesByAge, Step.drops]) fun _ => rfl

end Survey

theorem play_accounts (settings : Settings) (ops : List Operation) :
    ∃ h c, play settings ops = .ok h ∧ h.survey.Sound c ∧
      Accounts h.steps (h.survey.addressesByAge c) :=
  play_run (P := fun h c => Accounts h.steps (h.survey.addressesByAge c)) settings .nil
    (fun _ _ _ _ _ _ _ hs haccounts hbecomes _ => haccounts.step (hbecomes.updates hs)) ops

/-- After every run the addresses, the ages and the handles tell the same devices: those that were
heard since they were last dropped, the one that was made last first. -/
theorem play_tracks (settings : Settings) (ops : List Operation) :
    ∃ s steps ages, play settings ops = .ok ⟨s, steps⟩ ∧
      (∀ m i, s.addresses.find? m = some i ↔ ∃ d, s.devices.at? i = some d ∧ d.address = m) ∧
      s.ages.toList s.devices = .ok ages ∧ ages.Nodup ∧
      (∀ i, i ∈ ages ↔ (s.devices.at? i).isSome) ∧
      s.allDevices = .ok (ages.filterMap s.devices.at?) ∧
      (ages.filterMap s.devices.at?).Pairwise
        (fun d e => sinceMade steps d.address < sinceMade steps e.address) ∧
      (∀ i d, s.devices.at? i = some d → ∃ x ∈ steps, x.makes d.address = true) ∧
      (∀ i d, s.devices.at? i = some d → s.devices.handleAt? i = some d.id) ∧
      (∀ m, (s.addresses.find? m).isSome ↔ HeardSince steps m) ∧
      (∀ i j d e, s.devices.at? i = some d → s.devices.at? j = some e → d.address = e.address →
        i = j) ∧
      ∀ i d, s.devices.at? i = some d → d.address.isZero = false ∧ d.address.isGroup = false := by
  obtain ⟨⟨s, steps⟩, c, hplay, hs, haccounts⟩ := play_accounts settings ops
  have hroster := hs.roster
  have hspells := hroster.woven.spells ()
  have haddresses : s.addressesByAge c = (c.ages.filterMap s.devices.at?).map Device.address := by
    rw [List.map_filterMap]
    rfl
  have hnewest := haccounts.newest
  rw [haddresses, List.pairwise_map] at hnewest
  refine ⟨s, steps, c.ages, hplay, hroster.found, hspells.toList, hspells.nodup, hroster.mem,
    Survey.allDevices_eq hs.toIndexed, hnewest, fun i d hd => ?_, hroster.handle, fun m => ?_,
    fun i j d e => hroster.address_inj, hroster.single⟩
  · refine haccounts.made d.address ?_
    rw [haddresses]
    exact List.mem_map_of_mem (List.mem_filterMap.2 ⟨i, (hroster.mem i).2 (by simp [hd]), hd⟩)
  · rw [← Survey.mem_addressesByAge hs.toIndexed]
    exact haccounts.heard m

end AirSurvey

import AirSurvey.Proofs.Survey.Splitting
import AirSurvey.Proofs.Survey.Bystanders

set_option autoImplicit false

/-!
Retransmissions. A frame that is taken in is taken in again if it comes again, whatever there is room
for: its device is known by then, is in the network that the frame names and on the channel that it
was heard on, and has its access point. All that the second reception does is to count.
-/

namespace AirSurvey

/-! ## What a device counts -/

/-- The strengths that `s` has seen, with the counts and the averages of `t`. -/
def Signal.withCounts (s t : Signal) : Signal := { t with max := s.max }

def Profile.withCounts (p q : Profile) : Profile :=
  { p with
    frameCount := q.frameCount
    signal := p.signal.withCounts q.signal
    retries := q.retries
    mesh := { p.mesh with olsrCount := q.mesh.olsrCount } }

theorem nextCount_ne_zero (n : UInt32) : nextCount n ≠ 0 := by
  intro h
  have hcount := nextCount_toNat n
  rw [h] at hcount
  split at hcount
  · next hn => simp [← hcount] at hn
  · simp at hcount

theorem Signal.record_again (s : Signal) (sample : Int8) (weight : Float32) :
    (s.record sample weight).record sample weight =
      (s.record sample weight).withCounts ((s.record sample weight).record sample weight) := by
  have hmax : ((s.record sample weight).record sample weight).max = (s.record sample weight).max := by
    have hcount : (s.record sample weight).count ≠ 0 := nextCount_ne_zero _
    have hle : ¬ (s.record sample weight).max < sample := by
      unfold record
      dsimp only
      split
      · exact Int8.lt_irrefl
      · next h => exact fun hlt => h (.inr hlt)
    exact if_neg (not_or.2 ⟨hcount, hle⟩)
  rw [withCounts, ← hmax]

theorem TrafficKinds.union_again (x y : TrafficKinds) : x ∪ y ∪ y = x ∪ y := by
  change TrafficKinds.mk (x.bits ||| y.bits ||| y.bits) = ⟨x.bits ||| y.bits⟩
  rw [UInt32.or_assoc, UInt32.or_self]

theorem or_again {α : Type} (x y : Option α) : x.or (x.or y) = x.or y := by
  rw [← Option.or_assoc, Option.or_self]

theorem getD_again {α : Type} (x : Option α) (y : α) : x.getD (x.getD y) = x.getD y := by
  cases x <;> rfl

theorem Profile.nextChannel_again (known : Option UInt8) (f : Frame) :
    nextChannel (nextChannel known f) f = nextChannel known f := by
  unfold nextChannel
  split
  · exact or_again _ _
  · cases known <;> cases f.channel <;> rfl

theorem Profile.absorb_again (p : Profile) (f : Frame) (weight : Float32) :
    (p.absorb f weight).absorb f weight =
      (p.absorb f weight).withCounts ((p.absorb f weight).absorb f weight) := by
  have hsignal := p.signal.record_again f.signal weight
  have hmesh : (p.mesh.absorb f).absorb f =
      { p.mesh.absorb f with olsrCount := ((p.mesh.absorb f).absorb f).olsrCount } := by
    simp only [MeshProfile.absorb, or_again, getD_again, Bool.or_assoc, Bool.or_self]
  simp only [withCounts, absorb, ← hsignal, ← hmesh, TrafficKinds.union_again, or_again,
    getD_again, nextChannel_again, Bool.or_assoc, Bool.or_self]

namespace Survey

variable {s t : Survey} {c c' : Chronicle} {f : Frame} {i : Nat} {d : Device} {events : List Event}

/-- The device `d` in slot `i` is where the frame `f` puts it. -/
structure Current (s : Survey) (c : Chronicle) (f : Frame) (i : Nat) (d : Device) : Prop where
  valid : f.validate = .ok ()
  found : s.addresses.find? f.source = some i
  device : s.devices.at? i = some d
  absorbed : ∃ p : Profile, d.profile = p.absorb f s.settings.weight
  named : ∀ name, f.visibleName = some name → ∃ n, s.networkOf? d = some n ∧ n.name = name
  tuned : ∀ channel, f.channel = some channel → channel ∈ s.channels.channelsAt c.heard i
  aimed : d.accessPoint = s.aimOf d

theorem Becomes.current (m : s.Becomes c (.observe f) t c' events (.ok (.device d)))
    (hs : s.Sound c) (ht : t.Sound c') : ∃ i, t.Current c' f i d := by
  cases m with
  | @observes _ i d₁ _ s₁ _ c₁ _ _ _ hrefusal harrives hindexed hsettles hd =>
    have hsource := harrives.address hs.toIndexed
    have hi := (hindexed.roster.found f.source i).2 ⟨d₁, harrives.device, hsource⟩
    have hfind : t.addresses.find? f.source = some i := by rw [hsettles.frame.2.1, hi]
    have hsettings : t.settings = s.settings := hsettles.frame.1.trans harrives.frame.1
    have hknown := dossier_of_observed harrives hsettles hs.toIndexed hindexed f.source
    rw [if_pos rfl, Survey.dossier, hfind, Option.bind_some, Survey.dossierAt, hd, Option.map_some,
      Option.some.injEq] at hknown
    obtain ⟨hprofile, hname, hchannels⟩ := Dossier.mk.inj hknown
    refine ⟨i, (refusalOf_eq_none_iff.1 hrefusal).1, hfind, hd, ?_, fun name hvisible => ?_,
      fun channel hchannel => ?_, hsettles.accessPoint hd⟩
    · rw [hsettings, hprofile]
      cases s.dossier c f.source with
      | none => exact ⟨.blank f, rfl⟩
      | some x => exact ⟨x.profile, rfl⟩
    · rw [hvisible, Option.some_or] at hname
      exact Option.map_eq_some_iff.1 hname
    · rw [hchannels, List.mem_append, Frame.newChannel, hchannel, Option.filter_some]
      by_cases hknown : channel ∈ ((s.dossier c f.source).map Dossier.channels).getD []
      · exact .inl hknown
      · simp [hknown]

theorem Current.accepted (m : s.Current c f i d) (hs : s.Indexed c) : s.refusalOf c f = none := by
  refine refusalOf_eq_none_iff.2 ⟨m.valid, lacking_eq_none_iff.2 ⟨fun hnone => ?_,
    fun name hname => ?_, fun channel hchannel hnot => ?_⟩, fun j e hj he => ?_⟩
  · rw [m.found] at hnone
    cases hnone
  · obtain ⟨n, hn, rfl⟩ := m.named name hname
    obtain ⟨h, -, hh⟩ := Option.bind_eq_some_iff.1 hn
    have hfind := (hs.grouping.find?_eq_some_iff n.name.text h).2 ⟨n, hh, rfl⟩
    rw [NetworkTable.hasRoomFor, hfind, Option.isSome_some, Bool.or_true]
  · exact absurd (m.tuned channel hchannel) (hnot i m.found)
  · obtain rfl := Option.some.inj (m.found.symm.trans hj)
    obtain rfl := Option.some.inj (m.device.symm.trans he)
    obtain ⟨p, hp⟩ := m.absorbed
    rw [hp]
    exact UInt32.lt_irrefl _

/-- Every network is noted as what its members make it. -/
def SplitsNoted (s : Survey) (c : Chronicle) : Prop :=
  ∀ h n, s.networks.get? h = some n → NetworkTable.splitAmong s.devices
    (picked (networkSlot s.devices) c.joined h.index) = n.isSplit

theorem splitsNoted_of_honest (hs : s.Indexed c) (hx : (s.outlook c).Honest) :
    s.SplitsNoted c := by
  intro h n hn
  rw [splitAmong_outlook hs, members_outlook hs hn, Bool.eq_iff_iff,
    ← hs.grouping.mem_splitNames_iff hn]
  exact (hx n.name).symm

theorem LooksAnew.eq_self (m : s.LooksAnew c d t events) (hs : s.Indexed c)
    (hd : s.devices.at? i = some d) (hnoted : s.SplitsNoted c) : t = s ∧ events = [] := by
  cases m with
  | outside => exact ⟨rfl, rfl⟩
  | @inside h isSplit hnetwork hsplit =>
    obtain ⟨n, hn⟩ := hs.exists_network hd hnetwork
    have hmark : n.isSplit = isSplit := (hnoted h n hn).symm.trans hsplit
    have hpool : s.networks.pool.modifyAt h.index (.marked isSplit) = s.networks.pool := by
      refine Pool.modifyAt_eq_self fun x hx => ?_
      obtain rfl := Option.some.inj (((Pool.get?_eq_some_iff _ _ _).1 hn).2.symm.trans hx)
      rw [Network.marked, ← hmark]
    refine ⟨by rw [hpool], ?_⟩
    rw [NetworkTable.splitNews, hn, Option.map_some, Network.core, hmark]
    cases isSplit <;> rfl

theorem Settles.eq_self (m : s.Settles c f i d t c' events) (hs : s.Indexed c)
    (hnoted : s.SplitsNoted c) (hd : s.devices.at? i = some d)
    (hnamed : ∀ name, f.visibleName = some name → ∃ n, s.networkOf? d = some n ∧ n.name = name)
    (htuned : ∀ channel, f.channel = some channel → channel ∈ s.channels.channelsAt c.heard i)
    (haimed : d.accessPoint = s.aimOf d) : t = s ∧ c' = c ∧ events = [] := by
  obtain ⟨hname, hchannel, hd₂, hlook⟩ := m
  cases hname with
  | moves hvisible hother =>
    obtain ⟨n, hn, rfl⟩ := hnamed _ hvisible
    exact absurd rfl (hother n hn)
  | stays =>
    cases hchannel with
    | tunes hchannel hother => exact absurd (htuned _ hchannel) hother
    | stays =>
      obtain rfl := Option.some.inj (hd.symm.trans hd₂)
      have hdevice : { d with accessPoint := s.aimOf d } = d := by rw [← haimed]
      have hsame : s.aimed i d = s := by
        rw [aimed, Pool.modifyAt_eq_self]
        intro x hx
        obtain rfl := Option.some.inj (hd.symm.trans hx)
        exact hdevice
      rw [hsame, hdevice] at hlook
      obtain ⟨rfl, rfl⟩ := hlook.eq_self hs hd hnoted
      exact ⟨rfl, rfl, rfl⟩

theorem splitAmong_of_cells {p q : DevicePool}
    (hv : (q.view fun d => d.profile.adHocCell) = p.view fun d => d.profile.adHocCell)
    (slots : List Nat) : NetworkTable.splitAmong q slots = NetworkTable.splitAmong p slots := by
  have hcells : ∀ r : DevicePool, NetworkTable.adHocCells (slots.filterMap r.at?) =
      slots.filterMap fun i => ((r.at? i).map fun d => d.profile.adHocCell).bind id := by
    intro r
    simp only [NetworkTable.adHocCells, List.filterMap_filterMap, Option.bind_map]
    rfl
  simp only [NetworkTable.splitAmong, hcells, Pool.at?_map_of_view_eq hv]

/-- `s` with the counts of a profile for the device in slot `i`. -/
def recounted (s : Survey) (i : Nat) (q : Profile) : Survey :=
  { s with devices := s.devices.modifyAt i fun d => { d with profile := d.profile.withCounts q } }

theorem SplitsNoted.recounted (h : s.SplitsNoted c) (i : Nat) (q : Profile) :
    (s.recounted i q).SplitsNoted c := by
  intro k n hn
  have hslots : networkSlot (s.recounted i q).devices = networkSlot s.devices :=
    networkSlot_of_view (Pool.view_modifyAt_of_eq _ _ _ _ fun _ => rfl)
  have hcells : ((s.recounted i q).devices.view fun d => d.profile.adHocCell) =
      s.devices.view fun d => d.profile.adHocCell :=
    Pool.view_modifyAt_of_eq _ _ _ _ fun _ => rfl
  rw [hslots, splitAmong_of_cells hcells]
  exact h k n hn

theorem aimOf_recounted (s : Survey) (i : Nat) (d : Device) (q : Profile) :
    (s.recounted i q).aimOf { d with profile := d.profile.withCounts q } = s.aimOf d := by
  have hhandle : (s.recounted i q).handleOf? = s.handleOf? := funext fun a =>
    congrArg (Option.bind _) (funext fun j => Pool.handleAt?_modifyAt _ _ j _)
  rw [aimOf, aimOf, hhandle]
  rfl

theorem Current.observe_again (m : s.Current c f i d) (hs : s.Sound c)
    (hx : (s.outlook c).Honest) {q : Profile} (hq : q = d.profile.absorb f s.settings.weight) :
    d.profile.withCounts q = q ∧ (observe f).run s =
      .ok ⟨s.recounted i q, [], .ok { d with profile := d.profile.withCounts q }⟩ := by
  have hcounts : d.profile.withCounts q = q := by
    obtain ⟨p, hp⟩ := m.absorbed
    rw [hq, hp]
    exact (p.absorb_again f _).symm
  refine ⟨hcounts, ?_⟩
  obtain ⟨j, d₁, s₁, c₁, e₁, t, c', e₂, e, hrun, harrives, hindexed, hsettles, he, -⟩ :=
    observe_accepted hs (m.accepted hs.toIndexed)
  cases harrives with
  | admits hfind =>
    rw [m.found] at hfind
    cases hfind
  | @revisits _ d₀ hfind hd₀ =>
    obtain rfl := Option.some.inj (m.found.symm.trans hfind)
    obtain rfl := Option.some.inj (m.device.symm.trans hd₀)
    have hstate : { s with
        devices := s.devices.modifyAt i fun x =>
          { x with profile := x.profile.absorb f s.settings.weight } } = s.recounted i q := by
      rw [Survey.recounted, Pool.modifyAt_congr fun x hx => ?_]
      obtain rfl := Option.some.inj (m.device.symm.trans hx)
      rw [hcounts, hq]
    rw [hstate, ← hq, ← hcounts] at hsettles
    rw [hstate] at hindexed
    have hdevice : (s.recounted i q).devices.at? i =
        some { d with profile := d.profile.withCounts q } := by
      rw [Survey.recounted, Pool.at?_modifyAt, if_pos rfl, m.device, Option.map_some]
    obtain ⟨rfl, rfl, rfl⟩ := hsettles.eq_self hindexed
      ((splitsNoted_of_honest hs.toIndexed hx).recounted i q) hdevice m.named m.tuned
      (m.aimed.trans (aimOf_recounted s i d q).symm)
    obtain rfl := Option.some.inj (hdevice.symm.trans he)
    exact hrun

end Survey

/-- A frame that is taken in is taken in again if it comes again at once, whatever there is room for.
This leaves no record, and changes nothing but counts of its sender: how many frames, samples and
retries there were, the sum and the moving average of the samples, and how many frames of mesh
routing. -/
theorem play_repeats (settings : Settings) (ops : List Operation) (f : Frame) :
    ∃ h t events answer, play settings ops = .ok h ∧
      (Survey.observe f).run h.survey = .ok ⟨t, events, answer⟩ ∧ ∀ d, answer = .ok d →
        ∃ i u e, (Survey.observe f).run t = .ok ⟨u, [], .ok e⟩ ∧ t.devices.at? i = some d ∧
          u = t.recounted i e.profile ∧ e = { d with profile := d.profile.withCounts e.profile } := by
  obtain ⟨h, c, hplay, hs, hx⟩ := play_honest settings ops
  obtain ⟨⟨t, events, answer⟩, hrun⟩ := Survey.observe_run hs f
  refine ⟨h, t, events, answer, hplay, hrun, ?_⟩
  rintro d rfl
  obtain ⟨c', hbecomes, ht⟩ := Survey.Becomes.of_observe hs hrun
  obtain ⟨i, hcurrent⟩ := hbecomes.current hs ht
  obtain ⟨hcounts, hagain⟩ := hcurrent.observe_again ht (hbecomes.honest hs ht hx) rfl
  refine ⟨i, _, _, hagain, hcurrent.device, ?_, ?_⟩
  · rw [hcounts]
  · rw [hcounts, hcounts]

end AirSurvey

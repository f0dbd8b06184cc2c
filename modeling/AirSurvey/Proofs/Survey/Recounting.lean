import AirSurvey.Proofs.Survey.Reception
import Mathlib.Algebra.Ring.Int.Defs

set_option autoImplicit false

/-!
What a profile recounts of the frames that were folded into it: some things only of the latest
frame, some as last told, some for good, some counted. After a run the profile of a device recounts
the frames that were taken in from its address since it was made.
-/

namespace AirSurvey

/-- The moving average after samples, the latest of which is first. -/
def Average.after (weight : Float32) (samples : List Int8) : Option Float32 :=
  samples.reverse.foldl
    (fun previous x => some (blend previous (SignedFloat.ofInt x.toInt) weight)) none

theorem Average.after_cons (weight : Float32) (sample : Int8) (samples : List Int8) :
    after weight (sample :: samples) =
      some (blend (after weight samples) (SignedFloat.ofInt sample.toInt) weight) := by
  rw [after, List.reverse_cons, List.foldl_append]
  rfl

theorem nextCount_of_min {c : UInt32} {n : Nat} (h : c.toNat = min n 0xffffffff) :
    (nextCount c).toNat = min (n + 1) 0xffffffff := by
  rw [nextCount_toNat]
  split <;> omega

theorem nextCount_of_countP {c : UInt32} {p : Frame → Bool} {life : List Frame}
    (h : c.toNat = min (life.countP p) 0xffffffff) (f : Frame) :
    (if p f then nextCount c else c).toNat = min ((f :: life).countP p) 0xffffffff := by
  rw [List.countP_cons]
  split
  · exact nextCount_of_min h
  · exact h

theorem findSome?_cons_eq_or {α β : Type} (field : α → Option β) (x : α) (l : List α) :
    (x :: l).findSome? field = (field x).or (l.findSome? field) := by
  rw [List.findSome?_cons]
  cases field x <;> rfl

theorem getD_findSome?_cons {α β : Type} (field : α → Option β) (x : α) (l : List α) (initial : β) :
    ((x :: l).findSome? field).getD initial =
      (field x).getD ((l.findSome? field).getD initial) := by
  rw [findSome?_cons_eq_or, Option.getD_or]

/-- What a signal recounts of samples, the latest of which is first. -/
structure Signal.Recounts (x : Signal) (weight : Float32) (samples : List Int8) : Prop where
  count : x.count.toNat = min samples.length 0xffffffff
  bound : ∀ sample ∈ samples, sample ≤ x.max
  reached : samples ≠ [] → x.max ∈ samples
  sum : x.sum = Int64.ofInt (samples.map Int8.toInt).sum
  average : samples ≠ [] → Average.after weight samples = some x.average

namespace Signal

variable {x : Signal} {weight : Float32} {samples : List Int8}

theorem Recounts.silent (weight : Float32) : silent.Recounts weight [] where
  count := rfl
  bound := by simp
  reached := by simp
  sum := rfl
  average := by simp

theorem Recounts.count_eq_zero_iff (h : x.Recounts weight samples) :
    x.count = 0 ↔ samples = [] := by
  have hcount := h.count
  rw [← UInt32.toNat_inj, ← List.length_eq_zero_iff, UInt32.toNat_zero]
  omega

theorem Recounts.record (h : x.Recounts weight samples) (sample : Int8) :
    (x.record sample weight).Recounts weight (sample :: samples) where
  count := nextCount_of_min h.count
  bound := by
    intro y hy
    simp only [Signal.record]
    obtain rfl | hy := List.mem_cons.1 hy
    · split
      · exact Int8.le_refl _
      · next hnot => exact Int8.not_lt.1 fun hlt => hnot (.inr hlt)
    · have hle := h.bound y hy
      split
      · next hgiven =>
        obtain hzero | hlt := hgiven
        · simp [h.count_eq_zero_iff.1 hzero] at hy
        · exact Int8.le_trans hle (Int8.le_of_lt hlt)
      · exact hle
  reached := by
    intro _
    simp only [Signal.record]
    split
    · exact List.mem_cons_self
    · next hnot =>
      refine List.mem_cons_of_mem _ (h.reached fun hnil => hnot (.inl ?_))
      exact h.count_eq_zero_iff.2 hnil
  sum := by
    rw [Signal.record, List.map_cons, List.sum_cons, Int.add_comm, Int64.ofInt_add, ← h.sum,
      ← Int8.toInt_toInt64, Int64.ofInt_toInt]
  average := by
    intro _
    rw [Average.after_cons, Signal.record]
    by_cases hnil : samples = []
    · rw [if_pos (h.count_eq_zero_iff.2 hnil), hnil]
      rfl
    · rw [if_neg fun hzero => hnil (h.count_eq_zero_iff.1 hzero), h.average hnil]

end Signal

def Frame.advertised (f : Frame) : Option UInt8 :=
  if f.kinds.advertises then f.channel else none

structure MeshProfile.Recounts (m : MeshProfile) (life : List Frame) : Prop where
  batmanGateway : m.batmanGateway = life.any Frame.batmanGateway
  ip : m.ip = life.findSome? Frame.ip
  olsrCount : m.olsrCount.toNat = min (life.countP fun f => f.kinds.contains .olsr) 0xffffffff
  olsrNeighbors : m.olsrNeighbors = (life.findSome? Frame.olsrNeighbors).getD 0
  olsrTopology : m.olsrTopology = (life.findSome? Frame.olsrTopology).getD 0

namespace MeshProfile

theorem Recounts.blank : blank.Recounts [] where
  batmanGateway := rfl
  ip := rfl
  olsrCount := rfl
  olsrNeighbors := rfl
  olsrTopology := rfl

theorem Recounts.absorb {m : MeshProfile} {life : List Frame} (h : m.Recounts life) (f : Frame) :
    (m.absorb f).Recounts (f :: life) where
  batmanGateway := by rw [List.any_cons, Bool.or_comm, ← h.batmanGateway]; rfl
  ip := by rw [findSome?_cons_eq_or, ← h.ip]; rfl
  olsrCount := nextCount_of_countP (p := fun f => f.kinds.contains .olsr) h.olsrCount f
  olsrNeighbors := by rw [getD_findSome?_cons, ← h.olsrNeighbors]; rfl
  olsrTopology := by rw [getD_findSome?_cons, ← h.olsrTopology]; rfl

end MeshProfile

/-- What a profile recounts of frames, the latest of which is first. -/
structure Profile.Recounts (p : Profile) (weight : Float32) (life : List Frame) : Prop where
  latest : ∀ f ∈ life.head?, p.lastSeen = f.timestamp ∧ p.lastRetry = f.retry ∧
    p.sequence = f.sequence ∧ p.lastFrame = f
  inTime : ∀ f ∈ life, f.timestamp ≤ p.lastSeen
  frameCount : p.frameCount.toNat = min life.length 0xffffffff
  kinds : ∀ n, p.kinds.bits.toNat.testBit n = life.any fun f => f.kinds.bits.toNat.testBit n
  signal : p.signal.Recounts weight (life.map Frame.signal)
  bssid : p.bssid = life.findSome? Frame.bssid
  channel : p.channel = (life.findSome? Frame.advertised).or (life.reverse.findSome? Frame.channel)
  mode : p.mode = life.findSome? Frame.mode
  tsf : p.tsf = (life.findSome? Frame.tsf).getD 0
  beaconInterval : p.beaconInterval = (life.findSome? Frame.beaconInterval).getD 0
  width : p.width = (life.findSome? Frame.width).getD .unspecified
  txStreams : p.txStreams = (life.findSome? Frame.txStreams).getD 0
  rxStreams : p.rxStreams = (life.findSome? Frame.rxStreams).getD 0
  retries : p.retries.toNat = min (life.countP Frame.retry) 0xffffffff
  encryption : p.encryption = (life.findSome? Frame.encryption).getD .none
  ht40Plus : p.ht40Plus = life.any Frame.ht40Plus
  mesh : p.mesh.Recounts life

namespace Profile

variable {p : Profile} {weight : Float32} {life : List Frame}

theorem Recounts.blank (f : Frame) (weight : Float32) : (blank f).Recounts weight [] where
  latest := by simp
  inTime := by simp
  frameCount := rfl
  kinds := by simp [Profile.blank, TrafficKinds.none]
  signal := .silent weight
  bssid := rfl
  channel := rfl
  mode := rfl
  tsf := rfl
  beaconInterval := rfl
  width := rfl
  txStreams := rfl
  rxStreams := rfl
  retries := rfl
  encryption := rfl
  ht40Plus := rfl
  mesh := .blank

/-- The channel announced last goes before the one heard of first. -/
theorem nextChannel_eq (life : List Frame) (f : Frame) :
    nextChannel ((life.findSome? Frame.advertised).or (life.reverse.findSome? Frame.channel)) f =
      ((f :: life).findSome? Frame.advertised).or ((f :: life).reverse.findSome? Frame.channel) := by
  rw [findSome?_cons_eq_or, List.reverse_cons, List.findSome?_append, findSome?_cons_eq_or,
    List.findSome?_nil, Option.or_none, nextChannel, Frame.advertised]
  split
  · cases f.channel <;> simp
  · rw [Option.none_or, Option.or_assoc]

theorem Recounts.absorb (h : p.Recounts weight life) {f : Frame}
    (hclock : life ≠ [] → p.lastSeen ≤ f.timestamp) :
    (p.absorb f weight).Recounts weight (f :: life) where
  latest := by
    intro g hg
    obtain rfl := Option.some.inj hg
    exact ⟨rfl, rfl, rfl, rfl⟩
  inTime := by
    intro g hg
    obtain rfl | hg := List.mem_cons.1 hg
    · exact UInt32.le_refl _
    · exact UInt32.le_trans (h.inTime g hg) (hclock (List.ne_nil_of_mem hg))
  frameCount := nextCount_of_min h.frameCount
  kinds := by
    intro n
    rw [List.any_cons, ← h.kinds n, Bool.or_comm, ← Nat.testBit_or, ← UInt32.toNat_or]
    rfl
  signal := h.signal.record f.signal
  bssid := by rw [findSome?_cons_eq_or, ← h.bssid]; rfl
  channel := by rw [← nextChannel_eq, ← h.channel]; rfl
  mode := by rw [findSome?_cons_eq_or, ← h.mode]; rfl
  tsf := by rw [getD_findSome?_cons, ← h.tsf]; rfl
  beaconInterval := by rw [getD_findSome?_cons, ← h.beaconInterval]; rfl
  width := by rw [getD_findSome?_cons, ← h.width]; rfl
  txStreams := by rw [getD_findSome?_cons, ← h.txStreams]; rfl
  rxStreams := by rw [getD_findSome?_cons, ← h.rxStreams]; rfl
  retries := nextCount_of_countP h.retries f
  encryption := by rw [getD_findSome?_cons, ← h.encryption]; rfl
  ht40Plus := by rw [List.any_cons, Bool.or_comm, ← h.ht40Plus]; rfl
  mesh := h.mesh.absorb f

end Profile

/-- The frames that were taken in from `m` since a device with that address was made last, the
latest first. -/
def framesSince (steps : List Step) (m : MacAddress) : List Frame :=
  (steps.take (sinceMade steps m + 1)).filterMap fun x => x.takenFrom? m

theorem framesSince_of_makes {x : Step} {m : MacAddress} (h : x.makes m = true)
    (steps : List Step) : framesSince (x :: steps) m = (x.takenFrom? m).toList := by
  have hsince : sinceMade (x :: steps) m = 0 := by simp [sinceMade, List.findIdx_cons, h]
  cases htaken : x.takenFrom? m <;> simp [framesSince, hsince, htaken]

theorem framesSince_of_not_makes {x : Step} {m : MacAddress} (h : x.makes m = false)
    (steps : List Step) :
    framesSince (x :: steps) m = (x.takenFrom? m).toList ++ framesSince steps m := by
  have hsince : sinceMade (x :: steps) m = sinceMade steps m + 1 := by
    simp [sinceMade, List.findIdx_cons, h]
  cases htaken : x.takenFrom? m <;> simp [framesSince, hsince, htaken]

theorem source_of_mem_framesSince {steps : List Step} {m : MacAddress} {f : Frame}
    (h : f ∈ framesSince steps m) : f.source = m := by
  obtain ⟨x, -, hx⟩ := List.mem_filterMap.1 h
  simpa using (Option.filter_eq_some_iff.1 hx).2

namespace Survey

variable {s t : Survey} {c c' : Chronicle} {o : Operation} {events : List Event}
  {answer : Except Refusal Reply}

theorem Becomes.inTime (m : s.Becomes c o t c' events answer) {a : MacAddress} {f : Frame}
    (hf : (Step.mk o events answer).takenFrom? a = some f) {x : Dossier}
    (hx : s.dossier c a = some x) : x.profile.lastSeen ≤ f.timestamp := by
  cases m with
  | refuses => simp [Step.takenFrom?, Step.taken?] at hf
  | observes _ harrives =>
    rw [Step.takenFrom?_accepted] at hf
    split at hf
    · next hsource =>
      obtain rfl := Option.some.inj hf
      subst hsource
      rw [harrives.dossier_source] at hx
      cases harrives with
      | revisits _ hd hclock =>
        rw [dossierAt, hd, Option.map_some] at hx
        obtain rfl := Option.some.inj hx
        exact UInt32.not_lt.1 hclock
      | admits _ ht => simp [dossierAt, ht.vacant] at hx
    · cases hf
  | sweeps hoperation =>
    obtain rfl | ⟨rfl, -⟩ := hoperation <;> simp [Step.takenFrom?, Step.taken?] at hf
  | purges => simp [Step.takenFrom?, Step.taken?] at hf
  | clears => simp [Step.takenFrom?, Step.taken?] at hf

theorem isSome_dossier (hs : s.Indexed c) {m : MacAddress} :
    (s.dossier c m).isSome ↔ m ∈ s.addressesByAge c := by
  rw [mem_addressesByAge hs, dossier]
  cases hfind : s.addresses.find? m with
  | none => simp
  | some i =>
    obtain ⟨d, hd, -⟩ := (hs.roster.found m i).1 hfind
    simp [dossierAt, hd]

theorem Becomes.makes_eq (m : s.Becomes c o t c' events answer) (hs : s.Sound c)
    (ht : t.Indexed c') {a : MacAddress} (ha : (t.dossier c' a).isSome) :
    (Step.mk o events answer).makes a = !(s.dossier c a).isSome := by
  have hupdates := m.updates hs
  rw [isSome_dossier ht, hupdates.order, List.mem_append, List.mem_filter] at ha
  have hmakes : (Step.mk o events answer).makes a = true ↔ a ∈ newcomers events := by
    simp [Step.makes]
  have hknown := isSome_dossier hs.toIndexed (m := a)
  cases hsome : (s.dossier c a).isSome with
  | true =>
    have hnot := fun hnew => hupdates.fresh a hnew (hknown.1 hsome)
    simpa using fun hnew => hnot (hmakes.1 hnew)
  | false =>
    have hnot : a ∉ s.addressesByAge c := fun hmem => by simp [hknown.2 hmem] at hsome
    simpa using hmakes.2 (ha.resolve_right fun hold => hnot hold.1)

end Survey

namespace History

variable {settings : Settings} {h : History} {c c' : Chronicle}

theorem Told.lifeOf_eq_nil (hh : h.Told c) {m : MacAddress}
    (hnone : h.survey.dossier c m = none) : lifeOf h.steps m = [] := by
  rw [hh m] at hnone
  cases hlife : lifeOf h.steps m with
  | nil => rfl
  | cons f earlier => simp [hlife, Dossier.ofLife] at hnone

/-- A life begins when a device is made, and the profile of the device recounts it. -/
structure Recounted (settings : Settings) (h : History) (c : Chronicle) : Prop where
  unchanged : h.survey.settings = settings
  told : h.Told c
  begins : ∀ m, (h.survey.dossier c m).isSome → lifeOf h.steps m = framesSince h.steps m
  recounts : ∀ m x, h.survey.dossier c m = some x →
    lifeOf h.steps m ≠ [] ∧ x.profile.Recounts settings.weight (lifeOf h.steps m)

theorem Recounted.new (settings : Settings) : (new settings).Recounted settings ⟨[], [], []⟩ where
  unchanged := rfl
  told := .new settings
  begins _ hm := by cases hm
  recounts _ _ hx := by cases hx

theorem Recounted.step {o : Operation} {t : Survey} {events : List Event}
    {answer : Except Refusal Reply} (hh : h.Recounted settings c) (hs : h.survey.Sound c)
    (m : h.survey.Becomes c o t c' events answer) (ht : t.Indexed c') :
    Recounted settings ⟨t, ⟨o, events, answer⟩ :: h.steps⟩ c' := by
  refine ⟨(m.settings hs).trans hh.unchanged, hh.told.step hs m, fun a ha => ?_, fun a x hx => ?_⟩
  · have hmakes := m.makes_eq hs ht ha
    have hdossier := m.dossier hs a
    rw [lifeOf_cons]
    split
    · next hdrops =>
      rw [if_pos hdrops] at hdossier
      simp [hdossier] at ha
    · cases hknown : h.survey.dossier c a with
      | none =>
        rw [hknown] at hmakes
        rw [framesSince_of_makes hmakes, hh.told.lifeOf_eq_nil hknown, List.append_nil]
      | some y =>
        rw [hknown] at hmakes
        rw [framesSince_of_not_makes hmakes, hh.begins a (by simp [hknown])]
  · have hdossier := m.dossier hs a
    rw [lifeOf_cons]
    split
    · next hdrops =>
      rw [if_pos hdrops] at hdossier
      simp [hdossier] at hx
    · next hdrops =>
      rw [if_neg hdrops] at hdossier
      cases htaken : (Step.mk o events answer).takenFrom? a with
      | none =>
        rw [htaken] at hdossier
        exact hh.recounts a x (hdossier.symm.trans hx)
      | some f =>
        rw [htaken] at hdossier
        obtain rfl := Option.some.inj (hdossier.symm.trans hx)
        refine ⟨List.cons_ne_nil _ _, ?_⟩
        rw [hh.unchanged]
        cases hknown : h.survey.dossier c a with
        | none =>
          rw [hh.told.lifeOf_eq_nil hknown]
          exact (Profile.Recounts.blank f settings.weight).absorb fun hne => absurd rfl hne
        | some y =>
          exact (hh.recounts a y hknown).2.absorb fun _ => m.inTime htaken hknown

end History

/-- After every run the profile of a device recounts exactly the frames that were taken in from its
address since it was made. There is such a frame, and the latest was sent last. -/
theorem play_profiles (settings : Settings) (ops : List Operation) :
    ∃ s steps, play settings ops = .ok ⟨s, steps⟩ ∧
      ∀ i d, s.devices.at? i = some d →
        framesSince steps d.address ≠ [] ∧ (∀ f ∈ framesSince steps d.address, f.source = d.address) ∧
          d.profile.Recounts settings.weight (framesSince steps d.address) := by
  obtain ⟨⟨s, steps⟩, c, hplay, hs, hh⟩ := play_run (P := History.Recounted settings) settings
    (.new settings) (fun _ _ _ _ _ _ _ hs hh hbecomes ht => hh.step hs hbecomes ht.toIndexed) ops
  refine ⟨s, steps, hplay, fun i d hd => ?_⟩
  have hdossier : s.dossier c d.address = _ := (Survey.dossier_of_at? hs.toIndexed hd).trans
    (by rw [Survey.dossierAt, hd, Option.map_some])
  obtain ⟨hne, hrecounts⟩ := hh.recounts d.address _ hdossier
  rw [hh.begins d.address (by rw [hdossier, Option.isSome_some])] at hne hrecounts
  exact ⟨hne, fun _ => source_of_mem_framesSince, hrecounts⟩

end AirSurvey

import AirSurvey.Proofs.Survey.Recounting
import AirSurvey.Proofs.Survey.Repeats
import Mathlib.Algebra.Order.BigOperators.Group.List
import Mathlib.Data.Rat.Cast.Order
import Mathlib.Tactic.FieldSimp
import Mathlib.Tactic.NormNum
import Mathlib.Tactic.Positivity

set_option autoImplicit false

/-!
The plain mean of signal strength: the sum of the samples over their count. The count stays at the
greatest number that it can hold, and the sum goes on. So the quotient is the mean of all samples up
to that number of them, and past it the quotient is too great by as much as there are too many.
-/

namespace AirSurvey

def meanOf (samples : List Int8) : ℚ := ((samples.map Int8.toInt).sum : ℤ) / samples.length

/-- The quotient that the plain mean of a signal rounds. -/
def Signal.quotient (x : Signal) : ℚ := x.sum.toInt / x.count.toNat

section samples

variable {samples : List Int8} {low high : Int8} {x : Signal} {weight : Float32}

theorem sum_bounds (h : ∀ sample ∈ samples, low ≤ sample ∧ sample ≤ high) :
    samples.length * low.toInt ≤ (samples.map Int8.toInt).sum ∧
      (samples.map Int8.toInt).sum ≤ samples.length * high.toInt := by
  have hlow := List.card_nsmul_le_sum (samples.map Int8.toInt) low.toInt fun y hy => by
    obtain ⟨sample, hsample, rfl⟩ := List.mem_map.1 hy
    exact Int8.le_iff_toInt_le.1 (h sample hsample).1
  have hhigh := List.sum_le_card_nsmul (samples.map Int8.toInt) high.toInt fun y hy => by
    obtain ⟨sample, hsample, rfl⟩ := List.mem_map.1 hy
    exact Int8.le_iff_toInt_le.1 (h sample hsample).2
  rw [List.length_map, nsmul_eq_mul] at hlow hhigh
  exact ⟨hlow, hhigh⟩

theorem meanOf_bounds (hne : samples ≠ [])
    (h : ∀ sample ∈ samples, low ≤ sample ∧ sample ≤ high) :
    (low.toInt : ℚ) ≤ meanOf samples ∧ meanOf samples ≤ high.toInt := by
  have hlength : (0 : ℚ) < samples.length := by
    exact_mod_cast List.length_pos_iff.2 hne
  obtain ⟨hlow, hhigh⟩ := sum_bounds h
  rw [meanOf, le_div_iff₀ hlength, div_le_iff₀ hlength, mul_comm, mul_comm (high.toInt : ℚ)]
  exact ⟨by exact_mod_cast hlow, by exact_mod_cast hhigh⟩

/-- The sum of samples does not wrap before there are `2 ^ 56` of them. -/
theorem Signal.Recounts.sum_toInt (h : x.Recounts weight samples)
    (hlength : samples.length ≤ 2 ^ 56) : x.sum.toInt = (samples.map Int8.toInt).sum := by
  have hrange : ∀ sample ∈ samples, Int8.minValue ≤ sample ∧ sample ≤ Int8.maxValue :=
    fun sample _ => ⟨Int8.minValue_le sample, Int8.le_maxValue sample⟩
  obtain ⟨hlow, hhigh⟩ := sum_bounds hrange
  have hmin : Int8.minValue.toInt = -128 := rfl
  have hmax : Int8.maxValue.toInt = 127 := rfl
  rw [hmin] at hlow
  rw [hmax] at hhigh
  rw [h.sum, Int64.toInt_ofInt_of_le] <;> omega

theorem Signal.Recounts.quotient_eq (h : x.Recounts weight samples)
    (hlength : samples.length ≤ 0xffffffff) : x.quotient = meanOf samples := by
  rw [quotient, h.sum_toInt (by omega), h.count, Nat.min_eq_left hlength, meanOf]

/-- Once the count has stopped, the quotient is the mean as many times as there are samples for one
that is counted. -/
theorem Signal.Recounts.quotient_late (h : x.Recounts weight samples)
    (hcount : 0xffffffff ≤ samples.length) (hlength : samples.length ≤ 2 ^ 56) :
    x.quotient = meanOf samples * (samples.length / 0xffffffff) := by
  have hpos : (samples.length : ℚ) ≠ 0 := by
    have hne : samples.length ≠ 0 := by omega
    exact_mod_cast hne
  rw [quotient, h.sum_toInt hlength, h.count, Nat.min_eq_right hcount, meanOf]
  field_simp
  norm_num

theorem meanOf_replicate (n : Nat) (sample : Int8) :
    meanOf (List.replicate (n + 1) sample) = sample.toInt := by
  have hpos : ((n + 1 : ℕ) : ℚ) ≠ 0 := by exact_mod_cast Nat.succ_ne_zero n
  rw [meanOf, List.map_replicate, List.sum_replicate, List.length_replicate, nsmul_eq_mul]
  push_cast at hpos ⊢
  exact mul_div_cancel_left₀ _ hpos

end samples

theorem play_recounted (settings : Settings) (ops : List Operation) :
    ∃ h c, play settings ops = .ok h ∧ h.survey.Sound c ∧ h.Recounted settings c :=
  play_run (P := History.Recounted settings) settings (.new settings)
    (fun _ _ _ _ _ _ _ hs hh hbecomes ht => hh.step hs hbecomes ht.toIndexed) ops

theorem History.Recounted.of_at? {settings : Settings} {h : History} {c : Chronicle}
    (hh : h.Recounted settings c) (hs : h.survey.Indexed c) {i : Nat} {d : Device}
    (hd : h.survey.devices.at? i = some d) :
    lifeOf h.steps d.address = framesSince h.steps d.address ∧
      framesSince h.steps d.address ≠ [] ∧
      d.profile.Recounts settings.weight (framesSince h.steps d.address) := by
  have hdossier : h.survey.dossier c d.address = _ := (Survey.dossier_of_at? hs hd).trans
    (by rw [Survey.dossierAt, hd, Option.map_some])
  have hbegins := hh.begins d.address (by rw [hdossier, Option.isSome_some])
  have hrecounts := hh.recounts d.address _ hdossier
  rw [hbegins] at hrecounts
  exact ⟨hbegins, hrecounts⟩

/-- After every run the plain mean of a device rounds the mean of all its samples, which lies where
they do, as long as they can be counted. When there are more of them, what it rounds is as much
greater than their mean as their number is greater than the greatest count. -/
theorem play_means (settings : Settings) (ops : List Operation) :
    ∃ s steps, play settings ops = .ok ⟨s, steps⟩ ∧ ∀ i d, s.devices.at? i = some d →
      ∃ samples, samples = (framesSince steps d.address).map Frame.signal ∧
        d.profile.signal.count ≠ 0 ∧
        (samples.length ≤ 0xffffffff → d.profile.signal.quotient = meanOf samples ∧
          ∀ low high : Int8, (∀ sample ∈ samples, low ≤ sample ∧ sample ≤ high) →
            low.toInt ≤ d.profile.signal.quotient ∧ d.profile.signal.quotient ≤ high.toInt) ∧
        (0xffffffff ≤ samples.length → samples.length ≤ 2 ^ 56 →
          d.profile.signal.quotient = meanOf samples * (samples.length / 0xffffffff)) := by
  obtain ⟨⟨s, steps⟩, c, hplay, hs, hh⟩ := play_recounted settings ops
  refine ⟨s, steps, hplay, fun i d hd => ⟨_, rfl, ?_⟩⟩
  obtain ⟨-, hne, hrecounts⟩ := hh.of_at? hs.toIndexed hd
  have hsignal := hrecounts.signal
  have hsamples : (framesSince steps d.address).map Frame.signal ≠ [] := by simpa using hne
  refine ⟨fun hzero => hsamples (hsignal.count_eq_zero_iff.1 hzero), fun hlength => ?_,
    hsignal.quotient_late⟩
  have hquotient := hsignal.quotient_eq hlength
  refine ⟨hquotient, fun low high hbounds => ?_⟩
  rw [hquotient]
  exact meanOf_bounds hsamples hbounds

/-! ## More samples than can be counted -/

theorem Survey.Becomes.lifeOf_source {s t : Survey} {c c' : Chronicle} {f : Frame} {d : Device}
    {events : List Event} (m : s.Becomes c (.observe f) t c' events (.ok (.device d)))
    (hs : s.Sound c) (ht : t.Sound c') (steps : List Step) :
    lifeOf (⟨.observe f, events, .ok (.device d)⟩ :: steps) f.source =
      f :: lifeOf steps f.source := by
  obtain ⟨i, hcurrent⟩ := m.current hs ht
  have hknown : t.dossier c' f.source ≠ none := by
    rw [Survey.dossier, hcurrent.found, Option.bind_some, Survey.dossierAt, hcurrent.device]
    exact Option.some_ne_none _
  have hdossier := m.dossier hs f.source
  have hdrops : (Step.mk (.observe f) events (.ok (.device d))).drops f.source ≠ true :=
    fun hdrops => hknown (hdossier.trans (if_pos hdrops))
  rw [lifeOf_cons, if_neg hdrops, Step.takenFrom?_accepted, if_pos rfl]
  rfl

theorem foldlM_repeated {settings : Settings} {h : History} {c : Chronicle} {f : Frame} {i : Nat}
    {d : Device} (hs : h.survey.Sound c) (hx : (h.survey.outlook c).Honest)
    (hcurrent : h.survey.Current c f i d) (hh : h.Recounted settings c) (n : Nat) :
    ∃ h' c' i' d', (List.replicate n (.observe f)).foldlM History.next h = .ok h' ∧
      h'.survey.Sound c' ∧ h'.survey.Current c' f i' d' ∧ h'.Recounted settings c' ∧
      lifeOf h'.steps f.source = List.replicate n f ++ lifeOf h.steps f.source := by
  induction n generalizing h c i d with
  | zero => exact ⟨h, c, i, d, rfl, hs, hcurrent, hh, rfl⟩
  | succ n ih =>
    obtain ⟨t, e, hrun⟩ : ∃ t e, (Survey.observe f).run h.survey = .ok ⟨t, [], .ok e⟩ :=
      ⟨_, _, (hcurrent.observe_again hs hx rfl).2⟩
    obtain ⟨c₁, hbecomes, ht⟩ := Survey.Becomes.of_observe hs hrun
    obtain ⟨j, hnext⟩ := hbecomes.current hs ht
    obtain ⟨h', c', i', d', hrest, hs', hcurrent', hh', hlife⟩ := ih
      (h := ⟨t, ⟨.observe f, [], .ok (.device e)⟩ :: h.steps⟩) ht (hbecomes.honest hs ht hx) hnext
      (hh.step hs hbecomes ht.toIndexed)
    refine ⟨h', c', i', d', ?_, hs', hcurrent', hh', ?_⟩
    · exact (foldlM_cons_of_run (Survey.act_observe hrun) _).trans hrest
    · rw [hlife, hbecomes.lifeOf_source hs ht, List.replicate_succ', List.append_assoc]
      rfl

theorem play_replicate (settings : Settings) (f : Frame)
    (hnew : (Survey.new settings).refusalOf ⟨[], [], []⟩ f = none) (n : Nat) :
    ∃ s steps i d, play settings (List.replicate (n + 1) (.observe f)) = .ok ⟨s, steps⟩ ∧
      s.devices.at? i = some d ∧ framesSince steps d.address = List.replicate (n + 1) f ∧
      d.profile.Recounts settings.weight (List.replicate (n + 1) f) := by
  have hs := Survey.new_sound settings
  obtain ⟨-, -, -, -, e₁, t, -, e₂, e, hrun, -⟩ := Survey.observe_accepted hs hnew
  obtain ⟨c, hbecomes, ht⟩ := Survey.Becomes.of_observe hs hrun
  obtain ⟨i₀, hcurrent⟩ := hbecomes.current hs ht
  obtain ⟨⟨s, steps⟩, c', i, d, hrest, hs', hcurrent', hh, hlife⟩ := foldlM_repeated
    (h := ⟨t, [⟨.observe f, e₁ ++ e₂, .ok (.device e)⟩]⟩) ht
    (hbecomes.honest hs ht (Survey.new_honest settings)) hcurrent
    ((History.Recounted.new settings).step hs hbecomes ht.toIndexed) n
  obtain ⟨d', hd', haddress⟩ := (hs'.roster.found f.source i).1 hcurrent'.found
  obtain rfl := Option.some.inj (hcurrent'.device.symm.trans hd')
  obtain ⟨hbegins, -, hrecounts⟩ := hh.of_at? hs'.toIndexed hd'
  have hframes : framesSince steps d.address = List.replicate (n + 1) f := by
    rw [← hbegins, haddress, List.replicate_succ']
    exact hlife.trans (congrArg _ (hbecomes.lifeOf_source hs ht []))
  rw [hframes] at hrecounts
  refine ⟨s, steps, i, d, ?_, hd', hframes, hrecounts⟩
  exact (foldlM_cons_of_run (Survey.act_observe hrun) _).trans hrest

def Frame.faint : Frame := { Frame.heardAt ⟨2, 0, 0, 0, 0, 1⟩ 0 with signal := -1 }

/-- A device has sent one frame more than can be counted, all of them at −1 dBm, and the quotient is
less than that. -/
theorem mean_of_too_many : ∃ s steps i d,
    play .default (List.replicate (2 ^ 32) (.observe .faint)) = .ok ⟨s, steps⟩ ∧
      s.devices.at? i = some d ∧ framesSince steps d.address = List.replicate (2 ^ 32) .faint ∧
      meanOf ((framesSince steps d.address).map Frame.signal) = -1 ∧
      d.profile.signal.quotient < -1 := by
  have hcount : 2 ^ 32 = 0xffffffff + 1 := rfl
  obtain ⟨s, steps, i, d, hplay, hd, hframes, hrecounts⟩ :=
    play_replicate .default .faint (by rfl) 0xffffffff
  have hsignal := hrecounts.signal
  rw [List.map_replicate] at hsignal
  have hquotient := hsignal.quotient_late (by rw [List.length_replicate]; omega)
    (by rw [List.length_replicate]; omega)
  have hsample : Frame.faint.signal.toInt = -1 := rfl
  rw [meanOf_replicate, List.length_replicate, hsample] at hquotient
  rw [hcount]
  refine ⟨s, steps, i, d, hplay, hd, hframes, ?_, ?_⟩
  · rw [hframes, List.map_replicate, meanOf_replicate, hsample]
    rfl
  · rw [hquotient]
    norm_num

end AirSurvey

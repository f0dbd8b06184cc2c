import AirSurvey.Proofs.Survey.Recounting
import AirSurvey.Proofs.Survey.Twins

set_option autoImplicit false

/-!
Sweeps do not add up. A sweep that takes less leaves nothing of itself once a sweep that takes more
has been made: the devices, the networks and the channels are what they would be without it, and so
is all that is done later. Only the slots have been given back in another order, so devices that are
made later may have other handles.
-/

namespace AirSurvey

namespace Outlook

variable {x : Outlook} {gone gone' : MacAddress → Bool} {split split' : Finset NetworkName}
  {now now₁ now₂ : Timestamp} {timeout timeout₁ timeout₂ : UInt32}

/-- Without some devices; `split` are the networks that have split then. -/
def without (x : Outlook) (gone : MacAddress → Bool) (split : Finset NetworkName) : Outlook where
  settings := x.settings
  tracked := x.tracked.filter (!gone ·)
  dossier := fun a => if gone a then none else x.dossier a
  aim := fun a => if gone a then none else (x.aim a).filter (!gone ·)
  joined := x.joined.filter (!gone ·)
  names := x.names
  split := split
  heard := fun channel => (x.heard channel).filter (!gone ·)
  numbers := x.numbers

theorem without_none (x : Outlook) : x.without (fun _ => false) x.split = x := by
  have haim : ∀ o : Option MacAddress, o.filter (fun _ => true) = o := by
    intro o
    cases o <;> rfl
  simp [without, haim]

theorem evicted_eq (x : Outlook) (m : MacAddress) :
    x.evicted m = x.without (· == m) (x.evicted m).split := by
  simp only [evicted, without, beq_iff_eq]
  rfl

theorem without_without (x : Outlook) (gone gone' : MacAddress → Bool)
    (split split' : Finset NetworkName) :
    (x.without gone split).without gone' split' = x.without (fun a => gone a || gone' a) split' := by
  have hfilter : ∀ l : List MacAddress,
      (l.filter (!gone ·)).filter (!gone' ·) = l.filter fun a => !(gone a || gone' a) := by
    intro l
    rw [List.filter_filter]
    exact List.filter_congr fun a _ => by rw [Bool.not_or, Bool.and_comm]
  have haim : ∀ o : Option MacAddress,
      (o.filter (!gone ·)).filter (!gone' ·) = o.filter fun a => !(gone a || gone' a) := by
    intro o
    cases o with
    | none => rfl
    | some a =>
      by_cases h : gone a = true <;> by_cases h' : gone' a = true <;>
        simp [Option.filter_some, h, h']
  simp only [without, hfilter, mk.injEq, true_and, and_true]
  refine ⟨funext fun a => ?_, funext fun a => ?_⟩
  · by_cases h : gone a = true <;> by_cases h' : gone' a = true <;> simp [h, h']
  · rw [← haim]
    by_cases h : gone a = true <;> by_cases h' : gone' a = true <;> simp [h, h']

theorem isStale_without (a : MacAddress) :
    (x.without gone split).isStale now timeout a = (!gone a && x.isStale now timeout a) := by
  change (if gone a then none else x.dossier a).any _ = _
  cases gone a <;> rfl

def goes (x : Outlook) (now : Timestamp) (timeout : UInt32) (m : MacAddress) : Bool :=
  x.tracked.contains m && x.isStale now timeout m

theorem sweepFrom_eq (x : Outlook) (now : Timestamp) (timeout : UInt32) (l : List MacAddress) :
    ∃ split, (sweepFrom now timeout l x).1 =
      x.without (fun a => l.contains a && x.isStale now timeout a) split := by
  induction l generalizing x with
  | nil => exact ⟨x.split, x.without_none.symm⟩
  | cons m r ih =>
    rw [sweepFrom]
    split
    · next hstale =>
      obtain ⟨split, hrest⟩ := ih (x.evicted m)
      refine ⟨split, hrest.trans ?_⟩
      rw [evicted_eq, without_without]
      congr 1
      funext a
      rw [isStale_without, List.contains_cons]
      by_cases ha : a = m
      · simp [ha, hstale]
      · simp [beq_false_of_ne ha]
    · next hfresh =>
      obtain ⟨split, hrest⟩ := ih x
      refine ⟨split, hrest.trans ?_⟩
      congr 1
      funext a
      rw [List.contains_cons]
      by_cases ha : a = m
      · simp [ha, hfresh]
      · simp [beq_false_of_ne ha]

theorem swept_eq (x : Outlook) (now : Timestamp) (timeout : UInt32) :
    ∃ split, (x.swept now timeout).state = x.without (x.goes now timeout) split :=
  sweepFrom_eq x now timeout x.tracked

theorem fresh_of_swept {m : MacAddress} (hm : m ∈ x.tracked)
    (hleft : ((x.swept now timeout).state.dossier m).isSome) : x.isStale now timeout m = false := by
  obtain ⟨split, heq⟩ := x.swept_eq now timeout
  rw [heq] at hleft
  change (if x.goes now timeout m = true then none else x.dossier m).isSome = true at hleft
  split at hleft
  · cases hleft
  · next hstays => simpa [goes, hm] using hstays

/-- Which networks have split is told by the rest, as long as the notes are right. -/
theorem Honest.split_eq (h : (x.without gone split).Honest) (h' : (x.without gone split').Honest) :
    split = split' :=
  Finset.ext fun name => (h name).trans (h' name).symm

theorem isStale_mono (hnow : now₁ ≤ now₂) (htimeout : timeout₂ ≤ timeout₁) {m : MacAddress}
    (h : x.isStale now₁ timeout₁ m = true) : x.isStale now₂ timeout₂ m = true := by
  obtain ⟨k, hk, hstale⟩ := (Option.any_eq_true _ _).1 h
  refine (Option.any_eq_true _ _).2 ⟨k, hk, ?_⟩
  rw [decide_eq_true_eq, UInt32.lt_iff_toNat_lt, elapsed_toNat] at hstale ⊢
  rw [UInt32.le_iff_toNat_le] at hnow htimeout
  omega

/-- A sweep after one that takes less leaves what it would leave without that. -/
theorem Honest.swept_swept (hx : x.Honest) (hnow : now₁ ≤ now₂) (htimeout : timeout₂ ≤ timeout₁) :
    ((x.swept now₁ timeout₁).state.swept now₂ timeout₂).state = (x.swept now₂ timeout₂).state := by
  have hfirst : (x.swept now₁ timeout₁).state.Honest := (hx.sweepFrom _ _ _).1
  have hboth : ((x.swept now₁ timeout₁).state.swept now₂ timeout₂).state.Honest :=
    (hfirst.sweepFrom _ _ _).1
  have hsecond : (x.swept now₂ timeout₂).state.Honest := (hx.sweepFrom _ _ _).1
  obtain ⟨split₁, hleft⟩ := x.swept_eq now₁ timeout₁
  rw [hleft] at hboth ⊢
  obtain ⟨split₂, hleft₂⟩ := (x.without (x.goes now₁ timeout₁) split₁).swept_eq now₂ timeout₂
  obtain ⟨split₃, hleft₃⟩ := x.swept_eq now₂ timeout₂
  have hgoes : (fun a => x.goes now₁ timeout₁ a ||
      (x.without (x.goes now₁ timeout₁) split₁).goes now₂ timeout₂ a) = x.goes now₂ timeout₂ := by
    funext a
    have htracked : (x.without (x.goes now₁ timeout₁) split₁).tracked.contains a =
        (x.tracked.contains a && !x.goes now₁ timeout₁ a) := by
      change (x.tracked.filter _).contains a = _
      rw [Bool.eq_iff_iff]
      simp
    simp only [goes, htracked, isStale_without]
    cases h : x.isStale now₁ timeout₁ a with
    | false => simp
    | true => simp [isStale_mono hnow htimeout h]
  rw [hleft₂, without_without, hgoes] at hboth ⊢
  rw [hleft₃] at hsecond ⊢
  rw [hboth.split_eq hsecond]

end Outlook

namespace Survey

variable {s t : Survey} {c c' : Chronicle} {o : Operation} {events : List Event}
  {answer : Except Refusal Reply}

/-! ## Handles that stay -/

theorem Becomes.handleOf?_kept (m : s.Becomes c o t c' events answer) (hs : s.Sound c)
    (ht : t.Sound c') {a : MacAddress} (ha : (t.dossier c' a).isSome)
    (hold : (Step.mk o events answer).makes a = false) : t.handleOf? a = s.handleOf? a := by
  have hmakes := m.makes_eq hs ht.toIndexed ha
  rw [hold, eq_comm, Bool.not_eq_false', isSome_dossier hs.toIndexed,
    mem_addressesByAge hs.toIndexed] at hmakes
  obtain ⟨i, hfind⟩ := Option.isSome_iff_exists.1 hmakes
  obtain ⟨e, he, rfl⟩ := (hs.roster.found a i).1 hfind
  have hget := hs.roster.get?_id he
  have hleft : (((s.outlook c).next o).state.dossier e.address).isSome := by
    rw [m.outlook hs ht]
    exact ha
  have hstays : s.forgets e.id o = false := by
    have htracked : e.address ∈ (s.outlook c).tracked := (mem_addressesByAge hs.toIndexed).2 hmakes
    have hstale := isStale_outlook hs.toIndexed he
    have hdevice : s.device? e.id = some e := hget
    cases o with
    | observe f => rfl
    | sweep now timeout =>
      rw [forgets, hdevice, Option.any_some, ← hstale]
      exact Outlook.fresh_of_swept htracked hleft
    | expire now =>
      rw [forgets, hdevice, Option.any_some, ← hstale]
      exact Outlook.fresh_of_swept htracked hleft
    | purge => rfl
    | clear => cases hleft
  obtain ⟨y, hy, haddress⟩ := (m.sheds_devices hs).kept e.id e hget hstays
  have hafter := handleOf?_of_at? ht.toIndexed (Pool.at?_of_get? hy)
  rw [ht.roster.id_of_get? hy, haddress] at hafter
  rw [handleOf?_of_at? hs.toIndexed he, hafter]

theorem Becomes.swept_eq {now : Timestamp} {timeout : UInt32}
    (m : s.Becomes c (.sweep now timeout) t c' events answer) (hs : s.Sound c) (ht : t.Sound c') :
    ((s.outlook c).swept now timeout).state = t.outlook c' :=
  congrArg Outcome.state (m.outlook hs ht)

theorem Becomes.handleOf?_swept {now : Timestamp} {timeout : UInt32}
    (m : s.Becomes c (.sweep now timeout) t c' events answer) (hs : s.Sound c) (ht : t.Sound c')
    {a : MacAddress} (ha : (t.dossier c' a).isSome) :
    (s.dossier c a).isSome ∧ t.handleOf? a = s.handleOf? a := by
  obtain ⟨split, hwithout⟩ := (s.outlook c).swept_eq now timeout
  rw [m.swept_eq hs ht] at hwithout
  have hbefore : (s.dossier c a).isSome := by
    change ((t.outlook c').dossier a).isSome = true at ha
    rw [hwithout] at ha
    change (if (s.outlook c).goes now timeout a = true then none else s.dossier c a).isSome = true at ha
    split at ha
    · cases ha
    · exact ha
  refine ⟨hbefore, m.handleOf?_kept hs ht ha ?_⟩
  rw [m.makes_eq hs ht.toIndexed ha, hbefore, Bool.not_true]

end Survey

/-! ## Runs -/

/-- Two surveys that differ in handles of devices, after the same was done to both in the steps
`later` and `later'`. -/
structure Parallel (s : Survey) (c : Chronicle) (later : List Step) (t : Survey) (c' : Chronicle)
    (later' : List Step) : Prop where
  sound : s.Sound c
  sound' : t.Sound c'
  twins : s.Twins c t c'
  tidings : later'.map Step.tidings = later.map Step.tidings
  latest : (later'.head?.map fun x => x.answer.map (Reply.onDevice (Device.renamed id))) =
    later.head?.map fun x => x.answer.map (Reply.onDevice (Device.renamed (s.counterpart t)))
  ids : ∀ a, (s.dossier c a).isSome → (∀ x ∈ later, x.makes a = false) →
    t.handleOf? a = s.handleOf? a

namespace Parallel

variable {s t s' t' : Survey} {c c' d d' : Chronicle} {later later' : List Step} {o : Operation}
  {events events' : List Event} {answer answer' : Except Refusal Reply}

theorem next (h : Parallel s c later t c' later')
    (m : s.Becomes c o s' d events answer) (m' : t.Becomes c' o t' d' events' answer')
    (hs' : s'.Sound d) (ht' : t'.Sound d') :
    Parallel s' d (⟨o, events, answer⟩ :: later) t' d' (⟨o, events', answer'⟩ :: later') := by
  obtain ⟨htwins, rfl, hanswer⟩ := h.twins.next h.sound h.sound' m m' hs' ht'
  refine ⟨hs', ht', htwins, ?_, ?_, fun a ha hold => ?_⟩
  · rw [List.map_cons, List.map_cons, h.tidings, Step.tidings, Step.tidings, hanswer]
  · refine congrArg some (m.answer_eq m' (fun i j e e' he he' haddress => ?_) hanswer)
    exact htwins.renamed_eq hs' ht' he he' haddress
  · obtain ⟨hfirst, hrest⟩ := List.forall_mem_cons.1 hold
    have hbefore : (s.dossier c a).isSome := by
      have hmakes := m.makes_eq h.sound hs'.toIndexed ha
      rwa [hfirst, eq_comm, Bool.not_eq_false'] at hmakes
    have ha' : (t'.dossier d' a).isSome := by
      have hdossier := congrArg (fun x => (x.dossier a).isSome) htwins.outlook
      exact hdossier.trans ha
    rw [m.handleOf?_kept h.sound hs' ha hfirst, m'.handleOf?_kept h.sound' ht' ha' hfirst,
      h.ids a hbefore hrest]

end Parallel

theorem foldlM_parallel {h k : History} {c c' : Chronicle}
    (hstart : Parallel h.survey c [] k.survey c' []) (ops : List Operation) :
    ∃ t d later t' d' later', ops.foldlM History.next h = .ok ⟨t, later ++ h.steps⟩ ∧
      ops.foldlM History.next k = .ok ⟨t', later' ++ k.steps⟩ ∧ later.length = ops.length ∧
      Parallel t d later t' d' later' := by
  induction ops using List.reverseRecOn with
  | nil => exact ⟨h.survey, c, [], k.survey, c', [], rfl, rfl, rfl, hstart⟩
  | append_singleton ops o ih =>
    obtain ⟨s, d, later, s', d', later', hrun, hrun', hlength, hparallel⟩ := ih
    obtain ⟨t, e, events, answer, hact, hbecomes, ht⟩ := Survey.act_run hparallel.sound o
    obtain ⟨t', e', events', answer', hact', hbecomes', ht'⟩ := Survey.act_run hparallel.sound' o
    refine ⟨t, e, ⟨o, events, answer⟩ :: later, t', e', ⟨o, events', answer'⟩ :: later', ?_, ?_, ?_,
      hparallel.next hbecomes hbecomes' ht ht'⟩
    · exact foldlM_concat hrun hact
    · exact foldlM_concat hrun' hact'
    · rw [List.length_cons, List.length_append, hlength]
      rfl

theorem Parallel.of_sweeps {s s₁ s₂ t : Survey} {c c₁ c₂ c' : Chronicle}
    {now₁ now₂ : Timestamp} {timeout₁ timeout₂ : UInt32} {events₁ events₂ events : List Event}
    {answer₁ answer₂ answer : Except Refusal Reply} (hs : s.Sound c) (hx : (s.outlook c).Honest)
    (hnow : now₁ ≤ now₂) (htimeout : timeout₂ ≤ timeout₁)
    (m₁ : s.Becomes c (.sweep now₁ timeout₁) s₁ c₁ events₁ answer₁) (hs₁ : s₁.Sound c₁)
    (m₂ : s₁.Becomes c₁ (.sweep now₂ timeout₂) s₂ c₂ events₂ answer₂) (hs₂ : s₂.Sound c₂)
    (m : s.Becomes c (.sweep now₂ timeout₂) t c' events answer) (ht : t.Sound c') :
    Parallel s₂ c₂ [] t c' [] := by
  have hfirst := m₁.swept_eq hs hs₁
  have hsecond := m₂.swept_eq hs₁ hs₂
  have halone := m.swept_eq hs ht
  have houtlook : t.outlook c' = s₂.outlook c₂ := by
    rw [← hsecond, ← hfirst, hx.swept_swept hnow htimeout, halone]
  have hplates : t.plates = s₂.plates := by
    rw [m.plates hs, m₂.plates hs₁, m₁.plates hs]
    rfl
  refine ⟨hs₂, ht, ⟨houtlook, hplates⟩, rfl, rfl, fun a ha _ => ?_⟩
  have ha' : (t.dossier c' a).isSome :=
    (congrArg (fun x => (x.dossier a).isSome) houtlook).trans ha
  obtain ⟨hleft, hkept₂⟩ := m₂.handleOf?_swept hs₁ hs₂ ha
  rw [hkept₂, (m₁.handleOf?_swept hs hs₁ hleft).2, (m.handleOf?_swept hs ht ha').2]

/-- Two histories that came to the same in their last `n` steps, but for the handles of the devices
that were made in these. Handles of devices in an answer are those of their time, so only the latest
answer can be told with them by the surveys that are left. -/
structure History.Agrees (h k : History) (n : Nat) (ρ : Handle → Handle) : Prop where
  tidings : (k.steps.take n).map Step.tidings = (h.steps.take n).map Step.tidings
  latest : ((k.steps.take n).head?.map fun x => x.answer.map (Reply.onDevice (Device.renamed id))) =
    (h.steps.take n).head?.map fun x => x.answer.map (Reply.onDevice (Device.renamed ρ))
  readers : h.survey.Matches k.survey ρ
  renames : ∀ i, ρ i ≠ i →
    ∃ d, h.survey.device? i = some d ∧ ∃ x ∈ h.steps.take n, x.makes d.address = true

theorem Parallel.agrees {s t : Survey} {c c' : Chronicle} {later later' : List Step}
    (h : Parallel s c later t c' later') (steps steps' : List Step) :
    History.Agrees ⟨s, later ++ steps⟩ ⟨t, later' ++ steps'⟩ later.length (s.counterpart t) := by
  have hlength : later'.length = later.length := by
    simpa using congrArg List.length h.tidings
  have hsteps : (later' ++ steps').take later.length = later' := List.take_left' hlength
  refine ⟨?_, ?_, h.twins.readers h.sound h.sound', fun i hi => ?_⟩
  · rw [hsteps, List.take_left]
    exact h.tidings
  · rw [hsteps, List.take_left]
    exact h.latest
  · rw [List.take_left]
    change ∃ d, s.device? i = some d ∧ _
    cases hd : s.device? i with
    | none => exact absurd (by rw [Survey.counterpart, hd]; rfl) hi
    | some d =>
      refine ⟨d, rfl, ?_⟩
      by_contra hnone
      push Not at hnone
      have hs := h.sound.toIndexed
      have hat := Pool.at?_of_get? hd
      have htracked : (s.dossier c d.address).isSome := by
        rw [Survey.isSome_dossier hs, Survey.mem_addressesByAge hs,
          (hs.roster.found d.address i.index).2 ⟨d, hat, rfl⟩]
        rfl
      have hhandle := h.ids d.address htracked fun x hx => Bool.eq_false_iff.2 (hnone x hx)
      rw [Survey.handleOf?_of_at? hs hat, h.sound.roster.id_of_get? hd] at hhandle
      exact hi (by rw [Survey.counterpart, hd, Option.bind_some, hhandle, Option.getD_some])

/-- A sweep that takes less makes no difference to a later one that takes more. The second alone
leaves the same devices with the same handles, in the same order, and the same networks and channels.
Whatever is done afterwards comes to the same, step by step, but that devices which are made then may
have other handles. -/
theorem play_resweeps (settings : Settings) (before later : List Operation)
    {now₁ now₂ : Timestamp} {timeout₁ timeout₂ : UInt32} (hnow : now₁ ≤ now₂)
    (htimeout : timeout₂ ≤ timeout₁) :
    ∃ h k ρ, play settings (before ++ .sweep now₁ timeout₁ :: .sweep now₂ timeout₂ :: later) = .ok h ∧
      play settings (before ++ .sweep now₂ timeout₂ :: later) = .ok k ∧
      h.Agrees k later.length ρ := by
  obtain ⟨h₀, c, hplay, hs, hx⟩ := play_honest settings before
  obtain ⟨s₁, c₁, events₁, answer₁, hrun₁, m₁, hs₁⟩ := Survey.act_run hs (.sweep now₁ timeout₁)
  obtain ⟨s₂, c₂, events₂, answer₂, hrun₂, m₂, hs₂⟩ := Survey.act_run hs₁ (.sweep now₂ timeout₂)
  obtain ⟨t, c', events, answer, hrun, m, ht⟩ := Survey.act_run hs (.sweep now₂ timeout₂)
  have hboth := (play_append hplay (.sweep now₁ timeout₁ :: .sweep now₂ timeout₂ :: later)).trans
    ((foldlM_cons_of_run hrun₁ _).trans (foldlM_cons_of_run hrun₂ later))
  have halone := (play_append hplay (.sweep now₂ timeout₂ :: later)).trans
    (foldlM_cons_of_run hrun later)
  obtain ⟨s, d, steps, t', d', steps', hleft, hright, hlength, hparallel⟩ :=
    foldlM_parallel (h := ⟨s₂, _ :: _ :: h₀.steps⟩) (k := ⟨t, _ :: h₀.steps⟩)
      (Parallel.of_sweeps hs hx hnow htimeout m₁ hs₁ m₂ hs₂ m ht) later
  refine ⟨_, _, s.counterpart t', hboth.trans hleft, halone.trans hright, ?_⟩
  rw [← hlength]
  exact hparallel.agrees _ _

def threeHeard : List Operation :=
  [.observe (.heardAt ⟨2, 0, 0, 0, 0, 1⟩ 0), .observe (.heardAt ⟨2, 0, 0, 0, 0, 2⟩ 10),
    .observe (.heardAt ⟨2, 0, 0, 0, 0, 3⟩ 19)]

/-- The first two devices go in two sweeps or in one. The one that comes then is in the slot of the
second or of the first. -/
theorem play_resweeps_threeHeard :
    ∃ h k ρ, play .default (threeHeard ++ .sweep 20 15 :: .sweep 21 5 ::
        [.observe (.heardAt ⟨2, 0, 0, 0, 0, 4⟩ 22)]) = .ok h ∧
      play .default (threeHeard ++ .sweep 21 5 ::
        [.observe (.heardAt ⟨2, 0, 0, 0, 0, 4⟩ 22)]) = .ok k ∧
      h.Agrees k 1 ρ ∧
      h.survey.allDevices.map (List.map fun d => (d.address, d.id)) =
        .ok [(⟨2, 0, 0, 0, 0, 4⟩, ⟨1, 1⟩), (⟨2, 0, 0, 0, 0, 3⟩, ⟨2, 0⟩)] ∧
      k.survey.allDevices.map (List.map fun d => (d.address, d.id)) =
        .ok [(⟨2, 0, 0, 0, 0, 4⟩, ⟨0, 1⟩), (⟨2, 0, 0, 0, 0, 3⟩, ⟨2, 0⟩)] := by
  obtain ⟨h, k, ρ, hplay, hplay', hagrees⟩ := play_resweeps .default threeHeard
    [.observe (.heardAt ⟨2, 0, 0, 0, 0, 4⟩ 22)] (by decide : (20 : Timestamp) ≤ 21)
    (by decide : (5 : UInt32) ≤ 15)
  refine ⟨h, k, ρ, hplay, hplay', hagrees, ?_, ?_⟩
  · rw [← Survey.ofRun_eq hplay]
    decide +kernel
  · rw [← Survey.ofRun_eq hplay']
    decide +kernel

end AirSurvey

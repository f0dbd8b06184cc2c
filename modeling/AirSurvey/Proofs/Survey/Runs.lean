import AirSurvey.Proofs.Survey.Clearing
import AirSurvey.Proofs.Survey.Observation
import AirSurvey.Proofs.Survey.Sweep

set_option autoImplicit false

/-!
Runs: what the owner of a survey may do to it, one thing after the other. The indices are in step
after every run, and no run faults.
-/

namespace AirSurvey

inductive Operation where
  | observe (f : Frame)
  | sweep (now : Timestamp) (timeout : UInt32)
  | expire (now : Timestamp)
  | purge
  | clear

inductive Reply where
  | device (d : Device)
  | released (n : Nat)
  | done

def Operation.act : Operation → Action Survey Reply
  | .observe f => .device <$> Survey.observe f
  | .sweep now timeout => (fun _ => .done) <$> Survey.sweep now timeout
  | .expire now => (fun _ => .done) <$> Survey.expire now
  | .purge => do
    let s ← Action.read
    Action.write s.purgeNetworks.2
    return .released s.purgeNetworks.1
  | .clear => do
    let s ← Action.read
    Action.write s.clear
    return .done

structure Step where
  operation : Operation
  events : List Event
  answer : Except Refusal Reply

/-- A survey with all that was done to it, the latest first. -/
structure History where
  survey : Survey
  steps : List Step

namespace History

def new (settings : Settings) : History := ⟨.new settings, []⟩

def next (h : History) (o : Operation) : Except (Breakdown Survey) History :=
  (o.act.run h.survey).map fun x => ⟨x.state, ⟨o, x.events, x.answer⟩ :: h.steps⟩

theorem next_of_run {h : History} {o : Operation} {t : Survey} {events : List Event}
    {answer : Except Refusal Reply} (hrun : o.act.run h.survey = .ok ⟨t, events, answer⟩) :
    h.next o = .ok ⟨t, ⟨o, events, answer⟩ :: h.steps⟩ := by
  simp [next, hrun]

end History

def play (settings : Settings) (ops : List Operation) : Except (Breakdown Survey) History :=
  ops.foldlM History.next (.new settings)

namespace Survey

variable {s : Survey} {c : Chronicle}

/-- A state that some run ends in. -/
def Reachable (s : Survey) : Prop :=
  ∃ settings ops h, play settings ops = .ok h ∧ h.survey = s

inductive Becomes (s : Survey) (c : Chronicle) :
    Operation → Survey → Chronicle → List Event → Except Refusal Reply → Prop
  | refuses {f : Frame} {r : Refusal} (refusal : s.refusalOf c f = some r) :
      Becomes s c (.observe f) s c (refusalNews f r) (.error r)
  | observes {f : Frame} {i : Nat} {d e : Device} {s₁ t : Survey} {c₁ c' : Chronicle}
      {e₁ e₂ : List Event} (refusal : s.refusalOf c f = none) (arrives : s.Arrives c f i d s₁ c₁ e₁)
      (indexed : s₁.Indexed c₁) (settles : s₁.Settles c₁ f i d t c' e₂)
      (device : t.devices.at? i = some e) :
      Becomes s c (.observe f) t c' (e₁ ++ e₂) (.ok (.device e))
  | sweeps {o : Operation} {now : Timestamp} {timeout : UInt32} {u : Survey} {c' : Chronicle}
      {events : List Event} {n : Nat}
      (operation : o = .sweep now timeout ∨ o = .expire now ∧ timeout = s.settings.timeout)
      (sweeps : Sweeps now timeout c.ages s c u c' events n) (indexed : u.Indexed c') :
      Becomes s c o (u.swept c' n) c' (u.sweptNews events n) (.ok .done)
  | purges : Becomes s c .purge s.purgeNetworks.2 c [] (.ok (.released s.purgeNetworks.1))
  | clears : Becomes s c .clear s.clear ⟨[], [], []⟩ [] (.ok .done)

/-- No operation faults, and the indices stay in step. -/
theorem act_run (hs : s.Sound c) (o : Operation) :
    ∃ t c' events answer, o.act.run s = .ok ⟨t, events, answer⟩ ∧
      s.Becomes c o t c' events answer ∧ t.Sound c' := by
  cases o with
  | observe f =>
    cases hrefusal : s.refusalOf c f with
    | some r =>
      refine ⟨s, c, _, _, ?_, .refuses hrefusal, hs⟩
      simp only [Operation.act, Action.run_map, observe_refused hs.toIndexed hrefusal,
        Action.map_ok]
      rfl
    | none =>
      obtain ⟨i, d, s₁, c₁, e₁, t, c', e₂, e, hrun, harrives, hs₁, hsettles, he, ht⟩ :=
        observe_accepted hs hrefusal
      refine ⟨t, c', _, _, ?_, .observes hrefusal harrives hs₁ hsettles he, ht⟩
      simp only [Operation.act, Action.run_map, hrun, Action.map_ok]
  | sweep now timeout =>
    obtain ⟨u, c', events, n, hsweeps, hu, hrun⟩ := sweep_run hs.toIndexed now timeout
    refine ⟨_, c', _, _, ?_, .sweeps (.inl rfl) hsweeps hu, hsweeps.swept_sound hs hu⟩
    simp only [Operation.act, Action.run_map, hrun, Action.map_ok]
  | expire now =>
    obtain ⟨u, c', events, n, hsweeps, hu, hrun⟩ := sweep_run hs.toIndexed now s.settings.timeout
    refine ⟨_, c', _, _, ?_, .sweeps (.inr ⟨rfl, rfl⟩) hsweeps hu, hsweeps.swept_sound hs hu⟩
    simp only [Operation.act, expire, Action.run_map, Action.run_read_bind, hrun, Action.map_ok]
  | purge => exact ⟨_, c, _, _, rfl, .purges, purge_sound hs⟩
  | clear => exact ⟨_, _, _, _, rfl, .clears, clear_sound hs⟩

theorem Becomes.at?_of_device {t : Survey} {c' : Chronicle} {o : Operation} {events : List Event}
    {d : Device} (m : s.Becomes c o t c' events (.ok (.device d))) :
    ∃ i, t.devices.at? i = some d := by
  cases m with
  | observes _ _ _ _ hd => exact ⟨_, hd⟩

end Survey

section play

variable {P : History → Chronicle → Prop} {h h' : History} {ops : List Operation} {o : Operation}
  {t : Survey} {events : List Event} {answer : Except Refusal Reply}

theorem foldlM_cons_of_run (hrun : o.act.run h.survey = .ok ⟨t, events, answer⟩)
    (ops : List Operation) : (o :: ops).foldlM History.next h =
      ops.foldlM History.next ⟨t, ⟨o, events, answer⟩ :: h.steps⟩ := by
  rw [List.foldlM_cons, History.next_of_run hrun]
  rfl

theorem foldlM_concat (hops : ops.foldlM History.next h = .ok h')
    (hrun : o.act.run h'.survey = .ok ⟨t, events, answer⟩) :
    (ops ++ [o]).foldlM History.next h = .ok ⟨t, ⟨o, events, answer⟩ :: h'.steps⟩ := by
  rw [List.foldlM_append, hops]
  exact foldlM_cons_of_run hrun []

theorem foldlM_next {c : Chronicle} (hs : h.survey.Sound c) (hP : P h c)
    (hstep : ∀ h c o t c' events answer, h.survey.Sound c → P h c →
      h.survey.Becomes c o t c' events answer → t.Sound c' →
      P ⟨t, ⟨o, events, answer⟩ :: h.steps⟩ c') (ops : List Operation) :
    ∃ h' c', ops.foldlM History.next h = .ok h' ∧ h'.survey.Sound c' ∧ P h' c' := by
  induction ops generalizing h c with
  | nil => exact ⟨h, c, rfl, hs, hP⟩
  | cons o ops ih =>
    obtain ⟨t, c', events, answer, hrun, hbecomes, ht⟩ := Survey.act_run hs o
    obtain ⟨h', c'', hrest, hsound, hP'⟩ := ih ht (hstep h c o t c' events answer hs hP hbecomes ht)
    exact ⟨h', c'', (foldlM_cons_of_run hrun ops).trans hrest, hsound, hP'⟩

/-- What holds of a new survey and is kept by every operation holds after every run. -/
theorem play_run (settings : Settings) (hnew : P (.new settings) ⟨[], [], []⟩)
    (hstep : ∀ h c o t c' events answer, h.survey.Sound c → P h c →
      h.survey.Becomes c o t c' events answer → t.Sound c' →
      P ⟨t, ⟨o, events, answer⟩ :: h.steps⟩ c') (ops : List Operation) :
    ∃ h c, play settings ops = .ok h ∧ h.survey.Sound c ∧ P h c :=
  foldlM_next (Survey.new_sound settings) hnew hstep ops

theorem play_append {settings : Settings} {before : List Operation}
    (hbefore : play settings before = .ok h) (later : List Operation) :
    play settings (before ++ later) = later.foldlM History.next h := by
  rw [play, List.foldlM_append]
  change (play settings before >>= _) = _
  rw [hbefore]
  rfl

theorem play_concat {settings : Settings} (hplay : play settings ops = .ok h)
    (hrun : o.act.run h.survey = .ok ⟨t, events, answer⟩) :
    play settings (ops ++ [o]) = .ok ⟨t, ⟨o, events, answer⟩ :: h.steps⟩ :=
  foldlM_concat hplay hrun

end play

theorem Survey.Reachable.sound {s : Survey} (hs : s.Reachable) : ∃ c, s.Sound c := by
  obtain ⟨settings, ops, h, hplay, rfl⟩ := hs
  obtain ⟨h', c, hplay', hsound, -⟩ :=
    play_run (P := fun _ _ => True) settings trivial (fun _ _ _ _ _ _ _ _ _ _ _ => trivial) ops
  obtain rfl := Except.ok.inj (hplay.symm.trans hplay')
  exact ⟨c, hsound⟩

def Survey.ofRun (settings : Settings) (ops : List Operation) : Survey :=
  match play settings ops with
  | .ok h => h.survey
  | .error _ => .new settings

theorem Survey.ofRun_eq {settings : Settings} {ops : List Operation} {h : History}
    (hplay : play settings ops = .ok h) : ofRun settings ops = h.survey := by
  rw [ofRun, hplay]

theorem Survey.ofRun_reachable (settings : Settings) (ops : List Operation) :
    (ofRun settings ops).Reachable := by
  obtain ⟨h, c, hplay, -⟩ :=
    play_run (P := fun _ _ => True) settings trivial (fun _ _ _ _ _ _ _ _ _ _ _ => trivial) ops
  exact ⟨settings, ops, h, hplay, (ofRun_eq hplay).symm⟩

def Frame.heardAt (source : MacAddress) (timestamp : Timestamp) : Frame :=
  { source, signal := 0, timestamp }

end AirSurvey

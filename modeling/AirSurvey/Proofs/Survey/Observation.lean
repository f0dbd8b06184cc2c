import AirSurvey.Proofs.Survey.Reserving

set_option autoImplicit false

/-!
Taking in a frame as a whole: which frames are refused, and that one that is not refused leaves the
indices in step.
-/

namespace AirSurvey.Survey

variable {s : Survey} {c : Chronicle} {f : Frame}

def arrive (f : Frame) : Option Nat → Action Survey Nat
  | some i => revisit f i
  | none => admitNew f

theorem observe_eq (f : Frame) :
    observe f = (Action.require f.validate >>= fun _ => Action.read >>= fun s =>
      reserve f (s.addresses.find? f.source) >>= fun _ =>
        arrive f (s.addresses.find? f.source) >>= settle f) := by
  unfold observe settle
  refine congrArg _ (funext fun _ => congrArg _ (funext fun s => ?_))
  dsimp only
  refine congrArg _ (funext fun _ => ?_)
  cases s.addresses.find? f.source
  all_goals
    dsimp only [arrive]
    refine congrArg _ (funext fun i => congrArg _ (funext fun _ => congrArg _ (funext fun _ => ?_)))
    refine congrArg _ (funext fun _ => congrArg _ (funext fun d => ?_))
    cases d.network with
    | none => exact (pure_bind _ _).symm
    | some h => rfl

/-- `t` is `s` once a frame has reached its device, which is then the device `d` in slot `i`. -/
inductive Arrives (s : Survey) (c : Chronicle) (f : Frame) :
    Nat → Device → Survey → Chronicle → List Event → Prop
  | revisits {i : Nat} {d : Device} (hfind : s.addresses.find? f.source = some i)
      (hd : s.devices.at? i = some d) (hclock : ¬ f.timestamp < d.profile.lastSeen) :
      Arrives s c f i { d with profile := d.profile.absorb f s.settings.weight }
        { s with devices := s.devices.modifyAt i fun d =>
            { d with profile := d.profile.absorb f s.settings.weight } } c []
  | admits {h : Handle} {d : Device} {q r : DevicePool} {y : AddressIndex}
      {ages : Chain Device.byAge} (hfind : s.addresses.find? f.source = none)
      (ht : s.devices.Taken (.ofFrame f s.settings.weight) h r)
      (hview : q.view Device.byAge.bare = r.view Device.byAge.bare)
      (hy : s.addresses.insert? f.source h.index = some y)
      (hd : q.at? h.index = some d) :
      Arrives s c f h.index d { s with devices := q, addresses := y, ages }
        { c with ages := h.index :: c.ages } [.newDevice f.source f.signal]

namespace Arrives

variable {i : Nat} {d : Device} {t : Survey} {c' : Chronicle} {events : List Event}

theorem frame (m : s.Arrives c f i d t c' events) :
    t.settings = s.settings ∧ t.networks = s.networks ∧ t.channels = s.channels ∧
      c'.joined = c.joined ∧ c'.heard = c.heard := by
  cases m <;> simp

theorem device (m : s.Arrives c f i d t c' events) : t.devices.at? i = some d := by
  cases m with
  | revisits _ hd => simp [Pool.at?_modifyAt, hd]
  | admits _ _ _ _ hd => exact hd

theorem address (m : s.Arrives c f i d t c' events) (hs : s.Indexed c) : d.address = f.source := by
  cases m with
  | revisits hfind hd =>
    obtain ⟨e, he, hef⟩ := (hs.roster.found f.source i).1 hfind
    obtain rfl := Option.some.inj (hd.symm.trans he)
    exact hef
  | admits _ ht hview _ hd =>
    obtain ⟨e, he, hde⟩ := Pool.exists_of_view_eq hview hd
    rw [ht.at?, if_pos rfl, Option.some.injEq] at he
    subst he
    exact (congrArg Device.address hde :).symm

theorem kept (m : s.Arrives c f i d t c' events) {k : Handle} {a : Device}
    (ha : s.devices.get? k = some a) :
    ∃ b, t.devices.get? k = some b ∧ b.address = a.address := by
  cases m with
  | revisits =>
    rw [Pool.get?_modifyAt, ha]
    split
    · exact ⟨_, rfl, rfl⟩
    · exact ⟨a, rfl, rfl⟩
  | @admits h _ _ r _ _ _ ht hview =>
    obtain ⟨hk, hat⟩ := (Pool.get?_eq_some_iff _ _ _).1 ha
    have hne : ¬ h.index = k.index := fun e => by simp [← e, ht.vacant] at hat
    have hr : r.at? k.index = some a := by rw [ht.at?, if_neg hne, hat]
    obtain ⟨b, hb, hba⟩ := Pool.exists_of_view_eq (Pool.view_eq_comp hview Device.address).symm hr
    refine ⟨b, (Pool.get?_eq_some_iff _ _ _).2 ⟨?_, hb⟩, hba⟩
    rw [Pool.handleAt?_of_view_eq hview, ht.handleAt?, if_neg hne, hk]

theorem others (m : s.Arrives c f i d t c' events) {j : Nat} (hj : j ≠ i) :
    (t.devices.at? j).map Device.core = (s.devices.at? j).map Device.core := by
  cases m with
  | revisits => rw [Pool.at?_modifyAt, if_neg fun e => hj e.symm]
  | admits _ ht hview =>
    have hview' := Pool.at?_map_of_view_eq (Pool.view_eq_comp hview Device.core) j
    rw [ht.at?, if_neg fun e => hj e.symm] at hview'
    exact hview'

end Arrives

theorem arrive_run (hs : s.Sound c) (hvalid : f.validate = .ok ())
    (hroom : s.addresses.find? f.source = none → s.devices.size ≠ Capacity.devices)
    (hclock : ∀ i d, s.addresses.find? f.source = some i → s.devices.at? i = some d →
      ¬ f.timestamp < d.profile.lastSeen) :
    ∃ i d t c' events, (arrive f (s.addresses.find? f.source)).run s =
        .ok ⟨t, events, .ok i⟩ ∧ s.Arrives c f i d t c' events ∧ t.Indexed c' ∧
      (d.accessPoint.isSome → d.profile.bssid.isSome) := by
  cases hfind : s.addresses.find? f.source with
  | some i =>
    obtain ⟨d, hd, -⟩ := (hs.roster.found f.source i).1 hfind
    refine ⟨i, _, _, c, [], revisit_run hd (hclock i d hfind hd),
      .revisits hfind hd (hclock i d hfind hd), hs.toIndexed.of_places ?_, fun hsome => ?_⟩
    · exact Pool.view_modifyAt_of_eq _ _ _ _ fun _ => rfl
    · obtain ⟨h, hh⟩ := Option.isSome_iff_exists.1 hsome
      obtain ⟨a, -, -, hbssid⟩ := hs.aimed i d hd h hh
      simp [Profile.absorb, hbssid]
  | none =>
    have hsingle : f.source.isZero = false ∧ f.source.isGroup = false := by
      unfold Frame.validate at hvalid
      grind
    obtain ⟨h, r, q, y, ages, ht, hview, hy, hrun, hindexed⟩ :=
      admitNew_run hs.toIndexed hfind (hroom hfind) hsingle
    obtain ⟨d, hd⟩ : ∃ d, q.at? h.index = some d := by
      have hsome := Pool.isSome_of_view_eq hview h.index
      rw [ht.at?, if_pos rfl, Option.isSome_some, Option.isSome_iff_exists] at hsome
      exact hsome
    refine ⟨h.index, d, _, _, _, hrun, .admits hfind ht hview hy hd, hindexed, fun hsome => ?_⟩
    obtain ⟨e, he, hde⟩ := Pool.exists_of_view_eq (Pool.view_eq_comp hview Device.accessPoint) hd
    rw [ht.at?, if_pos rfl, Option.some.injEq] at he
    subst he
    have hnone : d.accessPoint = none := hde.symm
    simp [hnone] at hsome

/-- Why a frame is refused, if it is. -/
def refusalOf (s : Survey) (c : Chronicle) (f : Frame) : Option Refusal :=
  match f.validate with
  | .error r => some r
  | .ok () =>
    match s.lacking c f (s.addresses.find? f.source) with
    | some supply => some (.full supply)
    | none =>
      if ((s.addresses.find? f.source).bind s.devices.at?).any
          fun d => f.timestamp < d.profile.lastSeen then some .clockBackwards
      else none

def refusalNews (f : Frame) : Refusal → List Event
  | .full supply => [lackNews f supply]
  | _ => []

theorem validate_ne_full {supply : Supply} : f.validate ≠ .error (.full supply) := by
  unfold Frame.validate
  repeat' split
  all_goals simp

theorem occupied_of_find? (hs : s.Indexed c) {m : MacAddress} {i : Nat}
    (hfind : s.addresses.find? m = some i) : (s.devices.at? i).isSome := by
  obtain ⟨d, hd, -⟩ := (hs.roster.found m i).1 hfind
  simp [hd]

theorem observe_refused (hs : s.Indexed c) {r : Refusal} (hr : s.refusalOf c f = some r) :
    (observe f).run s = .ok ⟨s, refusalNews f r, .error r⟩ := by
  unfold refusalOf at hr
  have hreserve := reserve_run (f := f) hs fun i => occupied_of_find? hs (m := f.source)
  split at hr
  · next e hvalid =>
    obtain rfl := Option.some.inj hr
    rw [observe_eq, hvalid, Action.run_bind_of_refused (Action.run_require _ s)]
    cases e with
    | full supply => exact absurd hvalid validate_ne_full
    | _ => rfl
  · next hvalid =>
    split at hr
    · next supply hlack =>
      obtain rfl := Option.some.inj hr
      rw [hlack] at hreserve
      rw [observe_eq, hvalid, Action.run_bind_of_ok (Action.run_require _ s), Action.run_read_bind,
        Action.run_bind_of_refused hreserve]
      rfl
    · next hlack =>
      split at hr
      · next hclock =>
        obtain rfl := Option.some.inj hr
        rw [hlack] at hreserve
        obtain ⟨d, hbind, hlt⟩ := (Option.any_eq_true _ _).1 hclock
        obtain ⟨i, hfind, hd⟩ := Option.bind_eq_some_iff.1 hbind
        have hrun := revisit_refused hd (f := f) (by simpa using hlt)
        rw [observe_eq, hvalid, Action.run_bind_of_ok (Action.run_require _ s),
          Action.run_read_bind, Action.run_bind_of_ok hreserve, hfind,
          Action.run_bind_of_refused (show (arrive f (some i)).run s = _ from hrun)]
        rfl
      · cases hr

theorem refusalOf_eq_none_iff :
    s.refusalOf c f = none ↔ f.validate = .ok () ∧
      s.lacking c f (s.addresses.find? f.source) = none ∧
      ∀ i d, s.addresses.find? f.source = some i → s.devices.at? i = some d →
        ¬ f.timestamp < d.profile.lastSeen := by
  unfold refusalOf
  split
  · next hvalid => simp [hvalid]
  · next hvalid =>
    split
    · next hlack => simp [hvalid, hlack]
    · next hlack =>
      simp only [hvalid, hlack, true_and, ite_eq_right_iff, reduceCtorEq, imp_false,
        Option.any_eq_true, Option.bind_eq_some_iff, decide_eq_true_eq, not_exists, not_and]
      grind

/-- A frame that nothing speaks against is taken in, and the indices stay in step. -/
theorem observe_accepted (hs : s.Sound c) (hr : s.refusalOf c f = none) :
    ∃ i d s₁ c₁ e₁ t c' e₂ e, (observe f).run s = .ok ⟨t, e₁ ++ e₂, .ok e⟩ ∧
      s.Arrives c f i d s₁ c₁ e₁ ∧ s₁.Indexed c₁ ∧ s₁.Settles c₁ f i d t c' e₂ ∧
      t.devices.at? i = some e ∧ t.Sound c' := by
  obtain ⟨hvalid, hlack, hclock⟩ := refusalOf_eq_none_iff.1 hr
  obtain ⟨hdevices, hname, hchannel⟩ := lacking_eq_none_iff.1 hlack
  have hrun₁ := reserve_run (f := f) hs.toIndexed fun i =>
    occupied_of_find? hs.toIndexed (m := f.source)
  rw [hlack] at hrun₁
  obtain ⟨i, d, s₁, c₁, e₁, hrun₂, harrive, hs₁, haim⟩ := arrive_run hs hvalid hdevices hclock
  obtain ⟨-, hnetworks, hchannels, -, hheard⟩ := harrive.frame
  obtain ⟨t, c', e₂, e, hrun₃, he, hsettle, ht⟩ := settle_run hs₁ harrive.device
    (f := f) (by rw [hnetworks]; exact hname)
    (by
      intro channel hf hnot
      rw [hchannels, hheard] at hnot
      rw [hchannels]
      refine hchannel channel hf fun j hj => ?_
      cases harrive with
      | revisits hfind =>
        obtain rfl := Option.some.inj (hfind.symm.trans hj)
        exact hnot
      | admits hfind => simp [hfind] at hj)
    haim
  refine ⟨i, d, s₁, c₁, e₁, t, c', e₂, e, ?_, harrive, hs₁, hsettle, he,
    hsettle.sound hs₁ harrive.device (fun j e hj he => ?_) ht⟩
  · rw [observe_eq, hvalid, Action.run_bind_of_ok (Action.run_require _ s), Action.run_read_bind,
      Action.run_bind_of_ok hrun₁, Action.run_bind_of_ok hrun₂, hrun₃]
    simp
  · have hcore := harrive.others hj
    rw [he, Option.map_some] at hcore
    obtain ⟨e', he', hee⟩ := Option.map_eq_some_iff.1 hcore.symm
    have haimed : e'.core.Aimed s₁.devices := (hs.aimed j e' he').mono fun _ _ => harrive.kept
    rw [hee] at haimed
    exact haimed

end AirSurvey.Survey

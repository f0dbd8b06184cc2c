import AirSurvey.Proofs.Survey.Eviction
import AirSurvey.Proofs.Survey.Settling
import Mathlib.Algebra.GroupWithZero.Nat

set_option autoImplicit false

/-!
Sweeping: the walk along the ages evicts the stale devices one by one, and then the others forget
the access points that are gone.
-/

namespace AirSurvey

namespace Survey

variable {s t u : Survey} {c c' : Chronicle} {now : Timestamp} {timeout : UInt32}

/-! ## Evicting several devices -/

namespace Thinned

variable {gone more : Nat → Bool}

theorem refl (s : Survey) : Thinned (fun _ => false) Device.core s s where
  settings := rfl
  core j := by simp
  handle j := by simp
  names := rfl
  numbers := rfl
  deviceOf m := by cases s.channels.deviceOf m <;> simp [Option.filter_some]
  entryOf m := by cases s.channels.deviceOf m <;> simp

theorem trans (h₁ : Thinned gone Device.core s t) (h₂ : Thinned more Device.core t u) :
    Thinned (fun j => gone j || more j) Device.core s u where
  settings := h₂.settings.trans h₁.settings
  core j := by
    rw [h₂.core, h₁.core]
    cases gone j <;> cases more j <;> simp
  handle j := by
    rw [h₂.handle, h₁.handle]
    cases gone j <;> cases more j <;> simp
  names := h₂.names.trans h₁.names
  numbers := h₂.numbers.trans h₁.numbers
  deviceOf m := by
    rw [h₂.deviceOf, h₁.deviceOf, Option.filter_filter]
    simp
  entryOf m := by
    rw [h₂.entryOf, h₁.entryOf, h₁.deviceOf]
    cases s.channels.deviceOf m with
    | none => simp
    | some j => cases hg : gone j <;> cases hm : more j <;> simp [hg, hm, Option.filter_some]

theorem without_without {coat : Device → Device} (h : Thinned gone coat s t) (c : Chronicle) :
    (c.without s.channels gone).without t.channels more =
      c.without s.channels fun j => gone j || more j := by
  simp only [Chronicle.without, List.filter_filter, Chronicle.mk.injEq]
  refine ⟨List.filter_congr fun j _ => ?_, List.filter_congr fun j _ => ?_,
    List.filter_congr fun m _ => ?_⟩
  · simp [Bool.and_comm]
  · simp [Bool.and_comm]
  · rw [h.deviceOf]
    cases s.channels.deviceOf m with
    | none => simp
    | some j => cases hg : gone j <;> cases hm : more j <;> simp [hg, hm, Option.filter_some]

end Thinned

/-- `t` is `s` once the stale devices among those in some slots, from first to last, are evicted;
the number is how many they were. -/
inductive Sweeps (now : Timestamp) (timeout : UInt32) :
    List Nat → Survey → Chronicle → Survey → Chronicle → List Event → Nat → Prop
  | done (s : Survey) (c : Chronicle) : Sweeps now timeout [] s c s c [] 0
  | spares {i : Nat} {r : List Nat} {d : Device} {s t : Survey} {c c' : Chronicle}
      {events : List Event} {n : Nat} (hd : s.devices.at? i = some d)
      (hfresh : d.isStale now timeout = false) (rest : Sweeps now timeout r s c t c' events n) :
      Sweeps now timeout (i :: r) s c t c' events n
  | evicts {i : Nat} {r : List Nat} {d : Device} {s t u : Survey} {c c' : Chronicle}
      {events : List Event} {n : Nat} (hstale : d.isStale now timeout = true)
      (step : s.Evicts c i d u)
      (rest : Sweeps now timeout r u (c.without s.channels (· == i)) t c' events n) :
      Sweeps now timeout (i :: r) s c t c' (s.evictNews c i d ++ events) (n + 1)

theorem sweepFrom_run (now : Timestamp) (timeout : UInt32) (r : List Nat) :
    ∀ {fuel : Nat} {s : Survey} {c : Chronicle} {l : List Nat}, s.Indexed c →
      c.ages = l ++ r → r.length ≤ fuel →
      ∃ t c' events n, (sweepFrom now timeout fuel r.head?).run s = .ok ⟨t, events, .ok n⟩ ∧
        Sweeps now timeout r s c t c' events n ∧ t.Indexed c' := by
  induction r with
  | nil =>
    intro fuel s c l hs hages hfuel
    exact ⟨s, c, [], 0, by simp [sweepFrom], .done s c, hs⟩
  | cons i r ih =>
    intro fuel s c l hs hages hfuel
    cases fuel with
    | zero => simp at hfuel
    | succ fuel =>
      have hfuel : r.length ≤ fuel := by simpa using hfuel
      have hspells := hs.roster.woven.spells ()
      rw [hages] at hspells
      have hnext := hspells.next?
      obtain ⟨d, hd⟩ := Option.isSome_iff_exists.1 ((hs.roster.mem i).1 (by simp [hages]))
      cases hstale : d.isStale now timeout with
      | false =>
        obtain ⟨t, c', events, n, hrun, hsweeps, ht⟩ :=
          ih (l := l ++ [i]) hs (by simp [hages]) hfuel
        refine ⟨t, c', events, n, ?_, .spares hd hstale hsweeps, ht⟩
        simp [sweepFrom, hnext, Pool.item_of_at? hd, hstale, hrun]
      | true =>
        obtain ⟨u, hevict, hstep⟩ := evict_run hs hd
        have hages' : (c.without s.channels (· == i)).ages = l ++ r := by
          have hnodup := List.nodup_middle.1 hspells.nodup
          rw [List.nodup_cons] at hnodup
          have hkeep : (l ++ r).filter (fun j => !(j == i)) = l ++ r :=
            List.filter_eq_self.2 fun j hj => by simpa using fun e : j = i => hnodup.1 (e ▸ hj)
          rw [Chronicle.without, hages, ← hkeep]
          simp
        obtain ⟨t, c', events, n, hrun, hsweeps, ht⟩ := ih hstep.indexed hages' hfuel
        refine ⟨t, c', _, n + 1, ?_, .evicts hstale hstep hsweeps, ht⟩
        simp [sweepFrom, hnext, Pool.item_of_at? hd, hstale, Action.run_bind_of_ok hevict, hrun]

def stale (s : Survey) (now : Timestamp) (timeout : UInt32) (j : Nat) : Bool :=
  (s.devices.at? j).any (·.isStale now timeout)

def channelCountAt (s : Survey) (j : Nat) : Nat :=
  ((s.devices.at? j).map fun d => d.channelCount.toNat).getD 0

theorem Thinned.stale {gone : Nat → Bool} (h : Thinned gone Device.core s t) (j : Nat) :
    t.stale now timeout j = (!gone j && s.stale now timeout j) := by
  have hcore : ∀ v : Survey, v.stale now timeout j =
      ((v.devices.at? j).map Device.core).any (·.isStale now timeout) := by
    intro v
    rw [Option.any_map]
    rfl
  rw [hcore, hcore, h.core]
  cases gone j <;> simp

theorem Thinned.channelCountAt {gone : Nat → Bool} (h : Thinned gone Device.core s t) {j : Nat}
    (hj : gone j = false) : t.channelCountAt j = s.channelCountAt j := by
  have hcore : ∀ v : Survey, v.channelCountAt j =
      (((v.devices.at? j).map Device.core).map fun d => d.channelCount.toNat).getD 0 := by
    intro v
    rw [Option.map_map]
    rfl
  rw [hcore, hcore, h.core, hj]
  rfl

namespace Sweeps

variable {r : List Nat} {events : List Event} {n : Nat}

theorem eq_of_zero (m : Sweeps now timeout r s c t c' events n) (hn : n = 0) :
    t = s ∧ c' = c ∧ events = [] := by
  induction m with
  | done => exact ⟨rfl, rfl, rfl⟩
  | spares _ _ _ ih => exact ih hn
  | evicts => cases hn

theorem thinned (m : Sweeps now timeout r s c t c' events n) (hnodup : r.Nodup) :
    Thinned (fun j => decide (j ∈ r) && s.stale now timeout j) Device.core s t ∧
      c' = c.without s.channels fun j => decide (j ∈ r) && s.stale now timeout j := by
  induction m with
  | done s c => exact ⟨by simpa using Thinned.refl s, by simp [Chronicle.without]⟩
  | @spares i r d s _ c _ _ _ hd hfresh _ ih =>
    have hgone : (fun j => decide (j ∈ i :: r) && s.stale now timeout j) =
        fun j => decide (j ∈ r) && s.stale now timeout j := by
      funext j
      by_cases hj : j = i
      · simp [hj, stale, hd, hfresh]
      · simp [hj]
    rw [hgone]
    exact ih (List.nodup_cons.1 hnodup).2
  | @evicts i r d s _ u c _ _ _ hstale step _ ih =>
    obtain ⟨hthinned, hchronicle⟩ := ih (List.nodup_cons.1 hnodup).2
    have hgone : (fun j => (j == i) || (decide (j ∈ r) && u.stale now timeout j)) =
        fun j => decide (j ∈ i :: r) && s.stale now timeout j := by
      funext j
      rw [step.thinned.stale]
      by_cases hj : j = i
      · simp [hj, stale, step.device, hstale]
      · have hji : (j == i) = false := by simpa using hj
        simp [hj, hji]
    rw [← hgone]
    exact ⟨step.thinned.trans hthinned, hchronicle.trans (step.thinned.without_without c)⟩

theorem filter_stale {i : Nat} {d : Device} (step : s.Evicts c i d u) (hi : i ∉ r) :
    r.filter (u.stale now timeout) = r.filter (s.stale now timeout) := by
  refine List.filter_congr fun j hj => ?_
  have hji : (j == i) = false := by simpa using fun e : j = i => hi (e ▸ hj)
  rw [step.thinned.stale, hji]
  rfl

theorem count (m : Sweeps now timeout r s c t c' events n) (hnodup : r.Nodup) :
    n = (r.filter (s.stale now timeout)).length := by
  induction m with
  | done => rfl
  | spares hd hfresh _ ih =>
    rw [List.filter_cons_of_neg (by simp [stale, hd, hfresh])]
    exact ih (List.nodup_cons.1 hnodup).2
  | evicts hstale step _ ih =>
    obtain ⟨hi, hnodup⟩ := List.nodup_cons.1 hnodup
    rw [List.filter_cons_of_pos (by simp [stale, step.device, hstale]), List.length_cons, ih hnodup,
      filter_stale step hi]

theorem presences (m : Sweeps now timeout r s c t c' events n) (hnodup : r.Nodup) :
    t.channels.presences.size + ((r.filter (s.stale now timeout)).map s.channelCountAt).sum =
      s.channels.presences.size := by
  induction m with
  | done => rfl
  | spares hd hfresh _ ih =>
    rw [List.filter_cons_of_neg (by simp [stale, hd, hfresh])]
    exact ih (List.nodup_cons.1 hnodup).2
  | @evicts i r d s _ u c _ _ _ hstale step _ ih =>
    obtain ⟨hi, hnodup⟩ := List.nodup_cons.1 hnodup
    have hrest := ih hnodup
    have hcounts : (r.filter (s.stale now timeout)).map u.channelCountAt =
        (r.filter (s.stale now timeout)).map s.channelCountAt := by
      refine List.map_congr_left fun j hj => step.thinned.channelCountAt ?_
      simpa using fun e : j = i => hi (e ▸ (List.mem_filter.1 hj).1)
    have hcount : s.channelCountAt i = d.channelCount.toNat := by
      simp [Survey.channelCountAt, step.device]
    rw [filter_stale step hi, hcounts] at hrest
    rw [List.filter_cons_of_pos (by simp [stale, step.device, hstale]), List.map_cons, List.sum_cons,
      hcount, ← step.presences, ← hrest]
    omega

end Sweeps

/-! ## Forgetting access points -/

def forgetGone (s : Survey) (d : Device) : Device :=
  { d with accessPoint := d.accessPoint.filter fun h => (s.device? h).isSome }

theorem dropDangling_run {i : Nat} {d : Device} (hd : s.devices.at? i = some d) :
    (dropDangling i).run s =
      .ok ⟨{ s with devices := s.devices.modifyAt i s.forgetGone }, [], .ok ()⟩ := by
  have hentry : ∀ x, s.devices.at? i = some x → x = d := fun x hx =>
    Option.some.inj (hx.symm.trans hd)
  by_cases hgone : d.accessPoint.any fun h => (s.device? h).isNone
  · have hforget : s.devices.modifyAt i s.forgetGone =
        s.devices.modifyAt i fun x => { x with accessPoint := none } := by
      refine Pool.modifyAt_congr fun x hx => ?_
      obtain ⟨h, hh, hnone⟩ := (Option.any_eq_true _ _).1 hgone
      simp only [forgetGone, hentry x hx, hh, Option.filter_some, Option.isNone_iff_eq_none.1 hnone]
      rfl
    simp [dropDangling, Action.run_bind_of_ok (deviceAt_run hd), hgone, changeDevice_run hd, hforget]
  · have hforget : s.devices.modifyAt i s.forgetGone = s.devices := by
      refine Pool.modifyAt_eq_self fun x hx => ?_
      rw [hentry x hx, forgetGone]
      cases hh : d.accessPoint with
      | none => rw [Option.filter_none, ← hh]
      | some h =>
        have hsome : (s.device? h).isSome := by
          simpa [hh, Option.isSome_iff_ne_none] using hgone
        rw [Option.filter_some, if_pos hsome, ← hh]
    simp [dropDangling, Action.run_bind_of_ok (deviceAt_run hd), hgone, hforget]

theorem forgetGone_devices (s : Survey) (i : Nat) :
    forgetGone { s with devices := s.devices.modifyAt i s.forgetGone } = s.forgetGone := by
  funext d
  have hlive : ∀ h, (device? { s with devices := s.devices.modifyAt i s.forgetGone } h).isSome =
      (s.device? h).isSome := by
    intro h
    rw [device?, device?, Pool.get?_modifyAt]
    split <;> simp
  simp only [forgetGone, hlive]

theorem forM_dropDangling_run (r : List Nat) : ∀ {s : Survey}, (∀ i ∈ r, (s.devices.at? i).isSome) →
    (r.forM dropDangling).run s = .ok
      ⟨{ s with devices := r.foldl (fun p i => p.modifyAt i s.forgetGone) s.devices }, [], .ok ()⟩ := by
  induction r with
  | nil => exact fun _ => rfl
  | cons i r ih =>
    intro s hr
    obtain ⟨d, hd⟩ := Option.isSome_iff_exists.1 (hr i (by simp))
    have hrest := ih (s := { s with devices := s.devices.modifyAt i s.forgetGone }) fun j hj => by
      rw [Pool.isSome_modifyAt]
      exact hr j (by simp [hj])
    rw [forgetGone_devices] at hrest
    change (dropDangling i >>= fun _ => r.forM dropDangling).run s = _
    rw [Action.run_bind_of_ok (dropDangling_run hd), hrest]
    simp

def cleansed (s : Survey) (r : List Nat) : Survey :=
  { s with devices := r.foldl (fun p i => p.modifyAt i s.forgetGone) s.devices }

theorem dropAllDangling_run (hs : s.Indexed c) :
    dropAllDangling.run s = .ok ⟨s.cleansed c.ages, [], .ok ()⟩ := by
  simp only [dropAllDangling, Action.run_read_bind, (hs.roster.woven.spells ()).toList,
    Action.lift_eq_attempt, Action.run_attempt_ok_bind]
  exact forM_dropDangling_run c.ages fun i hi => (hs.roster.mem i).1 hi

theorem view_cleansed {β : Type} (s : Survey) (r : List Nat) (g : Device → β)
    (hg : ∀ x a, g { x with accessPoint := a } = g x) :
    (s.cleansed r).devices.view g = s.devices.view g :=
  Pool.view_foldl_modifyAt (f := s.forgetGone) g (fun x => hg x _) r s.devices

theorem cleansed_indexed (hs : s.Indexed c) (r : List Nat) : (s.cleansed r).Indexed c :=
  hs.of_places (s.view_cleansed r Device.places fun _ _ => rfl)

theorem at?_cleansed (hs : s.Indexed c) (j : Nat) :
    (s.cleansed c.ages).devices.at? j = (s.devices.at? j).map s.forgetGone := by
  have hidem : ∀ x, s.forgetGone (s.forgetGone x) = s.forgetGone x := by
    intro x
    simp [forgetGone, Option.filter_filter]
  rw [cleansed, Pool.at?_foldl_modifyAt hidem]
  cases hj : s.devices.at? j <;> simp [hs.roster.mem, hj]

theorem cleansed_eq_self (hs : s.Sound c) (r : List Nat) : s.cleansed r = s := by
  rw [cleansed, Pool.foldl_modifyAt_eq_self]
  intro i d hd
  have hkept : d.accessPoint.filter (fun h => (s.device? h).isSome) = d.accessPoint := by
    cases hh : d.accessPoint with
    | none => rfl
    | some h =>
      obtain ⟨a, ha, -⟩ := hs.aimed i d hd h hh
      simp [Option.filter_some, device?, ha]
  rw [forgetGone, hkept]

/-! ## The whole sweep -/

def swept (u : Survey) (c : Chronicle) (n : Nat) : Survey :=
  if n = 0 then u else u.cleansed c.ages

def sweptNews (u : Survey) (events : List Event) (n : Nat) : List Event :=
  if n = 0 then [] else events ++ [.swept n u.size]

theorem sweep_run (hs : s.Indexed c) (now : Timestamp) (timeout : UInt32) :
    ∃ u c' events n, Sweeps now timeout c.ages s c u c' events n ∧ u.Indexed c' ∧
      (sweep now timeout).run s = .ok ⟨u.swept c' n, u.sweptNews events n, .ok ()⟩ := by
  have hspells := hs.roster.woven.spells ()
  have hlength : c.ages.length ≤ s.devices.size :=
    hs.roster.pool.length_le_size hspells.nodup fun i hi => (hs.roster.mem i).1 hi
  obtain ⟨u, c', events, n, hrun, hsweeps, hu⟩ :=
    sweepFrom_run now timeout c.ages (l := []) hs rfl hlength
  rw [← hspells.first?] at hrun
  refine ⟨u, c', events, n, hsweeps, hu, ?_⟩
  by_cases hn : n = 0
  · obtain ⟨-, -, rfl⟩ := hsweeps.eq_of_zero hn
    simp [sweep, Action.run_bind_of_ok hrun, hn, swept, sweptNews]
  · have hsize : (u.cleansed c'.ages).size = u.size :=
      Pool.size_of_view_eq (u.view_cleansed c'.ages Device.places fun _ _ => rfl)
    simp [sweep, Action.run_bind_of_ok hrun, hn, Action.run_bind_of_ok (dropAllDangling_run hu),
      hsize, swept, sweptNews]

theorem Thinned.get? {gone : Nat → Bool} {coat : Device → Device} (h : Thinned gone coat s t)
    (k : Handle) : (t.devices.get? k).map Device.core =
      if gone k.index then none else (s.devices.get? k).map coat := by
  rw [Pool.get?_eq, Pool.get?_eq, h.handle]
  have hcore := h.core k.index
  cases hk : gone k.index <;> by_cases hh : s.devices.handleAt? k.index = some k <;>
    simp_all

/-- What a sweep leaves of a device that stays. -/
def survivor (gone : Nat → Bool) (d : Device) : Device :=
  { d.core with accessPoint := d.accessPoint.filter fun h => !gone h.index }

theorem Thinned.cleansed {gone : Nat → Bool} (h : Thinned gone Device.core s u) (hs : s.Sound c)
    (hu : u.Indexed c') : Thinned gone (survivor gone) s (u.cleansed c'.ages) where
  settings := h.settings
  core j := by
    have hcore : ∀ o : Option Device, (o.map u.forgetGone).map Device.core =
        (o.map Device.core).map u.forgetGone := fun o => by
      rw [Option.map_map, Option.map_map]
      rfl
    rw [at?_cleansed hu, hcore, h.core]
    cases hj : gone j with
    | true => rfl
    | false =>
      cases hd : s.devices.at? j with
      | none => rfl
      | some d =>
        have hkept : ∀ k, d.accessPoint = some k → (u.device? k).isSome = !gone k.index := by
          intro k hk
          obtain ⟨a, ha, -⟩ := hs.aimed j d hd k hk
          have hget := congrArg Option.isSome (h.get? k)
          rw [ha] at hget
          cases hg : gone k.index <;> simpa [hg, device?] using hget
        cases hk : d.accessPoint with
        | none => simp [forgetGone, survivor, Device.core, hk]
        | some k => simp [forgetGone, survivor, Device.core, hk, Option.filter_some, hkept k hk]
  handle j := by
    rw [← h.handle, Pool.handleAt?_of_view_eq (u.view_cleansed _ Device.places fun _ _ => rfl)]
  names := h.names
  numbers := h.numbers
  deviceOf := h.deviceOf
  entryOf := h.entryOf

theorem Thinned.sound {gone : Nat → Bool} (h : Thinned gone (survivor gone) s t) (hs : s.Sound c)
    (ht : t.Indexed c') : t.Sound c' where
  toIndexed := ht
  aimed j e he k hk := by
    have hcore := h.core j
    rw [he, Option.map_some] at hcore
    split at hcore
    · cases hcore
    · obtain ⟨d, hd, hde⟩ := Option.map_eq_some_iff.1 hcore.symm
      have haccess : d.accessPoint.filter (fun k => !gone k.index) = some k :=
        (congrArg Device.accessPoint hde :).trans hk
      obtain ⟨hdk, hgone⟩ := Option.filter_eq_some_iff.1 haccess
      obtain ⟨a, ha, hstation, hbssid⟩ := hs.aimed j d hd k hdk
      have hget := h.get? k
      rw [if_neg (by simpa using hgone), ha, Option.map_some, Option.map_eq_some_iff] at hget
      obtain ⟨b, hb, hba⟩ := hget
      have haddress : b.address = a.address := (congrArg Device.address hba :)
      have hstation' : d.isStation = e.isStation := (congrArg Device.isStation hde :)
      have hbssid' : d.profile.bssid = e.profile.bssid :=
        (congrArg (fun d => d.profile.bssid) hde :)
      exact ⟨b, hb, hstation' ▸ hstation, by rw [← hbssid', hbssid, haddress]⟩

theorem stale_eq_false (hs : s.Indexed c) {j : Nat} (hj : j ∉ c.ages) :
    s.stale now timeout j = false := by
  have hnone : s.devices.at? j = none := by simpa [hs.roster.mem] using hj
  simp [stale, hnone]

namespace Sweeps

variable {events : List Event} {n : Nat}

theorem swept_eq (m : Sweeps now timeout c.ages s c u c' events n) (hs : s.Sound c) :
    u.swept c' n = u.cleansed c'.ages := by
  rw [swept]
  split
  · next hn =>
    obtain ⟨rfl, -, -⟩ := m.eq_of_zero hn
    rw [cleansed_eq_self hs]
  · rfl

/-- The stale devices are gone after a sweep, and of the others only their access points may be. -/
theorem swept_thinned (m : Sweeps now timeout c.ages s c u c' events n) (hs : s.Sound c)
    (hu : u.Indexed c') :
    Thinned (s.stale now timeout) (survivor (s.stale now timeout)) s (u.swept c' n) ∧
      c' = c.without s.channels (s.stale now timeout) := by
  obtain ⟨hthinned, hchronicle⟩ := m.thinned (hs.roster.woven.spells ()).nodup
  have hgone : (fun j => decide (j ∈ c.ages) && s.stale now timeout j) = s.stale now timeout := by
    funext j
    by_cases hj : j ∈ c.ages
    · simp [hj]
    · simp [hj, stale_eq_false hs.toIndexed hj]
  rw [hgone] at hthinned hchronicle
  rw [m.swept_eq hs]
  exact ⟨hthinned.cleansed hs hu, hchronicle⟩

theorem swept_sound (m : Sweeps now timeout c.ages s c u c' events n) (hs : s.Sound c)
    (hu : u.Indexed c') : (u.swept c' n).Sound c' := by
  have hthinned := (m.swept_thinned hs hu).1
  rw [m.swept_eq hs] at hthinned ⊢
  exact hthinned.sound hs (cleansed_indexed hu _)

theorem swept_presences (m : Sweeps now timeout c.ages s c u c' events n) (hs : s.Sound c) :
    (u.swept c' n).channels.presences.size +
        ((c.ages.filter (s.stale now timeout)).map s.channelCountAt).sum =
      s.channels.presences.size := by
  rw [m.swept_eq hs]
  exact m.presences (hs.roster.woven.spells ()).nodup

theorem swept_eq_self (m : Sweeps now timeout c.ages s c u c' events n) (hs : s.Sound c)
    (hnone : ∀ j, s.stale now timeout j = false) : u.swept c' n = s := by
  have hn : n = 0 := by
    rw [m.count (hs.roster.woven.spells ()).nodup,
      List.filter_eq_nil_iff.2 fun j _ => by simp [hnone j]]
    rfl
  obtain ⟨rfl, -, -⟩ := m.eq_of_zero hn
  rw [m.swept_eq hs, cleansed_eq_self hs]

end Sweeps

theorem sweep_thins (hs : s.Sound c) (now : Timestamp) (timeout : UInt32) :
    ∃ t events, (sweep now timeout).run s = .ok ⟨t, events, .ok ()⟩ ∧
      t.Sound (c.without s.channels (s.stale now timeout)) ∧
      Thinned (s.stale now timeout) (survivor (s.stale now timeout)) s t ∧
      t.channels.presences.size +
          ((c.ages.filter (s.stale now timeout)).map s.channelCountAt).sum =
        s.channels.presences.size ∧
      ((∀ j, s.stale now timeout j = false) → t = s) := by
  obtain ⟨u, c', events, n, hsweeps, hu, hrun⟩ := sweep_run hs.toIndexed now timeout
  obtain ⟨hthinned, rfl⟩ := hsweeps.swept_thinned hs hu
  exact ⟨_, _, hrun, hsweeps.swept_sound hs hu, hthinned, hsweeps.swept_presences hs,
    hsweeps.swept_eq_self hs⟩

end Survey

end AirSurvey

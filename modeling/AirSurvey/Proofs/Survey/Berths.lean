import AirSurvey.Proofs.Survey.Renewal

set_option autoImplicit false

/-!
Where devices are kept. The outlook of a survey does not tell slots and handles, but it tells what
becomes of them: which addresses get a slot and in which order slots are given back. So surveys that
look alike go on giving out the same handles, if they have done so.
-/

namespace AirSurvey

/-- The slots of devices, whatever is in them, and which one an address has. -/
structure Berths where
  slots : Pool Unit Capacity.devices
  slotOf : MacAddress → Option Nat

namespace Berths

variable (b : Berths)

def handleOf? (m : MacAddress) : Option Handle := (b.slotOf m).bind b.slots.handleAt?

def housed (m : MacAddress) : Berths :=
  match b.slots.insert? fun _ => () with
  | some (h, slots) => ⟨slots, fun a => if a = m then some h.index else b.slotOf a⟩
  | none => b

/-- Without some addresses, whose slots are given back one by one. -/
def without (l : List MacAddress) : Berths where
  slots := (l.filterMap b.slotOf).foldl Pool.release b.slots
  slotOf a := if a ∈ l then none else b.slotOf a

def swept (x : Outlook) (now : Timestamp) (timeout : UInt32) : Berths :=
  b.without (x.tracked.filter (x.isStale now timeout))

def next (x : Outlook) : Operation → Berths
  | .observe f => if x.verdict f = none ∧ f.source ∉ x.tracked then b.housed f.source else b
  | .sweep now timeout => b.swept x now timeout
  | .expire now => b.swept x now x.settings.timeout
  | .purge => b
  | .clear => ⟨b.slots.clear, fun _ => none⟩

end Berths

namespace Survey

variable {s t u : Survey} {c c' : Chronicle} {f : Frame} {i : Nat} {d : Device}
  {events : List Event} {now : Timestamp} {timeout : UInt32} {n : Nat}

def berths (s : Survey) : Berths := ⟨s.devices.skeleton, s.addresses.find?⟩

/-! ## Frames -/

theorem Arrives.berths (m : s.Arrives c f i d t c' events) (hs : s.Indexed c) :
    t.berths = if f.source ∈ (s.outlook c).tracked then s.berths else s.berths.housed f.source := by
  have htracked : f.source ∈ (s.outlook c).tracked ↔ (s.addresses.find? f.source).isSome :=
    mem_addressesByAge hs
  cases m with
  | revisits hfind =>
    rw [if_pos (htracked.2 (by rw [hfind]; rfl)), Survey.berths, Survey.berths]
    exact congrArg (Berths.mk · _)
      (Pool.skeleton_of_view_eq (Pool.view_modifyAt_of_eq (fun _ => ()) _ _ _ fun _ => rfl))
  | admits hfind ht hview hy =>
    have hnew : ¬f.source ∈ (s.outlook c).tracked := by simp [htracked, hfind]
    rw [if_neg hnew, Berths.housed]
    change _ = match s.devices.skeleton.insert? (fun _ => ()) with
      | some (h, slots) => _
      | none => _
    rw [ht.skeleton, Survey.berths, Berths.mk.injEq]
    exact ⟨Pool.skeleton_of_view_eq hview, funext (AddressIndex.find?_insert? hy)⟩

theorem Settles.berths {e₂ : List Event} (m : s.Settles c f i d t c' e₂) : t.berths = s.berths := by
  obtain ⟨-, haddresses, -⟩ := m.frame
  rw [Survey.berths, haddresses, Pool.skeleton_of_view_eq m.touched.view, Survey.berths]

/-! ## Sweeps -/

theorem isStale_outlook (hs : s.Indexed c) (hd : s.devices.at? i = some d) (now : Timestamp)
    (timeout : UInt32) : (s.outlook c).isStale now timeout d.address = d.isStale now timeout := by
  rw [Outlook.isStale, dossier_outlook hs hd, dossierAt, hd]
  rfl

/-- The slots of the stale devices are given back, those of the newest first. -/
theorem Sweeps.skeleton {r : List Nat} (m : Sweeps now timeout r s c t c' events n)
    (hnodup : r.Nodup) : t.devices.skeleton =
      (r.filter (s.stale now timeout)).foldl Pool.release s.devices.skeleton := by
  induction m with
  | done => rfl
  | spares hd hfresh _ ih =>
    rw [List.filter_cons_of_neg (by simp [stale, hd, hfresh])]
    exact ih (List.nodup_cons.1 hnodup).2
  | evicts hstale step _ ih =>
    obtain ⟨hi, hnodup⟩ := List.nodup_cons.1 hnodup
    rw [List.filter_cons_of_pos (by simp [stale, step.device, hstale]), List.foldl_cons, ih hnodup,
      filter_stale step hi, step.slots]

theorem stale_slots (hs : s.Indexed c) (now : Timestamp) (timeout : UInt32) :
    c.ages.filter (s.stale now timeout) =
      ((s.outlook c).tracked.filter ((s.outlook c).isStale now timeout)).filterMap
        s.addresses.find? := by
  change _ = ((c.ages.filterMap (addressIn s.devices)).filter _).filterMap _
  rw [List.filter_filterMap, List.filterMap_filterMap, ← List.filterMap_eq_filter]
  refine List.filterMap_congr fun j hj => ?_
  obtain ⟨d, hd⟩ := Option.isSome_iff_exists.1 ((hs.roster.mem j).1 hj)
  have hfind := (hs.roster.found d.address j).2 ⟨d, hd, rfl⟩
  have hstale : s.stale now timeout j = d.isStale now timeout := by simp [stale, hd]
  rw [addressIn_of_at? hd, Option.filter_some, isStale_outlook hs hd, Option.guard, hstale]
  cases d.isStale now timeout <;> simp [hfind]

theorem Sweeps.swept_skeleton (m : Sweeps now timeout c.ages s c u c' events n) (hs : s.Sound c) :
    (u.swept c' n).devices.skeleton =
      (c.ages.filter (s.stale now timeout)).foldl Pool.release s.devices.skeleton := by
  rw [m.swept_eq hs, ← m.skeleton (hs.roster.woven.spells ()).nodup]
  exact Pool.skeleton_of_view_eq (u.view_cleansed c'.ages (fun _ => ()) fun _ _ => rfl)

theorem Sweeps.berths (m : Sweeps now timeout c.ages s c u c' events n) (hs : s.Sound c)
    (hu : u.Indexed c') :
    (u.swept c' n).berths = s.berths.swept (s.outlook c) now timeout := by
  have ht := (m.swept_sound hs hu).toIndexed
  have hthinned := (m.swept_thinned hs hu).1
  rw [Survey.berths, Berths.swept, Berths.without, Berths.mk.injEq]
  constructor
  · rw [m.swept_skeleton hs, stale_slots hs.toIndexed]
    rfl
  · funext a
    rw [hthinned.find? (fun _ => rfl) hs.toIndexed ht]
    change _ = if a ∈ (s.outlook c).tracked.filter _ then none else s.addresses.find? a
    cases hfind : s.addresses.find? a with
    | none => rw [Option.filter_none, ite_self]
    | some i =>
      obtain ⟨d, hd, rfl⟩ := (hs.roster.found a i).1 hfind
      have htracked : d.address ∈ (s.outlook c).tracked :=
        (mem_addressesByAge hs.toIndexed).2 (by rw [hfind]; rfl)
      have hstale : s.stale now timeout i = d.isStale now timeout := by simp [stale, hd]
      have hgone : d.address ∈ (s.outlook c).tracked.filter ((s.outlook c).isStale now timeout) ↔
          d.isStale now timeout = true := by
        rw [List.mem_filter, isStale_outlook hs.toIndexed hd]
        exact and_iff_right htracked
      rw [Option.filter_some, hstale]
      cases hold : d.isStale now timeout <;> simp [hgone, hold]

theorem Becomes.berths {o : Operation} {answer : Except Refusal Reply}
    (m : s.Becomes c o t c' events answer) (hs : s.Sound c) :
    t.berths = s.berths.next (s.outlook c) o := by
  cases m with
  | refuses hrefusal =>
    rw [refusalOf_outlook hs.toIndexed] at hrefusal
    rw [Berths.next, if_neg (by simp [hrefusal])]
  | @observes f i d e s₁ _ c₁ _ e₁ e₂ hrefusal harrives hindexed hsettles =>
    rw [refusalOf_outlook hs.toIndexed] at hrefusal
    rw [hsettles.berths, harrives.berths hs.toIndexed, Berths.next]
    by_cases htracked : f.source ∈ (s.outlook c).tracked <;> simp [hrefusal, htracked]
  | sweeps hoperation hsweeps hindexed =>
    have hberths := hsweeps.berths hs hindexed
    obtain rfl | ⟨rfl, rfl⟩ := hoperation
    · exact hberths
    · exact hberths
  | purges => rfl
  | clears =>
    rw [Berths.next, Survey.berths]
    exact congrArg (Berths.mk · _) s.devices.skeleton_clear

end Survey

end AirSurvey

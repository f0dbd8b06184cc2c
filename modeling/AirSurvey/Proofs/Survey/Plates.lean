import AirSurvey.Proofs.Survey.Renewal

set_option autoImplicit false

/-!
Where networks are kept. Like the slots of devices, those of networks are not told by the outlook of
a survey, but the outlook tells what becomes of them. Devices that come and go within their networks
leave no trace here: only a frame with a new name takes a slot, and only a purge gives slots back.
-/

namespace AirSurvey

/-- The slots of networks with the names that stand there. -/
abbrev Plates := Pool NetworkName Capacity.networks

namespace Plates

variable (p : Plates)

def withName (name : NetworkName) : Plates :=
  if p.entries.any fun e => e.2 == name then p
  else (p.insert? fun _ => name).elim p Prod.snd

def next (x : Outlook) : Operation → Plates
  | .observe f => if x.verdict f = none then (x.newName f).elim p p.withName else p
  | .sweep .. => p
  | .expire .. => p
  | .purge => ((p.entries.filter fun e => (x.members e.2).isEmpty).map fun e => e.1.index).foldl
      Pool.release p
  | .clear => p.clear

end Plates

namespace Survey

variable {s t : Survey} {c c' : Chronicle} {f : Frame} {i : Nat} {d : Device}
  {events : List Event} {o : Operation} {answer : Except Refusal Reply}

def plates (s : Survey) : Plates := s.networks.pool.view Network.name

theorem plates_known (s : Survey) (name : NetworkName) :
    (s.plates.entries.any fun e => e.2 == name) = (s.networks.find? name.text).isSome := by
  rw [plates, Pool.entries_view, List.any_map, ← knowsName_eq, knowsName]
  rfl

theorem FollowsName.plates (m : s.FollowsName c f i d t c' events) (hs : s.Indexed c)
    (hd : s.devices.at? i = some d) (hsource : d.address = f.source) :
    t.plates = ((s.outlook c).newName f).elim s.plates s.plates.withName := by
  cases m with
  | stays hstays =>
    rw [newName_of_stays hs hd hsource hstays]
    rfl
  | @moves name h q v hvisible hother hmoved =>
    obtain ⟨u, hentered, hcore⟩ := hmoved.networks
    have hview : v.pool.view Network.name = u.pool.view Network.name :=
      (Pool.view_eq_comp hcore Prod.fst).trans (u.departed_names _ _)
    rw [newName_of_moves hs hd hsource hvisible hother, Option.elim_some, Plates.withName,
      plates_known]
    cases hentered with
    | known hfind =>
      rw [hfind, Option.isSome_some, if_pos rfl]
      exact hview
    | made hfind ht =>
      rw [hfind, Option.isSome_none, if_neg Bool.false_ne_true]
      have hinserted : s.plates.insert? (fun _ => name) = some (h, _) := ht.view Network.name
      rw [hinserted]
      exact hview

theorem Settles.plates (m : s.Settles c f i d t c' events) (hs : s.Indexed c)
    (hd : s.devices.at? i = some d) (hsource : d.address = f.source) :
    t.plates = ((s.outlook c).newName f).elim s.plates s.plates.withName := by
  obtain ⟨hname, hchannel, -, hlook⟩ := m
  obtain ⟨-, -, -, hnetworks, -⟩ := hchannel.frame
  rw [← hname.plates hs hd hsource, Survey.plates, Survey.plates, ← hnetworks]
  cases hlook with
  | outside => rfl
  | inside => exact Pool.view_modifyAt_of_eq _ _ _ _ fun _ => rfl

theorem plates_purge (hs : s.Indexed c) :
    s.purgeNetworks.2.plates = s.plates.next (s.outlook c) .purge := by
  have hgone : (s.plates.entries.filter fun e => ((s.outlook c).members e.2).isEmpty).map
      (fun e => e.1.index) = s.networks.emptyOnes.map Handle.index := by
    rw [Survey.plates, Pool.entries_view, List.filter_map, List.map_map,
      NetworkTable.emptyOnes, List.map_map]
    refine congrArg (List.map _) (List.filter_congr fun e he => ?_)
    exact (isEmpty_outlook hs ((Pool.mem_entries _ _ _).1 he)).symm
  rw [Plates.next, hgone, Survey.plates, Survey.plates, ← Pool.view_foldl_release, List.foldl_map]
  rfl

theorem Becomes.plates (m : s.Becomes c o t c' events answer) (hs : s.Sound c) :
    t.plates = s.plates.next (s.outlook c) o := by
  cases m with
  | refuses hrefusal =>
    rw [refusalOf_outlook hs.toIndexed] at hrefusal
    rw [Plates.next, if_neg (by simp [hrefusal])]
  | @observes f i d e s₁ _ c₁ _ e₁ e₂ hrefusal harrives hindexed hsettles =>
    have hkept : s₁.plates = s.plates := by
      rw [Survey.plates, harrives.frame.2.1, Survey.plates]
    rw [refusalOf_outlook hs.toIndexed] at hrefusal
    rw [hsettles.plates hindexed harrives.device (harrives.address hs.toIndexed),
      harrives.newName hs.toIndexed hindexed, hkept, Plates.next, if_pos hrefusal]
  | sweeps hoperation hsweeps hindexed =>
    have hnames := (hsweeps.swept_thinned hs hindexed).1.names
    obtain rfl | ⟨rfl, -⟩ := hoperation
    · exact hnames
    · exact hnames
  | purges => exact plates_purge hs.toIndexed
  | clears => exact Pool.view_clear _ _

end Survey

end AirSurvey

import AirSurvey.Proofs.Pool

set_option autoImplicit false

/-!
The slots of a pool, whatever is in them. Taking a slot leaves every generation as it is, and giving
an entry back moves on the generation of its slot and no other; so the generation of a slot counts
how often it was given back, as far as its bits go.
-/

namespace AirSurvey.Pool

variable {α β : Type} {capacity : Nat} {p q : Pool α capacity}

/-! ## Slots apart from what is in them -/

theorem view_release (g : α → β) (p : Pool α capacity) (i : Nat) :
    (p.release i).view g = (p.view g).release i := by
  have hat := at?_view g p i
  cases hi : p.at? i with
  | none => rw [release, release, hat, hi, Option.map_none]
  | some x =>
    rw [release, release, hat, hi, Option.map_some]
    simp only [view, Pool.mk.injEq, and_true]
    apply Array.ext_getElem?
    intro j
    simp only [Array.getElem?_map, Array.getElem?_modify]
    cases p.slots[j]? with
    | none => simp
    | some s => by_cases hj : i = j <;> simp [hj, Slot.vacate]

theorem view_foldl_release (g : α → β) (is : List Nat) (p : Pool α capacity) :
    (is.foldl release p).view g = is.foldl release (p.view g) := by
  induction is generalizing p with
  | nil => rfl
  | cons i is ih => rw [List.foldl_cons, List.foldl_cons, ih, view_release]

theorem entries_view (g : α → β) (p : Pool α capacity) :
    (p.view g).entries = p.entries.map fun e => (e.1, g e.2) := by
  simp only [entries, view, Array.toList_map, List.zipIdx_map, List.filterMap_map,
    List.map_filterMap]
  refine List.filterMap_congr fun x _ => ?_
  obtain ⟨⟨k, e⟩, i⟩ := x
  cases e <;> rfl

theorem view_clear (g : α → β) (p : Pool α capacity) : p.clear.view g = (p.view g).clear := by
  have hentries : ((p.view g).entries.map fun e => e.1.index) =
      p.entries.map fun e => e.1.index := by
    rw [entries_view, List.map_map]
    rfl
  rw [clear, clear, hentries]
  simp only [view, Pool.mk.injEq, and_true]
  apply Array.ext_getElem?
  intro j
  simp only [Array.getElem?_map]
  cases p.slots[j]? with
  | none => rfl
  | some s =>
    obtain ⟨k, e⟩ := s
    cases e <;> rfl

theorem view_occupy (g : α → β) (p : Pool α capacity) (i : Nat) (build : Handle → α) :
    (p.view g).occupy i (fun h => g (build h)) =
      ((p.occupy i build).1, (p.occupy i build).2.view g) := by
  have hhandle : ((p.view g).slots[i]?.getD .fresh).generation =
      (p.slots[i]?.getD .fresh).generation := by
    rw [view, Array.getElem?_map]
    cases p.slots[i]? <;> rfl
  simp only [occupy, hhandle, Prod.mk.injEq, true_and]
  simp only [view, Pool.mk.injEq, and_true]
  apply Array.ext_getElem?
  intro j
  simp only [Array.getElem?_map, Array.getElem?_modify]
  cases p.slots[j]? with
  | none => simp
  | some s => by_cases hj : i = j <;> simp [hj]

/-- Which slot is taken next does not depend on the entries. -/
theorem view_insert? (g : α → β) (p : Pool α capacity) (build : Handle → α) :
    (p.view g).insert? (fun h => g (build h)) =
      (p.insert? build).map fun x => (x.1, x.2.view g) := by
  have hfree : (p.view g).free = p.free := rfl
  have hsize : (p.view g).slots.size = p.slots.size := view_slots_size _ p
  rw [insert?, insert?, hfree]
  cases p.free with
  | cons i rest => exact congrArg some (view_occupy g { p with free := rest } i build)
  | nil =>
    rw [hsize]
    dsimp only
    split
    · have hpush : (⟨(p.view g).slots.push .fresh, [], (p.view g).size⟩ : Pool β capacity) =
          view g ⟨p.slots.push .fresh, [], p.size⟩ := by
        simp [view, Slot.fresh]
      rw [hpush]
      exact congrArg some (view_occupy g _ _ build)
    · rfl

theorem Taken.view {build : Handle → α} {h : Handle} (ht : p.Taken build h q) (g : α → β) :
    (p.view g).insert? (fun h => g (build h)) = some (h, q.view g) := by
  rw [view_insert?, ht.inserted]
  rfl

def skeleton (p : Pool α capacity) : Pool Unit capacity := p.view fun _ => ()

theorem skeleton_of_view_eq {g : α → β} (h : q.view g = p.view g) : q.skeleton = p.skeleton :=
  view_eq_comp h fun _ => ()

theorem skeleton_release (p : Pool α capacity) (i : Nat) :
    (p.release i).skeleton = p.skeleton.release i := view_release _ p i

theorem skeleton_foldl_release (is : List Nat) (p : Pool α capacity) :
    (is.foldl release p).skeleton = is.foldl release p.skeleton := view_foldl_release _ is p

theorem skeleton_clear (p : Pool α capacity) : p.clear.skeleton = p.skeleton.clear :=
  view_clear _ p

theorem Taken.skeleton {build : Handle → α} {h : Handle} (ht : p.Taken build h q) :
    p.skeleton.insert? (fun _ => ()) = some (h, q.skeleton) := ht.view _

theorem insert?_cases {build : Handle → α} {h : Handle} (hinserted : p.insert? build = some (h, q)) :
    (∃ i rest, p.free = i :: rest ∧ q = (occupy { p with free := rest } i build).2) ∨
      p.free = [] ∧
        q = (occupy { p with slots := p.slots.push .fresh } p.slots.size build).2 := by
  rw [insert?] at hinserted
  cases hfree : p.free with
  | cons i rest =>
    rw [hfree] at hinserted
    exact .inl ⟨i, rest, rfl, (Prod.mk.inj (Option.some.inj hinserted)).2.symm⟩
  | nil =>
    rw [hfree] at hinserted
    dsimp only at hinserted
    split at hinserted
    · exact .inr ⟨rfl, (Prod.mk.inj (Option.some.inj hinserted)).2.symm⟩
    · cases hinserted

/-! ## Generations -/

/-- The generation of a slot; that of a slot never used before is the first. -/
def generation (p : Pool α capacity) (i : Nat) : UInt32 := (p.slots[i]?.getD .fresh).generation

theorem get?_eq_generation (p : Pool α capacity) (h : Handle) :
    p.get? h = if p.generation h.index = h.generation then p.at? h.index else none := by
  rw [get?, generation, at?]
  cases p.slots[h.index]? with
  | none => simp
  | some s => rfl

theorem generation_skeleton (p : Pool α capacity) (i : Nat) :
    p.skeleton.generation i = p.generation i := by
  simp only [generation, skeleton, view, Array.getElem?_map]
  cases p.slots[i]? <;> rfl

theorem generation_of_view_eq {g : α → β} (h : q.view g = p.view g) (i : Nat) :
    q.generation i = p.generation i := by
  rw [← generation_skeleton, skeleton_of_view_eq h, generation_skeleton]

theorem generation_occupy (p : Pool α capacity) (i j : Nat) (build : Handle → α) :
    (p.occupy i build).2.generation j = p.generation j := by
  simp only [generation, occupy, Array.getElem?_modify]
  split <;> cases p.slots[j]? <;> rfl

theorem generation_push_fresh (p : Pool α capacity) (j : Nat) :
    generation ({ p with slots := p.slots.push .fresh } : Pool α capacity) j = p.generation j := by
  simp only [generation, Array.getElem?_push]
  split
  · next h => simp [h]
  · rfl

theorem Taken.generation {build : Handle → α} {h : Handle} (ht : p.Taken build h q) (i : Nat) :
    q.generation i = p.generation i := by
  obtain ⟨j, rest, -, rfl⟩ | ⟨-, rfl⟩ := insert?_cases ht.inserted
  · exact generation_occupy { p with free := rest } j i build
  · exact (generation_occupy _ _ i build).trans (p.generation_push_fresh i)

theorem generation_release (p : Pool α capacity) (i j : Nat) :
    (p.release i).generation j =
      p.generation j + if i = j ∧ (p.at? j).isSome then 1 else 0 := by
  cases hi : p.at? i with
  | none =>
    have hnone : ¬(i = j ∧ (p.at? j).isSome = true) := by
      rintro ⟨rfl, hsome⟩
      simp [hi] at hsome
    rw [release, hi, if_neg hnone, UInt32.add_zero]
  | some x =>
    by_cases hj : i = j
    · subst hj
      obtain ⟨s, hs, -⟩ := Option.bind_eq_some_iff.1 hi
      simp [release, generation, hi, hs, Array.getElem?_modify, Slot.vacate]
    · simp [release, generation, hi, hj, Array.getElem?_modify]

theorem generation_foldl_release (is : List Nat) (p : Pool α capacity) (j : Nat) :
    (is.foldl release p).generation j =
      p.generation j + if j ∈ is ∧ (p.at? j).isSome then 1 else 0 := by
  induction is generalizing p with
  | nil => simp
  | cons i is ih =>
    rw [List.foldl_cons, ih, generation_release, at?_release, UInt32.add_assoc]
    congr 1
    by_cases hj : i = j
    · subst hj
      cases p.at? i <;> simp
    · have hj' : ¬ j = i := fun e => hj e.symm
      simp [hj, hj']

theorem generation_clear (p : Pool α capacity) (j : Nat) :
    p.clear.generation j = p.generation j + if (p.at? j).isSome then 1 else 0 := by
  cases hs : p.slots[j]? with
  | none => simp [generation, at?, clear, hs]
  | some s =>
    obtain ⟨g, e⟩ := s
    cases e <;> simp [generation, at?, clear, hs, Slot.vacate]

end AirSurvey.Pool

import AirSurvey.Pool
import Mathlib.Data.List.Nodup
import Mathlib.Logic.Function.Basic

set_option autoImplicit false

/-!
The slots of a pool in step: a slot in use is either taken or on the free list, once, and the size
counts the taken ones. Also how a pool looks when only a part of each entry matters.
-/

namespace AirSurvey.Pool

variable {α β : Type} {capacity : Nat}

structure Sound (p : Pool α capacity) : Prop where
  free_nodup : p.free.Nodup
  mem_free : ∀ i, i ∈ p.free ↔ i < p.slots.size ∧ p.at? i = none
  size_add_free : p.size + p.free.length = p.slots.size
  bounded : p.slots.size ≤ capacity

def view (g : α → β) (p : Pool α capacity) : Pool β capacity :=
  ⟨p.slots.map fun s => ⟨s.generation, s.entry.map g⟩, p.free, p.size⟩

theorem at?_view (g : α → β) (p : Pool α capacity) (i : Nat) :
    (p.view g).at? i = (p.at? i).map g := by
  simp only [at?, view, Array.getElem?_map]
  cases p.slots[i]? <;> rfl

theorem handleAt?_view (g : α → β) (p : Pool α capacity) (i : Nat) :
    (p.view g).handleAt? i = p.handleAt? i := by
  simp only [handleAt?, view, Array.getElem?_map]
  cases hs : p.slots[i]? with
  | none => rfl
  | some s => obtain ⟨k, _ | x⟩ := s <;> rfl

theorem get?_view (g : α → β) (p : Pool α capacity) (h : Handle) :
    (p.view g).get? h = (p.get? h).map g := by
  simp only [get?, view, Array.getElem?_map]
  cases hs : p.slots[h.index]? with
  | none => rfl
  | some s => by_cases hk : s.generation = h.generation <;> simp [hk]

theorem view_slots_size (g : α → β) (p : Pool α capacity) :
    (p.view g).slots.size = p.slots.size := by simp [view]

theorem view_view {γ : Type} (g : α → β) (h : β → γ) (p : Pool α capacity) :
    (p.view g).view h = p.view fun x => h (g x) := by
  simp only [view, Array.map_map, Function.comp_def, Option.map_map]

theorem view_modifyAt (g : α → β) (p : Pool α capacity) (i : Nat) (f : α → α) (f' : β → β)
    (h : ∀ x, g (f x) = f' (g x)) : (p.modifyAt i f).view g = (p.view g).modifyAt i f' := by
  simp only [view, modifyAt, Pool.mk.injEq, and_true]
  apply Array.ext_getElem?
  intro j
  simp only [Array.getElem?_map, Array.getElem?_modify]
  cases p.slots[j]? with
  | none => simp
  | some s => by_cases hj : i = j <;> simp [hj, Function.comp_def, h]

theorem view_modifyAt_of_eq (g : α → β) (p : Pool α capacity) (i : Nat) (f : α → α)
    (h : ∀ x, g (f x) = g x) : (p.modifyAt i f).view g = p.view g := by
  simp only [view, modifyAt, Pool.mk.injEq, and_true]
  apply Array.ext_getElem?
  intro j
  simp only [Array.getElem?_map, Array.getElem?_modify]
  cases p.slots[j]? with
  | none => simp
  | some s => by_cases hj : i = j <;> simp [hj, Function.comp_def, h]

theorem Sound.view_iff (g : α → β) (p : Pool α capacity) : (p.view g).Sound ↔ p.Sound := by
  have hfree : (p.view g).free = p.free := rfl
  have hsize : (p.view g).size = p.size := rfl
  constructor
  · intro h
    refine ⟨h.free_nodup, fun i => ?_, ?_, ?_⟩
    · simpa [at?_view, view_slots_size, hfree] using h.mem_free i
    · simpa [view_slots_size, hfree, hsize] using h.size_add_free
    · simpa [view_slots_size] using h.bounded
  · intro h
    refine ⟨h.free_nodup, fun i => ?_, ?_, ?_⟩
    · simpa [at?_view, view_slots_size, hfree] using h.mem_free i
    · simpa [view_slots_size, hfree, hsize] using h.size_add_free
    · simpa [view_slots_size] using h.bounded

theorem at?_empty (i : Nat) : (empty : Pool α capacity).at? i = none := by simp [empty, at?]

theorem sound_empty : (empty : Pool α capacity).Sound :=
  ⟨by simp [empty], by simp [empty], by simp [empty], by simp [empty]⟩

theorem lt_slots_size {p : Pool α capacity} {i : Nat} (h : (p.at? i).isSome) :
    i < p.slots.size := by
  rcases Nat.lt_or_ge i p.slots.size with hi | hi
  · exact hi
  · simp [at?, Array.getElem?_eq_none hi] at h

theorem handleAt?_eq_none_iff (p : Pool α capacity) (i : Nat) :
    p.handleAt? i = none ↔ p.at? i = none := by
  unfold handleAt? at?
  cases p.slots[i]? with
  | none => simp
  | some s => obtain ⟨k, _ | x⟩ := s <;> simp

theorem handleAt?_isSome (p : Pool α capacity) (i : Nat) :
    (p.handleAt? i).isSome = (p.at? i).isSome := by
  unfold handleAt? at?
  cases p.slots[i]? with
  | none => rfl
  | some s => obtain ⟨k, _ | x⟩ := s <;> rfl

theorem index_of_handleAt? {p : Pool α capacity} {i : Nat} {h : Handle}
    (hh : p.handleAt? i = some h) : h.index = i := by
  unfold handleAt? at hh
  cases hs : p.slots[i]? with
  | none => simp [hs] at hh
  | some s =>
    obtain ⟨k, _ | x⟩ := s
    · simp [hs] at hh
    · simp only [hs, Option.bind_some, Option.map_some, Option.some.injEq] at hh
      rw [← hh]

theorem item_of_at? {p : Pool α capacity} {i : Nat} {x : α} (h : p.at? i = some x) :
    p.item i = .ok x := by simp [item, h]

theorem modifyItem_of_at? {p : Pool α capacity} {i : Nat} {x : α} (h : p.at? i = some x)
    (f : α → α) : p.modifyItem i f = .ok (p.modifyAt i f) := by simp [modifyItem, h]

theorem get?_eq (p : Pool α capacity) (h : Handle) :
    p.get? h = if p.handleAt? h.index = some h then p.at? h.index else none := by
  ext x
  rw [get?_eq_some_iff]
  split <;> simp [*]

theorem at?_of_get? {p : Pool α capacity} {h : Handle} {x : α} (hx : p.get? h = some x) :
    p.at? h.index = some x := ((p.get?_eq_some_iff h x).1 hx).2

theorem modify_of_get? {p : Pool α capacity} {h : Handle} {x : α} (hx : p.get? h = some x)
    (f : α → α) : p.modify h f = p.modifyAt h.index f := by simp [modify, hx]

theorem get?_modifyAt_of_get? {p : Pool α capacity} {h : Handle} {x : α} (hx : p.get? h = some x)
    (f : α → α) (k : Handle) :
    (p.modifyAt h.index f).get? k = if h = k then some (f x) else p.get? k := by
  rw [get?_modifyAt]
  by_cases hk : h = k
  · subst hk
    simp [hx]
  · rw [if_neg hk]
    split
    · next hindex =>
      have hh := ((get?_eq_some_iff _ _ _).1 hx).1
      rw [hindex] at hh
      rw [get?_eq, if_neg fun e => hk (Option.some.inj (hh.symm.trans e))]
      rfl
    · rfl

theorem isSome_modifyAt (p : Pool α capacity) (i j : Nat) (f : α → α) :
    ((p.modifyAt i f).at? j).isSome = (p.at? j).isSome := by
  rw [at?_modifyAt]
  split <;> simp

theorem modifyAt_congr {p : Pool α capacity} {i : Nat} {f g : α → α}
    (h : ∀ x, p.at? i = some x → f x = g x) : p.modifyAt i f = p.modifyAt i g := by
  have hslots : (p.slots.modify i fun s => { s with entry := s.entry.map f }) =
      p.slots.modify i fun s => { s with entry := s.entry.map g } := by
    apply Array.ext_getElem?
    intro j
    rw [Array.getElem?_modify, Array.getElem?_modify]
    split
    · next hij =>
      subst hij
      cases hs : p.slots[i]? with
      | none => rfl
      | some s =>
        obtain ⟨k, _ | x⟩ := s
        · rfl
        · simp [h x (by simp [at?, hs])]
    · rfl
  rw [Pool.modifyAt, hslots, Pool.modifyAt]

theorem read_modifyAt {p : Pool α capacity} {i : Nat} {x : α} (hx : p.at? i = some x) (f : α → α)
    (g : Option α → β) : (fun j => g ((p.modifyAt i f).at? j)) =
      Function.update (fun j => g (p.at? j)) i (g (some (f x))) := by
  funext j
  rw [at?_modifyAt]
  by_cases hj : i = j
  · subst hj
    simp [hx]
  · rw [if_neg hj, Function.update_of_ne fun e => hj e.symm]

theorem modifyAt_id (p : Pool α capacity) (i : Nat) : p.modifyAt i (fun x => x) = p := by
  have hslots : (p.slots.modify i fun s => { s with entry := s.entry.map fun x => x }) = p.slots := by
    apply Array.ext_getElem?
    intro j
    rw [Array.getElem?_modify]
    split <;> cases p.slots[j]? <;> simp
  rw [Pool.modifyAt, hslots]

theorem modifyAt_eq_self {p : Pool α capacity} {i : Nat} {f : α → α}
    (h : ∀ x, p.at? i = some x → f x = x) : p.modifyAt i f = p :=
  (modifyAt_congr h).trans (modifyAt_id p i)

theorem at?_foldl_modifyAt {f : α → α} (hf : ∀ x, f (f x) = f x) (r : List Nat)
    (p : Pool α capacity) (j : Nat) :
    (r.foldl (fun p i => p.modifyAt i f) p).at? j =
      if j ∈ r then (p.at? j).map f else p.at? j := by
  induction r generalizing p with
  | nil => simp
  | cons i r ih =>
    rw [List.foldl_cons, ih, at?_modifyAt]
    by_cases hj : i = j
    · cases p.at? j <;> simp [hj, hf]
    · have hj' : ¬ j = i := fun e => hj e.symm
      simp [hj, hj']

theorem view_foldl_modifyAt (g : α → β) {f : α → α} (hf : ∀ x, g (f x) = g x) (r : List Nat)
    (p : Pool α capacity) : (r.foldl (fun p i => p.modifyAt i f) p).view g = p.view g := by
  induction r generalizing p with
  | nil => rfl
  | cons i r ih => rw [List.foldl_cons, ih, view_modifyAt_of_eq g p i f hf]

theorem foldl_modifyAt_eq_self {f : α → α} {p : Pool α capacity}
    (h : ∀ i x, p.at? i = some x → f x = x) (r : List Nat) :
    r.foldl (fun p i => p.modifyAt i f) p = p := by
  induction r with
  | nil => rfl
  | cons i r ih => rw [List.foldl_cons, modifyAt_eq_self (h i), ih]

theorem Sound.modifyAt {p : Pool α capacity} (h : p.Sound) (i : Nat) (f : α → α) :
    (p.modifyAt i f).Sound := by
  refine ⟨h.free_nodup, fun j => ?_, ?_, ?_⟩
  · have hj := h.mem_free j
    simp only [at?_modifyAt]
    by_cases hij : i = j <;> simp [Pool.modifyAt, hij, hj]
  · simpa [Pool.modifyAt] using h.size_add_free
  · simpa [Pool.modifyAt] using h.bounded

/-! ## Pools that look the same -/

section Alike

variable {p q : Pool α capacity} {g : α → β}

theorem at?_map_of_view_eq (h : q.view g = p.view g) (i : Nat) :
    (q.at? i).map g = (p.at? i).map g := by
  rw [← at?_view, h, at?_view]

theorem exists_of_view_eq (h : q.view g = p.view g) {i : Nat} {x : α} (hx : q.at? i = some x) :
    ∃ y, p.at? i = some y ∧ g y = g x := by
  have hi := at?_map_of_view_eq h i
  rw [hx, Option.map_some] at hi
  exact Option.map_eq_some_iff.1 hi.symm

theorem isSome_of_view_eq (h : q.view g = p.view g) (i : Nat) :
    (q.at? i).isSome = (p.at? i).isSome := by
  have hi := congrArg Option.isSome (at?_map_of_view_eq h i)
  simpa using hi

theorem handleAt?_of_view_eq (h : q.view g = p.view g) (i : Nat) :
    q.handleAt? i = p.handleAt? i := by
  rw [← handleAt?_view g, h, handleAt?_view]

theorem size_of_view_eq (h : q.view g = p.view g) : q.size = p.size :=
  congrArg (fun r : Pool β capacity => r.size) h

theorem Sound.of_view_eq (hp : p.Sound) (h : q.view g = p.view g) : q.Sound := by
  rw [← Sound.view_iff g, h, Sound.view_iff]
  exact hp

theorem view_eq_comp {γ : Type} (h : q.view g = p.view g) (k : β → γ) :
    q.view (fun x => k (g x)) = p.view fun x => k (g x) := by
  rw [← view_view, h, view_view]

end Alike

/-! ## Taking slots -/

def vacancy (p : Pool α capacity) : Nat := p.free.head?.getD p.slots.size

theorem at?_occupy (p : Pool α capacity) (i j : Nat) (build : Handle → α)
    (hi : i < p.slots.size) :
    (p.occupy i build).2.at? j =
      if i = j then some (build (p.occupy i build).1) else p.at? j := by
  simp only [at?, occupy, Array.getElem?_modify]
  by_cases hij : i = j
  · subst hij
    simp [Array.getElem?_eq_getElem hi]
  · simp [hij]

theorem handleAt?_occupy (p : Pool α capacity) (i j : Nat) (build : Handle → α)
    (hi : i < p.slots.size) :
    (p.occupy i build).2.handleAt? j =
      if i = j then some (p.occupy i build).1 else p.handleAt? j := by
  simp only [handleAt?, occupy, Array.getElem?_modify]
  by_cases hij : i = j
  · subst hij
    simp [Array.getElem?_eq_getElem hi]
  · simp [hij]

theorem at?_push_fresh (p : Pool α capacity) (j : Nat) :
    ({ p with slots := p.slots.push .fresh } : Pool α capacity).at? j = p.at? j := by
  simp only [at?, Array.getElem?_push]
  split
  · next h => simp [h, Slot.fresh]
  · rfl

theorem handleAt?_push_fresh (p : Pool α capacity) (j : Nat) :
    ({ p with slots := p.slots.push .fresh } : Pool α capacity).handleAt? j = p.handleAt? j := by
  simp only [handleAt?, Array.getElem?_push]
  split
  · next h => simp [h, Slot.fresh]
  · rfl

/-- What taking a slot does: the slot was vacant, and only it changes. -/
structure Taken (p : Pool α capacity) (build : Handle → α) (h : Handle) (q : Pool α capacity) :
    Prop where
  inserted : p.insert? build = some (h, q)
  index : h.index = p.vacancy
  vacant : p.at? h.index = none
  sound : q.Sound
  size : q.size = p.size + 1
  at? : ∀ j, q.at? j = if h.index = j then some (build h) else p.at? j
  handleAt? : ∀ j, q.handleAt? j = if h.index = j then some h else p.handleAt? j

theorem Taken.read {p q : Pool α capacity} {build : Handle → α} {h : Handle}
    (ht : p.Taken build h q) (g : Option α → β) :
    (fun j => g (q.at? j)) = Function.update (fun j => g (p.at? j)) h.index (g (some (build h))) := by
  funext j
  rw [ht.at?]
  by_cases hj : h.index = j
  · subst hj
    simp
  · rw [if_neg hj, Function.update_of_ne fun e => hj e.symm]

theorem Taken.get? {p q : Pool α capacity} {build : Handle → α} {h : Handle}
    (ht : p.Taken build h q) (k : Handle) :
    q.get? k = if h = k then some (build h) else p.get? k := by
  rw [get?_eq, get?_eq, ht.handleAt?, ht.at?]
  by_cases hindex : h.index = k.index
  · by_cases hk : h = k
    · simp [hk]
    · rw [if_pos hindex, if_pos hindex, ← hindex, ht.vacant, ite_self, if_neg hk,
        if_neg fun e => hk (Option.some.inj e)]
  · have hk : ¬ h = k := fun e => hindex (congrArg Handle.index e)
    rw [if_neg hindex, if_neg hindex, if_neg hk]

theorem Sound.insert?_full {p : Pool α capacity} (hp : p.Sound) (build : Handle → α)
    (hfull : p.size = capacity) : p.insert? build = none := by
  have hsum := hp.size_add_free
  have hb := hp.bounded
  have hfree : p.free = [] := List.eq_nil_of_length_eq_zero (by omega)
  rw [hfree, List.length_nil] at hsum
  simp [insert?, hfree]
  omega

/-- Filling slot `i` of `q`, which is `p` with that slot made ready. -/
theorem taken_occupy {p q : Pool α capacity} {i : Nat} (build : Handle → α)
    (hinserted : p.insert? build = some (q.occupy i build)) (hindex : i = p.vacancy)
    (hvac : p.at? i = none) (hat : ∀ j, q.at? j = p.at? j)
    (hhandle : ∀ j, q.handleAt? j = p.handleAt? j) (hsize : q.size = p.size)
    (hi : i < q.slots.size) (hnodup : q.free.Nodup)
    (hfree : ∀ j, j ∈ q.free ↔ j ≠ i ∧ j < q.slots.size ∧ p.at? j = none)
    (hsum : q.size + q.free.length + 1 = q.slots.size) (hb : q.slots.size ≤ capacity) :
    p.Taken build (q.occupy i build).1 (q.occupy i build).2 where
  inserted := hinserted
  index := hindex
  vacant := hvac
  size := by simp [occupy, hsize]
  at? j := by rw [at?_occupy q i j build hi, hat]; rfl
  handleAt? j := by rw [handleAt?_occupy q i j build hi, hhandle]; rfl
  sound := by
    refine ⟨hnodup, fun j => ?_, ?_, ?_⟩
    · rw [at?_occupy q i j build hi, hat]
      have hj := hfree j
      by_cases hij : i = j
      · subst hij
        simpa [occupy] using hj
      · have hji : j ≠ i := fun e => hij e.symm
        simpa [occupy, hij, hji] using hj
    · simp only [occupy, Array.size_modify]
      omega
    · simpa [occupy] using hb

theorem Sound.insert?_room {p : Pool α capacity} (hp : p.Sound) (build : Handle → α)
    (hroom : p.size ≠ capacity) : ∃ h q, p.insert? build = some (h, q) ∧ p.Taken build h q := by
  have hsum := hp.size_add_free
  have hb := hp.bounded
  cases hf : p.free with
  | cons i rest =>
    have hq : p.insert? build = some ({ p with free := rest }.occupy i build) := by
      simp [insert?, hf]
    have hnodup := hp.free_nodup
    rw [hf, List.nodup_cons] at hnodup
    rw [hf, List.length_cons] at hsum
    obtain ⟨hi, hvac⟩ := (hp.mem_free i).1 (by simp [hf])
    refine ⟨_, _, hq, taken_occupy build hq (by simp [vacancy, hf]) hvac (fun _ => rfl)
      (fun _ => rfl) rfl hi hnodup.2 (fun j => ?_) (by simp only; omega) hb⟩
    have hj := hp.mem_free j
    rw [hf, List.mem_cons] at hj
    by_cases hji : j = i
    · subst hji
      simp [hnodup.1]
    · simpa [hji] using hj
  | nil =>
    rw [hf, List.length_nil] at hsum
    have hlt : p.slots.size < capacity := by omega
    have hq : p.insert? build =
        some ({ p with slots := p.slots.push .fresh }.occupy p.slots.size build) := by
      simp [insert?, hf, hlt]
    refine ⟨_, _, hq, taken_occupy build hq (by simp [vacancy, hf]) (by simp [at?])
      (at?_push_fresh p) (handleAt?_push_fresh p) rfl (by simp) (by simp [hf]) (fun j => ?_)
      (by simp [hf]; omega) (by simp; omega)⟩
    have hj := hp.mem_free j
    simp only [hf, List.not_mem_nil, false_iff, not_and, Array.size_push] at hj ⊢
    intro hne hlt
    exact hj (by omega)

/-! ## Giving slots back -/

theorem handleAt?_release (p : Pool α capacity) (i j : Nat) :
    (p.release i).handleAt? j = if i = j then none else p.handleAt? j := by
  by_cases hij : i = j
  · rw [if_pos hij, handleAt?_eq_none_iff, at?_release, if_pos hij]
  · unfold release
    cases p.at? i with
    | none => rw [if_neg hij]
    | some _ => simp [handleAt?, Array.getElem?_modify, hij]

theorem read_release (p : Pool α capacity) (i : Nat) (g : Option α → β) :
    (fun j => g ((p.release i).at? j)) = Function.update (fun j => g (p.at? j)) i (g none) := by
  funext j
  rw [at?_release]
  by_cases hj : i = j
  · subst hj
    simp
  · rw [if_neg hj, Function.update_of_ne fun e => hj e.symm]

theorem release_modifyAt {p : Pool α capacity} {i : Nat} {x : α} (hx : p.at? i = some x)
    (f : α → α) : (p.modifyAt i f).release i = p.release i := by
  have hfx : (p.modifyAt i f).at? i = some (f x) := by rw [at?_modifyAt, if_pos rfl, hx]; rfl
  rw [release, release, hfx, hx]
  simp only [modifyAt, Pool.mk.injEq, and_true]
  apply Array.ext_getElem?
  intro j
  simp only [Array.getElem?_modify]
  cases p.slots[j]? with
  | none => simp
  | some s => by_cases hj : i = j <;> simp [hj, Slot.vacate]

/-- The free stack has room for every slot that is taken. -/
theorem Sound.free_length_lt {p : Pool α capacity} (h : p.Sound) {i : Nat}
    (hi : (p.at? i).isSome) : p.free.length < p.slots.size := by
  obtain ⟨x, hx⟩ := Option.isSome_iff_exists.1 hi
  have hnot : i ∉ p.free := fun hmem => by simpa [hx] using ((h.mem_free i).1 hmem).2
  have hsub : (i :: p.free).length ≤ (List.range p.slots.size).length := by
    refine (List.nodup_cons.2 ⟨hnot, h.free_nodup⟩).length_le_of_subset fun j hj => ?_
    rcases List.mem_cons.1 hj with rfl | hj
    · simpa using lt_slots_size hi
    · simpa using ((h.mem_free j).1 hj).1
  rw [List.length_cons, List.length_range] at hsub
  exact hsub

theorem Sound.release {p : Pool α capacity} (h : p.Sound) (i : Nat) : (p.release i).Sound := by
  cases hi : p.at? i with
  | none => simpa [Pool.release, hi] using h
  | some x =>
    have hsome : (p.at? i).isSome := by simp [hi]
    have hlt := lt_slots_size hsome
    have hnot : i ∉ p.free := fun hmem => by simpa [hi] using ((h.mem_free i).1 hmem).2
    have hsum := h.size_add_free
    have hpos : 0 < p.size := by
      have hroom := h.free_length_lt hsome
      omega
    refine ⟨?_, fun j => ?_, ?_, ?_⟩
    · simpa [Pool.release, hi] using ⟨hnot, h.free_nodup⟩
    · rw [at?_release]
      have hj := h.mem_free j
      by_cases hij : i = j
      · subst hij
        simp [Pool.release, hi, hlt]
      · have hji : j ≠ i := fun e => hij e.symm
        simpa [Pool.release, hi, hij, hji] using hj
    · simp only [Pool.release, hi, Array.size_modify, List.length_cons]
      omega
    · simpa [Pool.release, hi] using h.bounded

theorem size_release {p : Pool α capacity} {i : Nat} {x : α} (h : p.at? i = some x) :
    (p.release i).size = p.size - 1 := by simp [release, h]

section ReleaseAll

variable (hs : List Handle) (p : Pool α capacity)

theorem at?_foldl_release (j : Nat) :
    (hs.foldl (fun p h => p.release h.index) p).at? j =
      if j ∈ hs.map Handle.index then none else p.at? j := by
  induction hs generalizing p with
  | nil => simp
  | cons h r ih =>
    rw [List.foldl_cons, ih, at?_release]
    by_cases hj : h.index = j
    · simp [hj]
    · have hj' : ¬ j = h.index := fun e => hj e.symm
      simp [hj, hj']

theorem handleAt?_foldl_release (j : Nat) :
    (hs.foldl (fun p h => p.release h.index) p).handleAt? j =
      if j ∈ hs.map Handle.index then none else p.handleAt? j := by
  induction hs generalizing p with
  | nil => simp
  | cons h r ih =>
    rw [List.foldl_cons, ih, handleAt?_release]
    by_cases hj : h.index = j
    · simp [hj]
    · have hj' : ¬ j = h.index := fun e => hj e.symm
      simp [hj, hj']

variable {p}

theorem Sound.foldl_release (hp : p.Sound) :
    (hs.foldl (fun p h => p.release h.index) p).Sound := by
  induction hs generalizing p with
  | nil => exact hp
  | cons h r ih => exact ih (hp.release h.index)

end ReleaseAll

/-! ## Counting -/

theorem Sound.length_le_size {p : Pool α capacity} (h : p.Sound) {s : List Nat} (hs : s.Nodup)
    (ht : ∀ i ∈ s, (p.at? i).isSome) : s.length ≤ p.size := by
  have hsub : (s ++ p.free).length ≤ (List.range p.slots.size).length := by
    refine List.Nodup.length_le_of_subset ?_ fun i hi => ?_
    · refine List.nodup_append.2 ⟨hs, h.free_nodup, fun i hi j hj hij => ?_⟩
      have hsome := ht i hi
      rw [hij, ((h.mem_free j).1 hj).2] at hsome
      simp at hsome
    · rcases List.mem_append.1 hi with hi | hi
      · simpa using lt_slots_size (ht i hi)
      · simpa using ((h.mem_free i).1 hi).1
  have hsum := h.size_add_free
  simp only [List.length_append, List.length_range] at hsub
  omega

theorem Sound.length_eq_size {p : Pool α capacity} (h : p.Sound) {s : List Nat} (hs : s.Nodup)
    (ht : ∀ i, i ∈ s ↔ (p.at? i).isSome) : s.length = p.size := by
  have hsub : (List.range p.slots.size).length ≤ (s ++ p.free).length := by
    refine List.nodup_range.length_le_of_subset fun i hi => ?_
    rw [List.mem_range] at hi
    rw [List.mem_append, ht, h.mem_free]
    cases p.at? i <;> simp [hi]
  have hle := h.length_le_size hs fun i hi => (ht i).1 hi
  have hsum := h.size_add_free
  simp only [List.length_append, List.length_range] at hsub
  omega

/-! ## All entries, and letting go of all of them -/

theorem mem_entries (p : Pool α capacity) (h : Handle) (x : α) :
    (h, x) ∈ p.entries ↔ p.get? h = some x := by
  simp only [entries, List.mem_filterMap, Prod.exists, List.mem_zipIdx_iff_getElem?,
    Array.getElem?_toList, get?, Option.map_eq_some_iff, Prod.mk.injEq, Option.bind_eq_some_iff]
  constructor
  · intro hgiven
    rcases hgiven with ⟨s, i, hs, y, hy, rfl, rfl⟩
    exact ⟨s, hs, by simpa using hy⟩
  · intro hgiven
    rcases hgiven with ⟨s, hs, hx⟩
    split at hx
    · next hg => exact ⟨s, h.index, hs, x, hx, by rw [hg], rfl⟩
    · cases hx

theorem entries_sorted (p : Pool α capacity) :
    (p.entries.map fun e => e.1.index).Pairwise (· < ·) := by
  have hidx : p.slots.toList.zipIdx.Pairwise fun a b => a.2 < b.2 := by
    rw [← List.pairwise_map (R := (· < ·)), List.zipIdx_map_snd]
    exact List.pairwise_lt_range' ..
  refine List.pairwise_map.2 (List.pairwise_filterMap.2 (hidx.imp ?_))
  intro a b hab x hx y hy
  obtain ⟨_, _, rfl⟩ := Option.map_eq_some_iff.1 hx
  obtain ⟨_, _, rfl⟩ := Option.map_eq_some_iff.1 hy
  exact hab

theorem entries_nodup (p : Pool α capacity) : (p.entries.map fun e => e.1.index).Nodup :=
  p.entries_sorted.imp Nat.ne_of_lt

theorem handles_nodup (p : Pool α capacity) : (p.entries.map Prod.fst).Nodup := by
  refine List.Nodup.of_map Handle.index ?_
  rw [List.map_map]
  exact p.entries_nodup

theorem mem_entries_index (p : Pool α capacity) (i : Nat) :
    i ∈ p.entries.map (fun e => e.1.index) ↔ (p.at? i).isSome := by
  simp only [List.mem_map, Prod.exists, mem_entries, get?_eq_some_iff]
  constructor
  · intro hgiven
    rcases hgiven with ⟨h, x, ⟨-, hx⟩, rfl⟩
    simp [hx]
  · intro hi
    obtain ⟨x, hx⟩ := Option.isSome_iff_exists.1 hi
    obtain ⟨h, hh⟩ := Option.isSome_iff_exists.1 ((handleAt?_isSome p i).trans hi)
    have hindex := index_of_handleAt? hh
    subst hindex
    exact ⟨h, x, ⟨hh, hx⟩, rfl⟩

theorem Sound.length_entries {p : Pool α capacity} (h : p.Sound) : p.entries.length = p.size := by
  rw [← h.length_eq_size p.entries_nodup fun i => mem_entries_index p i, List.length_map]

theorem at?_clear (p : Pool α capacity) (i : Nat) : p.clear.at? i = none := by
  simp only [at?, clear, Array.getElem?_map]
  cases p.slots[i]? with
  | none => rfl
  | some s =>
    obtain ⟨k, e⟩ := s
    cases e <;> rfl

theorem Sound.clear {p : Pool α capacity} (h : p.Sound) : p.clear.Sound := by
  have hentries := p.entries_nodup
  have hsize : p.clear.slots.size = p.slots.size := by simp [Pool.clear]
  refine ⟨?_, fun i => ?_, ?_, hsize ▸ h.bounded⟩
  · refine List.nodup_append.2 ⟨List.nodup_reverse.2 hentries, h.free_nodup, ?_⟩
    rintro i hi j hj rfl
    have hsome := (mem_entries_index p i).1 (List.mem_reverse.1 hi)
    simp [((h.mem_free i).1 hj).2] at hsome
  · have hmem : i ∈ p.clear.free ↔ (p.at? i).isSome ∨ i ∈ p.free := by
      rw [← mem_entries_index]
      simp [Pool.clear]
    rw [hmem, at?_clear, hsize, h.mem_free]
    constructor
    · intro hgiven
      rcases hgiven with hi | ⟨hi, -⟩
      · exact ⟨lt_slots_size hi, rfl⟩
      · exact ⟨hi, rfl⟩
    · intro hgiven
      rcases hgiven with ⟨hi, -⟩
      cases p.at? i <;> simp [hi]
  · have hcount := h.length_entries
    have hsum := h.size_add_free
    simp only [Pool.clear, List.length_append, List.length_reverse, List.length_map,
      Array.size_map]
    omega

end AirSurvey.Pool

import AirSurvey.Proofs.Slots

set_option autoImplicit false

/-!
Calls on a pool, one after the other. Whatever they are, a slot in use is either taken or on the
free list, once, and the free list has the slots in the order in which they were given back, the
latest first.
-/

namespace AirSurvey

inductive Call (α : Type) where
  | insert (build : Handle → α)
  | remove (h : Handle)
  /-- A change in place to the entry that a handle names. -/
  | modify (h : Handle) (f : α → α)
  /-- A change in place to the entry in a slot. -/
  | modifyAt (i : Nat) (f : α → α)
  | clear

variable {α : Type} {capacity : Nat}

namespace Call

/-- The pool after a call; one that fails leaves it as it is. -/
def act (p : Pool α capacity) : Call α → Pool α capacity
  | insert build => ((p.insert? build).map Prod.snd).getD p
  | remove h => ((p.remove? h).map Prod.snd).getD p
  | modify h f => p.modify h f
  | modifyAt i f => p.modifyAt i f
  | clear => p.clear

/-- The slots that a call gives back, the latest first. -/
def returns (p : Pool α capacity) : Call α → List Nat
  | remove h => if (p.get? h).isSome then [h.index] else []
  | clear => (p.entries.map fun e => e.1.index).reverse
  | _ => []

inductive Effect (p : Pool α capacity) : Call α → List Nat → Pool α capacity → Prop
  | inserts {build : Handle → α} {h : Handle} {q : Pool α capacity} (ht : p.Taken build h q) :
    Effect p (.insert build) [] q
  | overflows {build : Handle → α} (hfull : p.size = capacity) : Effect p (.insert build) [] p
  | removes {h : Handle} {x : α} (hx : p.get? h = some x) :
    Effect p (.remove h) [h.index] (p.release h.index)
  | misses {h : Handle} (hnone : p.get? h = none) : Effect p (.remove h) [] p
  | modifies {h : Handle} {x : α} {f : α → α} (hx : p.get? h = some x) :
    Effect p (.modify h f) [] (p.modifyAt h.index f)
  | spares {h : Handle} {f : α → α} (hnone : p.get? h = none) : Effect p (.modify h f) [] p
  | modifiesAt {i : Nat} {f : α → α} : Effect p (.modifyAt i f) [] (p.modifyAt i f)
  | clears : Effect p .clear (p.entries.map fun e => e.1.index).reverse p.clear

end Call

namespace Pool

variable {p q : Pool α capacity} {log : List Nat}

theorem act_insert {build : Handle → α} {h : Handle} (ht : p.Taken build h q) :
    (Call.insert build).act p = q := by
  rw [Call.act, ht.inserted]
  rfl

theorem Sound.act_insert_full (hp : p.Sound) (build : Handle → α) (hfull : p.size = capacity) :
    (Call.insert build).act p = p := by
  rw [Call.act, hp.insert?_full build hfull]
  rfl

theorem map_fst_remove? (p : Pool α capacity) (h : Handle) :
    (p.remove? h).map Prod.fst = p.get? h := by
  rw [remove?, Option.map_map]
  exact Option.map_id'

theorem act_remove {h : Handle} {x : α} (hx : p.get? h = some x) :
    (Call.remove h).act p = p.release h.index := by
  rw [Call.act, remove?, hx]
  rfl

theorem act_remove_none {h : Handle} (hnone : p.get? h = none) : (Call.remove h).act p = p := by
  rw [Call.act, remove?, hnone]
  rfl

theorem Sound.effect (hp : p.Sound) (o : Call α) : o.Effect p (o.returns p) (o.act p) := by
  cases o with
  | insert build =>
    by_cases hfull : p.size = capacity
    · rw [hp.act_insert_full build hfull]
      exact .overflows hfull
    · obtain ⟨h, q, -, ht⟩ := hp.insert?_room build hfull
      rw [act_insert ht]
      exact .inserts ht
  | remove h =>
    cases hx : p.get? h with
    | none =>
      rw [act_remove_none hx, Call.returns, hx]
      exact .misses hx
    | some x =>
      rw [act_remove hx, Call.returns, hx]
      exact .removes hx
  | modify h f =>
    rw [Call.act, Pool.modify]
    cases hx : p.get? h with
    | none => exact .spares hx
    | some x => exact .modifies hx
  | modifyAt i f => exact .modifiesAt
  | clear => exact .clears

/-! ## The order of the free list -/

theorem Taken.free {build : Handle → α} {h : Handle} (ht : p.Taken build h q) :
    q.free = p.free.tail := by
  obtain ⟨i, rest, hfree, rfl⟩ | ⟨hfree, rfl⟩ := insert?_cases ht.inserted
  · rw [hfree]
    rfl
  · change p.free = _
    rw [hfree]
    rfl

/-- The free list has the vacant slots of a log, each where the log has it first. -/
def Stacked (p : Pool α capacity) (log : List Nat) : Prop :=
  p.free = (log.filter fun i => (p.at? i).isNone).eraseDups

theorem stacked_empty : (empty : Pool α capacity).Stacked [] := rfl

theorem Stacked.vacancy (h : p.Stacked log) :
    p.vacancy = (log.find? fun i => (p.at? i).isNone).getD p.slots.size := by
  rw [Pool.vacancy, h, ← List.head?_filter]
  cases log.filter fun i => (p.at? i).isNone with
  | nil => rfl
  | cons i rest => rw [List.eraseDups_cons, List.head?_cons, List.head?_cons]

theorem Stacked.taken (h : p.Stacked log) {build : Handle → α} {k : Handle}
    (ht : p.Taken build k q) : q.Stacked log := by
  have hindex := ht.index
  rw [h.vacancy, ← List.head?_filter] at hindex
  -- the slots that stay vacant are those that were, apart from the one taken
  have hstay : (log.filter fun i => (q.at? i).isNone) =
      (log.filter fun i => (p.at? i).isNone).filter fun i => !i == k.index := by
    rw [List.filter_filter]
    refine List.filter_congr fun i _ => ?_
    rw [ht.at?]
    by_cases hi : k.index = i
    · simp [hi]
    · have hi' : ¬i = k.index := fun e => hi e.symm
      simp [hi, hi']
  rw [Stacked, ht.free, h, hstay]
  cases hlog : log.filter fun i => (p.at? i).isNone with
  | nil => rfl
  | cons i rest =>
    rw [hlog] at hindex
    have hi : k.index = i := hindex
    rw [List.eraseDups_cons, List.tail_cons, hi, List.filter_cons_of_neg (by simp)]

theorem Stacked.modifyAt (h : p.Stacked log) (i : Nat) (f : α → α) :
    (p.modifyAt i f).Stacked log := by
  have hvacant : (fun j => ((p.modifyAt i f).at? j).isNone) = fun j => (p.at? j).isNone := by
    funext j
    rw [at?_modifyAt]
    split <;> simp
  rw [Stacked, hvacant]
  exact h

theorem eraseDups_eq_self {l : List Nat} (h : l.Nodup) : l.eraseDups = l := by
  induction l with
  | nil => rfl
  | cons i l ih =>
    obtain ⟨hi, hl⟩ := List.nodup_cons.1 h
    have hothers : (l.filter fun j => !j == i) = l :=
      List.filter_eq_self.2 fun j hj => by
        have hne : j ≠ i := fun e => hi (e ▸ hj)
        simp [hne]
    rw [List.eraseDups_cons, hothers, ih hl]

theorem Stacked.returned (h : p.Stacked log) {is : List Nat} (hnodup : is.Nodup)
    (htaken : ∀ i ∈ is, (p.at? i).isSome) (hfree : q.free = is ++ p.free)
    (hat : ∀ j, q.at? j = if j ∈ is then none else p.at? j) : q.Stacked (is ++ log) := by
  have hgone : (is.filter fun i => (q.at? i).isNone) = is :=
    List.filter_eq_self.2 fun i hi => by rw [hat, if_pos hi]; rfl
  -- further down the log are the slots that were vacant before
  have hstay : (log.filter fun i => (q.at? i).isNone).removeAll is =
      log.filter fun i => (p.at? i).isNone := by
    rw [List.removeAll, List.filter_filter]
    refine List.filter_congr fun i _ => ?_
    by_cases hi : i ∈ is
    · have hsome := htaken i hi
      cases hp : p.at? i <;> simp [hp, hi] at hsome ⊢
    · rw [hat, if_neg hi]
      simp [hi]
  rw [Stacked, List.filter_append, hgone, List.eraseDups_append, hstay, eraseDups_eq_self hnodup,
    hfree, h]

theorem get?_release (p : Pool α capacity) (i : Nat) (h : Handle) :
    (p.release i).get? h = if i = h.index then none else p.get? h := by
  rw [get?_eq, handleAt?_release, at?_release]
  split
  · simp
  · rw [← get?_eq]

theorem free_release {i : Nat} {x : α} (hx : p.at? i = some x) :
    (p.release i).free = i :: p.free := by rw [release, hx]

end Pool

namespace Call.Effect

open Pool

variable {p q : Pool α capacity} {o : Call α} {is log : List Nat}

theorem stacked (he : o.Effect p is q) (h : p.Stacked log) : q.Stacked (is ++ log) := by
  cases he with
  | inserts ht => exact h.taken ht
  | overflows => exact h
  | @removes k x hx =>
    have hat := at?_of_get? hx
    refine h.returned (List.nodup_singleton _) (fun i hi => ?_) (free_release hat) fun j => ?_
    · rw [List.mem_singleton.1 hi, hat]
      rfl
    · rw [at?_release]
      by_cases hj : k.index = j
      · simp [hj]
      · have hj' : ¬j = k.index := fun e => hj e.symm
        simp [hj, hj']
  | misses => exact h
  | modifies => exact h.modifyAt _ _
  | spares => exact h
  | modifiesAt => exact h.modifyAt _ _
  | clears =>
    refine h.returned (List.nodup_reverse.2 p.entries_nodup) (fun i hi => ?_) rfl fun j => ?_
    · exact (mem_entries_index p i).1 (List.mem_reverse.1 hi)
    · rw [at?_clear]
      split
      · rfl
      · next hj =>
        rw [List.mem_reverse, mem_entries_index] at hj
        cases hp : p.at? j <;> simp [hp] at hj ⊢

theorem sound (he : o.Effect p is q) (hp : p.Sound) : q.Sound := by
  cases he with
  | inserts ht => exact ht.sound
  | overflows => exact hp
  | removes => exact hp.release _
  | misses => exact hp
  | modifies => exact hp.modifyAt _ _
  | spares => exact hp
  | modifiesAt => exact hp.modifyAt _ _
  | clears => exact hp.clear

theorem length_free_le (he : o.Effect p is q) (hp : p.Sound) :
    (is ++ p.free).length ≤ capacity := by
  have hq := he.sound hp
  have hbefore : p.size + p.free.length ≤ capacity := hp.size_add_free ▸ hp.bounded
  have hafter : q.size + q.free.length ≤ capacity := hq.size_add_free ▸ hq.bounded
  cases he with
  | removes hx =>
    rw [free_release (at?_of_get? hx)] at hafter
    exact Nat.le_trans (Nat.le_add_left _ _) hafter
  | clears => exact Nat.le_trans (Nat.le_add_left _ _) hafter
  | _ => exact Nat.le_trans (Nat.le_add_left _ _) hbefore

end Call.Effect

/-! ## Runs of calls -/

namespace Pool

variable {p : Pool α capacity} {log : List Nat}

def serve (p : Pool α capacity) (calls : List (Call α)) : Pool α capacity :=
  calls.foldl (fun p o => o.act p) p

theorem serve_cons (p : Pool α capacity) (o : Call α) (calls : List (Call α)) :
    p.serve (o :: calls) = (o.act p).serve calls := rfl

def returns (p : Pool α capacity) : List (Call α) → List Nat
  | [] => []
  | o :: calls => returns (o.act p) calls ++ o.returns p

theorem sound_serve (hp : p.Sound) (calls : List (Call α)) : (p.serve calls).Sound := by
  induction calls generalizing p with
  | nil => exact hp
  | cons o calls ih => exact ih ((hp.effect o).sound hp)

theorem stacked_serve (hp : p.Sound) (h : p.Stacked log) (calls : List (Call α)) :
    (p.serve calls).Stacked (p.returns calls ++ log) := by
  induction calls generalizing p log with
  | nil => exact h
  | cons o calls ih =>
    have heffect := hp.effect o
    rw [returns, List.append_assoc]
    exact ih (heffect.sound hp) (heffect.stacked h)

/-- A pool that takes in entries and gives none back is full once they are as many as had room. -/
theorem full_serve_insert (hp : p.Sound) (builds : List (Handle → α)) :
    (p.serve (builds.map .insert)).size = capacity ↔ capacity ≤ p.size + builds.length := by
  induction builds generalizing p with
  | nil =>
    have hsum := hp.size_add_free
    have hb := hp.bounded
    rw [List.map_nil, List.length_nil, serve, List.foldl_nil]
    omega
  | cons build builds ih =>
    rw [List.map_cons, serve_cons, List.length_cons]
    by_cases hfull : p.size = capacity
    · rw [hp.act_insert_full build hfull, ih hp]
      omega
    · obtain ⟨h, q, -, ht⟩ := hp.insert?_room build hfull
      rw [act_insert ht, ih ht.sound, ht.size]
      omega

theorem Sound.taken (hp : p.Sound) {q : Pool α capacity} {build : Handle → α} {h : Handle}
    (hinserted : p.insert? build = some (h, q)) : p.Taken build h q := by
  by_cases hfull : p.size = capacity
  · rw [hp.insert?_full build hfull] at hinserted
    cases hinserted
  · obtain ⟨k, r, hinserted', ht⟩ := hp.insert?_room build hfull
    obtain ⟨rfl, rfl⟩ := Prod.mk.inj (Option.some.inj (hinserted'.symm.trans hinserted))
    exact ht

theorem Sound.insert?_isSome_iff (hp : p.Sound) (build : Handle → α) :
    (p.insert? build).isSome ↔ p.size ≠ capacity := by
  by_cases hfull : p.size = capacity
  · simp [hp.insert?_full build hfull, hfull]
  · obtain ⟨h, q, hinserted, -⟩ := hp.insert?_room build hfull
    simp [hinserted, hfull]

/-- Whatever the calls on a new pool were, the free list has every vacant slot in use, once, and no
taken one, and the size counts the taken ones. So an insertion fails exactly when the pool holds as
many entries as it can, and then nothing changes; else the entry, built from the handle that is
answered, goes to the slot given back last of those that are vacant, or to the next unused one, and
all others stay. Slot numbers are below the capacity. A removal answers what its handle finds and
vacates that slot alone. After the pool is cleared, as many insertions succeed as it can hold
entries, and no more. -/
theorem serve_upkeep (calls : List (Call α)) :
    ∃ p : Pool α capacity, empty.serve calls = p ∧
      (p.free.Nodup ∧ ∀ i, i ∈ p.free ↔ i < p.slots.size ∧ p.at? i = none) ∧
      (p.size = p.entries.length ∧ p.size + p.free.length = p.slots.size ∧
        p.slots.size ≤ capacity) ∧
      (∀ build, if p.entries.length = capacity then
          p.insert? build = none ∧ (Call.insert build).act p = p
        else
          ∃ h q, p.insert? build = some (h, q) ∧ (Call.insert build).act p = q ∧
            h.index = (((empty : Pool α capacity).returns calls).find? fun i =>
              (p.at? i).isNone).getD p.slots.size ∧ h.index < capacity ∧
            (∀ j, q.at? j = if j = h.index then some (build h) else p.at? j) ∧
            ∀ k, q.get? k = if k = h then some (build h) else p.get? k) ∧
      (∀ k, (p.remove? k).map Prod.fst = p.get? k ∧
        ∀ x q, p.remove? k = some (x, q) → (Call.remove k).act p = q ∧
          (∀ j, q.at? j = if j = k.index then none else p.at? j) ∧
          ∀ h, q.get? h = if h.index = k.index then none else p.get? h) ∧
      ∀ (builds : List (Handle → α)) build,
        (((Call.clear.act p).serve (builds.map .insert)).insert? build).isSome ↔
          builds.length < capacity := by
  have hempty : (empty : Pool α capacity).Sound := sound_empty
  have hp := sound_serve hempty calls
  have hstacked := stacked_serve hempty stacked_empty calls
  rw [List.append_nil] at hstacked
  refine ⟨_, rfl, ⟨hp.free_nodup, hp.mem_free⟩,
    ⟨hp.length_entries.symm, hp.size_add_free, hp.bounded⟩, fun build => ?_,
    fun k => ⟨map_fst_remove? _ k, ?_⟩, fun builds build => ?_⟩
  · rw [hp.length_entries]
    split
    · next hfull => exact ⟨hp.insert?_full build hfull, hp.act_insert_full build hfull⟩
    · next hroom =>
      obtain ⟨h, q, hinserted, ht⟩ := hp.insert?_room build hroom
      refine ⟨h, q, hinserted, act_insert ht, ht.index.trans hstacked.vacancy, ?_, ?_, ?_⟩
      · have hlt := lt_slots_size (p := q) (i := h.index) (by rw [ht.at?, if_pos rfl]; rfl)
        exact Nat.lt_of_lt_of_le hlt ht.sound.bounded
      · simpa only [eq_comm] using ht.at?
      · simpa only [eq_comm] using ht.get?
  · intro x q hremoved
    obtain ⟨y, hy, hq⟩ := Option.map_eq_some_iff.1 hremoved
    obtain ⟨rfl, rfl⟩ := Prod.mk.inj hq
    refine ⟨act_remove hy, fun j => ?_, fun h => ?_⟩
    · rw [at?_release]
      simp only [eq_comm]
    · rw [get?_release]
      simp only [eq_comm]
  · have hclear := (hp.effect .clear).sound hp
    rw [(sound_serve hclear _).insert?_isSome_iff, ne_eq, full_serve_insert hclear]
    change ¬capacity ≤ 0 + builds.length ↔ _
    omega

/-- Whatever the calls on a new pool were, every slot that the next call gives back finds room on
the free list, which has the slots on it that this call gave back before. -/
theorem serve_free_room (calls : List (Call α)) (o : Call α) {later given : List Nat} {i : Nat}
    (h : o.returns (empty.serve calls : Pool α capacity) = later ++ i :: given) :
    (given ++ (empty.serve calls : Pool α capacity).free).length < capacity := by
  have hp : (empty.serve calls : Pool α capacity).Sound := sound_serve sound_empty calls
  have hroom := (hp.effect o).length_free_le hp
  rw [h] at hroom
  simp only [List.length_append, List.length_cons] at hroom ⊢
  omega

end Pool

end AirSurvey

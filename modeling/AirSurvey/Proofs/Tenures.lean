import AirSurvey.Proofs.Upkeep
import Mathlib.Algebra.Group.Nat.Defs

set_option autoImplicit false

/-!
How long a handle finds its entry. Each time a slot is given back its generation moves on, and
nothing else moves it; so a handle finds what is in its slot when the times that the slot was given
back since have brought the generations round, and else nothing.
-/

namespace AirSurvey

variable {α : Type} {capacity : Nat}

def Call.edit (p : Pool α capacity) (i : Nat) (x : α) : Call α → α
  | .modify h f => if h.index = i ∧ (p.get? h).isSome then f x else x
  | .modifyAt j f => if j = i then f x else x
  | _ => x

/-- What calls in a row make of the entry in a slot, if they leave it there. -/
def Pool.edits (p : Pool α capacity) (i : Nat) (x : α) : List (Call α) → α
  | [] => x
  | o :: calls => (o.act p).edits i (o.edit p i x) calls

theorem Pool.generation_modifyAt (p : Pool α capacity) (i : Nat) (f : α → α) (j : Nat) :
    (p.modifyAt i f).generation j = p.generation j :=
  generation_of_view_eq (view_modifyAt_of_eq (fun _ => ()) p i f fun _ => rfl) j

namespace Call.Effect

open Pool

variable {p q : Pool α capacity} {o : Call α} {is : List Nat} {i : Nat} {x : α}

theorem generation (he : o.Effect p is q) (i : Nat) :
    q.generation i = p.generation i + UInt32.ofNat (is.count i) := by
  have hstill : p.generation i = p.generation i + UInt32.ofNat (([] : List Nat).count i) :=
    (UInt32.add_zero _).symm
  cases he with
  | inserts ht => exact (ht.generation i).trans hstill
  | overflows => exact hstill
  | @removes h x hx =>
    have hat := at?_of_get? hx
    rw [generation_release, List.count_singleton]
    by_cases hi : h.index = i
    · subst hi
      simp [hat]
    · simp [hi]
  | misses => exact hstill
  | modifies => exact (generation_modifyAt ..).trans hstill
  | spares => exact hstill
  | modifiesAt => exact (generation_modifyAt ..).trans hstill
  | clears =>
    rw [generation_clear, List.count_reverse, p.entries_nodup.count]
    simp only [mem_entries_index]
    split <;> rfl

theorem kept (he : o.Effect p is q) (hx : p.at? i = some x) (hi : i ∉ is) :
    q.at? i = some (o.edit p i x) := by
  cases he with
  | @inserts _ h _ ht =>
    have hne : ¬h.index = i := by
      rintro rfl
      rw [ht.vacant] at hx
      cases hx
    rw [ht.at?, if_neg hne, hx]
    rfl
  | overflows => exact hx
  | removes =>
    rw [at?_release, if_neg fun e => hi (List.mem_singleton.2 e.symm)]
    exact hx
  | misses => exact hx
  | modifies hget =>
    rw [at?_modifyAt, hx, edit, hget]
    split <;> simp [*]
  | spares hnone =>
    rw [hx, edit, hnone, if_neg (by simp)]
  | modifiesAt =>
    rw [at?_modifyAt, hx, edit]
    split <;> rfl
  | clears =>
    refine absurd ?_ hi
    rw [List.mem_reverse, mem_entries_index, hx]
    rfl

end Call.Effect

namespace Pool

variable {p : Pool α capacity} {i : Nat} {x : α}

theorem generation_serve (hp : p.Sound) (calls : List (Call α)) (i : Nat) :
    (p.serve calls).generation i = p.generation i + UInt32.ofNat ((p.returns calls).count i) := by
  induction calls generalizing p with
  | nil => exact (UInt32.add_zero _).symm
  | cons o calls ih =>
    have heffect := hp.effect o
    have hlater := ih (heffect.sound hp)
    rw [heffect.generation, UInt32.add_assoc, ← UInt32.ofNat_add, Nat.add_comm] at hlater
    rw [returns, List.count_append]
    exact hlater

theorem at?_serve (hp : p.Sound) {calls : List (Call α)} (hx : p.at? i = some x)
    (hi : i ∉ p.returns calls) : (p.serve calls).at? i = some (p.edits i x calls) := by
  induction calls generalizing p x with
  | nil => exact hx
  | cons o calls ih =>
    have heffect := hp.effect o
    rw [returns, List.mem_append, not_or] at hi
    exact ih (heffect.sound hp) (heffect.kept hx hi.2) hi.1

/-- Generations come round after as many steps as there are of them. -/
theorem add_ofNat_eq_self_iff (g : UInt32) (n : Nat) : g + UInt32.ofNat n = g ↔ 2 ^ 32 ∣ n := by
  have hlt := g.toNat_lt
  rw [← UInt32.toNat_inj, UInt32.toNat_add, UInt32.toNat_ofNat']
  omega

theorem Taken.generation_eq {q : Pool α capacity} {build : Handle → α} {k : Handle}
    (ht : p.Taken build k q) : q.generation k.index = k.generation := by
  have hget := ht.get? k
  rw [get?_eq_generation, if_pos rfl] at hget
  by_contra hne
  rw [if_neg hne] at hget
  cases hget

theorem get?_serve {q : Pool α capacity} {build : Handle → α} {k : Handle}
    (ht : p.Taken build k q) (calls : List (Call α)) :
    (q.serve calls).get? k =
      if 2 ^ 32 ∣ (q.returns calls).count k.index then (q.serve calls).at? k.index else none := by
  rw [get?_eq_generation, generation_serve ht.sound, ht.generation_eq]
  simp only [add_ofNat_eq_self_iff]

/-- In every state after an insertion, the handle that was answered finds an entry exactly when
there is one in its slot and the slot was given back a multiple of `2 ^ 32` times since; to look up,
to take out and to change in place succeed together. So before the slot was given back that often,
the handle finds its own entry, as changed in place, until the slot is given back, and from then on
nothing, whatever gets the slot. A handle that finds nothing changes nothing. Slot numbers are read
as 16 bits wide, so the capacity is 65536 at most; above that they would come round. -/
theorem serve_tenure (before later : List (Call α)) (build : Handle → α) {k : Handle}
    {p : Pool α capacity} (hinserted : (empty.serve before).insert? build = some (k, p)) :
    ∃ q, p.serve later = q ∧
      ((q.get? k).isSome ↔
        (q.at? k.index).isSome ∧ 2 ^ 32 ∣ (p.returns later).count k.index) ∧
      ((q.remove? k).map Prod.fst = q.get? k ∧ ∀ f, (q.modify k f).get? k = (q.get? k).map f) ∧
      ((p.returns later).count k.index < 2 ^ 32 →
        q.get? k =
          if k.index ∈ p.returns later then none else some (p.edits k.index (build k) later)) ∧
      ∀ h, q.get? h = none →
        q.remove? h = none ∧ (Call.remove h).act q = q ∧ ∀ f, q.modify h f = q := by
  have ht := (sound_serve sound_empty before).taken hinserted
  have hget := get?_serve ht later
  refine ⟨_, rfl, ?_, ⟨map_fst_remove? _ k, fun f => ?_⟩, fun hround => ?_, fun h hnone => ?_⟩
  · rw [hget]
    by_cases hround : 2 ^ 32 ∣ (p.returns later).count k.index
    · rw [if_pos hround, and_iff_left hround]
    · rw [if_neg hround]
      exact ⟨fun hsome => absurd hsome Bool.false_ne_true, fun hgiven => absurd hgiven.2 hround⟩
  · cases hx : (p.serve later).get? k with
    | none => rw [Pool.modify, hx, hx, Option.map_none]
    | some x => rw [modify_of_get? hx, get?_modifyAt_of_get? hx, if_pos rfl, Option.map_some]
  · have hfirst : p.at? k.index = some (build k) := by rw [ht.at?, if_pos rfl]
    rw [hget]
    by_cases hgiven : k.index ∈ p.returns later
    · have hpos := List.count_pos_iff.2 hgiven
      rw [if_pos hgiven, if_neg (by omega)]
    · rw [if_neg hgiven, List.count_eq_zero.2 hgiven, if_pos (Nat.dvd_zero _)]
      exact at?_serve ht.sound hfirst hgiven
  · refine ⟨?_, act_remove_none hnone, fun f => ?_⟩
    · rw [remove?, hnone, Option.map_none]
    · rw [Pool.modify, hnone]

theorem serve_tenure_reused :
    ∃ k p, ((empty : Pool Nat 1).serve [.insert fun _ => 3, .remove ⟨0, 0⟩]).insert? (fun _ => 7) =
        some (k, p) ∧
      (p.serve [.modify k (· + 1)]).get? k = some 8 ∧
      (p.serve [.modify k (· + 1), .remove k, .insert fun _ => 5]).get? k = none := by
  have hinserted : ((empty : Pool Nat 1).serve [.insert fun _ => 3, .remove ⟨0, 0⟩]).insert?
      (fun _ => 7) = some (⟨0, 1⟩, ⟨#[⟨1, some 7⟩], [], 1⟩) := by rfl
  refine ⟨_, _, hinserted, ?_, ?_⟩
  · obtain ⟨q, rfl, -, -, hround, -⟩ := serve_tenure _ [.modify ⟨0, 1⟩ (· + 1)] _ hinserted
    exact hround (by decide)
  · obtain ⟨q, rfl, -, -, hround, -⟩ := serve_tenure _
      [.modify ⟨0, 1⟩ (· + 1), .remove ⟨0, 1⟩, .insert fun _ => 5] _ hinserted
    exact hround (by decide)

end Pool

end AirSurvey

import AirSurvey.Proofs.Chain.Rewiring
import Mathlib.Logic.Function.Basic

set_option autoImplicit false

/-!
Many chains threaded through one field of one pool. No slot is on two of them and an entry on none is
loose, so an operation on one chain leaves what the others spell.
-/

namespace AirSurvey.Chain

variable {α β ι : Type} {capacity : Nat} {f : LinkField α}

theorem Relinked.view_eq {S : Nat → Prop} {p q : Pool α capacity} (h : Relinked f S p q)
    (g : α → β) (hg : ∀ x l, g (f.set x l) = g x) : q.view g = p.view g := by
  have hbare : ∀ x, g (f.bare x) = g x := fun x => hg x .loose
  simpa only [hbare] using Pool.view_eq_comp h.view g

structure Woven (f : LinkField α) (p : Pool α capacity) (chains : ι → Chain f)
    (lists : ι → List Nat) : Prop where
  spells : ∀ a, (chains a).Spells p (lists a)
  apart : ∀ a b i, i ∈ lists a → i ∈ lists b → a = b
  loose : ∀ i x, p.at? i = some x → (∀ a, i ∉ lists a) → f.get x = .loose

namespace Woven

variable {p q : Pool α capacity} {chains : ι → Chain f} {lists : ι → List Nat}

theorem congr {chains' : ι → Chain f} {lists' : ι → List Nat} (w : Woven f p chains lists)
    (hc : ∀ a, chains' a = chains a) (hl : ∀ a, lists' a = lists a) : Woven f p chains' lists' := by
  obtain rfl := funext hc
  obtain rfl := funext hl
  exact w

theorem transport (w : Woven f p chains lists)
    (hlinks : ∀ i, (q.at? i).map f.get = (p.at? i).map f.get) : Woven f q chains lists where
  spells a := (w.spells a).transport fun i _ => hlinks i
  apart := w.apart
  loose i x hx hi := by
    have hlink := hlinks i
    rw [hx, Option.map_some] at hlink
    obtain ⟨y, hy, hxy⟩ := Option.map_eq_some_iff.1 hlink.symm
    rw [← hxy]
    exact w.loose i y hy hi

theorem occupied (w : Woven f p chains lists) {h : Handle} {build : Handle → α}
    (ht : p.Taken build h q) (hloose : f.get (build h) = .loose) : Woven f q chains lists := by
  have hfree : ∀ a, h.index ∉ lists a := fun a ha => by
    simpa [ht.vacant] using (w.spells a).at?_isSome ha
  refine ⟨fun a => (w.spells a).transport fun i hi => ?_, w.apart, fun i x hx hi => ?_⟩
  · have hne : h.index ≠ i := fun e => hfree a (e ▸ hi)
    rw [ht.at?, if_neg hne]
  · rw [ht.at?] at hx
    split at hx
    · cases hx
      exact hloose
    · exact w.loose i x hx hi

theorem released (w : Woven f p chains lists) {i : Nat} (hi : ∀ a, i ∉ lists a) :
    Woven f (p.release i) chains lists := by
  refine ⟨fun a => (w.spells a).transport fun j hj => ?_, w.apart, fun j x hx hj => ?_⟩
  · have hne : i ≠ j := fun e => hi a (e ▸ hj)
    rw [Pool.at?_release, if_neg hne]
  · rw [Pool.at?_release] at hx
    split at hx
    · cases hx
    · exact w.loose j x hx hj

variable [DecidableEq ι]

open Function (update)

/-- One chain of a weave is exchanged by an operation on it that took in or left loose slot `i`. -/
theorem exchanged (w : Woven f p chains lists) {a : ι} {d : Chain f} {s : List Nat} {i : Nat}
    (hd : d.Spells q s) (hpool : Relinked f (fun j => j = i ∨ j ∈ lists a) p q)
    (hs : ∀ j, j ≠ i → (j ∈ s ↔ j ∈ lists a)) (hi : ∀ b, b ≠ a → i ∉ lists b)
    (hloose : i ∉ s → (q.at? i).map f.get = some .loose) :
    Woven f q (update chains a d) (update lists a s) where
  spells b := by
    by_cases hb : b = a
    · subst hb
      simpa using hd
    · simp only [Function.update_of_ne hb]
      refine (w.spells b).transport fun j hj => ?_
      rw [hpool.kept j]
      intro hgiven
      rcases hgiven with rfl | hja
      · exact hi b hb hj
      · exact hb (w.apart b a j hj hja)
  apart b c j hb hc := by
    by_cases hji : j = i
    · subst hji
      have hown : ∀ b, j ∈ update lists a s b → b = a := by
        intro b hb
        by_contra hne
        rw [Function.update_of_ne hne] at hb
        exact hi b hne hb
      exact (hown b hb).trans (hown c hc).symm
    · have hold : ∀ b, j ∈ update lists a s b → j ∈ lists b := by
        intro b hb
        by_cases hba : b = a
        · subst hba
          rw [Function.update_self] at hb
          exact (hs j hji).1 hb
        · rwa [Function.update_of_ne hba] at hb
      exact w.apart b c j (hold b hb) (hold c hc)
  loose j x hx hj := by
    by_cases hji : j = i
    · subst hji
      have hna := hj a
      rw [Function.update_self] at hna
      simpa [hx] using hloose hna
    · have hja : ∀ b, j ∉ lists b := by
        intro b hb
        have hjb := hj b
        by_cases hba : b = a
        · subst hba
          rw [Function.update_self] at hjb
          exact hjb ((hs j hji).2 hb)
        · rw [Function.update_of_ne hba] at hjb
          exact hjb hb
      have hkept := hpool.kept j fun h => h.elim hji (hja a)
      exact w.loose j x (hkept.symm.trans hx) hja

theorem insertBetween (w : Woven f p chains lists) {a : ι} {l r : List Nat} {i : Nat} {x : α}
    (ha : lists a = l ++ r) (hx : p.at? i = some x) (hi : ∀ b, i ∉ lists b) :
    ∃ d q, (chains a).insertBetween p i (lastOf .head l) (firstOf r .head) = .ok (d, q) ∧
      Woven f q (update chains a d) (update lists a (l ++ i :: r)) ∧
      Relinked f (fun j => j = i ∨ j ∈ lists a) p q := by
  have hspells := w.spells a
  rw [ha] at hspells
  obtain ⟨d, q, hrun, hd, hpool⟩ := hspells.insertBetween hx (w.loose i x hx hi) (ha ▸ hi a)
  have hpool' : Relinked f (fun j => j = i ∨ j ∈ lists a) p q := by
    refine hpool.mono fun j hj => ?_
    simp only [ha, List.mem_append, List.mem_cons] at hj ⊢
    tauto
  refine ⟨d, q, hrun, w.exchanged hd hpool' (fun j hj => ?_) (fun b _ => hi b) (fun h => ?_), hpool'⟩
  · simp [ha, hj]
  · simp at h

theorem pushFront (w : Woven f p chains lists) (a : ι) {i : Nat} {x : α}
    (hx : p.at? i = some x) (hi : ∀ b, i ∉ lists b) :
    ∃ d q, (chains a).pushFront p i = .ok (d, q) ∧
      Woven f q (update chains a d) (update lists a (i :: lists a)) ∧
      Relinked f (fun j => j = i ∨ j ∈ lists a) p q := by
  have h := w.insertBetween (List.nil_append (lists a)).symm hx hi
  rwa [Chain.pushFront, (w.spells a).head]

theorem pushBack (w : Woven f p chains lists) (a : ι) {i : Nat} {x : α}
    (hx : p.at? i = some x) (hi : ∀ b, i ∉ lists b) :
    ∃ d q, (chains a).pushBack p i = .ok (d, q) ∧
      Woven f q (update chains a d) (update lists a (lists a ++ [i])) ∧
      Relinked f (fun j => j = i ∨ j ∈ lists a) p q := by
  have h := w.insertBetween (List.append_nil (lists a)).symm hx hi
  rwa [Chain.pushBack, (w.spells a).head]

theorem remove (w : Woven f p chains lists) {a : ι} {i : Nat} (hi : i ∈ lists a) :
    ∃ d q, (chains a).remove p i = .ok (d, q) ∧
      Woven f q (update chains a d) (fun b => (lists b).filter (· != i)) ∧
      Relinked f (fun j => j = i ∨ j ∈ lists a) p q := by
  obtain ⟨l, r, ha⟩ := List.append_of_mem hi
  have hspells := w.spells a
  rw [ha] at hspells
  obtain ⟨d, q, hrun, hd, hloose, hpool⟩ := hspells.remove
  have hother : ∀ b, b ≠ a → i ∉ lists b := fun b hb hib => hb (w.apart b a i hib hi)
  have hpool' : Relinked f (fun j => j = i ∨ j ∈ lists a) p q :=
    hpool.mono fun j hj => .inr (ha ▸ hj)
  obtain ⟨hnot, -⟩ := List.nodup_cons.1 (List.nodup_middle.1 hspells.nodup)
  refine ⟨d, q, hrun, (w.exchanged hd hpool' (fun j hj => ?_) hother fun _ => hloose).congr
    (fun _ => rfl) (fun b => ?_), hpool'⟩
  · simp [ha, hj]
  · by_cases hb : b = a
    · subst hb
      have hkeep : (l ++ r).filter (· != i) = l ++ r :=
        List.filter_eq_self.2 fun j hj => by simpa using fun e : j = i => hnot (e ▸ hj)
      rw [Function.update_self, ha, ← hkeep]
      simp
    · rw [Function.update_of_ne hb]
      exact List.filter_eq_self.2 fun j hj => by simpa using fun e : j = i => hother b hb (e ▸ hj)

theorem popFront? (w : Woven f p chains lists) (a : ι) :
    (lists a = [] ∧ (chains a).popFront? p = .ok none) ∨
    ∃ i s d q, lists a = i :: s ∧ (chains a).popFront? p = .ok (some (i, d, q)) ∧
      Woven f q (update chains a d) (fun b => (lists b).filter (· != i)) ∧
      Relinked f (fun j => j = i ∨ j ∈ lists a) p q := by
  have hfirst := (w.spells a).first?
  cases ha : lists a with
  | nil =>
    rw [ha, List.head?_nil] at hfirst
    exact .inl ⟨rfl, by simp [Chain.popFront?, hfirst]⟩
  | cons i s =>
    rw [ha, List.head?_cons] at hfirst
    obtain ⟨d, q, hrun, hw, hpool⟩ := w.remove (a := a) (i := i) (by simp [ha])
    refine .inr ⟨i, s, d, q, rfl, ?_, hw, ha ▸ hpool⟩
    simp [Chain.popFront?, hfirst, hrun, bind, Except.bind, pure, Except.pure]

end Woven

end AirSurvey.Chain

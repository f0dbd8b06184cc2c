import AirSurvey.Proofs.Chain.Splicing
import AirSurvey.Proofs.Chain.Walking

set_option autoImplicit false

/-!
What the audit of a chain tells. It comes to an end whatever the links say, cycles and links into
vacant slots included, and is content with exactly the chains that spell something.
-/

namespace AirSurvey.Chain

variable {α : Type} {capacity : Nat} {f : LinkField α} {c : Chain f} {p : Pool α capacity}

/-- The walk of the audit with the slots that it looks at, the one that it stops at included. -/
def probeFrom (f : LinkField α) (p : Pool α capacity) (left : Nat) (prev pos : Position) :
    List Nat × Except Fault (Position × Position × Nat) :=
  match pos with
  | .entry i =>
    match p.at? i with
    | none => ([i], .error (.vacantSlot i))
    | some x =>
      if (f.get x).prev = prev then
        match left with
        | 0 => ([i], .error (.defect .chainTooLong))
        | left + 1 =>
          let (slots, outcome) := probeFrom f p left (.entry i) (f.get x).next
          (i :: slots, outcome)
      else ([i], .error (.defect (.backLink i)))
  | _ => ([], .ok (prev, pos, left))

theorem auditFrom_vacant {left i : Nat} {prev : Position} (hi : p.at? i = none) :
    auditFrom f p left prev (.entry i) = .error (.vacantSlot i) := by
  simp [auditFrom, Pool.item, hi, bind, Except.bind]

theorem auditFrom_disagrees {left i : Nat} {prev : Position} {x : α} (hx : p.at? i = some x)
    (hprev : (f.get x).prev ≠ prev) :
    auditFrom f p left prev (.entry i) = .error (.defect (.backLink i)) := by
  simp [auditFrom, Pool.item_of_at? hx, hprev, bind, Except.bind, throw, throwThe,
    MonadExceptOf.throw]

theorem auditFrom_too_long {i : Nat} {prev : Position} {x : α} (hx : p.at? i = some x)
    (hprev : (f.get x).prev = prev) :
    auditFrom f p 0 prev (.entry i) = .error (.defect .chainTooLong) := by
  simp [auditFrom, Pool.item_of_at? hx, hprev, bind, Except.bind, throw, throwThe,
    MonadExceptOf.throw]

theorem auditFrom_agrees {left i : Nat} {prev : Position} {x : α} (hx : p.at? i = some x)
    (hprev : (f.get x).prev = prev) :
    auditFrom f p (left + 1) prev (.entry i) = auditFrom f p left (.entry i) (f.get x).next := by
  simp [auditFrom, Pool.item_of_at? hx, hprev, bind, Except.bind]

theorem auditFrom_off {left : Nat} {prev pos : Position} (h : ∀ i, pos ≠ .entry i) :
    auditFrom f p left prev pos = .ok (prev, pos, left) := by
  cases pos with
  | entry i => exact absurd rfl (h i)
  | head => cases left <;> rfl
  | unlinked => cases left <;> rfl

theorem snd_probeFrom (f : LinkField α) (p : Pool α capacity) (left : Nat) (prev pos : Position) :
    (probeFrom f p left prev pos).2 = auditFrom f p left prev pos := by
  fun_induction probeFrom f p left prev pos with
  | case1 left prev i hi => exact (auditFrom_vacant hi).symm
  | case2 i x hx => exact (auditFrom_too_long hx rfl).symm
  | case3 i x hx left slots outcome hprobe ih => rw [auditFrom_agrees hx rfl, ← ih, hprobe]
  | case4 left prev i x hx hprev => exact (auditFrom_disagrees hx hprev).symm
  | case5 left prev pos hpos => exact (auditFrom_off hpos).symm

theorem length_probeFrom_le (f : LinkField α) (p : Pool α capacity) (left : Nat)
    (prev pos : Position) : (probeFrom f p left prev pos).1.length ≤ left + 1 := by
  fun_induction probeFrom f p left prev pos with
  | case3 i x hx left slots outcome hprobe ih =>
    rw [hprobe] at ih
    simpa using ih
  | _ => simp

theorem auditFrom_congr {q : Pool α capacity} {left : Nat} {prev pos : Position}
    (hq : ∀ i ∈ (probeFrom f p left prev pos).1, q.at? i = p.at? i) :
    auditFrom f q left prev pos = auditFrom f p left prev pos := by
  fun_induction probeFrom f p left prev pos with
  | case1 left prev i hi =>
    have hqi := hq i (by simp)
    rw [auditFrom_vacant hi, auditFrom_vacant (hqi.trans hi)]
  | case2 i x hx =>
    have hqx := hq i (by simp)
    rw [auditFrom_too_long hx rfl, auditFrom_too_long (hqx.trans hx) rfl]
  | case3 i x hx left slots outcome hprobe ih =>
    have hqx := hq i (by simp)
    rw [hprobe] at ih
    rw [auditFrom_agrees hx rfl, auditFrom_agrees (hqx.trans hx) rfl]
    exact ih fun j hj => hq j (by simp [hj])
  | case4 left prev i x hx hprev =>
    have hqx := hq i (by simp)
    rw [auditFrom_disagrees hx hprev, auditFrom_disagrees (hqx.trans hx) hprev]
  | case5 left prev pos hpos => rw [auditFrom_off hpos, auditFrom_off hpos]

theorem probeFrom_segment {s : List Nat} {x : Position}
    (h : Segment (c.after p) (c.before p) x .head s) :
    (probeFrom f p s.length x (firstOf s .head)).1 = s := by
  induction s generalizing x with
  | nil => simp [probeFrom]
  | cons i r ih =>
    obtain ⟨-, hprev, hr⟩ := h
    obtain ⟨y, hy, hnext⟩ := exists_of_after hr.first
    have hback : (f.get y).prev = x := by simpa [before, linkOf, hy] using hprev
    simp [probeFrom, hy, hback, hnext, ih hr]

theorem lastOf_append (x : Position) (l r : List Nat) :
    lastOf x (l ++ r) = lastOf (lastOf x l) r := by
  induction l generalizing x with
  | nil => rfl
  | cons i l ih => exact ih (.entry i)

/-- Backward links that undo the forward ones lead into no entry from two sides, so what closes on
the head meets no entry twice. -/
theorem Segment.nodup {fd bk : Position → Option Position} {y : Position} {s : List Nat}
    (h : Segment fd bk .head y s) : s.Nodup := by
  induction s using List.reverseRecOn generalizing y with
  | nil => exact List.nodup_nil
  | append_singleton l i ih =>
    obtain ⟨hl, -⟩ := (segment_append l [] i).1 h
    have hnodup := ih hl
    have hi : i ∉ l := by
      intro hmem
      obtain ⟨l₁, l₂, rfl⟩ := List.append_of_mem hmem
      -- What stands before the entry is the same both times, but it stands behind it the second time.
      have hfirst := ((segment_append l₁ l₂ i).1 hl).1.last
      have hsame := Option.some.inj (hfirst.symm.trans hl.last)
      obtain ⟨j, hj, hlast⟩ := exists_lastOf (List.cons_ne_nil i l₂) (lastOf .head l₁)
      have hapart : j ∉ l₁ := fun hjl => (List.nodup_append.1 hnodup).2.2 j hjl j hj rfl
      rw [lastOf_append, hlast] at hsame
      exact entry_ne_lastOf hapart hsame.symm
    refine List.nodup_append.2 ⟨hnodup, by simp, ?_⟩
    intro j hj k hk e
    simp only [List.mem_singleton] at hk
    exact hi (hk ▸ e ▸ hj)

theorem exists_segment {left rest : Nat} {x pos : Position}
    (hwalk : auditFrom f p left x pos = .ok (c.head.prev, .head, rest))
    (hx : c.after p x = some pos) :
    ∃ s, s.length + rest = left ∧ Segment (c.after p) (c.before p) x .head s := by
  rw [← snd_probeFrom] at hwalk
  fun_induction probeFrom f p left x pos with
  | case1 | case2 | case4 => cases hwalk
  | case3 i y hy left slots outcome hprobe ih =>
    rw [hprobe] at ih
    obtain ⟨s, hs, hring⟩ := ih hwalk (by simp [after, linkOf, hy])
    refine ⟨i :: s, ?_, hx, by simp [before, linkOf, hy], hring⟩
    rw [List.length_cons]
    omega
  | case5 left x pos hpos =>
    simp only [Except.ok.injEq, Prod.mk.injEq] at hwalk
    obtain ⟨rfl, rfl, rfl⟩ := hwalk
    exact ⟨[], by simp, hx, by simp [before, linkOf]⟩

theorem walk_of_audit (h : c.audit p = .ok ()) :
    auditFrom f p c.length .head c.head.next = .ok (c.head.prev, .head, 0) := by
  unfold audit at h
  cases hwalk : auditFrom f p c.length .head c.head.next with
  | error e => simp [hwalk, bind, Except.bind] at h
  | ok r =>
    obtain ⟨last, stop, left⟩ := r
    have hstop : stop = .head := by
      by_contra hne
      simp [hwalk, hne, bind, Except.bind, throw, throwThe, MonadExceptOf.throw] at h
    have hlast : c.head.prev = last := by
      by_contra hne
      simp [hwalk, hstop, hne, bind, Except.bind, throw, throwThe, MonadExceptOf.throw] at h
    have hleft : left = 0 := by
      by_contra hne
      simp [hwalk, hstop, hlast, hne, bind, Except.bind, throw, throwThe,
        MonadExceptOf.throw] at h
    rw [hstop, hlast, hleft]

theorem exists_spells_of_audit (h : c.audit p = .ok ()) : ∃ s, c.Spells p s := by
  obtain ⟨s, hs, hring⟩ := exists_segment (walk_of_audit h) rfl
  exact ⟨s, hring.nodup, by omega, hring⟩

/-- Whatever the head, the count and the links are, the walk of the audit looks at no more than one
slot beyond the count, and no other slot decides what it finds. It finds nothing wrong with exactly
the chains that spell something, and has then looked at what they spell. -/
theorem audit_decides (c : Chain f) (p : Pool α capacity) :
    ∃ seen, probeFrom f p c.length .head c.head.next =
        (seen, auditFrom f p c.length .head c.head.next) ∧
      seen.length ≤ c.length + 1 ∧
      (∀ q : Pool α capacity, (∀ i ∈ seen, q.at? i = p.at? i) → c.audit q = c.audit p) ∧
      (c.audit p = .ok () ↔ ∃ s, c.Spells p s) ∧
      ∀ s, c.Spells p s → seen = s := by
  refine ⟨_, Prod.ext rfl (snd_probeFrom ..), length_probeFrom_le .., ?_, ?_, ?_⟩
  · intro q hq
    rw [audit, audit, auditFrom_congr hq]
  · constructor
    · exact exists_spells_of_audit
    · rintro ⟨s, hs⟩
      exact hs.audit
  · intro s hs
    rw [hs.length, hs.head]
    exact probeFrom_segment hs.ring

/-- Two entries that lead round and round past the head: the walk stops where it comes back. -/
example :
    probeFrom plainLink
      (⟨#[⟨0, some ⟨.head, .entry 1⟩⟩, ⟨0, some ⟨.entry 0, .entry 0⟩⟩], [], 2⟩ : Pool Link 2)
      9 .head (.entry 0) = ([0, 1, 0], .error (.defect (.backLink 0))) := rfl

end AirSurvey.Chain

import AirSurvey.Chain.Cursor
import AirSurvey.Proofs.Action
import AirSurvey.Proofs.Pool

set_option autoImplicit false

/-!
What sequence of slots a chain spells. The head and the entries form a ring; a chain spells `s` when
going round the ring from the head visits `s`, each neighbour naming the other, and comes back.
-/

namespace AirSurvey

def LinkField.bare {α : Type} (f : LinkField α) (x : α) : α := f.set x .loose

@[simp] theorem LinkField.bare_set {α : Type} (f : LinkField α) (x : α) (l : Link) :
    f.bare (f.set x l) = f.bare x := f.set_set ..

namespace Chain

variable {α : Type} {capacity : Nat} {f : LinkField α}

/-- The link at a position of the ring that the head and the entries make. -/
def linkOf (c : Chain f) (p : Pool α capacity) : Position → Option Link
  | .head => some c.head
  | .entry i => (p.at? i).map f.get
  | .unlinked => none

def after (c : Chain f) (p : Pool α capacity) (x : Position) : Option Position :=
  (c.linkOf p x).map Link.next

def before (c : Chain f) (p : Pool α capacity) (x : Position) : Option Position :=
  (c.linkOf p x).map Link.prev

def lastOf : Position → List Nat → Position
  | x, [] => x
  | _, i :: r => lastOf (.entry i) r

def firstOf : List Nat → Position → Position
  | [], y => y
  | i :: _, _ => .entry i

@[simp] theorem lastOf_nil (x : Position) : lastOf x [] = x := rfl

@[simp] theorem lastOf_cons (x : Position) (i : Nat) (r : List Nat) :
    lastOf x (i :: r) = lastOf (.entry i) r := rfl

@[simp] theorem firstOf_nil (y : Position) : firstOf [] y = y := rfl

@[simp] theorem firstOf_cons (i : Nat) (r : List Nat) (y : Position) :
    firstOf (i :: r) y = .entry i := rfl

theorem lastOf_eq (x : Position) (l : List Nat) :
    lastOf x l = x ∨ ∃ i ∈ l, lastOf x l = .entry i := by
  induction l generalizing x with
  | nil => exact .inl rfl
  | cons i r ih =>
    obtain h | ⟨j, hj, h⟩ := ih (.entry i)
    · exact .inr ⟨i, by simp, by simpa using h⟩
    · exact .inr ⟨j, by simp [hj], by simpa using h⟩

theorem firstOf_eq (r : List Nat) (y : Position) :
    firstOf r y = y ∨ ∃ i ∈ r, firstOf r y = .entry i := by
  cases r with
  | nil => exact .inl rfl
  | cons i r => exact .inr ⟨i, by simp, rfl⟩

theorem firstOf_head_ne_unlinked (r : List Nat) : firstOf r .head ≠ .unlinked := by
  obtain h | ⟨i, -, h⟩ := firstOf_eq r .head <;> simp [h]

/-- From `x` by way of some entries to `y`, each position is the one before the next. -/
def Segment (fd bk : Position → Option Position) (x y : Position) : List Nat → Prop
  | [] => fd x = some y ∧ bk y = some x
  | i :: r => fd x = some (.entry i) ∧ bk (.entry i) = some x ∧ Segment fd bk (.entry i) y r

section Segment

variable {fd bk fd' bk' : Position → Option Position} {x y : Position}

theorem segment_append (l r : List Nat) (i : Nat) :
    Segment fd bk x y (l ++ i :: r) ↔ Segment fd bk x (.entry i) l ∧ Segment fd bk (.entry i) y r := by
  induction l generalizing x with
  | nil => simp [Segment, and_assoc]
  | cons j l ih => simp [Segment, ih, and_assoc]

theorem Segment.first {l : List Nat} (h : Segment fd bk x y l) : fd x = some (firstOf l y) := by
  cases l with
  | nil => exact h.1
  | cons i r => exact h.1

theorem Segment.last {l : List Nat} (h : Segment fd bk x y l) : bk y = some (lastOf x l) := by
  induction l generalizing x with
  | nil => exact h.2
  | cons i r ih => exact ih h.2.2

theorem Segment.transport {l : List Nat} (h : Segment fd bk x y l)
    (hx : fd' x = fd x) (hy : bk' y = bk y)
    (hfd : ∀ i ∈ l, fd' (.entry i) = fd (.entry i)) (hbk : ∀ i ∈ l, bk' (.entry i) = bk (.entry i)) :
    Segment fd' bk' x y l := by
  induction l generalizing x with
  | nil => exact ⟨hx.trans h.1, hy.trans h.2⟩
  | cons i r ih =>
    obtain ⟨h₁, h₂, hr⟩ := h
    refine ⟨hx.trans h₁, (hbk i (by simp)).trans h₂, ih hr (hfd i (by simp)) ?_ ?_⟩
    · exact fun j hj => hfd j (by simp [hj])
    · exact fun j hj => hbk j (by simp [hj])

theorem Segment.retarget {l : List Nat} {z : Position} (h : Segment fd bk x y l)
    (hnodup : l.Nodup) (hx : ∀ i ∈ l, x ≠ .entry i)
    (hfd : ∀ u, u = x ∨ (∃ i ∈ l, u = .entry i) → u ≠ lastOf x l → fd' u = fd u)
    (hbk : ∀ i ∈ l, bk' (.entry i) = bk (.entry i))
    (hlast : fd' (lastOf x l) = some z) (hz : bk' z = some (lastOf x l)) :
    Segment fd' bk' x z l := by
  induction l generalizing x with
  | nil => exact ⟨hlast, hz⟩
  | cons i r ih =>
    obtain ⟨h₁, h₂, hr⟩ := h
    obtain ⟨hi, hrn⟩ := List.nodup_cons.1 hnodup
    have hne : x ≠ lastOf (.entry i) r := by
      obtain he | ⟨j, hj, he⟩ := lastOf_eq (.entry i) r
      · rw [he]
        exact hx i (by simp)
      · rw [he]
        exact hx j (by simp [hj])
    refine ⟨(hfd x (.inl rfl) hne).trans h₁, (hbk i (by simp)).trans h₂,
      ih hr hrn (fun j hj e => hi (by cases e; exact hj)) ?_ ?_ hlast hz⟩
    · rintro u (rfl | ⟨j, hj, rfl⟩) hu
      · exact hfd _ (.inr ⟨i, by simp, rfl⟩) hu
      · exact hfd _ (.inr ⟨j, by simp [hj], rfl⟩) hu
    · exact fun j hj => hbk j (by simp [hj])

end Segment

/-- A chain spells the slots of its entries from first to last. -/
structure Spells (c : Chain f) (p : Pool α capacity) (s : List Nat) : Prop where
  nodup : s.Nodup
  length : c.length = s.length
  ring : Segment (c.after p) (c.before p) .head .head s

theorem empty_spells (p : Pool α capacity) : (empty : Chain f).Spells p [] :=
  ⟨List.nodup_nil, rfl, rfl, rfl⟩

theorem Spells.head {c : Chain f} {p : Pool α capacity} {s : List Nat} (h : c.Spells p s) :
    c.head = ⟨lastOf .head s, firstOf s .head⟩ := by
  have hlast := h.ring.last
  have hfirst := h.ring.first
  simp only [before, after, linkOf, Option.map_some, Option.some.injEq] at hlast hfirst
  rw [← hlast, ← hfirst]

theorem Spells.first? {c : Chain f} {p : Pool α capacity} {s : List Nat} (h : c.Spells p s) :
    c.first? = s.head? := by
  rw [Chain.first?, h.head]
  cases s <;> rfl

theorem Spells.isEmpty_iff {c : Chain f} {p : Pool α capacity} {s : List Nat} (h : c.Spells p s) :
    c.isEmpty = s.isEmpty := by
  rw [Chain.isEmpty, h.head]
  cases s <;> rfl

theorem exists_of_after {c : Chain f} {p : Pool α capacity} {i : Nat} {y : Position}
    (h : c.after p (.entry i) = some y) : ∃ x, p.at? i = some x ∧ (f.get x).next = y := by
  simpa [after, linkOf] using h

theorem Spells.link {c : Chain f} {p : Pool α capacity} {l r : List Nat} {i : Nat}
    (h : c.Spells p (l ++ i :: r)) :
    ∃ x, p.at? i = some x ∧ f.get x = ⟨lastOf .head l, firstOf r .head⟩ := by
  obtain ⟨hl, hr⟩ := (segment_append l r i).1 h.ring
  obtain ⟨x, hx, hnext⟩ := exists_of_after hr.first
  have hprev := hl.last
  simp only [before, linkOf, hx, Option.map_some, Option.some.injEq] at hprev
  refine ⟨x, hx, ?_⟩
  rw [← hprev, ← hnext]

theorem Spells.at?_isSome {c : Chain f} {p : Pool α capacity} {s : List Nat} (h : c.Spells p s)
    {i : Nat} (hi : i ∈ s) : (p.at? i).isSome := by
  obtain ⟨l, r, rfl⟩ := List.append_of_mem hi
  obtain ⟨x, hx, -⟩ := h.link
  simp [hx]

theorem Spells.isLinked {c : Chain f} {p : Pool α capacity} {s : List Nat} (h : c.Spells p s)
    {i : Nat} (hi : i ∈ s) {x : α} (hx : p.at? i = some x) : (f.get x).isLinked = true := by
  obtain ⟨l, r, rfl⟩ := List.append_of_mem hi
  obtain ⟨x', hx', hlink⟩ := h.link
  cases hx.symm.trans hx'
  simpa [Link.isLinked, hlink] using firstOf_head_ne_unlinked r

theorem Spells.next? {c : Chain f} {p : Pool α capacity} {l r : List Nat} {i : Nat}
    (h : c.Spells p (l ++ i :: r)) : c.next? p i = .ok r.head? := by
  obtain ⟨x, hx, hlink⟩ := h.link
  simp only [Chain.next?, Pool.item_of_at? hx]
  cases r <;> simp [bind, Except.bind, pure, Except.pure, hlink, Position.slot?]

theorem forwardFrom_segment {c : Chain f} {p : Pool α capacity} {x y : Position} {s : List Nat}
    (h : Segment (c.after p) (c.before p) x y s) :
    forwardFrom f p s.length (firstOf s y) = .ok s := by
  induction s generalizing x with
  | nil => cases y <;> rfl
  | cons i r ih =>
    obtain ⟨-, -, hr⟩ := h
    obtain ⟨x, hx, hnext⟩ := exists_of_after hr.first
    simp [forwardFrom, Pool.item_of_at? hx, hnext, ih hr, bind, Except.bind, pure, Except.pure]

theorem Spells.toList {c : Chain f} {p : Pool α capacity} {s : List Nat} (h : c.Spells p s) :
    c.toList p = .ok s := by
  rw [Chain.toList, h.head, h.length]
  exact forwardFrom_segment h.ring

theorem mapM_item {p : Pool α capacity} {s : List Nat} (h : ∀ i ∈ s, (p.at? i).isSome) :
    s.mapM p.item = .ok (s.filterMap p.at?) := by
  refine mapM_eq_filterMap fun i hi => ?_
  obtain ⟨x, hx⟩ := Option.isSome_iff_exists.1 (h i hi)
  exact ⟨x, hx, Pool.item_of_at? hx⟩

theorem Spells.items {c : Chain f} {p : Pool α capacity} {s : List Nat} (h : c.Spells p s) :
    c.items p = .ok (s.filterMap p.at?) := by
  simp [Chain.items, h.toList, mapM_item fun i hi => h.at?_isSome hi, bind, Except.bind]

theorem Spells.eq_empty {c : Chain f} {p : Pool α capacity} (h : c.Spells p []) : c = .empty := by
  obtain ⟨head, k⟩ := c
  have hhead := h.head
  have hk := h.length
  simp only [lastOf_nil, firstOf_nil, List.length_nil] at hhead hk
  rw [hhead, hk]
  rfl

theorem Spells.unique {c : Chain f} {p : Pool α capacity} {s t : List Nat} (hs : c.Spells p s)
    (ht : c.Spells p t) : s = t := by
  have h := hs.toList.symm.trans ht.toList
  cases h
  rfl

/-- What a chain spells depends on the links of its own entries only. -/
theorem Spells.transport {c : Chain f} {p q : Pool α capacity} {s : List Nat} (h : c.Spells p s)
    (hlinks : ∀ i ∈ s, (q.at? i).map f.get = (p.at? i).map f.get) : c.Spells q s := by
  refine ⟨h.nodup, h.length, h.ring.transport rfl rfl (fun i hi => ?_) (fun i hi => ?_)⟩
  · simp only [after, linkOf, hlinks i hi]
  · simp only [before, linkOf, hlinks i hi]

end Chain

end AirSurvey

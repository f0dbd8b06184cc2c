import AirSurvey.Chain.Audit
import AirSurvey.Proofs.Chain.Spelling
import Mathlib.Data.List.Induction

set_option autoImplicit false

/-!
Walks over what a chain spells: forwards, backwards, from both ends at once, and the audit's. None
of them leaves the ring or comes upon a slot that holds nothing.
-/

namespace AirSurvey.Chain

variable {α : Type} {capacity : Nat} {f : LinkField α} {c : Chain f} {p : Pool α capacity}
  {s : List Nat}

theorem lastOf_concat (x : Position) (l : List Nat) (i : Nat) : lastOf x (l ++ [i]) = .entry i := by
  induction l generalizing x with
  | nil => rfl
  | cons j l ih => exact ih (.entry j)

theorem slot?_lastOf (s : List Nat) : (lastOf .head s).slot? = s.getLast? := by
  obtain rfl | ⟨l, i, rfl⟩ := List.eq_nil_or_concat s
  · rfl
  · rw [List.concat_eq_append, lastOf_concat, List.getLast?_concat]
    rfl

theorem exists_of_before {i : Nat} {y : Position} (h : c.before p (.entry i) = some y) :
    ∃ x, p.at? i = some x ∧ (f.get x).prev = y := by
  simpa [before, linkOf] using h

theorem Spells.last? (h : c.Spells p s) : c.last? = s.getLast? := by
  rw [Chain.last?, h.head, slot?_lastOf]

theorem Spells.contains (h : c.Spells p s) (i : Nat) : c.contains p i = .ok (s.contains i) := by
  rw [Chain.contains, h.toList]
  rfl

theorem backwardFrom_segment {x y : Position} (h : Segment (c.after p) (c.before p) x y s) :
    backwardFrom f p s.length (lastOf x s) = .ok s.reverse := by
  induction s using List.reverseRecOn generalizing y with
  | nil => cases x <;> rfl
  | append_singleton l i ih =>
    obtain ⟨hl, -⟩ := (segment_append l [] i).1 h
    obtain ⟨x', hx', hprev⟩ := exists_of_before hl.last
    rw [lastOf_concat, List.length_append, List.length_singleton, List.reverse_append]
    simp [backwardFrom, Pool.item_of_at? hx', hprev, ih hl, bind, Except.bind, pure, Except.pure]

theorem Spells.toReverseList (h : c.Spells p s) : c.toReverseList p = .ok s.reverse := by
  rw [Chain.toReverseList, h.head, h.length]
  exact backwardFrom_segment h.ring

namespace Cursor

inductive Side where
  | front
  | back

/-- A call on a cursor: the end it reads from, the size hint before it and its answer. -/
structure Call where
  side : Side
  hint : Nat × Option Nat
  answer : Option Nat

def Side.pick : Side → List Nat → Option Nat
  | .front, s => s.head?
  | .back, s => s.getLast?

def Side.rest : Side → List Nat → List Nat
  | .front, s => s.tail
  | .back, s => s.dropLast

def Side.next? (p : Pool α capacity) : Side → Cursor f → Except Fault (Option (Nat × Cursor f))
  | .front, k => k.next? p
  | .back, k => k.nextBack? p

/-- What one call after the other comes to. -/
def calls (p : Pool α capacity) : List Side → Cursor f → Except Fault (List Call)
  | [], _ => .ok []
  | side :: sides, k => do
    match ← side.next? p k with
    | none => return ⟨side, k.sizeHint, none⟩ :: (← calls p sides k)
    | some (i, k') => return ⟨side, k.sizeHint, some i⟩ :: (← calls p sides k')

def Side.calls : List Side → List Nat → List Call
  | [], _ => []
  | side :: sides, s => ⟨side, (s.length, some s.length), side.pick s⟩ :: calls sides (side.rest s)

theorem pick_eq_none_iff (side : Side) (s : List Nat) : side.pick s = none ↔ s = [] := by
  cases side <;> simp [Side.pick]

theorem length_rest (side : Side) (s : List Nat) : (side.rest s).length = s.length - 1 := by
  cases side <;> simp [Side.rest]

/-- A cursor stands at both ends of the part of a ring that is still to be read. -/
structure Stands (k : Cursor f) (c : Chain f) (p : Pool α capacity) (s : List Nat) : Prop where
  segment : ∃ x y, Segment (c.after p) (c.before p) x y s ∧ k.front = firstOf s y ∧
    k.back = lastOf x s
  remaining : k.remaining = s.length

variable {k : Cursor f}

theorem Stands.next?_nil (h : k.Stands c p []) : k.next? p = .ok none := by
  unfold next?
  rw [h.remaining]
  rfl

theorem Stands.nextBack?_nil (h : k.Stands c p []) : k.nextBack? p = .ok none := by
  unfold nextBack?
  rw [h.remaining]
  rfl

theorem Stands.next?_cons {i : Nat} {r : List Nat} (h : k.Stands c p (i :: r)) :
    ∃ k', k.next? p = .ok (some (i, k')) ∧ k'.Stands c p r := by
  obtain ⟨⟨x, y, ⟨-, -, hr⟩, hfront, hback⟩, hremaining⟩ := h
  obtain ⟨x', hx', hnext⟩ := exists_of_after hr.first
  refine ⟨⟨firstOf r y, k.back, r.length⟩, ?_, ⟨.entry i, y, hr, rfl, hback⟩, rfl⟩
  unfold Cursor.next?
  rw [hremaining, hfront]
  simp [Pool.item_of_at? hx', hnext, bind, Except.bind, pure, Except.pure]

theorem Stands.nextBack?_concat {i : Nat} {l : List Nat} (h : k.Stands c p (l ++ [i])) :
    ∃ k', k.nextBack? p = .ok (some (i, k')) ∧ k'.Stands c p l := by
  obtain ⟨⟨x, y, hring, hfront, hback⟩, hremaining⟩ := h
  obtain ⟨hl, -⟩ := (segment_append l [] i).1 hring
  obtain ⟨x', hx', hprev⟩ := exists_of_before hl.last
  rw [List.length_append, List.length_singleton] at hremaining
  refine ⟨⟨k.front, lastOf x l, l.length⟩, ?_, ⟨x, .entry i, hl, ?_, rfl⟩, rfl⟩
  · unfold Cursor.nextBack?
    rw [hremaining, hback, lastOf_concat]
    simp [Pool.item_of_at? hx', hprev, bind, Except.bind, pure, Except.pure]
  · rw [hfront]
    cases l <;> rfl

theorem Stands.sizeHint (h : k.Stands c p s) : k.sizeHint = (s.length, some s.length) := by
  rw [Cursor.sizeHint, h.remaining]

theorem Stands.next?_side (h : k.Stands c p s) (side : Side) :
    (s = [] ∧ side.next? p k = .ok none) ∨
    ∃ i k', side.pick s = some i ∧ side.next? p k = .ok (some (i, k')) ∧
      k'.Stands c p (side.rest s) := by
  cases side with
  | front =>
    cases s with
    | nil => exact .inl ⟨rfl, h.next?_nil⟩
    | cons i r =>
      obtain ⟨k', hnext, hk'⟩ := h.next?_cons
      exact .inr ⟨i, k', rfl, hnext, hk'⟩
  | back =>
    obtain rfl | ⟨l, i, rfl⟩ := List.eq_nil_or_concat s
    · exact .inl ⟨rfl, h.nextBack?_nil⟩
    · rw [List.concat_eq_append] at h
      obtain ⟨k', hback, hk'⟩ := h.nextBack?_concat
      exact .inr ⟨i, k', by simp [Side.pick], hback, by simpa [Side.rest] using hk'⟩

theorem Stands.calls (h : k.Stands c p s) (sides : List Side) :
    k.calls p sides = .ok (Side.calls sides s) := by
  induction sides generalizing k s with
  | nil => rfl
  | cons side sides ih =>
    obtain ⟨rfl, hnext⟩ | ⟨i, k', hpick, hnext, hk'⟩ := h.next?_side side
    · have hpick : side.pick [] = none := (pick_eq_none_iff side []).2 rfl
      have hrest : side.rest [] = [] := List.eq_nil_of_length_eq_zero (length_rest side [])
      simp [Cursor.calls, Side.calls, hnext, ih h, h.sizeHint, hpick, hrest, bind, Except.bind, pure,
        Except.pure]
    · simp [Cursor.calls, Side.calls, hnext, ih hk', h.sizeHint, hpick, bind, Except.bind, pure,
        Except.pure]

end Cursor

theorem Spells.stands (h : c.Spells p s) : c.cursor.Stands c p s where
  segment := ⟨.head, .head, h.ring, by rw [cursor, h.head], by rw [cursor, h.head]⟩
  remaining := h.length

theorem auditFrom_segment {x : Position} (h : Segment (c.after p) (c.before p) x .head s) :
    auditFrom f p s.length x (firstOf s .head) = .ok (lastOf x s, .head, 0) := by
  induction s generalizing x with
  | nil => rfl
  | cons i r ih =>
    obtain ⟨-, hprev, hr⟩ := h
    obtain ⟨y, hy, hnext⟩ := exists_of_after hr.first
    have hback : (f.get y).prev = x := by simpa [before, linkOf, hy] using hprev
    rw [firstOf_cons, List.length_cons, auditFrom]
    simp [Pool.item_of_at? hy, hback, hnext, ih hr, bind, Except.bind]

theorem Spells.audit (h : c.Spells p s) : c.audit p = .ok () := by
  have hring := auditFrom_segment h.ring
  rw [Chain.audit, h.head, h.length]
  simp [hring, bind, Except.bind, pure, Except.pure]

/-- Links by themselves, as entries that hold nothing else. -/
def plainLink : LinkField Link where
  get l := l
  set _ l := l
  get_set _ _ := rfl
  set_get _ := rfl
  set_set _ _ _ := rfl

def samplePool : Pool Link 4 where
  slots := #[⟨0, some ⟨.entry 2, .entry 1⟩⟩, ⟨0, some ⟨.entry 0, .head⟩⟩,
    ⟨0, some ⟨.head, .entry 0⟩⟩, ⟨0, some .loose⟩]
  free := []
  size := 4

def sampleChain : Chain plainLink := ⟨⟨.entry 1, .entry 2⟩, 3⟩

theorem sampleChain_spells : sampleChain.Spells samplePool [2, 0, 1] where
  nodup := by decide
  length := rfl
  ring := ⟨rfl, rfl, rfl, rfl, rfl, rfl, rfl, rfl⟩

end AirSurvey.Chain

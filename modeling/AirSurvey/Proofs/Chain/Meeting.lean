import AirSurvey.Proofs.Chain.Walking

set_option autoImplicit false

/-!
Reading a chain from both ends with one cursor. At every moment what was read from the front, what is
still to come and what was read from the back make up what the chain spells.
-/

namespace AirSurvey.Chain

variable {α : Type} {capacity : Nat} {f : LinkField α} {c : Chain f} {p : Pool α capacity}

namespace Cursor

def Call.answerFrom : Side → Call → Option Nat
  | .front, ⟨.front, _, answer⟩ | .back, ⟨.back, _, answer⟩ => answer
  | .front, ⟨.back, _, _⟩ | .back, ⟨.front, _, _⟩ => none

/-- The entries that the calls on one end answer. -/
def answersFrom (side : Side) (calls : List Call) : List Nat := calls.filterMap (Call.answerFrom side)

variable {s : List Nat}

theorem map_side_calls (sides : List Side) (s : List Nat) :
    (Side.calls sides s).map Call.side = sides := by
  induction sides generalizing s with
  | nil => rfl
  | cons side sides ih => simp [Side.calls, ih]

theorem length_calls (sides : List Side) (s : List Nat) :
    (Side.calls sides s).length = sides.length := by
  rw [← List.length_map Call.side, map_side_calls]

theorem answersFrom_cons (side : Side) (x : Call) (calls : List Call) :
    answersFrom side (x :: calls) = (x.answerFrom side).toList ++ answersFrom side calls := by
  cases h : x.answerFrom side <;> simp [answersFrom, h]

theorem split_cons (side : Side) (hint : Nat × Option Nat) {left : List Nat} {done : List Call}
    (h : answersFrom .front done ++ left ++ (answersFrom .back done).reverse = side.rest s) :
    answersFrom .front (⟨side, hint, side.pick s⟩ :: done) ++ left ++
      (answersFrom .back (⟨side, hint, side.pick s⟩ :: done)).reverse = s := by
  rw [answersFrom_cons, answersFrom_cons]
  cases side with
  | front =>
    cases s with
    | nil => simpa [Call.answerFrom, Side.pick, Side.rest] using h
    | cons i r => simpa [Call.answerFrom, Side.pick, Side.rest] using h
  | back =>
    obtain rfl | ⟨l, i, rfl⟩ := List.eq_nil_or_concat s
    · simpa [Call.answerFrom, Side.pick, Side.rest] using h
    · have hl : answersFrom .front done ++ left ++ (answersFrom .back done).reverse = l := by
        simpa [Side.rest] using h
      rw [← hl]
      simp [Call.answerFrom, Side.pick]

/-- The calls made and the calls to come meet at what is left of the list. -/
theorem exists_left {sides : List Side} {done later : List Call}
    (h : Side.calls sides s = done ++ later) :
    ∃ left, answersFrom .front done ++ left ++ (answersFrom .back done).reverse = s ∧
      left.length = s.length - done.length ∧ later = Side.calls (sides.drop done.length) left := by
  induction done generalizing sides s with
  | nil => exact ⟨s, by simp [answersFrom], rfl, h.symm⟩
  | cons x done ih =>
    cases sides with
    | nil => simp [Side.calls] at h
    | cons side sides =>
      simp only [Side.calls, List.cons_append, List.cons.injEq] at h
      obtain ⟨rfl, hlater⟩ := h
      obtain ⟨left, hsplit, hlength, hleft⟩ := ih hlater
      refine ⟨left, split_cons _ _ hsplit, ?_, by simpa using hleft⟩
      rw [hlength, length_rest, List.length_cons]
      omega

end Cursor

open Cursor

/-- However calls on the two ends take turns, each answers the entry at its end of what is left, and
tells before how many entries that are. What the calls on the front answered, what is left and,
turned round, what the calls on the back answered make up what the chain spells. So no entry is
answered twice, and as many calls as there are entries answer them all. -/
theorem Spells.ends_meet {s : List Nat} (h : c.Spells p s) (sides : List Side) :
    ∃ calls, c.cursor.calls p sides = .ok calls ∧ calls.map Call.side = sides ∧
      (∀ done later, calls = done ++ later → ∃ left,
        answersFrom .front done ++ left ++ (answersFrom .back done).reverse = s ∧
        left.length = s.length - done.length ∧
        ∀ x rest, later = x :: rest → x.hint = (left.length, some left.length) ∧
          x.answer = x.side.pick left ∧ (x.answer = none ↔ s.length ≤ done.length)) ∧
      (s.length ≤ sides.length →
        answersFrom .front calls ++ (answersFrom .back calls).reverse = s) := by
  refine ⟨_, h.stands.calls sides, map_side_calls sides s, ?_, ?_⟩
  · intro done later hcalls
    obtain ⟨left, hsplit, hlength, hlater⟩ := exists_left hcalls
    refine ⟨left, hsplit, hlength, ?_⟩
    rintro x rest rfl
    cases hsides : sides.drop done.length with
    | nil => simp [hsides, Side.calls] at hlater
    | cons side sides' =>
      simp only [hsides, Side.calls, List.cons.injEq] at hlater
      obtain ⟨rfl, -⟩ := hlater
      refine ⟨rfl, rfl, ?_⟩
      rw [pick_eq_none_iff, ← List.length_eq_zero_iff, hlength]
      omega
  · intro hlong
    obtain ⟨left, hsplit, hlength, -⟩ :=
      exists_left (List.append_nil (Side.calls sides s)).symm
    have hleft : left = [] := by
      rw [← List.length_eq_zero_iff, hlength, length_calls]
      omega
    simpa [hleft] using hsplit

theorem ends_meet_sample :
    sampleChain.Spells samplePool [2, 0, 1] ∧
    ∃ calls, sampleChain.cursor.calls samplePool [.back, .front, .back, .front] = .ok calls ∧
      calls.map Call.answer = [some 1, some 2, some 0, none] ∧
      calls.map Call.hint = [(3, some 3), (2, some 2), (1, some 1), (0, some 0)] ∧
      answersFrom .front calls ++ (answersFrom .back calls).reverse = [2, 0, 1] := by
  obtain ⟨calls, hcalls, -, -, hall⟩ :=
    Spells.ends_meet sampleChain_spells [.back, .front, .back, .front]
  have hrun : sampleChain.cursor.calls samplePool [.back, .front, .back, .front] =
      .ok [⟨.back, (3, some 3), some 1⟩, ⟨.front, (2, some 2), some 2⟩,
        ⟨.back, (1, some 1), some 0⟩, ⟨.front, (0, some 0), none⟩] := rfl
  have hfour : ([2, 0, 1] : List Nat).length ≤
      ([.back, .front, .back, .front] : List Cursor.Side).length := by decide
  refine ⟨sampleChain_spells, calls, hcalls, ?_, ?_, hall hfour⟩
  · rw [Except.ok.inj (hcalls.symm.trans hrun)]
    rfl
  · rw [Except.ok.inj (hcalls.symm.trans hrun)]
    rfl

end AirSurvey.Chain

import AirSurvey.Proofs.Chain.Rewiring
import AirSurvey.Proofs.Chain.Walking

set_option autoImplicit false

/-!
Taking entries off a chain while walking along it. The successor of an entry is read before the entry
may go, so it is the right place to walk on from whatever happens to the entry.
-/

namespace AirSurvey.Chain

variable {α : Type} {capacity : Nat} {f : LinkField α} {c : Chain f} {p : Pool α capacity}

theorem Spells.length_le_slots {s : List Nat} (h : c.Spells p s) : s.length ≤ p.slots.size := by
  have hsub : s.length ≤ (List.range p.slots.size).length := by
    refine h.nodup.length_le_of_subset ?_
    intro i hi
    simpa using Pool.lt_slots_size (h.at?_isSome hi)
  simpa using hsub

theorem removeFrom_none (drop : Nat → Bool) (fuel : Nat) (c : Chain f) (p : Pool α capacity) :
    removeFrom drop fuel c p none = .ok ([], c, p) := by
  cases fuel <;> rfl

theorem removeFrom_keep {drop : Nat → Bool} {fuel i : Nat} {next : Option Nat}
    (hnext : c.next? p i = .ok next) (hdrop : drop i = false) :
    removeFrom drop (fuel + 1) c p (some i) =
      (removeFrom drop fuel c p next).map fun (met, rest) => (i :: met, rest) := by
  rw [removeFrom, hnext]
  simp only [orHalt_ok, hdrop, bind, Except.bind, pure, Except.pure, Bool.false_eq_true, if_false]
  cases removeFrom drop fuel c p next <;> rfl

theorem removeFrom_drop {drop : Nat → Bool} {fuel i : Nat} {next : Option Nat} {d : Chain f}
    {q : Pool α capacity} (hnext : c.next? p i = .ok next) (hdrop : drop i = true)
    (hremove : c.remove p i = .ok (d, q)) :
    removeFrom drop (fuel + 1) c p (some i) =
      (removeFrom drop fuel d q next).map fun (met, rest) => (i :: met, rest) := by
  rw [removeFrom, hnext]
  simp only [orHalt_ok, hdrop, hremove, bind, Except.bind, pure, Except.pure, if_true]
  cases removeFrom drop fuel d q next <;> rfl

/-- One round of the walk, at the entry behind `kept`. Whether the entry stays or goes, the walk goes
on from its successor. -/
theorem Spells.removeFrom_step {kept rest : List Nat} {i : Nat}
    (h : c.Spells p (kept ++ i :: rest)) (drop : Nat → Bool) :
    ∃ d q, (∀ fuel, Chain.removeFrom drop (fuel + 1) c p (some i) =
        (Chain.removeFrom drop fuel d q rest.head?).map fun (met, left) => (i :: met, left)) ∧
      d.Spells q (kept ++ ([i].filter fun j => !drop j) ++ rest) ∧
      (drop i = true → (q.at? i).map f.get = some .loose) ∧
      Relinked f (fun j => j ∈ kept ++ i :: rest) p q := by
  have hnext := h.next?
  cases hdrop : drop i with
  | false =>
    refine ⟨c, p, fun fuel => removeFrom_keep hnext hdrop, ?_, by simp, .refl _ p⟩
    simpa [hdrop] using h
  | true =>
    obtain ⟨d, q, hremove, hd, hloose, hpool⟩ := h.remove
    refine ⟨d, q, fun fuel => removeFrom_drop hnext hdrop hremove, ?_, fun _ => hloose, hpool⟩
    simpa [hdrop] using hd

/-- The walk over the entries behind `kept`, which it has met and left on the chain. -/
theorem Spells.removeFrom {kept rest : List Nat} (h : c.Spells p (kept ++ rest))
    (drop : Nat → Bool) :
    ∃ d q, (∀ fuel, rest.length ≤ fuel →
        Chain.removeFrom drop fuel c p rest.head? = .ok (rest, d, q)) ∧
      d.Spells q (kept ++ rest.filter fun i => !drop i) ∧
      (∀ i ∈ rest, drop i = true → (q.at? i).map f.get = some .loose) ∧
      Relinked f (fun j => j ∈ kept ++ rest) p q := by
  induction rest generalizing kept c p with
  | nil => exact ⟨c, p, fun fuel _ => removeFrom_none drop fuel c p, h, by simp, .refl _ p⟩
  | cons i rest ih =>
    obtain ⟨d₁, q₁, hround, hd₁, hloose₁, hpool₁⟩ := h.removeFrom_step drop
    obtain ⟨d, q, hrun, hd, hloose, hpool⟩ := ih hd₁
    refine ⟨d, q, ?_, ?_, ?_, ?_⟩
    · intro fuel hfuel
      obtain ⟨fuel, rfl⟩ := Nat.exists_eq_add_one_of_ne_zero (Nat.ne_zero_of_lt hfuel)
      rw [List.head?_cons, hround, hrun fuel (Nat.le_of_lt_succ hfuel)]
      rfl
    · rwa [List.append_assoc, ← List.filter_append, List.singleton_append] at hd
    · intro j hj hdropj
      rcases List.mem_cons.1 hj with rfl | hj
      · -- The rest of the walk only rewires what is still on the chain.
        have hoff := (List.nodup_cons.1 (List.nodup_middle.1 h.nodup)).1
        rw [hpool.kept j (by simpa [hdropj] using hoff)]
        exact hloose₁ hdropj
      · exact hloose j hj hdropj
    · refine hpool₁.trans (hpool.mono ?_)
      intro j hj
      simp only [List.mem_append, List.mem_filter, List.mem_cons, List.not_mem_nil, or_false]
        at hj ⊢
      tauto

/-- A walk along a chain that takes off the entries that `drop` picks meets what the chain spells, in
order, and is over after as many rounds. The chain then spells what was not picked, the entries that
were are loose, and nothing else of any entry has changed. As each entry is met once, `drop` stands
for whatever decides about it then. -/
theorem Spells.walk_thins {s : List Nat} (h : c.Spells p s) (drop : Nat → Bool) :
    ∃ d q, (∀ rounds, s.length ≤ rounds →
        Chain.removeFrom drop rounds c p c.first? = .ok (s, d, q)) ∧
      c.removeWhere p drop = .ok (s, d, q) ∧
      d.Spells q (s.filter fun i => !drop i) ∧
      (∀ i ∈ s, drop i = true → (q.at? i).map f.get = some .loose) ∧
      q.view f.bare = p.view f.bare ∧
      ∀ i, i ∉ s → q.at? i = p.at? i := by
  have hstart : c.Spells p ([] ++ s) := h
  obtain ⟨d, q, hrun, hd, hloose, hpool⟩ := hstart.removeFrom drop
  rw [← h.first?] at hrun
  exact ⟨d, q, hrun, hrun _ h.length_le_slots, hd, hloose, hpool.view, hpool.kept⟩

theorem walk_thins_sample :
    sampleChain.Spells samplePool [2, 0, 1] ∧
    ∃ d q, sampleChain.removeWhere samplePool (· % 2 == 0) = .ok ([2, 0, 1], d, q) ∧
      d.Spells q [1] ∧ q.at? 2 = some .loose ∧ q.at? 0 = some .loose ∧ q.at? 3 = some .loose := by
  obtain ⟨d, q, -, hrun, hd, hloose, -, hkept⟩ :=
    Spells.walk_thins sampleChain_spells (· % 2 == 0)
  refine ⟨sampleChain_spells, d, q, hrun, hd, ?_, ?_, hkept 3 (by decide)⟩
  · simpa [plainLink] using hloose 2 (by decide) (by decide)
  · simpa [plainLink] using hloose 0 (by decide) (by decide)

end AirSurvey.Chain

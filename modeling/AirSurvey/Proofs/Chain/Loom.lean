import AirSurvey.Channels
import AirSurvey.Proofs.Chain.Splicing
import AirSurvey.Proofs.Chain.Walking
import Mathlib.Data.List.Nodup

set_option autoImplicit false

/-!
Chains threaded through one field of one pool, and all that can be done to them, one thing after the
other. What a run comes to can be told from lists of slots alone.
-/

namespace AirSurvey.Chain

variable {α : Type} {f : LinkField α} {capacity n : Nat}

open Function (update)

inductive Move (n : Nat) where
  | pushFront (a : Fin n) (i : Nat)
  | pushBack (a : Fin n) (i : Nat)
  | remove (a : Fin n) (i : Nat)
  | popFront (a : Fin n)
  | append (a b : Fin n)
  | prepend (a b : Fin n)

namespace Move

/-- Why a move cannot be made, told from which slots are occupied and from what the chains spell. -/
def fault? (occupied : Nat → Bool) (lists : Fin n → List Nat) : Move n → Option Fault
  | .pushFront _ i | .pushBack _ i =>
    if occupied i = false then some (.vacantSlot i)
    else if ∃ b, i ∈ lists b then some (.alreadyLinked i)
    else none
  | .remove _ i =>
    if occupied i = false then some (.vacantSlot i)
    else if ∃ b, i ∈ lists b then none
    else some (.notLinked i)
  | .popFront _ | .append _ _ | .prepend _ _ => none

def answer (lists : Fin n → List Nat) : Move n → Option Nat
  | .popFront a => (lists a).head?
  | _ => none

/-- What the chains spell once a move is made. -/
def after (lists : Fin n → List Nat) : Move n → Fin n → List Nat
  | .pushFront a i => update lists a (i :: lists a)
  | .pushBack a i => update lists a (lists a ++ [i])
  | .remove a i => update lists a ((lists a).erase i)
  | .popFront a => update lists a (lists a).tail
  | .append a b => update (update lists a (lists a ++ lists b)) b []
  | .prepend a b => update (update lists a (lists b ++ lists a)) b []

/-- What comes of a move: what it answers and what the chains spell then. One that cannot be made
changes nothing. -/
def outcome (occupied : Nat → Bool) (lists : Fin n → List Nat) (m : Move n) :
    Except Fault (Option Nat) × (Fin n → List Nat) :=
  match m.fault? occupied lists with
  | some e => (.error e, lists)
  | none => (.ok (m.answer lists), m.after lists)

def outcomes (occupied : Nat → Bool) (lists : Fin n → List Nat) :
    List (Move n) → List (Except Fault (Option Nat)) × (Fin n → List Nat)
  | [] => ([], lists)
  | m :: moves =>
    let (x, lists) := m.outcome occupied lists
    let (xs, lists) := outcomes occupied lists moves
    (x :: xs, lists)

/-- An entry that is on a chain is not taken off another one, and no chain is joined to itself. -/
def Fits (lists : Fin n → List Nat) : Move n → Prop
  | .remove a i => ∀ b, i ∈ lists b → b = a
  | .append a b | .prepend a b => a ≠ b
  | _ => True

def FitsAll (occupied : Nat → Bool) (lists : Fin n → List Nat) : List (Move n) → Prop
  | [] => True
  | m :: moves => m.Fits lists ∧ FitsAll occupied (m.outcome occupied lists).2 moves

instance (lists : Fin n → List Nat) (m : Move n) : Decidable (m.Fits lists) :=
  match m with
  | .remove a i => inferInstanceAs (Decidable (∀ b, i ∈ lists b → b = a))
  | .append a b => inferInstanceAs (Decidable (a ≠ b))
  | .prepend a b => inferInstanceAs (Decidable (a ≠ b))
  | .pushFront _ _ | .pushBack _ _ | .popFront _ => .isTrue trivial

def decideFitsAll (occupied : Nat → Bool) :
    (lists : Fin n → List Nat) → (moves : List (Move n)) → Decidable (FitsAll occupied lists moves)
  | _, [] => .isTrue trivial
  | lists, m :: moves =>
    have := decideFitsAll occupied (m.outcome occupied lists).2 moves
    inferInstanceAs (Decidable (m.Fits lists ∧ _))

instance (occupied : Nat → Bool) (lists : Fin n → List Nat) (moves : List (Move n)) :
    Decidable (FitsAll occupied lists moves) := decideFitsAll occupied lists moves

theorem fitsAll_append (occupied : Nat → Bool) (lists : Fin n → List Nat)
    (earlier later : List (Move n)) :
    FitsAll occupied lists (earlier ++ later) ↔
      FitsAll occupied lists earlier ∧ FitsAll occupied (outcomes occupied lists earlier).2 later := by
  induction earlier generalizing lists with
  | nil => simp [FitsAll, outcomes]
  | cons m earlier ih => simp [FitsAll, outcomes, ih, and_assoc]

def chains : Move n → List (Fin n)
  | .pushFront a _ | .pushBack a _ | .remove a _ | .popFront a => [a]
  | .append a b | .prepend a b => [a, b]

end Move

/-- A pool with `n` chains through one field of its entries. -/
structure Loom {α : Type} (f : LinkField α) (capacity n : Nat) where
  pool : Pool α capacity
  chains : Fin n → Chain f

namespace Loom

def occupied (L : Loom f capacity n) (i : Nat) : Bool := (L.pool.at? i).isSome

def withChain (L : Loom f capacity n) (a : Fin n) (x : Chain f × Pool α capacity) :
    Loom f capacity n :=
  ⟨x.2, update L.chains a x.1⟩

def withChains (L : Loom f capacity n) (a b : Fin n) (x : Chain f × Chain f × Pool α capacity) :
    Loom f capacity n :=
  ⟨x.2.2, update (update L.chains a x.1) b x.2.1⟩

@[simp] theorem withChain_self (L : Loom f capacity n) (a : Fin n) :
    L.withChain a (L.chains a, L.pool) = L := by
  rw [withChain, Function.update_eq_self]

/-- Makes a move; one that faults halts with the loom that it had come to. -/
def act (L : Loom f capacity n) :
    Move n → Except (Halt (Loom f capacity n)) (Option Nat × Loom f capacity n)
  | .pushFront a i => do
    return (none, L.withChain a (← within (L.withChain a) ((L.chains a).pushFront L.pool i)))
  | .pushBack a i => do
    return (none, L.withChain a (← within (L.withChain a) ((L.chains a).pushBack L.pool i)))
  | .remove a i => do
    return (none, L.withChain a (← within (L.withChain a) ((L.chains a).remove L.pool i)))
  | .popFront a => do
    match ← within (L.withChain a) ((L.chains a).popFront? L.pool) with
    | none => return (none, L)
    | some (i, x) => return (some i, L.withChain a x)
  | .append a b => do
    return (none, L.withChains a b
      (← within (L.withChains a b) ((L.chains a).append (L.chains b) L.pool)))
  | .prepend a b => do
    return (none, L.withChains a b
      (← within (L.withChains a b) ((L.chains a).prepend (L.chains b) L.pool)))

/-- What a move answers, or its fault, and the loom that it has come to either way. -/
def step (L : Loom f capacity n) (m : Move n) :
    Except Fault (Option Nat) × Loom f capacity n :=
  match L.act m with
  | .ok (x, L') => (.ok x, L')
  | .error h => (.error h.fault, h.state)

def run (L : Loom f capacity n) :
    List (Move n) → List (Except Fault (Option Nat)) × Loom f capacity n
  | [] => ([], L)
  | m :: moves =>
    let (x, L) := L.step m
    let (xs, L) := L.run moves
    (x :: xs, L)

/-- The chains of a loom spell lists without a common slot, and all other entries are loose. -/
abbrev Spells (L : Loom f capacity n) (lists : Fin n → List Nat) : Prop :=
  Woven f L.pool L.chains lists

/-- Of the entries only links in one field change, and none at all on a chain that is not `named`;
such a chain spells what it did. -/
structure Keeps (L : Loom f capacity n) (lists : Fin n → List Nat) (L' : Loom f capacity n)
    (lists' : Fin n → List Nat) (named : List (Fin n)) : Prop where
  view : L'.pool.view f.bare = L.pool.view f.bare
  others : ∀ a, a ∉ named → L'.chains a = L.chains a ∧ lists' a = lists a ∧
    ∀ i ∈ lists a, L'.pool.at? i = L.pool.at? i

theorem Keeps.refl (L : Loom f capacity n) (lists : Fin n → List Nat) (named : List (Fin n)) :
    L.Keeps lists L lists named :=
  ⟨rfl, fun _ _ => ⟨rfl, rfl, fun _ _ => rfl⟩⟩

theorem Keeps.trans {L₁ L₂ L₃ : Loom f capacity n} {lists₁ lists₂ lists₃ : Fin n → List Nat}
    {named₁ named₂ : List (Fin n)} (h₁ : L₁.Keeps lists₁ L₂ lists₂ named₁)
    (h₂ : L₂.Keeps lists₂ L₃ lists₃ named₂) : L₁.Keeps lists₁ L₃ lists₃ (named₁ ++ named₂) := by
  refine ⟨h₂.view.trans h₁.view, fun a ha => ?_⟩
  rw [List.mem_append, not_or] at ha
  obtain ⟨hchain₁, hlist₁, hpool₁⟩ := h₁.others a ha.1
  obtain ⟨hchain₂, hlist₂, hpool₂⟩ := h₂.others a ha.2
  refine ⟨hchain₂.trans hchain₁, hlist₂.trans hlist₁, fun i hi => ?_⟩
  rw [hpool₂ i (hlist₁ ▸ hi), hpool₁ i hi]

theorem Keeps.occupied {L L' : Loom f capacity n} {lists lists' : Fin n → List Nat}
    {named : List (Fin n)} (h : L.Keeps lists L' lists' named) : L'.occupied = L.occupied :=
  funext fun i => Pool.isSome_of_view_eq h.view i

variable {L : Loom f capacity n} {lists : Fin n → List Nat}

theorem keeps_of_relinked {S : Nat → Prop} {q : Pool α capacity} {chains' : Fin n → Chain f}
    {lists' : Fin n → List Nat} {named : List (Fin n)} (hpool : Relinked f S L.pool q)
    (hothers : ∀ a, a ∉ named → chains' a = L.chains a ∧ lists' a = lists a)
    (hS : ∀ a, a ∉ named → ∀ i ∈ lists a, ¬ S i) :
    L.Keeps lists ⟨q, chains'⟩ lists' named :=
  ⟨hpool.view, fun a ha => ⟨(hothers a ha).1, (hothers a ha).2,
    fun i hi => hpool.kept i (hS a ha i hi)⟩⟩

theorem update_of_not_mem_one {β : Type} (g : Fin n → β) {a e : Fin n} (x : β)
    (he : e ∉ [a]) : update g a x e = g e :=
  Function.update_of_ne (by simpa using he) _ _

theorem update_of_not_mem_two {β : Type} (g : Fin n → β) {a b e : Fin n} (x y : β)
    (he : e ∉ [a, b]) : update (update g a x) b y e = g e := by
  simp only [List.mem_cons, List.not_mem_nil, or_false, not_or] at he
  rw [Function.update_of_ne he.2, Function.update_of_ne he.1]

theorem Spells.keeps_one (w : L.Spells lists) {a : Fin n} {i : Nat} {c : Chain f}
    {q : Pool α capacity} (s : List Nat)
    (hpool : Relinked f (fun j => j = i ∨ j ∈ lists a) L.pool q)
    (hi : ∀ b, b ≠ a → i ∉ lists b) :
    L.Keeps lists ⟨q, update L.chains a c⟩ (update lists a s) [a] := by
  refine keeps_of_relinked hpool (fun b hb => ⟨?_, ?_⟩) fun b hb j hj hS => ?_
  · exact update_of_not_mem_one _ _ hb
  · exact update_of_not_mem_one _ _ hb
  · have hba : b ≠ a := by simpa using hb
    obtain rfl | hja := hS
    · exact hi b hba hj
    · exact hba (w.apart b a j hj hja)

theorem Spells.keeps_two (w : L.Spells lists) {a b : Fin n} {c d : Chain f}
    {q : Pool α capacity} (s t : List Nat)
    (hpool : Relinked f (fun j => j ∈ lists a ∨ j ∈ lists b) L.pool q) :
    L.Keeps lists ⟨q, update (update L.chains a c) b d⟩ (update (update lists a s) b t) [a, b] := by
  refine keeps_of_relinked hpool (fun e he => ⟨?_, ?_⟩) fun e he j hj hS => ?_
  · exact update_of_not_mem_two _ _ _ he
  · exact update_of_not_mem_two _ _ _ he
  · simp only [List.mem_cons, List.not_mem_nil, or_false, not_or] at he
    exact hS.elim (fun h => he.1 (w.apart e a j hj h)) fun h => he.2 (w.apart e b j hj h)

theorem Spells.filter_eq_update (w : L.Spells lists) {a : Fin n} {i : Nat} (hi : i ∈ lists a) :
    (fun b => (lists b).filter (· != i)) = update lists a ((lists a).erase i) := by
  funext b
  by_cases hb : b = a
  · rw [hb, Function.update_self, ((w.spells a).nodup).erase_eq_filter]
  · rw [Function.update_of_ne hb]
    refine List.filter_eq_self.2 fun j hj => ?_
    simpa using fun e : j = i => hb (w.apart b a i (e ▸ hj) hi)

theorem Spells.isLinked (w : L.Spells lists) {i : Nat} {x : α} (hx : L.pool.at? i = some x) :
    (f.get x).isLinked = true ↔ ∃ a, i ∈ lists a := by
  constructor
  · intro hlinked
    by_contra hnone
    rw [w.loose i x hx fun a ha => hnone ⟨a, ha⟩] at hlinked
    cases hlinked
  · intro hgiven
    rcases hgiven with ⟨a, ha⟩
    exact (w.spells a).isLinked ha hx

theorem insertBetween_vacant {c : Chain f} {p : Pool α capacity} {i : Nat} {prev next : Position}
    (hi : p.at? i = none) : c.insertBetween p i prev next = .error ⟨.vacantSlot i, (c, p)⟩ := by
  simp [insertBetween, Pool.item, hi, bind, Except.bind]

theorem insertBetween_linked {c : Chain f} {p : Pool α capacity} {i : Nat} {x : α}
    {prev next : Position} (hx : p.at? i = some x) (hlinked : (f.get x).isLinked = true) :
    c.insertBetween p i prev next = .error ⟨.alreadyLinked i, (c, p)⟩ := by
  simp [insertBetween, Pool.item_of_at? hx, hlinked, bind, Except.bind, throw, throwThe,
    MonadExceptOf.throw]

theorem remove_vacant {c : Chain f} {p : Pool α capacity} {i : Nat} (hi : p.at? i = none) :
    c.remove p i = .error ⟨.vacantSlot i, (c, p)⟩ := by
  simp [Chain.remove, Pool.item, hi, bind, Except.bind]

theorem remove_loose {c : Chain f} {p : Pool α capacity} {i : Nat} {x : α}
    (hx : p.at? i = some x) (hloose : (f.get x).isLinked = false) :
    c.remove p i = .error ⟨.notLinked i, (c, p)⟩ := by
  simp [Chain.remove, Pool.item_of_at? hx, hloose, bind, Except.bind, throw, throwThe,
    MonadExceptOf.throw]

theorem exists_of_push {i : Nat} (hnone : (if L.occupied i = false then some (Fault.vacantSlot i)
    else if ∃ b, i ∈ lists b then some (.alreadyLinked i) else none) = none) :
    (∃ x, L.pool.at? i = some x) ∧ ∀ b, i ∉ lists b := by
  cases hi : L.pool.at? i with
  | none => simp [occupied, hi] at hnone
  | some x => simpa [occupied, hi] using hnone

theorem Spells.act_run (w : L.Spells lists) {m : Move n} (hfits : m.Fits lists)
    (hnone : m.fault? L.occupied lists = none) :
    ∃ L', L.act m = .ok (m.answer lists, L') ∧ L'.Spells (m.after lists) ∧
      L.Keeps lists L' (m.after lists) m.chains := by
  cases m with
  | pushFront a i =>
    obtain ⟨⟨x, hx⟩, hi⟩ := exists_of_push hnone
    obtain ⟨c, q, hrun, hw, hpool⟩ := Woven.pushFront w a hx hi
    exact ⟨⟨q, update L.chains a c⟩, by simp only [act, hrun]; rfl, hw,
      w.keeps_one _ hpool fun b _ => hi b⟩
  | pushBack a i =>
    obtain ⟨⟨x, hx⟩, hi⟩ := exists_of_push hnone
    obtain ⟨c, q, hrun, hw, hpool⟩ := Woven.pushBack w a hx hi
    exact ⟨⟨q, update L.chains a c⟩, by simp only [act, hrun]; rfl, hw,
      w.keeps_one _ hpool fun b _ => hi b⟩
  | remove a i =>
    obtain ⟨b, hb⟩ : ∃ b, i ∈ lists b := by
      cases hi : L.pool.at? i with
      | none => simp [Move.fault?, occupied, hi] at hnone
      | some x => simpa [Move.fault?, occupied, hi] using hnone
    obtain rfl := hfits b hb
    obtain ⟨c, q, hrun, hw, hpool⟩ := Woven.remove w hb
    rw [w.filter_eq_update hb] at hw
    exact ⟨⟨q, update L.chains b c⟩, by simp only [act, hrun]; rfl, hw,
      w.keeps_one _ hpool fun e he hie => he (w.apart e b i hie hb)⟩
  | popFront a =>
    obtain ⟨hempty, hrun⟩ | ⟨i, s, c, q, hs, hrun, hw, hpool⟩ := Woven.popFront? w a
    · have hafter : (Move.popFront a).after lists = lists := by
        rw [Move.after, hempty, List.tail_nil, ← hempty, Function.update_eq_self]
      refine ⟨L, ?_, by rwa [hafter], by rw [hafter]; exact .refl L lists _⟩
      simp only [act, hrun, Move.answer, hempty]
      rfl
    · have hi : i ∈ lists a := by simp [hs]
      have hafter : (Move.popFront a).after lists = update lists a ((lists a).erase i) := by
        rw [Move.after, hs, List.tail_cons, List.erase_cons_head]
      rw [w.filter_eq_update hi] at hw
      refine ⟨⟨q, update L.chains a c⟩, ?_, by rwa [hafter], ?_⟩
      · simp only [act, hrun, Move.answer, hs]
        rfl
      · rw [hafter]
        exact w.keeps_one _ hpool fun e he hie => he (w.apart e a i hie hi)
  | append a b =>
    obtain ⟨c, d, q, hrun, hw, hpool⟩ := Woven.append w hfits
    exact ⟨⟨q, update (update L.chains a c) b d⟩, by simp only [act, hrun]; rfl, hw,
      w.keeps_two _ _ hpool⟩
  | prepend a b =>
    obtain ⟨c, d, q, hrun, hw, hpool⟩ := Woven.prepend w hfits
    exact ⟨⟨q, update (update L.chains a c) b d⟩, by simp only [act, hrun]; rfl, hw,
      w.keeps_two _ _ hpool⟩

theorem Spells.push_fault (w : L.Spells lists) {i : Nat} {e : Fault} (c : Chain f)
    (prev next : Position)
    (hsome : (if L.occupied i = false then some (Fault.vacantSlot i)
      else if ∃ b, i ∈ lists b then some (.alreadyLinked i) else none) = some e) :
    c.insertBetween L.pool i prev next = .error ⟨e, (c, L.pool)⟩ := by
  cases hi : L.pool.at? i with
  | none =>
    obtain rfl : Fault.vacantSlot i = e := by simpa [occupied, hi] using hsome
    exact insertBetween_vacant hi
  | some x =>
    obtain ⟨hon, rfl⟩ : (∃ b, i ∈ lists b) ∧ Fault.alreadyLinked i = e := by
      simpa [occupied, hi] using hsome
    exact insertBetween_linked hi ((w.isLinked hi).2 hon)

/-- A move that something speaks against faults for that reason, before it has changed anything. -/
theorem Spells.act_fault (w : L.Spells lists) {m : Move n} {e : Fault}
    (hsome : m.fault? L.occupied lists = some e) : L.act m = .error ⟨e, L⟩ := by
  cases m with
  | pushFront a i =>
    have hrun := w.push_fault (L.chains a) .head (L.chains a).head.next hsome
    simp [act, Chain.pushFront, hrun, bind, Except.bind]
  | pushBack a i =>
    have hrun := w.push_fault (L.chains a) (L.chains a).head.prev .head hsome
    simp [act, Chain.pushBack, hrun, bind, Except.bind]
  | remove a i =>
    cases hi : L.pool.at? i with
    | none =>
      obtain rfl : Fault.vacantSlot i = e := by simpa [Move.fault?, occupied, hi] using hsome
      simp [act, remove_vacant hi, bind, Except.bind]
    | some x =>
      obtain ⟨hoff, rfl⟩ : ¬ (∃ b, i ∈ lists b) ∧ Fault.notLinked i = e := by
        simpa [Move.fault?, occupied, hi] using hsome
      have hloose := Bool.eq_false_iff.2 fun h => hoff ((w.isLinked hi).1 h)
      simp [act, remove_loose hi hloose, bind, Except.bind]
  | popFront => cases hsome
  | append => cases hsome
  | prepend => cases hsome

theorem Spells.step (w : L.Spells lists) {m : Move n} (hfits : m.Fits lists) :
    ∃ L', L.step m = ((m.outcome L.occupied lists).1, L') ∧
      L'.Spells (m.outcome L.occupied lists).2 ∧
      L.Keeps lists L' (m.outcome L.occupied lists).2 m.chains := by
  rw [Move.outcome]
  cases hfault : m.fault? L.occupied lists with
  | none =>
    obtain ⟨L', hrun, hw, hkeeps⟩ := w.act_run hfits hfault
    exact ⟨L', by rw [Loom.step, hrun], hw, hkeeps⟩
  | some e => exact ⟨L, by rw [Loom.step, w.act_fault hfault], w, .refl L lists _⟩

theorem Spells.run (w : L.Spells lists) {moves : List (Move n)}
    (hfits : Move.FitsAll L.occupied lists moves) :
    ∃ L', L.run moves = ((Move.outcomes L.occupied lists moves).1, L') ∧
      L'.Spells (Move.outcomes L.occupied lists moves).2 ∧
      L.Keeps lists L' (Move.outcomes L.occupied lists moves).2 (moves.flatMap Move.chains) := by
  induction moves generalizing L lists with
  | nil => exact ⟨L, rfl, w, .refl L lists _⟩
  | cons m moves ih =>
    obtain ⟨L₁, hstep, hw₁, hkeeps₁⟩ := w.step hfits.1
    obtain ⟨L₂, hrun, hw₂, hkeeps₂⟩ := ih hw₁ (by rw [hkeeps₁.occupied]; exact hfits.2)
    rw [hkeeps₁.occupied] at hrun hw₂ hkeeps₂
    exact ⟨L₂, by simp only [Loom.run, hstep, hrun, Move.outcomes], hw₂, hkeeps₁.trans hkeeps₂⟩

/-- A move that faults leaves the pool and all chains as they were. -/
theorem Spells.step_eq_self (w : L.Spells lists) {m : Move n} (hfits : m.Fits lists) {e : Fault}
    (herror : (L.step m).1 = .error e) : (L.step m).2 = L := by
  cases hfault : m.fault? L.occupied lists with
  | none =>
    obtain ⟨L', hrun, -, -⟩ := w.act_run hfits hfault
    rw [Loom.step, hrun] at herror
    cases herror
  | some _ => rw [Loom.step, w.act_fault hfault]

theorem Spells.run_step_eq_self (w : L.Spells lists) {earlier later : List (Move n)} {m : Move n}
    (hfits : Move.FitsAll L.occupied lists (earlier ++ m :: later)) {e : Fault}
    (herror : ((L.run earlier).2.step m).1 = .error e) :
    ((L.run earlier).2.step m).2 = (L.run earlier).2 := by
  obtain ⟨hearlier, hm, -⟩ := (Move.fitsAll_append ..).1 hfits
  obtain ⟨L', hrun, hw, -⟩ := w.run hearlier
  rw [hrun] at herror ⊢
  exact hw.step_eq_self hm herror

end Loom

/-- Whatever a chain is read for, it answers as a list of slots would. -/
structure Reads (c : Chain f) (p : Pool α capacity) (s : List Nat) : Prop where
  toList : c.toList p = .ok s
  toReverseList : c.toReverseList p = .ok s.reverse
  ends : ∀ sides, c.cursor.calls p sides = .ok (Cursor.Side.calls sides s)
  length : c.length = s.length
  isEmpty : c.isEmpty = s.isEmpty
  first? : c.first? = s.head?
  last? : c.last? = s.getLast?
  contains : ∀ i, c.contains p i = .ok (s.contains i)
  next? : ∀ l i r, s = l ++ i :: r → c.next? p i = .ok r.head?

/-- What must not be done to a chain faults and has changed neither the chain nor the pool; `on` are
the entries that are on some chain. -/
structure Guards (c : Chain f) (p : Pool α capacity) (on : Nat → Prop) : Prop where
  vacant : ∀ i, p.at? i = none →
    c.pushFront p i = .error ⟨.vacantSlot i, (c, p)⟩ ∧
      c.pushBack p i = .error ⟨.vacantSlot i, (c, p)⟩ ∧
      c.remove p i = .error ⟨.vacantSlot i, (c, p)⟩ ∧ c.next? p i = .error (.vacantSlot i)
  linked : ∀ i, (p.at? i).isSome → on i →
    c.pushFront p i = .error ⟨.alreadyLinked i, (c, p)⟩ ∧
      c.pushBack p i = .error ⟨.alreadyLinked i, (c, p)⟩
  loose : ∀ i, (p.at? i).isSome → ¬ on i → c.remove p i = .error ⟨.notLinked i, (c, p)⟩

theorem Spells.reads {c : Chain f} {p : Pool α capacity} {s : List Nat} (h : c.Spells p s) :
    c.Reads p s where
  toList := h.toList
  toReverseList := h.toReverseList
  ends := h.stands.calls
  length := h.length
  isEmpty := h.isEmpty_iff
  first? := h.first?
  last? := h.last?
  contains := h.contains
  next? _ _ _ hs := Spells.next? (hs ▸ h)

namespace Loom

theorem spells_of_loose {p : Pool α capacity}
    (hloose : p.slots.toList.all fun s => s.entry.all fun x => f.get x == .loose) :
    (⟨p, fun _ => .empty⟩ : Loom f capacity n).Spells fun _ => [] := by
  refine ⟨fun _ => empty_spells p, fun _ _ _ hi => by simp at hi, fun i x hx _ => ?_⟩
  obtain ⟨s, hs, hx⟩ := Option.bind_eq_some_iff.1 hx
  have hall := List.all_eq_true.1 hloose s (Array.mem_toList_iff.2 (Array.mem_of_getElem? hs))
  simpa [hx] using hall

theorem Spells.guards {L : Loom f capacity n} {lists : Fin n → List Nat} (w : L.Spells lists)
    (c : Chain f) : c.Guards L.pool fun i => ∃ a, i ∈ lists a where
  vacant i hi := by
    refine ⟨insertBetween_vacant hi, insertBetween_vacant hi, remove_vacant hi, ?_⟩
    simp [Chain.next?, Pool.item, hi, bind, Except.bind]
  linked i hi hon := by
    obtain ⟨x, hx⟩ := Option.isSome_iff_exists.1 hi
    have hlinked := (w.isLinked hx).2 hon
    exact ⟨insertBetween_linked hx hlinked, insertBetween_linked hx hlinked⟩
  loose i hi hoff := by
    obtain ⟨x, hx⟩ := Option.isSome_iff_exists.1 hi
    exact remove_loose hx (Bool.eq_false_iff.2 fun hlinked => hoff ((w.isLinked hx).1 hlinked))

/-- Chains that spell lists without a common slot are like these lists: one move after the other
answers what it would of the lists, or faults where they say so and has changed nothing then. The
chains spell what becomes of the lists and read like them, and an entry that is on none of them is
loose. Misuse of any of them is a fault again. Nothing else of the pool changes, nor does a chain
that no move was about. -/
theorem run_as_lists (L : Loom f capacity n) (lists : Fin n → List Nat) (moves : List (Move n))
    (hspells : L.Spells lists) (hfits : Move.FitsAll L.occupied lists moves) :
    ∃ L' lists', L.run moves = ((Move.outcomes L.occupied lists moves).1, L') ∧
      lists' = (Move.outcomes L.occupied lists moves).2 ∧
      L'.Spells lists' ∧
      (∀ a, (L'.chains a).Reads L'.pool (lists' a)) ∧
      (∀ i x, L'.pool.at? i = some x → ((f.get x).isLinked = true ↔ ∃ a, i ∈ lists' a)) ∧
      (∀ a, (L'.chains a).Guards L'.pool fun i => ∃ b, i ∈ lists' b) ∧
      (∀ earlier m later e, moves = earlier ++ m :: later →
        ((L.run earlier).2.step m).1 = .error e →
        ((L.run earlier).2.step m).2 = (L.run earlier).2) ∧
      L'.pool.view f.bare = L.pool.view f.bare ∧
      (∀ g : LinkField α, f.Independent g → L'.pool.view g.get = L.pool.view g.get) ∧
      ∀ a, (∀ m ∈ moves, a ∉ m.chains) →
        L'.chains a = L.chains a ∧ lists' a = lists a ∧
          ∀ i ∈ lists a, L'.pool.at? i = L.pool.at? i := by
  obtain ⟨L', hrun, hw, hkeeps⟩ := hspells.run hfits
  refine ⟨L', _, hrun, rfl, hw, fun a => (hw.spells a).reads, fun i x => hw.isLinked,
    fun a => hw.guards _, ?_, hkeeps.view, fun g hg => ?_, fun a ha => hkeeps.others a ?_⟩
  · rintro earlier m later e rfl
    exact hspells.run_step_eq_self hfits
  · have hbare : ∀ x, g.get (f.bare x) = g.get x := fun x => hg.right x .loose
    simpa only [hbare] using Pool.view_eq_comp hkeeps.view g.get
  · rw [List.mem_flatMap]
    intro hgiven
    rcases hgiven with ⟨m, hm, ham⟩
    exact ha m hm ham

/-- Three presences that are on channels but on the chain of no device, and a vacant slot. -/
def sample : Loom Presence.byDevice 4 2 where
  pool := ⟨#[⟨0, some ⟨7, 1, .loose, ⟨.head, .entry 1⟩⟩⟩,
    ⟨0, some ⟨8, 1, .loose, ⟨.entry 0, .head⟩⟩⟩, ⟨3, none⟩,
    ⟨0, some ⟨7, 0, .loose, .closed⟩⟩], [2], 3⟩
  chains _ := .empty

def sampleMoves : List (Move 2) :=
  [.pushBack 0 0, .pushFront 0 1, .pushBack 1 3, .prepend 0 1, .popFront 0, .remove 0 0,
    .remove 0 0, .pushFront 1 1, .pushBack 1 2, .append 1 0]

theorem run_sample :
    sample.Spells (fun _ => []) ∧ Move.FitsAll sample.occupied (fun _ => []) sampleMoves ∧
      ∃ L', sample.run sampleMoves =
          ([.ok none, .ok none, .ok none, .ok none, .ok (some 3), .ok none, .error (.notLinked 0),
            .error (.alreadyLinked 1), .error (.vacantSlot 2), .ok none], L') ∧
        (L'.chains 0).Reads L'.pool [] ∧ (L'.chains 1).Reads L'.pool [1] ∧
        ((sample.run (sampleMoves.take 7)).2.step (.pushFront 1 1)).2 =
          (sample.run (sampleMoves.take 7)).2 ∧
        L'.pool.view Presence.byChannel.get = sample.pool.view Presence.byChannel.get := by
  have hspells : sample.Spells fun _ => [] := spells_of_loose (by decide)
  have hfits : Move.FitsAll sample.occupied (fun _ => []) sampleMoves := by decide
  obtain ⟨L', lists', hrun, rfl, -, hreads, -, -, hfaults, -, hlinks, -⟩ :=
    run_as_lists sample _ sampleMoves hspells hfits
  exact ⟨hspells, hfits, L', hrun, hreads 0, hreads 1,
    hfaults (sampleMoves.take 7) (.pushFront 1 1) (sampleMoves.drop 8) (.alreadyLinked 1) rfl rfl,
    hlinks _ Presence.byDevice_independent⟩

end Loom

end AirSurvey.Chain

import AirSurvey.Fault

set_option autoImplicit false

/-!
A pool holds up to `capacity` entries in numbered slots. A handle pairs a slot with the slot's
generation when the entry was put there; every release moves the generation on, so a handle kept
past its entry's release finds nothing instead of the slot's next entry.
-/

namespace AirSurvey

/-- A slot number with the generation that the slot had when the handle was given out. Slot numbers
have 16 bits; a `Nat` is as good as long as a pool has at most 65536 slots. -/
structure Handle where
  index : Nat
  generation : UInt32
  deriving DecidableEq, Repr

structure Slot (α : Type) where
  generation : UInt32
  entry : Option α

def Slot.fresh {α : Type} : Slot α := ⟨0, none⟩

def Slot.vacate {α : Type} (s : Slot α) : Slot α := ⟨s.generation + 1, none⟩

structure Pool (α : Type) (capacity : Nat) where
  slots : Array (Slot α)
  /-- Released slots, the next one to be used first. They never are more than `capacity`. -/
  free : List Nat
  /-- Number of entries. -/
  size : Nat

namespace Pool

variable {α : Type} {capacity : Nat}

def empty : Pool α capacity := ⟨#[], [], 0⟩

def isEmpty (p : Pool α capacity) : Bool := p.size == 0

def isFull (p : Pool α capacity) : Bool := p.size == capacity

def at? (p : Pool α capacity) (i : Nat) : Option α := p.slots[i]?.bind Slot.entry

def handleAt? (p : Pool α capacity) (i : Nat) : Option Handle :=
  p.slots[i]?.bind fun s => s.entry.map fun _ => ⟨i, s.generation⟩

def get? (p : Pool α capacity) (h : Handle) : Option α :=
  p.slots[h.index]?.bind fun s => if s.generation = h.generation then s.entry else none

def modifyAt (p : Pool α capacity) (i : Nat) (f : α → α) : Pool α capacity :=
  { p with slots := p.slots.modify i fun s => { s with entry := s.entry.map f } }

/-- Changes the entry that a handle names; a stale handle changes nothing. -/
def modify (p : Pool α capacity) (h : Handle) (f : α → α) : Pool α capacity :=
  match p.get? h with
  | some _ => p.modifyAt h.index f
  | none => p

def occupy (p : Pool α capacity) (i : Nat) (build : Handle → α) : Handle × Pool α capacity :=
  let h : Handle := ⟨i, (p.slots[i]?.getD .fresh).generation⟩
  (h, { p with
    slots := p.slots.modify i fun s => { s with entry := some (build h) }
    size := p.size + 1 })

/-- Inserts at the slot released last, else at the next unused one; `none` when all are taken. -/
def insert? (p : Pool α capacity) (build : Handle → α) : Option (Handle × Pool α capacity) :=
  match p.free with
  | i :: rest => some ({ p with free := rest }.occupy i build)
  | [] =>
    if p.slots.size < capacity then
      some ({ p with slots := p.slots.push .fresh }.occupy p.slots.size build)
    else none

def release (p : Pool α capacity) (i : Nat) : Pool α capacity :=
  match p.at? i with
  | some _ => ⟨p.slots.modify i Slot.vacate, i :: p.free, p.size - 1⟩
  | none => p

def remove? (p : Pool α capacity) (h : Handle) : Option (α × Pool α capacity) :=
  (p.get? h).map fun x => (x, p.release h.index)

def entries (p : Pool α capacity) : List (Handle × α) :=
  p.slots.toList.zipIdx.filterMap fun (s, i) => s.entry.map fun x => (⟨i, s.generation⟩, x)

/-- Releases every entry; the highest slot is then the next to be used. -/
def clear (p : Pool α capacity) : Pool α capacity where
  slots := p.slots.map fun s => if s.entry.isSome then s.vacate else s
  free := (p.entries.map fun e => e.1.index).reverse ++ p.free
  size := 0

def item (p : Pool α capacity) (i : Nat) : Except Fault α :=
  match p.at? i with
  | some x => .ok x
  | none => .error (.vacantSlot i)

def modifyItem (p : Pool α capacity) (i : Nat) (f : α → α) : Except Fault (Pool α capacity) :=
  match p.at? i with
  | some _ => .ok (p.modifyAt i f)
  | none => .error (.vacantSlot i)

theorem at?_modifyAt (p : Pool α capacity) (i j : Nat) (f : α → α) :
    (p.modifyAt i f).at? j = if i = j then (p.at? j).map f else p.at? j := by
  unfold at? modifyAt
  rw [Array.getElem?_modify]
  split <;> cases p.slots[j]? <;> rfl

theorem handleAt?_modifyAt (p : Pool α capacity) (i j : Nat) (f : α → α) :
    (p.modifyAt i f).handleAt? j = p.handleAt? j := by
  unfold handleAt? modifyAt
  rw [Array.getElem?_modify]
  split
  · cases hs : p.slots[j]? with
    | none => rfl
    | some s => obtain ⟨g, _ | x⟩ := s <;> rfl
  · rfl

theorem get?_eq_some_iff (p : Pool α capacity) (h : Handle) (x : α) :
    p.get? h = some x ↔ p.handleAt? h.index = some h ∧ p.at? h.index = some x := by
  unfold get? handleAt? at?
  cases p.slots[h.index]? with
  | none => simp
  | some s =>
    obtain ⟨g, e⟩ := s
    obtain ⟨i, k⟩ := h
    cases e <;> simp [Handle.mk.injEq]

theorem get?_modifyAt (p : Pool α capacity) (i : Nat) (f : α → α) (h : Handle) :
    (p.modifyAt i f).get? h = if i = h.index then (p.get? h).map f else p.get? h := by
  unfold get? modifyAt
  rw [Array.getElem?_modify]
  split
  · cases p.slots[h.index]? with
    | none => rfl
    | some s => by_cases hg : s.generation = h.generation <;> simp [hg]
  · rfl

theorem at?_release (p : Pool α capacity) (i j : Nat) :
    (p.release i).at? j = if i = j then none else p.at? j := by
  unfold release
  cases hi : p.at? i with
  | none =>
    by_cases h : i = j
    · rw [if_pos h, ← h]
      exact hi
    · rw [if_neg h]
  | some _ =>
    simp only [at?]
    rw [Array.getElem?_modify]
    split <;> cases p.slots[j]? <;> rfl

end Pool

end AirSurvey

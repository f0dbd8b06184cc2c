set_option autoImplicit false

/-!
Links that entries of a pool carry so that chains can be threaded through them, and the fields of
an entry that hold them. An entry with two link fields can be on two chains at once.
-/

namespace AirSurvey

/-- Where a link can point: nowhere, at the head of its chain, or at a slot of the pool. -/
inductive Position where
  | unlinked
  | head
  | entry (slot : Nat)
  deriving DecidableEq, Repr

def Position.slot? : Position → Option Nat
  | .entry i => some i
  | _ => none

def Position.text : Position → String
  | .unlinked => "Unlinked"
  | .head => "Head"
  | .entry i => s!"Entry({i})"

structure Link where
  prev : Position
  next : Position
  deriving DecidableEq, Repr

def Link.loose : Link := ⟨.unlinked, .unlinked⟩

def Link.closed : Link := ⟨.head, .head⟩

def Link.isLinked (l : Link) : Bool := l.next != .unlinked

/-- A field of `α` that holds a link: what is written there is read back, and nothing else of the
entry can be told from the field. -/
structure LinkField (α : Type) where
  get : α → Link
  set : α → Link → α
  get_set : ∀ x l, get (set x l) = l
  set_get : ∀ x, set x (get x) = x
  set_set : ∀ x l m, set (set x l) m = set x m

namespace LinkField

variable {α : Type}

def setPrev (f : LinkField α) (x : α) (target : Position) : α :=
  f.set x { f.get x with prev := target }

def setNext (f : LinkField α) (x : α) (target : Position) : α :=
  f.set x { f.get x with next := target }

@[simp] theorem get_setPrev (f : LinkField α) (x : α) (target : Position) :
    f.get (f.setPrev x target) = { f.get x with prev := target } := f.get_set ..

@[simp] theorem get_setNext (f : LinkField α) (x : α) (target : Position) :
    f.get (f.setNext x target) = { f.get x with next := target } := f.get_set ..

structure Independent (f g : LinkField α) : Prop where
  left : ∀ x l, f.get (g.set x l) = f.get x
  right : ∀ x l, g.get (f.set x l) = g.get x

end LinkField

end AirSurvey

import AirSurvey.Chain.Basic

set_option autoImplicit false

/-!
Reading a chain. A cursor steps from both ends and stops when as many entries have been met as the
chain counts, so the two ends never pass each other.
-/

namespace AirSurvey

namespace Chain

variable {α : Type} {capacity : Nat} {f : LinkField α}

/-- The two ends of the part of a chain that is still to be read. -/
structure Cursor {α : Type} (f : LinkField α) where
  front : Position
  back : Position
  remaining : Nat

def cursor (c : Chain f) : Cursor f := ⟨c.head.next, c.head.prev, c.length⟩

namespace Cursor

def next? (k : Cursor f) (p : Pool α capacity) : Except Fault (Option (Nat × Cursor f)) :=
  match k.remaining, k.front with
  | left + 1, .entry i => do
    let x ← p.item i
    return some (i, { k with front := (f.get x).next, remaining := left })
  | _, _ => .ok none

def nextBack? (k : Cursor f) (p : Pool α capacity) : Except Fault (Option (Nat × Cursor f)) :=
  match k.remaining, k.back with
  | left + 1, .entry i => do
    let x ← p.item i
    return some (i, { k with back := (f.get x).prev, remaining := left })
  | _, _ => .ok none

def sizeHint (k : Cursor f) : Nat × Option Nat := (k.remaining, some k.remaining)

end Cursor

/-- At most `count` entries from a position on, following forward links. -/
def forwardFrom (f : LinkField α) (p : Pool α capacity) : Nat → Position → Except Fault (List Nat)
  | left + 1, .entry i => do
    let x ← p.item i
    return i :: (← forwardFrom f p left (f.get x).next)
  | _, _ => .ok []

def backwardFrom (f : LinkField α) (p : Pool α capacity) : Nat → Position → Except Fault (List Nat)
  | left + 1, .entry i => do
    let x ← p.item i
    return i :: (← backwardFrom f p left (f.get x).prev)
  | _, _ => .ok []

def toList (c : Chain f) (p : Pool α capacity) : Except Fault (List Nat) :=
  forwardFrom f p c.length c.head.next

def toReverseList (c : Chain f) (p : Pool α capacity) : Except Fault (List Nat) :=
  backwardFrom f p c.length c.head.prev

def items (c : Chain f) (p : Pool α capacity) : Except Fault (List α) := do
  (← c.toList p).mapM p.item

def contains (c : Chain f) (p : Pool α capacity) (i : Nat) : Except Fault Bool := do
  return (← c.toList p).contains i

/-- Walks from slot `i` on and takes off the entries that `drop` picks; each successor is read
before its predecessor goes. Answers the slots met, in order. -/
def removeFrom (drop : Nat → Bool) :
    Nat → Chain f → Pool α capacity → Option Nat →
      Except (Halt (Chain f × Pool α capacity)) (List Nat × Chain f × Pool α capacity)
  | _, c, p, none => .ok ([], c, p)
  | 0, c, p, some _ => .error ⟨.endlessWalk, (c, p)⟩
  | fuel + 1, c, p, some i => do
    let next ← orHalt (c, p) (c.next? p i)
    let (c, p) ← if drop i then c.remove p i else pure (c, p)
    let (met, rest) ← removeFrom drop fuel c p next
    return (i :: met, rest)

def removeWhere (c : Chain f) (p : Pool α capacity) (drop : Nat → Bool) :
    Except (Halt (Chain f × Pool α capacity)) (List Nat × Chain f × Pool α capacity) :=
  removeFrom drop p.slots.size c p c.first?

end Chain

end AirSurvey

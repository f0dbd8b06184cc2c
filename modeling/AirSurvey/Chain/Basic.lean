import AirSurvey.Chain.Link
import AirSurvey.Pool

set_option autoImplicit false

/-!
A chain orders entries of a pool without owning them: a head link, a count, and a link in every
entry, all naming neighbours by slot. Joining, leaving and splicing rewire neighbours only, so each
costs the same however long the chain is. The operations take the pool and give it back. Those that
write answer a fault with the chain and the pool as they have become.
-/

namespace AirSurvey

structure Chain {α : Type} (f : LinkField α) where
  head : Link
  length : Nat
  deriving DecidableEq

namespace Chain

variable {α : Type} {capacity : Nat} {f : LinkField α}

/-- What rewires a chain comes to the chain and its pool, or halts with both. -/
abbrev Rewiring (f : LinkField α) (capacity : Nat) : Type :=
  Except (Halt (Chain f × Pool α capacity)) (Chain f × Pool α capacity)

def empty : Chain f := ⟨.closed, 0⟩

def isEmpty (c : Chain f) : Bool := c.head.next == .head

def first? (c : Chain f) : Option Nat := c.head.next.slot?

def last? (c : Chain f) : Option Nat := c.head.prev.slot?

def next? (_ : Chain f) (p : Pool α capacity) (i : Nat) : Except Fault (Option Nat) := do
  let x ← p.item i
  return (f.get x).next.slot?

def setNext (c : Chain f) (p : Pool α capacity) (place target : Position) :
    Rewiring f capacity :=
  match place with
  | .head => .ok ({ c with head.next := target }, p)
  | .entry i => do return (c, ← orHalt (c, p) (p.modifyItem i fun x => f.setNext x target))
  | .unlinked => .error ⟨.looseNeighbour, (c, p)⟩

def setPrev (c : Chain f) (p : Pool α capacity) (place target : Position) :
    Rewiring f capacity :=
  match place with
  | .head => .ok ({ c with head.prev := target }, p)
  | .entry i => do return (c, ← orHalt (c, p) (p.modifyItem i fun x => f.setPrev x target))
  | .unlinked => .error ⟨.looseNeighbour, (c, p)⟩

def insertBetween (c : Chain f) (p : Pool α capacity) (i : Nat) (prev next : Position) :
    Rewiring f capacity := do
  let x ← orHalt (c, p) (p.item i)
  if (f.get x).isLinked then throw ⟨.alreadyLinked i, (c, p)⟩
  let p ← orHalt (c, p) (p.modifyItem i fun x => f.set x ⟨prev, next⟩)
  let (c, p) ← c.setNext p prev (.entry i)
  let (c, p) ← c.setPrev p next (.entry i)
  return ({ c with length := c.length + 1 }, p)

def pushFront (c : Chain f) (p : Pool α capacity) (i : Nat) : Rewiring f capacity :=
  c.insertBetween p i .head c.head.next

def pushBack (c : Chain f) (p : Pool α capacity) (i : Nat) : Rewiring f capacity :=
  c.insertBetween p i c.head.prev .head

def remove (c : Chain f) (p : Pool α capacity) (i : Nat) : Rewiring f capacity := do
  let x ← orHalt (c, p) (p.item i)
  let link := f.get x
  if !link.isLinked then throw ⟨.notLinked i, (c, p)⟩
  let (c, p) ← c.setNext p link.prev link.next
  let (c, p) ← c.setPrev p link.next link.prev
  let p ← orHalt (c, p) (p.modifyItem i fun x => f.set x .loose)
  if c.length = 0 then throw ⟨.countBelowZero, (c, p)⟩
  return ({ c with length := c.length - 1 }, p)

def popFront? (c : Chain f) (p : Pool α capacity) :
    Except (Halt (Chain f × Pool α capacity)) (Option (Nat × Chain f × Pool α capacity)) :=
  match c.first? with
  | none => .ok none
  | some i => do return some (i, ← c.remove p i)

/-- Moves all of `d` behind the entries of `c`; the results are `c`, then `d`, which is empty. -/
def append (c d : Chain f) (p : Pool α capacity) :
    Except (Halt (Chain f × Chain f × Pool α capacity)) (Chain f × Chain f × Pool α capacity) :=
  match d.head.next, d.head.prev with
  | .entry first, .entry last => do
    let tail := c.head.prev
    let (c, p) ← within (fun (c, p) => (c, d, p)) (c.setNext p tail (.entry first))
    let p ← orHalt (c, d, p) (p.modifyItem first fun x => f.setPrev x tail)
    let p ← orHalt (c, d, p) (p.modifyItem last fun x => f.setNext x .head)
    return (⟨{ c.head with prev := .entry last }, c.length + d.length⟩, empty, p)
  | _, _ => .ok (c, d, p)

def prepend (c d : Chain f) (p : Pool α capacity) :
    Except (Halt (Chain f × Chain f × Pool α capacity)) (Chain f × Chain f × Pool α capacity) :=
  match d.head.next, d.head.prev with
  | .entry first, .entry last => do
    let front := c.head.next
    let (c, p) ← within (fun (c, p) => (c, d, p)) (c.setPrev p front (.entry last))
    let p ← orHalt (c, d, p) (p.modifyItem last fun x => f.setNext x front)
    let p ← orHalt (c, d, p) (p.modifyItem first fun x => f.setPrev x .head)
    return (⟨{ c.head with next := .entry first }, c.length + d.length⟩, empty, p)
  | _, _ => .ok (c, d, p)

def text (c : Chain f) : String :=
  "List \x7b first: " ++ c.head.next.text ++ ", last: " ++ c.head.prev.text ++
    ", len: " ++ toString c.length ++ " \x7d"

end Chain

end AirSurvey

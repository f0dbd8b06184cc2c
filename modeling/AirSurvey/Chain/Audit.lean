import AirSurvey.Chain.Basic

set_option autoImplicit false

/-!
The audit of a chain: one walk along the forward links that compares every backward link with the
entry it came from, and ends after at most one entry more than the chain counts.
-/

namespace AirSurvey

namespace Chain

variable {α : Type} {capacity : Nat} {f : LinkField α}

/-- Walks on from `pos`, which was reached from `prev`, with `left` entries still allowed. Answers
the last position met before the walk leaves the entries, where it ends, and what is left. -/
def auditFrom (f : LinkField α) (p : Pool α capacity) (left : Nat) (prev pos : Position) :
    Except Fault (Position × Position × Nat) :=
  match pos with
  | .entry i => do
    let x ← p.item i
    if (f.get x).prev != prev then throw (.defect (.backLink i))
    match left with
    | 0 => throw (.defect .chainTooLong)
    | left + 1 => auditFrom f p left pos (f.get x).next
  | _ => .ok (prev, pos, left)

/-- Succeeds exactly for a chain that closes on its head, counts its entries right, and whose
backward links undo its forward ones. -/
def audit (c : Chain f) (p : Pool α capacity) : Except Fault Unit := do
  let (last, stop, left) ← auditFrom f p c.length .head c.head.next
  if stop != .head then throw (.defect .chainOpen)
  if c.head.prev != last then throw (.defect .headBackLink)
  if left != 0 then throw (.defect .chainLength)

end Chain

end AirSurvey

import AirSurvey.Event
import AirSurvey.Fault
import AirSurvey.Refusal

set_option autoImplicit false

/-!
Actions change a state, write log records, and may be refused on the way. A refusal ends an action
but does not undo it: the state and the records it had reached stay. So does a fault, which is no
answer but the end of the run.
-/

namespace AirSurvey

structure Outcome (σ α : Type) where
  state : σ
  events : List Event
  answer : Except Refusal α

/-- A fault in an action, with the state and the records that it had reached. -/
structure Breakdown (σ : Type) extends Halt σ where
  events : List Event

def Action (σ α : Type) : Type := σ → Except (Breakdown σ) (Outcome σ α)

namespace Action

variable {σ τ α β : Type}

def run (a : Action σ α) (s : σ) : Except (Breakdown σ) (Outcome σ α) := a s

protected def pure (x : α) : Action σ α := fun s => .ok ⟨s, [], .ok x⟩

/-- The second action starts where the first ends, unless the first was refused. -/
protected def bind (a : Action σ α) (k : α → Action σ β) : Action σ β := fun s =>
  match a s with
  | .error breakdown => .error breakdown
  | .ok ⟨t, events, .error refusal⟩ => .ok ⟨t, events, .error refusal⟩
  | .ok ⟨t, events, .ok x⟩ =>
    match k x t with
    | .error breakdown => .error { breakdown with events := events ++ breakdown.events }
    | .ok o => .ok { o with events := events ++ o.events }

instance : Monad (Action σ) where
  pure := Action.pure
  bind := Action.bind

def read : Action σ σ := fun s => .ok ⟨s, [], .ok s⟩

def write (s : σ) : Action σ Unit := fun _ => .ok ⟨s, [], .ok ()⟩

def record (e : Event) : Action σ Unit := fun s => .ok ⟨s, [e], .ok ()⟩

def refuse (r : Refusal) : Action σ α := fun s => .ok ⟨s, [], .error r⟩

def attempt (x : Except Fault α) : Action σ α := fun s =>
  match x with
  | .error fault => .error ⟨⟨fault, s⟩, []⟩
  | .ok a => .ok ⟨s, [], .ok a⟩

instance : MonadLift (Except Fault) (Action σ) := ⟨attempt⟩

/-- Writes what a change to a part of the state comes to, also if it comes to a fault. -/
def settle (whole : τ → σ) (x : Except (Halt τ) τ) : Action σ τ := fun _ =>
  match x with
  | .error h => .error ⟨h.map whole, []⟩
  | .ok t => .ok ⟨whole t, [], .ok t⟩

def within (part : σ → τ) (restore : σ → τ → σ) (a : Action τ α) : Action σ α := fun s =>
  match a (part s) with
  | .error b => .error ⟨b.toHalt.map (restore s), b.events⟩
  | .ok o => .ok ⟨restore s o.state, o.events, o.answer⟩

def require (check : Except Refusal α) : Action σ α := fun s => .ok ⟨s, [], check⟩

instance : LawfulMonad (Action σ) := LawfulMonad.mk' (Action σ)
  (by
    intro α x
    funext s
    change Action.bind x Action.pure s = x s
    unfold Action.bind
    cases x s with
    | error => rfl
    | ok o => obtain ⟨t, events, _ | a⟩ := o <;> simp [Action.pure])
  (by
    intro α β x k
    funext s
    change Action.bind (Action.pure x) k s = k x s
    unfold Action.bind Action.pure
    cases hk : k x s <;> simp [hk])
  (by
    intro α β γ x k l
    funext s
    change Action.bind (Action.bind x k) l s = Action.bind x (fun a => Action.bind (k a) l) s
    unfold Action.bind
    cases x s with
    | error => rfl
    | ok o =>
      obtain ⟨t, events, _ | a⟩ := o
      · rfl
      · cases hk : k a t with
        | error => simp [hk]
        | ok o =>
          obtain ⟨u, more, _ | b⟩ := o
          · simp [hk]
          · cases hl : l b u <;> simp [hk, hl])

end Action

end AirSurvey

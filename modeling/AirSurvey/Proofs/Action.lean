import AirSurvey.Action

set_option autoImplicit false

/-!
Running actions step by step: what a run of each kind of step is, and how runs go on from one
another. Before that, what becomes of a list when something that may fault is done to each item.
-/

namespace AirSurvey

section mapM

variable {ε α β : Type} {g : α → Except ε β} {l : List α}

theorem mapM_eq_filterMap {k : α → Option β} (h : ∀ x ∈ l, ∃ y, k x = some y ∧ g x = .ok y) :
    l.mapM g = .ok (l.filterMap k) := by
  induction l with
  | nil => rfl
  | cons x l ih =>
    rw [List.forall_mem_cons] at h
    obtain ⟨⟨y, hk, hg⟩, hl⟩ := h
    rw [List.mapM_cons, hg, ih hl, List.filterMap_cons_some hk]
    rfl

theorem mapM_eq_ok {k : α → β} (h : ∀ x ∈ l, g x = .ok (k x)) : l.mapM g = .ok (l.map k) := by
  rw [← List.filterMap_eq_map]
  exact mapM_eq_filterMap fun x hx => ⟨k x, rfl, h x hx⟩

theorem exists_mapM_eq_ok (h : ∀ x ∈ l, ∃ y, g x = .ok y) :
    ∃ ys, l.mapM g = .ok ys ∧ ys.length = l.length := by
  refine ⟨_, mapM_eq_filterMap (k := fun x => (g x).toOption) fun x hx => ?_,
    List.filterMap_length_eq_length.2 fun x hx => ?_⟩ <;> obtain ⟨y, hy⟩ := h x hx
  · exact ⟨y, by rw [hy]; rfl, hy⟩
  · rw [hy]
    rfl

end mapM

namespace Action

variable {σ τ α β : Type}

/-- What a run comes to, with the records of what came before it. -/
def following (events : List Event) :
    Except (Breakdown σ) (Outcome σ α) → Except (Breakdown σ) (Outcome σ α)
  | .error b => .error { b with events := events ++ b.events }
  | .ok o => .ok { o with events := events ++ o.events }

@[simp] theorem following_ok (events : List Event) (o : Outcome σ α) :
    following events (.ok o) = .ok { o with events := events ++ o.events } := rfl

theorem following_nil (x : Except (Breakdown σ) (Outcome σ α)) : following [] x = x := by
  cases x <;> rfl

theorem run_bind (a : Action σ α) (k : α → Action σ β) (s : σ) :
    (a >>= k).run s =
      match a.run s with
      | .error breakdown => .error breakdown
      | .ok ⟨t, events, .error refusal⟩ => .ok ⟨t, events, .error refusal⟩
      | .ok ⟨t, events, .ok x⟩ => following events ((k x).run t) := by
  change Action.bind a k s = _
  unfold Action.bind run
  cases a s with
  | error => rfl
  | ok o =>
    obtain ⟨t, events, _ | x⟩ := o
    · rfl
    · dsimp only
      cases k x t <;> simp only [following]

theorem run_bind_of_ok {a : Action σ α} {s t : σ} {events : List Event} {x : α}
    (h : a.run s = .ok ⟨t, events, .ok x⟩) (k : α → Action σ β) :
    (a >>= k).run s = following events ((k x).run t) := by
  rw [run_bind, h]

theorem run_bind_of_refused {a : Action σ α} {s t : σ} {events : List Event} {r : Refusal}
    (h : a.run s = .ok ⟨t, events, .error r⟩) (k : α → Action σ β) :
    (a >>= k).run s = .ok ⟨t, events, .error r⟩ := by
  rw [run_bind, h]

@[simp] theorem map_ok {ε : Type} (g : α → β) (x : α) :
    (Except.ok x : Except ε α).map g = .ok (g x) := rfl

theorem exists_of_map_eq_ok {ε : Type} {g : α → β} {x : Except ε α} {b : β}
    (h : x.map g = .ok b) : ∃ a, x = .ok a ∧ g a = b := by
  cases x with
  | error e => cases h
  | ok a => exact ⟨a, rfl, Except.ok.inj h⟩

@[simp] theorem toOption_ok {ε : Type} (x : α) : (Except.ok x : Except ε α).toOption = some x := rfl

theorem exists_of_toOption_eq_some {ε : Type} {g : α → β} {x : Except ε α} {b : β}
    (h : x.toOption.map g = some b) : ∃ a, x = .ok a ∧ g a = b := by
  cases x with
  | error e => cases h
  | ok a => exact ⟨a, rfl, Option.some.inj h⟩

@[simp] theorem run_pure (x : α) (s : σ) : (pure x : Action σ α).run s = .ok ⟨s, [], .ok x⟩ := rfl

@[simp] theorem run_read (s : σ) : (read : Action σ σ).run s = .ok ⟨s, [], .ok s⟩ := rfl

@[simp] theorem run_write (s t : σ) : (write t).run s = .ok ⟨t, [], .ok ()⟩ := rfl

@[simp] theorem run_record (e : Event) (s : σ) : (record e).run s = .ok ⟨s, [e], .ok ()⟩ := rfl

@[simp] theorem run_refuse (r : Refusal) (s : σ) :
    (refuse r : Action σ α).run s = .ok ⟨s, [], .error r⟩ := rfl

@[simp] theorem run_require (check : Except Refusal α) (s : σ) :
    (require check).run s = .ok ⟨s, [], check⟩ := rfl

@[simp] theorem run_attempt_ok (x : α) (s : σ) :
    (attempt (.ok x)).run s = .ok ⟨s, [], .ok x⟩ := rfl

@[simp] theorem run_settle_ok (whole : τ → σ) (t : τ) (s : σ) :
    (settle whole (.ok t)).run s = .ok ⟨whole t, [], .ok t⟩ := rfl

theorem run_within_of_ok {part : σ → τ} {a : Action τ α} {s : σ} {o : Outcome τ α}
    (h : a.run (part s) = .ok o) (restore : σ → τ → σ) :
    (a.within part restore).run s = .ok ⟨restore s o.state, o.events, o.answer⟩ := by
  change Action.within part restore a s = _
  rw [Action.within, show a (part s) = .ok o from h]

@[simp] theorem run_map (g : α → β) (a : Action σ α) (s : σ) :
    (g <$> a).run s = (a.run s).map fun o => ⟨o.state, o.events, o.answer.map g⟩ := by
  rw [← bind_pure_comp, run_bind]
  cases a.run s with
  | error => rfl
  | ok o => obtain ⟨t, events, _ | x⟩ := o <;> simp [Except.map]

@[simp] theorem run_read_bind (k : σ → Action σ β) (s : σ) :
    (read >>= k).run s = (k s).run s := by
  rw [run_bind_of_ok (run_read s), following_nil]

@[simp] theorem run_write_bind (t : σ) (k : Unit → Action σ β) (s : σ) :
    (write t >>= k).run s = (k ()).run t := by
  rw [run_bind_of_ok (run_write s t), following_nil]

@[simp] theorem run_record_bind (e : Event) (k : Unit → Action σ β) (s : σ) :
    (record e >>= k).run s = following [e] ((k ()).run s) :=
  run_bind_of_ok (run_record e s) k

@[simp] theorem run_attempt_ok_bind (x : α) (k : α → Action σ β) (s : σ) :
    (attempt (.ok x) >>= k).run s = (k x).run s := by
  rw [run_bind_of_ok (run_attempt_ok x s), following_nil]

@[simp] theorem run_settle_ok_bind (whole : τ → σ) (t : τ) (k : τ → Action σ β) (s : σ) :
    (settle whole (.ok t) >>= k).run s = (k t).run (whole t) := by
  rw [run_bind_of_ok (run_settle_ok whole t s), following_nil]

@[simp] theorem lift_eq_attempt (x : Except Fault α) :
    (liftM x : Action σ α) = attempt x := rfl

end Action

end AirSurvey

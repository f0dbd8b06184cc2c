import AirSurvey.Proofs.Survey.Runs

set_option autoImplicit false

/-!
Which devices come and go, as the records tell it. A device comes when a frame reaches it that found
none, and goes when a sweep evicts it; nothing else is recorded as either.
-/

namespace AirSurvey

def Event.newcomer? : Event → Option MacAddress
  | .newDevice m _ => some m
  | _ => none

def Event.leaver? : Event → Option MacAddress
  | .evicted m _ => some m
  | _ => none

def newcomers (events : List Event) : List MacAddress := events.filterMap Event.newcomer?

def leavers (events : List Event) : List MacAddress := events.filterMap Event.leaver?

/-- No record of a device that comes or goes. -/
def Quiet (events : List Event) : Prop := newcomers events = [] ∧ leavers events = []

@[simp] theorem newcomers_append (events more : List Event) :
    newcomers (events ++ more) = newcomers events ++ newcomers more := by
  simp [newcomers]

@[simp] theorem leavers_append (events more : List Event) :
    leavers (events ++ more) = leavers events ++ leavers more := by
  simp [leavers]

namespace Quiet

variable {events more : List Event}

theorem nil : Quiet [] := ⟨rfl, rfl⟩

theorem append (h : Quiet events) (h' : Quiet more) : Quiet (events ++ more) := by
  simp [Quiet, h.1, h.2, h'.1, h'.2]

theorem of_forall (h : ∀ e ∈ events, e.newcomer? = none ∧ e.leaver? = none) : Quiet events :=
  ⟨List.filterMap_eq_nil_iff.2 fun e he => (h e he).1,
    List.filterMap_eq_nil_iff.2 fun e he => (h e he).2⟩

theorem entryNews (t : NetworkTable) (name : String) : Quiet (t.entryNews name) := by
  unfold NetworkTable.entryNews
  split
  · exact nil
  · exact ⟨rfl, rfl⟩

theorem splitNews (t : NetworkTable) (h : Handle) (isSplit : Bool) :
    Quiet (t.splitNews h isSplit) := by
  refine of_forall fun e he => ?_
  obtain ⟨n, -, rfl⟩ := List.mem_map.1 he
  exact ⟨rfl, rfl⟩

theorem departures (t : NetworkTable) (current : Option Handle) (isSplit : Handle → Bool) :
    Quiet (current.toList.flatMap fun old => t.splitNews old (isSplit old)) := by
  cases current with
  | none => exact nil
  | some old => simpa using splitNews t old (isSplit old)

theorem placeNews (t : ChannelTable) (channel : UInt8) : Quiet (t.placeNews channel) := by
  unfold ChannelTable.placeNews
  split
  · exact nil
  · exact ⟨rfl, rfl⟩

theorem refusalNews (f : Frame) (r : Refusal) : Quiet (Survey.refusalNews f r) := by
  cases r with
  | full supply => cases supply <;> exact ⟨rfl, rfl⟩
  | _ => exact nil

end Quiet

namespace Survey

variable {s t : Survey} {c c' : Chronicle} {f : Frame} {i : Nat} {d : Device} {events : List Event}

theorem moveNews_quiet (name : String) : Quiet (s.moveNews c i d name) :=
  ((Quiet.entryNews _ name).append (.departures _ _ _)).append ⟨rfl, rfl⟩

theorem Settles.quiet (m : s.Settles c f i d t c' events) : Quiet events := by
  obtain ⟨hname, hchannel, -, hlook⟩ := m
  refine ((?_ : Quiet _).append ?_).append ?_
  · cases hname with
    | stays => exact .nil
    | moves => exact moveNews_quiet _
  · cases hchannel with
    | stays => exact .nil
    | tunes => exact .placeNews _ _
  · cases hlook with
    | outside => exact .nil
    | inside => exact .splitNews _ _ _

theorem evictNews_newcomers : newcomers (s.evictNews c i d) = [] := by
  rw [evictNews, newcomers_append, (Quiet.departures _ _ _).1]
  rfl

theorem evictNews_leavers : leavers (s.evictNews c i d) = [d.address] := by
  rw [evictNews, leavers_append, (Quiet.departures _ _ _).2]
  rfl

theorem Thinned.addressIn_eq {gone : Nat → Bool} {coat : Device → Device}
    (h : Thinned gone coat s t) (hcoat : ∀ d, (coat d).address = d.address) {j : Nat}
    (hj : gone j = false) : addressIn t.devices j = addressIn s.devices j := by
  have hcore := congrArg (Option.map Device.address) (h.core j)
  rw [hj] at hcore
  simpa [addressIn, Function.comp_def, Device.core, hcoat] using hcore

namespace Sweeps

variable {now : Timestamp} {timeout : UInt32} {r : List Nat} {n : Nat}

theorem newcomers_eq (m : Sweeps now timeout r s c t c' events n) : newcomers events = [] := by
  induction m with
  | done => rfl
  | spares _ _ _ ih => exact ih
  | evicts _ _ _ ih => rw [newcomers_append, evictNews_newcomers, ih, List.append_nil]

theorem leavers_eq (m : Sweeps now timeout r s c t c' events n) (hnodup : r.Nodup) :
    leavers events = (r.filter (s.stale now timeout)).filterMap (addressIn s.devices) := by
  induction m with
  | done => rfl
  | spares hd hfresh _ ih =>
    rw [List.filter_cons_of_neg (by simp [stale, hd, hfresh])]
    exact ih (List.nodup_cons.1 hnodup).2
  | @evicts i r d s _ u c _ _ _ hstale step _ ih =>
    obtain ⟨hi, hnodup⟩ := List.nodup_cons.1 hnodup
    have haddress := addressIn_of_at? step.device
    have hrest : (r.filter (s.stale now timeout)).filterMap (addressIn u.devices) =
        (r.filter (s.stale now timeout)).filterMap (addressIn s.devices) := by
      refine List.filterMap_congr fun j hj => step.thinned.addressIn_eq (fun _ => rfl) ?_
      simpa using fun e : j = i => hi (e ▸ (List.mem_filter.1 hj).1)
    rw [leavers_append, evictNews_leavers, ih hnodup, filter_stale step hi, hrest,
      List.filter_cons_of_pos (by simp [stale, step.device, hstale]),
      List.filterMap_cons_some haddress, List.singleton_append]

theorem swept_records (m : Sweeps now timeout r s c t c' events n) :
    newcomers (t.sweptNews events n) = [] ∧
      leavers (t.sweptNews events n) = leavers events := by
  rw [sweptNews]
  split
  · next hn =>
    obtain ⟨-, -, rfl⟩ := m.eq_of_zero hn
    exact ⟨rfl, rfl⟩
  · rw [newcomers_append, leavers_append, m.newcomers_eq]
    exact ⟨rfl, List.append_nil _⟩

end Sweeps

end Survey

end AirSurvey

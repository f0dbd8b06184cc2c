import AirSurvey.SweepTimer
import Mathlib.Data.List.Basic

set_option autoImplicit false

/-!
How often a sweep is due. Whatever the clock reads, two readings that a sweep is due at lie at least
an interval apart, and a reading that lies an interval behind the last of them is one too.
-/

namespace AirSurvey

theorem length_le_of_apart {d a b : Nat} {l : List Timestamp} (hd : 0 < d)
    (hl : l.Pairwise fun r r' => r.toNat + d ≤ r'.toNat)
    (hwindow : ∀ r ∈ l, a ≤ r.toNat ∧ r.toNat ≤ b) : l.length ≤ (b - a) / d + 1 := by
  induction l generalizing a with
  | nil => simp
  | cons r l ih =>
    obtain ⟨hr, hl⟩ := List.pairwise_cons.1 hl
    have hfirst := hwindow r (by simp)
    have hrest : ∀ r' ∈ l, a + d ≤ r'.toNat ∧ r'.toNat ≤ b := by
      intro r' hr'
      have hlater := hr r' hr'
      have hin := hwindow r' (by simp [hr'])
      omega
    cases l with
    | nil => simp
    | cons r' l =>
      -- The second reading leaves room for a whole interval behind the front of the window.
      have hroom := hrest r' (by simp)
      have hwidth : b - a = b - (a + d) + d := by omega
      have hcount := ih hl hrest
      rw [hwidth, Nat.add_div_right _ hd]
      simp only [List.length_cons] at hcount ⊢
      omega

namespace SweepTimer

/-- The readings of a run that a sweep was due at. -/
def firings (t : SweepTimer) (clock : List Timestamp) : List Timestamp :=
  ((clock.zip (t.readings clock)).filter Prod.snd).map Prod.fst

/-- The last sweep that the timer knows of, then those that become due. -/
def sweeps (t : SweepTimer) (clock : List Timestamp) : List Timestamp :=
  t.last.toList ++ t.firings clock

variable {t : SweepTimer} {now : Timestamp} {clock : List Timestamp}

theorem due_cases (t : SweepTimer) (now : Timestamp) (h : 0 < t.interval) :
    (∃ last, t.last = some last ∧ now.toNat < last.toNat + t.interval.toNat ∧
      t.due now = (false, t)) ∨
    ((∀ last, t.last = some last → last.toNat + t.interval.toNat ≤ now.toNat) ∧
      t.due now = (true, { t with last := some now })) := by
  have hpos : 0 < t.interval.toNat := by simpa using UInt32.lt_iff_toNat_lt.1 h
  unfold due
  cases hlast : t.last with
  | none => simp
  | some last =>
    by_cases hclose : elapsed now last < t.interval
    · have hnat := UInt32.lt_iff_toNat_lt.1 hclose
      rw [elapsed_toNat] at hnat
      refine .inl ⟨last, rfl, by omega, by simp [hclose]⟩
    · have hnat := Nat.not_lt.1 fun hlt => hclose (UInt32.lt_iff_toNat_lt.2 hlt)
      rw [elapsed_toNat] at hnat
      refine .inr ⟨?_, by simp [hclose]⟩
      intro last' hlast'
      cases hlast'
      omega

theorem firings_cons_false (h : t.due now = (false, t)) :
    t.firings (now :: clock) = t.firings clock := by
  simp [firings, readings, h]

theorem firings_cons_true {t' : SweepTimer} (h : t.due now = (true, t')) :
    t.firings (now :: clock) = now :: t'.firings clock := by
  simp [firings, readings, h]

theorem length_readings (t : SweepTimer) (clock : List Timestamp) :
    (t.readings clock).length = clock.length := by
  induction clock generalizing t with
  | nil => rfl
  | cons now clock ih => simp [readings, ih]

theorem sweeps_apart (t : SweepTimer) (clock : List Timestamp) (h : 0 < t.interval) :
    (t.sweeps clock).Pairwise fun r r' => r.toNat + t.interval.toNat ≤ r'.toNat := by
  induction clock generalizing t with
  | nil => cases hlast : t.last <;> simp [sweeps, firings, hlast]
  | cons now clock ih =>
    obtain ⟨last, -, -, hdue⟩ | ⟨hfar, hdue⟩ := due_cases t now h
    · rw [sweeps, firings_cons_false hdue]
      exact ih t h
    · have hrest := ih { t with last := some now } h
      simp only [sweeps, Option.toList_some, List.singleton_append] at hrest
      rw [sweeps, firings_cons_true hdue]
      cases hlast : t.last with
      | none => simpa using hrest
      | some last =>
        have hnow := hfar last hlast
        refine List.pairwise_cons.2 ⟨?_, hrest⟩
        intro r hr
        rcases List.mem_cons.1 hr with rfl | hr
        · exact hnow
        · have hbehind := (List.pairwise_cons.1 hrest).1 r hr
          omega

theorem close_of_withheld {done later : List Timestamp} (t : SweepTimer) (h : 0 < t.interval)
    (hfalse : (t.readings (done ++ now :: later))[done.length]? = some false) :
    ∃ last, (t.sweeps done).getLast? = some last ∧
      now.toNat < last.toNat + t.interval.toNat := by
  induction done generalizing t with
  | nil =>
    obtain ⟨last, hlast, hclose, -⟩ | ⟨-, hdue⟩ := due_cases t now h
    · exact ⟨last, by simp [sweeps, firings, hlast], hclose⟩
    · simp [readings, hdue] at hfalse
  | cons first done ih =>
    have hrest : ((t.due first).2.readings (done ++ now :: later))[done.length]? = some false := by
      simpa [readings] using hfalse
    obtain ⟨last, -, -, hdue⟩ | ⟨-, hdue⟩ := due_cases t first h
    · rw [hdue] at hrest
      rw [sweeps, firings_cons_false hdue]
      exact ih t h hrest
    · rw [hdue] at hrest
      obtain ⟨last, hlast, hclose⟩ := ih { t with last := some first } h hrest
      refine ⟨last, ?_, hclose⟩
      rw [sweeps, firings_cons_true hdue, List.getLast?_append, ← hlast]
      simp [sweeps, List.getLast?_cons]

/-- Whatever the clock reads, forwards or backwards, the sweeps lie an interval apart, a window holds
no more of them than fit that way, and none is put off that is due. -/
theorem readings_keep_distance (t : SweepTimer) (clock : List Timestamp) (h : 0 < t.interval) :
    (t.readings clock).length = clock.length ∧
    (t.sweeps clock).Pairwise (fun r r' => r.toNat + t.interval.toNat ≤ r'.toNat) ∧
    (∀ a b : Nat, ((t.firings clock).filter fun r => a ≤ r.toNat ∧ r.toNat ≤ b).length ≤
      (b - a) / t.interval.toNat + 1) ∧
    ∀ done now later, clock = done ++ now :: later →
      (t.readings clock)[done.length]? = some false →
      ∃ last, (t.sweeps done).getLast? = some last ∧
        now.toNat < last.toNat + t.interval.toNat := by
  have hapart := sweeps_apart t clock h
  refine ⟨length_readings t clock, hapart, ?_, ?_⟩
  · intro a b
    have hpos : 0 < t.interval.toNat := by simpa using UInt32.lt_iff_toNat_lt.1 h
    have hfirings : (t.firings clock).Pairwise fun r r' => r.toNat + t.interval.toNat ≤ r'.toNat :=
      hapart.sublist (List.sublist_append_right _ _)
    refine length_le_of_apart hpos (hfirings.sublist List.filter_sublist) ?_
    intro r hr
    simpa using (List.mem_filter.1 hr).2
  · rintro done now later rfl hfalse
    exact close_of_withheld t h hfalse

/-- At both ends of the clock, and past the upper one. -/
theorem readings_keep_distance_at_ends :
    0 < (ofInterval 2).interval ∧
    (ofInterval 2).readings [0, 1, 4294967294, 4294967295, 0] = [true, false, true, false, false] ∧
    (ofInterval 2).sweeps [0, 1, 4294967294, 4294967295, 0] = [0, 4294967294] ∧
    ([0, 4294967294] : List Timestamp).Pairwise (fun r r' => r.toNat + 2 ≤ r'.toNat) ∧
    ∃ last, ((ofInterval 2).sweeps [0, 1, 4294967294]).getLast? = some last ∧
      4294967295 < last.toNat + 2 := by
  have hpos : 0 < (ofInterval 2).interval := by decide
  obtain ⟨-, hapart, -, hclose⟩ :=
    readings_keep_distance (ofInterval 2) [0, 1, 4294967294, 4294967295, 0] hpos
  refine ⟨hpos, by decide, by decide, hapart, ?_⟩
  exact hclose [0, 1, 4294967294] 4294967295 [0] rfl (by decide)

end SweepTimer

end AirSurvey

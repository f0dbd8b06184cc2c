set_option autoImplicit false

/-!
Seconds on a clock that frames and sweeps share, and counters that stop at their greatest value.
-/

namespace AirSurvey

abbrev Timestamp := UInt32

/-- Seconds from `past` to `now`; none if `past` is still to come. -/
def elapsed (now past : Timestamp) : UInt32 := if now ≤ past then 0 else now - past

/-- The next count; the greatest stays. -/
def nextCount (n : UInt32) : UInt32 := if n = 0xffffffff then n else n + 1

theorem elapsed_toNat (now past : Timestamp) :
    (elapsed now past).toNat = now.toNat - past.toNat := by
  unfold elapsed
  split
  · next h =>
    have := UInt32.le_iff_toNat_le.1 h
    simp only [UInt32.toNat_zero]
    omega
  · next h =>
    have h := UInt32.not_le.1 h
    exact UInt32.toNat_sub_of_le _ _ (UInt32.le_of_lt h)

theorem nextCount_toNat (n : UInt32) :
    (nextCount n).toNat = if n.toNat = 0xffffffff then n.toNat else n.toNat + 1 := by
  unfold nextCount
  split
  · next h => subst h; rfl
  · next h =>
    have hne : n.toNat ≠ 0xffffffff := fun e => h (UInt32.toNat_inj.1 e)
    have := n.toNat_lt
    rw [if_neg hne, UInt32.toNat_add]
    simp only [UInt32.reduceToNat]
    omega

end AirSurvey

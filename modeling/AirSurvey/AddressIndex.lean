import AirSurvey.Radio.MacAddress
import AirSurvey.Settings

set_option autoImplicit false

/-!
The slot of each tracked device by its address.
-/

namespace AirSurvey

structure AddressIndex where
  pairs : List (MacAddress × Nat)
  deriving DecidableEq

namespace AddressIndex

def empty : AddressIndex := ⟨[]⟩

def size (x : AddressIndex) : Nat := x.pairs.length

def find? (x : AddressIndex) (m : MacAddress) : Option Nat := x.pairs.lookup m

def erase (x : AddressIndex) (m : MacAddress) : AddressIndex := ⟨x.pairs.filter (·.1 != m)⟩

/-- Notes the slot of an address, in place of the one noted before; `none` if there is no room. -/
def insert? (x : AddressIndex) (m : MacAddress) (slot : Nat) : Option AddressIndex :=
  if (x.erase m).size < Capacity.devices then some ⟨(m, slot) :: (x.erase m).pairs⟩ else none

theorem lookup_filter_ne (pairs : List (MacAddress × Nat)) (m k : MacAddress) :
    (pairs.filter (·.1 != m)).lookup k = if k = m then none else pairs.lookup k := by
  induction pairs with
  | nil => simp
  | cons pair rest ih =>
    obtain ⟨a, i⟩ := pair
    by_cases ha : a = m
    · subst ha
      rw [List.filter_cons_of_neg (by simp), ih]
      split
      · rfl
      · next hk => rw [List.lookup_cons, beq_false_of_ne hk]
    · rw [List.filter_cons_of_pos (by simpa using ha), List.lookup_cons, List.lookup_cons, ih]
      by_cases hk : k = m
      · simp only [beq_false_of_ne (fun h => ha (h.symm.trans hk)), if_pos hk]
      · simp only [if_neg hk]

theorem find?_erase (x : AddressIndex) (m k : MacAddress) :
    (x.erase m).find? k = if k = m then none else x.find? k :=
  lookup_filter_ne ..

theorem find?_insert? {x y : AddressIndex} {m : MacAddress} {slot : Nat}
    (h : x.insert? m slot = some y) (k : MacAddress) :
    y.find? k = if k = m then some slot else x.find? k := by
  unfold insert? at h
  split at h
  · obtain rfl := Option.some.inj h
    by_cases hk : k = m
    · simp [find?, hk]
    · have hb : (k == m) = false := by simpa using hk
      simp only [find?, List.lookup_cons, hb, hk, if_false]
      exact (find?_erase x m k).trans (if_neg hk)
  · simp at h

end AddressIndex

end AirSurvey

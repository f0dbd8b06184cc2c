set_option autoImplicit false

/-!
The bytes of text in UTF-8, how many they are, and the longest front part of a text that fits into
a number of bytes.
-/

namespace AirSurvey.Text

def bytes (s : List Char) : List UInt8 := s.flatMap String.utf8EncodeChar

def byteLength : List Char → Nat
  | [] => 0
  | c :: r => c.utf8Size + byteLength r

theorem byteLength_append (s t : List Char) :
    byteLength (s ++ t) = byteLength s + byteLength t := by
  induction s with
  | nil => simp [byteLength]
  | cons c r ih => simp [byteLength, ih, Nat.add_assoc]

theorem length_bytes (s : List Char) : (bytes s).length = byteLength s := by
  induction s with
  | nil => rfl
  | cons c r ih =>
    rw [bytes, List.flatMap_cons, List.length_append, String.length_utf8EncodeChar]
    exact congrArg (c.utf8Size + ·) ih

theorem utf8ByteSize_ofList (s : List Char) : (String.ofList s).utf8ByteSize = byteLength s := by
  induction s with
  | nil => rfl
  | cons c r ih =>
    rw [String.ofList_cons, String.utf8ByteSize_append, String.utf8ByteSize_singleton, ih,
      byteLength]

theorem byteLength_toList (s : String) : byteLength s.toList = s.utf8ByteSize := by
  rw [← utf8ByteSize_ofList, String.ofList_toList]

/-- Characters from the front up to the first that does not fit into what is left of the bytes. -/
def takeBytes : Nat → List Char → List Char
  | _, [] => []
  | room, c :: r => if c.utf8Size ≤ room then c :: takeBytes (room - c.utf8Size) r else []

theorem byteLength_takeBytes_le (room : Nat) (s : List Char) :
    byteLength (takeBytes room s) ≤ room := by
  induction s generalizing room with
  | nil => simp [takeBytes, byteLength]
  | cons c r ih =>
    unfold takeBytes
    split
    · have := ih (room - c.utf8Size)
      simp only [byteLength]
      omega
    · simp [byteLength]

theorem takeBytes_eq_self {room : Nat} {s : List Char} (h : byteLength s ≤ room) :
    takeBytes room s = s := by
  induction s generalizing room with
  | nil => rfl
  | cons c r ih =>
    simp only [byteLength] at h
    have hc : c.utf8Size ≤ room := by omega
    rw [takeBytes, if_pos hc, ih (by omega)]

end AirSurvey.Text

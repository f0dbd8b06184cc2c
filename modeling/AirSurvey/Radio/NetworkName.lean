import AirSurvey.Text.Bytes

set_option autoImplicit false

/-!
Network names as radios announce them: at most 32 bytes, empty when the network hides its name.
-/

namespace AirSurvey

def NetworkName.maxBytes : Nat := 32

structure NetworkName where
  text : String
  fits : text.utf8ByteSize ≤ NetworkName.maxBytes
  deriving DecidableEq

namespace NetworkName

def ofText? (s : String) : Option NetworkName :=
  if h : s.utf8ByteSize ≤ maxBytes then some ⟨s, h⟩ else none

theorem eq_of_text {a b : NetworkName} (h : a.text = b.text) : a = b := by
  cases a
  cases b
  simpa using h

theorem ofText?_text (n : NetworkName) : ofText? n.text = some n := dif_pos n.fits

/-- As many whole characters from the front of a text as fit into a name. -/
def truncate (s : String) : NetworkName where
  text := String.ofList (Text.takeBytes maxBytes s.toList)
  fits := by
    rw [Text.utf8ByteSize_ofList]
    exact Text.byteLength_takeBytes_le ..

def isHidden (n : NetworkName) : Bool := n.text.isEmpty

end NetworkName

end AirSurvey

import AirSurvey.Frame
import AirSurvey.Proofs.Survey.Networks

set_option autoImplicit false

/-!
Network names out of texts of any length. A text is cut to the longest name that it starts with: the
name that comes of putting its characters one after another to an empty one, until one does not fit.
At most three bytes of a name that was cut stay free, as no character takes more than four, and a
name is never cut again, nor found too long by a table of networks.
-/

namespace AirSurvey

namespace Text

theorem takeBytes_isPrefix (room : Nat) (s : List Char) : takeBytes room s <+: s := by
  induction s generalizing room with
  | nil => exact List.nil_prefix
  | cons c r ih =>
    rw [takeBytes]
    split
    · exact List.cons_prefix_cons.2 ⟨rfl, ih _⟩
    · exact List.nil_prefix

theorem isPrefix_takeBytes {room : Nat} {p s : List Char} (hp : p <+: s)
    (hfits : byteLength p ≤ room) : p <+: takeBytes room s := by
  induction s generalizing room p with
  | nil =>
    rw [List.prefix_nil.1 hp]
    exact List.nil_prefix
  | cons c r ih =>
    cases p with
    | nil => exact List.nil_prefix
    | cons d p =>
      obtain ⟨rfl, hrest⟩ := List.cons_prefix_cons.1 hp
      rw [byteLength] at hfits
      have hd : d.utf8Size ≤ room := by omega
      rw [takeBytes, if_pos hd]
      exact List.cons_prefix_cons.2 ⟨rfl, ih hrest (by omega)⟩

/-- The first character that is left off takes more bytes than are free, and four at most. -/
theorem lt_byteLength_takeBytes {room : Nat} {s : List Char} (hlong : room < byteLength s) :
    room < byteLength (takeBytes room s) + 4 := by
  induction s generalizing room with
  | nil => simp [byteLength] at hlong
  | cons c r ih =>
    have hc := c.utf8Size_le_four
    rw [byteLength] at hlong
    rw [takeBytes]
    split
    · have hrest := ih (show room - c.utf8Size < byteLength r by omega)
      rw [byteLength]
      omega
    · omega

end Text

namespace NetworkName

open Text (takeBytes)

def hidden : NetworkName := ⟨"", by decide⟩

def push? (n : NetworkName) (c : Char) : Option NetworkName := ofText? (n.text.push c)

/-- A name with characters put to its end one after another, up to the first that does not fit. -/
def fill (n : NetworkName) : List Char → NetworkName
  | [] => n
  | c :: r =>
    match n.push? c with
    | none => n
    | some m => m.fill r

theorem push?_eq_none_iff (n : NetworkName) (c : Char) :
    n.push? c = none ↔ maxBytes < n.text.utf8ByteSize + c.utf8Size := by
  simp [push?, ofText?]

theorem text_of_push? {n m : NetworkName} {c : Char} (h : n.push? c = some m) :
    m.text = n.text.push c := by
  simp only [push?, ofText?, Option.dite_none_right_eq_some, Option.some.injEq] at h
  obtain ⟨hfits, rfl⟩ := h
  rfl

theorem toList_fill (n : NetworkName) (s : List Char) :
    (n.fill s).text.toList = n.text.toList ++ takeBytes (maxBytes - n.text.utf8ByteSize) s := by
  induction s generalizing n with
  | nil => simp [fill, takeBytes]
  | cons c r ih =>
    have hn := n.fits
    cases hpush : n.push? c with
    | none =>
      have hfull := (push?_eq_none_iff n c).1 hpush
      rw [fill, hpush, takeBytes, if_neg (by omega), List.append_nil]
    | some m =>
      have htext := text_of_push? hpush
      have hsize : m.text.utf8ByteSize = n.text.utf8ByteSize + c.utf8Size := by simp [htext]
      have hm := m.fits
      have hroom : maxBytes - m.text.utf8ByteSize =
          maxBytes - n.text.utf8ByteSize - c.utf8Size := by omega
      rw [fill, hpush, takeBytes, if_pos (by omega), ← hroom]
      simp only [ih, htext, String.toList_push, List.append_assoc, List.singleton_append]

theorem toList_truncate (s : String) : (truncate s).text.toList = takeBytes maxBytes s.toList :=
  String.toList_ofList

/-- Cutting a text is filling a name with its characters. -/
theorem fill_hidden (s : String) : hidden.fill s.toList = truncate s := by
  refine eq_of_text (String.toList_inj.1 ?_)
  rw [toList_fill, toList_truncate]
  rfl

/-! ## What is kept of a text -/

theorem exists_eq_truncate_append (s : String) : ∃ rest, s = (truncate s).text ++ rest := by
  obtain ⟨rest, hrest⟩ := Text.takeBytes_isPrefix maxBytes s.toList
  refine ⟨String.ofList rest, String.toList_inj.1 ?_⟩
  rw [String.toList_append, toList_truncate, String.toList_ofList, hrest]

theorem exists_truncate_eq_append {s p q : String} (hs : s = p ++ q)
    (hfits : p.utf8ByteSize ≤ maxBytes) : ∃ r, (truncate s).text = p ++ r := by
  have hp : p.toList <+: s.toList := ⟨q.toList, by rw [hs, String.toList_append]⟩
  rw [← Text.byteLength_toList] at hfits
  obtain ⟨r, hr⟩ := Text.isPrefix_takeBytes hp hfits
  refine ⟨String.ofList r, String.toList_inj.1 ?_⟩
  rw [String.toList_append, toList_truncate, String.toList_ofList, hr]

theorem text_truncate {s : String} (hfits : s.utf8ByteSize ≤ maxBytes) : (truncate s).text = s := by
  rw [← Text.byteLength_toList] at hfits
  rw [← String.toList_inj, toList_truncate, Text.takeBytes_eq_self hfits]

theorem truncate_text (n : NetworkName) : truncate n.text = n :=
  eq_of_text (text_truncate n.fits)

theorem lt_utf8ByteSize_truncate {s : String} (hlong : maxBytes < s.utf8ByteSize) :
    maxBytes < (truncate s).text.utf8ByteSize + 4 := by
  rw [← Text.byteLength_toList] at hlong ⊢
  rw [toList_truncate]
  exact Text.lt_byteLength_takeBytes hlong

-- A character of four bytes ends the name here, though the one behind it would still fit.
example : truncate (String.ofList (List.replicate 29 'a' ++ ['😀', 'b'])) =
    truncate (String.ofList (List.replicate 29 'a')) := by decide +kernel

theorem isHidden_truncate_iff (s : String) : (truncate s).isHidden = true ↔ s = "" := by
  rw [isHidden, String.isEmpty_iff]
  by_cases hfits : s.utf8ByteSize ≤ maxBytes
  · rw [text_truncate hfits]
  · -- What is left of a text that was cut is not empty, so neither side holds.
    have hlong := lt_utf8ByteSize_truncate (Nat.lt_of_not_le hfits)
    constructor
    · intro hempty
      rw [hempty] at hlong
      exact absurd hlong (by decide)
    · rintro rfl
      exact absurd (by decide) hfits

end NetworkName

theorem Frame.visibleName_named (f : Frame) (s : String) :
    (f.named s).visibleName = if s = "" then none else some (.truncate s) := by
  have hhidden := NetworkName.isHidden_truncate_iff s
  simp only [visibleName, named, Option.filter_some]
  split <;> simp_all

/-- Naming a frame by a text sets its network name and nothing else: to what comes of putting the
characters of the text to an empty name, one after another, until one does not fit. That is the
longest front part of the text, in whole characters, that takes at most 32 bytes. It is the text
itself if that fits, and else takes 29 bytes or more; it is empty, and so hidden, only if the text
is. To name any frame by it gives it again, and no table of networks finds it too long. -/
theorem Frame.named_keeps_longest (f : Frame) (s : String) :
    ∃ n : NetworkName, f.named s = { f with name := some n } ∧
      n = NetworkName.hidden.fill s.toList ∧
      ((∃ rest, s = n.text ++ rest) ∧ n.text.utf8ByteSize ≤ 32 ∧
        ∀ p q, s = p ++ q → p.utf8ByteSize ≤ 32 → ∃ r, n.text = p ++ r) ∧
      (s.utf8ByteSize ≤ 32 → n.text = s) ∧
      (32 < s.utf8ByteSize → 29 ≤ n.text.utf8ByteSize ∧ n.text.utf8ByteSize ≤ 32) ∧
      (n.isHidden = true ↔ s = "") ∧
      (f.named s).visibleName = (if s = "" then none else some n) ∧
      (∀ g : Frame, (g.named n.text).name = some n) ∧
      ∀ t : NetworkTable, ∃ o, (NetworkTable.enter n.text).run t = .ok o ∧
        o.answer ≠ .error .nameTooLong := by
  refine ⟨.truncate s, rfl, (NetworkName.fill_hidden s).symm,
    ⟨NetworkName.exists_eq_truncate_append s, (NetworkName.truncate s).fits,
      fun p q => NetworkName.exists_truncate_eq_append⟩,
    NetworkName.text_truncate, fun hlong => ?_, NetworkName.isHidden_truncate_iff s,
    f.visibleName_named s, fun g => ?_, fun t => ?_⟩
  · have hcut : 32 < (NetworkName.truncate s).text.utf8ByteSize + 4 :=
      NetworkName.lt_utf8ByteSize_truncate hlong
    exact ⟨by omega, (NetworkName.truncate s).fits⟩
  · rw [named, NetworkName.truncate_text]
  · obtain ⟨o, hrun, hanswer⟩ := t.enter_name_run (.truncate s)
    refine ⟨o, hrun, fun hlong => ?_⟩
    simp [hlong] at hanswer

end AirSurvey

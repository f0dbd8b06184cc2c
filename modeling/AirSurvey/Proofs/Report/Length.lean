import AirSurvey.Report.Line
import Mathlib.Algebra.GroupWithZero.Nat
import Mathlib.Data.List.Forall2

set_option autoImplicit false

/-!
How many bytes the line of a report takes: what each field takes, and from that how long a line can
get. Only text that others choose, the name of a network, can make a line longer than its room.
-/

namespace AirSurvey

namespace Text

theorem byteLength_eq_length {s : List Char} (h : ∀ c ∈ s, c.utf8Size = 1) :
    byteLength s = s.length := by
  induction s with
  | nil => rfl
  | cons c r ih =>
    rw [List.forall_mem_cons] at h
    rw [byteLength, h.1, ih h.2, List.length_cons, Nat.add_comm]

/-- Text of which every character takes one byte and is written in JSON as it is. -/
def Plain (s : List Char) : Prop := ∀ c ∈ s, escape c = [c] ∧ c.utf8Size = 1

theorem byteLength_quoted (s : List Char) :
    byteLength (quoted s) = byteLength (s.flatMap escape) + 2 := by
  have hquote : '"'.utf8Size = 1 := by decide
  simp only [quoted, byteLength, byteLength_append, List.cons_append, hquote]
  omega

theorem Plain.byteLength_quoted {s : List Char} (h : Plain s) :
    byteLength (quoted s) = s.length + 2 := by
  rw [Text.byteLength_quoted]
  induction s with
  | nil => rfl
  | cons c r ih =>
    obtain ⟨⟨hescape, hsize⟩, hr⟩ := List.forall_mem_cons.1 h
    have hrest := ih hr
    simp only [List.flatMap_cons, hescape, List.singleton_append, byteLength, hsize,
      List.length_cons]
    omega

theorem hexDigit_plain {n : Nat} (hn : n < 16) :
    escape (hexDigit n) = [hexDigit n] ∧ (hexDigit n).utf8Size = 1 := by
  revert n
  decide

theorem hexByte_plain (b : UInt8) : Plain (hexByte b) := by
  have hb := b.toNat_lt
  intro c hc
  obtain rfl | rfl : c = hexDigit (b.toNat / 16) ∨ c = hexDigit (b.toNat % 16) := by
    simpa [hexByte] using hc
  · exact hexDigit_plain (by omega)
  · exact hexDigit_plain (by omega)

theorem utf8Size_controlLetter {c letter : Char} (h : controlLetter? c = some letter) :
    letter.utf8Size = 1 := by
  unfold controlLetter? at h
  split at h <;> simp_all <;> subst h <;> decide

theorem byteLength_escape_le (c : Char) : byteLength (escape c) ≤ 6 * c.utf8Size := by
  have hpos := c.utf8Size_pos
  have hslash : '\\'.utf8Size = 1 := by decide
  unfold escape
  split
  · simp only [byteLength, hslash]
    omega
  · split
    · next letter hletter =>
      simp only [byteLength, hslash, utf8Size_controlLetter hletter]
      omega
    · split
      · have hbyte := byteLength_eq_length fun d hd => (hexByte_plain c.toNat.toUInt8 d hd).2
        have hu : byteLength ['\\', 'u', '0', '0'] = 4 := by decide
        rw [byteLength_append, hbyte, hu]
        simp only [hexByte, List.length_cons, List.length_nil]
        omega
      · simp only [byteLength]
        omega

theorem byteLength_quoted_le (s : List Char) : byteLength (quoted s) ≤ 6 * byteLength s + 2 := by
  rw [byteLength_quoted]
  induction s with
  | nil => simp [byteLength]
  | cons c r ih =>
    have hc := byteLength_escape_le c
    rw [List.flatMap_cons, byteLength_append, byteLength]
    omega

end Text

namespace Report

open Text (byteLength byteLength_append quoted)

theorem byteLength_decimal (n : Nat) : byteLength (decimal n) = (decimal n).length := by
  refine Text.byteLength_eq_length fun c hc => ?_
  have hdigit := Char.isDigit_iff_toNat.1 (Nat.isDigit_of_mem_toDigits (by decide) (by decide) hc)
  have hnine : '9'.toNat = 57 := rfl
  rw [Char.utf8Size_eq_one_iff, UInt32.le_iff_toNat_le]
  change c.toNat ≤ 127
  omega

theorem byteLength_decimal_le {n k : Nat} (hk : 0 < k) (h : n < 10 ^ k) :
    byteLength (decimal n) ≤ k := by
  rw [byteLength_decimal]
  exact (Nat.length_toDigits_le_iff (by decide) hk).2 h

theorem byteLength_flagChars_le (b : Bool) : byteLength (flagChars b) ≤ 5 := by
  cases b <;> decide

theorem byteLength_field (name : String) (value : List Char) :
    byteLength (field name value) = byteLength (quoted name.toList) + 1 + byteLength value := by
  have hcolon : ':'.utf8Size = 1 := by decide
  rw [field, byteLength_append, byteLength, hcolon]
  omega

theorem byteLength_commas {parts : List (List Char)} (h : parts ≠ []) :
    byteLength ([','].intercalate parts) + 1 = (parts.map fun s => byteLength s + 1).sum := by
  have hcomma : byteLength [','] = 1 := by decide
  induction parts with
  | nil => exact absurd rfl h
  | cons s rest ih =>
    cases rest with
    | nil => simp [List.intercalate_singleton]
    | cons s' rest =>
      have hrest := ih (by simp)
      rw [List.intercalate_cons_cons, byteLength_append, byteLength_append, hcomma, List.map_cons,
        List.sum_cons]
      omega

theorem byteLength_object {fields : List (String × List Char)} (h : fields ≠ []) :
    byteLength (object fields) = 1 + (fields.map fun x => byteLength (field x.1 x.2) + 1).sum := by
  have hbraces : '\x7b'.utf8Size = 1 ∧ byteLength ['\x7d'] = 1 := by decide
  have hparts : (fields.map fun x => field x.1 x.2) ≠ [] := by simpa using h
  have hcommas := byteLength_commas hparts
  rw [List.map_map] at hcommas
  change byteLength ('\x7b' :: [','].intercalate (fields.map fun x => field x.1 x.2) ++ ['\x7d']) =
    1 + (fields.map ((fun s => byteLength s + 1) ∘ fun x => field x.1 x.2)).sum
  rw [← hcommas, byteLength_append, byteLength, hbraces.1, hbraces.2]
  omega

/-- What a field takes in an object, with the comma or the brace behind it. -/
def fieldBytes : String × Option Value → Nat
  | (name, some v) => byteLength (field name v.chars) + 1
  | (_, none) => 0

theorem sum_fieldBytes (fields : List (String × Option Value)) :
    ((fields.filterMap fun (name, value) => value.map fun v => (name, v.chars)).map
      fun x => byteLength (field x.1 x.2) + 1).sum = (fields.map fieldBytes).sum := by
  induction fields with
  | nil => rfl
  | cons f rest ih =>
    obtain ⟨name, value⟩ := f
    cases value with
    | none => simpa [fieldBytes] using ih
    | some v => simpa [fieldBytes] using ih

theorem byteLength_line (r : Report) :
    byteLength r.line = 2 + (r.fields.map fieldBytes).sum := by
  have hnewline : byteLength ['\n'] = 1 := by decide
  rw [line, text, byteLength_append, hnewline, byteLength_object, sum_fieldBytes]
  · omega
  · cases r <;> simp [fields, deviceFields]

theorem lineWithin?_eq (r : Report) (room : Nat) :
    r.lineWithin? room = if byteLength r.line ≤ room then some r.line else none := by
  have hnewline : byteLength r.line = byteLength r.text + 1 := by
    rw [line, byteLength_append]
    rfl
  rw [lineWithin?, textWithin?, hnewline]
  by_cases hroom : byteLength r.text ≤ room
  · rw [if_pos hroom]
    rfl
  · have hline : ¬byteLength r.text + 1 ≤ room := by omega
    rw [if_neg hroom, if_neg hline]
    rfl

def fits (r : Report) : Bool := byteLength r.line ≤ maxBytes

theorem fits_iff (r : Report) : r.fits = true ↔ byteLength r.line ≤ maxBytes := decide_eq_true_iff

theorem lineWithin?_maxBytes (r : Report) :
    r.lineWithin? maxBytes = if r.fits then some r.line else none := by
  simp only [lineWithin?_eq, fits_iff]

/-! ## What each field takes -/

/-- What the name of a field takes, with the colon behind it and the comma or the brace behind its
value. -/
def keyBytes (name : String) : Nat := byteLength (quoted name.toList) + 2

theorem fieldBytes_some (name : String) (v : Value) :
    fieldBytes (name, some v) = keyBytes name + byteLength v.chars := by
  rw [fieldBytes, byteLength_field, keyBytes]
  omega

theorem byteLength_line_network_le (name : String) {members : Nat} (h : members < 1000)
    (isSplit : Bool) :
    byteLength (line (.network name members isSplit)) ≤ 53 + byteLength (quoted name.toList) := by
  have hkeys : keyBytes "name" = 8 ∧ keyBytes "members" = 11 ∧ keyBytes "split" = 9 := by decide
  have htype : fieldBytes ("type", some (ofText "essid")) = 15 := by decide
  have hmembers : byteLength (Value.number members).chars ≤ 3 := byteLength_decimal_le (by decide) h
  have hsplit : byteLength (Value.flag isSplit).chars ≤ 5 := byteLength_flagChars_le isSplit
  have hname : byteLength (ofText name).chars = byteLength (quoted name.toList) := rfl
  rw [byteLength_line]
  simp only [fields, List.map_cons, List.map_nil, List.sum_cons, List.sum_nil, htype,
    fieldBytes_some, hkeys, hname]
  omega

theorem byteLength_line_status_le {devices networks channels : Nat} (hdevices : devices < 1000)
    (hnetworks : networks < 1000) (hchannels : channels < 1000) :
    byteLength (line (.status devices networks channels)) ≤ 76 := by
  have hkeys : keyBytes "nodes" = 9 ∧ keyBytes "essids" = 10 ∧ keyBytes "channels" = 12 := by decide
  have htype : fieldBytes ("type", some (ofText "status")) = 16 := by decide
  have hversion : fieldBytes ("version", some (ofText version)) = 18 := by decide
  have hcount : ∀ n, n < 1000 → byteLength (Value.number (n : Nat)).chars ≤ 3 :=
    fun n hn => byteLength_decimal_le (by decide) hn
  have hdevices := hcount devices hdevices
  have hnetworks := hcount networks hnetworks
  have hchannels := hcount channels hchannels
  rw [byteLength_line]
  simp only [fields, List.map_cons, List.map_nil, List.sum_cons, List.sum_nil, htype, hversion,
    fieldBytes_some, hkeys]
  omega

end Report

end AirSurvey

import AirSurvey.Proofs.Report.Framing
import AirSurvey.Proofs.Report.Length
import Mathlib.Data.Option.Basic

set_option autoImplicit false

/-!
What can be got back from lines. The fields that are present tell every field of a report and its
kind, the line tells the fields, and lines put one behind the other come apart at their newlines,
for a line has no other byte that is not printed.
-/

namespace AirSurvey

namespace Text

def Printed (s : List Char) : Prop := ∀ c ∈ s, 32 ≤ c.toNat

@[simp] theorem printed_cons {c : Char} {s : List Char} :
    Printed (c :: s) ↔ 32 ≤ c.toNat ∧ Printed s := List.forall_mem_cons

@[simp] theorem printed_append {s t : List Char} : Printed (s ++ t) ↔ Printed s ∧ Printed t :=
  List.forall_mem_append

theorem printed_quoted (s : List Char) : Printed (quoted s) := by
  have hescapes : Printed (s.flatMap escape) := by
    intro d hd
    obtain ⟨c, _, hdc⟩ := List.mem_flatMap.1 hd
    exact le_of_mem_escape hdc
  have hquote : Printed ['"'] := List.forall_mem_singleton.2 (by decide)
  rw [quoted, List.cons_append, printed_cons, printed_append]
  exact ⟨by decide, hescapes, hquote⟩

theorem printed_commas {parts : List (List Char)} (h : ∀ s ∈ parts, Printed s) :
    Printed ([','].intercalate parts) := by
  cases parts with
  | nil => exact fun _ h => absurd h List.not_mem_nil
  | cons s parts =>
    rw [Report.commas_cons, printed_append]
    refine ⟨h s (.head parts), fun c hc => ?_⟩
    obtain ⟨r, hr, hc⟩ := List.mem_flatMap.1 hc
    rcases List.mem_cons.1 hc with rfl | hc
    · decide
    · exact h r (.tail s hr) c hc

theorem bytes_append (s t : List Char) : bytes (s ++ t) = bytes s ++ bytes t := List.flatMap_append

theorem bytes_inj {s t : List Char} (h : bytes s = bytes t) : s = t := by
  have hencode : s.utf8Encode = t.utf8Encode := congrArg List.toByteArray h
  have hdecode := congrArg ByteArray.utf8Decode? hencode
  rw [List.utf8Decode?_utf8Encode, List.utf8Decode?_utf8Encode] at hdecode
  exact List.toArray_inj (Option.some.inj hdecode)

theorem mem_utf8EncodeChar {c : Char} {b : UInt8} (h : b ∈ String.utf8EncodeChar c) :
    b.toNat = c.toNat ∨ 128 ≤ b.toNat := by
  have hhigh : ∀ x, 128 ≤ x % 256 → 128 ≤ (UInt8.ofNat x).toNat := by
    intro x hx
    rwa [UInt8.toNat_ofNat']
  have hlow : c.val.toNat ≤ 127 → (UInt8.ofNat c.val.toNat).toNat = c.toNat := by
    intro hc
    rw [UInt8.toNat_ofNat']
    exact Nat.mod_eq_of_lt (Nat.lt_of_le_of_lt hc (by decide))
  simp only [String.utf8EncodeChar] at h
  split at h
  · next hc =>
    obtain rfl := List.mem_singleton.1 h
    exact .inl (hlow hc)
  · right
    split at h
    · simp only [List.mem_cons, List.not_mem_nil, or_false] at h
      rcases h with rfl | rfl <;> exact hhigh _ (by omega)
    · split at h
      · simp only [List.mem_cons, List.not_mem_nil, or_false] at h
        rcases h with rfl | rfl | rfl <;> exact hhigh _ (by omega)
      · simp only [List.mem_cons, List.not_mem_nil, or_false] at h
        rcases h with rfl | rfl | rfl | rfl <;> exact hhigh _ (by omega)

theorem le_of_mem_bytes {s : List Char} (h : Printed s) {b : UInt8} (hb : b ∈ bytes s) :
    32 ≤ b.toNat := by
  obtain ⟨c, hc, hb⟩ := List.mem_flatMap.1 hb
  have hc : 32 ≤ c.toNat := h c hc
  rcases mem_utf8EncodeChar hb with heq | hhigh <;> omega

end Text

namespace Report

open Text (Framed NoDigit noDigit_cons Printed printed_cons printed_append bytes bytes_append)

/-! ## No control characters -/

theorem printed_decimal (n : Nat) : Printed (decimal n) := by
  intro c hc
  have hdigit := Char.isDigit_iff_toNat.1 (isDigit_of_mem_decimal hc)
  have hzero : '0'.toNat = 48 := rfl
  omega

theorem printed_flagChars (b : Bool) : Printed (flagChars b) := by
  intro c hc
  have hflags : ∀ b, ((flagChars b).all fun c => 32 ≤ c.toNat) = true := by decide
  exact of_decide_eq_true (List.all_eq_true.1 (hflags b) c hc)

theorem printed_object {fields : List (String × List Char)} (h : ∀ x ∈ fields, Printed x.2) :
    Printed (object fields) := by
  have hparts : ∀ s ∈ fields.map fun x => field x.1 x.2, Printed s := by
    intro s hs
    obtain ⟨x, hx, rfl⟩ := List.mem_map.1 hs
    rw [field, printed_append, printed_cons]
    exact ⟨Text.printed_quoted _, by decide, h x hx⟩
  have hbrace : Printed ['\x7d'] := List.forall_mem_singleton.2 (by decide)
  rw [object, List.cons_append, printed_cons, printed_append]
  exact ⟨by decide, Text.printed_commas hparts, hbrace⟩

theorem Value.printed_chars (v : Value) : Printed v.chars := by
  cases v with
  | text s => exact Text.printed_quoted s
  | number n =>
    cases n with
    | ofNat n => exact printed_decimal n
    | negSucc n => exact printed_cons.2 ⟨by decide, printed_decimal (n + 1)⟩
  | flag b => exact printed_flagChars b
  | numbers ns =>
    have hparts : ∀ s ∈ ns.map decimal, Printed s := by
      intro s hs
      obtain ⟨n, _, rfl⟩ := List.mem_map.1 hs
      exact printed_decimal n
    have hbracket : Printed [']'] := List.forall_mem_singleton.2 (by decide)
    rw [chars, List.cons_append, printed_cons, printed_append]
    exact ⟨by decide, Text.printed_commas hparts, hbracket⟩
  | flags fs =>
    refine printed_object fun x hx => ?_
    obtain ⟨y, _, rfl⟩ := List.mem_map.1 hx
    exact printed_flagChars y.2

/-! ## The fields that are present -/

/-- The fields of which something is known, in order. -/
def known (fields : List (String × Option Value)) : List (String × Value) :=
  fields.filterMap fun (name, value) => value.map fun v => (name, v)

theorem text_eq_object (r : Report) :
    r.text = object ((known r.fields).map fun x => (x.1, x.2.chars)) := by
  rw [text, known, List.map_filterMap]
  congr 2
  funext x
  rw [Option.map_map]
  rfl

theorem printed_text (r : Report) : Printed r.text := by
  rw [text_eq_object]
  refine printed_object fun x hx => ?_
  obtain ⟨y, _, rfl⟩ := List.mem_map.1 hx
  exact y.2.printed_chars

theorem name_of_mem_known {fields : List (String × Option Value)} {x : String × Value}
    (h : x ∈ known fields) : x.1 ∈ fields.map Prod.fst := by
  obtain ⟨⟨name, value⟩, hf, hx⟩ := List.mem_filterMap.1 h
  obtain ⟨v, _, rfl⟩ := Option.map_eq_some_iff.1 hx
  exact List.mem_map_of_mem hf

theorem eq_of_known_eq {fs gs : List (String × Option Value)}
    (hnames : fs.map Prod.fst = gs.map Prod.fst) (hnodup : (fs.map Prod.fst).Nodup)
    (h : known fs = known gs) : fs = gs := by
  induction fs generalizing gs with
  | nil => exact (List.map_eq_nil_iff.1 hnames.symm).symm
  | cons f fs ih =>
    cases gs with
    | nil => exact absurd hnames (by simp)
    | cons g gs =>
      obtain ⟨name, v⟩ := f
      obtain ⟨name', w⟩ := g
      obtain ⟨hname, hrest⟩ := List.cons.inj hnames
      obtain rfl : name = name' := hname
      obtain ⟨hfresh, hdistinct⟩ := List.nodup_cons.1 hnodup
      have hother : ∀ (v : Value) {rest : List (String × Option Value)},
          rest.map Prod.fst = fs.map Prod.fst → (name, v) ∉ known rest := by
        intro v rest hrest hv
        have hname := name_of_mem_known hv
        rw [hrest] at hname
        exact hfresh hname
      cases v with
      | none =>
        cases w with
        | none => rw [ih hrest hdistinct h]
        | some w =>
          have hw : (name, w) ∈ known fs := by
            change known fs = (name, w) :: known gs at h
            rw [h]
            exact .head _
          exact absurd hw (hother w rfl)
      | some v =>
        cases w with
        | none =>
          have hv : (name, v) ∈ known gs := by
            change (name, v) :: known fs = known gs at h
            rw [← h]
            exact .head _
          exact absurd hv (hother v hrest.symm)
        | some w =>
          obtain ⟨hvalue, hknown⟩ := List.cons.inj h
          obtain rfl : v = w := (Prod.ext_iff.1 hvalue).2
          rw [ih hrest hdistinct hknown]

theorem ofText_inj {s t : String} (h : ofText s = ofText t) : s = t :=
  String.toList_inj.1 (Value.text.inj h)

theorem ofAddress_inj {m n : MacAddress} (h : ofAddress m = ofAddress n) : m = n :=
  MacAddress.chars_inj (Value.text.inj h)

theorem ofEncryption_inj {e e' : Encryption} (h : ofEncryption e = ofEncryption e') : e = e' := by
  cases e
  cases e'
  simpa [ofEncryption] using h

theorem ofMode_inj {m m' : Mode} (h : ofText m.text = ofText m'.text) : m = m' := by
  revert h
  cases m <;> cases m' <;> decide

theorem ofByte_inj {x y : UInt8} (h : Value.number x.toNat = .number y.toNat) : x = y :=
  UInt8.toNat_inj.1 (Int.ofNat.inj (Value.number.inj h))

theorem ofWord_inj {x y : UInt32} (h : Value.number x.toNat = .number y.toNat) : x = y :=
  UInt32.toNat_inj.1 (Int.ofNat.inj (Value.number.inj h))

theorem ofChannels_inj {xs ys : List UInt8}
    (h : Value.numbers (xs.map UInt8.toNat) = .numbers (ys.map UInt8.toNat)) : xs = ys :=
  List.map_injective_iff.2 (fun _ _ h => UInt8.toNat_inj.1 h) (Value.numbers.inj h)

theorem deviceFields_inj {r q : DeviceReport} (h : deviceFields r = deviceFields q) : r = q := by
  simp only [deviceFields, List.cons.injEq, Prod.mk.injEq, Option.some.injEq, true_and,
    and_true] at h
  obtain ⟨haddress, hnetwork, hbssid, hmode, hchannel, hchannels, hstrongest, haverage, hframes,
    hkinds, hencryption, haccessPoint, hlastSeen⟩ := h
  have hkinds : r.kinds = q.kinds := congrArg TrafficKinds.mk (ofWord_inj hkinds)
  cases r
  cases q
  simp only [DeviceReport.mk.injEq]
  exact ⟨ofAddress_inj haddress,
    Option.map_injective (fun _ _ => ofText_inj) hnetwork,
    Option.map_injective (fun _ _ => ofAddress_inj) hbssid,
    Option.map_injective (fun _ _ => ofMode_inj) hmode,
    Option.map_injective (fun _ _ => ofByte_inj) hchannel,
    ofChannels_inj hchannels,
    Int8.toInt_inj.1 (Value.number.inj hstrongest),
    Int16.toInt_inj.1 (Value.number.inj haverage),
    ofWord_inj hframes,
    hkinds,
    ofEncryption_inj hencryption,
    Option.map_injective (fun _ _ => ofAddress_inj) haccessPoint,
    ofWord_inj hlastSeen⟩

/-- The first field tells the kind of a report, the others tell the rest. -/
theorem eq_of_known_fields_eq {r q : Report} (h : known r.fields = known q.fields) : r = q := by
  cases r with
  | device r =>
    cases q with
    | device q =>
      have hfields := eq_of_known_eq (by rfl) (by simp [fields, deviceFields]) h
      rw [deviceFields_inj hfields]
    | network | status => exact absurd (List.cons.inj h).1 (by decide)
  | network name members isSplit =>
    cases q with
    | network name' members' isSplit' =>
      have hfields := eq_of_known_eq (by rfl) (by simp [fields]) h
      simp only [fields, List.cons.injEq, Prod.mk.injEq, Option.some.injEq, true_and, and_true,
        Value.number.injEq, Value.flag.injEq, Int.natCast_inj] at hfields
      obtain ⟨hname, rfl, rfl⟩ := hfields
      rw [ofText_inj hname]
    | device | status => exact absurd (List.cons.inj h).1 (by decide)
  | status devices networks channels version =>
    cases q with
    | status devices' networks' channels' version' =>
      have hfields := eq_of_known_eq (by rfl) (by simp [fields]) h
      simp only [fields, List.cons.injEq, Prod.mk.injEq, Option.some.injEq, true_and, and_true,
        Value.number.injEq, Int.natCast_inj] at hfields
      obtain ⟨rfl, rfl, rfl, hversion⟩ := hfields
      rw [ofText_inj hversion]
    | device | network => exact absurd (List.cons.inj h).1 (by decide)

/-! ## Lines -/

theorem text_framed : Framed text := by
  intro r q s t hs ht h
  rw [text_eq_object, text_eq_object] at h
  obtain ⟨hknown, hst⟩ := object_framed Value.chars_framed hs ht h
  exact ⟨eq_of_known_fields_eq hknown, hst⟩

theorem line_append_inj {r q : Report} {s t : List Char} (h : r.line ++ s = q.line ++ t) :
    r = q ∧ s = t := by
  have hnewline : ∀ s, NoDigit ('\n' :: s) := noDigit_cons (by decide)
  rw [line, line, List.append_assoc, List.append_assoc] at h
  obtain ⟨hrq, hst⟩ := text_framed (hnewline s) (hnewline t) h
  exact ⟨hrq, (List.cons.inj hst).2⟩

theorem lines_inj {rs qs : List Report} (h : rs.flatMap line = qs.flatMap line) : rs = qs := by
  have hline : ∀ (r : Report) (s : List Char), r.line ++ s ≠ [] := by
    intro r s
    simp [line]
  induction rs generalizing qs with
  | nil =>
    cases qs with
    | nil => rfl
    | cons q qs => exact absurd h.symm (hline q _)
  | cons r rs ih =>
    cases qs with
    | nil => exact absurd h (hline r _)
    | cons q qs =>
      obtain ⟨rfl, hrest⟩ := line_append_inj h
      rw [ih hrest]

theorem bytes_line (r : Report) : bytes r.line = bytes r.text ++ [10] := bytes_append _ _

theorem splitOn_lines (rs : List Report) :
    (rs.flatMap fun r => bytes r.line).splitOn 10 = (rs.map fun r => bytes r.text) ++ [[]] := by
  induction rs with
  | nil => rfl
  | cons r rs ih =>
    have hbody : (10 : UInt8) ∉ bytes r.text := by
      intro h
      exact absurd (Text.le_of_mem_bytes r.printed_text h) (by decide)
    rw [List.flatMap_cons, bytes_line, List.append_assoc, List.singleton_append,
      List.splitOn_append_cons_self_of_not_mem hbody, ih]
    rfl

/-- For any reports at all: in bytes, a line ends in a newline and has no other control character,
so at the newlines lines that follow each other come apart; the lines tell the reports in all their
fields, and so does one line; and there is a line in as many bytes as it takes or more, always the
same. -/
theorem lines_tell_reports :
    (∀ r : Report, bytes r.line = bytes r.text ++ [10] ∧ ∀ b ∈ bytes r.text, 32 ≤ b.toNat) ∧
    (∀ rs : List Report,
      (rs.flatMap fun r => bytes r.line).splitOn 10 = (rs.map fun r => bytes r.text) ++ [[]]) ∧
    (∀ rs qs : List Report,
      (rs.flatMap fun r => bytes r.line) = (qs.flatMap fun r => bytes r.line) → rs = qs) ∧
    (∀ r q : Report, bytes r.line = bytes q.line → r = q) ∧
    ∀ (r : Report) (room : Nat), (r.lineWithin? room).map bytes =
      if (bytes r.line).length ≤ room then some (bytes r.line) else none := by
  have hlines : ∀ rs : List Report, (rs.flatMap fun r => bytes r.line) = bytes (rs.flatMap line) := by
    intro rs
    rw [bytes, List.flatMap_assoc]
    rfl
  refine ⟨fun r => ⟨bytes_line r, fun b => Text.le_of_mem_bytes r.printed_text⟩, splitOn_lines,
    fun rs qs h => ?_, fun r q h => ?_, fun r room => ?_⟩
  · rw [hlines, hlines] at h
    exact lines_inj (Text.bytes_inj h)
  · have hline := Text.bytes_inj h
    exact (line_append_inj (congrArg (· ++ []) hline)).1
  · rw [lineWithin?_eq, Text.length_bytes]
    split <;> rfl

end Report

end AirSurvey

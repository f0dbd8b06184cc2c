import AirSurvey.Radio.MacAddress
import AirSurvey.Report.Value
import Mathlib.Data.List.Basic

set_option autoImplicit false

/-!
Where written text ends. A value written before text that does not go on with a digit tells both
the value and the text behind it, so what is put together from such pieces comes apart again. Text
that others choose stays between its quotes, since no escape of a character starts another and none
starts with a quote.
-/

namespace AirSurvey

namespace Text

def escaped : List Char := '"' :: '\\' :: (List.range 32).map Char.ofNat

theorem mem_escaped_of_lt {c : Char} (h : c.toNat < 32) : c ∈ escaped := by
  have hc : Char.ofNat c.toNat ∈ (List.range 32).map Char.ofNat :=
    List.mem_map_of_mem (List.mem_range.2 h)
  rw [Char.ofNat_toNat] at hc
  exact List.mem_cons_of_mem _ (List.mem_cons_of_mem _ hc)

theorem escape_of_notMem {c : Char} (h : c ∉ escaped) : escape c = [c] := by
  have hlow : ¬c.toNat < 32 := fun hc => h (mem_escaped_of_lt hc)
  have hquote : ¬(c = '"' ∨ c = '\\') := by
    rintro (rfl | rfl) <;> exact h (by decide)
  have hletter : controlLetter? c = none := by
    unfold controlLetter?
    split <;> first | omega | rfl
  rw [escape, if_neg hquote, hletter]
  exact if_neg hlow

theorem head?_escape_of_mem {c : Char} (h : c ∈ escaped) : (escape c).head? = some '\\' := by
  have hcodes : (escaped.all fun c => (escape c).head? == some '\\') = true := by decide
  exact beq_iff_eq.1 (List.all_eq_true.1 hcodes c h)

theorem escape_prefix_inj {c d : Char} (h : escape c <+: escape d) : c = d := by
  have hslash : '\\' ∈ escaped := by decide
  by_cases hc : c ∈ escaped
  · by_cases hd : d ∈ escaped
    · have hcodes : (escaped.all fun x => escaped.all fun y =>
          !(escape x).isPrefixOf (escape y) || x == y) = true := by
        decide +kernel
      have hcode := List.all_eq_true.1 (List.all_eq_true.1 hcodes c hc) d hd
      rw [List.isPrefixOf_iff_prefix.2 h] at hcode
      exact beq_iff_eq.1 hcode
    · obtain ⟨s, hs⟩ := h
      have hhead := congrArg List.head? hs
      rw [List.head?_append, head?_escape_of_mem hc, escape_of_notMem hd] at hhead
      obtain rfl : '\\' = d := by simpa using hhead
      exact absurd hslash hd
  · rw [escape_of_notMem hc] at h
    by_cases hd : d ∈ escaped
    · obtain ⟨s, hs⟩ := h
      have hhead := congrArg List.head? hs
      rw [head?_escape_of_mem hd] at hhead
      obtain rfl : c = '\\' := by simpa using hhead
      exact absurd hslash hc
    · rw [escape_of_notMem hd] at h
      simpa using h

theorem escape_append_inj {c d : Char} {s t : List Char} (h : escape c ++ s = escape d ++ t) :
    c = d ∧ s = t := by
  have hc : escape c <+: escape d ++ t := ⟨s, h⟩
  obtain rfl : c = d := by
    rcases List.prefix_or_prefix_of_prefix hc (List.prefix_append _ _) with hcd | hdc
    · exact escape_prefix_inj hcd
    · exact (escape_prefix_inj hdc).symm
  exact ⟨rfl, List.append_cancel_left h⟩

theorem escape_append_ne_quote (c : Char) (s t : List Char) : escape c ++ s ≠ '"' :: t := by
  intro h
  by_cases hc : c ∈ escaped
  · have hhead := congrArg List.head? h
    rw [List.head?_append, head?_escape_of_mem hc] at hhead
    simp at hhead
  · rw [escape_of_notMem hc] at h
    obtain rfl : c = '"' := (List.cons.inj h).1
    exact hc (by decide)

theorem le_of_mem_escape {c d : Char} (h : d ∈ escape c) : 32 ≤ d.toNat := by
  by_cases hc : c ∈ escaped
  · have hcodes : (escaped.all fun x => (escape x).all fun y => 32 ≤ y.toNat) = true := by decide
    exact of_decide_eq_true (List.all_eq_true.1 (List.all_eq_true.1 hcodes c hc) d h)
  · rw [escape_of_notMem hc, List.mem_singleton] at h
    subst h
    exact Nat.le_of_not_lt fun hlow => hc (mem_escaped_of_lt hlow)

theorem hexDigit_inj {m n : Nat} (hm : m < 16) (hn : n < 16) (h : hexDigit m = hexDigit n) :
    m = n := by
  have hdigits : ∀ m < 16, ∀ n < 16, hexDigit m = hexDigit n → m = n := by decide
  exact hdigits m hm n hn h

theorem hexByte_inj {a b : UInt8} (h : hexByte a = hexByte b) : a = b := by
  have ha := a.toNat_lt
  have hb := b.toNat_lt
  simp only [hexByte, List.cons.injEq, and_true] at h
  have hhigh := hexDigit_inj (by omega) (by omega) h.1
  have hlow := hexDigit_inj (by omega) (by omega) h.2
  exact UInt8.toNat_inj.1 (by omega)

def NoDigit (s : List Char) : Prop := ∀ c ∈ s.head?, c.isDigit = false

theorem noDigit_cons {c : Char} (h : c.isDigit = false) (s : List Char) : NoDigit (c :: s) := by
  intro d hd
  obtain rfl : c = d := Option.some.inj hd
  exact h

/-- Whatever follows, but for a digit, what was written and what follows can be told. -/
def Framed {α : Type} (write : α → List Char) : Prop :=
  ∀ ⦃x y s t⦄, NoDigit s → NoDigit t → write x ++ s = write y ++ t → x = y ∧ s = t

theorem quoted_append (s t : List Char) :
    quoted s ++ t = '"' :: (s.flatMap escape ++ '"' :: t) := by
  simp [quoted]

theorem quoted_framed : Framed quoted := by
  intro x y s t _ _ h
  rw [quoted_append, quoted_append] at h
  replace h := (List.cons.inj h).2
  induction x generalizing y with
  | nil =>
    cases y with
    | nil => exact ⟨rfl, (List.cons.inj h).2⟩
    | cons d y =>
      rw [List.flatMap_cons, List.append_assoc] at h
      exact absurd h.symm (escape_append_ne_quote d _ _)
  | cons c x ih =>
    rw [List.flatMap_cons, List.append_assoc] at h
    cases y with
    | nil => exact absurd h (escape_append_ne_quote c _ _)
    | cons d y =>
      rw [List.flatMap_cons, List.append_assoc] at h
      obtain ⟨rfl, hrest⟩ := escape_append_inj h
      obtain ⟨rfl, hst⟩ := ih hrest
      exact ⟨rfl, hst⟩

end Text

theorem MacAddress.chars_inj {m n : MacAddress} (h : m.chars = n.chars) : m = n := by
  have hbytes : Text.hexByte m.a = Text.hexByte n.a ∧ Text.hexByte m.b = Text.hexByte n.b ∧
      Text.hexByte m.c = Text.hexByte n.c ∧ Text.hexByte m.d = Text.hexByte n.d ∧
      Text.hexByte m.e = Text.hexByte n.e ∧ Text.hexByte m.f = Text.hexByte n.f := by
    simpa [chars, octets, Text.hexByte, List.intercalate, and_assoc] using h
  obtain ⟨ha, hb, hc, hd, he, hf⟩ := hbytes
  cases m
  cases n
  simp only [MacAddress.mk.injEq]
  exact ⟨Text.hexByte_inj ha, Text.hexByte_inj hb, Text.hexByte_inj hc, Text.hexByte_inj hd,
    Text.hexByte_inj he, Text.hexByte_inj hf⟩

namespace Report

open Text (Framed NoDigit noDigit_cons quoted quoted_framed)

theorem isDigit_of_mem_decimal {c : Char} {n : Nat} (h : c ∈ decimal n) : c.isDigit = true :=
  Nat.isDigit_of_mem_toDigits (by decide) (by decide) h

theorem decimal_append_ne {c : Char} (hc : c.isDigit = false) (n : Nat) (s t : List Char) :
    decimal n ++ s ≠ c :: t := by
  intro h
  obtain ⟨d, r, hd⟩ := List.exists_cons_of_ne_nil (Nat.toDigits_ne_nil (n := n) (b := 10))
  have hdigit : d.isDigit = true := isDigit_of_mem_decimal (by rw [decimal, hd]; exact .head r)
  rw [decimal, hd] at h
  obtain rfl : d = c := (List.cons.inj h).1
  rw [hdigit] at hc
  exact absurd hc (by decide)

theorem decimal_framed : Framed decimal := by
  intro m n s t hs ht h
  -- the digits of the number are all the digits in front
  have hdigits : ∀ (k : Nat) (r : List Char), NoDigit r →
      (decimal k ++ r).takeWhile Char.isDigit = decimal k := by
    intro k r hr
    rw [List.takeWhile_append_of_pos fun c hc => isDigit_of_mem_decimal hc]
    cases r with
    | nil => rw [List.takeWhile_nil, List.append_nil]
    | cons c r => rw [List.takeWhile_cons_of_neg (by simp [hr c rfl]), List.append_nil]
  have hmn : decimal m = decimal n := by
    rw [← hdigits m s hs, h, hdigits n t ht]
  obtain rfl : m = n := by
    rw [← Nat.ofDigitChars_ten_toDigits (n := m), ← Nat.ofDigitChars_ten_toDigits (n := n)]
    exact congrArg (fun ds => Nat.ofDigitChars 10 ds 0) hmn
  exact ⟨rfl, List.append_cancel_left h⟩

theorem signedDecimal_framed : Framed signedDecimal := by
  have hminus : '-'.isDigit = false := by decide
  intro m n s t hs ht h
  cases m with
  | ofNat m =>
    cases n with
    | ofNat n =>
      obtain ⟨rfl, hst⟩ := decimal_framed hs ht h
      exact ⟨rfl, hst⟩
    | negSucc n => exact absurd h (decimal_append_ne hminus m s _)
  | negSucc m =>
    cases n with
    | ofNat n => exact absurd h.symm (decimal_append_ne hminus n t _)
    | negSucc n =>
      obtain ⟨hmn, hst⟩ := decimal_framed hs ht (List.cons.inj h).2
      obtain rfl : m = n := Nat.succ.inj hmn
      exact ⟨rfl, hst⟩

theorem flagChars_framed : Framed flagChars := by
  intro b b' s t _ _ h
  cases b <;> cases b' <;> simp_all [flagChars]

theorem field_framed {β : Type} {write : β → List Char} (hwrite : Framed write) :
    Framed fun x : String × β => field x.1 (write x.2) := by
  intro x y s t hs ht h
  simp only [field, List.append_assoc, List.cons_append] at h
  have hcolon : ∀ r, NoDigit (':' :: r) := noDigit_cons (by decide)
  obtain ⟨hname, hvalue⟩ := quoted_framed (hcolon _) (hcolon _) h
  obtain ⟨hvalue, hst⟩ := hwrite hs ht (List.cons.inj hvalue).2
  exact ⟨Prod.ext (String.toList_inj.1 hname) hvalue, hst⟩

theorem field_append_ne (name : String) (value s t : List Char) :
    field name value ++ s ≠ '\x7d' :: t := by
  intro h
  rw [field, List.append_assoc, Text.quoted_append] at h
  exact absurd (List.cons.inj h).1 (by decide)

theorem commas_cons (s : List Char) (parts : List (List Char)) :
    [','].intercalate (s :: parts) = s ++ parts.flatMap fun r => ',' :: r := by
  induction parts generalizing s with
  | nil => simp [List.intercalate_singleton]
  | cons r parts ih =>
    rw [List.intercalate_cons_cons, ih, List.flatMap_cons]
    simp

/-- Parts with commas between them end where the bracket closes: no part starts with it, and
nothing before it but a part has no comma in front. -/
theorem commas_framed {α : Type} {write : α → List Char} (hwrite : Framed write) (close : Char)
    (hclose : close ≠ ',' ∧ close.isDigit = false)
    (hstart : ∀ x s t, write x ++ s ≠ close :: t) :
    Framed fun xs : List α => [','].intercalate (xs.map write) ++ [close] := by
  have hnext : ∀ (xs : List α) r, NoDigit (xs.flatMap (fun x => ',' :: write x) ++ close :: r) := by
    intro xs r
    cases xs with
    | nil => exact noDigit_cons hclose.2 r
    | cons x xs => exact noDigit_cons (by decide) _
  have htail : ∀ (xs ys : List α) (s t : List Char),
      xs.flatMap (fun x => ',' :: write x) ++ close :: s =
        ys.flatMap (fun y => ',' :: write y) ++ close :: t → xs = ys ∧ s = t := by
    intro xs
    induction xs with
    | nil =>
      intro ys s t h
      cases ys with
      | nil => exact ⟨rfl, (List.cons.inj h).2⟩
      | cons y ys => exact absurd (List.cons.inj h).1 hclose.1
    | cons x xs ih =>
      intro ys s t h
      cases ys with
      | nil => exact absurd (List.cons.inj h).1.symm hclose.1
      | cons y ys =>
        rw [List.flatMap_cons, List.flatMap_cons, List.append_assoc, List.append_assoc] at h
        obtain ⟨rfl, hrest⟩ := hwrite (hnext xs s) (hnext ys t) (List.cons.inj h).2
        obtain ⟨rfl, hst⟩ := ih ys s t hrest
        exact ⟨rfl, hst⟩
  have hparts : ∀ (x : α) (xs : List α) (s : List Char),
      [','].intercalate ((x :: xs).map write) ++ [close] ++ s =
        write x ++ (xs.flatMap (fun x => ',' :: write x) ++ close :: s) := by
    intro x xs s
    rw [List.map_cons, commas_cons, List.flatMap_map]
    simp
  intro xs ys s t _ _ h
  cases xs with
  | nil =>
    cases ys with
    | nil => exact ⟨rfl, (List.cons.inj h).2⟩
    | cons y ys =>
      rw [hparts] at h
      exact absurd h.symm (hstart y _ _)
  | cons x xs =>
    rw [hparts] at h
    cases ys with
    | nil => exact absurd h (hstart x _ _)
    | cons y ys =>
      rw [hparts] at h
      obtain ⟨rfl, hrest⟩ := hwrite (hnext xs s) (hnext ys t) h
      obtain ⟨rfl, hst⟩ := htail xs ys s t hrest
      exact ⟨rfl, hst⟩

theorem object_framed {β : Type} {write : β → List Char} (hwrite : Framed write) :
    Framed fun xs : List (String × β) => object (xs.map fun x => (x.1, write x.2)) := by
  have hfields := commas_framed (field_framed hwrite) '\x7d' (by decide)
    fun x => field_append_ne x.1 (write x.2)
  intro xs ys s t hs ht h
  simp only [object, List.map_map, List.cons_append] at h
  exact hfields hs ht (List.cons.inj h).2

/-- A character in front of a value, with the sign and the digits taken as one and the letters of
the two flags as one. -/
def leader (c : Char) : Char :=
  if c = '-' || c.isDigit then '0' else if c = 'f' then 't' else c

def Value.leader : Value → Char
  | .text _ => '"'
  | .number _ => '0'
  | .flag _ => 't'
  | .numbers _ => '['
  | .flags _ => '\x7b'

theorem Value.exists_leader (v : Value) :
    ∃ c r, v.chars = c :: r ∧ Report.leader c = v.leader := by
  cases v with
  | text s => exact ⟨'"', _, rfl, rfl⟩
  | number n =>
    cases n with
    | ofNat n =>
      obtain ⟨c, r, hc⟩ := List.exists_cons_of_ne_nil (Nat.toDigits_ne_nil (n := n) (b := 10))
      have hdigit : c.isDigit = true := isDigit_of_mem_decimal (n := n) (by
        rw [decimal, hc]
        exact .head r)
      exact ⟨c, r, hc, by simp [Report.leader, leader, hdigit]⟩
    | negSucc n => exact ⟨'-', _, rfl, rfl⟩
  | flag b => cases b <;> exact ⟨_, _, rfl, rfl⟩
  | numbers ns => exact ⟨'[', _, rfl, rfl⟩
  | flags fs => exact ⟨'\x7b', _, rfl, rfl⟩

theorem Value.leader_eq {v w : Value} {s t : List Char} (h : v.chars ++ s = w.chars ++ t) :
    v.leader = w.leader := by
  obtain ⟨c, r, hv, hc⟩ := v.exists_leader
  obtain ⟨d, q, hw, hd⟩ := w.exists_leader
  rw [hv, hw] at h
  rw [← hc, ← hd, (List.cons.inj h).1]

theorem Value.chars_framed : Framed Value.chars := by
  intro v w s t hs ht h
  have hleader := leader_eq h
  cases v with
  | text x =>
    cases w with
    | text y =>
      obtain ⟨rfl, hst⟩ := quoted_framed hs ht h
      exact ⟨rfl, hst⟩
    | _ => exact absurd hleader (by simp [leader])
  | number m =>
    cases w with
    | number n =>
      obtain ⟨rfl, hst⟩ := signedDecimal_framed hs ht h
      exact ⟨rfl, hst⟩
    | _ => exact absurd hleader (by simp [leader])
  | flag b =>
    cases w with
    | flag b' =>
      obtain ⟨rfl, hst⟩ := flagChars_framed hs ht h
      exact ⟨rfl, hst⟩
    | _ => exact absurd hleader (by simp [leader])
  | numbers ms =>
    cases w with
    | numbers ns =>
      have hlist := commas_framed decimal_framed ']' (by decide)
        (decimal_append_ne (by decide))
      obtain ⟨rfl, hst⟩ := hlist hs ht (List.cons.inj h).2
      exact ⟨rfl, hst⟩
    | _ => exact absurd hleader (by simp [leader])
  | flags fs =>
    cases w with
    | flags gs =>
      obtain ⟨rfl, hst⟩ := object_framed flagChars_framed hs ht h
      exact ⟨rfl, hst⟩
    | _ => exact absurd hleader (by simp [leader])

end Report

end AirSurvey

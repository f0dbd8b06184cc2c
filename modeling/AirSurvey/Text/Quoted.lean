import AirSurvey.Text.Hex

set_option autoImplicit false

/-!
Quoted text in JSON. A quote and a backslash follow a backslash, five control characters have
letters of their own, and the other control characters are written by number.
-/

namespace AirSurvey.Text

def controlLetter? (c : Char) : Option Char :=
  match c.toNat with
  | 8 => some 'b'
  | 9 => some 't'
  | 10 => some 'n'
  | 12 => some 'f'
  | 13 => some 'r'
  | _ => none

def escape (c : Char) : List Char :=
  if c = '"' ∨ c = '\\' then ['\\', c]
  else match controlLetter? c with
    | some letter => ['\\', letter]
    | none => if c.toNat < 32 then ['\\', 'u', '0', '0'] ++ hexByte c.toNat.toUInt8 else [c]

def quoted (s : List Char) : List Char := '"' :: s.flatMap escape ++ ['"']

end AirSurvey.Text

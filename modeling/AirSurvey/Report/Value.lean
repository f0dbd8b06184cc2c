import AirSurvey.Text.Quoted

set_option autoImplicit false

/-!
The values that reports hold and how JSON writes them, without spaces.
-/

namespace AirSurvey.Report

inductive Value where
  | text (s : List Char)
  | number (n : Int)
  | flag (b : Bool)
  | numbers (ns : List Nat)
  | flags (fs : List (String × Bool))
  deriving DecidableEq

def decimal (n : Nat) : List Char := Nat.toDigits 10 n

def signedDecimal : Int → List Char
  | .ofNat n => decimal n
  | .negSucc n => '-' :: decimal (n + 1)

def flagChars (b : Bool) : List Char := (if b then "true" else "false").toList

def field (name : String) (value : List Char) : List Char :=
  Text.quoted name.toList ++ ':' :: value

def object (fields : List (String × List Char)) : List Char :=
  '\x7b' :: [','].intercalate (fields.map fun (name, value) => field name value) ++ ['\x7d']

def Value.chars : Value → List Char
  | .text s => Text.quoted s
  | .number n => signedDecimal n
  | .flag b => flagChars b
  | .numbers ns => '[' :: [','].intercalate (ns.map decimal) ++ [']']
  | .flags fs => object (fs.map fun (name, b) => (name, flagChars b))

end AirSurvey.Report

/-! Whole numbers and truth values written as text.

Only the ten ASCII digits count as digits, leading zeros are allowed, and neither blanks nor
separators are.
-/

set_option autoImplicit false

namespace Collections.Text

def readDigits : List Char → Option Nat
  | [] => none
  | digits@(_ :: _) =>
    if digits.all Char.isDigit then
      some (digits.foldl (fun value digit => value * 10 + (digit.toNat - '0'.toNat)) 0)
    else none

def readNatural (limit : Nat) (text : String) : Option Nat :=
  let digits := match text.toList with
    | '+' :: digits => digits
    | digits => digits
  (readDigits digits).filter (· ≤ limit)

def readInteger (low high : Int) (text : String) : Option Int :=
  let value : Option Int := match text.toList with
    | '+' :: digits => (readDigits digits).map Int.ofNat
    | '-' :: digits => (readDigits digits).map fun magnitude => -(Int.ofNat magnitude)
    | digits => (readDigits digits).map Int.ofNat
  value.filter fun number => low ≤ number && number ≤ high

def readBool (text : String) : Option Bool :=
  if text = "true" then some true
  else if text = "false" then some false
  else none

/-- Whether a text switches something on: `true`, `1`, `yes` or `on`, in any case of the letters. -/
def isAffirmative (text : String) : Bool :=
  ["true", "1", "yes", "on"].contains (text.map Char.toLower)

end Collections.Text

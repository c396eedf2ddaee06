/-! Text literals: a text between double quotes, in which quotes, backslashes and control characters
are written as escapes.
-/

set_option autoImplicit false

namespace Collections.Text

def hexDigits (code : Nat) : String :=
  String.ofList (Nat.toDigits 16 code)

/-- Characters that have no printed form of their own. -/
def isControl (character : Char) : Bool :=
  character.toNat < 32 || (127 ≤ character.toNat && character.toNat < 160)

def escape (character : Char) : String :=
  if character = '"' then "\\\""
  else if character = '\\' then "\\\\"
  else if character = '\n' then "\\n"
  else if character = '\r' then "\\r"
  else if character = '\t' then "\\t"
  else if character = '\x00' then "\\0"
  else if isControl character then "\\u\x7b" ++ hexDigits character.toNat ++ "\x7d"
  else String.singleton character

def quote (text : String) : String :=
  "\"" ++ String.join (text.toList.map escape) ++ "\""

end Collections.Text

import Collections.Settings.Basic
import Collections.Text.Numeral

/-! Settings taken from environment variables. A variable that is unset, or does not read as a value,
leaves the usual value in place.
-/

set_option autoImplicit false

namespace Collections

namespace Environment

variable {ν : Type}

def valueOr (read : String → Option ν) (variableText : Option String) (default : ν) : ν :=
  (variableText.bind read).getD default

/-- The flag of a variable; a text that does not switch it on switches it off. -/
def flagOr (variableText : Option String) (default : Bool) : Bool :=
  (variableText.map Text.isAffirmative).getD default

end Environment

namespace Settings

def environmentStart : String := "BAGWORKS_"

def maxValue : Nat := 0xffff_ffff_ffff_ffff

/-- The usual settings with the values that the environment gives, unless these are refused. -/
def ofEnvironment (σ : Type) [Settings σ] (lookup : String → Option String) (start : String) :
    Except Error σ :=
  let values := (fields σ).zipWith
    (fun field default =>
      Environment.valueOr (Text.readNatural maxValue) (lookup (start ++ field.environment)) default)
    (values (usual : σ))
  checked ((ofValues values).getD usual)

end Settings

end Collections

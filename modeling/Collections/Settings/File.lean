import Collections.Settings.Environment
import Collections.Text.Document

/-! Settings kept in a file, as a JSON record of their fields. -/

set_option autoImplicit false

namespace Collections.Settings

variable {σ : Type} [Settings σ]

def written (settings : σ) : String :=
  let lines := (fields σ).zipWith
    (fun field value => "  " ++ Text.quote field.name ++ ": " ++ toString value) (values settings)
  "\x7b\n" ++ ",\n".intercalate lines ++ "\n\x7d"

def valueOf : Document → Option Nat
  | .number natural => natural.filter (· ≤ maxValue)
  | _ => none

def memberValue (members : List (Option String × Document)) (field : Field) : Option Nat :=
  match members.filter fun member => member.1 == some field.name with
  | [member] => valueOf member.2
  | _ => none

/-- The settings of a document: a record that has each field once, and maybe other members under
proper names, or a list of exactly the fields. -/
def ofDocument (σ : Type) [Settings σ] : Document → Option σ
  | .record members =>
    if members.all fun member => member.1.isSome then
      (fields σ).mapM (memberValue members) >>= ofValues
    else none
  | .list items => items.mapM valueOf >>= ofValues
  | _ => none

def ofText (σ : Type) [Settings σ] (text : String) : Except Error σ :=
  match Document.read text >>= ofDocument σ with
  | none => .error (.malformed (subject σ))
  | some settings => checked settings

def load (σ : Type) [Settings σ] (content : Option ByteArray) : Except Error σ :=
  match content >>= String.fromUTF8? with
  | none => .error (.unreadable (subject σ))
  | some text => ofText σ text

/-- The content of the file in which settings are saved, provided that the file can be written. They
are not checked before. -/
def save (settings : σ) (writable : Bool) : Except Error String :=
  if writable then .ok (written settings) else .error (.unwritable (subject σ))

end Collections.Settings

import Collections.Entries.Basic

/-! Written forms of a bag's entries. -/

set_option autoImplicit false

namespace Collections.Entries

variable {α : Type}

def braced (parts : List String) : String :=
  "\x7b" ++ ", ".intercalate parts ++ "\x7d"

def pairText (render : α → String) (item : α) (count : Int) : String :=
  s!"{render item}:{count}"

def pairInspect (literal : α → String) (item : α) (count : Int) : String :=
  s!"ObjectCountPair \x7b item: {literal item}, count: {count} \x7d"

def text (render : α → String) (entries : Entries α) : String :=
  braced (entries.map fun entry => s!"{render entry.1}={entry.2}")

def inspect (literal : α → String) (entries : Entries α) : String :=
  braced (entries.map fun entry => s!"{literal entry.1}: {entry.2}")

end Collections.Entries

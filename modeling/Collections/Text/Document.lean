import Collections.Keyed
import Collections.Text.Numeral

/-! JSON documents: null, truth values, numbers, texts, lists and records.

A number keeps its value only when it is written with digits alone. A text may hold escapes that do
not add up to characters; it is then a text without content.
-/

set_option autoImplicit false

namespace Collections

inductive Document where
  | null
  | bool (value : Bool)
  | number (natural : Option Nat)
  | text (content : Option String)
  | list (items : List Document)
  | record (members : List (Option String × Document))

namespace Document

def isBlank (character : Char) : Bool :=
  [' ', '\t', '\n', '\r'].contains character

def skipBlanks (text : List Char) : List Char :=
  text.dropWhile isBlank

/-! ## Texts -/

def hexUnit (digits : List Char) : Option Nat :=
  digits.foldlM
    (fun unit digit =>
      let code := digit.toNat
      if digit.isDigit then some (unit * 16 + (code - '0'.toNat))
      else if 'a' ≤ digit ∧ digit ≤ 'f' then some (unit * 16 + (code - 'a'.toNat + 10))
      else if 'A' ≤ digit ∧ digit ≤ 'F' then some (unit * 16 + (code - 'A'.toNat + 10))
      else none)
    0

def escapedUnit (letter : Char) : Option Nat :=
  (Keyed.valueOf? [('"', '"'), ('\\', '\\'), ('/', '/'), ('b', '\x08'), ('f', '\x0c'), ('n', '\n'),
    ('r', '\r'), ('t', '\t')] letter).map Char.toNat

def readUnits : List Char → Option (List Nat × List Char)
  | [] => none
  | character :: rest =>
    if character = '"' then some ([], rest)
    else if character = '\\' then
      match rest with
      | [] => none
      | 'u' :: first :: second :: third :: fourth :: rest => do
        let unit ← hexUnit [first, second, third, fourth]
        let (units, rest) ← readUnits rest
        some (unit :: units, rest)
      | letter :: rest => do
        let unit ← escapedUnit letter
        let (units, rest) ← readUnits rest
        some (unit :: units, rest)
    else if character.toNat < 32 then none
    else (readUnits rest).map fun (units, rest) => (character.toNat :: units, rest)

/-- The characters of a row of units. The first half of a character that takes two units must be
followed by a second half, and a second half must follow a first one. -/
def decodeUnits : List Nat → Option (List Char)
  | [] => some []
  | unit :: rest =>
    if 0xD800 ≤ unit ∧ unit < 0xDC00 then
      match rest with
      | second :: rest =>
        if 0xDC00 ≤ second ∧ second < 0xE000 then
          (decodeUnits rest).map fun characters =>
            Char.ofNat (0x10000 + (unit - 0xD800) * 0x400 + (second - 0xDC00)) :: characters
        else none
      | [] => none
    else if 0xDC00 ≤ unit ∧ unit < 0xE000 then none
    else (decodeUnits rest).map (Char.ofNat unit :: ·)

def readText (text : List Char) : Option (Option String × List Char) :=
  (readUnits text).map fun (units, rest) => ((decodeUnits units).map String.ofList, rest)

/-! ## Numbers -/

def readRow (text : List Char) : Option (List Char × List Char) :=
  let digits := text.takeWhile Char.isDigit
  if digits.isEmpty then none else some (digits, text.dropWhile Char.isDigit)

/-- Digits without a needless zero at the front, and what follows them. -/
def readWhole (text : List Char) : Option (Option Nat × List Char) :=
  match text with
  | '0' :: rest => some (some 0, rest)
  | digits => (readRow digits).map fun (digits, rest) => (Text.readDigits digits, rest)

def skipFraction : List Char → Option (List Char)
  | '.' :: rest => (readRow rest).map Prod.snd
  | rest => some rest

def skipExponent : List Char → Option (List Char)
  | [] => some []
  | mark :: rest =>
    if mark = 'e' ∨ mark = 'E' then
      match rest with
      | '+' :: rest | '-' :: rest => (readRow rest).map Prod.snd
      | rest => (readRow rest).map Prod.snd
    else some (mark :: rest)

def readNumber (text : List Char) : Option (Option Nat × List Char) := do
  let (signed, unsignedText) := match text with
    | '-' :: rest => (true, rest)
    | rest => (false, rest)
  let (natural, afterWhole) ← readWhole unsignedText
  let rest ← skipFraction afterWhole >>= skipExponent
  -- A sign, a fraction or an exponent makes it a number no setting can have, also where its value is
  -- a natural number.
  some (if signed ∨ rest.length ≠ afterWhole.length then none else natural, rest)

/-! ## Values -/

variable {β : Type}

/-- Items between commas up to the closing mark; there is at least one of them, and no more than the
bound. -/
def readItems (close : Char) (item : List Char → Option (β × List Char)) :
    Nat → List Char → Option (List β × List Char)
  | 0, _ => none
  | bound + 1, source => do
    let (first, rest) ← item source
    match skipBlanks rest with
    | [] => none
    | mark :: rest =>
      if mark = close then some ([first], rest)
      else if mark = ',' then
        (readItems close item bound rest).map fun (items, rest) => (first :: items, rest)
      else none

def readSequence (close : Char) (item : List Char → Option (β × List Char)) (bound : Nat)
    (text : List Char) : Option (List β × List Char) :=
  match skipBlanks text with
  | [] => none
  | mark :: rest =>
    if mark = close then some ([], rest) else readItems close item bound (mark :: rest)

def readMember (value : List Char → Option (β × List Char)) (text : List Char) :
    Option ((Option String × β) × List Char) :=
  match skipBlanks text with
  | '"' :: rest => do
    let (name, rest) ← readText rest
    match skipBlanks rest with
    | ':' :: rest => (value rest).map fun (content, rest) => ((name, content), rest)
    | _ => none
  | _ => none

/-- A value that is shorter than the bound, and what follows it. What is left of the text inside a list
or a record is shorter by its opening mark, and each of its items takes a character. -/
def readValue : Nat → List Char → Option (Document × List Char)
  | 0, _ => none
  | bound + 1, source =>
    match skipBlanks source with
    | 'n' :: 'u' :: 'l' :: 'l' :: rest => some (.null, rest)
    | 't' :: 'r' :: 'u' :: 'e' :: rest => some (.bool true, rest)
    | 'f' :: 'a' :: 'l' :: 's' :: 'e' :: rest => some (.bool false, rest)
    | '"' :: rest => (readText rest).map fun (content, rest) => (.text content, rest)
    | '[' :: rest =>
      (readSequence ']' (readValue bound) bound rest).map fun (items, rest) => (.list items, rest)
    | '\x7b' :: rest =>
      (readSequence '\x7d' (readMember (readValue bound)) bound rest).map fun (members, rest) =>
        (.record members, rest)
    | rest => (readNumber rest).map fun (natural, rest) => (.number natural, rest)

def read (text : String) : Option Document :=
  match readValue (text.length + 1) text.toList with
  | some (document, rest) => if (skipBlanks rest).isEmpty then some document else none
  | none => none

end Document

end Collections

import Collections.SegmentedList.Basic

/-! Sections: shares of a segmented list that are read independently of each other.

Several segments are the sections themselves. A list of at most one segment is cut into runs of equal
length, of which the last takes what is left over.
-/

set_option autoImplicit false

namespace Collections.SegmentedList

variable {α : Type}

/-- How many sections a list offers when a section should hold about this many elements. -/
def sectionCount (list : SegmentedList α) (elements : Nat) : Nat :=
  match list.segments with
  | segments@(_ :: _ :: _) => segments.length
  | _ => max (list.size / elements) 1

def run (segment : List α) (number count : Nat) : List α :=
  let length := segment.length / count
  let rest := segment.drop (number * length)
  if number = count - 1 then rest else rest.take length

def readSection (list : SegmentedList α) (number count : Nat) : Except Error (List α) :=
  if count = 0 then .error .noSections
  else do
    checkBounds number count
    match list.segments with
    | [] => .ok []
    | [segment] => .ok (run segment number count)
    | segments@(_ :: _ :: _) =>
      if count = segments.length then .ok (segments[number]?.getD [])
      else .error (.sectionMismatch count segments.length)

end Collections.SegmentedList

import Collections.Text.Quoted

/-! Refusals, one constructor for each kind, and the wording of every cause the library knows.

Tasks and strategies supplied by a caller may refuse with a text of their own.
-/

set_option autoImplicit false

namespace Collections

inductive Error where
  | invalidArgument (reason : String)
  | outOfBounds (index size : Nat)
  | illegalState (reason : String)
  | notSupported (operation : String)
  | noSuchElement (reason : String)
  | execution (reason : String)
  | configuration (reason : String)
  deriving DecidableEq

namespace Error

def message : Error → String
  | .invalidArgument reason => s!"Invalid argument: {reason}"
  | .outOfBounds index size => s!"Out of bounds: index {index}, size {size}"
  | .illegalState reason => s!"Illegal state: {reason}"
  | .notSupported operation => s!"Unsupported operation: {operation}"
  | .noSuchElement reason => s!"No such element: {reason}"
  | .execution reason => s!"Execution failed: {reason}"
  | .configuration reason => s!"Invalid configuration: {reason}"

def kind : Error → String
  | .invalidArgument _ => "InvalidArgument"
  | .outOfBounds _ _ => "OutOfBounds"
  | .illegalState _ => "IllegalState"
  | .notSupported _ => "NotSupported"
  | .noSuchElement _ => "NoSuchElement"
  | .execution _ => "Execution"
  | .configuration _ => "Configuration"

def category : Error → String
  | .invalidArgument _ => "argument"
  | .outOfBounds _ _ => "bounds"
  | .illegalState _ => "state"
  | .notSupported _ => "unsupported"
  | .noSuchElement _ => "exhausted"
  | .execution _ => "execution"
  | .configuration _ => "config"

/-- Only a failed execution depends on something outside the call, so only there can a second
attempt at the same call succeed. -/
def isRecoverable : Error → Bool
  | .execution _ => true
  | _ => false

def inspect (error : Error) : String :=
  let fields := match error with
    | .outOfBounds index size => s!"index: {index}, size: {size}"
    | .notSupported operation => s!"operation: {Text.quote operation}"
    | .invalidArgument reason | .illegalState reason | .noSuchElement reason
    | .execution reason | .configuration reason => s!"message: {Text.quote reason}"
  s!"{error.kind} \x7b {fields} \x7d"

/-! ## Causes -/

def negativeOccurrences (amount : Int) : Error :=
  .invalidArgument s!"occurrences must be non-negative, got {amount}"

def occurrenceOverflow : Error := .invalidArgument "occurrence count overflow"

def totalOverflow : Error := .invalidArgument "total occurrence count overflow"

def emptyBatches : Error := .invalidArgument "batch_size must be greater than 0"

def noSections : Error := .invalidArgument "section_count must be greater than 0"

def sectionMismatch (count segments : Nat) : Error :=
  .invalidArgument s!"section_count {count} does not match {segments} segments"

def readOnly (operation : String) : Error :=
  .notSupported s!"{operation} on an unmodifiable bag"

def fixedContent (operation : String) : Error :=
  .notSupported s!"{operation} on an immutable bag"

def nothingReturned : Error := .illegalState "remove() without a preceding next()"

def nothingRemembered (operation : String) : Error :=
  .illegalState s!"{operation}() requires a preceding next() or previous()"

def atEnd : Error := .noSuchElement "cursor is at the end"

def atStart : Error := .noSuchElement "cursor is at the start"

def batchCrashed (batch : Nat) (text : String) : Error :=
  .execution s!"batch {batch} panicked: {text}"

def excessCapacity (capacity limit : Nat) : Error :=
  .configuration s!"initial_capacity {capacity} exceeds maximum {limit}"

def noSegmentCapacity : Error :=
  .configuration "initial_segment_capacity must be greater than 0"

def noBatchSize : Error := .configuration "batch_size must be greater than 0"

def unreadable (subject : String) : Error := .configuration s!"Failed to read {subject} config file"

def malformed (subject : String) : Error := .configuration s!"Failed to parse {subject} config file"

def unwritable (subject : String) : Error :=
  .configuration s!"Failed to write {subject} config file"

end Error

def checkBounds (index size : Nat) : Except Error Unit :=
  if index < size then .ok () else .error (.outOfBounds index size)

/-- An index must be a place to insert at; the end is one. -/
def checkInsertBounds (index size : Nat) : Except Error Unit :=
  if index ≤ size then .ok () else .error (.outOfBounds index size)

def checkOccurrences (amount : Int) : Except Error Unit :=
  if amount < 0 then .error (.negativeOccurrences amount) else .ok ()

end Collections

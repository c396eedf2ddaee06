import Collections.Batch.Cut
import Collections.Batch.Executor
import Collections.Combination.Combiner
import Collections.Settings.Basic

/-! Batched reads: the entries of a bag are cut into batches, a task turns each batch into a part, and
a strategy combines the parts.

Batches are handed to the executor only when there are several of them and the bag has enough distinct
elements; otherwise they run in order on the spot. What was handed over is counted.
-/

set_option autoImplicit false

namespace Collections

/-- Where and how batches run, the calls that the executor got, and the batches that came with
them. -/
structure Batching where
  executor : Executor
  settings : BatchSettings
  calls : Nat
  batches : Nat
  deriving DecidableEq

/-- A read of a bag: the task that turns a batch into a part, and how the parts are combined. -/
structure BatchRead (α π ρ : Type) where
  strategy : Strategy π ρ
  task : Entries α → Outcome π

namespace Batching

variable {α π ρ σ : Type}

def checkSize (size : Nat) : Except Error Unit :=
  if size = 0 then .error .emptyBatches else .ok ()

def ofParts (executor : Executor) (settings : BatchSettings) : Batching :=
  ⟨executor, settings, 0, 0⟩

def make (executor : Executor) (settings : BatchSettings) : Except Error Batching := do
  checkSize settings.batchSize
  Settings.check settings
  .ok (ofParts executor settings)

def cut (batching : Batching) (entries : Entries α) : List (Entries α) :=
  batchesOf batching.settings.batchSize entries

def handsOver (batching : Batching) (entries : Entries α) : Bool :=
  1 < (batching.cut entries).length && batching.settings.minEntries ≤ entries.length

def counted (batching : Batching) (entries : Entries α) : Batching :=
  { batching with
    calls := batching.calls + 1
    batches := batching.batches + (batching.cut entries).length }

def combine (strategy : Strategy π ρ) (parts : List π) : Except Error ρ :=
  match (Combiner.start strategy).combineAll parts with
  | ⟨.ok (), combiner⟩ => .ok combiner.result
  | ⟨.error error, _⟩ => .error error

/-- Read a bag by its batches. The tasks share a state. -/
def dispatchBy (run : Executor.Runs) (batching : Batching) (entries : Entries α)
    (strategy : Strategy π ρ) (task : Entries α → σ → Outcome π × σ) (shared : σ) :
    Attempt (Batching × σ) ρ :=
  let left := if batching.handsOver entries then batching.counted entries else batching
  let ran := if batching.handsOver entries then run task (batching.cut entries) shared
    else Executor.runInOrder task (batching.cut entries) shared
  match ran with
  | ⟨.error error, shared⟩ => ⟨.error error, (left, shared)⟩
  | ⟨.ok parts, shared⟩ => ⟨combine strategy parts, (left, shared)⟩

def readBy (run : Executor.Runs) (batching : Batching) (entries : Entries α)
    (read : BatchRead α π ρ) : Attempt Batching ρ :=
  (batching.dispatchBy run entries read.strategy (fun batch shared => (read.task batch, shared))
    ()).within Prod.fst

def read (batching : Batching) (entries : Entries α) (read : BatchRead α π ρ) :
    Attempt Batching ρ :=
  batching.readBy batching.executor.run entries read

/-! ## Tasks -/

/-- Go through a batch entry by entry, up to the first step that does not end well. -/
def foldBatch (step : ρ → α × Nat → Outcome ρ) : ρ → Entries α → Outcome ρ
  | result, [] => .done result
  | result, entry :: rest => (step result entry).andThen fun next => foldBatch step next rest

def visitBatch (visitor : α × Nat → σ → Outcome Unit × σ) : Entries α → σ → Outcome Unit × σ
  | [], shared => (.done (), shared)
  | entry :: rest, shared =>
    match visitor entry shared with
    | (.done (), shared) => visitBatch visitor rest shared
    | (.failed error, shared) => (.failed error, shared)
    | (.crashed text, shared) => (.crashed text, shared)

def visit (batching : Batching) (entries : Entries α) (visitor : α × Nat → σ → Outcome Unit × σ)
    (shared : σ) : Attempt (Batching × σ) Unit :=
  batching.dispatchBy batching.executor.run entries .discard (visitBatch visitor) shared

end Batching

/-! ## Reads -/

namespace BatchRead

variable {α : Type}

def count (wanted : α → Outcome Bool) : BatchRead α Nat Nat where
  strategy := .fold 0 fun part sum => ⟨.ok (), sum + part⟩
  task := Batching.foldBatch
    (fun sum entry => (wanted entry.1).andThen fun chosen =>
      .done (if chosen then sum + entry.2 else sum))
    0

variable [DecidableEq α]

def select (wanted : α → Outcome Bool) : BatchRead α (Occurrences α) (Occurrences α) where
  strategy := .bag
  task := Batching.foldBatch
    (fun counts entry => (wanted entry.1).andThen fun chosen =>
      .done (if chosen then counts.insertClamped entry else counts))
    .empty

def selectByCount (wanted : Nat → Bool) : BatchRead α (Occurrences α) (Occurrences α) where
  strategy := .bag
  task batch := .done (.ofEntries (batch.filter fun entry => wanted entry.2))

def unique : BatchRead α (List α) (List α) where
  strategy := .fresh .distinct false
  task batch := .done (Entries.items (batch.filter fun entry => entry.2 == 1))

def duplicates : BatchRead α (Occurrences α) (Occurrences α) :=
  selectByCount (1 < ·)

def toMap : BatchRead α (Entries α) (Entries α) where
  strategy := .fresh .keyed false
  task batch := .done batch

def collect {κ : Type} [DecidableEq κ] (f : α → Outcome κ) :
    BatchRead α (Occurrences κ) (Occurrences κ) where
  strategy := .bag
  task := Batching.foldBatch
    (fun counts entry => (f entry.1).andThen fun value =>
      .done (counts.accumulate (value, entry.2)))
    .empty

end BatchRead

namespace Batching

variable {α : Type}

def count (batching : Batching) (entries : Entries α) (wanted : α → Outcome Bool) :
    Attempt Batching Nat :=
  batching.read entries (.count wanted)

variable [DecidableEq α]

def select (batching : Batching) (entries : Entries α) (wanted : α → Outcome Bool) :
    Attempt Batching (Occurrences α) :=
  batching.read entries (.select wanted)

def selectByCount (batching : Batching) (entries : Entries α) (wanted : Nat → Bool) :
    Attempt Batching (Occurrences α) :=
  batching.read entries (.selectByCount wanted)

def unique (batching : Batching) (entries : Entries α) : Attempt Batching (List α) :=
  batching.read entries .unique

def collect {κ : Type} [DecidableEq κ] (batching : Batching) (entries : Entries α)
    (f : α → Outcome κ) : Attempt Batching (Occurrences κ) :=
  batching.read entries (.collect f)

end Batching

end Collections

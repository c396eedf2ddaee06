import Collections.Error

/-! Settings of the containers: their fields, their presets, and the values that are refused. -/

set_option autoImplicit false

namespace Collections

/-- A field by its name in a document and the last part of the name of its environment variable. -/
structure Field where
  name : String
  environment : String

/-- What the kinds of settings have in common. Their fields hold whole numbers below two to the power
of sixty-four. -/
class Settings (σ : Type) where
  /-- What the settings are for, as messages name it. -/
  subject : String
  fields : List Field
  values : σ → List Nat
  ofValues : List Nat → Option σ
  check : σ → Except Error Unit
  usual : σ
  performance : σ
  memory : σ

namespace Settings

variable {σ : Type} [Settings σ]

def balanced : σ := usual

def checked (settings : σ) : Except Error σ :=
  (check settings).map fun _ => settings

end Settings

structure BagSettings where
  initialCapacity : Nat
  deriving DecidableEq

namespace BagSettings

def maxCapacity : Nat := 0x1000_0000

instance : Settings BagSettings where
  subject := "bag"
  fields := [⟨"initial_capacity", "BAG_INITIAL_CAPACITY"⟩]
  values settings := [settings.initialCapacity]
  ofValues
    | [capacity] => some ⟨capacity⟩
    | _ => none
  check settings :=
    if maxCapacity < settings.initialCapacity then
      .error (.excessCapacity settings.initialCapacity maxCapacity)
    else .ok ()
  usual := ⟨0⟩
  performance := ⟨1024⟩
  memory := ⟨0⟩

end BagSettings

structure ListSettings where
  initialSegmentCapacity : Nat
  deriving DecidableEq

namespace ListSettings

instance : Settings ListSettings where
  subject := "composite list"
  fields := [⟨"initial_segment_capacity", "COMPOSITE_SEGMENT_CAPACITY"⟩]
  values settings := [settings.initialSegmentCapacity]
  ofValues
    | [capacity] => some ⟨capacity⟩
    | _ => none
  check settings :=
    if settings.initialSegmentCapacity = 0 then .error .noSegmentCapacity else .ok ()
  usual := ⟨4⟩
  performance := ⟨32⟩
  memory := ⟨1⟩

end ListSettings

/-- How many entries make up a batch, and how many distinct elements a bag must have before its
batches are handed to an executor. -/
structure BatchSettings where
  batchSize : Nat
  minEntries : Nat
  deriving DecidableEq

namespace BatchSettings

instance : Settings BatchSettings where
  subject := "parallel"
  fields := [⟨"batch_size", "PARALLEL_BATCH_SIZE"⟩,
    ⟨"min_parallel_entries", "PARALLEL_MIN_ENTRIES"⟩]
  values settings := [settings.batchSize, settings.minEntries]
  ofValues
    | [size, minimum] => some ⟨size, minimum⟩
    | _ => none
  check settings := if settings.batchSize = 0 then .error .noBatchSize else .ok ()
  usual := ⟨256, 0⟩
  performance := ⟨1024, 4096⟩
  memory := ⟨64, 0⟩

def ofBatchSize (size : Nat) : BatchSettings :=
  { (Settings.usual : BatchSettings) with batchSize := size }

end BatchSettings

end Collections

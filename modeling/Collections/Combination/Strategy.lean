import Collections.Attempt
import Collections.Combination.Container

/-! Strategies: how the partial results of batches become one result. -/

set_option autoImplicit false

namespace Collections

/-- A starting result, the way to take one part into a result, and the way to take many at once.

A refused part leaves a result that the strategy answers for; the strategies below leave the result
as it was. -/
structure Strategy (π ρ : Type) where
  start : ρ
  combine : π → ρ → Attempt ρ Unit
  combineMany : List π → ρ → Attempt ρ Unit := Attempt.forEach combine
  oneAtATime : Bool := true

namespace Strategy

variable {π ρ γ ε α : Type}

def collection (container : Container γ ε) (target : γ) (oneAtATime : Bool) : Strategy γ γ where
  start := target
  combine part result := ⟨.ok (), container.extend result (container.elements part)⟩
  combineMany parts result := ⟨.ok (), container.extend result (parts.flatMap container.elements)⟩
  oneAtATime := oneAtATime

def fresh (container : Container γ ε) (oneAtATime : Bool) : Strategy γ γ :=
  collection container container.empty oneAtATime

def segments : Strategy (List ε) (SegmentedList ε) where
  start := .empty
  -- An empty part is accepted and counts, but leaves no segment behind.
  combine part result := ⟨.ok (), if part.isEmpty then result else result.addSegment part⟩

def bag [DecidableEq α] : Strategy (Occurrences α) (Occurrences α) where
  start := .empty
  combine part result := .ofExcept result ((result.merge part).map fun (_, merged) => ((), merged))

/-- Fold with a step that may change the result before it refuses. Only what an accepted step leaves
is kept. -/
def fold (identity : ρ) (step : π → ρ → Attempt ρ Unit) : Strategy π ρ where
  start := identity
  combine part result :=
    match step part result with
    | ⟨.ok (), next⟩ => ⟨.ok (), next⟩
    | ⟨.error error, _⟩ => ⟨.error error, result⟩

def discard : Strategy π Unit where
  start := ()
  combine _ _ := ⟨.ok (), ()⟩

end Strategy

end Collections

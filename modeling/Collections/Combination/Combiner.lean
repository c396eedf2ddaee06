import Collections.Combination.Strategy

/-! Combiners: a result under construction and the number of parts it counts as taken in. -/

set_option autoImplicit false

namespace Collections

structure Combiner (π ρ : Type) where
  strategy : Strategy π ρ
  result : ρ
  combined : Nat

namespace Combiner

variable {π ρ γ ε α : Type}

def start (strategy : Strategy π ρ) : Combiner π ρ :=
  ⟨strategy, strategy.start, 0⟩

def combineOne (part : π) (combiner : Combiner π ρ) : Attempt (Combiner π ρ) Unit :=
  match combiner.strategy.combine part combiner.result with
  | ⟨.ok (), result⟩ => ⟨.ok (), { combiner with result, combined := combiner.combined + 1 }⟩
  | ⟨.error error, result⟩ => ⟨.error error, { combiner with result }⟩

/-- Take in all parts at once; they count only when all of them are accepted. -/
def combineBatch (parts : List π) (combiner : Combiner π ρ) : Attempt (Combiner π ρ) Unit :=
  match combiner.strategy.combineMany parts combiner.result with
  | ⟨.ok (), result⟩ =>
    ⟨.ok (), { combiner with result, combined := combiner.combined + parts.length }⟩
  | ⟨.error error, result⟩ => ⟨.error error, { combiner with result }⟩

def combineAll (parts : List π) (combiner : Combiner π ρ) : Attempt (Combiner π ρ) Unit :=
  if combiner.strategy.oneAtATime then Attempt.forEach combineOne parts combiner
  else combineBatch parts combiner

def inspect (literal : ρ → String) (combiner : Combiner π ρ) : String :=
  s!"Combiner \x7b result: {literal combiner.result}, combined: {combiner.combined} \x7d"

/-! ## Common combiners -/

def discard : Combiner π Unit := start .discard

def collection (container : Container γ ε) (target : γ) (oneAtATime : Bool) : Combiner γ γ :=
  start (.collection container target oneAtATime)

def collectInto (container : Container γ ε) (target : γ) : Combiner γ γ :=
  collection container target true

def segments : Combiner (List ε) (SegmentedList ε) := start .segments

def bag [DecidableEq α] : Combiner (Occurrences α) (Occurrences α) := start .bag

def fold (identity : ρ) (step : π → ρ → Attempt ρ Unit) : Combiner π ρ :=
  start (.fold identity step)

end Combiner

end Collections

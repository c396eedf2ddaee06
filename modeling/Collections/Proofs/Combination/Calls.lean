import Collections.Proofs.Batch.Dispatch
import Mathlib.Algebra.GroupWithZero.Nat

/-! Calls on a combiner. A refused call ends with the part that is refused, and the combiner goes on with
the next call.

A strategy may take many parts in at once in a way of its own. All that matters is that this comes to the
same as taking them in one by one, as far as a view of the result can tell.
-/

set_option autoImplicit false

namespace Collections

open Batching (Takes)

variable {π ρ ω : Type}

inductive CombinerCall (π : Type) where
  | one (part : π)
  | all (parts : List π)

namespace CombinerCall

def parts : CombinerCall π → List π
  | .one part => [part]
  | .all parts => parts

def isBatch (strategy : Strategy π ρ) : CombinerCall π → Bool
  | .one _ => false
  | .all _ => !strategy.oneAtATime

end CombinerCall

def Strategy.folded (strategy : Strategy π ρ) (result : ρ) (parts : List π) : ρ :=
  parts.foldl (fun result part => (strategy.combine part result).state) result

namespace Batching

variable {strategy : Strategy π ρ} {first rest parts : List π} {result middle final : ρ}

theorem Takes.append (takes : Takes strategy first result middle) (later : Takes strategy rest middle final) :
    Takes strategy (first ++ rest) result final := by
  induction takes with
  | none _ => exact later
  | more taken _ ih => exact .more taken (ih later)

theorem Takes.of_append (takes : Takes strategy (first ++ rest) result final) :
    ∃ middle, Takes strategy first result middle ∧ Takes strategy rest middle final := by
  induction first generalizing result with
  | nil => exact ⟨result, .none result, takes⟩
  | cons part front ih =>
    cases takes with
    | more taken later =>
      obtain ⟨middle, before, after⟩ := ih later
      exact ⟨middle, .more taken before, after⟩

theorem Takes.eq_folded (takes : Takes strategy parts result final) :
    final = strategy.folded result parts := by
  induction takes with
  | none _ => rfl
  | more taken _ ih => rw [Strategy.folded, List.foldl_cons, taken, ih, Strategy.folded]

theorem Takes.each (takes : Takes strategy parts result final) :
    Attempt.forEach strategy.combine parts result = ⟨.ok (), final⟩ := by
  induction takes with
  | none _ => rfl
  | more taken _ ih => rw [Attempt.forEach_cons taken, ih]

theorem Takes.forEach_refused (takes : Takes strategy first result final) {part : π} {error : Error}
    {left : ρ} (refused : strategy.combine part final = ⟨.error error, left⟩) (rest : List π)
    (combined : Nat) :
    Attempt.forEach Combiner.combineOne (first ++ part :: rest) ⟨strategy, result, combined⟩ =
      ⟨.error error, ⟨strategy, left, combined + first.length⟩⟩ := by
  induction takes generalizing combined with
  | none _ =>
    rw [List.nil_append, Attempt.forEach_cons_refused (by rw [Combiner.combineOne, refused])]
    rfl
  | more taken _ ih =>
    rw [List.cons_append, Attempt.forEach_cons (by rw [Combiner.combineOne, taken]), ih refused,
      List.length_cons, Nat.add_right_comm, Nat.add_assoc]

end Batching

namespace Strategy

def Keeps (strategy : Strategy π ρ) : Prop :=
  ∀ part result error, (strategy.combine part result).answer = .error error →
    (strategy.combine part result).state = result

def SameView (view : ρ → ω) (here there : ρ) : Prop :=
  view here = view there

structure Stepwise (strategy : Strategy π ρ) (view : ρ → ω) : Prop where
  keeps : strategy.Keeps
  alike (part : π) {here there : ρ} (same : view here = view there) :
    Attempt.Agree (SameView view) (strategy.combine part here) (strategy.combine part there)
  many (parts : List π) (result : ρ) :
    Attempt.Agree (SameView view) (strategy.combineMany parts result)
      (Attempt.forEach strategy.combine parts result)

inductive TakenIn (strategy : Strategy π ρ) (result : ρ) : List π → Attempt ρ Unit → Prop
  | all {parts : List π} {final : ρ} (takes : Takes strategy parts result final) :
      TakenIn strategy result parts ⟨.ok (), final⟩
  | before {accepted : List π} {part : π} (rest : List π) {final : ρ} {error : Error}
      (takes : Takes strategy accepted result final)
      (refused : strategy.combine part final = ⟨.error error, final⟩) :
      TakenIn strategy result (accepted ++ part :: rest) ⟨.error error, final⟩

variable {strategy : Strategy π ρ} {view : ρ → ω}

theorem Keeps.refused (keeps : strategy.Keeps) {part : π} {result left : ρ} {error : Error}
    (refused : strategy.combine part result = ⟨.error error, left⟩) : left = result := by
  have kept := keeps part result error
  rw [refused] at kept
  exact kept rfl

theorem Keeps.takenIn (keeps : strategy.Keeps) (parts : List π) (result : ρ) :
    TakenIn strategy result parts (Attempt.forEach strategy.combine parts result) := by
  induction parts generalizing result with
  | nil => exact .all (.none result)
  | cons part rest ih =>
    cases taken : strategy.combine part result with
    | mk answer next =>
      cases answer with
      | error error =>
        obtain rfl := keeps.refused taken
        rw [Attempt.forEach_cons_refused taken]
        exact .before rest (.none next) taken
      | ok _ =>
        have later := ih next
        rw [Attempt.forEach_cons taken]
        generalize Attempt.forEach strategy.combine rest next = outcome at later ⊢
        cases later with
        | all takes => exact .all (.more taken takes)
        | before remaining takes refused => exact .before remaining (.more taken takes) refused

/-- Results that look the same take the same parts in and go on looking the same. -/
theorem Stepwise.takes (law : strategy.Stepwise view) {parts : List π} {here there final : ρ}
    (takes : Takes strategy parts here final) (same : view here = view there) :
    ∃ other, Takes strategy parts there other ∧ view final = view other := by
  induction takes generalizing there with
  | none _ => exact ⟨there, .none there, same⟩
  | @more part rest result next final taken _ ih =>
    obtain ⟨answer, state⟩ := law.alike part same
    rw [taken] at answer state
    obtain ⟨other, later, alike⟩ := ih state
    refine ⟨other, .more ?_ later, alike⟩
    generalize strategy.combine part there = reply at answer later ⊢
    cases reply
    cases answer
    rfl

end Strategy

namespace Combiner

def call (combiner : Combiner π ρ) : CombinerCall π → Attempt (Combiner π ρ) Unit
  | .one part => combiner.combineOne part
  | .all parts => combiner.combineAll parts

abbrev CombinerStep (π ρ : Type) := Step (Combiner π ρ) (CombinerCall π) Unit

/-- How many of the parts that a call took in are counted. A batch does not count when it is refused. -/
def counted (step : CombinerStep π ρ) (accepted : List π) : Nat :=
  match step.call.isBatch step.start.strategy, step.answer with
  | true, .error _ => 0
  | _, _ => accepted.length

/-- A call takes in all its parts, or those before one that is refused, and then it is refused as that one
is. -/
structure Absorbs (view : ρ → ω) (step : CombinerStep π ρ) (accepted : List π) : Prop where
  strategy : step.finish.strategy = step.start.strategy
  taken : ∃ final, Takes step.start.strategy accepted step.start.result final ∧
    view step.finish.result = view final
  outcome : (step.answer = .ok () ∧ step.call.parts = accepted) ∨
    ∃ part rest error, step.answer = .error error ∧ step.call.parts = accepted ++ part :: rest ∧
      (step.start.strategy.combine part step.finish.result).answer = .error error
  combined : step.finish.combined = step.start.combined + counted step accepted

section Calls

variable {strategy : Strategy π ρ} {view : ρ → ω} {result : ρ} {combined : Nat}

theorem absorbs_one (keeps : strategy.Keeps) (part : π) :
    ∃ accepted, Absorbs view (.of ⟨strategy, result, combined⟩ (.one part)
      (call ⟨strategy, result, combined⟩ (.one part))) accepted := by
  rw [call, combineOne]
  cases taken : strategy.combine part result with
  | mk answer next =>
    cases answer with
    | ok _ => exact ⟨[part], rfl, ⟨next, .more taken (.none next), rfl⟩, .inl ⟨rfl, rfl⟩, rfl⟩
    | error error =>
      obtain rfl := keeps.refused taken
      refine ⟨[], rfl, ⟨next, .none next, rfl⟩, .inr ⟨part, [], error, rfl, rfl, ?_⟩, rfl⟩
      simp only [Step.of, taken]

theorem absorbs_each (keeps : strategy.Keeps) (each : strategy.oneAtATime = true) (parts : List π) :
    ∃ accepted, Absorbs view (.of ⟨strategy, result, combined⟩ (.all parts)
      (call ⟨strategy, result, combined⟩ (.all parts))) accepted := by
  have takenIn := keeps.takenIn parts result
  rw [call, combineAll, if_pos each]
  generalize Attempt.forEach strategy.combine parts result = outcome at takenIn
  cases takenIn with
  | @all _ final takes =>
    rw [takes.forEach]
    refine ⟨parts, rfl, ⟨final, takes, rfl⟩, .inl ⟨rfl, rfl⟩, ?_⟩
    simp [Step.of, counted]
  | @before accepted part rest final error takes refused =>
    rw [takes.forEach_refused refused]
    refine ⟨accepted, rfl, ⟨final, takes, rfl⟩, .inr ⟨part, rest, error, rfl, rfl, ?_⟩, ?_⟩
    · simp only [Step.of, refused]
    · simp [Step.of, counted, CombinerCall.isBatch, each]

theorem absorbs_batch (law : strategy.Stepwise view) (batch : strategy.oneAtATime = false)
    (parts : List π) :
    ∃ accepted, Absorbs view (.of ⟨strategy, result, combined⟩ (.all parts)
      (call ⟨strategy, result, combined⟩ (.all parts))) accepted := by
  have takenIn := law.keeps.takenIn parts result
  obtain ⟨answer, state⟩ := law.many parts result
  rw [call, combineAll, if_neg (Bool.eq_false_iff.mp batch), combineBatch]
  generalize Attempt.forEach strategy.combine parts result = outcome at takenIn answer state
  generalize strategy.combineMany parts result = reply at answer state
  obtain ⟨replied, left⟩ := reply
  cases takenIn with
  | @all _ final takes =>
    cases answer
    exact ⟨parts, rfl, ⟨final, takes, state⟩, .inl ⟨rfl, rfl⟩, by simp [Step.of, counted]⟩
  | @before accepted part rest final error takes refused =>
    cases answer
    -- The refused part is refused again by what looks like the result it was refused by.
    have again := (law.alike part state).answer
    rw [refused] at again
    refine ⟨accepted, rfl, ⟨final, takes, state⟩, .inr ⟨part, rest, error, rfl, rfl, again⟩, ?_⟩
    simp [Step.of, counted, CombinerCall.isBatch, batch]

theorem call_absorbs (combiner : Combiner π ρ) (law : combiner.strategy.Stepwise view)
    (call : CombinerCall π) : ∃ accepted, Absorbs view (.of combiner call (combiner.call call)) accepted := by
  obtain ⟨strategy, result, combined⟩ := combiner
  cases call with
  | one part => exact absorbs_one law.keeps part
  | all parts =>
    cases each : strategy.oneAtATime with
    | true => exact absorbs_each law.keeps each parts
    | false => exact absorbs_batch law each parts

end Calls

/-! ## Runs -/

structure Folds (view : ρ → ω) (combiner : Combiner π ρ) (calls : List (CombinerCall π))
    (accepted : List (List π)) : Prop where
  each : List.Forall₂ (Absorbs view) (Step.run call combiner calls) accepted
  taken : ∃ final, Takes combiner.strategy accepted.flatten combiner.result final ∧
    view (Step.reached call combiner calls).result = view final
  result : view (Step.reached call combiner calls).result =
    view (combiner.strategy.folded combiner.result accepted.flatten)
  combined : (Step.reached call combiner calls).combined =
    combiner.combined + (List.zipWith counted (Step.run call combiner calls) accepted).sum

variable {view : ρ → ω}

-- What is taken in later is taken in by a result that looks like the fold so far, and so the fold can go on
-- with it.
theorem exists_folds (combiner : Combiner π ρ) (law : combiner.strategy.Stepwise view)
    (calls : List (CombinerCall π)) : ∃ accepted, Folds view combiner calls accepted := by
  induction calls generalizing combiner with
  | nil => exact ⟨[], .nil, ⟨_, .none _, rfl⟩, rfl, rfl⟩
  | cons call rest ih =>
    obtain ⟨first, absorbs⟩ := call_absorbs combiner law call
    obtain ⟨middle, taken, same⟩ := absorbs.taken
    have kept : (combiner.call call).state.strategy = combiner.strategy := absorbs.strategy
    obtain ⟨accepted, folds⟩ := ih _ (kept ▸ law)
    obtain ⟨final, later, reached⟩ := folds.taken
    rw [kept] at later
    obtain ⟨other, further, alike⟩ := law.takes later same
    have whole : Takes combiner.strategy (first ++ accepted.flatten) combiner.result other :=
      taken.append further
    have ended : view (Step.reached Combiner.call combiner (call :: rest)).result = view other :=
      reached.trans alike
    refine ⟨first :: accepted, .cons absorbs folds.each, ⟨other, whole, ended⟩, ?_, ?_⟩
    · rw [ended, List.flatten_cons, ← whole.eq_folded]
    · have counts := folds.combined
      rw [show (combiner.call call).state.combined = _ from absorbs.combined] at counts
      exact counts.trans (Nat.add_assoc _ _ _)

/-! ## Runs without a refusal -/

def AllAccepted (combiner : Combiner π ρ) (calls : List (CombinerCall π)) : Prop :=
  ∀ step ∈ Step.run call combiner calls, step.answer = .ok ()

theorem Absorbs.parts_of_ok {step : CombinerStep π ρ} {accepted : List π}
    (absorbs : Absorbs view step accepted) (ok : step.answer = .ok ()) : step.call.parts = accepted := by
  rcases absorbs.outcome with ⟨-, whole⟩ | ⟨part, rest, error, refused, -, -⟩
  · exact whole
  · rw [ok] at refused
    cases refused

theorem counted_of_ok {step : CombinerStep π ρ} (ok : step.answer = .ok ()) (accepted : List π) :
    counted step accepted = accepted.length := by
  rw [counted, ok]
  split
  · contradiction
  · rfl

structure TakesAll (view : ρ → ω) (combiner : Combiner π ρ) (calls : List (CombinerCall π))
    (final : ρ) : Prop where
  accepted : AllAccepted combiner calls
  result : view (Step.reached call combiner calls).result = view final
  combined : (Step.reached call combiner calls).combined =
    combiner.combined + (calls.flatMap CombinerCall.parts).length

/-- A call whose parts can be taken in takes them all in. -/
theorem Absorbs.of_takes {step : CombinerStep π ρ} {accepted : List π} {final : ρ}
    (law : step.start.strategy.Stepwise view) (absorbs : Absorbs view step accepted)
    (takes : Takes step.start.strategy step.call.parts step.start.result final) :
    step.answer = .ok () ∧ view step.finish.result = view final ∧
      step.finish.combined = step.start.combined + step.call.parts.length := by
  obtain ⟨reached, taken, same⟩ := absorbs.taken
  rcases absorbs.outcome with ⟨ok, whole⟩ | ⟨part, rest, error, -, parts, refused⟩
  · refine ⟨ok, ?_, ?_⟩
    · rw [whole] at takes
      exact same.trans (congrArg view (taken.eq_folded.trans takes.eq_folded.symm))
    · rw [absorbs.combined, counted_of_ok ok, whole]
  · rw [parts] at takes
    obtain ⟨middle, before, after⟩ := takes.of_append
    obtain rfl := taken.eq_folded.trans before.eq_folded.symm
    cases after with
    | more accepted _ =>
      have again := (law.alike part same).answer
      rw [refused, accepted] at again
      cases again

theorem takesAll_of_takes (combiner : Combiner π ρ) (law : combiner.strategy.Stepwise view)
    {calls : List (CombinerCall π)} {final : ρ}
    (takes : Takes combiner.strategy (calls.flatMap CombinerCall.parts) combiner.result final) :
    TakesAll view combiner calls final := by
  induction calls generalizing combiner final with
  | nil =>
    cases takes
    exact ⟨List.forall_mem_nil _, rfl, rfl⟩
  | cons call rest ih =>
    obtain ⟨middle, first, later⟩ := takes.of_append
    obtain ⟨accepted, absorbs⟩ := call_absorbs combiner law call
    obtain ⟨ok, same, combined⟩ := absorbs.of_takes law first
    obtain ⟨other, further, alike⟩ := law.takes later same.symm
    have kept : (combiner.call call).state.strategy = combiner.strategy := absorbs.strategy
    rw [← kept] at law further
    have takesAll := ih _ law further
    refine ⟨List.forall_mem_cons.mpr ⟨ok, takesAll.accepted⟩, takesAll.result.trans alike.symm, ?_⟩
    have counts := takesAll.combined
    rw [show (combiner.call call).state.combined = _ from combined, Nat.add_assoc] at counts
    rw [List.flatMap_cons, List.length_append]
    exact counts

/-- Nothing is refused exactly when all parts can be taken in one by one. -/
theorem allAccepted_iff (combiner : Combiner π ρ) (law : combiner.strategy.Stepwise view)
    (calls : List (CombinerCall π)) : AllAccepted combiner calls ↔
      ∃ final, Takes combiner.strategy (calls.flatMap CombinerCall.parts) combiner.result final := by
  refine ⟨?_, fun ⟨_, takes⟩ => (takesAll_of_takes combiner law takes).accepted⟩
  intro ok
  induction calls generalizing combiner with
  | nil => exact ⟨combiner.result, .none combiner.result⟩
  | cons call rest ih =>
    obtain ⟨first, later⟩ := List.forall_mem_cons.mp ok
    obtain ⟨accepted, absorbs⟩ := call_absorbs combiner law call
    obtain ⟨middle, taken, same⟩ := absorbs.taken
    rw [← absorbs.parts_of_ok first] at taken
    have kept : (combiner.call call).state.strategy = combiner.strategy := absorbs.strategy
    obtain ⟨final, further⟩ := ih _ (kept ▸ law) later
    rw [kept] at further
    obtain ⟨other, further, -⟩ := law.takes further same
    exact ⟨other, taken.append further⟩

end Combiner

end Collections

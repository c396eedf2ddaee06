import Collections.Proofs.Combination.Calls
import Collections.Proofs.Occurrences.Valid

/-! Strategies that leave no trace of a refused part, and what their combiners come to.

A container is filled by the elements of all parts of a batch in one go. For the containers of the library
that looks like filling them part by part; a segmented list gets other segments, but the same sequence.
-/

set_option autoImplicit false

namespace Collections

open Batching (Takes)

variable {π ρ γ ε κ ν ω : Type}

structure Container.Gradual (container : Container γ ε) (view : γ → ω) : Prop where
  alike (items : List ε) {here there : γ} (same : view here = view there) :
    view (container.extend here items) = view (container.extend there items)
  nil (filled : γ) : view (container.extend filled []) = view filled
  append (filled : γ) (items more : List ε) :
    view (container.extend filled (items ++ more)) =
      view (container.extend (container.extend filled items) more)

namespace Container

theorem gradual_of_foldl {container : Container γ ε} {add : γ → ε → γ}
    (each : ∀ filled items, container.extend filled items = items.foldl add filled) :
    container.Gradual id where
  alike items _ _ same := congrArg (container.extend · items) same
  nil filled := each filled []
  append filled items more := by
    simp only [each, List.foldl_append]

theorem sequence_gradual : (sequence : Container (List ε) ε).Gradual id where
  alike items _ _ same := congrArg (· ++ items) same
  nil := List.append_nil
  append filled items more := (List.append_assoc filled items more).symm

theorem distinct_gradual [DecidableEq ε] : (distinct : Container (List ε) ε).Gradual id :=
  gradual_of_foldl fun _ _ => rfl

theorem keyed_gradual [DecidableEq κ] : (keyed : Container (Keyed κ ν) (κ × ν)).Gradual id :=
  gradual_of_foldl fun _ _ => rfl

theorem bag_gradual [DecidableEq ε] : (bag : Container (Occurrences ε) ε).Gradual id :=
  gradual_of_foldl fun _ _ => rfl

theorem segmented_extend (list : SegmentedList ε) (items : List ε) :
    (segmented.extend list items).flat = list.flat ++ items ∧
      (segmented.extend list items).size = list.size + items.length := by
  cases items with
  | nil => exact ⟨(List.append_nil _).symm, rfl⟩
  | cons first rest =>
    refine ⟨?_, rfl⟩
    simp [segmented, SegmentedList.addAll, SegmentedList.addSegment, SegmentedList.flat]

/-- The segments tell how a list was filled; its sequence and its length do not. -/
theorem segmented_gradual :
    (segmented : Container (SegmentedList ε) ε).Gradual fun list => (list.flat, list.size) where
  alike items _ _ same := by
    obtain ⟨flat, size⟩ := Prod.mk.inj same
    simp only [segmented_extend, flat, size]
  nil filled := by
    simp only [segmented_extend, List.append_nil, List.length_nil, Nat.add_zero]
  append filled items more := by
    simp only [segmented_extend, List.append_assoc, List.length_append, Nat.add_assoc]

theorem Gradual.foldl {container : Container γ ε} {view : γ → ω} (gradual : container.Gradual view)
    (parts : List γ) (result : γ) :
    view (parts.foldl (fun result part => container.extend result (container.elements part)) result) =
      view (container.extend result (parts.flatMap container.elements)) := by
  induction parts generalizing result with
  | nil => exact (gradual.nil result).symm
  | cons part rest ih => rw [List.foldl_cons, ih, List.flatMap_cons, gradual.append]

end Container

namespace Strategy

structure AllOrNothing (strategy : Strategy π ρ) : Prop where
  keeps : strategy.Keeps
  many : strategy.combineMany = Attempt.forEach strategy.combine

theorem AllOrNothing.stepwise {strategy : Strategy π ρ} (law : strategy.AllOrNothing) :
    strategy.Stepwise id where
  keeps := law.keeps
  alike _ _ _ same := by
    cases same
    exact ⟨rfl, rfl⟩
  many parts result := by
    rw [law.many]
    exact ⟨rfl, rfl⟩

section Collections

variable {container : Container γ ε} {target : γ} {oneAtATime : Bool}

theorem keeps_collection : (collection container target oneAtATime).Keeps := nofun

theorem takes_collection (parts : List γ) (result : γ) :
    Takes (collection container target oneAtATime) parts result
      (parts.foldl (fun result part => container.extend result (container.elements part)) result) := by
  induction parts generalizing result with
  | nil => exact .none result
  | cons part rest ih => exact .more rfl (ih _)

theorem stepwise_collection {view : γ → ω} (gradual : container.Gradual view) :
    (collection container target oneAtATime).Stepwise view where
  keeps := keeps_collection
  alike part _ _ same := ⟨rfl, gradual.alike (container.elements part) same⟩
  many parts result := by
    rw [(takes_collection parts result).each]
    exact ⟨rfl, (gradual.foldl parts result).symm⟩

end Collections

theorem allOrNothing_segments : (segments : Strategy (List ε) (SegmentedList ε)).AllOrNothing :=
  ⟨nofun, rfl⟩

section Bags

variable {α : Type} [DecidableEq α] {part result merged : Occurrences α}

theorem combine_bag_of_merge {changed : Bool} (accepted : result.merge part = .ok (changed, merged)) :
    bag.combine part result = ⟨.ok (), merged⟩ := by
  simp only [bag]
  rw [accepted]
  rfl

theorem combine_bag_of_refused {error : Error} (refused : result.merge part = .error error) :
    bag.combine part result = ⟨.error error, result⟩ := by
  simp only [bag]
  rw [refused]
  rfl

theorem keeps_bag : (bag : Strategy (Occurrences α) (Occurrences α)).Keeps :=
  fun _ _ _ refused => Attempt.ofExcept_refused refused

theorem allOrNothing_bag : (bag : Strategy (Occurrences α) (Occurrences α)).AllOrNothing :=
  ⟨keeps_bag, rfl⟩

/-- A part is refused when its size or the count of one of its elements is too much for the result, which
stays as it is. -/
theorem combine_bag_refused_iff (part result : Occurrences α) :
    (∃ error, bag.combine part result = ⟨.error error, result⟩) ↔
      maxTotal < result.size + part.size ∨
        ∃ entry ∈ part.entries, maxCount < result.countOf entry.1 + entry.2 := by
  rw [← Occurrences.merge_refused_iff]
  constructor
  · rintro ⟨error, refused⟩
    cases merged : result.merge part with
    | error cause => exact ⟨cause, rfl⟩
    | ok answer =>
      rw [combine_bag_of_merge merged] at refused
      cases refused
  · rintro ⟨error, refused⟩
    exact ⟨error, combine_bag_of_refused refused⟩

end Bags

section Folding

variable {identity : ρ} {step : π → ρ → Attempt ρ Unit}

/-- What a step did to the result before it refused is undone. -/
theorem combine_fold_refused {part : π} {result left : ρ} {error : Error}
    (refused : step part result = ⟨.error error, left⟩) :
    (fold identity step).combine part result = ⟨.error error, result⟩ := by
  simp only [fold, refused]

theorem keeps_fold : (fold identity step).Keeps := by
  intro part result error refused
  cases stepped : step part result with
  | mk answer left =>
    cases answer with
    | error _ => rw [combine_fold_refused stepped]
    | ok _ =>
      simp only [fold, stepped] at refused
      cases refused

end Folding

end Strategy

/-! ## What combiners come to -/

/-- The library's own strategies and containers. The result a part meets is any, and so is the part. -/
structure Stock : Prop where
  collection {γ ε : Type} (container : Container γ ε) (target : γ) (oneAtATime : Bool) :
    (Strategy.collection container target oneAtATime).Keeps
  segments {ε : Type} : (Strategy.segments : Strategy (List ε) (SegmentedList ε)).AllOrNothing
  bag {α : Type} [DecidableEq α] :
    (Strategy.bag : Strategy (Occurrences α) (Occurrences α)).AllOrNothing
  bagRefused {α : Type} [DecidableEq α] (part result : Occurrences α) :
    (∃ error, Strategy.bag.combine part result = ⟨.error error, result⟩) ↔
      maxTotal < result.size + part.size ∨
        ∃ entry ∈ part.entries, maxCount < result.countOf entry.1 + entry.2
  fold {π ρ : Type} (identity : ρ) (step : π → ρ → Attempt ρ Unit) :
    (Strategy.fold identity step).AllOrNothing
  -- The step may leave anything behind when it refuses.
  foldRefused {π ρ : Type} {identity : ρ} {step : π → ρ → Attempt ρ Unit} {part : π} {result left : ρ}
    {error : Error} (refused : step part result = ⟨.error error, left⟩) :
    (Strategy.fold identity step).combine part result = ⟨.error error, result⟩
  discard {π : Type} : (Strategy.discard : Strategy π Unit).AllOrNothing
  sequence {ε : Type} : (Container.sequence : Container (List ε) ε).Gradual id
  distinct {ε : Type} [DecidableEq ε] : (Container.distinct : Container (List ε) ε).Gradual id
  keyed {κ ν : Type} [DecidableEq κ] : (Container.keyed : Container (Keyed κ ν) (κ × ν)).Gradual id
  occurrences {ε : Type} [DecidableEq ε] : (Container.bag : Container (Occurrences ε) ε).Gradual id
  segmented {ε : Type} : (Container.segmented : Container (SegmentedList ε) ε).Gradual fun list =>
    (list.flat, list.size)

theorem stock : Stock where
  collection _ _ _ := Strategy.keeps_collection
  segments := Strategy.allOrNothing_segments
  bag := Strategy.allOrNothing_bag
  bagRefused := Strategy.combine_bag_refused_iff
  fold _ _ := ⟨Strategy.keeps_fold, rfl⟩
  foldRefused := Strategy.combine_fold_refused
  discard := ⟨nofun, rfl⟩
  sequence := Container.sequence_gradual
  distinct := Container.distinct_gradual
  keyed := Container.keyed_gradual
  occurrences := Container.bag_gradual
  segmented := Container.segmented_gradual

namespace Combiner

/-- Whatever is refused along the way, a result is the fold of the accepted parts. This holds of every
strategy that takes a part in as a whole or not at all, and of collections, which take everything in. -/
theorem calls_fold_accepted :
    (∀ {π ρ : Type} (strategy : Strategy π ρ), strategy.AllOrNothing →
      ∀ calls, ∃ accepted, Folds id (start strategy) calls accepted) ∧
    (∀ {γ ε ω : Type} (container : Container γ ε) (view : γ → ω), container.Gradual view →
      ∀ target oneAtATime calls,
        ∃ accepted, Folds view (collection container target oneAtATime) calls accepted) ∧
    Stock := by
  refine ⟨?_, ?_, stock⟩
  · intro π ρ strategy law calls
    exact exists_folds (start strategy) law.stepwise calls
  · intro γ ε ω container view gradual target oneAtATime calls
    exact exists_folds (collection container target oneAtATime)
      (Strategy.stepwise_collection gradual) calls

/-- A strategy that has room for two parts and is handed batches: the first one fills it and is refused,
and nothing of it counts. -/
theorem calls_fold_accepted_beyond_room :
    let strategy : Strategy Nat (List Nat) := {
      start := []
      combine := fun part result =>
        if result.length = 2 then ⟨.error (.execution "no room"), result⟩ else ⟨.ok (), result ++ [part]⟩
      oneAtATime := false }
    let calls : List (CombinerCall Nat) := [.all [10, 20, 30, 40], .one 50, .all []]
    strategy.AllOrNothing ∧
      (Step.run call (start strategy) calls).map (fun step => (step.answer, step.finish.result)) =
        [(.error (.execution "no room"), [10, 20]), (.error (.execution "no room"), [10, 20]),
          (.ok (), [10, 20])] ∧
      (Step.reached call (start strategy) calls).combined = 0 ∧
      ∃ accepted, Folds id (start strategy) calls accepted := by
  intro strategy calls
  have law : strategy.AllOrNothing := by
    refine ⟨?_, rfl⟩
    intro part result error refused
    by_cases full : result.length = 2
    · simp [strategy, full]
    · simp [strategy, full] at refused
  exact ⟨law, rfl, rfl, calls_fold_accepted.1 strategy law calls⟩

end Combiner

end Collections

import Collections.Proofs.Combination.Strategies
import Collections.Proofs.SegmentedList.Places

/-! Containers combined into one, part by part or batch by batch. Both ways lead to the same container and
count the same parts, however the parts are cut into calls.
-/

set_option autoImplicit false

namespace Collections

open Batching (Takes)

variable {γ ε κ ν ω : Type}

namespace Container

section Sets

variable [DecidableEq ε] {items : List ε}

theorem distinct_extend_cons (item : ε) (rest : List ε) :
    distinct.extend items (item :: rest) = distinct.extend (items.insert item) rest := rfl

theorem mem_distinct_extend {more : List ε} {item : ε} :
    item ∈ distinct.extend items more ↔ item ∈ items ∨ item ∈ more := by
  induction more generalizing items with
  | nil => simp [distinct]
  | cons next rest ih =>
    rw [distinct_extend_cons, ih, List.mem_insert_iff, List.mem_cons, or_assoc, or_left_comm]

theorem nodup_distinct_extend (once : items.Nodup) (more : List ε) :
    (distinct.extend items more).Nodup := by
  induction more generalizing items with
  | nil => exact once
  | cons next rest ih => exact ih once.insert

end Sets

theorem nodup_keyed_extend [DecidableEq κ] {filed : Keyed κ ν} (once : (filed.map Prod.fst).Nodup)
    (more : Keyed κ ν) : ((keyed.extend filed more).map Prod.fst).Nodup := by
  induction more generalizing filed with
  | nil => exact once
  | cons pair rest ih => exact ih (Keyed.nodup_update once _ _ _)

end Container

namespace SegmentedList

theorem addSegment_ofSegments (segments : List (List ε)) (segment : List ε) :
    (ofSegments segments).addSegment segment = ofSegments (segments ++ [segment]) := by
  simp [addSegment, ofSegments, countElements_eq]

end SegmentedList

namespace Strategy

/-- Parts without elements leave no segment. -/
theorem takes_segments (parts earlier : List (List ε)) :
    Takes segments parts (.ofSegments earlier)
      (.ofSegments (earlier ++ parts.filter fun part => !part.isEmpty)) := by
  induction parts generalizing earlier with
  | nil =>
    rw [List.filter_nil, List.append_nil]
    exact .none _
  | cons part rest ih =>
    cases part with
    | nil => exact .more rfl (ih earlier)
    | cons first others =>
      have added : segments.combine (first :: others) (.ofSegments earlier) =
          ⟨.ok (), .ofSegments (earlier ++ [first :: others])⟩ :=
        congrArg _ (SegmentedList.addSegment_ofSegments earlier (first :: others))
      have later := ih (earlier ++ [first :: others])
      rw [List.append_assoc] at later
      exact .more added later

end Strategy

namespace Combiner

structure Collects (view : γ → ω) (container : Container γ ε) (target : γ)
    (calls : List (CombinerCall γ)) (final : γ) : Prop where
  accepted (oneAtATime : Bool) : AllAccepted (collection container target oneAtATime) calls
  result (oneAtATime : Bool) :
    view (Step.reached call (collection container target oneAtATime) calls).result = view final
  combined (oneAtATime : Bool) :
    (Step.reached call (collection container target oneAtATime) calls).combined =
      (calls.flatMap CombinerCall.parts).length

theorem collects {container : Container γ ε} {view : γ → ω} (gradual : container.Gradual view)
    (target : γ) (calls : List (CombinerCall γ)) :
    Collects view container target calls
      (container.extend target ((calls.flatMap CombinerCall.parts).flatMap container.elements)) := by
  have takesAll (oneAtATime : Bool) := takesAll_of_takes (collection container target oneAtATime)
    (Strategy.stepwise_collection gradual)
    (Strategy.takes_collection (calls.flatMap CombinerCall.parts) target)
  refine ⟨fun oneAtATime => (takesAll oneAtATime).accepted, fun oneAtATime => ?_, fun oneAtATime => ?_⟩
  · exact (takesAll oneAtATime).result.trans (gradual.foldl _ target)
  · exact (takesAll oneAtATime).combined.trans (Nat.zero_add _)

theorem collects_sequence (target : List ε) (calls : List (CombinerCall (List ε))) :
    Collects id .sequence target calls (target ++ (calls.flatMap CombinerCall.parts).flatten) := by
  rw [← List.flatMap_id]
  exact collects Container.sequence_gradual target calls

theorem takesAll_segments (calls : List (CombinerCall (List ε))) : TakesAll id segments calls
    (.ofSegments ((calls.flatMap CombinerCall.parts).filter fun part => !part.isEmpty)) :=
  takesAll_of_takes segments Strategy.allOrNothing_segments.stepwise (Strategy.takes_segments _ [])

/-- Each container comes out the same either way. Parts of a sequence end up as the segments of a list. -/
theorem containers_combine_alike :
    (∀ {γ ε ω : Type} (container : Container γ ε) (view : γ → ω), container.Gradual view →
      ∀ target calls, ∃ final, Collects view container target calls final) ∧
    (∀ {ε : Type} (target : List ε) (calls : List (CombinerCall (List ε))),
      Collects id .sequence target calls (target ++ (calls.flatMap CombinerCall.parts).flatten)) ∧
    (∀ {ε : Type} [DecidableEq ε] (target : List ε) (calls : List (CombinerCall (List ε))),
      ∃ union, Collects id .distinct target calls union ∧ (target.Nodup → union.Nodup) ∧
        ∀ item, item ∈ union ↔
          item ∈ target ∨ ∃ part ∈ calls.flatMap CombinerCall.parts, item ∈ part) ∧
    (∀ {κ ν : Type} [DecidableEq κ] (target : Keyed κ ν) (calls : List (CombinerCall (Keyed κ ν))),
      ∃ filed, Collects id .keyed target calls filed ∧
        ((target.map Prod.fst).Nodup → (filed.map Prod.fst).Nodup) ∧
        ∀ key, filed.valueOf? key =
          (Keyed.valueOf? (calls.flatMap CombinerCall.parts).flatten.reverse key).or
            (target.valueOf? key)) ∧
    ∀ {ε : Type} (calls : List (CombinerCall (List ε))),
      let list : SegmentedList ε :=
        .ofSegments ((calls.flatMap CombinerCall.parts).filter fun part => !part.isEmpty)
      TakesAll id segments calls list ∧
        list.flat = (Step.reached call (collectInto .sequence []) calls).result := by
  refine ⟨?_, collects_sequence, ?_, ?_, ?_⟩
  · intro γ ε ω container view gradual target calls
    exact ⟨_, collects gradual target calls⟩
  · intro ε _ target calls
    refine ⟨_, collects Container.distinct_gradual target calls, ?_, ?_⟩
    · exact fun once => Container.nodup_distinct_extend once _
    · intro item
      rw [Container.mem_distinct_extend, List.mem_flatMap]
      rfl
  · intro κ ν _ target calls
    refine ⟨_, collects Container.keyed_gradual target calls, ?_, ?_⟩
    · exact fun once => Container.nodup_keyed_extend once _
    · intro key
      rw [← List.flatMap_id]
      exact Keyed.valueOf?_foldl_insert target _ key
  · intro ε calls
    have collected := (collects_sequence [] calls).result true
    refine ⟨takesAll_segments calls, ?_⟩
    exact List.flatten_filter_not_isEmpty.trans collected.symm

/-- A batch of segmented lists becomes one segment, and its parts one by one become one each. The sequence
is the same. -/
theorem containers_combine_alike_up_to_segments :
    let view (list : SegmentedList Nat) := (list.flat, list.size)
    let calls : List (CombinerCall (SegmentedList Nat)) :=
      [.all [.ofSegments [[1], [2]], .empty, .ofSegments [[3]]]]
    let collected (oneAtATime : Bool) :=
      (Step.reached call (collection .segmented .empty oneAtATime) calls).result
    Container.segmented.Gradual view ∧ (collected true).segments = [[1, 2], [3]] ∧
      (collected false).segments = [[1, 2, 3]] ∧
      ∃ final, Collects view .segmented .empty calls final := by
  intro view calls collected
  have gradual : Container.segmented.Gradual view := Container.segmented_gradual
  exact ⟨gradual, rfl, rfl, containers_combine_alike.1 .segmented view gradual .empty calls⟩

end Combiner

end Collections

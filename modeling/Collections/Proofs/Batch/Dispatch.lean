import Collections.Batch.Batching
import Collections.Proofs.Batch.Cut
import Collections.Proofs.Calls

/-! What a batched read answers when the task is done on every batch. -/

set_option autoImplicit false

namespace Collections

namespace Executor

/-- The task is applied to each batch and the results come back in batch order. Nothing is said about
tasks that fail. -/
def InOrder (run : Runs) : Prop :=
  ∀ {β ρ : Type} (task : β → Outcome ρ) (value : β → ρ) (batches : List β),
    (∀ batch ∈ batches, task batch = .done (value batch)) →
      (run (fun batch (shared : Unit) => (task batch, shared)) batches ()).answer =
        .ok (batches.map value)

theorem runInOrder_answer {β ρ : Type} (task : β → Outcome ρ) (value : β → ρ) (batches : List β)
    (done : ∀ batch ∈ batches, task batch = .done (value batch)) :
    (runInOrder (fun batch (shared : Unit) => (task batch, shared)) batches ()).answer =
      .ok (batches.map value) := by
  unfold runInOrder
  -- Batches are numbered from the start of the run, so the rest of them counts from a later number.
  generalize 0 = start
  induction batches generalizing start with
  | nil => rfl
  | cons batch rest ih =>
    have later := ih (fun batch member => done batch (List.mem_cons_of_mem _ member)) (start + 1)
    rw [List.zipIdx_cons, Attempt.traverse_cons (by simp only [done batch List.mem_cons_self]; rfl),
      Attempt.map, later]
    rfl

theorem inOrder_runInOrder : InOrder runInOrder :=
  runInOrder_answer

end Executor

namespace Batching

variable {α π ρ σ : Type} {batching : Batching} {entries : Entries α}

def conclude (strategy : Strategy π ρ) (left : Batching) (ran : Attempt σ (List π)) :
    Attempt (Batching × σ) ρ :=
  ⟨ran.answer.bind (combine strategy), (left, ran.state)⟩

theorem dispatchBy_handed (run : Executor.Runs) (handed : batching.handsOver entries = true)
    (strategy : Strategy π ρ) (task : Entries α → σ → Outcome π × σ) (shared : σ) :
    batching.dispatchBy run entries strategy task shared =
      conclude strategy (batching.counted entries) (run task (batching.cut entries) shared) := by
  rw [dispatchBy, if_pos handed, if_pos handed]
  cases run task (batching.cut entries) shared with
  | mk answer shared => cases answer <;> rfl

theorem dispatchBy_kept (run : Executor.Runs) (kept : batching.handsOver entries = false)
    (strategy : Strategy π ρ) (task : Entries α → σ → Outcome π × σ) (shared : σ) :
    batching.dispatchBy run entries strategy task shared =
      conclude strategy batching (Executor.runInOrder task (batching.cut entries) shared) := by
  rw [dispatchBy, kept, if_neg Bool.false_ne_true, if_neg Bool.false_ne_true]
  cases Executor.runInOrder task (batching.cut entries) shared with
  | mk answer shared => cases answer <;> rfl

theorem readBy_answer {run : Executor.Runs} (inOrder : Executor.InOrder run)
    (read : BatchRead α π ρ) (part : Entries α → π)
    (done : ∀ batch ∈ batching.cut entries, read.task batch = .done (part batch)) :
    (batching.readBy run entries read).answer =
      combine read.strategy ((batching.cut entries).map part) := by
  have handed := inOrder read.task part (batching.cut entries) done
  have spot := Executor.inOrder_runInOrder read.task part (batching.cut entries) done
  -- Whether the batches are handed over or run on the spot, the answer is that of each part in order.
  cases decided : batching.handsOver entries with
  | true =>
    rw [readBy, dispatchBy_handed run decided]
    simp only [conclude, Attempt.within, handed, Except.bind]
  | false =>
    rw [readBy, dispatchBy_kept run decided]
    simp only [conclude, Attempt.within, spot, Except.bind]

/-- An answer of the executor of the bag is that of running in order; a refusal may be its own. -/
theorem read_eq_ok {read : BatchRead α π ρ} {final : ρ}
    (answered : (batching.read entries read).answer = .ok final) :
    (batching.readBy Executor.runInOrder entries read).answer = .ok final := by
  cases decided : batching.handsOver entries with
  | true =>
    rw [Batching.read, readBy, dispatchBy_handed _ decided] at answered
    rw [readBy, dispatchBy_handed _ decided]
    -- All executors but one run the batches in order, and that one refuses whatever it is handed.
    cases executor : batching.executor with
    | refusing reason =>
      rw [executor] at answered
      cases answered
    | _ =>
      rw [executor] at answered
      exact answered
  | false =>
    rw [Batching.read, readBy, dispatchBy_kept _ decided] at answered
    rw [readBy, dispatchBy_kept _ decided]
    exact answered

/-! ## Combining -/

inductive Takes (strategy : Strategy π ρ) : List π → ρ → ρ → Prop where
  | none (result : ρ) : Takes strategy [] result result
  | more {part : π} {rest : List π} {result next final : ρ} :
      strategy.combine part result = ⟨.ok (), next⟩ → Takes strategy rest next final →
        Takes strategy (part :: rest) result final

theorem Takes.forEach {strategy : Strategy π ρ} {parts : List π} {result final : ρ}
    (takes : Takes strategy parts result final) (combined : Nat) :
    Attempt.forEach Combiner.combineOne parts ⟨strategy, result, combined⟩ =
      ⟨.ok (), ⟨strategy, final, combined + parts.length⟩⟩ := by
  induction takes generalizing combined with
  | none result => rfl
  | more taken _ ih =>
    rw [Attempt.forEach_cons (by rw [Combiner.combineOne, taken]), ih, List.length_cons,
      Nat.add_right_comm, Nat.add_assoc]

theorem combine_of_takes {strategy : Strategy π ρ} (each : strategy.oneAtATime = true)
    {parts : List π} {final : ρ} (takes : Takes strategy parts strategy.start final) :
    combine strategy parts = .ok final := by
  have taken := takes.forEach 0
  rw [combine, Combiner.start, Combiner.combineAll, if_pos each, taken]

inductive Refuses (strategy : Strategy π ρ) : List π → ρ → Error → Prop where
  | now {part : π} {rest : List π} {result left : ρ} {error : Error} :
      strategy.combine part result = ⟨.error error, left⟩ → Refuses strategy (part :: rest) result error
  | later {part : π} {rest : List π} {result next : ρ} {error : Error} :
      strategy.combine part result = ⟨.ok (), next⟩ → Refuses strategy rest next error →
        Refuses strategy (part :: rest) result error

theorem Refuses.forEach {strategy : Strategy π ρ} {parts : List π} {result : ρ} {error : Error}
    (refuses : Refuses strategy parts result error) (combined : Nat) :
    (Attempt.forEach Combiner.combineOne parts ⟨strategy, result, combined⟩).answer =
      .error error := by
  induction refuses generalizing combined with
  | now refused =>
    rw [Attempt.forEach, Attempt.traverse_cons_refused (by rw [Combiner.combineOne, refused])]
    rfl
  | later taken _ ih =>
    rw [Attempt.forEach_cons (by rw [Combiner.combineOne, taken]), ih]

theorem combine_of_refuses {strategy : Strategy π ρ} (each : strategy.oneAtATime = true)
    {parts : List π} {error : Error} (refuses : Refuses strategy parts strategy.start error) :
    combine strategy parts = .error error := by
  have refused := refuses.forEach 0
  rw [combine, Combiner.start, Combiner.combineAll, if_pos each]
  cases ended : Attempt.forEach Combiner.combineOne parts ⟨strategy, strategy.start, 0⟩ with
  | mk answer left =>
    rw [ended] at refused
    cases refused
    rfl

/-- A read answers what taking in the parts of its batches leads to. -/
theorem readBy_eq_ok {run : Executor.Runs} (inOrder : Executor.InOrder run)
    {read : BatchRead α π ρ} (part : Entries α → π) {final : ρ}
    (each : read.strategy.oneAtATime = true)
    (done : ∀ batch ∈ batching.cut entries, read.task batch = .done (part batch))
    (takes : Takes read.strategy ((batching.cut entries).map part) read.strategy.start final) :
    (batching.readBy run entries read).answer = .ok final :=
  (readBy_answer inOrder read part done).trans (combine_of_takes each takes)

end Batching

end Collections

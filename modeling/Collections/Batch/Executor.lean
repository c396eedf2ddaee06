import Collections.Attempt

/-! Tasks on batches, and the executors that run them.

The results come back in batch order. When a batch does not end well, the whole call is refused with
the reason of that batch.
-/

set_option autoImplicit false

namespace Collections

inductive Outcome (ρ : Type) where
  | done (value : ρ)
  | failed (error : Error)
  | crashed (text : Option String)
  deriving DecidableEq

namespace Outcome

variable {ρ τ : Type}

def andThen (outcome : Outcome ρ) (next : ρ → Outcome τ) : Outcome τ :=
  match outcome with
  | .done value => next value
  | .failed error => .failed error
  | .crashed text => .crashed text

/-- What the caller of an executor learns about one batch: a crash is reported as a failed execution
that names the batch. -/
def settle (batch : Nat) : Outcome ρ → Except Error ρ
  | .done value => .ok value
  | .failed error => .error error
  | .crashed text => .error (.batchCrashed batch (text.getD "unknown panic"))

/-- How a call ends that has no way to be refused: what refuses it is a crash with the same text. -/
def raise : Except Error ρ → Outcome ρ
  | .ok value => .done value
  | .error error => .crashed (some error.message)

end Outcome

/-- Where batches run. An executor that refuses answers every call with its own text and runs
nothing. -/
inductive Executor where
  | sequential
  | pool (threads : Nat)
  | hostPool
  | refusing (reason : String)
  deriving DecidableEq

namespace Executor

variable {β ρ σ : Type}

/-- The number of batches that may run at once; for the pool of the host this is for the host to
say. -/
def parallelism : Executor → Option Nat
  | .sequential => some 1
  | .pool threads => some threads
  | .hostPool => none
  | .refusing _ => some 1

abbrev Runs : Type 1 :=
  {β ρ σ : Type} → (β → σ → Outcome ρ × σ) → List β → σ → Attempt σ (List ρ)

-- The state comes back from a refusal too, so that it tells which tasks ran.
def runInOrder (task : β → σ → Outcome ρ × σ) (batches : List β) (shared : σ) :
    Attempt σ (List ρ) :=
  Attempt.traverse
    (fun (batch, index) shared =>
      let (outcome, shared) := task batch shared
      ⟨outcome.settle index, shared⟩)
    batches.zipIdx shared

/-- Run a task on each batch. A pool hands its results back in batch order, so that its answer is the
answer of running in order. -/
def run (executor : Executor) (task : β → σ → Outcome ρ × σ) (batches : List β) (shared : σ) :
    Attempt σ (List ρ) :=
  match executor with
  | .refusing reason => ⟨.error (.execution reason), shared⟩
  | .sequential | .pool _ | .hostPool => runInOrder task batches shared

end Executor

end Collections

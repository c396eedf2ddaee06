import Collections.Proofs.Bag.Parallel

/-! When the batches of a parallel layer go to its executor, and what goes there.

They go there all together, in one call, when they are several and the bag has enough distinct elements.
Any other read is the same on every executor.
-/

set_option autoImplicit false

namespace Collections

def Executor.Fails (run : Executor.Runs) (error : Error) : Prop :=
  ∀ {β ρ σ : Type} (task : β → σ → Outcome ρ × σ) (batches : List β) (shared : σ),
    (run task batches shared).answer = .error error

theorem Executor.fails_refusing (reason : String) :
    Fails (Executor.refusing reason).run (.execution reason) :=
  fun _ _ _ => rfl

namespace Bag

variable {α σ τ ω π ρ : Type} {batching : Batching} {inner : Bag α} {bagOf : τ → Bag α}
  {on : Executor.Runs → Attempt τ ρ} {call : Attempt τ ρ}

structure HandedOver (batching : Batching) (inner : Bag α) (bagOf : τ → Bag α)
    (on : Executor.Runs → Attempt τ ρ) : Prop where
  cut : CutInto batching.settings.batchSize inner.entries (batching.cut inner.entries)
  number : (batching.cut inner.entries).length = inner.distinct ⌈/⌉ batching.settings.batchSize
  -- All that the call learns from an executor is how one run of all the batches ends there.
  once : ∃ (π σ : Type) (task : Entries α → σ → Outcome π × σ) (shared : σ)
    (finish : Attempt σ (List π) → Attempt τ ρ), ∀ run : Executor.Runs,
      on run = finish (run task (batching.cut inner.entries) shared)
  left (run : Executor.Runs) : bagOf (on run).state = .parallel
    { batching with
      calls := batching.calls + 1
      batches := batching.batches + inner.distinct ⌈/⌉ batching.settings.batchSize }
    inner
  fails {run : Executor.Runs} {error : Error} :
    Executor.Fails run error → (on run).answer = .error error

structure KeptBack (batching : Batching) (inner : Bag α) (bagOf : τ → Bag α)
    (on : Executor.Runs → Attempt τ ρ) : Prop where
  alone (run other : Executor.Runs) : on run = on other
  left (run : Executor.Runs) : bagOf (on run).state = .parallel batching inner

/-- A call of a parallel layer over `inner`: on its own executor, and as it goes on any other. -/
structure Dispatched (batching : Batching) (inner : Bag α) (bagOf : τ → Bag α)
    (on : Executor.Runs → Attempt τ ρ) (call : Attempt τ ρ) : Prop where
  own : call = on batching.executor.run
  handed : batching.settings.batchSize < inner.distinct →
    batching.settings.minEntries ≤ inner.distinct → HandedOver batching inner bagOf on
  kept : ¬ (batching.settings.batchSize < inner.distinct ∧
    batching.settings.minEntries ≤ inner.distinct) → KeptBack batching inner bagOf on

theorem handedOver_dispatchBy (positive : 1 ≤ batching.settings.batchSize)
    (handed : batching.handsOver inner.entries = true) (strategy : Strategy π ρ)
    (task : Entries α → σ → Outcome π × σ) (shared : σ) :
    HandedOver batching inner (fun state : Batching × σ => .parallel state.1 inner)
      fun run => batching.dispatchBy run inner.entries strategy task shared where
  cut := cutInto_batchesOf positive inner.entries
  number := by rw [Batching.cut, length_batchesOf positive, length_entries]
  once := ⟨π, σ, task, shared, _, fun run => Batching.dispatchBy_handed run handed strategy task shared⟩
  left run := by
    rw [Batching.dispatchBy_handed run handed]
    simp only [Batching.conclude, Batching.counted, Batching.cut, length_batchesOf positive,
      length_entries]
  fails {run error} failing := by
    rw [Batching.dispatchBy_handed run handed, Batching.conclude, failing]
    rfl

theorem dispatched_dispatchBy (positive : 1 ≤ batching.settings.batchSize) (strategy : Strategy π ρ)
    (task : Entries α → σ → Outcome π × σ) (shared : σ) :
    Dispatched batching inner (fun state : Batching × σ => .parallel state.1 inner)
      (fun run => batching.dispatchBy run inner.entries strategy task shared)
      (batching.dispatchBy batching.executor.run inner.entries strategy task shared) where
  own := rfl
  handed several enough := by
    apply handedOver_dispatchBy positive
    exact (handsOver_iff positive).mpr ⟨several, enough⟩
  kept few := by
    have kept : batching.handsOver inner.entries = false := by
      rwa [← Bool.not_eq_true, handsOver_iff positive]
    constructor
    · intro run other
      rw [Batching.dispatchBy_kept run kept, Batching.dispatchBy_kept other kept]
    · intro run
      rw [Batching.dispatchBy_kept run kept]
      rfl

/-- The same call seen on another state that has the same bag. -/
theorem Dispatched.within (dispatched : Dispatched batching inner bagOf on call) {wrap : τ → ω}
    {bagIn : ω → Bag α} (same : ∀ state, bagIn (wrap state) = bagOf state) :
    Dispatched batching inner bagIn (fun run => (on run).within wrap) (call.within wrap) where
  own := congrArg (Attempt.within wrap) dispatched.own
  handed several enough := by
    have handed := dispatched.handed several enough
    obtain ⟨π, σ, task, shared, finish, once⟩ := handed.once
    exact {
      cut := handed.cut
      number := handed.number
      once := ⟨π, σ, task, shared, fun ran => (finish ran).within wrap,
        fun run => congrArg (Attempt.within wrap) (once run)⟩
      left := fun run => (same _).trans (handed.left run)
      fails := handed.fails }
  kept few := by
    have kept := dispatched.kept few
    constructor
    · exact fun run other => congrArg (Attempt.within wrap) (kept.alone run other)
    · exact fun run => (same _).trans (kept.left run)

theorem dispatched_readBy (positive : 1 ≤ batching.settings.batchSize) (read : BatchRead α π ρ) :
    Dispatched batching inner (.parallel · inner)
      (fun run => batching.readBy run inner.entries read) (batching.read inner.entries read) :=
  (dispatched_dispatchBy positive read.strategy _ ()).within fun _ => rfl

structure Infallible (batching : Batching) (inner : Bag α)
    (on : Executor.Runs → Attempt (Bag α) ρ) (call : Attempt (Bag α) ρ) : Prop
    extends Dispatched batching inner id on call where
  raises {run : Executor.Runs} {error : Error} :
    batching.settings.batchSize < inner.distinct →
      batching.settings.minEntries ≤ inner.distinct → Executor.Fails run error →
        Bag.ending (on run) = .crashed (some error.message)

theorem infallible_readBy (positive : 1 ≤ batching.settings.batchSize) (read : BatchRead α π ρ) :
    Infallible batching inner
      (fun run => (batching.readBy run inner.entries read).within (.parallel · inner))
      ((batching.read inner.entries read).within (.parallel · inner)) where
  toDispatched := (dispatched_readBy positive read).within fun _ => rfl
  raises several enough failing := by
    have refused := ((dispatched_readBy positive read).handed several enough).fails failing
    rw [ending, Attempt.within, refused]
    rfl

variable [DecidableEq α]

/-- Each call of a parallel layer that is read in batches. A visitor may never fail, and it may leave
what it saw in a state that the visits share. -/
structure Dispatches (batching : Batching) (inner : Bag α) : Prop where
  visit {σ : Type} (visitor : α × Nat → σ → Outcome Unit × σ) (shared : σ) :
    Dispatched batching inner (fun state : Batching × σ => .parallel state.1 inner)
      (fun run => batching.dispatchBy run inner.entries .discard (Batching.visitBatch visitor) shared)
      (batching.visit inner.entries visitor shared)
  select (wanted : α → Outcome Bool) : Dispatched batching inner (.parallel · inner)
    (fun run => batching.readBy run inner.entries (.select wanted))
    (batching.select inner.entries wanted)
  selectByCount (wanted : Nat → Bool) : Dispatched batching inner (.parallel · inner)
    (fun run => batching.readBy run inner.entries (.selectByCount wanted))
    (batching.selectByCount inner.entries wanted)
  unique : Dispatched batching inner (.parallel · inner)
    (fun run => batching.readBy run inner.entries .unique) (batching.unique inner.entries)
  collect {κ : Type} [DecidableEq κ] (f : α → Outcome κ) :
    Dispatched batching inner (.parallel · inner)
      (fun run => batching.readBy run inner.entries (.collect f)) (batching.collect inner.entries f)
  count (wanted : α → Outcome Bool) : Dispatched batching inner (.parallel · inner)
    (fun run => batching.readBy run inner.entries (.count wanted))
    (batching.count inner.entries wanted)
  -- The reads that every bag has.
  ownUnique : Infallible batching inner
    (fun run => (Bag.parallel batching inner).uniqueBy fun _ => run)
    (Bag.parallel batching inner).unique
  ownDuplicates : Infallible batching inner
    (fun run => (Bag.parallel batching inner).duplicatesBy fun _ => run)
    (Bag.parallel batching inner).duplicates
  ownMap : Infallible batching inner
    (fun run => (Bag.parallel batching inner).toMapBy fun _ => run)
    (Bag.parallel batching inner).toMap

theorem dispatches_by_size (batching : Batching) (inner : Bag α)
    (positive : 1 ≤ batching.settings.batchSize) : Dispatches batching inner where
  visit _ shared := dispatched_dispatchBy positive .discard _ shared
  select wanted := dispatched_readBy positive (.select wanted)
  selectByCount wanted := dispatched_readBy positive (.selectByCount wanted)
  unique := dispatched_readBy positive .unique
  collect f := dispatched_readBy positive (.collect f)
  count wanted := dispatched_readBy positive (.count wanted)
  ownUnique := infallible_readBy positive .unique
  ownDuplicates := infallible_readBy positive .duplicates
  ownMap := infallible_readBy positive .toMap

/-- Three batches go to an executor that refuses them, as soon as the bag has enough elements. -/
theorem dispatches_by_size_to_refusing :
    let bag : Bag Nat := .sorted compare (.plain ⟨[(3, 1), (1, 2), (2, 1), (5, 1), (4, 3)], 8⟩)
    let batching (minimum : Nat) : Batching := .ofParts (.refusing "closed") ⟨2, minimum⟩
    1 ≤ (batching 5).settings.batchSize ∧ Dispatches (batching 5) bag ∧
      ((batching 5).cut bag.entries).length = 3 ∧
      Bag.ending (Bag.parallel (batching 5) bag).unique = .crashed (some "Execution failed: closed") ∧
      ((batching 5).count bag.entries fun _ => .done true).answer = .error (.execution "closed") ∧
      1 ≤ (batching 6).settings.batchSize ∧
      ((batching 6).count bag.entries fun _ => .done true).answer =
        ((batching 6).readBy Executor.runInOrder bag.entries (.count fun _ => .done true)).answer := by
  intro bag batching
  have handed := dispatches_by_size (batching 5) bag (by decide)
  have kept := dispatches_by_size (batching 6) bag (by decide)
  have several : 2 < bag.distinct := by decide
  have refusing : Executor.Fails (Executor.refusing "closed").run (.execution "closed") :=
    Executor.fails_refusing "closed"
  refine ⟨by decide, handed, ?_, ?_, ?_, by decide, ?_⟩
  · rw [(handed.unique.handed several (by decide)).number]
    decide
  · exact handed.ownUnique.raises several (by decide) refusing
  · exact ((handed.count _).handed several (by decide)).fails refusing
  · exact congrArg Attempt.answer (((kept.count _).kept (by decide)).alone _ _)

end Bag

end Collections

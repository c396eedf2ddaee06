import Collections.Attempt
import Mathlib.Data.List.Forall2

/-! Runs of calls on a state that is kept when a call is refused: the run goes on with the next call.

A run is the list of its steps. Two machines that answer the same calls are compared step by step, by a
relation between their states that every call keeps.
-/

set_option autoImplicit false

namespace Collections

namespace Attempt

variable {σ ρ ε : Type} {error : Error}

@[simp] theorem map_refused {attempt : Attempt σ ρ} {f : ρ → ε} :
    (attempt.map f).answer = .error error ↔ attempt.answer = .error error := by
  simp only [Attempt.map]
  cases attempt.answer <;> simp [Except.map]

theorem ofExcept_refused {state : σ} {result : Except Error (ρ × σ)}
    (refused : (ofExcept state result).answer = .error error) :
    (ofExcept state result).state = state := by
  cases result with
  | error _ => rfl
  | ok _ => cases refused

theorem traverse_cons {β : Type} {step : β → σ → Attempt σ ρ} {item : β} {state next : σ}
    {value : ρ} {rest : List β} (accepted : step item state = ⟨.ok value, next⟩) :
    traverse step (item :: rest) state = (traverse step rest next).map (value :: ·) := by
  rw [traverse, accepted]

theorem traverse_cons_refused {β : Type} {step : β → σ → Attempt σ ρ} {item : β} {state left : σ}
    {rest : List β} (refused : step item state = ⟨.error error, left⟩) :
    traverse step (item :: rest) state = ⟨.error error, left⟩ := by
  rw [traverse, refused]

/-- What each step keeps, accepted or refused, is kept by a run. -/
theorem traverse_keeps {β : Type} {step : β → σ → Attempt σ ρ} {held : σ → Prop}
    (kept : ∀ item state, held state → held (step item state).state) (items : List β) {state : σ}
    (start : held state) : held (traverse step items state).state := by
  induction items generalizing state with
  | nil => exact start
  | cons item rest ih =>
    have next := kept item state start
    rw [traverse]
    generalize step item state = taken at next ⊢
    obtain ⟨answer, left⟩ := taken
    cases answer with
    | error error => exact next
    | ok value => exact ih next

/-- A run on a larger state is the run on the part of it that its steps are about. -/
theorem traverse_within {τ β : Type} {wrap : σ → τ} {step : β → σ → Attempt σ ρ}
    {outer : β → τ → Attempt τ ρ}
    (same : ∀ item state, outer item (wrap state) = (step item state).within wrap)
    (items : List β) (state : σ) :
    traverse outer items (wrap state) = (traverse step items state).within wrap := by
  induction items generalizing state with
  | nil => rfl
  | cons item rest ih =>
    rw [traverse, traverse, same]
    cases step item state with
    | mk answer next =>
      cases answer with
      | error error => rfl
      | ok value =>
        simp only [within, ih]
        rfl

theorem anyChange_within {τ β : Type} {wrap : σ → τ} {step : β → σ → Attempt σ Bool}
    {outer : β → τ → Attempt τ Bool}
    (same : ∀ item state, outer item (wrap state) = (step item state).within wrap)
    (items : List β) (state : σ) :
    anyChange outer items (wrap state) = (anyChange step items state).within wrap := by
  rw [anyChange, traverse_within same]
  rfl

theorem anyChange_cons {β : Type} {step : β → σ → Attempt σ Bool} {item : β} {state next : σ}
    {changed : Bool} {rest : List β} (accepted : step item state = ⟨.ok changed, next⟩) :
    anyChange step (item :: rest) state = (anyChange step rest next).map (changed || ·) := by
  rw [anyChange, anyChange, traverse_cons accepted]
  simp only [map]
  cases (traverse step rest next).answer <;> rfl

theorem anyChange_cons_refused {β : Type} {step : β → σ → Attempt σ Bool} {item : β}
    {state left : σ} {rest : List β} (refused : step item state = ⟨.error error, left⟩) :
    anyChange step (item :: rest) state = ⟨.error error, left⟩ := by
  rw [anyChange, traverse_cons_refused refused]
  rfl

/-- A run whose steps are all accepted is the fold of what they do. -/
theorem anyChange_of_accepted {β : Type} {step : β → σ → Attempt σ Bool} {next : σ → β → σ}
    (done : ∀ item state changed after, step item state = ⟨.ok changed, after⟩ → next state item = after)
    {items : List β} {state : σ} {flag : Bool}
    (accepted : (anyChange step items state).answer = .ok flag) :
    (anyChange step items state).state = items.foldl next state := by
  induction items generalizing state flag with
  | nil => rfl
  | cons item rest ih =>
    cases taken : step item state with
    | mk answer after =>
      cases answer with
      | error error =>
        rw [anyChange_cons_refused taken] at accepted
        cases accepted
      | ok changed =>
        rw [anyChange_cons taken] at accepted ⊢
        cases later : (anyChange step rest after).answer with
        | error error => simp [map, later, Except.map] at accepted
        | ok other =>
          rw [List.foldl_cons, done item state changed after taken]
          exact ih later

theorem forEach_cons {β : Type} {step : β → σ → Attempt σ Unit} {item : β} {state next : σ}
    {rest : List β} (accepted : step item state = ⟨.ok (), next⟩) :
    forEach step (item :: rest) state = forEach step rest next := by
  rw [forEach, forEach, traverse_cons accepted]
  simp only [map]
  cases (traverse step rest next).answer <;> rfl

theorem forEach_cons_refused {β : Type} {step : β → σ → Attempt σ Unit} {item : β} {state left : σ}
    {rest : List β} (refused : step item state = ⟨.error error, left⟩) :
    forEach step (item :: rest) state = ⟨.error error, left⟩ := by
  rw [forEach, traverse_cons_refused refused]
  rfl

theorem forEach_cons_accepted {β : Type} {step : β → σ → Attempt σ Unit} {item : β}
    {state final : σ} {rest : List β} (through : forEach step (item :: rest) state = ⟨.ok (), final⟩) :
    ∃ next, step item state = ⟨.ok (), next⟩ ∧ forEach step rest next = ⟨.ok (), final⟩ := by
  cases taken : step item state with
  | mk answer next =>
    cases answer with
    | error error =>
      rw [forEach_cons_refused taken] at through
      cases through
    | ok _ =>
      rw [forEach_cons taken] at through
      exact ⟨next, rfl, through⟩

/-- A run gets through all items, or up to the first one that is refused. -/
theorem forEach_splits {β : Type} (step : β → σ → Attempt σ Unit) (items : List β) (state : σ) :
    (∃ final, forEach step items state = ⟨.ok (), final⟩) ∨
      ∃ earlier item later reached error left, items = earlier ++ item :: later ∧
        forEach step earlier state = ⟨.ok (), reached⟩ ∧ step item reached = ⟨.error error, left⟩ := by
  induction items generalizing state with
  | nil => exact .inl ⟨state, rfl⟩
  | cons first rest ih =>
    cases taken : step first state with
    | mk answer next =>
      cases answer with
      | error error => exact .inr ⟨[], first, rest, state, error, next, rfl, rfl, taken⟩
      | ok _ =>
        obtain ⟨final, through⟩ | ⟨earlier, item, later, reached, error, left, rfl, up, refused⟩ :=
          ih next
        · exact .inl ⟨final, (forEach_cons taken).trans through⟩
        · exact .inr ⟨first :: earlier, item, later, reached, error, left, rfl,
            (forEach_cons taken).trans up, refused⟩

structure Agree {τ : Type} (related : σ → τ → Prop) (here : Attempt σ ρ) (there : Attempt τ ρ) :
    Prop where
  answer : here.answer = there.answer
  state : related here.state there.state

section Agreement

variable {τ β : Type} {related : σ → τ → Prop} {here : Attempt σ ρ} {there : Attempt τ ρ}

theorem Agree.map (agree : Agree related here there) (f : ρ → ε) :
    Agree related (here.map f) (there.map f) :=
  ⟨congrArg (Except.map f) agree.answer, agree.state⟩

theorem Agree.within {σ' τ' : Type} {outer : σ' → τ' → Prop} {wrap : σ → σ'} {cover : τ → τ'}
    (agree : Agree related here there) (kept : ∀ state shadow, related state shadow →
      outer (wrap state) (cover shadow)) : Agree outer (here.within wrap) (there.within cover) :=
  ⟨agree.answer, kept _ _ agree.state⟩

theorem traverse_agree {step : β → σ → Attempt σ ρ} {model : β → τ → Attempt τ ρ}
    (each : ∀ item state shadow, related state shadow →
      Agree related (step item state) (model item shadow))
    (items : List β) {state : σ} {shadow : τ} (start : related state shadow) :
    Agree related (traverse step items state) (traverse model items shadow) := by
  induction items generalizing state shadow with
  | nil => exact ⟨rfl, start⟩
  | cons item rest ih =>
    obtain ⟨same, kept⟩ := each item state shadow start
    rw [traverse, traverse]
    generalize step item state = here at same kept
    generalize model item shadow = there at same kept
    obtain ⟨answer, next⟩ := here
    obtain ⟨_, follower⟩ := there
    cases same
    cases answer with
    | error error => exact ⟨rfl, kept⟩
    | ok value => exact (ih kept).map (value :: ·)

theorem anyChange_agree {step : β → σ → Attempt σ Bool} {model : β → τ → Attempt τ Bool}
    (each : ∀ item state shadow, related state shadow →
      Agree related (step item state) (model item shadow))
    (items : List β) {state : σ} {shadow : τ} (start : related state shadow) :
    Agree related (anyChange step items state) (anyChange model items shadow) :=
  (traverse_agree each items start).map _

end Agreement

end Attempt

structure Step (σ β ρ : Type) where
  start : σ
  call : β
  answer : Except Error ρ
  finish : σ

namespace Step

variable {σ τ β ρ : Type}

def of (state : σ) (call : β) (attempt : Attempt σ ρ) : Step σ β ρ :=
  ⟨state, call, attempt.answer, attempt.state⟩

def run (apply : σ → β → Attempt σ ρ) : σ → List β → List (Step σ β ρ)
  | _, [] => []
  | state, call :: rest => of state call (apply state call) :: run apply (apply state call).state rest

def reached (apply : σ → β → Attempt σ ρ) (state : σ) (calls : List β) : σ :=
  calls.foldl (fun state call => (apply state call).state) state

/-- The steps of a run whose calls may break down; then there is no run. -/
def runGuarded (apply : σ → β → Option (Attempt σ ρ)) : σ → List β → Option (List (Step σ β ρ))
  | _, [] => some []
  | state, call :: rest =>
    (apply state call).bind fun attempt =>
      (runGuarded apply attempt.state rest).map (of state call attempt :: ·)

/-- What a call keeps of the state it finds holds at each step of the run. -/
theorem run_keeps {apply : σ → β → Attempt σ ρ} {good : Step σ β ρ → Prop} (held : σ → Prop)
    (kept : ∀ state call, held state → held (apply state call).state)
    (each : ∀ state call, held state → good (of state call (apply state call)))
    {state : σ} (start : held state) (calls : List β) : ∀ step ∈ run apply state calls, good step := by
  induction calls generalizing state with
  | nil => exact List.forall_mem_nil _
  | cons call rest ih =>
    exact List.forall_mem_cons.mpr ⟨each state call start, ih (kept state call start)⟩

/-- What every call keeps holds in the state where the run ends. -/
theorem reached_keeps {apply : σ → β → Attempt σ ρ} {held : σ → Prop}
    (kept : ∀ state call, held state → held (apply state call).state) {state : σ}
    (start : held state) (calls : List β) : held (reached apply state calls) := by
  induction calls generalizing state with
  | nil => exact start
  | cons call rest ih => exact ih (kept state call start)

-- The history is of the steps before a call, so the induction starts from any history that fits the state.
/-- What relates each state to the steps that led there holds at each step of a run, as long as the calls of
the run are among those that keep it. -/
theorem run_history {apply : σ → β → Attempt σ ρ} {good : List (Step σ β ρ) → Step σ β ρ → Prop}
    {held : σ → List (Step σ β ρ) → Prop} {allowed : β → Prop}
    (kept : ∀ state before call, allowed call → held state before →
      held (apply state call).state (before ++ [of state call (apply state call)]))
    (each : ∀ state before call, allowed call → held state before →
      good before (of state call (apply state call)))
    {state : σ} {before : List (Step σ β ρ)} (start : held state before) {calls : List β}
    (among : ∀ call ∈ calls, allowed call) {earlier later : List (Step σ β ρ)} {step : Step σ β ρ}
    (split : run apply state calls = earlier ++ step :: later) : good (before ++ earlier) step := by
  induction calls generalizing state before earlier with
  | nil => simp [run] at split
  | cons call rest ih =>
    obtain ⟨here, there⟩ := List.forall_mem_cons.mp among
    cases earlier with
    | nil =>
      obtain ⟨first, -⟩ := List.cons.inj split
      rw [List.append_nil]
      exact first ▸ each state before call here start
    | cons head middle =>
      obtain ⟨first, after⟩ := List.cons.inj split
      rw [List.append_cons]
      exact first ▸ ih (kept state before call here start) there after

/-- What relates each state to a record of the steps that led there holds at each step of the run. -/
theorem run_records {η : Type} {apply : σ → β → Attempt σ ρ} {note : η → Step σ β ρ → η}
    {good : η → Step σ β ρ → Prop} {held : σ → η → Prop}
    (kept : ∀ state record call, held state record →
      held (apply state call).state (note record (of state call (apply state call))))
    (each : ∀ state record call, held state record → good record (of state call (apply state call)))
    {state : σ} {record : η} (start : held state record) {calls : List β}
    {earlier later : List (Step σ β ρ)} {step : Step σ β ρ}
    (split : run apply state calls = earlier ++ step :: later) :
    good (earlier.foldl note record) step := by
  let recorded (before : List (Step σ β ρ)) : η := before.foldl note record
  have noted : ∀ state before call, True → held state (recorded before) →
      held (apply state call).state (recorded (before ++ [of state call (apply state call)])) := by
    intro state before call _ holds
    simp only [recorded, List.foldl_append]
    exact kept state _ call holds
  have begun : held state (recorded []) := start
  exact run_history noted (fun state before call _ => each state (recorded before) call) begun
    (fun _ _ => trivial) split

section Comparison

variable {apply : σ → β → Attempt σ ρ} {model : τ → β → Attempt τ ρ}
variable {related : σ → τ → Prop} {agree : Step σ β ρ → Step τ β ρ → Prop}

-- Two states that are related go on to related states, so the induction on the calls is for any such
-- two; what holds of a single call then holds of each call of the run.
/-- Whatever relates the states before and after every call holds along the run. -/
theorem run_agrees
    (kept : ∀ state shadow call, related state shadow →
      related (apply state call).state (model shadow call).state)
    (answered : ∀ state shadow call, related state shadow →
      agree (of state call (apply state call)) (of shadow call (model shadow call)))
    {state : σ} {shadow : τ} (start : related state shadow) (calls : List β) :
    List.Forall₂ agree (run apply state calls) (run model shadow calls) := by
  induction calls generalizing state shadow with
  | nil => exact .nil
  | cons call rest ih =>
    exact .cons (answered state shadow call start) (ih (kept state shadow call start))

/-- A run does not break down when none of its calls does. -/
theorem runGuarded_eq {guarded : σ → β → Option (Attempt σ ρ)}
    (kept : ∀ state shadow call, related state shadow →
      related (apply state call).state (model shadow call).state)
    (safe : ∀ state shadow call, related state shadow →
      guarded state call = some (apply state call))
    {state : σ} {shadow : τ} (start : related state shadow) (calls : List β) :
    runGuarded guarded state calls = some (run apply state calls) := by
  induction calls generalizing state shadow with
  | nil => rfl
  | cons call rest ih =>
    rw [runGuarded, safe state shadow call start, Option.bind_some,
      ih (kept state shadow call start)]
    rfl

end Comparison

end Step

end Collections

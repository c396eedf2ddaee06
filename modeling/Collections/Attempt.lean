import Collections.Error

/-! Calls that may be refused and leave a state behind either way. -/

set_option autoImplicit false

namespace Collections

structure Attempt (σ ρ : Type) where
  answer : Except Error ρ
  state : σ

namespace Attempt

variable {σ τ ρ β : Type}

/-- A call that is refused without touching the state, or accepted with a new one. -/
def ofExcept (state : σ) : Except Error (ρ × σ) → Attempt σ ρ
  | .ok (value, next) => ⟨.ok value, next⟩
  | .error error => ⟨.error error, state⟩

def within (wrap : σ → τ) (attempt : Attempt σ ρ) : Attempt τ ρ :=
  ⟨attempt.answer, wrap attempt.state⟩

def map (f : ρ → β) (attempt : Attempt σ ρ) : Attempt σ β :=
  ⟨attempt.answer.map f, attempt.state⟩

/-- One call for each item, in order. The first refusal ends the run and what the earlier calls did
stays done. -/
def traverse (step : β → σ → Attempt σ ρ) : List β → σ → Attempt σ (List ρ)
  | [], state => ⟨.ok [], state⟩
  | item :: rest, state =>
    match step item state with
    | ⟨.error error, left⟩ => ⟨.error error, left⟩
    | ⟨.ok value, next⟩ => (traverse step rest next).map (value :: ·)

/-- A run whose accepted answer says whether any of its calls changed something. -/
def anyChange (step : β → σ → Attempt σ Bool) (items : List β) (state : σ) : Attempt σ Bool :=
  (traverse step items state).map (·.any id)

def forEach (step : β → σ → Attempt σ Unit) (items : List β) (state : σ) : Attempt σ Unit :=
  (traverse step items state).map fun _ => ()

end Attempt

end Collections

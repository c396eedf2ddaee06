import Collections.Keyed
import Mathlib.Data.List.Nodup

/-! Laws of filed values: what is found under a key after a change, and which keys there are.

Changing a value keeps the order of the keys; a new key comes last.
-/

set_option autoImplicit false

namespace Collections.Keyed

variable {κ ν : Type} [DecidableEq κ]

theorem valueOf?_eq_none {filed : Keyed κ ν} {key : κ} :
    valueOf? filed key = none ↔ key ∉ filed.map Prod.fst := by
  induction filed with
  | nil => simp [valueOf?]
  | cons pair rest ih =>
    by_cases same : pair.1 = key
    · simp [valueOf?, same]
    · simp [valueOf?, same, ih, Ne.symm same]

theorem mem_of_valueOf? {filed : Keyed κ ν} {key : κ} {value : ν}
    (found : valueOf? filed key = some value) : (key, value) ∈ filed := by
  induction filed with
  | nil => cases found
  | cons pair rest ih =>
    by_cases same : pair.1 = key
    · subst same
      simp only [valueOf?, ↓reduceIte, Option.some.injEq] at found
      subst found
      exact List.mem_cons_self
    · simp only [valueOf?, same, ↓reduceIte] at found
      exact List.mem_cons_of_mem _ (ih found)

/-- Among different keys the pair of a key is the one that is found under it. -/
theorem valueOf?_of_mem {filed : Keyed κ ν} (distinct : (filed.map Prod.fst).Nodup)
    {pair : κ × ν} (member : pair ∈ filed) : valueOf? filed pair.1 = some pair.2 := by
  induction filed with
  | nil => cases member
  | cons head rest ih =>
    obtain ⟨fresh, distinct⟩ := List.nodup_cons.mp distinct
    rcases List.mem_cons.mp member with same | member
    · subst same
      simp [valueOf?]
    · have other : head.1 ≠ pair.1 := by
        intro same
        exact fresh (same ▸ List.mem_map_of_mem member)
      simpa only [valueOf?, other, ↓reduceIte] using ih distinct member

/-! ## Changing a value -/

theorem valueOf?_update (filed : Keyed κ ν) (key : κ) (start : ν) (change : ν → ν) (other : κ) :
    valueOf? (update filed key start change) other =
      if key = other then some (change ((valueOf? filed key).getD start))
      else valueOf? filed other := by
  induction filed with
  | nil => simp [update, valueOf?]
  | cons pair rest ih =>
    by_cases same : pair.1 = key
    · by_cases target : key = other
      · simp [update, valueOf?, same, target]
      · simp [update, valueOf?, same, target]
    · by_cases target : key = other
      · subst target
        simpa [update, valueOf?, same] using ih
      · by_cases found : pair.1 = other
        · subst found
          simp [update, valueOf?, same, target]
        · simpa [update, valueOf?, same, found, target] using ih

theorem valueOf?_append (filed more : Keyed κ ν) (key : κ) :
    valueOf? (filed ++ more) key = (valueOf? filed key).or (valueOf? more key) := by
  induction filed with
  | nil => rfl
  | cons pair rest ih =>
    by_cases same : pair.1 = key
    · simp [valueOf?, same]
    · simpa [valueOf?, same] using ih

-- Of the pairs that are filed the last one under a key stays, and so they are looked up from the end.
theorem valueOf?_foldl_insert (filed more : Keyed κ ν) (key : κ) :
    valueOf? (more.foldl (fun filed pair => filed.insert pair.1 pair.2) filed) key =
      (valueOf? more.reverse key).or (valueOf? filed key) := by
  induction more generalizing filed with
  | nil => rfl
  | cons pair rest ih =>
    rw [List.foldl_cons, ih, List.reverse_cons, valueOf?_append, Option.or_assoc, insert,
      valueOf?_update]
    by_cases same : pair.1 = key
    · simp [valueOf?, same]
    · simp [valueOf?, same]

theorem keys_update (filed : Keyed κ ν) (key : κ) (start : ν) (change : ν → ν) :
    (update filed key start change).map Prod.fst =
      if key ∈ filed.map Prod.fst then filed.map Prod.fst else filed.map Prod.fst ++ [key] := by
  induction filed with
  | nil => rfl
  | cons pair rest ih =>
    by_cases same : pair.1 = key
    · simp [update, same]
    · simp only [update, same, ↓reduceIte, List.map_cons, ih, List.mem_cons, Ne.symm same,
        false_or]
      split <;> rfl

theorem nodup_update {filed : Keyed κ ν} (distinct : (filed.map Prod.fst).Nodup) (key : κ)
    (start : ν) (change : ν → ν) : ((update filed key start change).map Prod.fst).Nodup := by
  rw [keys_update]
  split
  · exact distinct
  · rename_i fresh
    refine List.nodup_append.mpr ⟨distinct, List.nodup_singleton key, ?_⟩
    intro other member last new same
    exact fresh (List.mem_singleton.mp new ▸ same ▸ member)

/-- Every pair after a change is an earlier one or the changed one. -/
theorem mem_update {filed : Keyed κ ν} {key : κ} {start : ν} {change : ν → ν} {pair : κ × ν}
    (member : pair ∈ update filed key start change) :
    pair ∈ filed ∨ pair = (key, change ((valueOf? filed key).getD start)) := by
  induction filed with
  | nil => exact Or.inr (List.mem_singleton.mp member)
  | cons head rest ih =>
    by_cases same : head.1 = key
    · simp only [update, same, ↓reduceIte, List.mem_cons] at member
      rcases member with changed | member
      · exact Or.inr (by simp only [valueOf?, same, ↓reduceIte, Option.getD_some, changed])
      · exact Or.inl (List.mem_cons_of_mem _ member)
    · simp only [update, same, ↓reduceIte, List.mem_cons] at member
      rcases member with kept | member
      · exact Or.inl (kept ▸ List.mem_cons_self)
      · rcases ih member with earlier | changed
        · exact Or.inl (List.mem_cons_of_mem _ earlier)
        · exact Or.inr (by simpa only [valueOf?, same, ↓reduceIte] using changed)

/-- A pair under a new key goes to the end. -/
theorem update_of_not_mem {filed : Keyed κ ν} {key : κ} (fresh : key ∉ filed.map Prod.fst)
    (start : ν) (change : ν → ν) :
    update filed key start change = filed ++ [(key, change start)] := by
  induction filed with
  | nil => rfl
  | cons pair rest ih =>
    simp only [List.map_cons, List.mem_cons, not_or] at fresh
    simp only [update, Ne.symm fresh.1, ↓reduceIte, ih fresh.2, List.cons_append]

omit [DecidableEq κ] in
/-- A fold whose steps put pairs under new keys at the end puts all of them there. -/
theorem foldl_of_fresh {step : Keyed κ ν → κ × ν → Keyed κ ν}
    (append : ∀ filed pair, pair.1 ∉ filed.map Prod.fst → step filed pair = filed ++ [pair])
    {filed more : Keyed κ ν} (distinct : ((filed ++ more).map Prod.fst).Nodup) :
    more.foldl step filed = filed ++ more := by
  induction more generalizing filed with
  | nil => rw [List.foldl_nil, List.append_nil]
  | cons pair rest ih =>
    have front : (filed ++ [pair]) ++ rest = filed ++ pair :: rest := by simp
    have fresh : pair.1 ∉ filed.map Prod.fst := by
      rw [List.map_append, List.nodup_append] at distinct
      intro member
      exact distinct.2.2 _ member _ List.mem_cons_self rfl
    rw [List.foldl_cons, append filed pair fresh, ih (front ▸ distinct), front]

/-- Two changes that agree on the value under the key are one change. -/
theorem update_congr {filed : Keyed κ ν} {key : κ} {start first : ν} {change next : ν → ν}
    (agree : change ((valueOf? filed key).getD start) = next ((valueOf? filed key).getD first)) :
    update filed key start change = update filed key first next := by
  induction filed with
  | nil => simpa [update, valueOf?] using agree
  | cons pair rest ih =>
    by_cases same : pair.1 = key
    · simp only [valueOf?, same, ↓reduceIte, Option.getD_some] at agree
      simp only [update, same, ↓reduceIte, agree]
    · simp only [valueOf?, same, ↓reduceIte] at agree
      simp only [update, same, ↓reduceIte, ih agree]

/-! ## Taking a pair out -/

theorem erase_sublist (filed : Keyed κ ν) (key : κ) : (erase filed key).Sublist filed := by
  induction filed with
  | nil => exact .slnil
  | cons pair rest ih =>
    by_cases same : pair.1 = key
    · simp [erase, same]
    · simpa only [erase, same, ↓reduceIte] using ih.cons_cons pair

theorem erase_of_not_mem {filed : Keyed κ ν} {key : κ} (absent : key ∉ filed.map Prod.fst) :
    erase filed key = filed := by
  induction filed with
  | nil => rfl
  | cons pair rest ih =>
    simp only [List.map_cons, List.mem_cons, not_or] at absent
    simp only [erase, Ne.symm absent.1, ↓reduceIte, ih absent.2]

theorem valueOf?_erase {filed : Keyed κ ν} (distinct : (filed.map Prod.fst).Nodup) (key other : κ) :
    valueOf? (erase filed key) other = if key = other then none else valueOf? filed other := by
  induction filed with
  | nil => simp [erase, valueOf?]
  | cons pair rest ih =>
    obtain ⟨fresh, distinct⟩ := List.nodup_cons.mp distinct
    by_cases same : pair.1 = key
    · subst same
      by_cases target : pair.1 = other
      · subst target
        simpa [erase] using valueOf?_eq_none.mpr fresh
      · simp [erase, valueOf?, target]
    · by_cases found : pair.1 = other
      · subst found
        simp [erase, valueOf?, same, Ne.symm same]
      · simpa [erase, valueOf?, same, found] using ih distinct

end Collections.Keyed

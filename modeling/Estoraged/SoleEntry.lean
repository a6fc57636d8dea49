import Mathlib.Logic.Function.Basic

/-!
# Tables with one entry

A table of optional entries in which at most one place is taken. `Sole t cur` says
that the one entry is `cur`, or that there is none.
-/

namespace SoleEntry
set_option autoImplicit false

variable {ι α : Type*}

def Sole (t : ι → Option α) : Option α → Prop
  | none => ∀ i, t i = none
  | some a => ∃ i, t i = some a ∧ ∀ j, j ≠ i → t j = none

variable {t : ι → Option α} {cur : Option α} {a b : α} {i j : ι}

theorem Sole.eq_of_mem (h : Sole t cur) (ha : t i = some a) : cur = some a := by
  cases cur with
  | none => simp [h i] at ha
  | some c =>
    rcases h with ⟨k, hk, hother⟩
    by_cases hik : i = k
    · rw [← hk, ← hik, ha]
    · simp [hother i hik] at ha

theorem Sole.other_none (h : Sole t cur) (ha : t i = some a) (hne : j ≠ i) : t j = none := by
  obtain rfl := h.eq_of_mem ha
  rcases h with ⟨k, _, hother⟩
  have hik : i = k := by
    by_contra hne'
    simp [hother i hne'] at ha
  exact hother j (hik ▸ hne)

variable [DecidableEq ι]

theorem Sole.fill (h : Sole t none) (i : ι) (a : α) :
    Sole (Function.update t i (some a)) (some a) := by
  refine ⟨i, Function.update_self i _ t, ?_⟩
  intro j hne
  rw [Function.update_of_ne hne]
  exact h j

theorem Sole.clear (h : Sole t cur) (ha : t i = some a) :
    Sole (Function.update t i none) none := by
  intro j
  by_cases hne : j = i
  · rw [hne, Function.update_self]
  · rw [Function.update_of_ne hne]
    exact h.other_none ha hne

theorem Sole.clear_free (h : Sole t cur) (hi : t i = none) :
    Sole (Function.update t i none) cur := by
  rwa [← hi, Function.update_eq_self]

theorem Sole.replace (h : Sole t cur) (ha : t i = some a) (j : ι) (b : α) :
    Sole (Function.update (Function.update t i none) j (some b)) (some b) :=
  (h.clear ha).fill j b

end SoleEntry

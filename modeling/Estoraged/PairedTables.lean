import Mathlib.Data.List.Basic

/-!
# Tables that keep a pair together

A list of pairs in which a key stands with one value only, and that value with no other key.
Looking up either of them is then looking up the pair.
-/

namespace PairedTables
set_option autoImplicit false

variable {κ υ : Type*} {a a' : κ} {b b' : υ} {t : List (κ × υ)}

def Paired (a : κ) (b : υ) (t : List (κ × υ)) : Prop := ∀ entry ∈ t, entry.1 = a ↔ entry.2 = b

theorem Paired.key_iff (h : Paired a b t) : a ∈ t.map Prod.fst ↔ (a, b) ∈ t := by
  constructor
  · intro hmem
    obtain ⟨⟨k, v⟩, hentry, rfl⟩ := List.mem_map.mp hmem
    obtain rfl : v = b := (h _ hentry).mp rfl
    exact hentry
  · intro hmem
    exact List.mem_map.mpr ⟨_, hmem, rfl⟩

theorem Paired.value_iff (h : Paired a b t) : b ∈ t.map Prod.snd ↔ (a, b) ∈ t := by
  constructor
  · intro hmem
    obtain ⟨⟨k, v⟩, hentry, rfl⟩ := List.mem_map.mp hmem
    obtain rfl : k = a := (h _ hentry).mpr rfl
    exact hentry
  · intro hmem
    exact List.mem_map.mpr ⟨_, hmem, rfl⟩

theorem Paired.cons (h : Paired a b t) (hpair : a' = a ↔ b' = b) :
    Paired a b ((a', b') :: t) := by
  intro entry hentry
  rcases List.mem_cons.mp hentry with rfl | hentry
  · exact hpair
  · exact h entry hentry

theorem Paired.filter (h : Paired a b t) (keep : κ × υ → Bool) : Paired a b (t.filter keep) := by
  intro entry hentry
  exact h entry (List.mem_filter.mp hentry).1

end PairedTables

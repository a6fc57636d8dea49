import Mathlib.Order.Lattice
import Mathlib.Data.List.Pairwise

/-!
# Flat maps

An association list kept in strictly increasing order of its keys, as the flat map
of Boost.
-/

set_option autoImplicit false

structure FlatMap (κ υ : Type) [LinearOrder κ] where
  entries : List (κ × υ)
  sorted : entries.Pairwise fun a b => a.1 < b.1

namespace FlatMap
variable {κ υ : Type} [LinearOrder κ]

def empty : FlatMap κ υ := ⟨[], .nil⟩

def size (m : FlatMap κ υ) : Nat := m.entries.length

def findEntry (k : κ) : List (κ × υ) → Option υ
  | [] => none
  | (k', v) :: rest => if k' = k then some v else findEntry k rest

def find? (m : FlatMap κ υ) (k : κ) : Option υ := findEntry k m.entries

/-- Insertion in order; the value of a key that is there is replaced. -/
def assignEntry (k : κ) (v : υ) : List (κ × υ) → List (κ × υ)
  | [] => [(k, v)]
  | (k', v') :: rest =>
    if k < k' then (k, v) :: (k', v') :: rest
    else if k' = k then (k, v) :: rest
    else (k', v') :: assignEntry k v rest

theorem mem_assignEntry {k : κ} {v : υ} {l : List (κ × υ)} {a : κ × υ}
    (h : a ∈ assignEntry k v l) : a = (k, v) ∨ a ∈ l := by
  induction l with
  | nil => simpa [assignEntry] using h
  | cons b rest ih =>
    unfold assignEntry at h
    split_ifs at h
    · simpa using h
    · rcases List.mem_cons.mp h with rfl | hmem
      · exact .inl rfl
      · exact .inr (List.mem_cons_of_mem _ hmem)
    · rcases List.mem_cons.mp h with rfl | hmem
      · exact .inr List.mem_cons_self
      · exact (ih hmem).imp_right (List.mem_cons_of_mem _)

theorem assignEntry_sorted (k : κ) (v : υ) {l : List (κ × υ)}
    (h : l.Pairwise fun a b => a.1 < b.1) :
    (assignEntry k v l).Pairwise fun a b => a.1 < b.1 := by
  induction l with
  | nil => simp [assignEntry]
  | cons b rest ih =>
    obtain ⟨hhead, hrest⟩ := List.pairwise_cons.mp h
    unfold assignEntry
    split_ifs with hlt heq
    · refine List.pairwise_cons.mpr ⟨fun a ha => ?_, h⟩
      rcases List.mem_cons.mp ha with rfl | hmem
      · exact hlt
      · exact hlt.trans (hhead a hmem)
    · exact List.pairwise_cons.mpr ⟨heq ▸ hhead, hrest⟩
    · refine List.pairwise_cons.mpr ⟨fun a ha => ?_, ih hrest⟩
      rcases mem_assignEntry ha with rfl | hmem
      · exact lt_of_le_of_ne (not_lt.mp hlt) heq
      · exact hhead a hmem

/-- `operator[]` followed by an assignment. -/
def assign (m : FlatMap κ υ) (k : κ) (v : υ) : FlatMap κ υ :=
  ⟨assignEntry k v m.entries, assignEntry_sorted k v m.sorted⟩

@[simp] theorem find?_empty (k : κ) : (empty : FlatMap κ υ).find? k = none := rfl

theorem findEntry_assignEntry (k k' : κ) (v : υ) (l : List (κ × υ)) :
    findEntry k' (assignEntry k v l) = if k' = k then some v else findEntry k' l := by
  induction l with
  | nil => simp [assignEntry, findEntry, eq_comm]
  | cons b rest ih =>
    unfold assignEntry
    by_cases hlt : k < b.1
    · rw [if_pos hlt]
      simp [findEntry, eq_comm]
    · rw [if_neg hlt]
      by_cases heq : b.1 = k
      · rw [if_pos heq]
        by_cases hk : k' = k
        · simp [findEntry, hk]
        · simp [findEntry, hk, Ne.symm hk, heq]
      · rw [if_neg heq]
        by_cases hk : k' = k
        · subst hk
          simp [findEntry, ih, heq]
        · simp [findEntry, ih, hk]

@[simp] theorem find?_assign_self (m : FlatMap κ υ) (k : κ) (v : υ) :
    (m.assign k v).find? k = some v :=
  (findEntry_assignEntry k k v m.entries).trans (if_pos rfl)

theorem find?_assign_of_ne (m : FlatMap κ υ) {k k' : κ} (hne : k' ≠ k) (v : υ) :
    (m.assign k v).find? k' = m.find? k' :=
  (findEntry_assignEntry k k' v m.entries).trans (if_neg hne)

theorem find?_assign_cases {m : FlatMap κ υ} {k k' : κ} {v v' : υ}
    (h : (m.assign k v).find? k' = some v') : (k' = k ∧ v = v') ∨ m.find? k' = some v' := by
  by_cases hk : k' = k
  · subst hk
    rw [find?_assign_self] at h
    exact .inl ⟨rfl, Option.some.inj h⟩
  · rw [find?_assign_of_ne m hk] at h
    exact .inr h

end FlatMap

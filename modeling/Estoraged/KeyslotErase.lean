import Estoraged.Volume
import Mathlib.Data.List.Basic

/-!
# The erase of the keyslots

`CryptErase::doErase` over a table of keyslot states. The loop asks for each state when
it comes to the slot, and what it asks for may have changed since the erase began: the
last active slot is reported as such once the others are gone.
-/

namespace Estoraged
open Interaction
set_option autoImplicit false

abbrev SlotTable := Nat → KeyslotInfo

/-- The return codes of the calls `doErase` makes; a destroy succeeds with code 0. -/
structure KeyslotTools where
  cryptInit : InitAnswer
  cryptLoad : Int
  cryptKeySlotMax : Int
  cryptKeyslotDestroy : Nat → Int

structure Destroyed (i : Nat) (slots slots' : SlotTable) : Prop where
  inactive : slots' i = .inactive
  others : ∀ j ≠ i, slots' j = slots j ∨
    (slots j).working = true ∧ (slots' j).working = true

namespace KeyslotTools

def answers (tools : KeyslotTools) (slots slots' : SlotTable) : (c : Call) → c.Ret → Prop
  | .cryptInit, r => r = tools.cryptInit ∧ slots' = slots
  | .cryptLoad, r => r = tools.cryptLoad ∧ slots' = slots
  | .cryptKeySlotMax, r => r = tools.cryptKeySlotMax ∧ slots' = slots
  | .cryptKeySlotStatus i, r => r = slots i ∧ slots' = slots
  | .cryptKeyslotDestroy i, r => r = tools.cryptKeyslotDestroy i ∧
    if r = 0 then Destroyed i slots slots' else slots' = slots
  | _, _ => slots' = slots

def env (tools : KeyslotTools) : Env ports SlotTable := fun slots c r slots' =>
  tools.answers slots slots' c r

/-- The handle can be had, the header is loaded and there are slots to go through. -/
structure Ready (tools : KeyslotTools) : Prop where
  init : 0 ≤ tools.cryptInit.retval
  cryptDev : tools.cryptInit.cryptDev = true
  load : tools.cryptLoad = 0
  slots : 0 < tools.cryptKeySlotMax

end KeyslotTools

def Call.destroys : Call → Option Nat
  | .cryptKeyslotDestroy i => some i
  | _ => none

def destroyCalls {σ : Type} (tr : Trace ports σ) : List Nat :=
  tr.filterMap fun ev => Call.destroys ev.call

/-! ## The loop -/

/-- What the slots from `i` to `i + n` go through. -/
structure Swept (tools : KeyslotTools) (n i : Nat) (slots : SlotTable)
    (tr : Trace ports SlotTable) (slots' : SlotTable) : Prop where
  calls : destroyCalls tr = (List.range' i n).filter fun j => (slots j).working
  working : ∀ j, (slots' j).working = true ↔ (slots j).working = true ∧
    (i ≤ j → j < i + n → tools.cryptKeyslotDestroy j ≠ 0)

def Issue (tools : KeyslotTools) (n i : Nat) (slots : SlotTable) : Prop :=
  ∃ j, i ≤ j ∧ j < i + n ∧ (slots j).working = true ∧ tools.cryptKeyslotDestroy j ≠ 0

section Loop
variable {tools : KeyslotTools}

theorem Destroyed.working {i : Nat} {slots slots' : SlotTable} (h : Destroyed i slots slots')
    (j : Nat) : (slots' j).working = true ↔ (slots j).working = true ∧ j ≠ i := by
  by_cases hj : j = i
  · subst hj
    simp [h.inactive, KeyslotInfo.working]
  · rcases h.others j hj with heq | hboth
    · simp [heq, hj]
    · simp [hboth.1, hboth.2, hj]

/-- What the iteration for slot `i` makes of the table. -/
def Passed (tools : KeyslotTools) (i : Nat) (slots slots₁ : SlotTable) : Prop :=
  ∀ j, (slots₁ j).working = true ↔
    (slots j).working = true ∧ (j = i → tools.cryptKeyslotDestroy j ≠ 0)

theorem passed_idle {i : Nat} {slots : SlotTable} (h : (slots i).working = false) :
    Passed tools i slots slots := by
  intro j
  constructor
  · intro hj
    refine ⟨hj, fun heq => ?_⟩
    rw [heq, h] at hj
    cases hj
  · exact fun hj => hj.1

theorem passed_destroy {i : Nat} {slots slots₁ : SlotTable}
    (h : tools.answers slots slots₁ (.cryptKeyslotDestroy i) (tools.cryptKeyslotDestroy i)) :
    Passed tools i slots slots₁ := by
  obtain ⟨-, hslots⟩ := h
  intro j
  split at hslots
  · rename_i hzero
    rw [hslots.working j]
    refine and_congr_right fun _ => ?_
    constructor
    · intro hne heq
      exact absurd heq hne
    · intro hdestroy heq
      subst heq
      exact hdestroy rfl hzero
  · rename_i hfailed
    subst hslots
    refine ⟨fun hj => ⟨hj, fun heq => ?_⟩, fun hj => hj.1⟩
    subst heq
    exact hfailed

theorem Passed.working_eq {i j : Nat} {slots slots₁ : SlotTable} (h : Passed tools i slots slots₁)
    (hj : j ≠ i) : (slots₁ j).working = (slots j).working := by
  rw [Bool.eq_iff_iff, h j]
  exact and_iff_left fun heq => absurd heq hj

theorem Swept.cons {n i : Nat} {slots slots₁ slots' : SlotTable} {tr tr' : Trace ports SlotTable}
    (hpassed : Passed tools i slots slots₁)
    (hcalls : destroyCalls tr' =
      (if (slots i).working then [i] else []) ++ destroyCalls tr)
    (h : Swept tools n (i + 1) slots₁ tr slots') : Swept tools (n + 1) i slots tr' slots' := by
  constructor
  · have hrest : (List.range' (i + 1) n).filter (fun j => (slots₁ j).working) =
        (List.range' (i + 1) n).filter fun j => (slots j).working := by
      apply List.filter_congr
      intro j hj
      have hrange := List.mem_range'_1.mp hj
      exact hpassed.working_eq (by omega)
    rw [hcalls, h.calls, hrest, List.range'_succ, List.filter_cons]
    split <;> rfl
  · intro j
    rw [h.working, hpassed]
    constructor
    · intro hj
      refine ⟨hj.1.1, fun hlow hhigh => ?_⟩
      by_cases heq : j = i
      · exact hj.1.2 heq
      · exact hj.2 (by omega) (by omega)
    · intro hj
      refine ⟨⟨hj.1, fun heq => hj.2 (by omega) (by omega)⟩, fun hlow hhigh => ?_⟩
      exact hj.2 (by omega) (by omega)

theorem not_issue_zero {i : Nat} {slots : SlotTable} : ¬ Issue tools 0 i slots := by
  intro h
  obtain ⟨j, hlow, hhigh, -⟩ := h
  omega

theorem issue_succ {n i : Nat} {slots slots₁ : SlotTable} (hpassed : Passed tools i slots slots₁) :
    Issue tools (n + 1) i slots ↔
      (slots i).working = true ∧ tools.cryptKeyslotDestroy i ≠ 0 ∨
      Issue tools n (i + 1) slots₁ := by
  constructor
  · intro h
    obtain ⟨j, hlow, hhigh, hworking, hfailed⟩ := h
    by_cases heq : j = i
    · subst heq
      exact .inl ⟨hworking, hfailed⟩
    · refine .inr ⟨j, by omega, by omega, ?_, hfailed⟩
      rwa [hpassed.working_eq heq]
  · intro h
    rcases h with hfirst | ⟨j, hlow, hhigh, hworking, hfailed⟩
    · exact ⟨i, Nat.le_refl i, by omega, hfirst⟩
    · rw [hpassed.working_eq (by omega)] at hworking
      exact ⟨j, by omega, by omega, hworking, hfailed⟩

theorem destroyKeyslots_spec (n i : Nat) (keySlotIssue : Bool) (slots : SlotTable) :
    Ensures tools.env (destroyKeyslots ⟨true⟩ n i keySlotIssue) slots fun tr out slots' =>
      Swept tools n i slots tr slots' ∧
      ∃ issue, out = .ok issue ∧ (issue = true ↔ keySlotIssue = true ∨ Issue tools n i slots) := by
  induction n generalizing i keySlotIssue slots with
  | zero =>
    refine Ensures.ret_iff.mpr ⟨⟨rfl, ?_⟩, keySlotIssue, rfl, ?_⟩
    · intro j
      exact ⟨fun h => ⟨h, fun h₁ h₂ => by omega⟩, fun h => h.1⟩
    · exact (or_iff_left not_issue_zero).symm
  | succ n ih =>
    unfold destroyKeyslots CryptHandle.get
    simp only [ensures_ask_bind, ensures_throwIf_bind]
    intro ki slots₀ hstatus
    obtain ⟨rfl, hslots⟩ : ki = slots i ∧ slots₀ = slots := hstatus
    rw [hslots]
    split
    · rename_i hworking
      simp only [ensures_ask_bind, ensures_throwIf_bind, Bool.true_eq_false, if_false]
      intro retval slots₁ hdestroy
      obtain rfl : retval = tools.cryptKeyslotDestroy i := hdestroy.1
      have hpassed := passed_destroy hdestroy
      refine (ih (i + 1) _ slots₁).mono ?_
      intro tr out slots' h
      obtain ⟨hswept, issue, hout, hissue⟩ := h
      refine ⟨hswept.cons hpassed ?_, issue, hout, ?_⟩
      · rw [if_pos hworking]
        rfl
      · rw [hissue, issue_succ hpassed, ← or_assoc, and_iff_right hworking]
        simp
    · rename_i hidle
      have hidle' : (slots i).working = false := by simpa using hidle
      have hpassed : Passed tools i slots slots := passed_idle hidle'
      refine (ih (i + 1) _ slots).mono ?_
      intro tr out slots' h
      obtain ⟨hswept, issue, hout, hissue⟩ := h
      refine ⟨hswept.cons hpassed ?_, issue, hout, ?_⟩
      · rw [if_neg hidle]
        rfl
      · rw [hissue, issue_succ hpassed, hidle']
        simp

end Loop

/-! ## The whole erase -/

/-- Every slot that was working was destroyed once, and the failures are reported. -/
structure KeyslotsErased (tools : KeyslotTools) (n : Nat) (slots : SlotTable)
    (tr : Trace ports SlotTable) (out : Except Exception Unit) (slots' : SlotTable) : Prop where
  calls : destroyCalls tr = (List.range n).filter fun j => (slots j).working
  returns_iff : out = .ok () ↔
    ∀ j < n, (slots j).working = true → tools.cryptKeyslotDestroy j = 0
  wiped : out = .ok () → ∀ j < n, (slots' j).working = false
  fails : out ≠ .ok () → out = .error .internalFailure ∧ ∀ j < n, (slots' j).working = true ↔
    (slots j).working = true ∧ tools.cryptKeyslotDestroy j ≠ 0

structure Untouched (slots : SlotTable) (tr : Trace ports SlotTable)
    (out : Except Exception Unit) (slots' : SlotTable) : Prop where
  fails : out = .error .resourceNotFound
  calls : destroyCalls tr = []
  slots : slots' = slots

theorem Swept.erased {tools : KeyslotTools} {n : Nat} {slots slots' : SlotTable}
    {tr : Trace ports SlotTable} {issue : Bool} (h : Swept tools n 0 slots tr slots')
    (hissue : issue = true ↔ Issue tools n 0 slots) :
    KeyslotsErased tools n slots tr (if issue then .error .internalFailure else .ok ()) slots' := by
  have hworking : ∀ j < n, (slots' j).working = true ↔
      (slots j).working = true ∧ tools.cryptKeyslotDestroy j ≠ 0 := by
    intro j hj
    rw [h.working j]
    refine and_congr_right fun _ => ?_
    exact ⟨fun hdestroy => hdestroy (Nat.zero_le j) (by omega), fun hfailed _ _ => hfailed⟩
  have hcalls : destroyCalls tr = (List.range n).filter fun j => (slots j).working := by
    rw [h.calls, List.range_eq_range']
  have hnone : issue = false ↔ ∀ j < n, (slots j).working = true →
      tools.cryptKeyslotDestroy j = 0 := by
    rw [← Bool.not_eq_true, hissue]
    constructor
    · intro hnot j hj hold
      apply not_not.mp
      intro hfailed
      exact hnot ⟨j, Nat.zero_le j, by omega, hold, hfailed⟩
    · intro hall hexists
      obtain ⟨j, -, hj, hold, hfailed⟩ := hexists
      exact hfailed (hall j (by omega) hold)
  cases issue with
  | false =>
    refine ⟨hcalls, iff_of_true rfl (hnone.mp rfl), ?_, fun hne => absurd rfl hne⟩
    intro _ j hj
    rw [← Bool.not_eq_true, hworking j hj]
    intro hboth
    exact hboth.2 (hnone.mp rfl j hj hboth.1)
  | true =>
    refine ⟨hcalls, iff_of_false ?_ ?_, ?_, fun _ => ⟨rfl, hworking⟩⟩
    · intro hout
      cases hout
    · intro hall
      cases hnone.mpr hall
    · intro hout
      cases hout

theorem KeyslotsErased.of_calls {tools : KeyslotTools} {n : Nat} {slots slots' : SlotTable}
    {tr tr' : Trace ports SlotTable} {out : Except Exception Unit}
    (h : KeyslotsErased tools n slots tr out slots') (hcalls : destroyCalls tr' = destroyCalls tr) :
    KeyslotsErased tools n slots tr' out slots' :=
  ⟨hcalls.trans h.calls, h.returns_iff, h.wiped, h.fails⟩

theorem destroyKeyslots_erased (tools : KeyslotTools) (n : Nat) (slots : SlotTable) :
    Ensures tools.env (do
      let keySlotIssue ← destroyKeyslots ⟨true⟩ n 0 false
      throwIf (keySlotIssue = true) .internalFailure) slots
      fun tr out slots' => KeyslotsErased tools n slots tr out slots' := by
  refine Ensures.bind (destroyKeyslots_spec n 0 false slots) ?_ ?_
  · intro tr issue slots' h
    obtain ⟨hswept, issue', hout, hissue⟩ := h
    obtain rfl : issue = issue' := by injection hout
    have hfound : issue = true ↔ Issue tools n 0 slots := by simpa using hissue
    have herased := hswept.erased hfound
    rw [ensures_throwIf, List.append_nil]
    cases issue with
    | false => exact herased
    | true => exact herased
  · intro tr e slots' h
    obtain ⟨-, issue, hout, -⟩ := h
    cases hout

/-- The erase destroys the keyslots that work when it begins, each once and in order, and
those that survive are the ones it reports. -/
theorem working_keyslots_destroyed (tools : KeyslotTools) (slots : SlotTable) :
    Ensures tools.env doErase slots fun tr out slots' =>
      (tools.Ready → KeyslotsErased tools tools.cryptKeySlotMax.toNat slots tr out slots') ∧
      (¬ tools.Ready → Untouched slots tr out slots') := by
  unfold doErase CryptHandle.init CryptHandle.get
  simp only [bind_assoc, ensures_ask_bind, ensures_throwIf_bind, pure_bind]
  intro answer slots₁ hinit
  obtain ⟨rfl, hslots₁⟩ : answer = tools.cryptInit ∧ slots₁ = slots := hinit
  rw [hslots₁]
  split
  · rename_i hfailed
    exact ⟨fun hready => absurd hready.init (by omega), fun _ => ⟨rfl, rfl, rfl⟩⟩
  split
  · rename_i hnull
    refine ⟨fun hready => ?_, fun _ => ⟨rfl, rfl, rfl⟩⟩
    rw [hready.cryptDev] at hnull
    cases hnull
  rename_i hinit hdev
  intro retval slots₂ hload
  obtain ⟨rfl, hslots₂⟩ : retval = tools.cryptLoad ∧ slots₂ = slots := hload
  rw [hslots₂]
  split
  · rename_i hfailed
    exact ⟨fun hready => absurd hready.load hfailed, fun _ => ⟨rfl, rfl, rfl⟩⟩
  intro nKeySlots slots₃ hmax
  obtain ⟨rfl, hslots₃⟩ : nKeySlots = tools.cryptKeySlotMax ∧ slots₃ = slots := hmax
  rw [hslots₃]
  split
  · rename_i hfailed
    exact ⟨fun hready => absurd hready.slots (by omega), fun _ => ⟨rfl, rfl, rfl⟩⟩
  split
  · rename_i hzero
    exact ⟨fun hready => absurd hready.slots (by omega), fun _ => ⟨rfl, rfl, rfl⟩⟩
  rename_i hload hnonneg hpositive
  have hready : tools.Ready :=
    ⟨by omega, by simpa using hdev, not_not.mp hload, by omega⟩
  have hhandle : (⟨tools.cryptInit.cryptDev⟩ : CryptHandle) = ⟨true⟩ := by rw [hready.cryptDev]
  rw [hhandle]
  refine (destroyKeyslots_erased tools _ slots).mono ?_
  intro tr out slots' h
  exact ⟨fun _ => h.of_calls rfl, fun hnot => absurd hready hnot⟩

end Estoraged

import Estoraged.Volume
import Mathlib.Data.List.Basic

/-!
# The world of one volume

What the external calls act on: the LUKS header with its keyslots, whether the
container is mapped, whether the filesystem is mounted, whether the mount point
and a filesystem exist. The calls succeed under documented preconditions only.
-/

namespace Estoraged
open Interaction
set_option autoImplicit false

structure World where
  header : Bool
  /-- Which passphrase opens each keyslot, `none` for a free slot. -/
  keyslots : List (Option Password)
  mapped : Bool
  mounted : Bool
  mountPoint : Bool
  filesystem : Bool
deriving DecidableEq, Repr

abbrev VolumeEnv := Env ports World

abbrev VolumeTrace := Trace ports World

def okTrue : Except FilesystemError Bool → Bool
  | .ok b => b
  | .error _ => false

/-- Whether an answer reports success, as `cryptsetupInterface.hpp` and
`filesystemInterface.hpp` document it. -/
def Call.succeeded : (c : Call) → c.Ret → Bool
  | .randBytes, r => r == 1
  | .cryptInit, r => decide (0 ≤ r.retval) && r.cryptDev
  | .cryptFormat, r => decide (0 ≤ r)
  | .cryptKeyslotAddByVolumeKey _, r => decide (0 ≤ r)
  | .cryptLoad, r => decide (0 ≤ r)
  | .cryptKeyslotChangeByPassphrase _ _, r => decide (0 ≤ r)
  | .cryptActivateByPassphrase _, r => decide (0 ≤ r)
  | .cryptDeactivate, r => decide (0 ≤ r)
  | .cryptKeySlotMax, r => decide (0 < r)
  | .cryptKeySlotStatus _, _ => true
  | .cryptKeyslotDestroy _, r => r == 0
  | .mappedDeviceExists, r => r.isOk
  | .runMkfs, r => r == 0
  | .runFsck, r => r == 0
  | .directoryExists, r => r.isOk
  | .createDirectory, r => okTrue r
  | .doMount, r => r == 0
  | .doUnmount, r => r == 0
  | .removeDirectory, r => okTrue r
  | .eraseDevice _, r => r.isOk

def Call.threw : (c : Call) → c.Ret → Bool
  | .mappedDeviceExists, r => !r.isOk
  | .directoryExists, r => !r.isOk
  | .createDirectory, r => !r.isOk
  | .removeDirectory, r => !r.isOk
  | .eraseDevice _, r => !r.isOk
  | _, _ => false

/-! ## What the calls do -/

def Call.done : (c : Call) → c.Ret → World → World
  | .cryptFormat, _, w =>
    { w with header := true, keyslots := w.keyslots.map fun _ => none, filesystem := false }
  | .cryptKeyslotAddByVolumeKey password, r, w =>
    { w with keyslots := w.keyslots.set r.toNat (some password) }
  | .cryptKeyslotChangeByPassphrase oldPassword newPassword, r, w =>
    let freed := w.keyslots.set (w.keyslots.idxOf (some oldPassword)) none
    { w with keyslots := freed.set r.toNat (some newPassword) }
  | .cryptActivateByPassphrase _, _, w => { w with mapped := true }
  | .cryptDeactivate, _, w => { w with mapped := false }
  | .cryptKeyslotDestroy keyslot, _, w => { w with keyslots := w.keyslots.set keyslot none }
  | .runMkfs, _, w => { w with filesystem := true }
  | .createDirectory, _, w => { w with mountPoint := true }
  | .doMount, _, w => { w with mounted := true }
  | .doUnmount, _, w => { w with mounted := false }
  | .removeDirectory, _, w => { w with mountPoint := false }
  | _, _, w => w

/-- The state a call leaves; a failed call changes nothing. -/
def Call.effect (c : Call) (r : c.Ret) (w : World) : World :=
  if c.succeeded r then c.done r w else w

def World.allows (w : World) : Call → Bool
  | .cryptFormat => !w.mapped
  | .cryptKeyslotAddByVolumeKey _ => w.header && none ∈ w.keyslots
  | .cryptLoad => w.header
  | .cryptKeyslotChangeByPassphrase oldPassword _ => w.header && some oldPassword ∈ w.keyslots
  | .cryptActivateByPassphrase password =>
    w.header && some password ∈ w.keyslots && !w.mapped
  | .cryptDeactivate => w.mapped && !w.mounted
  | .cryptKeySlotMax => !w.keyslots.isEmpty
  | .runMkfs => w.mapped && !w.mounted
  | .runFsck => w.mapped && !w.mounted
  | .createDirectory => !w.mountPoint
  | .doMount => w.mapped && !w.mounted && w.mountPoint && w.filesystem
  | .doUnmount => w.mounted
  | .removeDirectory => w.mountPoint && !w.mounted
  | _ => true

/-- Whether a successful answer tells the truth about the state it is given in. -/
def World.agrees (w : World) : (c : Call) → c.Ret → Bool
  | .cryptKeyslotAddByVolumeKey _, r => w.keyslots[r.toNat]? == some none
  | .cryptKeyslotChangeByPassphrase oldPassword _, r =>
    r.toNat == w.keyslots.idxOf (some oldPassword) || w.keyslots[r.toNat]? == some none
  | .cryptKeySlotMax, r => r == w.keyslots.length
  | .cryptKeySlotStatus keyslot, r => r.working == ((w.keyslots[keyslot]?.getD none).isSome)
  | .mappedDeviceExists, .ok present => present == w.mapped
  | .directoryExists, .ok present => present == w.mountPoint
  | _, _ => true

/-- The surroundings in which any call may fail and none succeeds without its
precondition. Overwriting the device may leave any LUKS data. -/
def ruled : VolumeEnv := fun w c r w' =>
  (c.succeeded r → w.allows c ∧ w.agrees c r) ∧
  (w' = c.effect r w ∨
    (∃ method, method.overwrites = true ∧ c = .eraseDevice method) ∧
      w'.mapped = w.mapped ∧ w'.mounted = w.mounted ∧ w'.mountPoint = w.mountPoint)

def World.answer (w : World) : (c : Call) → c.Ret
  | .randBytes => (1 : Int)
  | .cryptInit => (⟨0, true⟩ : InitAnswer)
  | .cryptFormat => (0 : Int)
  | .cryptKeyslotAddByVolumeKey _ => (w.keyslots.idxOf none : Int)
  | .cryptLoad => (0 : Int)
  | .cryptKeyslotChangeByPassphrase oldPassword _ => (w.keyslots.idxOf (some oldPassword) : Int)
  | .cryptActivateByPassphrase password => (w.keyslots.idxOf (some password) : Int)
  | .cryptDeactivate => (0 : Int)
  | .cryptKeySlotMax => (w.keyslots.length : Int)
  | .cryptKeySlotStatus keyslot =>
    if (w.keyslots[keyslot]?.getD none).isSome then KeyslotInfo.active else .inactive
  | .cryptKeyslotDestroy _ => (0 : Int)
  | .mappedDeviceExists => (.ok w.mapped : Except FilesystemError Bool)
  | .runMkfs => (0 : Int)
  | .runFsck => (0 : Int)
  | .directoryExists => (.ok w.mountPoint : Except FilesystemError Bool)
  | .createDirectory => (.ok true : Except FilesystemError Bool)
  | .doMount => (0 : Int)
  | .doUnmount => (0 : Int)
  | .removeDirectory => (.ok true : Except FilesystemError Bool)
  | .eraseDevice _ => (.ok () : Except Exception Unit)

def Call.refusal : (c : Call) → c.Ret
  | .cryptInit => (⟨-1, false⟩ : InitAnswer)
  | .cryptKeySlotStatus _ => KeyslotInfo.invalid
  | .mappedDeviceExists => (.error ⟨""⟩ : Except FilesystemError Bool)
  | .directoryExists => (.error ⟨""⟩ : Except FilesystemError Bool)
  | .createDirectory => (.ok false : Except FilesystemError Bool)
  | .removeDirectory => (.ok false : Except FilesystemError Bool)
  | .eraseDevice _ => (.error .internalFailure : Except Exception Unit)
  | .randBytes => (-1 : Int)
  | .cryptFormat => (-1 : Int)
  | .cryptKeyslotAddByVolumeKey _ => (-1 : Int)
  | .cryptLoad => (-1 : Int)
  | .cryptKeyslotChangeByPassphrase _ _ => (-1 : Int)
  | .cryptActivateByPassphrase _ => (-1 : Int)
  | .cryptDeactivate => (-1 : Int)
  | .cryptKeySlotMax => (-1 : Int)
  | .cryptKeyslotDestroy _ => (-1 : Int)
  | .runMkfs => (-1 : Int)
  | .runFsck => (-1 : Int)
  | .doMount => (-1 : Int)
  | .doUnmount => (-1 : Int)

/-- The surroundings in which every call succeeds whenever its precondition holds. -/
def compliant : Responder ports World := fun w c =>
  let r := if w.allows c then w.answer c else c.refusal
  (r, c.effect r w)

theorem Call.effect_failed {c : Call} {r : c.Ret} (h : c.succeeded r = false) (w : World) :
    c.effect r w = w := by
  simp [Call.effect, h]

theorem Call.effect_succeeded {c : Call} {r : c.Ret} (h : c.succeeded r = true) (w : World) :
    c.effect r w = c.done r w := by
  simp [Call.effect, h]

theorem Call.succeeded_refusal {c : Call} (h : c.succeeded c.refusal = true) (w : World) :
    w.allows c = true := by
  cases c <;> first | rfl | simp [Call.succeeded, Call.refusal, okTrue] at h

theorem World.agrees_answer {w : World} {c : Call} (h : w.allows c = true) :
    w.agrees c (w.answer c) = true := by
  cases c with
  | cryptKeyslotAddByVolumeKey password =>
    have hmem : none ∈ w.keyslots := by simp_all [World.allows]
    simp [World.agrees, World.answer, List.getElem?_idxOf hmem]
  | cryptKeySlotStatus keyslot =>
    cases hslot : (w.keyslots[keyslot]?.getD none) <;>
      simp [World.agrees, World.answer, hslot, KeyslotInfo.working]
  | _ => simp [World.agrees, World.answer]

theorem ruled_compliant (w : World) (c : Call) :
    ruled w c (compliant w c).1 (compliant w c).2 := by
  refine ⟨?_, .inl rfl⟩
  intro hdone
  by_cases hallows : w.allows c = true
  · simp only [compliant, if_pos hallows]
    exact ⟨hallows, World.agrees_answer hallows⟩
  · simp only [compliant, if_neg hallows] at hdone
    exact absurd (Call.succeeded_refusal hdone w) hallows

/-- As `compliant`, except that one call always gets the failing answer `r`. -/
def answering (bad : Call) (r : bad.Ret) : Responder ports World := fun w c =>
  if h : c = bad then (h ▸ r, w) else compliant w c

theorem ruled_answering {bad : Call} {r : bad.Ret} (hr : bad.succeeded r = false)
    (w : World) (c : Call) : ruled w c (answering bad r w c).1 (answering bad r w c).2 := by
  by_cases h : c = bad
  · subst h
    simp only [answering, dif_pos]
    exact ⟨fun hdone => by simp [hr] at hdone, .inl (Call.effect_failed hr w).symm⟩
  · simp only [answering, dif_neg h]
    exact ruled_compliant w c

def lockedDrive : World where
  header := true
  keyslots := [some [112, 119], none]
  mapped := false
  mounted := false
  mountPoint := false
  filesystem := true

end Estoraged

import Estoraged.Keyslots

/-!
# Unlocking a volume that can be mounted

The exit status of fsck tells a clean filesystem from a repaired one and from one that
is still damaged. `system()` multiplies it by 256, and `mountFilesystem` goes on with 0
only.
-/

namespace Estoraged
open Interaction
set_option autoImplicit false

/-- A filesystem by what fsck makes of it. -/
inductive FilesystemState where
  | clean
  | repairable
  /-- Other than 1, the exit status has a bit of value 2 or more. -/
  | damaged (exitStatus : Nat) (bits : 2 ≤ exitStatus)
deriving DecidableEq

def FilesystemState.exitStatus : FilesystemState → Nat
  | .clean => 0
  | .repairable => 1
  | .damaged exitStatus _ => exitStatus

/-- What `system()` returns for a program that exits with the status. -/
def waitStatus (exitStatus : Nat) : Int := (exitStatus * 256 : Nat)

def FilesystemState.mountable (fs : FilesystemState) : Prop := fs = .clean ∨ fs = .repairable

def uncorrectedErrors : Nat := 4

/-- fsck reports as it does, and no other call fails where it could succeed; only a
filesystem that is still damaged may refuse to be mounted. -/
def FilesystemState.cooperates (fs : FilesystemState) (w : World) : (c : Call) → c.Ret → Prop
  | .runFsck, r => r = waitStatus fs.exitStatus
  | .doMount, r => w.allows .doMount = true → fs.mountable → r = 0
  | c, r => w.allows c = true → c.succeeded r = true

def FilesystemState.env (fs : FilesystemState) : VolumeEnv := fun w c r w' =>
  ruled w c r w' ∧ fs.cooperates w c r

/-- The state before the unlock: closed, with the password in a keyslot. -/
structure Unlockable (w : World) (password : Password) : Prop where
  header : w.header = true
  held : some password ∈ w.keyslots
  unmapped : w.mapped = false
  unmounted : w.mounted = false
  filesystem : w.filesystem = true

structure UnlockMounts (fs : FilesystemState) (w : World) (password : Password) : Prop where
  mounts : fs.mountable → Ensures fs.env (unlock password) w fun _ out w' =>
    out = .ok () ∧ w'.mapped = true ∧ w'.mounted = true
  refuses : fs.exitStatus &&& uncorrectedErrors ≠ 0 →
    Ensures fs.env (unlock password) w fun _ out w' => out ≠ .ok () ∧ w'.mounted = false

section Unlock
variable {fs : FilesystemState} {w w' : World}

theorem env_runFsck {r : Int} (h : fs.env w .runFsck r w') :
    r = waitStatus fs.exitStatus ∧ w' = w := by
  obtain ⟨hruled, hreports⟩ := h
  refine ⟨hreports, ?_⟩
  rw [ruled_effect hruled rfl]
  unfold Call.effect
  split <;> rfl

theorem env_doMount {r : Int} (h : fs.env w .doMount r w') (hallows : w.allows .doMount = true)
    (hmountable : fs.mountable) : r = 0 ∧ w' = { w with mounted := true } := by
  obtain ⟨hruled, hmounts⟩ := h
  obtain rfl : r = 0 := hmounts hallows hmountable
  exact ⟨rfl, (ruled_succeeded hruled rfl rfl).2.2⟩

/-- The calls that succeed whenever their precondition holds. -/
def Call.reliable : Call → Bool
  | .runFsck | .doMount | .eraseDevice _ => false
  | _ => true

theorem env_succeeds {c : Call} {r : c.Ret} (h : fs.env w c r w') (hreliable : c.reliable = true)
    (hallows : w.allows c = true) :
    c.succeeded r = true ∧ w.agrees c r = true ∧ w' = c.done r w := by
  obtain ⟨hruled, hcooperates⟩ := h
  have hdone : c.succeeded r = true := by
    cases c <;> first | exact hcooperates hallows | cases hreliable
  have hoverwrites : c.overwrites = false := by
    cases c <;> first | rfl | cases hreliable
  exact ⟨hdone, (ruled_succeeded hruled hoverwrites hdone).2⟩

theorem loadLuksHeader_loads {w : World} (header : w.header = true) :
    Ensures fs.env loadLuksHeader w fun _ out w' => out = .ok ⟨true⟩ ∧ w' = w := by
  unfold loadLuksHeader CryptHandle.init CryptHandle.get
  simp only [bind_assoc, ensures_ask_bind, ensures_throwIf_bind, pure_bind]
  intro answer w₁ hinit
  obtain ⟨hdone, -, hw₁⟩ := env_succeeds hinit rfl rfl
  rw [hw₁]
  obtain ⟨hretval, hdev⟩ : 0 ≤ answer.retval ∧ answer.cryptDev = true := by
    simpa [Call.succeeded] using hdone
  rw [if_neg (by omega), if_neg (by simp [hdev])]
  intro loaded w₂ hload
  obtain ⟨hdone, -, hw₂⟩ := env_succeeds hload rfl header
  rw [hw₂]
  have hloaded : ¬ loaded < 0 := by simpa [Call.succeeded] using hdone
  rw [if_neg hloaded]
  refine Ensures.ret_iff.mpr ⟨?_, rfl⟩
  rw [hdev]

theorem activateLuksDev_opens {password : Password} (h : Unlockable w password) :
    Ensures fs.env (activateLuksDev password) w fun _ out w' =>
      out = .ok () ∧ w' = { w with mapped := true } := by
  refine (loadLuksHeader_loads h.header).bind_ok ?_
  intro tr w₁ hloaded
  subst hloaded
  unfold CryptHandle.get
  simp only [ensures_ask_bind, ensures_throwIf_bind, Bool.true_eq_false, if_false]
  intro activated w₂ hactivate
  have hallows : w₁.allows (.cryptActivateByPassphrase password) = true := by
    simp [World.allows, h.header, h.held, h.unmapped]
  obtain ⟨hdone, -, hw₂⟩ := env_succeeds hactivate rfl hallows
  have hactivated : ¬ activated < 0 := by simpa [Call.succeeded] using hdone
  rw [hw₂, ensures_throwIf, if_neg hactivated]
  exact ⟨rfl, rfl⟩

theorem mountFilesystem_refuses (hstatus : fs.exitStatus ≠ 0) :
    Ensures fs.env mountFilesystem w fun _ out w' =>
      out = .error (.runtimeError fsRecoveryError) ∧ w' = w := by
  unfold mountFilesystem
  simp only [ensures_ask_bind, ensures_throwIf_bind]
  intro retval w₁ hfsck
  obtain ⟨rfl, hw₁⟩ := env_runFsck hfsck
  have hnonzero : waitStatus fs.exitStatus ≠ 0 := by
    unfold waitStatus
    omega
  rw [if_pos hnonzero]
  exact ⟨trivial, hw₁⟩

theorem prepareMountPoint_prepares :
    Ensures fs.env prepareMountPoint w fun _ out w' =>
      out = .ok () ∧ w' = { w with mountPoint := true } := by
  unfold prepareMountPoint
  rw [ensures_ask_bind]
  intro present w₁ hexists
  obtain ⟨hdone, hagrees, hw₁⟩ := env_succeeds hexists rfl rfl
  rw [hw₁]
  cases present with
  | error e => cases hdone
  | ok present =>
    obtain rfl : present = w.mountPoint := by simpa [World.agrees] using hagrees
    cases hpoint : w.mountPoint with
    | true =>
      refine Ensures.ret_iff.mpr ⟨rfl, ?_⟩
      rw [← hpoint]
      rfl
    | false =>
      change Ensures _ (ask .createDirectory >>= _) _ _
      rw [ensures_ask_bind]
      intro success w₂ hcreate
      have hallows : w.allows .createDirectory = true := by simp [World.allows, hpoint]
      obtain ⟨hdone, -, hw₂⟩ := env_succeeds hcreate rfl hallows
      rw [hw₂]
      cases success with
      | error e => cases hdone
      | ok success =>
        obtain rfl : success = true := hdone
        exact Ensures.ret_iff.mpr ⟨rfl, rfl⟩

theorem mountFilesystem_mounts (hclean : fs = .clean) (hmapped : w.mapped = true)
    (hunmounted : w.mounted = false) (hfilesystem : w.filesystem = true) :
    Ensures fs.env mountFilesystem w fun _ out w' =>
      out = .ok () ∧ w' = { w with mountPoint := true, mounted := true } := by
  unfold mountFilesystem
  simp only [ensures_ask_bind, ensures_throwIf_bind]
  intro retval w₁ hfsck
  obtain ⟨rfl, hw₁⟩ := env_runFsck hfsck
  have hzero : waitStatus fs.exitStatus = 0 := by
    rw [hclean]
    rfl
  rw [hw₁, if_neg (not_not.mpr hzero)]
  refine prepareMountPoint_prepares.bind_ok ?_
  intro tr w₂ hprepared
  rw [hprepared, ensures_ask_bind]
  intro retval w₃ hmount
  have hallows : ({ w with mountPoint := true } : World).allows .doMount = true := by
    simp [World.allows, hmapped, hunmounted, hfilesystem]
  obtain ⟨rfl, hw₃⟩ := env_doMount hmount hallows (.inl hclean)
  exact Ensures.ret_iff.mpr ⟨rfl, hw₃⟩

theorem deactivateLuksDev_closes (hmapped : w.mapped = true) (hunmounted : w.mounted = false) :
    Ensures fs.env deactivateLuksDev w fun _ out w' =>
      out = .ok () ∧ w' = { w with mapped := false } := by
  unfold deactivateLuksDev
  rw [ensures_ask_bind]
  intro retval w₁ hdeactivate
  have hallows : w.allows .cryptDeactivate = true := by simp [World.allows, hmapped, hunmounted]
  obtain ⟨hdone, -, hw₁⟩ := env_succeeds hdeactivate rfl hallows
  have hsucceeded : ¬ retval < 0 := by simpa [Call.succeeded] using hdone
  rw [hw₁, ensures_throwIf, if_neg hsucceeded]
  exact ⟨rfl, rfl⟩

theorem unlock_mounts {password : Password} (h : Unlockable w password) (hclean : fs = .clean) :
    Ensures fs.env (unlock password) w fun _ out w' =>
      out = .ok () ∧ w'.mapped = true ∧ w'.mounted = true := by
  refine (activateLuksDev_opens h).bind_ok ?_
  intro tr w₁ hopened
  rw [hopened]
  refine Ensures.tryCatch (mountFilesystem_mounts hclean rfl h.unmounted h.filesystem) ?_ ?_
  · intro tr' _ w₂ hmounted
    rw [hmounted.2]
    exact ⟨rfl, rfl, rfl⟩
  · intro tr' e w₂ hmounted
    cases hmounted.1

/-- Whatever status but 0 fsck exits with, the volume is closed again. -/
theorem unlock_refuses {password : Password} (h : Unlockable w password)
    (hstatus : fs.exitStatus ≠ 0) : Ensures fs.env (unlock password) w fun _ out w' =>
      out = .error .internalFailure ∧ w'.mapped = false ∧ w'.mounted = false := by
  refine (activateLuksDev_opens h).bind_ok ?_
  intro tr w₁ hopened
  rw [hopened]
  refine Ensures.tryCatch (mountFilesystem_refuses hstatus) ?_ ?_
  · intro tr' _ w₂ hrefused
    cases hrefused.1
  · intro tr' e w₂ hrefused
    obtain ⟨hthrew, hw₂⟩ := hrefused
    obtain rfl : e = .runtimeError fsRecoveryError := by injection hthrew
    rw [hw₂]
    change Ensures _ (do deactivateLuksDev; throw .internalFailure) _ _
    have hcloses := @deactivateLuksDev_closes fs { w with mapped := true } rfl h.unmounted
    refine hcloses.bind_ok ?_
    intro tr'' w₃ hclosed
    rw [hclosed]
    exact Ensures.throw_iff.mpr ⟨rfl, rfl, h.unmounted⟩

end Unlock

theorem World.succeeded_answer {w : World} {c : Call} (h : w.allows c = true) :
    c.succeeded (w.answer c) = true := by
  cases c with
  | cryptKeySlotMax =>
    have hslots : 0 < w.keyslots.length := by
      rw [List.length_pos_iff]
      simpa [World.allows] using h
    simpa [Call.succeeded, World.answer] using hslots
  | _ => simp [Call.succeeded, World.answer, okTrue, Except.isOk, Except.toBool]

/-- The tools of a filesystem that needs one repair. -/
theorem env_answering (w : World) (c : Call) :
    FilesystemState.env .repairable w c (answering .runFsck (256 : Int) w c).1
      (answering .runFsck (256 : Int) w c).2 := by
  refine ⟨ruled_answering rfl w c, ?_⟩
  by_cases hfsck : c = .runFsck
  · subst hfsck
    rfl
  · have hanswer : w.allows c = true → (answering .runFsck (256 : Int) w c).1 = w.answer c := by
      intro hallows
      simp only [answering, dif_neg hfsck, compliant, if_pos hallows]
    cases c with
    | runFsck => exact absurd rfl hfsck
    | doMount => exact fun hallows _ => hanswer hallows
    | _ =>
      intro hallows
      rw [hanswer hallows]
      exact World.succeeded_answer hallows

/-- Every volume is unlocked that can be, unless it took fsck to make it so. -/
theorem unlock_mounts_iff (fs : FilesystemState) {w : World} {password : Password}
    (h : Unlockable w password) : UnlockMounts fs w password ↔ fs ≠ .repairable := by
  constructor
  · intro hmounts hrepairable
    subst hrepairable
    have hout := Prog.run_of_ensures _ env_answering (hmounts.mounts (.inr rfl))
    have hstatus : FilesystemState.repairable.exitStatus ≠ 0 := Nat.one_ne_zero
    have hrefused := Prog.run_of_ensures _ env_answering (unlock_refuses h hstatus)
    rw [hrefused.1] at hout
    cases hout.1
  · intro hne
    constructor
    · intro hmountable
      exact unlock_mounts h (hmountable.resolve_right hne)
    · intro hbit
      have hstatus : fs.exitStatus ≠ 0 := by
        intro hzero
        rw [hzero] at hbit
        exact hbit rfl
      refine (unlock_refuses h hstatus).mono ?_
      intro tr out w' hrefused
      rw [hrefused.1]
      exact ⟨fun hout => (by cases hout), hrefused.2.2⟩

theorem unlockable_lockedDrive : Unlockable lockedDrive [112, 119] :=
  ⟨rfl, List.mem_cons_self, rfl, rfl, rfl⟩

theorem unlock_mounts_iff_clean :
    UnlockMounts .clean lockedDrive [112, 119] ↔ FilesystemState.clean ≠ .repairable :=
  unlock_mounts_iff .clean unlockable_lockedDrive

/-- fsck repaired the filesystem and says so. -/
theorem unlock_after_repair : ¬ ∀ (fs : FilesystemState) (w : World) (password : Password),
    Unlockable w password → UnlockMounts fs w password := by
  intro halways
  have h := (halways .repairable lockedDrive [112, 119] unlockable_lockedDrive).mounts (.inr rfl)
  have hout := (Prog.run_of_ensures _ env_answering h).1
  have hthrew : ((unlock [112, 119]).run (answering .runFsck (256 : Int)) lockedDrive).out =
      .error .internalFailure := rfl
  rw [hthrew] at hout
  cases hout

end Estoraged

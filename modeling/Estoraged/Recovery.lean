import Estoraged.MountSafety

/-!
# Ways out of a half-failed state

An opened volume stays opened: `lock` wants to unmount first, and activating or
formatting wants the container unmapped. Hence a volume can be closed again exactly as
long as no method call was stranded.
-/

namespace Estoraged
open Interaction
set_option autoImplicit false

/-! ## Locking when every possible call succeeds -/

theorem run_lock_mounted {w : World} (hmapped : w.mapped = true) (hmounted : w.mounted = true)
    (hmountPoint : w.mountPoint = true) :
    (lock.run compliant w).out = .ok () ∧
    (lock.run compliant w).state =
      { w with mapped := false, mounted := false, mountPoint := false } := by
  rcases w with ⟨header, keyslots, mapped, mounted, mountPoint, filesystem⟩
  subst hmapped hmounted hmountPoint
  exact ⟨rfl, rfl⟩

theorem run_lock_unmounted {w : World} (hmounted : w.mounted = false) :
    (lock.run compliant w).out = .error .internalFailure ∧
    (lock.run compliant w).state = w := by
  rcases w with ⟨header, keyslots, mapped, mounted, mountPoint, filesystem⟩
  subst hmounted
  exact ⟨rfl, rfl⟩

theorem run_lock_no_mountPoint {w : World} (hmounted : w.mounted = true)
    (hmountPoint : w.mountPoint = false) :
    (lock.run compliant w).out = .error .internalFailure ∧
    (lock.run compliant w).state = { w with mounted := false } := by
  rcases w with ⟨header, keyslots, mapped, mounted, mountPoint, filesystem⟩
  subst hmounted hmountPoint
  exact ⟨rfl, rfl⟩

theorem run_securedLocked {w : World} (hmapped : w.mapped = true) :
    ((erase .securedLocked).run compliant w).out = (lock.run compliant w).out ∧
    ((erase .securedLocked).run compliant w).state = (lock.run compliant w).state := by
  rcases w with ⟨header, keyslots, mapped, mounted, mountPoint, filesystem⟩
  subst hmapped
  exact ⟨rfl, rfl⟩

/-! ## Retrying a lock that failed -/

theorem run_lock_answering {w : World} (hmapped : w.mapped = true) (hmounted : w.mounted = true)
    {bad : Call} (hbad : bad = .doUnmount ∨ bad = .removeDirectory ∨ bad = .cryptDeactivate)
    {r : bad.Ret} (hr : bad.succeeded r = false) :
    (lock.run (answering bad r) w).state.mapped = true ∧
    (bad = .doUnmount → (lock.run (answering bad r) w).state = w) ∧
    (bad ≠ .doUnmount → (lock.run (answering bad r) w).state.mounted = false) := by
  rcases w with ⟨header, keyslots, mapped, mounted, mountPoint, filesystem⟩
  simp only at hmapped hmounted
  subst hmapped hmounted
  rcases hbad with rfl | rfl | rfl
  · have hnonzero : r ≠ (0 : Int) := by simpa [Call.succeeded] using hr
    simp [lock, unmountFilesystem, answering, hnonzero]
  · cases r with
    | error e => exact ⟨rfl, fun hcall => (by cases hcall), fun _ => rfl⟩
    | ok removed =>
      cases removed with
      | true => cases hr
      | false => exact ⟨rfl, fun hcall => (by cases hcall), fun _ => rfl⟩
  · cases mountPoint with
    | false => exact ⟨rfl, fun hcall => (by cases hcall), fun _ => rfl⟩
    | true =>
      have hneg : r < (0 : Int) := by simpa [Call.succeeded] using hr
      obtain ⟨-, hstate⟩ := Prog.run_bind_ok (answering .cryptDeactivate r)
        (p := unmountFilesystem) (f := fun _ => deactivateLuksDev) (a := ())
        (s := ⟨header, keyslots, true, true, true, filesystem⟩) rfl
      rw [lock, hstate]
      simp only [deactivateLuksDev, run_ask_bind, run_throwIf, answering, hneg, dif_pos, if_pos]
      exact ⟨rfl, fun hcall => (by cases hcall), fun _ => rfl⟩

/-- A closing method works on a mapped container exactly when there is a filesystem to
unmount and a mount point to remove. -/
theorem run_closes_iff {op : Op} (hcloses : op.closes = true) {w : World}
    (hmapped : w.mapped = true) :
    ((op.prog.run compliant w).out = .ok () ∧ (op.prog.run compliant w).state.At .closed) ↔
      w.mounted = true ∧ w.mountPoint = true := by
  have hlock : ((lock.run compliant w).out = .ok () ∧ (lock.run compliant w).state.At .closed) ↔
      w.mounted = true ∧ w.mountPoint = true := by
    cases hmounted : w.mounted with
    | false =>
      obtain ⟨hout, -⟩ := run_lock_unmounted hmounted
      simp [hout]
    | true =>
      cases hmountPoint : w.mountPoint with
      | false =>
        obtain ⟨hout, -⟩ := run_lock_no_mountPoint hmounted hmountPoint
        simp [hout]
      | true =>
        obtain ⟨hout, hstate⟩ := run_lock_mounted hmapped hmounted hmountPoint
        simp [hout, hstate, World.At]
  cases op with
  | lock => exact hlock
  | erase method =>
    cases method with
    | securedLocked =>
      obtain ⟨hout, hstate⟩ := run_securedLocked hmapped
      rw [Op.prog, hout, hstate]
      exact hlock
    | _ => cases hcloses
  | _ => cases hcloses

/-- A second `lock`, or `erase(SecuredLocked)`, makes up for the first exactly when the
first could not unmount. -/
theorem lock_retry_iff {w : World} (hmapped : w.mapped = true) (hmounted : w.mounted = true)
    {bad : Call} (hbad : bad = .doUnmount ∨ bad = .removeDirectory ∨ bad = .cryptDeactivate)
    {r : bad.Ret} (hr : bad.succeeded r = false) {op : Op} (hcloses : op.closes = true) :
    ((op.prog.run compliant (lock.run (answering bad r) w).state).out = .ok () ∧
      (op.prog.run compliant (lock.run (answering bad r) w).state).state.mapped = false ∧
      (op.prog.run compliant (lock.run (answering bad r) w).state).state.mounted = false) ↔
      bad = .doUnmount ∧ w.mountPoint = true := by
  obtain ⟨hstill, hunchanged, hunmounted⟩ := run_lock_answering hmapped hmounted hbad hr
  apply (run_closes_iff hcloses hstill).trans
  by_cases hfirst : bad = .doUnmount
  · rw [hunchanged hfirst]
    simp [hfirst, hmounted]
  · rw [hunmounted hfirst]
    simp [hfirst]

def mountedDrive : World := { lockedDrive with mapped := true, mounted := true, mountPoint := true }

theorem lock_retry_iff_busy :
    let retry := Op.lock.prog.run compliant (lock.run (answering .doUnmount 1) mountedDrive).state
    (retry.out = .ok () ∧ retry.state.mapped = false ∧ retry.state.mounted = false) ↔
      Call.doUnmount = .doUnmount ∧ mountedDrive.mountPoint = true :=
  lock_retry_iff rfl rfl (.inl rfl) rfl rfl

/-- The device is still in use when `lock` wants to deactivate it: `lock` throws, and so
does every later one, there being nothing left to unmount. -/
theorem lock_after_busy_deactivate :
    ¬ ∀ (w : World), w.mapped = true → w.mounted = true → w.mountPoint = true →
      ∀ (bad : Call) (r : bad.Ret),
        (bad = .doUnmount ∨ bad = .removeDirectory ∨ bad = .cryptDeactivate) →
        bad.succeeded r = false →
        (lock.run (answering bad r) w).out = .error .internalFailure →
        (lock.run compliant (lock.run (answering bad r) w).state).out = .ok () ∧
        (lock.run compliant (lock.run (answering bad r) w).state).state.mapped = false ∧
        (lock.run compliant (lock.run (answering bad r) w).state).state.mounted = false := by
  intro halways
  have hretry := halways mountedDrive rfl rfl rfl .cryptDeactivate (-16) (.inr (.inr rfl)) rfl rfl
  exact absurd hretry.2.1 (by decide)

/-! ## Which volumes can be closed again -/

def Op.recovers : Op → Bool
  | .erase .securedLocked => true
  | .erase _ => false
  | _ => true

/-- Some sequence of methods closes the volume when every possible call succeeds. -/
def Recoverable (w : World) : Prop :=
  ∃ ops : List Op, (∀ op ∈ ops, op.recovers = true) ∧
    (ops.foldl (after compliant) w).mapped = false ∧
    (ops.foldl (after compliant) w).mounted = false

/-- No method leads out of the opened stage. -/
theorem opened_stays (ops : List Op) {w : World} (hw : w.At .opened) :
    (ops.foldl (after compliant) w).At .opened := by
  induction ops generalizing w with
  | nil => exact hw
  | cons op ops ih =>
    obtain ⟨_, s', hs', hstep⟩ :=
      performs_refines ruled_contract hw (performs_perform ruled_compliant w op)
    obtain rfl := hstep.opened_stays rfl
    exact ih hs'

theorem recoverable_iff_stage {w : World} {s : Stage} (hs : w.At s)
    (hmountPoint : w.mounted = true → w.mountPoint = true) :
    Recoverable w ↔ s ≠ .opened := by
  cases s with
  | closed => exact ⟨fun _ => by decide, fun _ => ⟨[], by simp, hs⟩⟩
  | opened =>
    refine ⟨?_, fun h => absurd rfl h⟩
    intro h
    rcases h with ⟨ops, -, hmapped, -⟩
    simp [(opened_stays ops hs).1] at hmapped
  | mounted =>
    refine ⟨fun _ => by decide, fun _ => ⟨[.lock], by simp [Op.recovers], ?_⟩⟩
    exact ((@run_closes_iff .lock rfl _ hs.1).mpr ⟨hs.2, hmountPoint hs.2⟩).2

def Performed.stranded (l : Performed) : Bool := faulty l.op.fault l.trace

def World.Placed (w : World) : Prop := w.mounted = true → w.mountPoint = true

theorem ruled_keeps_placed (w : World) (c : Call) (r : c.Ret) (w' : World) (hw : w.Placed)
    (h : ruled w c r w') : w'.Placed := by
  rcases h with ⟨hallows, rfl | ⟨_, -, hmounted, hmountPoint⟩⟩
  · cases hdone : c.succeeded r with
    | false => rwa [Call.effect_failed hdone]
    | true =>
      have hpre := (hallows hdone).1
      rw [Call.effect_succeeded hdone]
      cases c <;> simp_all [World.Placed, Call.done, World.allows]
  · simpa only [World.Placed, hmounted, hmountPoint] using hw

theorem performs_keeps_placed (w : World) (l : Performed) (w' : World) (hw : w.Placed)
    (h : Performs ruled w l w') : w'.Placed :=
  (Ensures.invariant ruled_keeps_placed l.op.prog hw _ _ _ h).1

theorem run_opened_iff {env : VolumeEnv} (hc : MountContract env) {w w' : World}
    {ls : List Performed} (hrun : VolumeRun env w ls w') {s : Stage} (hs : w.At s) :
    ∃ s', w'.At s' ∧ (s' = .opened ↔ s = .opened ∨ ∃ l ∈ ls, l.stranded = true) := by
  induction hrun generalizing s with
  | nil w => exact ⟨s, hs, by simp⟩
  | cons hl _ ih =>
    obtain ⟨_, s₁, hs₁, hstep⟩ := performs_refines hc hs hl
    obtain ⟨s', hs', hopened⟩ := ih hs₁
    refine ⟨s', hs', hopened.trans ?_⟩
    rw [hstep.opened_iff, or_assoc]
    simp [Performed.stranded]

/-- From a closed volume on, a state can be closed again if and only if no call of the run
failed in the middle of mounting or unmounting. -/
theorem recoverable_iff_not_stranded {w w' : World} {ls : List Performed}
    (hmapped : w.mapped = false) (hmounted : w.mounted = false)
    (hrun : VolumeRun ruled w ls w') :
    Recoverable w' ↔ ∀ l ∈ ls, faulty l.op.fault l.trace = false := by
  have hplaced : w.Placed := by simp [World.Placed, hmounted]
  obtain ⟨s', hs', hopened⟩ := run_opened_iff ruled_contract hrun (s := .closed) ⟨hmapped, hmounted⟩
  have hplaced' : w'.Placed := hrun.invariant performs_keeps_placed hplaced
  rw [recoverable_iff_stage hs' hplaced', Ne, hopened]
  simp [Performed.stranded]

theorem recoverable_iff_not_stranded_unlock :
    let l := perform (answering .runFsck 2048) lockedDrive (.unlock [112, 119])
    Recoverable (after (answering .runFsck 2048) lockedDrive (.unlock [112, 119])) ↔
      ∀ l' ∈ [l], faulty l'.op.fault l'.trace = false :=
  recoverable_iff_not_stranded rfl rfl
    (.cons (performs_perform (ruled_answering rfl) lockedDrive (.unlock [112, 119])) (.nil _))

/-- Formatting stops at `mkfs` with the container mapped, and nothing unmaps it again. -/
theorem format_without_mkfs : ¬ ∀ (w w' : World) (ls : List Performed),
    w.mapped = false → w.mounted = false → VolumeRun ruled w ls w' →
    (∀ l ∈ ls, l.op.recovers = true) → Recoverable w' := by
  intro halways
  have hstep := performs_perform (@ruled_answering .runMkfs (256 : Int) rfl)
    lockedDrive (.formatLuks [112, 119] .ext4)
  obtain ⟨ops, -, hmapped, -⟩ := halways _ _ _ rfl rfl (.cons hstep (.nil _)) (by decide)
  have hopened := opened_stays ops
    (w := after (answering .runMkfs (256 : Int)) lockedDrive (.formatLuks [112, 119] .ext4))
    (by decide)
  simp [hopened.1] at hmapped

end Estoraged

import Estoraged.MountSafety

/-!
# Unlocking that fails

`unlock` throws with the drive closed exactly when no directory call broke out of
`mountFilesystem` with an exception the cleanup does not recognise.
-/

namespace Estoraged
open Interaction
set_option autoImplicit false

/-- A directory call of `mountFilesystem` ends it outside the two known errors: creating
the mount point fails in either way, or one of the other two calls throws. -/
def mountPointFault : (c : Call) → c.Ret → Bool
  | .directoryExists, r => Call.threw .directoryExists r
  | .createDirectory, r => !Call.succeeded .createDirectory r
  | .removeDirectory, r => Call.threw .removeDirectory r
  | _, _ => false

theorem unlockFault_iff (c : Call) (r : c.Ret) : unlockFault c r = true ↔
    mountPointFault c r = true ∨ (c = .cryptDeactivate ∧ c.succeeded r = false) := by
  cases c <;> simp [unlockFault, mountPointFault, Call.succeeded, Call.threw]

theorem faulty_unlock {tr : VolumeTrace}
    (hdeactivate : ∀ ev ∈ tr, ev.call = .cryptDeactivate →
      ev.call.succeeded ev.answer = true) :
    faulty unlockFault tr = faulty mountPointFault tr := by
  rw [Bool.eq_iff_iff]
  simp only [faulty, List.any_eq_true]
  constructor
  · intro h
    rcases h with ⟨ev, hev, hfault⟩
    rcases (unlockFault_iff ev.call ev.answer).mp hfault with hfault | ⟨hcall, hfailed⟩
    · exact ⟨ev, hev, hfault⟩
    · simp [hdeactivate ev hev hcall] at hfailed
  · intro h
    rcases h with ⟨ev, hev, hfault⟩
    exact ⟨ev, hev, (unlockFault_iff ev.call ev.answer).mpr (.inl hfault)⟩

/-- Once `cryptDeactivate` works when asked, a throwing `unlock` leaves the drive closed
if and only if no call on the mount point went wrong. -/
theorem failed_unlock_closed_iff {env : VolumeEnv} (hc : MountContract env)
    {password : Password} {w w' : World} {tr : VolumeTrace} {out : Except Exception Unit}
    (hmapped : w.mapped = false) (hmounted : w.mounted = false)
    (hrun : Exec env (unlock password) w tr out w')
    (hdeactivate : ∀ ev ∈ tr, ev.call = .cryptDeactivate →
      ev.call.succeeded ev.answer = true) :
    ((∃ e, out = .error e) → w'.mapped = false ∧ w'.mounted = false) ↔
      faulty mountPointFault tr = false := by
  have hclosed : w.At .closed := ⟨hmapped, hmounted⟩
  obtain ⟨_, s', hs', hstep⟩ := op_refines hc (.unlock password) hclosed _ _ _ hrun
  have hfault : faulty (Op.unlock password).fault tr = faulty mountPointFault tr :=
    faulty_unlock hdeactivate
  rw [hfault] at hstep
  rcases hstep.opening rfl with ⟨hok, hclean, rfl⟩ | ⟨hok, hclean, rfl⟩ | ⟨hok, hstuck, rfl⟩
  · refine ⟨fun _ => hclean, fun _ => ?_⟩
    intro h
    rcases h with ⟨e, rfl⟩
    cases hok
  · exact ⟨fun _ => hclean, fun _ _ => hs'⟩
  · rw [hstuck]
    refine ⟨fun hsafe => ?_, fun hfalse => by cases hfalse⟩
    cases out with
    | ok _ => cases hok
    | error e => simp [hs'.1] at hsafe

theorem failed_unlock_closed_iff_bad_fsck :
    let r := (unlock [112, 119]).run (answering .runFsck 2048) lockedDrive
    ((∃ e, r.out = .error e) → r.state.mapped = false ∧ r.state.mounted = false) ↔
      faulty mountPointFault r.trace = false :=
  failed_unlock_closed_iff ruled_contract rfl rfl
    (Prog.exec_run _ (ruled_answering rfl) _ _) (by decide)

/-- The directory cannot be created: the exception passes the handler, which knows other
texts, and the container stays mapped. -/
theorem unlock_on_readonly_mnt : ¬ ∀ (env : VolumeEnv), MountContract env →
    ∀ (password : Password) (w w' : World) (tr : VolumeTrace) (out : Except Exception Unit),
      w.mapped = false → w.mounted = false → Exec env (unlock password) w tr out w' →
      (∀ ev ∈ tr, ev.call = .cryptDeactivate → ev.call.succeeded ev.answer = true) →
      (∃ e, out = .error e) → w'.mapped = false ∧ w'.mounted = false := by
  intro halways
  have hrun := Prog.exec_run
    (answering .createDirectory (.error ⟨"cannot create directory"⟩)) (ruled_answering rfl)
    (unlock [112, 119]) lockedDrive
  have hclosed := halways ruled ruled_contract _ _ _ _ _ rfl rfl hrun (by decide)
    ⟨.filesystemError "cannot create directory", rfl⟩
  exact absurd hclosed.1 (by decide)

end Estoraged

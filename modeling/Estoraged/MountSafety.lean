import Estoraged.Stages

/-!
# Mounted implies mapped

Over every run of the D-Bus methods, with calls failing in any pattern. No method
looks at the state it starts in; the stage is what carries the invariant from one
method to the next.
-/

namespace Estoraged
open Interaction
set_option autoImplicit false

/-- One finished method call: what was asked, the external calls it made, how it ended. -/
structure Performed where
  op : Op
  trace : VolumeTrace
  out : Except Exception Unit

def Performs (env : VolumeEnv) (w : World) (l : Performed) (w' : World) : Prop :=
  Exec env l.op.prog w l.trace l.out w'

abbrev VolumeRun (env : VolumeEnv) := Steps (Performs env)

def perform (respond : Responder ports World) (w : World) (op : Op) : Performed :=
  ⟨op, (op.prog.run respond w).trace, (op.prog.run respond w).out⟩

def after (respond : Responder ports World) (w : World) (op : Op) : World :=
  (op.prog.run respond w).state

theorem performs_perform {env : VolumeEnv} {respond : Responder ports World}
    (hrespond : ∀ w c, env w c (respond w c).1 (respond w c).2) (w : World) (op : Op) :
    Performs env w (perform respond w op) (after respond w op) :=
  Prog.exec_run respond hrespond op.prog w

section Runs
variable {env : VolumeEnv} (hc : MountContract env)
include hc

theorem performs_refines {w w' : World} {l : Performed} {s : Stage} (hs : w.At s)
    (h : Performs env w l w') : Refines l.op s l.trace l.out w' :=
  op_refines hc l.op hs _ _ _ h

theorem performs_keeps_stage (w : World) (l : Performed) (w' : World) (hw : ∃ s, w.At s)
    (h : Performs env w l w') : ∃ s, w'.At s := by
  rcases hw with ⟨s, hs⟩
  obtain ⟨_, s', hs', _⟩ := performs_refines hc hs h
  exact ⟨s', hs'⟩

theorem run_keeps_stage {w w' : World} {ls : List Performed} (hw : ∃ s, w.At s)
    (hrun : VolumeRun env w ls w') : ∃ s, w'.At s :=
  hrun.invariant (performs_keeps_stage hc) hw

theorem run_safe {w w' : World} {ls : List Performed} (hw : ∃ s, w.At s)
    (hrun : VolumeRun env w ls w') : ∀ l ∈ ls, ∀ ev ∈ l.trace, Safe ev := by
  refine hrun.forall_labels (performs_keeps_stage hc) ?_ hw
  rintro w l w' ⟨s, hs⟩ h
  exact (performs_refines hc hs h).1

theorem performs_ok {w w' : World} {l : Performed} (hw : ∃ s, w.At s)
    (h : Performs env w l w') (hok : l.out = .ok ()) :
    (l.op.opens = true → w'.At .mounted) ∧ (l.op.closes = true → w'.At .closed) := by
  rcases hw with ⟨s, hs⟩
  rcases l with ⟨op, tr, out⟩
  obtain ⟨_, s', hs', hstep⟩ := performs_refines hc hs h
  simp only at hok
  subst hok
  generalize hb : (Except.ok () : Except Exception Unit).isOk = ok at hstep
  generalize faulty op.fault tr = stranded at hstep
  cases hstep with
  | fails => cases hb
  | opens hopens =>
    refine ⟨fun _ => hs', fun hcloses => ?_⟩
    simp [Op.closes_of_opens hopens] at hcloses
  | strandsOpening => cases hb
  | closes hcloses =>
    refine ⟨fun hopens => ?_, fun _ => hs'⟩
    simp [Op.closes_of_opens hopens] at hcloses
  | strandsClosing => cases hb
  | alreadyLocked => exact ⟨fun hopens => (by cases hopens), fun _ => hs'⟩
  | passes _ hopens hcloses => simp [hopens, hcloses]

/-- In every state a run reaches, also between two external calls, mounted implies
mapped, and nothing deactivates, formats or checks a mounted filesystem. -/
theorem mounted_only_while_mapped {w w' : World} {ls : List Performed}
    (hstart : w.mounted = true → w.mapped = true) (hrun : VolumeRun env w ls w') :
    (w'.mounted = true → w'.mapped = true) ∧
    (∀ l ∈ ls, ∀ ev ∈ l.trace,
      (ev.before.mounted = true → ev.before.mapped = true) ∧
      (ev.call = .cryptDeactivate ∨ ev.call = .runMkfs ∨ ev.call = .runFsck →
        ev.before.mounted = false)) ∧
    (∀ l w'', Performs env w' l w'' → l.out = .ok () →
      (l.op.opens = true → w''.mapped = true ∧ w''.mounted = true) ∧
      (l.op.closes = true → w''.mapped = false ∧ w''.mounted = false)) := by
  have hw : ∃ s, w.At s := World.exists_at_iff.mpr hstart
  have hw' : ∃ s, w'.At s := run_keeps_stage hc hw hrun
  refine ⟨World.exists_at_iff.mp hw', ?_, fun l w'' h hok => performs_ok hc hw' h hok⟩
  intro l hl ev hev
  obtain ⟨hsound, hsafe⟩ := run_safe hc hw hrun l hl ev hev
  refine ⟨hsound, fun hcall => hsafe ?_⟩
  rcases hcall with hcall | hcall | hcall <;> rw [hcall] <;> rfl

end Runs

theorem mounted_only_while_mapped_unlock :
    (after compliant lockedDrive (.unlock [112, 119])).mounted = true ∧
    ((after compliant lockedDrive (.unlock [112, 119])).mounted = true →
      (after compliant lockedDrive (.unlock [112, 119])).mapped = true) ∧
    ∀ ev ∈ (perform compliant lockedDrive (.unlock [112, 119])).trace,
      (ev.before.mounted = true → ev.before.mapped = true) ∧
      (ev.call = .cryptDeactivate ∨ ev.call = .runMkfs ∨ ev.call = .runFsck →
        ev.before.mounted = false) := by
  have hrun : VolumeRun ruled lockedDrive [perform compliant lockedDrive (.unlock [112, 119])]
      (after compliant lockedDrive (.unlock [112, 119])) :=
    .cons (performs_perform ruled_compliant _ _) (.nil _)
  obtain ⟨hmapped, hcalls, -⟩ := mounted_only_while_mapped ruled_contract (by decide) hrun
  exact ⟨rfl, hmapped, hcalls _ List.mem_cons_self⟩

end Estoraged

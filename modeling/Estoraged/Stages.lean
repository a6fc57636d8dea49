import Estoraged.World

/-!
# The lock machine

Seen from outside a volume is closed (not mapped), opened (mapped only) or mounted.
`StageStep` says what one operation may do to that stage; `op_refines` shows that the
code does nothing else, whatever the external calls answer. The step that matters is
the stranding one: a call fails halfway and leaves the volume opened.
-/

namespace Estoraged
open Interaction
set_option autoImplicit false

inductive Stage where
  | closed
  | opened
  | mounted
deriving DecidableEq, Repr

/-- The state shows this stage; no stage describes a mounted but unmapped volume. -/
def World.At (w : World) : Stage → Prop
  | .closed => w.mapped = false ∧ w.mounted = false
  | .opened => w.mapped = true ∧ w.mounted = false
  | .mounted => w.mapped = true ∧ w.mounted = true

instance (w : World) (s : Stage) : Decidable (w.At s) := by
  cases s <;> exact inferInstanceAs (Decidable (_ ∧ _))

theorem World.at_iff (w : World) (s : Stage) :
    w.At s ↔ w.mapped = (s != .closed) ∧ w.mounted = (s == .mounted) := by
  cases s <;> rfl

theorem World.exists_at_iff {w : World} :
    (∃ s, w.At s) ↔ (w.mounted = true → w.mapped = true) := by
  constructor
  · rintro ⟨s, hs⟩ hmounted
    cases s <;> simp_all [World.At]
  · intro h
    cases hmapped : w.mapped <;> cases hmounted : w.mounted
    · exact ⟨.closed, hmapped, hmounted⟩
    · simp_all
    · exact ⟨.opened, hmapped, hmounted⟩
    · exact ⟨.mounted, hmapped, hmounted⟩

/-! ## What is assumed of the calls -/

def Call.movesStage : Call → Bool
  | .cryptActivateByPassphrase _ | .cryptDeactivate | .doMount | .doUnmount => true
  | _ => false

/-- All that the stage of a volume depends on in libcryptsetup and the kernel. -/
structure MountContract (env : VolumeEnv) : Prop where
  frame : ∀ w c r w', env w c r w' → (c.movesStage = true → c.succeeded r = false) →
    w'.mapped = w.mapped ∧ w'.mounted = w.mounted
  activate : ∀ w password (r : Int) w', env w (.cryptActivateByPassphrase password) r w' →
    0 ≤ r → w.mapped = false ∧ w'.mapped = true ∧ w'.mounted = w.mounted
  deactivate : ∀ w (r : Int) w', env w .cryptDeactivate r w' → 0 ≤ r →
    w'.mapped = false ∧ w'.mounted = w.mounted
  mount : ∀ w (r : Int) w', env w .doMount r w' → r = 0 →
    w'.mapped = w.mapped ∧ w'.mounted = true
  unmount : ∀ w (r : Int) w', env w .doUnmount r w' → r = 0 →
    w.mounted = true ∧ w'.mapped = w.mapped ∧ w'.mounted = false
  exists_iff : ∀ w present w', env w .mappedDeviceExists (.ok present) w' → present = w.mapped

namespace MountContract
variable {env : VolumeEnv} {w w' : World} {s : Stage}

theorem keeps (hc : MountContract env) {c : Call} {r : c.Ret} (h : env w c r w')
    (hcall : c.movesStage = true → c.succeeded r = false) (hs : w.At s) : w'.At s := by
  rw [World.at_iff] at hs ⊢
  obtain ⟨hmapped, hmounted⟩ := hc.frame w c r w' h hcall
  rw [hmapped, hmounted]
  exact hs

theorem keeps_still (hc : MountContract env) {c : Call} {r : c.Ret} (h : env w c r w')
    (hstill : c.movesStage = false) (hs : w.At s) : w'.At s :=
  hc.keeps h (fun hmoves => by simp [hstill] at hmoves) hs

theorem keeps_failed (hc : MountContract env) {c : Call} {r : c.Ret} (h : env w c r w')
    (hfailed : c.succeeded r = false) (hs : w.At s) : w'.At s :=
  hc.keeps h (fun _ => hfailed) hs

end MountContract

theorem ruled_contract : MountContract ruled where
  frame := by
    rintro w c r w' ⟨_, rfl | ⟨⟨method, _, rfl⟩, hmapped, hmounted, _⟩⟩ hfailed
    · cases hdone : c.succeeded r with
      | false =>
        rw [Call.effect_failed hdone]
        exact ⟨rfl, rfl⟩
      | true =>
        rw [Call.effect_succeeded hdone]
        cases c <;> first | exact ⟨rfl, rfl⟩ | simp [hfailed rfl] at hdone
    · exact ⟨hmapped, hmounted⟩
  activate := by
    rintro w password r w' ⟨hallows, rfl | ⟨⟨method, _, hcall⟩, _⟩⟩ hr
    · have hdone : Call.succeeded (.cryptActivateByPassphrase password) r = true := by
        simpa [Call.succeeded] using hr
      have hunmapped := (hallows hdone).1
      rw [Call.effect_succeeded hdone]
      exact ⟨by simp_all [World.allows], rfl, rfl⟩
    · cases hcall
  deactivate := by
    rintro w r w' ⟨_, rfl | ⟨⟨method, _, hcall⟩, _⟩⟩ hr
    · rw [Call.effect_succeeded (by simpa [Call.succeeded] using hr)]
      exact ⟨rfl, rfl⟩
    · cases hcall
  mount := by
    rintro w r w' ⟨_, rfl | ⟨⟨method, _, hcall⟩, _⟩⟩ rfl
    · exact ⟨rfl, rfl⟩
    · cases hcall
  unmount := by
    rintro w r w' ⟨hallows, rfl | ⟨⟨method, _, hcall⟩, _⟩⟩ rfl
    · exact ⟨(hallows rfl).1, rfl, rfl⟩
    · cases hcall
  exists_iff := by
    intro w present w' h
    rcases h with ⟨hallows, _⟩
    simpa [World.agrees] using (hallows rfl).2

/-! ## Which failures strand a volume -/

/-- Failures after activation that `formatLuks` does not clean up. -/
def formatFault : (c : Call) → c.Ret → Bool
  | .runMkfs, r => !Call.succeeded .runMkfs r
  | .runFsck, r => !Call.succeeded .runFsck r
  | .directoryExists, r => !Call.succeeded .directoryExists r
  | .createDirectory, r => !Call.succeeded .createDirectory r
  | .doMount, r => !Call.succeeded .doMount r
  | _, _ => false

/-- Failures after activation that get past the cleanup of `unlock`, or break it. -/
def unlockFault : (c : Call) → c.Ret → Bool
  | .directoryExists, r => !Call.succeeded .directoryExists r
  | .createDirectory, r => !Call.succeeded .createDirectory r
  | .removeDirectory, r => Call.threw .removeDirectory r
  | .cryptDeactivate, r => !Call.succeeded .cryptDeactivate r
  | _, _ => false

/-- Failures of `lock` after the filesystem was unmounted. -/
def lockFault : (c : Call) → c.Ret → Bool
  | .removeDirectory, r => !Call.succeeded .removeDirectory r
  | .cryptDeactivate, r => !Call.succeeded .cryptDeactivate r
  | _, _ => false

def Op.fault : Op → (c : Call) → c.Ret → Bool
  | .formatLuks _ _ => formatFault
  | .unlock _ => unlockFault
  | .lock => lockFault
  | .erase .securedLocked => lockFault
  | _ => fun _ _ => false

def faulty (fault : (c : Call) → c.Ret → Bool) (tr : VolumeTrace) : Bool :=
  tr.any fun ev => fault ev.call ev.answer

variable {fault : (c : Call) → c.Ret → Bool} {tr tr' : VolumeTrace}

@[simp] theorem faulty_nil : faulty fault [] = false := rfl

@[simp] theorem faulty_cons (ev : Event ports World) :
    faulty fault (ev :: tr) = (fault ev.call ev.answer || faulty fault tr) := rfl

@[simp] theorem faulty_append :
    faulty fault (tr ++ tr') = (faulty fault tr || faulty fault tr') := List.any_append

def Call.harmless : Call → Bool
  | .runMkfs | .runFsck | .directoryExists | .createDirectory | .doMount
  | .removeDirectory | .cryptDeactivate => false
  | _ => true

section Harmless
variable {c : Call} (h : c.harmless = true) (r : c.Ret)
include h

theorem formatFault_harmless : formatFault c r = false := by
  cases c <;> first | rfl | cases h

theorem unlockFault_harmless : unlockFault c r = false := by
  cases c <;> first | rfl | cases h

theorem lockFault_harmless : lockFault c r = false := by
  cases c <;> first | rfl | cases h

theorem Op.fault_harmless (op : Op) : op.fault c r = false := by
  cases op with
  | formatLuks => exact formatFault_harmless h r
  | unlock => exact unlockFault_harmless h r
  | lock => exact lockFault_harmless h r
  | changePassword => rfl
  | erase method =>
    cases method with
    | securedLocked => exact lockFault_harmless h r
    | _ => rfl

end Harmless

def Call.needsUnmounted : Call → Bool
  | .cryptDeactivate | .runMkfs | .runFsck => true
  | _ => false

def Safe (ev : Event ports World) : Prop :=
  (ev.before.mounted = true → ev.before.mapped = true) ∧
  (ev.call.needsUnmounted = true → ev.before.mounted = false)

theorem Safe.of_at {ev : Event ports World} {s : Stage} (hs : ev.before.At s)
    (h : s ≠ .mounted ∨ ev.call.needsUnmounted = false) : Safe ev := by
  refine ⟨World.exists_at_iff.mp ⟨s, hs⟩, ?_⟩
  intro hneeds
  rw [World.at_iff] at hs
  cases s <;> simp_all

/-! ## Calls that keep the stage -/

def Call.idle (c : Call) : Prop := c.harmless = true ∧ c.movesStage = false

def Quiet (s : Stage) (tr : VolumeTrace) : Prop :=
  ∀ ev ∈ tr, ev.before.At s ∧ ev.call.harmless = true

theorem Quiet.safe {s : Stage} (h : Quiet s tr) : ∀ ev ∈ tr, Safe ev := by
  intro ev hev
  obtain ⟨hs, hcall⟩ := h ev hev
  refine .of_at hs (.inr ?_)
  generalize ev.call = c at hcall
  cases c <;> first | rfl | simp [Call.harmless] at hcall

theorem Quiet.not_faulty {s : Stage} (h : Quiet s tr) (op : Op) : faulty op.fault tr = false := by
  apply List.any_eq_false.mpr
  intro ev hev
  simp [Op.fault_harmless (h ev hev).2]

@[simp] theorem quiet_nil (s : Stage) : Quiet s [] := by simp [Quiet]

@[simp] theorem quiet_cons {s : Stage} {ev : Event ports World} :
    Quiet s (ev :: tr) ↔ (ev.before.At s ∧ ev.call.harmless = true) ∧ Quiet s tr :=
  List.forall_mem_cons

@[simp] theorem quiet_append {s : Stage} :
    Quiet s (tr ++ tr') ↔ Quiet s tr ∧ Quiet s tr' :=
  List.forall_mem_append

theorem CryptHandle.init_idle : CryptHandle.init.Uses Call.idle := by
  simp [CryptHandle.init, Call.idle, Call.harmless, Call.movesStage]

theorem CryptHandle.get_idle (cryptHandle : CryptHandle) : cryptHandle.get.Uses Call.idle := by
  simp [CryptHandle.get]

theorem loadLuksHeader_idle : loadLuksHeader.Uses Call.idle := by
  refine CryptHandle.init_idle.bind fun cryptHandle => (cryptHandle.get_idle).bind fun _ => ?_
  simp [Call.idle, Call.harmless, Call.movesStage]

theorem formatLuksDev_idle (password : Password) : (formatLuksDev password).Uses Call.idle := by
  refine ⟨⟨rfl, rfl⟩, fun generated => uses_throwIf.bind fun _ => ?_⟩
  refine CryptHandle.init_idle.bind fun cryptHandle => (cryptHandle.get_idle).bind fun _ => ?_
  refine ⟨⟨rfl, rfl⟩, fun retval => uses_throwIf.bind fun _ => ?_⟩
  exact (cryptHandle.get_idle).bind fun _ => ⟨⟨rfl, rfl⟩, fun _ => uses_throwIf⟩

theorem changePassword_idle (oldPassword newPassword : Password) :
    (changePassword oldPassword newPassword).Uses Call.idle :=
  loadLuksHeader_idle.bind fun cryptHandle => (cryptHandle.get_idle).bind fun _ =>
    ⟨⟨rfl, rfl⟩, fun _ => uses_throwIf⟩

theorem destroyKeyslots_idle (cryptHandle : CryptHandle) (n i : Nat) (keySlotIssue : Bool) :
    (destroyKeyslots cryptHandle n i keySlotIssue).Uses Call.idle := by
  induction n generalizing i keySlotIssue with
  | zero => trivial
  | succ n ih =>
    refine (cryptHandle.get_idle).bind fun _ => ⟨⟨rfl, rfl⟩, fun ki => ?_⟩
    simp only [Prog.bind]
    split
    · exact (cryptHandle.get_idle).bind fun _ => ⟨⟨rfl, rfl⟩, fun _ => ih _ _⟩
    · exact ih _ _

theorem doErase_idle : doErase.Uses Call.idle := by
  refine CryptHandle.init_idle.bind fun cryptHandle => (cryptHandle.get_idle).bind fun _ => ?_
  refine ⟨⟨rfl, rfl⟩, fun retval => uses_throwIf.bind fun _ => ?_⟩
  refine ⟨⟨rfl, rfl⟩, fun nKeySlots => uses_throwIf.bind fun _ => uses_throwIf.bind fun _ => ?_⟩
  exact (destroyKeyslots_idle ..).bind fun _ => uses_throwIf

theorem eraseDevice_idle (method : EraseMethod) :
    (ask (.eraseDevice method) >>= fun answer =>
      match answer with
      | .ok _ => pure ()
      | .error e => throw e : M Unit).Uses Call.idle := by
  refine ⟨⟨rfl, rfl⟩, fun answer => ?_⟩
  cases answer <;> exact trivial

def Exception.recoverable (e : Exception) : Bool :=
  match e.runtimeWhat with
  | some what => what = fsRecoveryError ∨ what = fsMountError
  | none => false

theorem filesystemError_not_recoverable (detail : String) :
    (Exception.filesystemError detail).recoverable = false := by
  have hne : ∀ text ∈ [fsRecoveryError, fsMountError], "filesystem error: " ++ detail ≠ text := by
    intro text htext h
    have hlist := congrArg String.toList h
    rcases List.mem_cons.mp htext with rfl | htext
    · simp [fsRecoveryError] at hlist
    · rw [List.mem_singleton.mp htext] at hlist
      simp [fsMountError] at hlist
  simpa [Exception.recoverable, Exception.runtimeWhat] using hne

/-! ## What each function does to the stage -/

section Specs
variable {env : VolumeEnv} (hc : MountContract env)
include hc

theorem idle_spec {α : Type} {p : M α} (hp : p.Uses Call.idle) {w : World} {s : Stage}
    (hs : w.At s) : Ensures env p w fun tr _ w' => w'.At s ∧ Quiet s tr := by
  have hcall : ∀ w c r w', Call.idle c → w.At s → env w c r w' → w'.At s := by
    intro w c r w' hidle hs h
    exact hc.keeps_still h hidle.2 hs
  have h : Ensures env p w _ := hp.ensures hcall hs
  refine h.mono ?_
  intro tr out w' h
  rcases h with ⟨hs', htr⟩
  exact ⟨hs', fun ev hev => ⟨(htr ev hev).2, (htr ev hev).1.1⟩⟩

theorem idle_bind {α β : Type} {p : M α} (hp : p.Uses Call.idle) {f : α → M β} {w : World}
    {s : Stage} (hs : w.At s) {Q : VolumeTrace → Except Exception β → World → Prop}
    (hok : ∀ tr a w₁, w₁.At s → Quiet s tr →
      Ensures env (f a) w₁ fun tr' out w' => Q (tr ++ tr') out w')
    (herror : ∀ tr e w₁, w₁.At s → Quiet s tr → Q tr (.error e) w₁) :
    Ensures env (p >>= f) w Q :=
  Ensures.bind (idle_spec hc hp hs) (fun tr a w₁ h => hok tr a w₁ h.1 h.2)
    (fun tr e w₁ h => herror tr e w₁ h.1 h.2)

theorem activateLuksDev_spec (password : Password) {w : World} {s : Stage} (hs : w.At s) :
    Ensures env (activateLuksDev password) w fun tr out w' => Quiet s tr ∧
      match out with
      | .ok _ => s = .closed ∧ w'.At .opened
      | .error _ => w'.At s := by
  refine idle_bind hc loadLuksHeader_idle hs ?_ fun tr e w₁ hs₁ htr => ⟨htr, hs₁⟩
  intro tr cryptHandle w₁ hs₁ htr
  refine idle_bind hc cryptHandle.get_idle hs₁ ?_ fun tr' e w₂ hs₂ htr' =>
    ⟨quiet_append.mpr ⟨htr, htr'⟩, hs₂⟩
  intro tr' _ w₂ hs₂ htr'
  simp only [ensures_ask_bind, ensures_throwIf]
  intro r w₃ hr
  have hquiet : Quiet s (tr ++ (tr' ++ [⟨w₂, .cryptActivateByPassphrase password, r⟩])) := by
    simp [htr, htr', hs₂, Call.harmless]
  split
  · rename_i hneg
    have hfailed : Call.succeeded (.cryptActivateByPassphrase password) r = false := by
      simpa [Call.succeeded] using hneg
    exact ⟨hquiet, hc.keeps_failed hr hfailed hs₂⟩
  · rename_i hpos
    obtain ⟨hunmapped, hmapped, hmounted⟩ := hc.activate _ _ _ _ hr (Int.not_lt.mp hpos)
    refine ⟨hquiet, ?_⟩
    cases s <;> simp_all [World.At]

theorem deactivateLuksDev_spec {w : World} (hs : w.At .opened) :
    Ensures env deactivateLuksDev w fun tr out w' => (∀ ev ∈ tr, Safe ev) ∧
      match out with
      | .ok _ => w'.At .closed ∧ faulty lockFault tr = false ∧ faulty unlockFault tr = false
      | .error _ => w'.At .opened ∧ faulty lockFault tr = true ∧ faulty unlockFault tr = true := by
  simp only [deactivateLuksDev, ensures_ask_bind, ensures_throwIf]
  intro r w₁ hr
  have hsafe : Safe ⟨w, .cryptDeactivate, r⟩ := .of_at hs (.inl (by decide))
  split
  · rename_i hneg
    have hfailed : Call.succeeded .cryptDeactivate r = false := by
      simpa [Call.succeeded] using hneg
    simp [hsafe, lockFault, unlockFault, hfailed, hc.keeps_failed hr hfailed hs]
  · rename_i hpos
    have hdone : Call.succeeded .cryptDeactivate r = true := by
      simpa [Call.succeeded] using hpos
    obtain ⟨hmapped, hmounted⟩ := hc.deactivate _ _ _ hr (Int.not_lt.mp hpos)
    have hs₁ : w₁.At .closed := ⟨hmapped, hmounted.trans hs.2⟩
    simp [hsafe, lockFault, unlockFault, hdone, hs₁]

/-- Before the mount call a directory call fails with an exception no one handles. -/
theorem prepareMountPoint_spec {w : World} (hs : w.At .opened) :
    Ensures env prepareMountPoint w fun tr out w' => (∀ ev ∈ tr, Safe ev) ∧ w'.At .opened ∧
      match out with
      | .ok _ => faulty formatFault tr = false ∧ faulty unlockFault tr = false
      | .error e => faulty formatFault tr = true ∧ faulty unlockFault tr = true ∧
          e.recoverable = false := by
  simp only [prepareMountPoint, ensures_ask_bind]
  intro present w₁ hpresent
  have hsafe : Safe ⟨w, .directoryExists, present⟩ := .of_at hs (.inl (by decide))
  have hs₁ : w₁.At .opened := hc.keeps_still hpresent rfl hs
  cases present with
  | error e =>
    simp [orThrow, hsafe, hs₁, formatFault, unlockFault, Call.succeeded,
      filesystemError_not_recoverable, Except.isOk, Except.toBool]
  | ok present =>
    cases present with
    | true =>
      simp [orThrow, hsafe, hs₁, formatFault, unlockFault, Call.succeeded, Except.isOk,
        Except.toBool]
    | false =>
      simp only [orThrow, Prog.pure_eq, Prog.ret_bind, Bool.false_eq_true, if_false,
        ensures_ask_bind]
      intro created w₂ hcreated
      have hsafe₂ : Safe ⟨w₁, .createDirectory, created⟩ := .of_at hs₁ (.inl (by decide))
      have hs₂ : w₂.At .opened := hc.keeps_still hcreated rfl hs₁
      cases created with
      | error e =>
        simp [hsafe, hsafe₂, hs₂, formatFault, unlockFault, Call.succeeded, okTrue,
          filesystemError_not_recoverable]
      | ok created =>
        cases created <;>
          simp [hsafe, hsafe₂, hs₂, formatFault, unlockFault, Call.succeeded, okTrue,
            Exception.recoverable, Exception.runtimeWhat, Except.isOk, Except.toBool]

/-- Only the failed check and the failed mount leave a recoverable exception, and only
when nothing else failed. -/
theorem mountFilesystem_spec {w : World} (hs : w.At .opened) :
    Ensures env mountFilesystem w fun tr out w' => (∀ ev ∈ tr, Safe ev) ∧
      match out with
      | .ok _ => w'.At .mounted ∧ faulty formatFault tr = false ∧ faulty unlockFault tr = false
      | .error e => w'.At .opened ∧ faulty formatFault tr = true ∧
          faulty unlockFault tr = !e.recoverable := by
  simp only [mountFilesystem, ensures_ask_bind, ensures_throwIf_bind]
  intro checked w₁ hchecked
  have hsafe : Safe ⟨w, .runFsck, checked⟩ := .of_at hs (.inl (by decide))
  have hs₁ : w₁.At .opened := hc.keeps_still hchecked rfl hs
  split
  · rename_i hfailed
    simp [hsafe, hs₁, formatFault, unlockFault, Call.succeeded, hfailed, Exception.recoverable,
      Exception.runtimeWhat]
  · rename_i hclean
    refine Ensures.bind (prepareMountPoint_spec hc hs₁) ?_ ?_
    · rintro tr _ w₂ ⟨htr, hs₂, hformat, hunlock⟩
      simp only [ensures_ask_bind]
      intro mounted w₃ hmount
      have hsafe₂ : Safe ⟨w₂, .doMount, mounted⟩ := .of_at hs₂ (.inl (by decide))
      by_cases hzero : mounted = 0
      · obtain ⟨hmapped, hmounted⟩ := hc.mount _ _ _ hmount hzero
        have hs₃ : w₃.At .mounted := ⟨hmapped.trans hs₂.1, hmounted⟩
        simp_all [formatFault, unlockFault, Call.succeeded, or_imp, forall_and]
      · have hfailed : Call.succeeded .doMount mounted = false := by
          simpa [Call.succeeded] using hzero
        have hs₃ : w₃.At .opened := hc.keeps_failed hmount hfailed hs₂
        rw [if_pos hzero]
        simp only [ensures_ask_bind]
        intro removed w₄ hremoved
        have hsafe₃ : Safe ⟨w₃, .removeDirectory, removed⟩ := .of_at hs₃ (.inl (by decide))
        have hs₄ : w₄.At .opened := hc.keeps_still hremoved rfl hs₃
        cases removed with
        | error e =>
          have hthrew : Call.threw .removeDirectory (.error e) = true := rfl
          simp_all [formatFault, unlockFault, orThrow, or_imp, forall_and,
            filesystemError_not_recoverable]
        | ok removed =>
          have hthrew : Call.threw .removeDirectory (.ok removed) = false := rfl
          simp_all [formatFault, unlockFault, orThrow, or_imp, forall_and,
            Exception.recoverable, Exception.runtimeWhat]
    · intro tr e w₂ h
      rcases h with ⟨htr, hs₂, hformat, hunlock, he⟩
      simp_all [formatFault, unlockFault]

theorem mountFilesystemLockOnError_format_spec {w : World} (hs : w.At .opened) :
    Ensures env (mountFilesystemLockOnError false) w fun tr out w' => (∀ ev ∈ tr, Safe ev) ∧
      match out with
      | .ok _ => w'.At .mounted ∧ faulty formatFault tr = false
      | .error _ => w'.At .opened ∧ faulty formatFault tr = true := by
  refine Ensures.tryCatch (mountFilesystem_spec hc hs) ?_ ?_
  · rintro tr _ w₁ ⟨htr, hs₁, hformat, _⟩
    exact ⟨htr, hs₁, hformat⟩
  · intro tr e w₁ h
    rcases h with ⟨htr, hs₁, hformat, _⟩
    have hthrow : ∀ e', Ensures env (Prog.throw e' : M Unit) w₁ fun tr' out w' =>
        (∀ ev ∈ tr ++ tr', Safe ev) ∧
          match out with
          | .ok _ => w'.At .mounted ∧ faulty formatFault (tr ++ tr') = false
          | .error _ => w'.At .opened ∧ faulty formatFault (tr ++ tr') = true := by
      intro e'
      simpa using ⟨htr, hs₁, hformat⟩
    unfold lockOnMountError
    split
    · split
      · exact hthrow _
      · exact hthrow _
    · exact hthrow _

theorem mountFilesystemLockOnError_unlock_spec {w : World} (hs : w.At .opened) :
    Ensures env (mountFilesystemLockOnError true) w fun tr out w' => (∀ ev ∈ tr, Safe ev) ∧
      match out with
      | .ok _ => w'.At .mounted ∧ faulty unlockFault tr = false
      | .error _ => (w'.At .opened ∧ faulty unlockFault tr = true) ∨
          (w'.At .closed ∧ faulty unlockFault tr = false) := by
  refine Ensures.tryCatch (mountFilesystem_spec hc hs) ?_ ?_
  · rintro tr _ w₁ ⟨htr, hs₁, _, hunlock⟩
    exact ⟨htr, hs₁, hunlock⟩
  · intro tr e w₁ h
    rcases h with ⟨htr, hs₁, _, hunlock⟩
    have hforward (hrec : e.recoverable = false) :
        Ensures env (Prog.throw e : M Unit) w₁ fun tr' out w' => (∀ ev ∈ tr ++ tr', Safe ev) ∧
          match out with
          | .ok _ => w'.At .mounted ∧ faulty unlockFault (tr ++ tr') = false
          | .error _ => (w'.At .opened ∧ faulty unlockFault (tr ++ tr') = true) ∨
              (w'.At .closed ∧ faulty unlockFault (tr ++ tr') = false) := by
      simpa [hunlock, hrec] using ⟨htr, hs₁⟩
    unfold lockOnMountError
    split
    · rename_i what hwhat
      split
      · rename_i hknown
        have hrec : e.recoverable = true := by simpa [Exception.recoverable, hwhat] using hknown
        refine Ensures.bind (deactivateLuksDev_spec hc hs₁) ?_ ?_
        · rintro tr' _ w₂ ⟨htr', hs₂, _, hclosed⟩
          simp_all [or_imp]
        · intro tr' e' w₂ h
          rcases h with ⟨htr', hs₂, _, hstuck⟩
          simp_all [or_imp]
      · rename_i hunknown
        exact hforward (by simpa [Exception.recoverable, hwhat] using hunknown)
    · rename_i hwhat
      exact hforward (by simp [Exception.recoverable, hwhat])

theorem createFilesystem_spec {w : World} (hs : w.At .opened) :
    Ensures env createFilesystem w fun tr out w' => (∀ ev ∈ tr, Safe ev) ∧ w'.At .opened ∧
      match out with
      | .ok _ => faulty formatFault tr = false
      | .error _ => faulty formatFault tr = true := by
  simp only [createFilesystem, ensures_ask_bind, ensures_throwIf]
  intro made w₁ hmade
  have hsafe : Safe ⟨w, .runMkfs, made⟩ := .of_at hs (.inl (by decide))
  have hs₁ : w₁.At .opened := hc.keeps_still hmade rfl hs
  split
  · rename_i hnonzero
    simp [hsafe, hs₁, formatFault, Call.succeeded, hnonzero]
  · rename_i hzero
    obtain rfl := not_not.mp hzero
    simp [hsafe, hs₁, formatFault, Call.succeeded]

theorem createAndMount_spec {w : World} (hs : w.At .opened) :
    Ensures env (createFilesystem >>= fun _ => mountFilesystemLockOnError false) w
      fun tr out w' => (∀ ev ∈ tr, Safe ev) ∧
        match out with
        | .ok _ => w'.At .mounted ∧ faulty formatFault tr = false
        | .error _ => w'.At .opened ∧ faulty formatFault tr = true := by
  refine Ensures.bind (createFilesystem_spec hc hs) ?_ fun tr e w₁ h => h
  rintro tr _ w₁ ⟨htr, hs₁, hclean⟩
  refine (mountFilesystemLockOnError_format_spec hc hs₁).mono ?_
  intro tr' out w' h
  rcases h with ⟨htr', hout⟩
  refine ⟨List.forall_mem_append.mpr ⟨htr, htr'⟩, ?_⟩
  rw [faulty_append, hclean, Bool.false_or]
  exact hout

theorem unmountFilesystem_spec {w : World} {s : Stage} (hs : w.At s) :
    Ensures env unmountFilesystem w fun tr out w' => (∀ ev ∈ tr, Safe ev) ∧
      match out with
      | .ok _ => s = .mounted ∧ w'.At .opened ∧ faulty lockFault tr = false
      | .error _ => (w'.At s ∧ faulty lockFault tr = false) ∨
          (s = .mounted ∧ w'.At .opened ∧ faulty lockFault tr = true) := by
  simp only [unmountFilesystem, ensures_ask_bind, ensures_throwIf_bind]
  intro unmounted w₁ hunmount
  have hsafe : Safe ⟨w, .doUnmount, unmounted⟩ := .of_at hs (.inr rfl)
  split
  · rename_i hnonzero
    have hfailed : Call.succeeded .doUnmount unmounted = false := by
      simpa [Call.succeeded] using hnonzero
    have hs₁ : w₁.At s := hc.keeps_failed hunmount hfailed hs
    simp [hsafe, hs₁, lockFault]
  · rename_i hzero
    obtain ⟨hwas, hmapped, hmounted⟩ := hc.unmount _ _ _ hunmount (not_not.mp hzero)
    have hstage : s = .mounted := by cases s <;> simp_all [World.At]
    subst hstage
    have hs₁ : w₁.At .opened := ⟨hmapped.trans hs.1, hmounted⟩
    intro removed w₂ hremoved
    have hsafe₂ : Safe ⟨w₁, .removeDirectory, removed⟩ := .of_at hs₁ (.inl (by decide))
    have hs₂ : w₂.At .opened := hc.keeps_still hremoved rfl hs₁
    cases removed with
    | error e => simp [hsafe, hsafe₂, hs₂, lockFault, orThrow, Call.succeeded, okTrue]
    | ok removed =>
      cases removed <;> simp [hsafe, hsafe₂, hs₂, lockFault, orThrow, Call.succeeded, okTrue]

end Specs

/-! ## The machine -/

def Op.opens : Op → Bool
  | .formatLuks _ _ | .unlock _ => true
  | _ => false

def Op.closes : Op → Bool
  | .lock | .erase .securedLocked => true
  | _ => false

theorem Op.closes_of_opens {op : Op} (h : op.opens = true) : op.closes = false := by
  cases op with
  | formatLuks => rfl
  | unlock => rfl
  | _ => cases h

/-- `StageStep op ok stranded s s'`: `op` may take stage `s` to `s'`, returning normally
if `ok` and leaving the volume opened halfway if `stranded`. -/
inductive StageStep : Op → Bool → Bool → Stage → Stage → Prop where
  | fails (op : Op) (s : Stage) : StageStep op false false s s
  | opens {op : Op} : op.opens = true → StageStep op true false .closed .mounted
  | strandsOpening {op : Op} : op.opens = true → StageStep op false true .closed .opened
  | closes {op : Op} : op.closes = true → StageStep op true false .mounted .closed
  | strandsClosing {op : Op} : op.closes = true → StageStep op false true .mounted .opened
  | alreadyLocked : StageStep (.erase .securedLocked) true false .closed .closed
  | passes {op : Op} (s : Stage) :
      op.opens = false → op.closes = false → StageStep op true false s s

theorem StageStep.opened_iff {op : Op} {ok stranded : Bool} {s s' : Stage}
    (h : StageStep op ok stranded s s') : s' = .opened ↔ s = .opened ∨ stranded = true := by
  cases h <;> simp

theorem StageStep.opened_stays {op : Op} {ok stranded : Bool} {s s' : Stage}
    (h : StageStep op ok stranded s s') (hs : s = .opened) : s' = .opened :=
  h.opened_iff.mpr (.inl hs)

theorem StageStep.opening {op : Op} {ok stranded : Bool} {s' : Stage}
    (hopens : op.opens = true) (h : StageStep op ok stranded .closed s') :
    (ok = true ∧ stranded = false ∧ s' = .mounted) ∨
    (ok = false ∧ stranded = false ∧ s' = .closed) ∨
    (ok = false ∧ stranded = true ∧ s' = .opened) := by
  cases h with
  | fails => exact .inr (.inl ⟨rfl, rfl, rfl⟩)
  | opens => exact .inl ⟨rfl, rfl, rfl⟩
  | strandsOpening => exact .inr (.inr ⟨rfl, rfl, rfl⟩)
  | alreadyLocked => cases hopens
  | passes _ hpasses => simp [hopens] at hpasses

/-- `op` ended in a stage the machine allows, and made safe calls only. -/
def Refines (op : Op) (s : Stage) (tr : VolumeTrace) (out : Except Exception Unit)
    (w' : World) : Prop :=
  (∀ ev ∈ tr, Safe ev) ∧ ∃ s', w'.At s' ∧ StageStep op out.isOk (faulty op.fault tr) s s'

section Refinement
variable {env : VolumeEnv} (hc : MountContract env)
include hc

theorem idle_refines {op : Op} (hopens : op.opens = false) (hcloses : op.closes = false)
    {p : M Unit} (hp : p.Uses Call.idle) {w : World} {s : Stage} (hs : w.At s) :
    Ensures env p w (Refines op s) := by
  refine (idle_spec hc hp hs).mono ?_
  intro tr out w' h
  rcases h with ⟨hs', htr⟩
  refine ⟨htr.safe, s, hs', ?_⟩
  rw [htr.not_faulty op]
  cases out with
  | ok _ => exact .passes s hopens hcloses
  | error _ => exact .fails op s

theorem unlock_refines (password : Password) {w : World} {s : Stage} (hs : w.At s) :
    Ensures env (unlock password) w (Refines (.unlock password) s) := by
  refine Ensures.bind (activateLuksDev_spec hc password hs) ?_ ?_
  · rintro tr _ w₁ ⟨htr, rfl, hs₁⟩
    have hquiet : faulty unlockFault tr = false := htr.not_faulty (.unlock password)
    refine (mountFilesystemLockOnError_unlock_spec hc hs₁).mono ?_
    intro tr' out w' h
    rcases h with ⟨htr', hout⟩
    refine ⟨List.forall_mem_append.mpr ⟨htr.safe, htr'⟩, ?_⟩
    have hfault : faulty (Op.unlock password).fault (tr ++ tr') = faulty unlockFault tr' := by
      simp [Op.fault, hquiet]
    rw [hfault]
    cases out with
    | ok _ =>
      rcases hout with ⟨hs', hclean⟩
      rw [hclean]
      exact ⟨.mounted, hs', .opens rfl⟩
    | error e =>
      rcases hout with ⟨hs', hstuck⟩ | ⟨hs', hclean⟩
      · rw [hstuck]
        exact ⟨.opened, hs', .strandsOpening rfl⟩
      · rw [hclean]
        exact ⟨.closed, hs', .fails _ _⟩
  · intro tr e w₁ h
    rcases h with ⟨htr, hs₁⟩
    refine ⟨htr.safe, s, hs₁, ?_⟩
    rw [htr.not_faulty]
    exact .fails _ _

theorem formatLuks_refines (password : Password) (type : FilesystemType) {w : World} {s : Stage}
    (hs : w.At s) :
    Ensures env (formatLuks password type) w (Refines (.formatLuks password type) s) := by
  have hfails : ∀ tr e w₁, w₁.At s → Quiet s tr →
      Refines (.formatLuks password type) s tr (.error e) w₁ := by
    intro tr e w₁ hs₁ htr
    refine ⟨htr.safe, s, hs₁, ?_⟩
    rw [htr.not_faulty]
    exact .fails _ _
  simp only [formatLuks, ensures_throwIf_bind]
  split
  · exact hfails [] _ w hs (quiet_nil s)
  refine idle_bind hc (formatLuksDev_idle password) hs ?_ hfails
  intro tr _ w₁ hs₁ htr
  refine Ensures.bind (activateLuksDev_spec hc password hs₁) ?_ fun tr' e w₂ h =>
    hfails _ e w₂ h.2 (quiet_append.mpr ⟨htr, h.1⟩)
  rintro tr' _ w₂ ⟨htr', rfl, hs₂⟩
  have hquiet : Quiet .closed (tr ++ tr') := quiet_append.mpr ⟨htr, htr'⟩
  refine (createAndMount_spec hc hs₂).mono ?_
  intro tr'' out w' h
  rcases h with ⟨htr'', hout⟩
  rw [← List.append_assoc]
  refine ⟨List.forall_mem_append.mpr ⟨hquiet.safe, htr''⟩, ?_⟩
  rw [faulty_append, hquiet.not_faulty, Bool.false_or]
  cases out with
  | ok _ =>
    rcases hout with ⟨hs', hclean⟩
    exact ⟨.mounted, hs', hclean ▸ .opens rfl⟩
  | error e =>
    rcases hout with ⟨hs', hstuck⟩
    exact ⟨.opened, hs', hstuck ▸ .strandsOpening rfl⟩

theorem lock_refines {op : Op} (hcloses : op.closes = true) {w : World} {s : Stage}
    (hs : w.At s) : Ensures env lock w (Refines op s) := by
  have hfault : op.fault = lockFault := by
    cases op with
    | lock => rfl
    | erase method => cases method <;> first | rfl | cases hcloses
    | formatLuks _ _ => cases hcloses
    | unlock _ => cases hcloses
    | changePassword _ _ => cases hcloses
  refine Ensures.bind (unmountFilesystem_spec hc hs) ?_ ?_
  · rintro tr _ w₁ ⟨htr, rfl, hs₁, hclean⟩
    refine (deactivateLuksDev_spec hc hs₁).mono ?_
    intro tr' out w' h
    rcases h with ⟨htr', hout⟩
    refine ⟨List.forall_mem_append.mpr ⟨htr, htr'⟩, ?_⟩
    rw [hfault, faulty_append, hclean, Bool.false_or]
    cases out with
    | ok _ => exact ⟨.closed, hout.1, hout.2.1 ▸ .closes hcloses⟩
    | error e => exact ⟨.opened, hout.1, hout.2.1 ▸ .strandsClosing hcloses⟩
  · intro tr e w₁ h
    rcases h with ⟨htr, hout⟩
    refine ⟨htr, ?_⟩
    rw [hfault]
    rcases hout with ⟨hs₁, hclean⟩ | ⟨rfl, hs₁, hstuck⟩
    · exact ⟨s, hs₁, hclean ▸ .fails op s⟩
    · exact ⟨.opened, hs₁, hstuck ▸ .strandsClosing hcloses⟩

theorem isLocked_spec {w : World} {s : Stage} (hs : w.At s) :
    Ensures env isLocked w fun tr out w' => Quiet s tr ∧ w'.At s ∧
      match out with
      | .ok locked => locked = true → s = .closed
      | .error _ => False := by
  refine Ensures.tryCatch_iff.mpr ?_
  simp only [ensures_ask_bind]
  intro present w₁ hpresent
  have hs₁ : w₁.At s := hc.keeps_still hpresent rfl hs
  cases present with
  | error e => simp [orThrow, hs, hs₁, Call.harmless]
  | ok present =>
    have hmapped : present = w.mapped := hc.exists_iff _ _ _ hpresent
    have hclosed : present = false → s = .closed := by
      intro habsent
      rw [World.at_iff, ← hmapped, habsent] at hs
      simpa using hs.1
    simpa [orThrow, hs, hs₁, Call.harmless] using hclosed

theorem erase_refines (method : EraseMethod) {w : World} {s : Stage} (hs : w.At s) :
    Ensures env (erase method) w (Refines (.erase method) s) := by
  cases method with
  | cryptoErase => exact idle_refines hc rfl rfl doErase_idle hs
  | securedLocked =>
    refine Ensures.bind (isLocked_spec hc hs) ?_ fun tr e w₁ h => h.2.2.elim
    intro tr locked w₁ h
    rcases h with ⟨htr, hs₁, hlocked⟩
    have hnone : faulty (Op.erase .securedLocked).fault tr = false := htr.not_faulty _
    have hprefix : ∀ tr' out w', Refines (.erase .securedLocked) s tr' out w' →
        Refines (.erase .securedLocked) s (tr ++ tr') out w' := by
      intro tr' out w' h
      rcases h with ⟨hsafe, hstep⟩
      refine ⟨List.forall_mem_append.mpr ⟨htr.safe, hsafe⟩, ?_⟩
      rwa [faulty_append, hnone, Bool.false_or]
    cases locked with
    | true =>
      obtain rfl := hlocked rfl
      simpa using hprefix [] (.ok ()) w₁ ⟨by simp, .closed, hs₁, .alreadyLocked⟩
    | false => exact (lock_refines hc rfl hs₁).mono hprefix
  | _ => exact idle_refines hc rfl rfl (eraseDevice_idle _) hs

/-- The code of every operation refines the lock machine. -/
theorem op_refines (op : Op) {w : World} {s : Stage} (hs : w.At s) :
    Ensures env op.prog w (Refines op s) := by
  cases op with
  | formatLuks password type => exact formatLuks_refines hc password type hs
  | erase method => exact erase_refines hc method hs
  | lock => exact lock_refines hc rfl hs
  | unlock password => exact unlock_refines hc password hs
  | changePassword oldPassword newPassword =>
    exact idle_refines hc rfl rfl (changePassword_idle oldPassword newPassword) hs

end Refinement

end Estoraged

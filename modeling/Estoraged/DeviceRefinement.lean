import Estoraged.EraseDevice
import Estoraged.Keyslots
import Estoraged.MountSafety

/-!
# Erasing on the device, seen from the volume

The erase call of the volume model stands for a program on the device file. With that
program in its place every run of the D-Bus methods is still a run of the volume model, so
what holds of all runs there holds on the device, between any two calls.
-/

namespace Estoraged
open Interaction
set_option autoImplicit false

/-- The calls of the volume model, and those on the device file. -/
inductive SystemCall where
  | volume (c : Call)
  | device (c : DeviceCall)
deriving DecidableEq, Repr

abbrev SystemCall.Ret : SystemCall → Type
  | .volume c => c.Ret
  | .device c => c.Ret

abbrev systemPorts : Interface := ⟨SystemCall, SystemCall.Ret⟩

abbrev SystemM (α : Type) := Prog systemPorts Exception α

def onDevice (c : DeviceCall) : SystemM c.Ret := .call (.device c) .ret

/-- An erase on the device is carried out; the other calls are made as they are. -/
def EStoraged.carryOut (storage : EStoraged) : (c : Call) → SystemM c.Ret
  | .eraseDevice method => ((storage.eraseDevice method).interpret onDevice).attempt
  | c => .call (.volume c) .ret

/-- A D-Bus method of a storage object. -/
def EStoraged.method (storage : EStoraged) (op : Op) : SystemM Unit :=
  op.prog.interpret storage.carryOut

structure PerformedOn (σ : Type) where
  op : Op
  trace : Trace systemPorts σ
  out : Except Exception Unit

def PerformsOn {σ : Type} (storage : EStoraged) (env : Env systemPorts σ) (s : σ)
    (l : PerformedOn σ) (s' : σ) : Prop :=
  Exec env (storage.method l.op) s l.trace l.out s'

/-! ## Only an erase opens the device file -/

def Call.spares (c : Call) : Prop := ∀ method, c ≠ .eraseDevice method

theorem CryptHandle.init_spares : CryptHandle.init.Uses Call.spares := by
  simp [CryptHandle.init, Call.spares]

theorem CryptHandle.get_spares (cryptHandle : CryptHandle) :
    cryptHandle.get.Uses Call.spares := by
  simp [CryptHandle.get]

theorem loadLuksHeader_spares : loadLuksHeader.Uses Call.spares := by
  apply CryptHandle.init_spares.bind
  intro cryptHandle
  apply cryptHandle.get_spares.bind
  intro _
  simp [Call.spares]

theorem activateLuksDev_spares (password : Password) :
    (activateLuksDev password).Uses Call.spares := by
  apply loadLuksHeader_spares.bind
  intro cryptHandle
  apply cryptHandle.get_spares.bind
  intro _
  simp [Call.spares]

theorem deactivateLuksDev_spares : deactivateLuksDev.Uses Call.spares := by
  simp [deactivateLuksDev, Call.spares]

theorem formatLuksDev_spares (password : Password) :
    (formatLuksDev password).Uses Call.spares := by
  refine ⟨by simp [Call.spares], fun generated => uses_throwIf.bind fun _ => ?_⟩
  apply CryptHandle.init_spares.bind
  intro cryptHandle
  apply cryptHandle.get_spares.bind
  intro _
  refine ⟨by simp [Call.spares], fun retval => uses_throwIf.bind fun _ => ?_⟩
  apply cryptHandle.get_spares.bind
  intro _
  simp [Call.spares]

theorem prepareMountPoint_spares : prepareMountPoint.Uses Call.spares := by
  refine ⟨by simp [Call.spares], fun answer => (orThrow_uses answer).bind fun present => ?_⟩
  cases present with
  | true => trivial
  | false =>
    refine ⟨by simp [Call.spares], fun created => ?_⟩
    exact (orThrow_uses created).bind fun _ => uses_throwIf

theorem mountFilesystem_spares : mountFilesystem.Uses Call.spares := by
  refine ⟨by simp [Call.spares], fun _ => uses_throwIf.bind fun _ => ?_⟩
  apply prepareMountPoint_spares.bind
  intro _
  refine ⟨by simp [Call.spares], fun retval => ?_⟩
  simp only [Prog.bind]
  split
  · refine ⟨by simp [Call.spares], fun removed => ?_⟩
    exact (orThrow_uses removed).bind fun _ => trivial
  · trivial

theorem mountFilesystemLockOnError_spares (lockOnError : Bool) :
    (mountFilesystemLockOnError lockOnError).Uses Call.spares := by
  apply mountFilesystem_spares.tryCatch
  intro e
  unfold lockOnMountError
  split
  · split
    · cases lockOnError with
      | true => exact deactivateLuksDev_spares.bind fun _ => Prog.uses_throw _
      | false => trivial
    · trivial
  · trivial

theorem lock_spares : lock.Uses Call.spares := by
  refine Prog.Uses.bind ?_ fun _ => deactivateLuksDev_spares
  refine ⟨by simp [Call.spares], fun _ => uses_throwIf.bind fun _ => ?_⟩
  refine ⟨by simp [Call.spares], fun removed => ?_⟩
  exact (orThrow_uses removed).bind fun _ => uses_throwIf

theorem isLocked_spares : isLocked.Uses Call.spares := by
  refine Prog.Uses.tryCatch ⟨by simp [Call.spares], fun answer => ?_⟩ fun _ => trivial
  exact (orThrow_uses answer).bind fun _ => trivial

theorem destroyKeyslots_spares (cryptHandle : CryptHandle) (n i : Nat) (keySlotIssue : Bool) :
    (destroyKeyslots cryptHandle n i keySlotIssue).Uses Call.spares := by
  induction n generalizing i keySlotIssue with
  | zero => trivial
  | succ n ih =>
    apply cryptHandle.get_spares.bind
    intro _
    refine ⟨by simp [Call.spares], fun ki => ?_⟩
    simp only [Prog.bind]
    split
    · apply cryptHandle.get_spares.bind
      intro _
      exact ⟨by simp [Call.spares], fun _ => ih _ _⟩
    · exact ih _ _

theorem doErase_spares : doErase.Uses Call.spares := by
  apply CryptHandle.init_spares.bind
  intro cryptHandle
  apply cryptHandle.get_spares.bind
  intro _
  refine ⟨by simp [Call.spares], fun _ => uses_throwIf.bind fun _ => ?_⟩
  refine ⟨by simp [Call.spares], fun nKeySlots => ?_⟩
  refine uses_throwIf.bind fun _ => uses_throwIf.bind fun _ => ?_
  exact (destroyKeyslots_spares ..).bind fun _ => uses_throwIf

/-- The calls of a D-Bus method: an erase on the device is made for that erase only. -/
def Op.owns (op : Op) (c : Call) : Prop := ∀ method, c = .eraseDevice method → op = .erase method

theorem Op.prog_owns (op : Op) : op.prog.Uses op.owns := by
  have hspares : ∀ {p : M Unit}, p.Uses Call.spares → p.Uses op.owns := by
    intro p hp
    apply hp.mono
    intro c hc method hmethod
    exact absurd hmethod (hc method)
  cases op with
  | formatLuks password type =>
    apply hspares
    apply (uses_throwIf (N := Call.spares)).bind
    intro _
    apply (formatLuksDev_spares password).bind
    intro _
    apply (activateLuksDev_spares password).bind
    intro _
    refine Prog.Uses.bind ?_ fun _ => mountFilesystemLockOnError_spares false
    exact ⟨by simp [Call.spares], fun _ => uses_throwIf⟩
  | erase method =>
    cases method with
    | cryptoErase => exact hspares doErase_spares
    | securedLocked =>
      apply hspares
      apply isLocked_spares.bind
      intro locked
      cases locked with
      | true => trivial
      | false => exact lock_spares
    | _ =>
      refine ⟨?_, ?_⟩
      · intro method hmethod
        cases hmethod
        rfl
      · intro answer
        cases answer <;> trivial
  | lock => exact hspares lock_spares
  | unlock password =>
    apply hspares
    apply (activateLuksDev_spares password).bind
    intro _
    exact mountFilesystemLockOnError_spares true
  | changePassword oldPassword newPassword =>
    apply hspares
    apply loadLuksHeader_spares.bind
    intro cryptHandle
    apply cryptHandle.get_spares.bind
    intro _
    exact ⟨by simp [Call.spares], fun _ => uses_throwIf⟩

/-! ## What is assumed of the device -/

/-- The two states differ at most in the LUKS data on the device. -/
structure World.SameUse (w w' : World) : Prop where
  mapped : w.mapped = w'.mapped
  mounted : w.mounted = w'.mounted
  mountPoint : w.mountPoint = w'.mountPoint

/-- The volume that a system shows changes as the volume model has it, and by calls on the
device file only so far as its LUKS data is stored there. -/
structure DeviceContract {σ : Type} (env : Env systemPorts σ) (world : σ → World) : Prop where
  volume : ∀ s c r s', env s (.volume c) r s' → ruled (world s) c r (world s')
  keeps : ∀ s c r s', env s (.device c) r s' → c.changes = false → world s' = world s
  sameUse : ∀ s c r s', env s (.device c) r s' → (world s').SameUse (world s)

section Refinement
variable {σ : Type} {env : Env systemPorts σ} {world : σ → World}

/-- Which calls of the system an event of the volume model stands for. -/
inductive Stands (world : σ → World) : Trace systemPorts σ → Event ports World → Prop where
  | call {s : σ} {c : Call} {r : c.Ret} :
      c.spares → Stands world [⟨s, .volume c, r⟩] ⟨world s, c, r⟩
  | erase {part : Trace systemPorts σ} {w : World} {method : EraseMethod}
      {outcome : Except Exception Unit} :
      (∀ ev ∈ part, (∃ c, ev.call = .device c ∧ method.permits c = true) ∧
        (world ev.before).SameUse w) →
      Stands world part ⟨w, .eraseDevice method, outcome⟩

/-- The erase of a method, from a state that shows `w`. -/
structure Erasing (world : σ → World) (method : EraseMethod) (w : World) (s : σ) : Prop where
  sameUse : (world s).SameUse w
  keeps : method.overwrites = false → world s = w

theorem Erasing.next (hc : DeviceContract env world) {method : EraseMethod} {w : World} {s s' : σ}
    {c : DeviceCall} {r : c.Ret} (hpermits : method.permits c = true)
    (h : Erasing world method w s) (hcall : env s (.device c) r s') :
    Erasing world method w s' := by
  obtain ⟨hmapped, hmounted, hmountPoint⟩ := hc.sameUse s c r s' hcall
  refine ⟨⟨?_, ?_, ?_⟩, ?_⟩
  · exact hmapped.trans h.sameUse.mapped
  · exact hmounted.trans h.sameUse.mounted
  · exact hmountPoint.trans h.sameUse.mountPoint
  · intro hmethod
    rw [← h.keeps hmethod]
    apply hc.keeps s c r s' hcall
    cases hchanges : c.changes with
    | false => rfl
    | true =>
      rw [EraseMethod.overwrites_of_permits hpermits hchanges] at hmethod
      cases hmethod

/-- What `ruled` lets an erase do. -/
theorem Erasing.ruled {method : EraseMethod} {w : World} {s : σ} (h : Erasing world method w s)
    (outcome : Except Exception Unit) :
    Estoraged.ruled w (.eraseDevice method) outcome (world s) := by
  refine ⟨fun _ => ⟨rfl, rfl⟩, ?_⟩
  cases hmethod : method.overwrites with
  | false =>
    refine .inl ?_
    rw [h.keeps hmethod]
    cases outcome <;> rfl
  | true =>
    exact .inr ⟨⟨method, hmethod, rfl⟩, h.sameUse.mapped, h.sameUse.mounted, h.sameUse.mountPoint⟩

/-- The calls that an erase method may make in the system. -/
def EraseMethod.permitsCall (method : EraseMethod) : SystemCall → Prop
  | .volume _ => False
  | .device c => method.permits c = true

theorem eraseDevice_simulates (hc : DeviceContract env world) (storage : EStoraged)
    (method : EraseMethod) {s s' : σ} {tr : Trace systemPorts σ}
    {out : Except Exception (Except Exception Unit)}
    (hrun : Exec env (storage.carryOut (.eraseDevice method)) s tr out s') :
    ∃ outcome, out = .ok outcome ∧ ruled (world s) (.eraseDevice method) outcome (world s') ∧
      Stands world tr ⟨world s, .eraseDevice method, outcome⟩ := by
  obtain ⟨outcome, rfl, herase⟩ := hrun.of_attempt
  have huses : ((storage.eraseDevice method).interpret onDevice).Uses method.permitsCall := by
    apply (storage.eraseDevice_permitted method).interpret
    intro c hpermits
    exact ⟨hpermits, fun _ => Prog.uses_ret _⟩
  have hnext : ∀ s₁ c r s₂, method.permitsCall c → Erasing world method (world s) s₁ →
      env s₁ c r s₂ → Erasing world method (world s) s₂ := by
    intro s₁ c r s₂ hpermits h hcall
    cases c with
    | volume c => exact hpermits.elim
    | device c => exact h.next hc hpermits hcall
  obtain ⟨hend, hcalls⟩ := huses.ensures hnext ⟨⟨rfl, rfl, rfl⟩, fun _ => rfl⟩ _ _ _ herase
  refine ⟨outcome, rfl, hend.ruled outcome, .erase ?_⟩
  intro ev hev
  obtain ⟨hpermits, hbefore⟩ := hcalls ev hev
  refine ⟨?_, hbefore.sameUse⟩
  obtain ⟨s₁, c, r⟩ := ev
  cases c with
  | volume c => exact hpermits.elim
  | device c => exact ⟨c, rfl, hpermits⟩

theorem carryOut_simulates (hc : DeviceContract env world) (storage : EStoraged) (c : Call)
    {s s' : σ} {tr : Trace systemPorts σ} {out : Except Exception c.Ret}
    (hrun : Exec env (storage.carryOut c) s tr out s') :
    ∃ r, out = .ok r ∧ ruled (world s) c r (world s') ∧ Stands world tr ⟨world s, c, r⟩ := by
  have hplain : c.spares →
      Exec env (.call (.volume c) .ret : SystemM c.Ret) s tr out s' →
      ∃ r, out = .ok r ∧ ruled (world s) c r (world s') ∧ Stands world tr ⟨world s, c, r⟩ := by
    intro hspares hcall
    obtain ⟨r, s₁, tr', henv, rfl, hret⟩ := hcall.of_call
    obtain ⟨rfl, rfl, rfl⟩ := hret.of_ret
    exact ⟨r, rfl, hc.volume _ _ _ _ henv, .call hspares⟩
  cases c with
  | eraseDevice method => exact eraseDevice_simulates hc storage method hrun
  | _ => exact hplain (fun _ h => by cases h) hrun

/-- The same method, ended the same, whose calls stand for those of the system; the device
file is left to the erase that was asked for. -/
structure Refined (world : σ → World) (l : PerformedOn σ) (l' : Performed) : Prop where
  op : l'.op = l.op
  out : l'.out = l.out
  calls : ∃ parts, l.trace = parts.flatten ∧ List.Forall₂ (Stands world) parts l'.trace
  device : ∀ ev ∈ l.trace, ∀ c, ev.call = .device c →
    ∃ method, l.op = .erase method ∧ method.permits c = true

theorem performsOn_refines (hc : DeviceContract env world) {storage : EStoraged} {s s' : σ}
    {l : PerformedOn σ} (h : PerformsOn storage env s l s') :
    ∃ l', Refined world l l' ∧ Performs ruled (world s) l' (world s') := by
  have hsimulates : ∀ c t w tr out t', world t = w → Exec env (storage.carryOut c) t tr out t' →
      ∃ r w', out = .ok r ∧ ruled w c r w' ∧ world t' = w' ∧ Stands world tr ⟨w, c, r⟩ := by
    intro c t w tr out t' hw hrun
    subst hw
    obtain ⟨r, hout, hruled, hstands⟩ := carryOut_simulates hc storage c hrun
    exact ⟨r, world t', hout, hruled, rfl, hstands⟩
  obtain ⟨parts, tr', w', htr, hstands, hexec, hw'⟩ :=
    Exec.simulates (R := fun t w => world t = w) hsimulates rfl h
  subst hw'
  refine ⟨⟨l.op, tr', l.out⟩, ⟨rfl, rfl, ⟨parts, htr, hstands⟩, ?_⟩, hexec⟩
  intro ev hev c hcall
  have howns := l.op.prog_owns.calls (world s) _ _ _ hexec
  rw [htr] at hev
  obtain ⟨part, ev', hmem, hpart, hev⟩ := part_of_mem hstands hev
  cases hpart with
  | call _ =>
    obtain rfl := List.mem_singleton.mp hev
    cases hcall
  | @erase _ _ method _ hdevice =>
    obtain ⟨⟨c', hcall', hpermits⟩, -⟩ := hdevice ev hev
    obtain rfl : c' = c := by
      rw [hcall'] at hcall
      exact SystemCall.device.inj hcall
    exact ⟨method, howns _ hmem method rfl, hpermits⟩

/-- In a refined run mounted implies mapped between any two calls of the system, also in the
middle of an erase. -/
theorem refined_mounted_while_mapped {w w' : World} {ls : List (PerformedOn σ)}
    {ls' : List Performed} (hrefined : List.Forall₂ (Refined world) ls ls')
    (hrun : VolumeRun ruled w ls' w') (hstart : w.mounted = true → w.mapped = true) :
    (w'.mounted = true → w'.mapped = true) ∧
    ∀ l ∈ ls, ∀ ev ∈ l.trace,
      ((world ev.before).mounted = true → (world ev.before).mapped = true) ∧
      ∀ c, ev.call = .volume c → c.needsUnmounted = true → (world ev.before).mounted = false := by
  have hw : ∃ stage, w.At stage := World.exists_at_iff.mpr hstart
  refine ⟨World.exists_at_iff.mp (run_keeps_stage ruled_contract hw hrun), ?_⟩
  intro l hl ev hev
  obtain ⟨l', hl', hsame⟩ := forall₂_mem hrefined hl
  obtain ⟨parts, htr, hstands⟩ := hsame.calls
  rw [htr] at hev
  obtain ⟨part, ev', hmem, hpart, hev⟩ := part_of_mem hstands hev
  obtain ⟨hsound, hunmounted⟩ := run_safe ruled_contract hw hrun l' hl' ev' hmem
  cases hpart with
  | call _ =>
    obtain rfl := List.mem_singleton.mp hev
    refine ⟨hsound, ?_⟩
    intro c hcall
    obtain rfl := SystemCall.volume.inj hcall
    exact hunmounted
  | erase hdevice =>
    obtain ⟨⟨c, hcall, -⟩, hsame⟩ := hdevice ev hev
    rw [hsame.mounted, hsame.mapped]
    refine ⟨hsound, ?_⟩
    intro c' hvolumeCall
    rw [hcall] at hvolumeCall
    cases hvolumeCall

/-- Every run of the D-Bus methods of a storage object, erases carried out call by call on
the device file, is a run of the volume model. So between any two calls mounted implies
mapped, and nothing deactivates, formats or checks a mounted filesystem. -/
theorem device_runs_refine_volume (hc : DeviceContract env world) {storage : EStoraged}
    {s s' : σ} {ls : List (PerformedOn σ)} (hrun : Steps (PerformsOn storage env) s ls s') :
    (∃ ls', List.Forall₂ (Refined world) ls ls' ∧
      VolumeRun ruled (world s) ls' (world s')) ∧
    (((world s).mounted = true → (world s).mapped = true) →
      ((world s').mounted = true → (world s').mapped = true) ∧
      ∀ l ∈ ls, ∀ ev ∈ l.trace,
        ((world ev.before).mounted = true → (world ev.before).mapped = true) ∧
        ∀ c, ev.call = .volume c → c.needsUnmounted = true →
          (world ev.before).mounted = false) := by
  have hstep : ∀ t l t' w, world t = w → PerformsOn storage env t l t' →
      ∃ l' w', Refined world l l' ∧ Performs ruled w l' w' ∧ world t' = w' := by
    intro t l t' w hw h
    subst hw
    obtain ⟨l', hrefined, hperforms⟩ := performsOn_refines hc h
    exact ⟨l', world t', hrefined, hperforms, rfl⟩
  obtain ⟨ls', w', hrefined, hvolume, rfl⟩ :=
    Steps.simulates (R := fun t w => world t = w) hstep rfl hrun
  exact ⟨⟨ls', hrefined, hvolume⟩, refined_mounted_while_mapped hrefined hvolume⟩

end Refinement

/-! ## A machine -/

/-- The volume and the drive it is on. -/
structure Machine where
  volume : World
  drive : Medium

def World.wiped (w : World) : World :=
  { w with header := false, keyslots := w.keyslots.map fun _ => none, filesystem := false }

def sizeOf (bytes : List UInt8) : DeviceSize :=
  ⟨.ofNat (min bytes.length (2 ^ 63 - 1)), by
    rw [UInt64.toNat_ofNat']
    omega⟩

/-- Changing the drive costs the LUKS data. -/
def Machine.device (m : Machine) : (c : DeviceCall) → c.Ret × Machine
  | .openDevice _ => (.ok (), { m with drive := .rewound m.drive.contents m.drive.schedule })
  | .blkGetSize64 => (.ok (sizeOf m.drive.contents), m)
  | .fdGet => (some 3, m)
  | .fd (.read start size) =>
    let answered := medium m.drive (.read start size)
    (answered.1, { m with drive := answered.2 })
  | .fd (.write start bytes) =>
    let answered := medium m.drive (.write start bytes)
    (answered.1, { volume := m.volume.wiped, drive := answered.2 })
  | .ioctl _ => (.ok 0, { m with volume := m.volume.wiped })

def machine : Responder systemPorts Machine := fun m c =>
  match c with
  | .volume c => ((compliant m.volume c).1, { m with volume := (compliant m.volume c).2 })
  | .device c => m.device c

theorem machine_contract : DeviceContract (graph machine) Machine.volume where
  volume := by
    intro m c r m' h
    obtain ⟨rfl, rfl⟩ := Prod.mk.inj h
    exact ruled_compliant m.volume c
  keeps := by
    intro m c r m' h hchanges
    obtain ⟨-, rfl⟩ := Prod.mk.inj h
    cases c with
    | openDevice access => rfl
    | blkGetSize64 => rfl
    | fdGet => rfl
    | fd c =>
      cases c with
      | write start bytes => cases hchanges
      | read start size => rfl
    | ioctl c => cases hchanges
  sameUse := by
    intro m c r m' h
    obtain ⟨-, rfl⟩ := Prod.mk.inj h
    cases c with
    | openDevice access => exact ⟨rfl, rfl, rfl⟩
    | blkGetSize64 => exact ⟨rfl, rfl, rfl⟩
    | fdGet => exact ⟨rfl, rfl, rfl⟩
    | fd c => cases c <;> exact ⟨rfl, rfl, rfl⟩
    | ioctl c => exact ⟨rfl, rfl, rfl⟩

def performOn (storage : EStoraged) (m : Machine) (op : Op) : PerformedOn Machine :=
  let result := (storage.method op).run machine m
  ⟨op, result.trace, result.out⟩

def afterOn (storage : EStoraged) (m : Machine) (op : Op) : Machine :=
  ((storage.method op).run machine m).state

theorem performsOn_performOn (storage : EStoraged) (m : Machine) (op : Op) :
    PerformsOn storage (graph machine) m (performOn storage m op) (afterOn storage m op) :=
  Prog.exec_run machine (fun _ _ => rfl) (storage.method op) m

def boardStorage : EStoraged := emmcObject "/board/emmc"

def smallMachine : Machine := ⟨lockedDrive, ⟨[], [1, 2, 3], fun _ => 2⟩⟩

def unlockedMachine : Machine := afterOn boardStorage smallMachine (.unlock [112, 119])

/-- A drive that is overwritten while it is mounted stays mounted. -/
theorem device_runs_refine_volume_overwritten :
    (afterOn boardStorage unlockedMachine (.erase .zeroOverWrite)).drive.contents = [0, 0, 0] ∧
    (afterOn boardStorage unlockedMachine (.erase .zeroOverWrite)).volume.mounted = true ∧
    ∃ ls', List.Forall₂ (Refined Machine.volume)
        [performOn boardStorage smallMachine (.unlock [112, 119]),
          performOn boardStorage unlockedMachine (.erase .zeroOverWrite)] ls' ∧
      VolumeRun ruled lockedDrive ls'
        (afterOn boardStorage unlockedMachine (.erase .zeroOverWrite)).volume := by
  have hrun : Steps (PerformsOn boardStorage (graph machine)) smallMachine
      [performOn boardStorage smallMachine (.unlock [112, 119]),
        performOn boardStorage unlockedMachine (.erase .zeroOverWrite)]
      (afterOn boardStorage unlockedMachine (.erase .zeroOverWrite)) :=
    .cons (performsOn_performOn _ _ _) (.cons (performsOn_performOn _ _ _) (.nil _))
  exact ⟨rfl, rfl, (device_runs_refine_volume machine_contract hrun).1⟩

end Estoraged

import Estoraged.EraseRounds
import Estoraged.Interpretation
import Estoraged.Sanitize
import Estoraged.StorageObjects

/-!
# The erase methods and the device file

The cases of `EStoraged::erase` that open the device themselves, with the overloads that
find out the size of the device first. Only the file is shared between them: each one
opens it anew.
-/

namespace Estoraged
open Interaction
set_option autoImplicit false

/-- `stdplus::fd::OpenAccess` -/
inductive OpenAccess where
  | readOnly
  | writeOnly
deriving DecidableEq, Repr

/-- What `BLKGETSIZE64` reports; the kernel keeps it as a signed offset. -/
abbrev DeviceSize := { bytes : UInt64 // bytes.toNat < 2 ^ 63 }

inductive DeviceCall where
  | openDevice (access : OpenAccess)
  | blkGetSize64
  | fdGet
  | fd (c : FdCall)
  | ioctl (c : IoctlCall)
deriving DecidableEq, Repr

/-- An error is a `std::system_error` with its text. `fd.get()` may throw as well, on a
descriptor that was never opened. -/
abbrev DeviceCall.Ret : DeviceCall → Type
  | .openDevice _ => Except String Unit
  | .blkGetSize64 => Except String DeviceSize
  | .fdGet => Option Int
  | .fd c => c.Ret
  | .ioctl _ => Except String Int

abbrev devicePorts : Interface := ⟨DeviceCall, DeviceCall.Ret⟩

abbrev DeviceM (α : Type) := Prog devicePorts Exception α

def openDevice (access : OpenAccess) : DeviceM Unit :=
  .call (.openDevice access) fun answer =>
    match answer with
    | .ok _ => .ret ()
    | .error detail => .throw (.systemError detail)

def blkGetSize64 : DeviceM UInt64 :=
  .call .blkGetSize64 fun answer =>
    match answer with
    | .ok size => .ret size.val
    | .error detail => .throw (.systemError detail)

def fdGet : DeviceM Int :=
  .call .fdGet fun answer =>
    match answer with
    | some fd => .ret fd
    | none => .throw .badOptionalAccess

/-- It has a file descriptor of its own, whose number goes into the log. -/
def findSizeOfBlockDevice : DeviceM UInt64 :=
  tryCatch
    (do
      openDevice .readOnly
      blkGetSize64)
    (fun _ => do
      let _ ← fdGet
      throw .internalFailure)

/-! ## The methods -/

def onFd (c : FdCall) : DeviceM c.Ret := .call (.fd c) .ret

/-- More blocks than a drive has. -/
def enoughBlocks (driveSize : UInt64) : Nat := driveSize.toNat / blockSize + 1

/-- The overloads of `Pattern` and `Zero` for the whole device: `fd` is open before the size
is known. -/
def throughDevice (access : OpenAccess) (loop : Nat → UInt64 → FdM (Option Unit)) :
    DeviceM Unit := do
  openDevice access
  let driveSize ← findSizeOfBlockDevice
  let _ ← (loop (enoughBlocks driveSize) driveSize).interpret onFd
  pure ()

namespace Pattern

def writePattern : DeviceM Unit := throughDevice .writeOnly Estoraged.writePattern

def verifyPattern : DeviceM Unit := throughDevice .readOnly Estoraged.verifyPattern

end Pattern

namespace Zero

def writeZero : DeviceM Unit := throughDevice .writeOnly Estoraged.writeZero

def verifyZero : DeviceM Unit := throughDevice .readOnly Estoraged.verifyZero

end Zero

namespace VerifyDriveGeometry

def geometryOkay (eraseMaxGeometry eraseMinGeometry bytes : UInt64) : DeviceM Unit :=
  if bytes > eraseMaxGeometry then throw .internalFailure
  else if bytes < eraseMinGeometry then throw .internalFailure
  else pure ()

/-- The overload for the device itself. -/
def deviceGeometryOkay (eraseMaxGeometry eraseMinGeometry : UInt64) : DeviceM Unit := do
  let bytes ← findSizeOfBlockDevice
  geometryOkay eraseMaxGeometry eraseMinGeometry bytes

end VerifyDriveGeometry

/-- `IOCTLWrapperImpl` opens the device for every request. -/
def ioctlWrapper (c : IoctlCall) : DeviceM Int := do
  openDevice .readOnly
  .call (.ioctl c) fun answer =>
    match answer with
    | .ok retval => .ret retval
    | .error detail => .throw (.systemError detail)

def Sanitize.doSanitize : DeviceM Unit := do
  let driveSize ← findSizeOfBlockDevice
  (Estoraged.doSanitize driveSize).interpret fun c => (ioctlWrapper c).attempt

/-- The other two methods do without the device file. -/
def EStoraged.eraseDevice (storage : EStoraged) : EraseMethod → DeviceM Unit
  | .verifyGeometry =>
    VerifyDriveGeometry.deviceGeometryOkay storage.eraseMaxGeometry storage.eraseMinGeometry
  | .logicalOverWrite => Pattern.writePattern
  | .logicalVerify => Pattern.verifyPattern
  | .vendorSanitize => Sanitize.doSanitize
  | .zeroOverWrite => Zero.writeZero
  | .zeroVerify => Zero.verifyZero
  | .cryptoErase | .securedLocked => pure ()

/-! ## Which calls a method makes -/

/-- The overwriting loop of a method, or the verifying one. -/
def EraseMethod.loops (access : OpenAccess) (method : EraseMethod) : Bool :=
  match access with
  | .writeOnly => method == .logicalOverWrite || method == .zeroOverWrite
  | .readOnly => method == .logicalVerify || method == .zeroVerify

def EraseMethod.permits (method : EraseMethod) : DeviceCall → Bool
  | .openDevice .writeOnly => method.loops .writeOnly
  | .openDevice .readOnly => true
  | .blkGetSize64 => true
  | .fdGet => true
  | .fd (.write _ _) => method.loops .writeOnly
  | .fd (.read _ _) => method.loops .readOnly
  | .ioctl _ => method == .vendorSanitize

def DeviceCall.changes : DeviceCall → Bool
  | .fd (.write _ _) | .ioctl _ => true
  | _ => false

theorem EraseMethod.overwrites_of_permits {method : EraseMethod} {c : DeviceCall}
    (h : method.permits c = true) (hc : c.changes = true) : method.overwrites = true := by
  cases c with
  | openDevice access => cases hc
  | blkGetSize64 => cases hc
  | fdGet => cases hc
  | fd c =>
    cases c with
    | write start bytes =>
      cases method with
      | logicalOverWrite => rfl
      | zeroOverWrite => rfl
      | _ => cases h
    | read start size => cases hc
  | ioctl c =>
    cases method with
    | vendorSanitize => rfl
    | _ => cases h

def FdCall.writes : FdCall → Prop
  | .write _ _ => True
  | .read _ _ => False

theorem writeBlock_writes (arr : List UInt8) (n : Nat) : (writeBlock arr n).Uses FdCall.writes := by
  apply transferLoop_uses
  intro written buffer
  refine ⟨trivial, ?_⟩
  intro answer
  cases answer <;> trivial

theorem writePatternBlock_writes (n generator : Nat) :
    (writePatternBlock n generator).Uses FdCall.writes := by
  unfold writePatternBlock
  generalize fillBlock generator = filled
  exact (writeBlock_writes filled.1 n).bind fun _ => Prog.uses_ret _

theorem writeZeroBlock_writes (n : Nat) (s : Unit) :
    (writeZeroBlock n s).Uses FdCall.writes :=
  (writeBlock_writes blockOfZeros n).tryCatch fun _ => Prog.uses_throw _

theorem Content.write_writesOnly (c : Content) (fuel : Nat) (driveSize : UInt64) :
    (c.write fuel driveSize).Uses FdCall.writes := by
  cases c with
  | pattern =>
    unfold Content.write writePattern
    exact forBlocks_uses writePatternBlock_writes ..
  | zeros =>
    unfold Content.write writeZero
    exact forBlocks_uses writeZeroBlock_writes ..

section Permitted
variable {N : DeviceCall → Prop}

theorem openDevice_uses {access : OpenAccess} (h : N (.openDevice access)) :
    (openDevice access).Uses N := by
  refine ⟨h, ?_⟩
  intro answer
  cases answer <;> trivial

theorem findSizeOfBlockDevice_uses (hopen : N (.openDevice .readOnly)) (hsize : N .blkGetSize64)
    (hget : N .fdGet) : findSizeOfBlockDevice.Uses N := by
  unfold findSizeOfBlockDevice
  apply Prog.Uses.tryCatch
  · apply (openDevice_uses hopen).bind
    intro _
    refine ⟨hsize, ?_⟩
    intro answer
    cases answer <;> trivial
  · intro _
    refine ⟨hget, ?_⟩
    intro answer
    cases answer <;> trivial

theorem throughDevice_uses {access : OpenAccess} {loop : Nat → UInt64 → FdM (Option Unit)}
    {F : FdCall → Prop} (hopen : N (.openDevice access)) (hread : N (.openDevice .readOnly))
    (hsize : N .blkGetSize64) (hget : N .fdGet) (hfd : ∀ c, F c → N (.fd c))
    (hloop : ∀ fuel driveSize, (loop fuel driveSize).Uses F) :
    (throughDevice access loop).Uses N := by
  unfold throughDevice
  apply (openDevice_uses hopen).bind
  intro _
  apply (findSizeOfBlockDevice_uses hread hsize hget).bind
  intro driveSize
  refine Prog.Uses.bind ?_ fun _ => Prog.uses_ret _
  apply (hloop _ driveSize).interpret
  intro c hc
  exact ⟨hfd c hc, fun _ => Prog.uses_ret _⟩

theorem ioctlWrapper_uses (hopen : N (.openDevice .readOnly)) {c : IoctlCall}
    (hc : N (.ioctl c)) : (ioctlWrapper c).Uses N := by
  unfold ioctlWrapper
  apply (openDevice_uses hopen).bind
  intro _
  refine ⟨hc, ?_⟩
  intro answer
  cases answer <;> trivial

end Permitted

theorem EStoraged.eraseDevice_permitted (storage : EStoraged) (method : EraseMethod) :
    (storage.eraseDevice method).Uses fun c => method.permits c = true := by
  have hloop : ∀ {access : OpenAccess} {loop : Nat → UInt64 → FdM (Option Unit)}
      {F : FdCall → Prop}, method.loops access = true → (∀ c, F c → method.permits (.fd c) = true) →
      (∀ fuel driveSize, (loop fuel driveSize).Uses F) →
      (throughDevice access loop).Uses fun c => method.permits c = true := by
    intro access loop F haccess hfd huses
    refine throughDevice_uses ?_ rfl rfl rfl hfd huses
    cases access with
    | readOnly => rfl
    | writeOnly => exact haccess
  have hreads : method.loops .readOnly = true →
      ∀ c, FdCall.reads c → method.permits (.fd c) = true := by
    intro h c hc
    cases c with
    | write start bytes => exact hc.elim
    | read start size => exact h
  have hwrites : method.loops .writeOnly = true →
      ∀ c, FdCall.writes c → method.permits (.fd c) = true := by
    intro h c hc
    cases c with
    | write start bytes => exact h
    | read start size => exact hc.elim
  have hsize : findSizeOfBlockDevice.Uses fun c => method.permits c = true :=
    findSizeOfBlockDevice_uses rfl rfl rfl
  cases method with
  | verifyGeometry =>
    apply hsize.bind
    intro bytes
    unfold VerifyDriveGeometry.geometryOkay
    split_ifs <;> trivial
  | logicalOverWrite => exact hloop rfl (hwrites rfl) Content.pattern.write_writesOnly
  | logicalVerify => exact hloop rfl (hreads rfl) fun _ _ => Content.pattern.verify_reads
  | vendorSanitize =>
    apply hsize.bind
    intro driveSize
    apply (Estoraged.doSanitize driveSize).uses_true.interpret
    intro c _
    apply Prog.Uses.attempt
    apply ioctlWrapper_uses <;> rfl
  | zeroOverWrite => exact hloop rfl (hwrites rfl) Content.zeros.write_writesOnly
  | zeroVerify => exact hloop rfl (hreads rfl) fun _ _ => Content.zeros.verify_reads
  | cryptoErase => trivial
  | securedLocked => trivial

end Estoraged

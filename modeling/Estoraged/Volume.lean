import Estoraged.Interfaces

/-!
# The volume operations

`EStoraged::formatLuks`, `erase`, `lock`, `unlock` and `changePassword` with the
functions they are made of, as programs over the external calls. Log messages are
left out, and so are the arguments no answer depends on (cipher, paths, flags).
-/

namespace Estoraged
open Interaction
set_option autoImplicit false

def fsRecoveryError : String := "Failed to recover filesystem"

def fsMountError : String := "Failed to mount filesystem"

structure CryptHandle where
  cryptDev : Bool

def CryptHandle.init : M CryptHandle := do
  let answer : InitAnswer ← ask .cryptInit
  throwIf (answer.retval < 0) .resourceNotFound
  pure ⟨answer.cryptDev⟩

/-- `get()` refuses a handle that holds a null pointer. -/
def CryptHandle.get (cryptHandle : CryptHandle) : M Unit :=
  throwIf (cryptHandle.cryptDev = false) .resourceNotFound

def formatLuksDev (password : Password) : M Unit := do
  let generated : Int ← ask .randBytes
  throwIf (generated ≠ 1) .internalFailure
  let cryptHandle ← CryptHandle.init
  cryptHandle.get
  let retval : Int ← ask .cryptFormat
  throwIf (retval < 0) .internalFailure
  cryptHandle.get
  let retval : Int ← ask (.cryptKeyslotAddByVolumeKey password)
  throwIf (retval < 0) .internalFailure

def loadLuksHeader : M CryptHandle := do
  let cryptHandle ← CryptHandle.init
  cryptHandle.get
  let retval : Int ← ask .cryptLoad
  throwIf (retval < 0) .internalFailure
  pure cryptHandle

def activateLuksDev (password : Password) : M Unit := do
  let cryptHandle ← loadLuksHeader
  cryptHandle.get
  let retval : Int ← ask (.cryptActivateByPassphrase password)
  throwIf (retval < 0) .internalFailure

def createFilesystem : M Unit := do
  let retval : Int ← ask .runMkfs
  throwIf (retval ≠ 0) .internalFailure

/-- The part of `mountFilesystem` that creates the mount point unless it is there. -/
def prepareMountPoint : M Unit := do
  let present ← orThrow (← ask .directoryExists)
  if present then pure ()
  else do
    let success ← orThrow (← ask .createDirectory)
    throwIf (success = false) .internalFailure

def mountFilesystem : M Unit := do
  let retval : Int ← ask .runFsck
  throwIf (retval ≠ 0) (.runtimeError fsRecoveryError)
  prepareMountPoint
  let retval : Int ← ask .doMount
  if retval ≠ 0 then do
    -- the answer is only logged, but a throw gets past the mount error
    let _removeSuccess ← orThrow (← ask .removeDirectory)
    throw (.runtimeError fsMountError)
  else pure ()

def deactivateLuksDev : M Unit := do
  let retval : Int ← ask .cryptDeactivate
  throwIf (retval < 0) .internalFailure

/-- The `catch (const std::runtime_error& e)` clause of `mountFilesystemLockOnError`. -/
def lockOnMountError (lockOnError : Bool) (e : Exception) : M Unit :=
  match e.runtimeWhat with
  | some what =>
    if what = fsRecoveryError ∨ what = fsMountError then do
      if lockOnError then deactivateLuksDev else pure ()
      throw .internalFailure
    else throw e
  | none => throw e

def mountFilesystemLockOnError (lockOnError : Bool) : M Unit :=
  tryCatch mountFilesystem (lockOnMountError lockOnError)

def unmountFilesystem : M Unit := do
  let retval : Int ← ask .doUnmount
  throwIf (retval ≠ 0) .internalFailure
  let success ← orThrow (← ask .removeDirectory)
  throwIf (success = false) .internalFailure

def formatLuks (password : Password) (type : FilesystemType) : M Unit := do
  throwIf (type ≠ .ext4) .unsupportedRequest
  formatLuksDev password
  activateLuksDev password
  createFilesystem
  mountFilesystemLockOnError false

def lock : M Unit := do
  unmountFilesystem
  deactivateLuksDev

def unlock (password : Password) : M Unit := do
  activateLuksDev password
  mountFilesystemLockOnError true

def changePassword (oldPassword newPassword : Password) : M Unit := do
  let cryptHandle ← loadLuksHeader
  cryptHandle.get
  let retval : Int ← ask (.cryptKeyslotChangeByPassphrase oldPassword newPassword)
  throwIf (retval < 0) .internalFailure

def isLocked : M Bool :=
  tryCatch
    (do
      let present ← orThrow (← ask .mappedDeviceExists)
      pure (present == false))
    -- if the path cannot be queried, assume unlocked
    (fun _ => pure false)

/-- The destroy loop of `CryptErase::doErase` from slot `i` on, with `keySlotIssue` so far. -/
def destroyKeyslots (cryptHandle : CryptHandle) : Nat → Nat → Bool → M Bool
  | 0, _, keySlotIssue => pure keySlotIssue
  | n + 1, i, keySlotIssue => do
    cryptHandle.get
    let ki : KeyslotInfo ← ask (.cryptKeySlotStatus i)
    if ki.working then do
      cryptHandle.get
      let retval : Int ← ask (.cryptKeyslotDestroy i)
      destroyKeyslots cryptHandle n (i + 1) (keySlotIssue || retval != 0)
    else destroyKeyslots cryptHandle n (i + 1) keySlotIssue

/-- `CryptErase::doErase`. -/
def doErase : M Unit := do
  let cryptHandle ← CryptHandle.init
  cryptHandle.get
  let retval : Int ← ask .cryptLoad
  throwIf (retval ≠ 0) .resourceNotFound
  let nKeySlots : Int ← ask .cryptKeySlotMax
  throwIf (nKeySlots < 0) .resourceNotFound
  throwIf (nKeySlots = 0) .resourceNotFound
  let keySlotIssue ← destroyKeyslots cryptHandle nKeySlots.toNat 0 false
  throwIf (keySlotIssue = true) .internalFailure

def erase (inEraseMethod : EraseMethod) : M Unit :=
  match inEraseMethod with
  | .cryptoErase => doErase
  | .securedLocked => do
    let locked ← isLocked
    if locked then pure () else lock
  | method => do
    match ← ask (.eraseDevice method) with
    | .ok _ => pure ()
    | .error e => throw e

inductive Op where
  | formatLuks (password : Password) (type : FilesystemType)
  | erase (method : EraseMethod)
  | lock
  | unlock (password : Password)
  | changePassword (oldPassword newPassword : Password)
deriving DecidableEq, Repr

def Op.prog : Op → M Unit
  | .formatLuks password type => Estoraged.formatLuks password type
  | .erase method => Estoraged.erase method
  | .lock => Estoraged.lock
  | .unlock password => Estoraged.unlock password
  | .changePassword oldPassword newPassword => Estoraged.changePassword oldPassword newPassword

end Estoraged

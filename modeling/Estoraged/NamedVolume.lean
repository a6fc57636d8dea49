import Estoraged.CallProtocol
import Estoraged.StatusProperties

/-!
# The volume operations by name

The functions of `EStoraged` once more, with what they pass to libcryptsetup and the
filesystem: the device file, the container, the mapped device, the mount point, and the
`crypt_device` that a `CryptHandle` owns and frees. Null pointers are left out of the
arguments.
-/

namespace Estoraged
open Interaction
set_option autoImplicit false

/-- A `struct crypt_device *` that is not null. -/
abbrev CryptDevice := Nat

/-- `CRYPT_LUKS2` -/
def cryptLuks2 : String := "LUKS2"

/-- `CRYPT_ANY_SLOT` -/
def cryptAnySlot : Int := -1

/-- `CRYPT_ACTIVATE_ALLOW_DISCARDS` -/
def cryptActivateAllowDiscards : UInt32 := (1 : UInt32) <<< 3

/-- What `crypt_init` returns and leaves in its first argument. -/
structure DeviceAnswer where
  retval : Int
  cryptDev : Option CryptDevice
deriving DecidableEq, Repr

/-- The calls with their arguments. -/
inductive HostCall where
  | randBytes (num : Nat)
  | cryptInit (device : String)
  | cryptFree (cd : Option CryptDevice)
  | cryptFormat (cd : CryptDevice) (type cipher cipherMode : String) (volumeKey : List UInt8)
  | cryptKeyslotAddByVolumeKey (cd : CryptDevice) (keyslot : Int) (passphrase : Password)
  | cryptLoad (cd : CryptDevice) (requestedType : String)
  | cryptKeyslotChangeByPassphrase (cd : CryptDevice) (keyslotOld keyslotNew : Int)
      (passphrase newPassphrase : Password)
  | cryptActivateByPassphrase (cd : CryptDevice) (name : String) (keyslot : Int)
      (passphrase : Password) (flags : UInt32)
  | cryptDeactivate (name : String)
  | cryptKeySlotMax (type : String)
  | cryptKeySlotStatus (cd : CryptDevice) (keyslot : Nat)
  | cryptKeyslotDestroy (cd : CryptDevice) (keyslot : Nat)
  | pathExists (path : String)
  | runMkfs (logicalVolumePath : String) (options : List String)
  | runFsck (logicalVolumePath options : String)
  | directoryExists (path : String)
  | createDirectory (path : String)
  | doMount (source target filesystemtype : String) (mountflags : UInt64)
  | doUnmount (target : String)
  | removeDirectory (path : String)
  | eraseDevice (devPath : String) (method : EraseMethod)
deriving DecidableEq

abbrev HostCall.Ret : HostCall → Type
  | .randBytes num => Int × { volumeKey : List UInt8 // volumeKey.length = num }
  | .cryptInit _ => DeviceAnswer
  | .cryptFree _ => Unit
  | .cryptKeySlotStatus _ _ => KeyslotInfo
  | .pathExists _ | .directoryExists _ | .createDirectory _ | .removeDirectory _ =>
    Except FilesystemError Bool
  | .eraseDevice _ _ => Except Exception Unit
  | _ => Int

abbrev hostPorts : Interface := ⟨HostCall, HostCall.Ret⟩

abbrev HostM (α : Type) := Prog hostPorts Exception α

def askHost (c : HostCall) : HostM c.Ret := Prog.ask (I := hostPorts) c

/-- The members of `EStoraged` that its calls name. -/
structure Names where
  devPath : String
  containerName : String
  mountPoint : String
  cryptDevicePath : String
deriving DecidableEq

/-- `cryptDir` is what `crypt_get_dir` returns. -/
def EStoraged.names (cryptDir : String) (storage : EStoraged) : Names where
  devPath := storage.devPath
  containerName := storage.containerName
  mountPoint := "/mnt/" ++ storage.containerName ++ "_fs"
  cryptDevicePath := cryptDir ++ "/" ++ storage.containerName

namespace Names

def throwIf (failed : Prop) [Decidable failed] (e : Exception) : HostM Unit :=
  if failed then throw e else pure ()

def orThrow : Except FilesystemError Bool → HostM Bool
  | .ok b => pure b
  | .error e => throw (.filesystemError e.detail)

/-! ## The handle -/

/-- Owns what it holds, also a null pointer. -/
structure CryptHandle where
  cryptDev : Option CryptDevice

namespace CryptHandle

def init (device : String) : HostM CryptHandle := do
  let answer : DeviceAnswer ← askHost (.cryptInit device)
  throwIf (answer.retval < 0) .resourceNotFound
  pure ⟨answer.cryptDev⟩

def get (cryptHandle : CryptHandle) : HostM CryptDevice :=
  match cryptHandle.cryptDev with
  | some cd => pure cd
  | none => throw .resourceNotFound

/-- The destructor. -/
def free (cryptHandle : CryptHandle) : HostM Unit := do
  let _ ← askHost (.cryptFree cryptHandle.cryptDev)
  pure ()

/-- An exception that leaves the scope of the handle frees it. -/
def unwinding {α : Type} (cryptHandle : CryptHandle) (body : HostM α) : HostM α :=
  tryCatch body fun e => do
    cryptHandle.free
    throw e

/-- The handle goes out of scope after `body`. -/
def scope {α : Type} (cryptHandle : CryptHandle) (body : HostM α) : HostM α := do
  let result ← cryptHandle.unwinding body
  cryptHandle.free
  pure result

end CryptHandle

/-! ## The functions -/

variable (self : Names)

def formatLuksDev (password : Password) : HostM Unit := do
  let generated ← askHost (.randBytes 64)
  throwIf (generated.1 ≠ 1) .internalFailure
  let cryptHandle ← CryptHandle.init self.devPath
  cryptHandle.scope do
    let cd ← cryptHandle.get
    let retval : Int ← askHost
      (.cryptFormat cd cryptLuks2 "aes" "xts-plain64" generated.2.1)
    throwIf (retval < 0) .internalFailure
    let cd ← cryptHandle.get
    let retval : Int ← askHost (.cryptKeyslotAddByVolumeKey cd cryptAnySlot password)
    throwIf (retval < 0) .internalFailure

/-- The handle is the caller's. -/
def loadLuksHeader : HostM CryptHandle := do
  let cryptHandle ← CryptHandle.init self.devPath
  cryptHandle.unwinding do
    let cd ← cryptHandle.get
    let retval : Int ← askHost (.cryptLoad cd cryptLuks2)
    throwIf (retval < 0) .internalFailure
    pure cryptHandle

def activateLuksDev (password : Password) : HostM Unit := do
  let cryptHandle ← self.loadLuksHeader
  cryptHandle.scope do
    let cd ← cryptHandle.get
    let retval : Int ← askHost (.cryptActivateByPassphrase cd self.containerName cryptAnySlot
      password cryptActivateAllowDiscards)
    throwIf (retval < 0) .internalFailure

def createFilesystem : HostM Unit := do
  let retval : Int ← askHost (.runMkfs self.cryptDevicePath ["-E", "discard"])
  throwIf (retval ≠ 0) .internalFailure

def prepareMountPoint : HostM Unit := do
  let present ← orThrow (← askHost (.directoryExists self.mountPoint))
  if present then pure ()
  else do
    let success ← orThrow (← askHost (.createDirectory self.mountPoint))
    throwIf (success = false) .internalFailure

def mountFilesystem : HostM Unit := do
  let retval : Int ← askHost (.runFsck self.cryptDevicePath "-t ext4 -p")
  throwIf (retval ≠ 0) (.runtimeError fsRecoveryError)
  self.prepareMountPoint
  let retval : Int ← askHost (.doMount self.cryptDevicePath self.mountPoint "ext4" 0)
  if retval ≠ 0 then do
    let _removeSuccess ← orThrow (← askHost (.removeDirectory self.mountPoint))
    throw (.runtimeError fsMountError)
  else pure ()

def deactivateLuksDev : HostM Unit := do
  let retval : Int ← askHost (.cryptDeactivate self.containerName)
  throwIf (retval < 0) .internalFailure

def lockOnMountError (lockOnError : Bool) (e : Exception) : HostM Unit :=
  match e.runtimeWhat with
  | some what =>
    if what = fsRecoveryError ∨ what = fsMountError then do
      if lockOnError then self.deactivateLuksDev else pure ()
      throw .internalFailure
    else throw e
  | none => throw e

def mountFilesystemLockOnError (lockOnError : Bool) : HostM Unit :=
  tryCatch self.mountFilesystem (self.lockOnMountError lockOnError)

def unmountFilesystem : HostM Unit := do
  let retval : Int ← askHost (.doUnmount self.mountPoint)
  throwIf (retval ≠ 0) .internalFailure
  let success ← orThrow (← askHost (.removeDirectory self.mountPoint))
  throwIf (success = false) .internalFailure

def formatLuks (password : Password) (type : FilesystemType) : HostM Unit := do
  throwIf (type ≠ .ext4) .unsupportedRequest
  self.formatLuksDev password
  self.activateLuksDev password
  self.createFilesystem
  self.mountFilesystemLockOnError false

def lock : HostM Unit := do
  self.unmountFilesystem
  self.deactivateLuksDev

def unlock (password : Password) : HostM Unit := do
  self.activateLuksDev password
  self.mountFilesystemLockOnError true

def changePassword (oldPassword newPassword : Password) : HostM Unit := do
  let cryptHandle ← self.loadLuksHeader
  cryptHandle.scope do
    let cd ← cryptHandle.get
    let retval : Int ← askHost (.cryptKeyslotChangeByPassphrase cd cryptAnySlot cryptAnySlot
      oldPassword newPassword)
    throwIf (retval < 0) .internalFailure

def isLocked : HostM Bool :=
  tryCatch
    (do
      let present ← orThrow (← askHost (.pathExists self.cryptDevicePath))
      pure (present == false))
    (fun _ => pure false)

/-- The loaded handle is a temporary. -/
def findEncryptionStatus : HostM DriveEncryptionState :=
  tryCatch
    (do
      let cryptHandle ← self.loadLuksHeader
      cryptHandle.free
      pure .encrypted)
    (fun _ => pure .unencrypted)

def destroyKeyslots (cryptHandle : CryptHandle) : Nat → Nat → Bool → HostM Bool
  | 0, _, keySlotIssue => pure keySlotIssue
  | n + 1, i, keySlotIssue => do
    let cd ← cryptHandle.get
    let ki : KeyslotInfo ← askHost (.cryptKeySlotStatus cd i)
    if ki.working then do
      let cd ← cryptHandle.get
      let retval : Int ← askHost (.cryptKeyslotDestroy cd i)
      destroyKeyslots cryptHandle n (i + 1) (keySlotIssue || retval != 0)
    else destroyKeyslots cryptHandle n (i + 1) keySlotIssue

def doErase : HostM Unit := do
  let cryptHandle ← CryptHandle.init self.devPath
  cryptHandle.scope do
    let cd ← cryptHandle.get
    let retval : Int ← askHost (.cryptLoad cd cryptLuks2)
    throwIf (retval ≠ 0) .resourceNotFound
    let nKeySlots : Int ← askHost (.cryptKeySlotMax cryptLuks2)
    throwIf (nKeySlots < 0) .resourceNotFound
    throwIf (nKeySlots = 0) .resourceNotFound
    let keySlotIssue ← destroyKeyslots cryptHandle nKeySlots.toNat 0 false
    throwIf (keySlotIssue = true) .internalFailure

def erase (inEraseMethod : EraseMethod) : HostM Unit :=
  match inEraseMethod with
  | .cryptoErase => self.doErase
  | .securedLocked => do
    let locked ← self.isLocked
    if locked then pure () else self.lock
  | method => do
    match ← askHost (.eraseDevice self.devPath method) with
    | .ok _ => pure ()
    | .error e => throw e

def method : Op → HostM Unit
  | .formatLuks password type => self.formatLuks password type
  | .erase method => self.erase method
  | .lock => self.lock
  | .unlock password => self.unlock password
  | .changePassword oldPassword newPassword => self.changePassword oldPassword newPassword

def request : Request → HostM Reply
  | .method op => do
    self.method op
    pure .done
  | .locked => do
    let value ← self.isLocked
    pure (.locked value)
  | .encryptionStatus => do
    let value ← self.findEncryptionStatus
    pure (.encryptionStatus value)

end Names

/-! ## Seen without the arguments -/

/-- What the volume model has of an answered call; it has no frees. -/
def HostCall.shown : (c : HostCall) → c.Ret → Option ((d : Call) × d.Ret)
  | .randBytes _, r => some ⟨.randBytes, r.1⟩
  | .cryptInit _, r => some ⟨.cryptInit, (⟨r.retval, r.cryptDev.isSome⟩ : InitAnswer)⟩
  | .cryptFree _, _ => none
  | .cryptFormat .., r => some ⟨.cryptFormat, r⟩
  | .cryptKeyslotAddByVolumeKey _ _ passphrase, r =>
    some ⟨.cryptKeyslotAddByVolumeKey passphrase, r⟩
  | .cryptLoad .., r => some ⟨.cryptLoad, r⟩
  | .cryptKeyslotChangeByPassphrase _ _ _ passphrase newPassphrase, r =>
    some ⟨.cryptKeyslotChangeByPassphrase passphrase newPassphrase, r⟩
  | .cryptActivateByPassphrase _ _ _ passphrase _, r =>
    some ⟨.cryptActivateByPassphrase passphrase, r⟩
  | .cryptDeactivate _, r => some ⟨.cryptDeactivate, r⟩
  | .cryptKeySlotMax _, r => some ⟨.cryptKeySlotMax, r⟩
  | .cryptKeySlotStatus _ keyslot, r => some ⟨.cryptKeySlotStatus keyslot, r⟩
  | .cryptKeyslotDestroy _ keyslot, r => some ⟨.cryptKeyslotDestroy keyslot, r⟩
  | .pathExists _, r => some ⟨.mappedDeviceExists, r⟩
  | .runMkfs .., r => some ⟨.runMkfs, r⟩
  | .runFsck .., r => some ⟨.runFsck, r⟩
  | .directoryExists _, r => some ⟨.directoryExists, r⟩
  | .createDirectory _, r => some ⟨.createDirectory, r⟩
  | .doMount .., r => some ⟨.doMount, r⟩
  | .doUnmount _, r => some ⟨.doUnmount, r⟩
  | .removeDirectory _, r => some ⟨.removeDirectory, r⟩
  | .eraseDevice _ method, r => some ⟨.eraseDevice method, r⟩

abbrev MirrorsVolume {α β : Type} (R : α → β → Prop) (p : HostM α) (q : M β) : Prop :=
  Mirrors HostCall.shown R p q

namespace Names
section Mirroring
variable {α β : Type} {R : α → β → Prop}

theorem mirrors_ask {c : HostCall} {d : Call} {k : c.Ret → HostM α} {k' : d.Ret → M β}
    (f : c.Ret → d.Ret) (hshown : ∀ r, c.shown r = some ⟨d, f r⟩)
    (hk : ∀ r, MirrorsVolume R (k r) (k' (f r))) :
    MirrorsVolume R (bind (α := no_index c.Ret) (askHost c) k)
      (bind (α := no_index d.Ret) (ask d) k') :=
  .call f hshown hk

theorem mirrors_throwIf {failed : Prop} [Decidable failed] {e : Exception} :
    MirrorsVolume (· = ·) (throwIf failed e) (Estoraged.throwIf failed e) := by
  unfold throwIf Estoraged.throwIf
  split
  · exact .throw e
  · exact .ret rfl

theorem mirrors_orThrow (answer : Except FilesystemError Bool) :
    MirrorsVolume (· = ·) (orThrow answer) (Estoraged.orThrow answer) := by
  cases answer with
  | ok b => exact .ret rfl
  | error e => exact .throw _

/-- The volume model knows whether the handle holds a device. -/
def CryptHandle.Like (cryptHandle : CryptHandle) (cryptHandle' : Estoraged.CryptHandle) : Prop :=
  cryptHandle'.cryptDev = cryptHandle.cryptDev.isSome

namespace CryptHandle
variable {cryptHandle : CryptHandle} {cryptHandle' : Estoraged.CryptHandle}

theorem mirrors_init (device : String) :
    MirrorsVolume Like (init device) Estoraged.CryptHandle.init := by
  refine mirrors_ask (fun answer => ⟨answer.retval, answer.cryptDev.isSome⟩) (fun _ => rfl) ?_
  intro answer
  apply mirrors_throwIf.bind
  intro _ _ _
  exact .ret rfl

theorem mirrors_get (h : cryptHandle.Like cryptHandle') :
    MirrorsVolume (fun _ _ => True) cryptHandle.get cryptHandle'.get := by
  unfold get Estoraged.CryptHandle.get Estoraged.throwIf
  rw [h]
  cases cryptHandle.cryptDev with
  | none => exact .throw _
  | some cd => exact .ret trivial

theorem mirrors_free {f : Unit → HostM α} {q : M β} (hf : MirrorsVolume R (f ()) q) :
    MirrorsVolume R (cryptHandle.free >>= f) q :=
  .hidden (fun _ => rfl) fun _ => hf

theorem mirrors_unwinding {body : HostM α} {q : M β} (h : MirrorsVolume R body q) :
    MirrorsVolume R (cryptHandle.unwinding body) q := by
  apply h.catching
  intro e
  exact mirrors_free (.throw e)

theorem mirrors_scope {body : HostM α} {q : M β} (h : MirrorsVolume R body q) :
    MirrorsVolume R (cryptHandle.scope body) q := by
  apply (mirrors_unwinding h).andThen
  intro a b hab
  exact mirrors_free (.ret hab)

end CryptHandle

variable (self : Names)

theorem mirrors_formatLuksDev (password : Password) :
    MirrorsVolume (· = ·) (self.formatLuksDev password) (Estoraged.formatLuksDev password) := by
  refine mirrors_ask Prod.fst (fun _ => rfl) fun generated => ?_
  apply mirrors_throwIf.bind
  intro _ _ _
  apply (CryptHandle.mirrors_init self.devPath).bind
  intro cryptHandle cryptHandle' hlike
  apply CryptHandle.mirrors_scope
  apply (CryptHandle.mirrors_get hlike).bind
  intro cd _ _
  refine mirrors_ask id (fun _ => rfl) fun retval => ?_
  apply mirrors_throwIf.bind
  intro _ _ _
  apply (CryptHandle.mirrors_get hlike).bind
  intro cd _ _
  exact mirrors_ask id (fun _ => rfl) fun retval => mirrors_throwIf

theorem mirrors_loadLuksHeader :
    MirrorsVolume CryptHandle.Like self.loadLuksHeader Estoraged.loadLuksHeader := by
  apply (CryptHandle.mirrors_init self.devPath).bind
  intro cryptHandle cryptHandle' hlike
  apply CryptHandle.mirrors_unwinding
  apply (CryptHandle.mirrors_get hlike).bind
  intro cd _ _
  refine mirrors_ask id (fun _ => rfl) fun retval => ?_
  apply mirrors_throwIf.bind
  intro _ _ _
  exact .ret hlike

theorem mirrors_activateLuksDev (password : Password) :
    MirrorsVolume (· = ·) (self.activateLuksDev password)
      (Estoraged.activateLuksDev password) := by
  apply self.mirrors_loadLuksHeader.bind
  intro cryptHandle cryptHandle' hlike
  apply CryptHandle.mirrors_scope
  apply (CryptHandle.mirrors_get hlike).bind
  intro cd _ _
  exact mirrors_ask id (fun _ => rfl) fun retval => mirrors_throwIf

theorem mirrors_createFilesystem :
    MirrorsVolume (· = ·) self.createFilesystem Estoraged.createFilesystem :=
  mirrors_ask id (fun _ => rfl) fun _ => mirrors_throwIf

theorem mirrors_prepareMountPoint :
    MirrorsVolume (· = ·) self.prepareMountPoint Estoraged.prepareMountPoint := by
  refine mirrors_ask id (fun _ => rfl) fun answer => ?_
  apply (mirrors_orThrow answer).bind
  rintro present _ rfl
  cases present with
  | true => exact .ret rfl
  | false =>
    refine mirrors_ask id (fun _ => rfl) fun created => ?_
    apply (mirrors_orThrow created).bind
    rintro success _ rfl
    exact mirrors_throwIf

theorem mirrors_mountFilesystem :
    MirrorsVolume (· = ·) self.mountFilesystem Estoraged.mountFilesystem := by
  refine mirrors_ask id (fun _ => rfl) fun retval => ?_
  apply mirrors_throwIf.bind
  intro _ _ _
  apply self.mirrors_prepareMountPoint.bind
  intro _ _ _
  refine mirrors_ask id (fun _ => rfl) fun retval => ?_
  dsimp only [id]
  split
  · refine mirrors_ask id (fun _ => rfl) fun removed => ?_
    apply (mirrors_orThrow removed).bind
    intro _ _ _
    exact .throw _
  · exact .ret rfl

theorem mirrors_deactivateLuksDev :
    MirrorsVolume (· = ·) self.deactivateLuksDev Estoraged.deactivateLuksDev :=
  mirrors_ask id (fun _ => rfl) fun _ => mirrors_throwIf

theorem mirrors_mountFilesystemLockOnError (lockOnError : Bool) :
    MirrorsVolume (· = ·) (self.mountFilesystemLockOnError lockOnError)
      (Estoraged.mountFilesystemLockOnError lockOnError) := by
  apply self.mirrors_mountFilesystem.tryCatch
  intro e
  unfold lockOnMountError Estoraged.lockOnMountError
  cases e.runtimeWhat with
  | none => exact .throw e
  | some what =>
    dsimp only
    split
    · cases lockOnError with
      | true =>
        apply self.mirrors_deactivateLuksDev.bind
        intro _ _ _
        exact .throw _
      | false => exact .throw _
    · exact .throw e

theorem mirrors_lock : MirrorsVolume (· = ·) self.lock Estoraged.lock := by
  apply Mirrors.bind (R := (· = ·))
  · refine mirrors_ask id (fun _ => rfl) fun retval => ?_
    apply mirrors_throwIf.bind
    intro _ _ _
    refine mirrors_ask id (fun _ => rfl) fun removed => ?_
    apply (mirrors_orThrow removed).bind
    rintro success _ rfl
    exact mirrors_throwIf
  · intro _ _ _
    exact self.mirrors_deactivateLuksDev

theorem mirrors_isLocked : MirrorsVolume (· = ·) self.isLocked Estoraged.isLocked := by
  refine Mirrors.tryCatch (mirrors_ask id (fun _ => rfl) fun answer => ?_) fun e => .ret rfl
  apply (mirrors_orThrow answer).bind
  rintro present _ rfl
  exact .ret rfl

theorem mirrors_findEncryptionStatus :
    MirrorsVolume (· = ·) self.findEncryptionStatus Estoraged.findEncryptionStatus := by
  apply Mirrors.tryCatch
  · apply self.mirrors_loadLuksHeader.bind
    intro _ _ _
    exact CryptHandle.mirrors_free (.ret rfl)
  · intro e
    exact .ret rfl

theorem mirrors_destroyKeyslots {cryptHandle : CryptHandle}
    {cryptHandle' : Estoraged.CryptHandle} (hlike : cryptHandle.Like cryptHandle')
    (n i : Nat) (keySlotIssue : Bool) :
    MirrorsVolume (· = ·) (destroyKeyslots cryptHandle n i keySlotIssue)
      (Estoraged.destroyKeyslots cryptHandle' n i keySlotIssue) := by
  induction n generalizing i keySlotIssue with
  | zero => exact .ret rfl
  | succ n ih =>
    apply (CryptHandle.mirrors_get hlike).bind
    intro cd _ _
    refine mirrors_ask id (fun _ => rfl) fun ki => ?_
    dsimp only [id]
    split
    · apply (CryptHandle.mirrors_get hlike).bind
      intro cd _ _
      exact mirrors_ask id (fun _ => rfl) fun retval => ih _ _
    · exact ih _ _

theorem mirrors_doErase : MirrorsVolume (· = ·) self.doErase Estoraged.doErase := by
  apply (CryptHandle.mirrors_init self.devPath).bind
  intro cryptHandle cryptHandle' hlike
  apply CryptHandle.mirrors_scope
  apply (CryptHandle.mirrors_get hlike).bind
  intro cd _ _
  refine mirrors_ask id (fun _ => rfl) fun retval => ?_
  apply mirrors_throwIf.bind
  intro _ _ _
  refine mirrors_ask id (fun _ => rfl) fun nKeySlots => ?_
  apply mirrors_throwIf.bind
  intro _ _ _
  apply mirrors_throwIf.bind
  intro _ _ _
  apply (mirrors_destroyKeyslots hlike _ _ _).bind
  rintro keySlotIssue _ rfl
  exact mirrors_throwIf

theorem mirrors_erase (inEraseMethod : EraseMethod) :
    MirrorsVolume (· = ·) (self.erase inEraseMethod) (Estoraged.erase inEraseMethod) := by
  cases inEraseMethod with
  | cryptoErase => exact self.mirrors_doErase
  | securedLocked =>
    apply self.mirrors_isLocked.bind
    rintro locked _ rfl
    cases locked with
    | true => exact .ret rfl
    | false => exact self.mirrors_lock
  | _ =>
    refine mirrors_ask id (fun _ => rfl) fun answer => ?_
    cases answer with
    | ok _ => exact .ret rfl
    | error e => exact .throw e

theorem mirrors_method (op : Op) : MirrorsVolume (· = ·) (self.method op) op.prog := by
  cases op with
  | formatLuks password type =>
    apply mirrors_throwIf.bind
    intro _ _ _
    apply (self.mirrors_formatLuksDev password).bind
    intro _ _ _
    apply (self.mirrors_activateLuksDev password).bind
    intro _ _ _
    apply self.mirrors_createFilesystem.bind
    intro _ _ _
    exact self.mirrors_mountFilesystemLockOnError false
  | erase method => exact self.mirrors_erase method
  | lock => exact self.mirrors_lock
  | unlock password =>
    apply (self.mirrors_activateLuksDev password).bind
    intro _ _ _
    exact self.mirrors_mountFilesystemLockOnError true
  | changePassword oldPassword newPassword =>
    apply self.mirrors_loadLuksHeader.bind
    intro cryptHandle cryptHandle' hlike
    apply CryptHandle.mirrors_scope
    apply (CryptHandle.mirrors_get hlike).bind
    intro cd _ _
    exact mirrors_ask id (fun _ => rfl) fun retval => mirrors_throwIf

theorem mirrors_request (request : Request) :
    MirrorsVolume (· = ·) (self.request request) request.prog := by
  cases request with
  | method op =>
    apply (self.mirrors_method op).bind
    intro _ _ _
    exact .ret rfl
  | locked =>
    apply self.mirrors_isLocked.bind
    rintro value _ rfl
    exact .ret rfl
  | encryptionStatus =>
    apply self.mirrors_findEncryptionStatus.bind
    rintro value _ rfl
    exact .ret rfl

end Mirroring
end Names

end Estoraged

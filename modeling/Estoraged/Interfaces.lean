import Estoraged.Interaction

/-!
# The external calls of one volume

`CryptsetupInterface` and `FilesystemInterface` as the volume uses them, with the
way each call reports success. Integer answers are the C return codes.
-/

namespace Estoraged
open Interaction
set_option autoImplicit false

abbrev Password := List UInt8

/-- The exceptions the daemon throws or lets through. `filesystemError` and
`systemError` derive from `std::runtime_error`, the generated D-Bus errors do not. -/
inductive Exception where
  | internalFailure
  | resourceNotFound
  | unsupportedRequest
  | runtimeError (what : String)
  | filesystemError (detail : String)
  | systemError (detail : String)
  | badVariantAccess
  | badOptionalAccess
deriving DecidableEq, Repr

structure FilesystemError where
  detail : String
deriving DecidableEq, Repr

/-- `what()` of an exception that `catch (const std::runtime_error&)` takes. -/
def Exception.runtimeWhat : Exception → Option String
  | .runtimeError what => some what
  | .filesystemError detail => some ("filesystem error: " ++ detail)
  | .systemError detail => some detail
  | _ => none

inductive KeyslotInfo where
  | invalid
  | inactive
  | active
  | activeLast
  | unbound
deriving DecidableEq, Repr

/-- The slot states `CryptErase::doErase` treats as working. -/
def KeyslotInfo.working (ki : KeyslotInfo) : Bool :=
  ki == .active || ki == .activeLast

inductive FilesystemType where
  | ext4
  | other (name : String)
deriving DecidableEq, Repr

inductive EraseMethod where
  | cryptoErase
  | verifyGeometry
  | logicalOverWrite
  | logicalVerify
  | vendorSanitize
  | zeroOverWrite
  | zeroVerify
  | securedLocked
deriving DecidableEq, Repr

def EraseMethod.overwrites : EraseMethod → Bool
  | .logicalOverWrite | .vendorSanitize | .zeroOverWrite => true
  | _ => false

/-- `crypt_init`: its return code and whether it left a device in the handle. -/
structure InitAnswer where
  retval : Int
  cryptDev : Bool
deriving DecidableEq, Repr

inductive Call where
  | randBytes
  | cryptInit
  | cryptFormat
  | cryptKeyslotAddByVolumeKey (password : Password)
  | cryptLoad
  | cryptKeyslotChangeByPassphrase (oldPassword newPassword : Password)
  | cryptActivateByPassphrase (password : Password)
  | cryptDeactivate
  | cryptKeySlotMax
  | cryptKeySlotStatus (keyslot : Nat)
  | cryptKeyslotDestroy (keyslot : Nat)
  | mappedDeviceExists
  | runMkfs
  | runFsck
  | directoryExists
  | createDirectory
  | doMount
  | doUnmount
  | removeDirectory
  /-- One of the erase methods that open the device file themselves. -/
  | eraseDevice (method : EraseMethod)
deriving DecidableEq, Repr

/-- Wrappers around `std::filesystem` may throw, the other calls return a code. -/
abbrev Call.Ret : Call → Type
  | .cryptInit => InitAnswer
  | .cryptKeySlotStatus _ => KeyslotInfo
  | .mappedDeviceExists | .directoryExists | .createDirectory | .removeDirectory =>
    Except FilesystemError Bool
  | .eraseDevice _ => Except Exception Unit
  | _ => Int

abbrev ports : Interface := ⟨Call, Call.Ret⟩

abbrev M (α : Type) := Prog ports Exception α

def ask (c : Call) : M c.Ret := Prog.ask (I := ports) c

def orThrow : Except FilesystemError Bool → M Bool
  | .ok b => pure b
  | .error e => throw (.filesystemError e.detail)

def throwIf (failed : Prop) [Decidable failed] (e : Exception) : M Unit :=
  if failed then throw e else pure ()

section Rules
variable {σ α : Type} {env : Env ports σ} {s : σ} {c : Call} {e : Exception}
variable {failed : Prop} [Decidable failed]

@[simp] theorem ensures_ask_bind {f : c.Ret → M α}
    {Q : Trace ports σ → Except Exception α → σ → Prop} :
    Ensures env (bind (α := no_index c.Ret) (ask c) f) s Q ↔ ∀ r s₁, env s c r s₁ →
      Ensures env (f r) s₁ fun tr out s' => Q (⟨s, c, r⟩ :: tr) out s' :=
  Ensures.call_iff

@[simp] theorem ensures_throwIf {Q : Trace ports σ → Except Exception Unit → σ → Prop} :
    Ensures env (throwIf failed e) s Q ↔
      if failed then Q [] (.error e) s else Q [] (.ok ()) s := by
  unfold throwIf
  split <;> simp

@[simp] theorem ensures_throwIf_bind {f : Unit → M α}
    {Q : Trace ports σ → Except Exception α → σ → Prop} :
    Ensures env (throwIf failed e >>= f) s Q ↔
      if failed then Q [] (.error e) s else Ensures env (f ()) s Q := by
  unfold throwIf
  split <;> simp

variable {N : Call → Prop}

@[simp] theorem uses_ask_bind {f : c.Ret → M α} :
    (bind (α := no_index c.Ret) (ask c) f).Uses N ↔ N c ∧ ∀ r, (f r).Uses N := Iff.rfl

@[simp] theorem uses_throwIf : (throwIf failed e).Uses N := by
  unfold throwIf
  split <;> simp

@[simp] theorem uses_throwIf_bind {f : Unit → M α} :
    (throwIf failed e >>= f).Uses N ↔ (¬ failed → (f ()).Uses N) := by
  unfold throwIf
  split <;> simp_all

variable {respond : Responder ports σ}

@[simp] theorem run_ask_bind {f : c.Ret → M α} :
    (bind (α := no_index c.Ret) (ask c) f).run respond s =
      let rest := (f (respond s c).1).run respond (respond s c).2
      ⟨⟨s, c, (respond s c).1⟩ :: rest.trace, rest.out, rest.state⟩ := rfl

@[simp] theorem run_throwIf : (throwIf failed e).run respond s =
    if failed then ⟨[], .error e, s⟩ else ⟨[], .ok (), s⟩ := by
  unfold throwIf
  split <;> rfl

@[simp] theorem run_throwIf_bind {f : Unit → M α} :
    (throwIf failed e >>= f).run respond s =
      if failed then ⟨[], .error e, s⟩ else (f ()).run respond s := by
  unfold throwIf
  split <;> rfl

end Rules

end Estoraged

import Estoraged.MmcIoctl
import Mathlib.Algebra.Order.Ring.Nat

/-!
# The sanitize erase

`Sanitize::doSanitize`: an erase of all sectors as one multi-command ioctl, then the
sanitize switch. The last sector is computed in 64 bits and stored in the 32 bits of a
command argument.
-/

namespace Estoraged
open Interaction
set_option autoImplicit false

def extCsdSanitizeStart : UInt32 := 165

def mmcEraseGroupStart : UInt32 := 35

def mmcEraseGroupEnd : UInt32 := 36

def mmcErase : UInt32 := 38

structure MmcIoMultiCmdErase where
  numOfCmds : UInt64
  cmds : Vector MmcIocCmd 3
deriving DecidableEq, Repr

/-- `IOCTLWrapperInterface`; both calls open the device and may throw. -/
inductive IoctlCall where
  | doIoctl (request : IoctlRequest) (data : MmcIocCmd)
  | doIoctlMulti (request : IoctlRequest) (data : MmcIoMultiCmdErase)
deriving DecidableEq, Repr

abbrev ioctlPorts : Interface := ⟨IoctlCall, fun _ => Except Exception Int⟩

abbrev IoctlM (α : Type) := Prog ioctlPorts Exception α

def askIoctl (c : IoctlCall) : IoctlM Int :=
  .call c fun answer =>
    match answer with
    | .ok retval => .ret retval
    | .error e => .throw e

def eraseCmd (driveSize : UInt64) : MmcIoMultiCmdErase :=
  let sectorSize : UInt64 := 0x200
  { numOfCmds := 3
    cmds := #v[
      { opcode := mmcEraseGroupStart
        arg := 0
        flags := mmcRspSpiR1 ||| mmcRspR1 ||| mmcCmdAc
        writeFlag := 1 },
      { opcode := mmcEraseGroupEnd
        arg := (driveSize / sectorSize - 1).toUInt32
        flags := mmcRspSpiR1 ||| mmcRspR1 ||| mmcCmdAc
        writeFlag := 1 },
      { opcode := mmcErase
        arg := 0x00000000
        cmdTimeoutMs := 0x0FFFFFFF
        flags := mmcRspSpiR1B ||| mmcRspR1B ||| mmcCmdAc
        writeFlag := 1 }] }

def emmcErase (driveSize : UInt64) : IoctlM Unit := do
  let retval ← askIoctl (.doIoctlMulti .mmcIocMultiCmd (eraseCmd driveSize))
  if retval ≠ 0 then throw .internalFailure else pure ()

def sanitizeCmd : MmcIocCmd where
  writeFlag := 1
  opcode := mmcSwitch
  arg := (mmcSwitchModeWriteByte <<< 24) ||| (extCsdSanitizeStart <<< 16) |||
    ((1 : UInt32) <<< 8) ||| extCsdCmdSetNormal
  flags := mmcRspSpiR1B ||| mmcRspR1B ||| mmcCmdAc

def emmcSanitize : IoctlM Unit := do
  let retval ← askIoctl (.doIoctl .mmcIocCmd sanitizeCmd)
  if retval ≠ 0 then throw .internalFailure else pure ()

def doSanitize (driveSize : UInt64) : IoctlM Unit :=
  tryCatch
    (do
      emmcErase driveSize
      emmcSanitize)
    (fun _ => throw .internalFailure)

/-! ## Runs -/

/-- Surroundings in which the two ioctls end as given. -/
def ioctlOutcomes (multi single : Except Exception Int) : Responder ioctlPorts Unit := fun s c =>
  match c with
  | .doIoctl _ _ => (single, s)
  | .doIoctlMulti _ _ => (multi, s)

abbrev SanitizeResult := Result ioctlPorts Exception Unit Unit

def sanitized (driveSize : UInt64) (multi single : Except Exception Int) : SanitizeResult :=
  (doSanitize driveSize).run (ioctlOutcomes multi single) ()

def calls (r : SanitizeResult) : List (IoctlCall × Except Exception Int) :=
  r.trace.map fun ev => (ev.call, ev.answer)

def eraseCall (driveSize : UInt64) : IoctlCall := .doIoctlMulti .mmcIocMultiCmd (eraseCmd driveSize)

def sanitizeCall : IoctlCall := .doIoctl .mmcIocCmd sanitizeCmd

theorem sanitized_spec (driveSize : UInt64) (multi single : Except Exception Int) :
    (sanitized driveSize multi single).out =
      (if multi = .ok 0 ∧ single = .ok 0 then .ok () else .error .internalFailure) ∧
    calls (sanitized driveSize multi single) =
      (eraseCall driveSize, multi) :: if multi = .ok 0 then [(sanitizeCall, single)] else [] := by
  have hsuccess : ∀ {retval : Int}, (Except.ok retval : Except Exception Int) = .ok 0 ↔
      retval = 0 := by
    intro retval
    exact ⟨fun h => (by cases h; rfl), congrArg Except.ok⟩
  cases multi with
  | error e => exact ⟨rfl, rfl⟩
  | ok erased =>
    by_cases herased : erased = 0
    · subst herased
      cases single with
      | error e => exact ⟨rfl, rfl⟩
      | ok switched =>
        by_cases hswitched : switched = 0
        · subst hswitched
          exact ⟨rfl, rfl⟩
        · simp [sanitized, calls, eraseCall, sanitizeCall, doSanitize, emmcErase, emmcSanitize,
            askIoctl, ioctlOutcomes, Prog.run, hsuccess, hswitched]
    · simp [sanitized, calls, eraseCall, doSanitize, emmcErase, askIoctl, ioctlOutcomes, Prog.run,
        hsuccess, herased]

theorem mem_calls_multi {driveSize : UInt64} {multi single answer : Except Exception Int}
    {request : IoctlRequest} {erase : MmcIoMultiCmdErase}
    (h : (.doIoctlMulti request erase, answer) ∈ calls (sanitized driveSize multi single)) :
    erase = eraseCmd driveSize ∧ answer = multi := by
  rw [(sanitized_spec driveSize multi single).2] at h
  rcases List.mem_cons.mp h with h | h
  · obtain ⟨hcall, rfl⟩ := Prod.mk.inj h
    injection hcall with _ herase
    exact ⟨herase, rfl⟩
  · split at h
    · cases List.mem_singleton.mp h
    · cases h

theorem mem_calls_single {driveSize : UInt64} {multi single answer : Except Exception Int}
    {request : IoctlRequest} {cmd : MmcIocCmd}
    (h : (.doIoctl request cmd, answer) ∈ calls (sanitized driveSize multi single)) :
    multi = .ok 0 := by
  rw [(sanitized_spec driveSize multi single).2] at h
  rcases List.mem_cons.mp h with h | h
  · cases h
  · split at h
    · assumption
    · cases h

/-! ## The erased range -/

/-- The commands the kernel executes. -/
def MmcIoMultiCmdErase.opcodes (erase : MmcIoMultiCmdErase) : List UInt32 :=
  (erase.cmds.toList.take erase.numOfCmds.toNat).map MmcIocCmd.opcode

def eraseOpcodes : List UInt32 := [mmcEraseGroupStart, mmcEraseGroupEnd, mmcErase]

/-- The group to erase reaches from sector 0 to the last sector of the device. -/
def MmcIoMultiCmdErase.Covers (erase : MmcIoMultiCmdErase) (driveSize : UInt64) : Prop :=
  (erase.cmds[0].arg.toNat : Int) = 0 ∧
  (erase.cmds[1].arg.toNat : Int) = (driveSize.toNat / 512 : Nat) - 1

theorem eraseCmd_end_arg (driveSize : UInt64) :
    (eraseCmd driveSize).cmds[1].arg.toNat =
      (2 ^ 64 - 1 + driveSize.toNat / 512) % 2 ^ 64 % 2 ^ 32 := by
  change (driveSize / 512 - 1).toUInt32.toNat = _
  rw [UInt64.toNat_toUInt32, UInt64.toNat_sub, UInt64.toNat_div]
  rfl

/-- The last sector survives the subtraction and the store into 32 bits. -/
theorem eraseCmd_covers_iff (driveSize : UInt64) : (eraseCmd driveSize).Covers driveSize ↔
    0 < driveSize.toNat / 512 ∧ driveSize.toNat / 512 ≤ 2 ^ 32 := by
  have hlt := driveSize.toNat_lt
  have hend := eraseCmd_end_arg driveSize
  constructor
  · intro h
    have hlast := h.2
    omega
  · intro h
    refine ⟨rfl, ?_⟩
    omega

/-- The device is erased as a whole, or the caller is told that it is not. -/
structure ErasesOrFails (driveSize : UInt64) (r : SanitizeResult) : Prop where
  returns_iff : r.out = .ok () ↔ ∃ erase, erase.opcodes = eraseOpcodes ∧
    calls r = [(.doIoctlMulti .mmcIocMultiCmd erase, .ok 0), (sanitizeCall, .ok 0)]
  covers : r.out = .ok () → ∀ request erase answer,
    (.doIoctlMulti request erase, answer) ∈ calls r → erase.Covers driveSize
  fails : r.out ≠ .ok () → r.out = .error .internalFailure
  stops : ∀ request erase answer, (.doIoctlMulti request erase, answer) ∈ calls r →
    answer ≠ .ok 0 → ∀ request cmd answer, (.doIoctl request cmd, answer) ∉ calls r

theorem erasesOrFails_iff (driveSize : UInt64) (multi single : Except Exception Int) :
    ErasesOrFails driveSize (sanitized driveSize multi single) ↔
      (multi = .ok 0 → single = .ok 0 →
        0 < driveSize.toNat / 512 ∧ driveSize.toNat / 512 ≤ 2 ^ 32) := by
  obtain ⟨hout, hcalls⟩ := sanitized_spec driveSize multi single
  rw [← eraseCmd_covers_iff]
  constructor
  · intro h hmulti hsingle
    rw [if_pos ⟨hmulti, hsingle⟩] at hout
    apply h.covers hout .mmcIocMultiCmd (eraseCmd driveSize) multi
    rw [hcalls]
    exact List.mem_cons_self
  · intro h
    refine ⟨?_, ?_, ?_, ?_⟩
    · rw [hout, hcalls]
      constructor
      · intro hok
        split at hok
        · rename_i hboth
          obtain ⟨rfl, rfl⟩ := hboth
          exact ⟨eraseCmd driveSize, rfl, rfl⟩
        · cases hok
      · intro hboth
        obtain ⟨erase, -, hboth⟩ := hboth
        obtain ⟨hfirst, hrest⟩ := List.cons.inj hboth
        obtain ⟨-, rfl⟩ := Prod.mk.inj hfirst
        rw [if_pos rfl] at hrest
        obtain ⟨hsecond, -⟩ := List.cons.inj hrest
        obtain ⟨-, rfl⟩ := Prod.mk.inj hsecond
        rfl
    · intro hok request erase answer hmem
      rw [(mem_calls_multi hmem).1]
      rw [hout] at hok
      split at hok
      · rename_i hboth
        exact h hboth.1 hboth.2
      · cases hok
    · intro hne
      rw [hout] at hne ⊢
      split at hne
      · exact absurd rfl hne
      · rename_i hfailed
        rw [if_neg hfailed]
    · intro request erase answer hmulti hfailed request' cmd answer' hsingle
      rw [(mem_calls_multi hmulti).2] at hfailed
      exact hfailed (mem_calls_single hsingle)

/-- One sector more than 32 bits can number: only the first sector is erased. -/
theorem sanitize_truncated :
    ¬ ∀ (driveSize : UInt64), 512 ∣ driveSize.toNat → ∀ multi single : Except Exception Int,
      ErasesOrFails driveSize (sanitized driveSize multi single) := by
  intro halways
  have h := (halways 2199023256064 (by decide) (.ok 0) (.ok 0)).covers rfl .mmcIocMultiCmd
    (eraseCmd 2199023256064) (.ok 0) List.mem_cons_self
  exact absurd h.2 (by decide)

end Estoraged

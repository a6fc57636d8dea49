import Estoraged.MmcIoctl
import Estoraged.StorageObjects

/-!
# Tuning the MMC

The first two steps of the `EStoraged` constructor: the high-speed timing mode for the
parts that want it, and background operations where the device supports them. The
second step takes the file descriptor over.
-/

namespace Estoraged
open Interaction
set_option autoImplicit false

def extCsdBkopsEn : UInt32 := 163

def extCsdHsTiming : UInt32 := 185

def extCsdTimingHs400 : UInt32 := 3

def extCsdManualBkopsMask : UInt8 := 0x01

def extCsdAutoBkopsMask : UInt8 := 0x02

/-- The extended device specific data. -/
abbrev ExtCsd := Vector UInt8 512

/-- What an ioctl returns, and what the device left in the data buffer. -/
structure MmcAnswer where
  retval : Int
  data : ExtCsd
deriving DecidableEq

/-- The classes of the exceptions, with their `what()`. -/
inductive MmcError where
  | hsModeError (what : String)
  | bkopsEnableFailure (what : String)
  | bkopsIoctlFailure (what : String)
  | systemError (what : String)
deriving DecidableEq, Repr

def MmcError.isBkopsError : MmcError → Bool
  | .bkopsEnableFailure _ | .bkopsIoctlFailure _ => true
  | _ => false

def MmcError.isHsModeError : MmcError → Bool
  | .hsModeError _ => true
  | _ => false

/-- How the constructor can be stopped. No catch clause helps against the second way. -/
inductive Stop where
  | threw (e : MmcError)
  | nullDereference
deriving DecidableEq, Repr

structure MmcCall where
  request : IoctlRequest
  cmd : MmcIocCmd
deriving DecidableEq, Repr

/-- `stdplus::Fd::ioctl`, which may throw a `std::system_error`. -/
abbrev mmcPorts : Interface := ⟨MmcCall, fun _ => Except String MmcAnswer⟩

abbrev MmcM (α : Type) := Prog mmcPorts Stop α

/-- `fd->ioctl(request, &cmd)`, where `fd` may be null. -/
def fdIoctl (fd : Bool) (request : IoctlRequest) (cmd : MmcIocCmd) : MmcM MmcAnswer :=
  if fd then
    .call ⟨request, cmd⟩ fun answer =>
      match answer with
      | .ok answered => .ret answered
      | .error what => .throw (.threw (.systemError what))
  else .throw .nullDereference

def extCsdCmd : MmcIocCmd where
  writeFlag := 0
  opcode := mmcSendExtCsd
  arg := 0
  flags := mmcRspSpiR1 ||| mmcRspR1 ||| mmcCmdAdtc
  blksz := 512
  blocks := 1

def bkopsEnableCmd : MmcIocCmd where
  writeFlag := 1
  opcode := mmcSwitch
  arg := (mmcSwitchModeWriteByte <<< 24) ||| (extCsdBkopsEn <<< 16) |||
    (extCsdManualBkopsMask.toUInt32 <<< 8) ||| extCsdCmdSetNormal
  flags := mmcRspSpiR1B ||| mmcRspR1B ||| mmcCmdAc

def hsTimingCmd : MmcIocCmd where
  writeFlag := 1
  opcode := mmcSwitch
  arg := (mmcSwitchModeWriteByte <<< 24) ||| (extCsdHsTiming <<< 16) |||
    (extCsdTimingHs400 <<< 8)
  flags := mmcRspR1B ||| mmcCmdAc

def bkopsSupported (extCsd : ExtCsd) : Bool := extCsd[502] &&& 0x1 != 0

def bkopsEnabled (extCsd : ExtCsd) : Bool :=
  extCsd[163] &&& (extCsdManualBkopsMask ||| extCsdAutoBkopsMask) != 0

def enableBackgroundOperation (fd : Bool) (devPath : String) : MmcM Bool := do
  let answered ← fdIoctl fd .mmcIocCmd extCsdCmd
  if answered.retval ≠ 0 then
    throw (.threw (.bkopsIoctlFailure ("Failed to run ioctl on " ++ devPath ++ ": " ++
      "Failed to get Extended Device Specific Data")))
  else if bkopsSupported answered.data = false then pure false
  else if bkopsEnabled answered.data then pure false
  else do
    let answered ← fdIoctl fd .mmcIocCmd bkopsEnableCmd
    if answered.retval ≠ 0 then
      throw (.threw (.bkopsEnableFailure ("Failed to enable BKOPS on " ++ devPath)))
    else pure true

def changeHsTiming (fd : Bool) (devPath : String) : MmcM Bool :=
  if fd = false then pure false
  else do
    let answered ← fdIoctl fd .mmcIocCmd hsTimingCmd
    if answered.retval ≠ 0 then
      throw (.threw (.hsModeError ("Failed to set HS mode on " ++ devPath)))
    else pure true

def changeHsTimingIfNeeded (highSpeedMMC : List String) (fd : Bool) (devPath partNumber : String) :
    MmcM Bool :=
  if fd = false then pure false
  else if highSpeedMMC.contains partNumber then changeHsTiming fd devPath
  else pure false

/-- `try { … } catch (const E& e) { … }` that logs and goes on. -/
def catching (isE : MmcError → Bool) (p : MmcM Bool) : MmcM Unit :=
  tryCatch
    (do
      let _ ← p
      pure ())
    fun stop =>
      match stop with
      | .threw e => if isE e then pure () else throw stop
      | .nullDereference => throw stop

def EStoraged.tuneMmc (highSpeedMMC : List String) (storage : EStoraged) : MmcM Unit := do
  catching MmcError.isHsModeError
    (changeHsTimingIfNeeded highSpeedMMC storage.fd storage.devPath storage.partNumber)
  catching MmcError.isBkopsError (enableBackgroundOperation storage.fd storage.devPath)

/-! ## What the constructor promises -/

abbrev extCsdCall : MmcCall := ⟨.mmcIocCmd, extCsdCmd⟩

abbrev hsTimingCall : MmcCall := ⟨.mmcIocCmd, hsTimingCmd⟩

abbrev bkopsEnableCall : MmcCall := ⟨.mmcIocCmd, bkopsEnableCmd⟩

/-- A switch command whose argument names the byte for background operations. -/
def MmcCall.enablesBkops (c : MmcCall) : Bool :=
  c.cmd.opcode == mmcSwitch && c.cmd.arg >>> 16 &&& 0xff == extCsdBkopsEn

abbrev MmcTrace := Trace mmcPorts Unit

/-- Background operations are enabled only on a device that was found to have them, off. -/
def EnablesKnowingly (tr : MmcTrace) : Prop :=
  ∀ (k : Nat) (ev : Event mmcPorts Unit), tr[k]? = some ev →
    MmcCall.enablesBkops ev.call = true →
    ∃ i < k, ∃ extCsd, tr[i]? = some ⟨(), extCsdCall, .ok ⟨0, extCsd⟩⟩ ∧
      bkopsSupported extCsd = true ∧ bkopsEnabled extCsd = false

structure BestEffort (r : Result mmcPorts Stop Unit Unit) : Prop where
  no_null : r.out ≠ .error .nullDereference
  no_throw : ∀ e, r.out ≠ .error (.threw e)
  knowingly : EnablesKnowingly r.trace

section Specs
variable (device : MmcCall → Except String MmcAnswer)

/-- A device with a fixed answer to each command. -/
def answeringDevice : Responder mmcPorts Unit := fun s c => (device c, s)

/-- No ioctl that the constructor comes to make throws. -/
structure NoneThrows (highSpeedMMC : List String) (partNumber : String) : Prop where
  hsTiming : partNumber ∈ highSpeedMMC → (device hsTimingCall).isOk = true
  extCsd : (device extCsdCall).isOk = true
  bkopsEnable : ∀ extCsd, device extCsdCall = .ok ⟨0, extCsd⟩ → bkopsSupported extCsd = true →
    bkopsEnabled extCsd = false → (device bkopsEnableCall).isOk = true

variable {device}

theorem EnablesKnowingly.of_first {tr tr' : MmcTrace}
    (hfirst : ∀ ev ∈ tr, MmcCall.enablesBkops ev.call = false) (h : EnablesKnowingly tr') :
    EnablesKnowingly (tr ++ tr') := by
  intro k ev hev henables
  by_cases hk : k < tr.length
  · rw [List.getElem?_append_left hk] at hev
    have hquiet := hfirst ev (List.mem_of_getElem? hev)
    rw [henables] at hquiet
    cases hquiet
  · rw [List.getElem?_append_right (Nat.le_of_not_lt hk)] at hev
    obtain ⟨i, hi, extCsd, hread, hbits⟩ := h _ ev hev henables
    refine ⟨tr.length + i, by omega, extCsd, ?_, hbits⟩
    rw [List.getElem?_append_right (Nat.le_add_right _ _), Nat.add_sub_cancel_left]
    exact hread

theorem EnablesKnowingly.of_quiet {tr : MmcTrace}
    (h : ∀ ev ∈ tr, MmcCall.enablesBkops ev.call = false) : EnablesKnowingly tr := by
  intro k ev hev henables
  have hquiet := h ev (List.mem_of_getElem? hev)
  rw [henables] at hquiet
  cases hquiet

theorem ensures_fdIoctl_bind {request : IoctlRequest} {cmd : MmcIocCmd} {f : MmcAnswer → MmcM Bool}
    {Q : MmcTrace → Except Stop Bool → Unit → Prop} :
    Ensures (graph (answeringDevice device)) (fdIoctl true request cmd >>= f) () Q ↔
      (∀ what, device ⟨request, cmd⟩ = .error what →
        Q [⟨(), ⟨request, cmd⟩, .error what⟩] (.error (.threw (.systemError what))) ()) ∧
      ∀ answered, device ⟨request, cmd⟩ = .ok answered →
        Ensures (graph (answeringDevice device)) (f answered) () fun tr out s' =>
          Q (⟨(), ⟨request, cmd⟩, .ok answered⟩ :: tr) out s' := by
  rw [fdIoctl, if_pos rfl, Prog.call_bind, Ensures.call_iff]
  constructor
  · intro h
    constructor
    · intro what hc
      simpa using h (.error what) () (congrArg (Prod.mk · ()) hc)
    · intro answered hc
      exact h (.ok answered) () (congrArg (Prod.mk · ()) hc)
  · intro h answer s' hanswer
    obtain ⟨hc, rfl⟩ := Prod.mk.inj hanswer
    cases answer with
    | error what => simpa using h.1 what hc
    | ok answered => exact h.2 answered hc

/-- What is left of an outcome behind the catch clause. -/
def caught (isE : MmcError → Bool) : Except Stop Bool → Except Stop Unit
  | .ok _ => .ok ()
  | .error (.threw e) => if isE e then .ok () else .error (.threw e)
  | .error .nullDereference => .error .nullDereference

@[simp] theorem ensures_catching {env : Env mmcPorts Unit} {isE : MmcError → Bool} {p : MmcM Bool}
    {Q : MmcTrace → Except Stop Unit → Unit → Prop} :
    Ensures env (catching isE p) () Q ↔
      Ensures env p () fun tr out s' => Q tr (caught isE out) s' := by
  have hclause : catching isE p = tryCatch (p >>= fun _ => pure ()) fun stop =>
      match stop with
      | .threw e => if isE e then pure () else throw stop
      | .nullDereference => throw stop := rfl
  rw [hclause, Ensures.tryCatch_iff, Ensures.bind_iff]
  refine forall₃_congr fun tr out s' => imp_congr_right fun _ => ?_
  cases out with
  | ok b => simp [caught]
  | error stop =>
    cases stop with
    | nullDereference => simp [caught]
    | threw e => cases he : isE e <;> simp [he, caught]

theorem changeHsTimingIfNeeded_spec (highSpeedMMC : List String) (devPath partNumber : String) :
    Ensures (graph (answeringDevice device))
      (catching MmcError.isHsModeError
        (changeHsTimingIfNeeded highSpeedMMC true devPath partNumber)) () fun tr out _ =>
      (∀ ev ∈ tr, MmcCall.enablesBkops ev.call = false) ∧
      (out = .ok () ↔ (partNumber ∈ highSpeedMMC → (device hsTimingCall).isOk = true)) := by
  rw [ensures_catching]
  unfold changeHsTimingIfNeeded changeHsTiming
  by_cases hlisted : partNumber ∈ highSpeedMMC
  · have hquiet : MmcCall.enablesBkops hsTimingCall = false := by decide
    simp only [List.contains_iff_mem.mpr hlisted, Bool.true_eq_false, if_false, if_true]
    rw [ensures_fdIoctl_bind]
    constructor
    · intro what hc
      simp [hquiet, hlisted, hc, caught, MmcError.isHsModeError, Except.isOk, Except.toBool]
    · intro answered hc
      split <;>
        simp [hquiet, hlisted, hc, caught, MmcError.isHsModeError, Except.isOk, Except.toBool]
  · simp [hlisted, caught]

theorem enablesKnowingly_read_first {extCsd : ExtCsd} (answer : Except String MmcAnswer)
    (hsupported : bkopsSupported extCsd = true) (hoff : bkopsEnabled extCsd = false) :
    EnablesKnowingly [⟨(), extCsdCall, .ok ⟨0, extCsd⟩⟩, ⟨(), bkopsEnableCall, answer⟩] := by
  intro k ev hev henables
  cases k with
  | zero =>
    obtain rfl := Option.some.inj hev
    cases henables
  | succ k => exact ⟨0, Nat.succ_pos k, extCsd, rfl, hsupported, hoff⟩

theorem enableBackgroundOperation_spec (devPath : String) :
    Ensures (graph (answeringDevice device))
      (catching MmcError.isBkopsError (enableBackgroundOperation true devPath)) ()
      fun tr out _ => EnablesKnowingly tr ∧
        (out = .ok () ↔ (device extCsdCall).isOk = true ∧
          ∀ extCsd, device extCsdCall = .ok ⟨0, extCsd⟩ → bkopsSupported extCsd = true →
            bkopsEnabled extCsd = false → (device bkopsEnableCall).isOk = true) := by
  have hread : MmcCall.enablesBkops extCsdCall = false := by decide
  rw [ensures_catching]
  unfold enableBackgroundOperation
  rw [ensures_fdIoctl_bind]
  constructor
  · intro what hc
    refine ⟨EnablesKnowingly.of_quiet (by simp [hread]), ?_⟩
    simp [hc, caught, MmcError.isBkopsError, Except.isOk, Except.toBool]
  · intro answered hc
    rcases answered with ⟨retval, extCsd⟩
    have hok : (device extCsdCall).isOk = true := by rw [hc]; rfl
    have hsame : ∀ {extCsd'}, device extCsdCall = .ok ⟨0, extCsd'⟩ → retval = 0 ∧ extCsd = extCsd' := by
      intro extCsd' hc'
      rw [hc] at hc'
      cases hc'
      exact ⟨rfl, rfl⟩
    split_ifs with hfailed hsupported hon
    · refine Ensures.throw_iff.mpr ⟨.of_quiet (by simp [hread]), iff_of_true rfl ⟨hok, ?_⟩⟩
      intro extCsd' hc'
      exact absurd (hsame hc').1 hfailed
    · refine Ensures.ret_iff.mpr ⟨.of_quiet (by simp [hread]), iff_of_true rfl ⟨hok, ?_⟩⟩
      intro extCsd' hc' hsupported'
      rw [← (hsame hc').2, hsupported] at hsupported'
      cases hsupported'
    · refine Ensures.ret_iff.mpr ⟨.of_quiet (by simp [hread]), iff_of_true rfl ⟨hok, ?_⟩⟩
      intro extCsd' hc' _ hoff
      rw [← (hsame hc').2, hon] at hoff
      cases hoff
    · rw [ensures_fdIoctl_bind]
      obtain rfl : retval = 0 := not_not.mp hfailed
      have hsupported' : bkopsSupported extCsd = true := by simpa using hsupported
      have hoff : bkopsEnabled extCsd = false := by simpa using hon
      constructor
      · intro what hswitch
        refine ⟨enablesKnowingly_read_first _ hsupported' hoff, iff_of_false ?_ ?_⟩
        · intro hout
          cases hout
        · intro h
          have hisOk := h.2 extCsd hc hsupported' hoff
          rw [hswitch] at hisOk
          cases hisOk
      · intro switched hswitch
        have hswitched : (device bkopsEnableCall).isOk = true := by rw [hswitch]; rfl
        have hnormal : (device extCsdCall).isOk = true ∧ ∀ extCsd,
            device extCsdCall = .ok ⟨0, extCsd⟩ → bkopsSupported extCsd = true →
            bkopsEnabled extCsd = false → (device bkopsEnableCall).isOk = true :=
          ⟨hok, fun _ _ _ _ => hswitched⟩
        have hknowingly := enablesKnowingly_read_first (.ok switched) hsupported' hoff
        split_ifs
        · exact Ensures.throw_iff.mpr ⟨hknowingly, iff_of_true rfl hnormal⟩
        · exact Ensures.ret_iff.mpr ⟨hknowingly, iff_of_true rfl hnormal⟩

variable (device) in
theorem tuneMmc_spec (highSpeedMMC : List String) {storage : EStoraged} (hfd : storage.fd = true) :
    Ensures (graph (answeringDevice device)) (storage.tuneMmc highSpeedMMC) () fun tr out _ =>
      EnablesKnowingly tr ∧ (out = .ok () ↔ NoneThrows device highSpeedMMC storage.partNumber) := by
  unfold EStoraged.tuneMmc
  rw [hfd]
  refine Ensures.bind (changeHsTimingIfNeeded_spec highSpeedMMC _ _) ?_ ?_
  · intro tr _ _ hfirst
    refine (enableBackgroundOperation_spec storage.devPath).mono ?_
    intro tr' out _ hsecond
    refine ⟨hsecond.1.of_first hfirst.1, hsecond.2.trans ?_⟩
    constructor
    · intro h
      exact ⟨hfirst.2.mp rfl, h.1, h.2⟩
    · intro h
      exact ⟨h.extCsd, h.bkopsEnable⟩
  · intro tr e _ hfirst
    refine ⟨.of_quiet hfirst.1, iff_of_false ?_ ?_⟩
    · intro hout
      cases hout
    · intro h
      cases hfirst.2.mpr h.hsTiming

end Specs

def tuned (device : MmcCall → Except String MmcAnswer) (highSpeedMMC : List String)
    (storage : EStoraged) : Result mmcPorts Stop Unit Unit :=
  (storage.tuneMmc highSpeedMMC).run (answeringDevice device) ()

theorem tuned_of_null (device : MmcCall → Except String MmcAnswer) (highSpeedMMC : List String)
    {storage : EStoraged} (hfd : storage.fd = false) :
    tuned device highSpeedMMC storage = ⟨[], .error .nullDereference, ()⟩ := by
  unfold tuned EStoraged.tuneMmc
  rw [hfd]
  rfl

/-- Tuning is best effort just when the file descriptor is there and no ioctl throws. -/
theorem bestEffort_iff (device : MmcCall → Except String MmcAnswer) (highSpeedMMC : List String)
    (storage : EStoraged) : BestEffort (tuned device highSpeedMMC storage) ↔
      storage.fd = true ∧ NoneThrows device highSpeedMMC storage.partNumber := by
  cases hfd : storage.fd with
  | false =>
    refine iff_of_false ?_ (by simp)
    intro h
    apply h.no_null
    rw [tuned_of_null device highSpeedMMC hfd]
  | true =>
    obtain ⟨hknowingly, hout⟩ := Prog.run_of_ensures (answeringDevice device) (fun _ _ => rfl)
      (tuneMmc_spec device highSpeedMMC hfd)
    rw [and_iff_right rfl, ← hout]
    constructor
    · intro h
      have hnull := h.no_null
      have hthrow := h.no_throw
      unfold tuned at hnull hthrow
      cases hends : ((storage.tuneMmc highSpeedMMC).run (answeringDevice device) ()).out with
      | ok _ => rfl
      | error stop =>
        cases stop with
        | threw e => exact absurd hends (hthrow e)
        | nullDereference => exact absurd hends hnull
    · intro hok
      have hout : (tuned device highSpeedMMC storage).out = .ok () := hok
      refine ⟨?_, ?_, hknowingly⟩
      · rw [hout]
        intro h
        cases h
      · intro e
        rw [hout]
        intro h
        cases h

/-- The device file could not be opened. -/
theorem tuning_without_fd : ¬ ∀ (device : MmcCall → Except String MmcAnswer)
    (highSpeedMMC : List String) (storage : EStoraged),
    BestEffort (tuned device highSpeedMMC storage) := by
  intro halways
  exact (halways (fun _ => .error "") [] { emmcObject "/board/emmc" with fd := false }).no_null rfl

end Estoraged

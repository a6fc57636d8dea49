import Estoraged.MmcTuning

/-!
# What tuning writes into the device

The extended CSD register of one device over all the constructor runs that come to tune it,
with ioctls failing in any pattern. Only two of its bytes are ever written, and the one for
background operations at most once.
-/

namespace Estoraged
open Interaction
set_option autoImplicit false

/-- `MMC_SWITCH_MODE_WRITE_BYTE`: set target to value. The target is a byte, so it is within
the register. -/
def switched (extCsd : ExtCsd) (arg : UInt32) : ExtCsd :=
  if arg >>> 24 = mmcSwitchModeWriteByte then
    extCsd.setIfInBounds (arg >>> 16 &&& 0xff).toNat (arg >>> 8 &&& 0xff).toUInt8
  else extCsd

/-- A device with a register: it is read as it is, and changed by switch commands only. One
that fails may have been carried out or not. -/
structure RegisterContract {σ : Type} (env : Env mmcPorts σ) (register : σ → ExtCsd) : Prop where
  keeps : ∀ s c answer s', env s c answer s' → c.cmd.opcode ≠ mmcSwitch →
    register s' = register s
  reads : ∀ s c answered s', env s c (.ok answered) s' → c.cmd.opcode = mmcSendExtCsd →
    answered.retval = 0 → answered.data = register s
  switches : ∀ s c answer s', env s c answer s' → c.cmd.opcode = mmcSwitch →
    register s' = register s ∨ register s' = switched (register s) c.cmd.arg
  succeeds : ∀ s c answered s', env s c (.ok answered) s' → c.cmd.opcode = mmcSwitch →
    answered.retval = 0 → register s' = switched (register s) c.cmd.arg

def writeByte (extCsd : ExtCsd) (i : Fin 512) (value : UInt8) : ExtCsd :=
  extCsd.setIfInBounds i value

theorem switched_bkopsEnable (extCsd : ExtCsd) :
    switched extCsd bkopsEnableCmd.arg = writeByte extCsd 163 extCsdManualBkopsMask := rfl

theorem switched_hsTiming (extCsd : ExtCsd) :
    switched extCsd hsTimingCmd.arg = writeByte extCsd 185 3 := rfl

/-- What the constructor may write over the register, `timed` when the part is listed. -/
inductive Written (timed : Prop) (extCsd : ExtCsd) : ExtCsd → Prop where
  | same : Written timed extCsd extCsd
  | timing : timed → Written timed extCsd (writeByte extCsd 185 3)
  | bkops : bkopsSupported extCsd = true → bkopsEnabled extCsd = false →
      Written timed extCsd (writeByte extCsd 163 extCsdManualBkopsMask)

section Bytes
variable (extCsd : ExtCsd) (value : UInt8)

theorem get_writeByte (i : Fin 512) : (writeByte extCsd i value).get i = value :=
  Vector.getElem_setIfInBounds_self i.isLt

theorem get_writeByte_ne {i j : Fin 512} (h : i ≠ j) :
    (writeByte extCsd i value).get j = extCsd.get j :=
  Vector.getElem_setIfInBounds_ne j.isLt (Fin.val_ne_of_ne h)

theorem bkopsSupported_eq : bkopsSupported extCsd = (extCsd.get 502 &&& 0x1 != 0) := rfl

theorem bkopsEnabled_eq : bkopsEnabled extCsd =
    (extCsd.get 163 &&& (extCsdManualBkopsMask ||| extCsdAutoBkopsMask) != 0) := rfl

/-- The two bytes that are written are different ones, and neither says what is supported. -/
theorem tuned_ne : (185 : Fin 512) ≠ 163 ∧ (163 : Fin 512) ≠ 502 ∧ (185 : Fin 512) ≠ 502 := by
  decide

end Bytes

section Register
variable {timed : Prop} {first extCsd extCsd' : ExtCsd}

theorem Written.supported (h : Written timed extCsd extCsd') :
    bkopsSupported extCsd' = bkopsSupported extCsd := by
  obtain ⟨-, hbkops, htiming⟩ := tuned_ne
  rw [bkopsSupported_eq, bkopsSupported_eq]
  cases h with
  | same => rfl
  | timing _ => rw [get_writeByte_ne extCsd 3 htiming]
  | bkops _ _ => rw [get_writeByte_ne extCsd _ hbkops]

theorem bkopsEnabled_of_manual (h : extCsd.get 163 = extCsdManualBkopsMask) :
    bkopsEnabled extCsd = true := by
  rw [bkopsEnabled_eq, h]
  rfl

theorem Written.stays_enabled (h : Written timed extCsd extCsd')
    (hon : bkopsEnabled extCsd = true) : bkopsEnabled extCsd' = true := by
  cases h with
  | same => exact hon
  | timing _ => rwa [bkopsEnabled_eq, get_writeByte_ne extCsd 3 tuned_ne.1]
  | bkops _ _ => exact bkopsEnabled_of_manual (get_writeByte extCsd _ 163)

theorem Written.stays_timed (h : Written timed extCsd extCsd') (hon : extCsd.get 185 = 3) :
    extCsd'.get 185 = 3 := by
  cases h with
  | same => exact hon
  | timing _ => exact get_writeByte extCsd 3 185
  | bkops _ _ => rwa [get_writeByte_ne extCsd _ tuned_ne.1.symm]

/-- How far the register is from the first one. -/
structure TunedFrom (timed : Prop) (first extCsd : ExtCsd) : Prop where
  rest : ∀ i : Fin 512, i ≠ 163 → i ≠ 185 → extCsd.get i = first.get i
  bkops : extCsd.get 163 = first.get 163 ∨
    bkopsSupported first = true ∧ bkopsEnabled first = false ∧
      extCsd.get 163 = extCsdManualBkopsMask
  timing : extCsd.get 185 = first.get 185 ∨ timed ∧ extCsd.get 185 = 3

theorem TunedFrom.refl (timed : Prop) (first : ExtCsd) : TunedFrom timed first first where
  rest := fun _ _ _ => rfl
  bkops := .inl rfl
  timing := .inl rfl

theorem TunedFrom.supported (h : TunedFrom timed first extCsd) :
    bkopsSupported extCsd = bkopsSupported first := by
  obtain ⟨-, hbkops, htiming⟩ := tuned_ne
  rw [bkopsSupported_eq, bkopsSupported_eq, h.rest 502 hbkops.symm htiming.symm]

theorem TunedFrom.enabled (h : TunedFrom timed first extCsd) (hon : bkopsEnabled first = true) :
    bkopsEnabled extCsd = true := by
  rcases h.bkops with hsame | ⟨-, hoff, -⟩
  · rw [bkopsEnabled_eq] at hon ⊢
    rwa [hsame]
  · rw [hon] at hoff
    cases hoff

theorem TunedFrom.write (h : TunedFrom timed first extCsd)
    (hwritten : Written timed extCsd extCsd') : TunedFrom timed first extCsd' := by
  cases hwritten with
  | same => exact h
  | timing htimed =>
    constructor
    · intro i h163 h185
      rw [get_writeByte_ne extCsd 3 h185.symm]
      exact h.rest i h163 h185
    · rw [get_writeByte_ne extCsd 3 tuned_ne.1]
      exact h.bkops
    · exact .inr ⟨htimed, get_writeByte extCsd 3 185⟩
  | bkops hsupported hoff =>
    constructor
    · intro i h163 h185
      rw [get_writeByte_ne extCsd _ h163.symm]
      exact h.rest i h163 h185
    · refine .inr ⟨h.supported ▸ hsupported, ?_, get_writeByte extCsd _ 163⟩
      apply Bool.eq_false_of_not_eq_true
      intro hon
      rw [h.enabled hon] at hoff
      cases hoff
    · rw [get_writeByte_ne extCsd _ tuned_ne.1.symm]
      exact h.timing

end Register

section Tuning
variable {σ : Type} {env : Env mmcPorts σ} {register : σ → ExtCsd} {timed : Prop}

/-- What the constructor may call, and when. -/
inductive Careful (register : σ → ExtCsd) (timed : Prop) (s : σ) : MmcCall → Prop where
  | read : Careful register timed s extCsdCall
  | timing : timed → Careful register timed s hsTimingCall
  | enable : bkopsSupported (register s) = true → bkopsEnabled (register s) = false →
      Careful register timed s bkopsEnableCall

def AllCareful (register : σ → ExtCsd) (timed : Prop) (tr : Trace mmcPorts σ) : Prop :=
  ∀ ev ∈ tr, Careful register timed ev.before ev.call

/-- The ioctl returned zero. -/
def carriedOut (ev : Event mmcPorts σ) : Bool :=
  match (ev.answer : Except String MmcAnswer) with
  | .ok answered => answered.retval == 0
  | .error _ => false

/-- Calls with care, and where none of them failed, a register as wanted. -/
structure Leaves (register : σ → ExtCsd) (timed : Prop) (fd : Bool) (wanted : ExtCsd → Prop)
    (tr : Trace mmcPorts σ) (s : σ) : Prop where
  careful : AllCareful register timed tr
  reached : fd = true → (∀ ev ∈ tr, carriedOut ev = true) → wanted (register s)

theorem Careful.weaken {timed' : Prop} {s : σ} {c : MmcCall} (h : Careful register timed s c)
    (htimed : timed → timed') : Careful register timed' s c := by
  cases h with
  | read => exact .read
  | timing hlisted => exact .timing (htimed hlisted)
  | enable hsupported hoff => exact .enable hsupported hoff

theorem Leaves.silent {fd : Bool} {wanted : ExtCsd → Prop} {s : σ}
    (h : fd = true → wanted (register s)) : Leaves register timed fd wanted [] s := by
  constructor
  · intro ev hev
    cases hev
  · intro hfd _
    exact h hfd

theorem ensures_catching_trace {isE : MmcError → Bool} {p : MmcM Bool} {s : σ}
    {Q : Trace mmcPorts σ → σ → Prop} (h : Ensures env p s fun tr _ s' => Q tr s') :
    Ensures env (catching isE p) s fun tr _ s' => Q tr s' := by
  have hbody : Ensures env (do
      let _ ← p
      pure ()) s fun tr _ s' => Q tr s' := by
    refine Ensures.bind h ?_ fun _ _ _ hQ => hQ
    intro tr b s' hQ
    refine Ensures.ret_iff.mpr ?_
    rwa [List.append_nil]
  refine Ensures.tryCatch hbody (fun _ _ _ hQ => hQ) ?_
  intro tr stop s' hQ
  cases stop with
  | nullDereference =>
    refine Ensures.throw_iff.mpr ?_
    rwa [List.append_nil]
  | threw e =>
    dsimp only
    split
    · refine Ensures.ret_iff.mpr ?_
      rwa [List.append_nil]
    · refine Ensures.throw_iff.mpr ?_
      rwa [List.append_nil]

/-- A call through the file descriptor, and what comes after it if it returns. -/
theorem fdIoctl_leaves {fd : Bool} {request : IoctlRequest} {cmd : MmcIocCmd} {s : σ}
    {wanted : ExtCsd → Prop} {f : MmcAnswer → MmcM Bool}
    (hcareful : Careful register timed s ⟨request, cmd⟩)
    (hf : fd = true → ∀ answered s', env s ⟨request, cmd⟩ (.ok answered) s' →
      Ensures env (f answered) s' fun tr _ s'' =>
        Leaves register timed (answered.retval == 0) wanted tr s'') :
    Ensures env (fdIoctl fd request cmd >>= f) s fun tr _ s' =>
      Leaves register timed fd wanted tr s' := by
  cases fd with
  | false =>
    refine Ensures.throw_iff.mpr (Leaves.silent ?_)
    intro hfd
    cases hfd
  | true =>
    refine Ensures.call_iff.mpr ?_
    intro answer s' hanswer
    cases answer with
    | error what =>
      refine Ensures.throw_iff.mpr ⟨?_, ?_⟩
      · intro ev hev
        obtain rfl := List.mem_singleton.mp hev
        exact hcareful
      · intro _ hdone
        cases hdone _ List.mem_cons_self
    | ok answered =>
      refine (hf rfl answered s' hanswer).mono ?_
      intro tr out s'' htr
      constructor
      · exact List.forall_mem_cons.mpr ⟨hcareful, htr.careful⟩
      · intro _ hdone
        obtain ⟨hzero, hdone⟩ := List.forall_mem_cons.mp hdone
        exact htr.reached hzero hdone

theorem changeHsTimingIfNeeded_leaves (hc : RegisterContract env register)
    (highSpeedMMC : List String) (fd : Bool) (devPath partNumber : String) (s : σ) :
    Ensures env (changeHsTimingIfNeeded highSpeedMMC fd devPath partNumber) s fun tr _ s' =>
      Leaves register (partNumber ∈ highSpeedMMC) fd
        (fun extCsd => partNumber ∈ highSpeedMMC → extCsd.get 185 = 3) tr s' := by
  unfold changeHsTimingIfNeeded changeHsTiming
  split_ifs with hnull hlisted
  · refine Ensures.ret_iff.mpr (Leaves.silent ?_)
    intro hfd
    rw [hnull] at hfd
    cases hfd
  · apply fdIoctl_leaves (.timing (List.contains_iff_mem.mp hlisted))
    intro _ answered s' hanswer
    split_ifs with hfailed
    · refine Ensures.throw_iff.mpr (Leaves.silent ?_)
      intro hzero
      exact absurd (beq_iff_eq.mp hzero) hfailed
    · refine Ensures.ret_iff.mpr (Leaves.silent ?_)
      intro hzero _
      rw [hc.succeeds s hsTimingCall answered s' hanswer rfl (beq_iff_eq.mp hzero),
        switched_hsTiming]
      exact get_writeByte _ 3 185
  · refine Ensures.ret_iff.mpr (Leaves.silent ?_)
    intro _ hmem
    exact absurd (List.contains_iff_mem.mpr hmem) hlisted

theorem enableBackgroundOperation_leaves (timed : Prop) (hc : RegisterContract env register)
    (fd : Bool) (devPath : String) (s : σ) :
    Ensures env (enableBackgroundOperation fd devPath) s fun tr _ s' =>
      Leaves register timed fd
        (fun extCsd => bkopsSupported extCsd = true → bkopsEnabled extCsd = true) tr s' := by
  unfold enableBackgroundOperation
  apply fdIoctl_leaves .read
  intro hfd answered s' hread
  have hkept := hc.keeps s extCsdCall _ s' hread (by decide)
  split_ifs with hfailed hsupported henabled
  · refine Ensures.throw_iff.mpr (Leaves.silent ?_)
    intro hzero
    exact absurd (beq_iff_eq.mp hzero) hfailed
  · have hdata := hc.reads s extCsdCall answered s' hread rfl (not_not.mp hfailed)
    refine Ensures.ret_iff.mpr (Leaves.silent ?_)
    intro _ hon
    rw [hkept, ← hdata, hsupported] at hon
    cases hon
  · have hdata := hc.reads s extCsdCall answered s' hread rfl (not_not.mp hfailed)
    refine Ensures.ret_iff.mpr (Leaves.silent ?_)
    intro _ _
    rwa [hkept, ← hdata]
  · have hdata := hc.reads s extCsdCall answered s' hread rfl (not_not.mp hfailed)
    rw [hdata, ← hkept] at hsupported henabled
    have hwants : Careful register timed s' bkopsEnableCall :=
      .enable (Bool.eq_true_of_not_eq_false hsupported) (Bool.eq_false_iff.mpr henabled)
    have hlast : Ensures env (fdIoctl fd .mmcIocCmd bkopsEnableCmd >>= fun answered =>
        if answered.retval ≠ 0 then
          throw (.threw (.bkopsEnableFailure ("Failed to enable BKOPS on " ++ devPath)))
        else pure true) s' fun tr _ s'' =>
        Leaves register timed fd
          (fun extCsd => bkopsSupported extCsd = true → bkopsEnabled extCsd = true) tr s'' := by
      apply fdIoctl_leaves hwants
      intro _ answered' s'' hanswer
      split_ifs with hfailed'
      · refine Ensures.throw_iff.mpr (Leaves.silent ?_)
        intro hzero
        exact absurd (beq_iff_eq.mp hzero) hfailed'
      · refine Ensures.ret_iff.mpr (Leaves.silent ?_)
        intro hzero _
        rw [hc.succeeds s' bkopsEnableCall answered' s'' hanswer rfl (beq_iff_eq.mp hzero),
          switched_bkopsEnable]
        exact bkopsEnabled_of_manual (get_writeByte _ _ 163)
    refine hlast.mono ?_
    intro tr out s'' h
    exact ⟨h.careful, fun _ => h.reached hfd⟩

/-! ## Runs of constructors -/

theorem Careful.writes (hc : RegisterContract env register) {s s' : σ} {ev : Event mmcPorts σ}
    (hstep : CallStep env s ev s') (h : Careful register timed ev.before ev.call) :
    Written timed (register s) (register s') := by
  obtain ⟨before, c, answer⟩ := ev
  obtain ⟨rfl, hanswer⟩ := hstep
  cases h with
  | read =>
    rw [hc.keeps _ extCsdCall answer s' hanswer (by decide)]
    exact .same
  | timing htimed =>
    rcases hc.switches _ hsTimingCall answer s' hanswer rfl with hkept | hwrote
    · rw [hkept]
      exact .same
    · rw [hwrote, switched_hsTiming]
      exact .timing htimed
  | enable hsupported hoff =>
    rcases hc.switches _ bkopsEnableCall answer s' hanswer rfl with hkept | hwrote
    · rw [hkept]
      exact .same
    · rw [hwrote, switched_bkopsEnable]
      exact .bkops hsupported hoff

/-- What no write breaks stays through calls made with care. -/
theorem AllCareful.invariant (hc : RegisterContract env register) {P : ExtCsd → Prop}
    (hP : ∀ extCsd extCsd', Written timed extCsd extCsd' → P extCsd → P extCsd')
    {s s' : σ} {tr : Trace mmcPorts σ} (h : AllCareful register timed tr)
    (hsteps : Steps (CallStep env) s tr s') (hs : P (register s)) : P (register s') := by
  have hstep : ∀ s ev s', P (register s) →
      (CallStep env s ev s' ∧ Careful register timed ev.before ev.call) → P (register s') := by
    intro s ev s' hnow hstep
    exact hP _ _ (hstep.2.writes hc hstep.1) hnow
  exact (hsteps.restrict h).invariant hstep hs

/-- A constructor on its way through the tuning. -/
structure Tuning (σ : Type) where
  storage : EStoraged
  trace : Trace mmcPorts σ
  out : Except Stop Unit

def Tunes (highSpeedMMC : List String) (env : Env mmcPorts σ) (s : σ) (l : Tuning σ) (s' : σ) :
    Prop :=
  Exec env (l.storage.tuneMmc highSpeedMMC) s l.trace l.out s'

/-- No ioctl of it failed. -/
def Tuning.Smooth (l : Tuning σ) : Prop :=
  l.out = .ok () ∧ ∀ ev ∈ l.trace, carriedOut ev = true

theorem tuneMmc_leaves (hc : RegisterContract env register) (highSpeedMMC : List String)
    (storage : EStoraged) (s : σ) :
    Ensures env (storage.tuneMmc highSpeedMMC) s fun tr out s' =>
      AllCareful register (storage.partNumber ∈ highSpeedMMC) tr ∧
      (out = .ok () → (∀ ev ∈ tr, carriedOut ev = true) →
        (storage.partNumber ∈ highSpeedMMC → (register s').get 185 = 3) ∧
        (bkopsSupported (register s') = true → bkopsEnabled (register s') = true)) := by
  unfold EStoraged.tuneMmc
  refine Ensures.bind (ensures_catching_trace
    (changeHsTimingIfNeeded_leaves hc highSpeedMMC storage.fd storage.devPath
      storage.partNumber s)) ?_ ?_
  · intro tr u s' hfirst tr' out s'' hexec
    have hsecond := ensures_catching_trace
      (enableBackgroundOperation_leaves (storage.partNumber ∈ highSpeedMMC) hc storage.fd
        storage.devPath s') tr' out s'' hexec
    refine ⟨List.forall_mem_append.mpr ⟨hfirst.careful, hsecond.careful⟩, ?_⟩
    intro hout hdone
    obtain ⟨hdone, hdone'⟩ := List.forall_mem_append.mp hdone
    cases hfd : storage.fd with
    | false =>
      -- Without a file descriptor the second step does not get through.
      rw [hfd] at hexec
      rw [hout] at hexec
      have hnull : Exec env (.throw Stop.nullDereference) s' tr' (.ok ()) s'' := hexec
      cases hnull
    | true =>
      refine ⟨?_, hsecond.reached hfd hdone'⟩
      intro hlisted
      exact hsecond.careful.invariant hc (fun _ _ hwritten => hwritten.stays_timed) hexec.steps
        (hfirst.reached hfd hdone hlisted)
  · intro tr e s' hfirst
    refine ⟨hfirst.careful, ?_⟩
    intro hout
    cases hout

/-- Background operations were switched on. -/
def switchesOn (ev : Event mmcPorts σ) : Bool := ev.call == bkopsEnableCall && carriedOut ev

theorem switched_on (hc : RegisterContract env register) {s s' : σ} {ev : Event mmcPorts σ}
    (hstep : CallStep env s ev s') (h : switchesOn ev = true) :
    bkopsEnabled (register s') = true := by
  obtain ⟨before, c, answer⟩ := ev
  obtain ⟨rfl, hanswer⟩ := hstep
  obtain ⟨hcall, hdone⟩ := Bool.and_eq_true_iff.mp h
  obtain rfl : c = bkopsEnableCall := beq_iff_eq.mp hcall
  cases answer with
  | error what => cases hdone
  | ok answered =>
    rw [hc.succeeds _ bkopsEnableCall answered s' hanswer rfl (beq_iff_eq.mp hdone),
      switched_bkopsEnable]
    exact bkopsEnabled_of_manual (get_writeByte _ _ 163)

/-- The calls so far, and where they have left the register. -/
structure TunedSoFar (register : σ → ExtCsd) (timed : Prop) (first : ExtCsd)
    (past : Trace mmcPorts σ) (s : σ) : Prop where
  tuned : TunedFrom timed first (register s)
  once : past.countP switchesOn ≤ 1
  enabled : 0 < past.countP switchesOn → bkopsEnabled (register s) = true
  spared : bkopsSupported first = false ∨ bkopsEnabled first = true →
    ∀ ev ∈ past, ev.call ≠ bkopsEnableCall

theorem TunedSoFar.start (timed : Prop) (s : σ) :
    TunedSoFar register timed (register s) [] s := by
  constructor
  · exact .refl timed (register s)
  · exact Nat.zero_le 1
  · intro hpos
    exact absurd hpos (Nat.lt_irrefl 0)
  · intro _ ev hev
    cases hev

theorem TunedSoFar.step (hc : RegisterContract env register) {first : ExtCsd}
    {past : Trace mmcPorts σ} {s s' : σ} {ev : Event mmcPorts σ}
    (h : TunedSoFar register timed first past s)
    (hstep : CallStep env s ev s' ∧ Careful register timed ev.before ev.call) :
    TunedSoFar register timed first (past ++ [ev]) s' := by
  obtain ⟨hcall, hcareful⟩ := hstep
  have hwritten := hcareful.writes hc hcall
  have hoff : ev.call = bkopsEnableCall → bkopsSupported (register s) = true ∧
      bkopsEnabled (register s) = false := by
    intro hev
    rw [hev, hcall.1] at hcareful
    generalize hname : bkopsEnableCall = c at hcareful
    cases hcareful with
    | read => cases hname
    | timing _ => cases hname
    | enable hsupported hoff => exact ⟨hsupported, hoff⟩
  have hfresh : switchesOn ev = true → past.countP switchesOn = 0 := by
    intro hon
    have hname := beq_iff_eq.mp (Bool.and_eq_true_iff.mp hon).1
    apply Nat.eq_zero_of_not_pos
    intro hpos
    rw [h.enabled hpos] at hoff
    cases (hoff hname).2
  constructor
  · exact h.tuned.write hwritten
  · rw [List.countP_append, List.countP_singleton]
    split_ifs with hon
    · rw [hfresh hon]
    · exact h.once
  · intro hpos
    rw [List.countP_append, List.countP_singleton] at hpos
    split_ifs at hpos with hon
    · exact switched_on hc hcall hon
    · exact hwritten.stays_enabled (h.enabled hpos)
  · intro hspared
    refine List.forall_mem_append.mpr ⟨h.spared hspared, ?_⟩
    intro ev' hev' hname
    obtain rfl := List.mem_singleton.mp hev'
    obtain ⟨hsupported, hdisabled⟩ := hoff hname
    rcases hspared with hnone | hon
    · rw [h.tuned.supported, hnone] at hsupported
      cases hsupported
    · rw [h.tuned.enabled hon] at hdisabled
      cases hdisabled

section Runs
variable {highSpeedMMC : List String} {s s' : σ} {ls : List (Tuning σ)}

def AnyListed (highSpeedMMC : List String) (ls : List (Tuning σ)) : Prop :=
  ∃ l ∈ ls, l.storage.partNumber ∈ highSpeedMMC

def tuningCalls (ls : List (Tuning σ)) : Trace mmcPorts σ := ls.flatMap Tuning.trace

theorem tunings_calls (hrun : Steps (Tunes highSpeedMMC env) s ls s') :
    Steps (CallStep env) s (tuningCalls ls) s' := by
  apply hrun.flatMap
  intro s l s' htunes
  exact Exec.steps htunes

theorem tunings_careful (hc : RegisterContract env register)
    (hrun : Steps (Tunes highSpeedMMC env) s ls s') :
    AllCareful register (AnyListed highSpeedMMC ls) (tuningCalls ls) := by
  intro ev hmem
  obtain ⟨l, hl, hev⟩ := List.mem_flatMap.mp hmem
  obtain ⟨before, after, rfl⟩ := List.append_of_mem hl
  obtain ⟨s₁, -, hrest⟩ := hrun.split
  cases hrest with
  | cons htunes _ =>
    apply ((tuneMmc_leaves hc highSpeedMMC l.storage s₁ _ _ _ htunes).1 ev hev).weaken
    intro hlisted
    exact ⟨l, hl, hlisted⟩

/-- What one tuning brings about and no write breaks, is there at the end. -/
theorem tuning_lasts (hc : RegisterContract env register)
    (hrun : Steps (Tunes highSpeedMMC env) s ls s') {l : Tuning σ} (hl : l ∈ ls)
    {P : ExtCsd → Prop} (hthen : ∀ s₁ s₂, Tunes highSpeedMMC env s₁ l s₂ → P (register s₂))
    (hP : ∀ timed extCsd extCsd', Written timed extCsd extCsd' → P extCsd → P extCsd') :
    P (register s') := by
  obtain ⟨before, after, rfl⟩ := List.append_of_mem hl
  obtain ⟨s₁, -, hrest⟩ := hrun.split
  cases hrest with
  | cons htunes hlater =>
    apply (tunings_careful hc hlater).invariant hc (hP _) (tunings_calls hlater)
    exact hthen _ _ htunes

/-- What a run of tunings has done to the register of their device. -/
structure TuningsLeave (highSpeedMMC : List String) (register : σ → ExtCsd) (s : σ)
    (ls : List (Tuning σ)) (s' : σ) : Prop where
  tuned : TunedFrom (AnyListed highSpeedMMC ls) (register s) (register s')
  once : (tuningCalls ls).countP switchesOn ≤ 1
  spared : bkopsSupported (register s) = false ∨ bkopsEnabled (register s) = true →
    ∀ ev ∈ tuningCalls ls, ev.call ≠ bkopsEnableCall
  enabled : ∀ l ∈ ls, l.Smooth → bkopsSupported (register s) = true →
    bkopsEnabled (register s') = true
  timed : ∀ l ∈ ls, l.Smooth → l.storage.partNumber ∈ highSpeedMMC → (register s').get 185 = 3

/-- However many constructors tune a device, and whichever of their ioctls fail, they write
only two bytes of its register. They switch background operations on at most once, and only
where the device has them and they were off. One tuning without a failure is enough for both
bytes, and no later one undoes it. -/
theorem tunings_write_once (hc : RegisterContract env register)
    (hrun : Steps (Tunes highSpeedMMC env) s ls s') :
    TuningsLeave highSpeedMMC register s ls s' := by
  have hsofar := ((tunings_calls hrun).restrict (tunings_careful hc hrun)).from_start
    (TunedSoFar.start _ s) fun _ _ _ _ h hstep => h.step hc hstep
  constructor
  · exact hsofar.tuned
  · exact hsofar.once
  · exact hsofar.spared
  · intro l hl hsmooth hsupported
    rw [← hsofar.tuned.supported] at hsupported
    refine tuning_lasts (P := fun extCsd => bkopsSupported extCsd = true →
      bkopsEnabled extCsd = true) hc hrun hl ?_ ?_ hsupported
    · intro s₁ s₂ htunes
      exact ((tuneMmc_leaves hc _ _ _ _ _ _ htunes).2 hsmooth.1 hsmooth.2).2
    · intro timed extCsd extCsd' hwritten hon hsupported
      exact hwritten.stays_enabled (hon (hwritten.supported ▸ hsupported))
  · intro l hl hsmooth hlisted
    refine tuning_lasts (P := fun extCsd => extCsd.get 185 = 3) hc hrun hl ?_ ?_
    · intro s₁ s₂ htunes
      exact ((tuneMmc_leaves hc _ _ _ _ _ _ htunes).2 hsmooth.1 hsmooth.2).1 hlisted
    · intro timed extCsd extCsd' hwritten
      exact hwritten.stays_timed

end Runs

end Tuning

/-! ## A device that always answers -/

def emmcRegister : Responder mmcPorts ExtCsd := fun extCsd c =>
  (.ok ⟨0, extCsd⟩, if c.cmd.opcode = mmcSwitch then switched extCsd c.cmd.arg else extCsd)

theorem emmcRegister_contract : RegisterContract (graph emmcRegister) id where
  keeps := by
    intro extCsd c answer extCsd' hanswer hopcode
    obtain ⟨-, rfl⟩ := Prod.mk.inj hanswer
    exact if_neg hopcode
  reads := by
    intro extCsd c answered extCsd' hanswer _ _
    obtain ⟨hanswered, -⟩ := Prod.mk.inj hanswer
    rw [← Except.ok.inj hanswered]
    rfl
  switches := by
    intro extCsd c answer extCsd' hanswer hopcode
    obtain ⟨-, rfl⟩ := Prod.mk.inj hanswer
    exact .inr (if_pos hopcode)
  succeeds := by
    intro extCsd c answered extCsd' hanswer hopcode _
    obtain ⟨-, rfl⟩ := Prod.mk.inj hanswer
    exact if_pos hopcode

def tuningOf (highSpeedMMC : List String) (storage : EStoraged) (extCsd : ExtCsd) :
    Tuning ExtCsd where
  storage := storage
  trace := ((storage.tuneMmc highSpeedMMC).run emmcRegister extCsd).trace
  out := ((storage.tuneMmc highSpeedMMC).run emmcRegister extCsd).out

def tunedRegister (highSpeedMMC : List String) (storage : EStoraged) (extCsd : ExtCsd) : ExtCsd :=
  ((storage.tuneMmc highSpeedMMC).run emmcRegister extCsd).state

theorem tunes_tuningOf (highSpeedMMC : List String) (storage : EStoraged) (extCsd : ExtCsd) :
    Tunes highSpeedMMC (graph emmcRegister) extCsd (tuningOf highSpeedMMC storage extCsd)
      (tunedRegister highSpeedMMC storage extCsd) :=
  Prog.exec_run emmcRegister (fun _ _ => rfl) _ _

/-- A register with support for background operations, and these off. -/
def factoryExtCsd : ExtCsd := (Vector.replicate 512 0).setIfInBounds 502 1

theorem tunings_write_once_twice :
    TuningsLeave ["DG4016"] id factoryExtCsd
      [tuningOf ["DG4016"] (emmcObject "/board/emmc") factoryExtCsd,
        tuningOf ["DG4016"] (emmcObject "/board/emmc")
          (tunedRegister ["DG4016"] (emmcObject "/board/emmc") factoryExtCsd)]
      (tunedRegister ["DG4016"] (emmcObject "/board/emmc")
        (tunedRegister ["DG4016"] (emmcObject "/board/emmc") factoryExtCsd)) :=
  tunings_write_once emmcRegister_contract
    (.cons (tunes_tuningOf _ _ _) (.cons (tunes_tuningOf _ _ _) (.nil _)))

end Estoraged

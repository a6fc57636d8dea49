import Estoraged.NamedVolume

/-!
# The handles of libcryptsetup

A `crypt_device` is freed by the `CryptHandle` that owns it and must not be used before a
header was loaded or written, nor after the free. The requests keep to this on every way
out, and between opening a handle and freeing it they make no other call than those on it.
-/

namespace Estoraged
open Interaction
set_option autoImplicit false

/-- No handle is open, or the one open holds `cd`, or holds a device with its header. -/
inductive HandlePhase where
  | closed
  | opened (cd : Option CryptDevice)
  | loaded (cd : CryptDevice)
deriving DecidableEq, Repr

namespace Names

/-- The calls made while no handle is open, each on what belongs to the object. -/
def Outside (self : Names) : HostCall → Prop
  | .randBytes _ => True
  | .cryptInit device => device = self.devPath
  | .cryptDeactivate name => name = self.containerName
  | .pathExists path => path = self.cryptDevicePath
  | .runMkfs path options => path = self.cryptDevicePath ∧ options = ["-E", "discard"]
  | .runFsck path options => path = self.cryptDevicePath ∧ options = "-t ext4 -p"
  | .directoryExists path => path = self.mountPoint
  | .createDirectory path => path = self.mountPoint
  | .doMount source target filesystemtype mountflags =>
    source = self.cryptDevicePath ∧ target = self.mountPoint ∧ filesystemtype = "ext4" ∧
      mountflags = 0
  | .doUnmount target => target = self.mountPoint
  | .removeDirectory path => path = self.mountPoint
  | .eraseDevice devPath _ => devPath = self.devPath
  | _ => False

/-- The calls made on a device whose header is in memory. -/
def OnHeader (self : Names) (cd : CryptDevice) : HostCall → Prop
  | .cryptKeyslotAddByVolumeKey cd' keyslot _ => cd' = cd ∧ keyslot = cryptAnySlot
  | .cryptKeyslotChangeByPassphrase cd' keyslotOld keyslotNew _ _ =>
    cd' = cd ∧ keyslotOld = cryptAnySlot ∧ keyslotNew = cryptAnySlot
  | .cryptActivateByPassphrase cd' name keyslot _ flags =>
    cd' = cd ∧ name = self.containerName ∧ keyslot = cryptAnySlot ∧
      flags = cryptActivateAllowDiscards
  | .cryptKeySlotMax type => type = cryptLuks2
  | .cryptKeySlotStatus cd' _ => cd' = cd
  | .cryptKeyslotDestroy cd' _ => cd' = cd
  | _ => False

/-- The calls that bring the header into memory. -/
def OfHeader (cd : CryptDevice) : HostCall → Prop
  | .cryptLoad cd' requestedType => cd' = cd ∧ requestedType = cryptLuks2
  | .cryptFormat cd' type cipher cipherMode volumeKey =>
    cd' = cd ∧ type = cryptLuks2 ∧ cipher = "aes" ∧ cipherMode = "xts-plain64" ∧
      volumeKey.length = 64
  | _ => False

def protocol (self : Names) : Protocol hostPorts HandlePhase where
  allows
    | .closed, c => self.Outside c
    | .opened held, c => c = .cryptFree held ∨ ∃ cd, held = some cd ∧ OfHeader cd c
    | .loaded cd, c => c = .cryptFree (some cd) ∨ self.OnHeader cd c
  next
    | _, .cryptInit _, answer =>
      if answer.retval < 0 then .closed else .opened answer.cryptDev
    | _, .cryptFree _, _ => .closed
    | g, .cryptLoad cd _, retval => if 0 ≤ retval then .loaded cd else g
    | g, .cryptFormat cd _ _ _ _, retval => if 0 ≤ retval then .loaded cd else g
    | g, _, _ => g

/-- What holds of a value returned, and of the phase either way. -/
def Ends {α : Type} (Q : α → HandlePhase → Prop) (E : HandlePhase → Prop) :
    Except Exception α → HandlePhase → Prop
  | .ok a, g => Q a g
  | .error _, g => E g

abbrev Keeping {α : Type} (self : Names) (Q : α → HandlePhase → Prop) (E : HandlePhase → Prop)
    (p : HostM α) (g : HandlePhase) : Prop :=
  p.Follows self.protocol (Ends Q E) g

/-- No handle is left open. -/
abbrev Closes {α : Type} (self : Names) (p : HostM α) : Prop :=
  self.Keeping (fun _ g => g = .closed) (· = .closed) p .closed

section Keeping
variable {α β : Type} {self : Names} {Q : α → HandlePhase → Prop} {Q' : β → HandlePhase → Prop}
variable {E E' : HandlePhase → Prop} {g : HandlePhase}

theorem Keeping.bind {p : HostM α} {f : α → HostM β} (hp : self.Keeping Q E p g)
    (hf : ∀ a g', Q a g' → self.Keeping Q' E (f a) g') : self.Keeping Q' E (p >>= f) g :=
  Prog.Follows.bind hp hf fun _ _ h => h

theorem Closes.bind {p : HostM α} {f : α → HostM β} (hp : self.Closes p)
    (hf : ∀ a, self.Closes (f a)) : self.Closes (p >>= f) := by
  apply Keeping.bind hp
  rintro a _ rfl
  exact hf a

theorem Closes.tryCatch {p : HostM α} {handler : Exception → HostM α} (hp : self.Closes p)
    (hhandler : ∀ e, self.Closes (handler e)) :
    self.Closes (MonadExcept.tryCatch p handler) := by
  apply Prog.Follows.tryCatch hp
  · intro a g h
    exact h
  · rintro e _ rfl
    exact hhandler e

theorem keeping_throwIf {failed : Prop} [Decidable failed] {e : Exception} (herror : E g) :
    self.Keeping (fun _ g' => ¬failed ∧ g' = g) E (throwIf failed e) g := by
  unfold throwIf
  split
  · exact herror
  · next hfailed => exact ⟨hfailed, rfl⟩

theorem closes_throwIf {failed : Prop} [Decidable failed] {e : Exception} :
    self.Closes (throwIf failed e) := by
  unfold throwIf
  split <;> rfl

theorem closes_orThrow (answer : Except FilesystemError Bool) : self.Closes (orThrow answer) := by
  cases answer <;> rfl

/-- One call outside of handles. -/
theorem closes_ask {c : HostCall} {k : c.Ret → HostM α} (hc : self.Outside c)
    (hnext : ∀ r, self.protocol.next .closed c r = .closed) (hk : ∀ r, self.Closes (k r)) :
    self.Closes (bind (α := no_index c.Ret) (askHost c) k) := by
  refine ⟨hc, fun r => ?_⟩
  rw [hnext r]
  exact hk r

/-! ## Handles in scope -/

namespace CryptHandle
variable {cryptHandle : CryptHandle}

/-- The phases in which the handle is the open one. -/
def Held (cryptHandle : CryptHandle) (g : HandlePhase) : Prop :=
  g = .opened cryptHandle.cryptDev ∨ ∃ cd, cryptHandle.cryptDev = some cd ∧ g = .loaded cd

theorem keeping_init (device : String) (hdevice : device = self.devPath) :
    self.Keeping (fun cryptHandle g => g = .opened cryptHandle.cryptDev) (· = .closed)
      (init device) .closed := by
  refine ⟨hdevice, fun answer => ?_⟩
  simp only [Prog.bind, protocol, throwIf]
  split
  · rfl
  · rfl

theorem keeping_get (herror : E g) :
    self.Keeping (fun cd g' => cryptHandle.cryptDev = some cd ∧ g' = g) E
      cryptHandle.get g := by
  unfold get
  cases hcd : cryptHandle.cryptDev with
  | none => exact herror
  | some cd => exact ⟨rfl, rfl⟩

theorem keeping_free (hheld : cryptHandle.Held g) {f : Unit → HostM α}
    (hf : self.Keeping Q E (f ()) .closed) : self.Keeping Q E (cryptHandle.free >>= f) g := by
  refine ⟨?_, fun _ => hf⟩
  obtain rfl | ⟨cd, hcd, rfl⟩ := hheld
  · exact .inl rfl
  · exact .inl (by rw [hcd])

theorem keeping_unwinding {body : HostM α} (hbody : self.Keeping Q cryptHandle.Held body g) :
    self.Keeping Q (· = .closed) (cryptHandle.unwinding body) g := by
  apply Prog.Follows.tryCatch hbody
  · intro a g' h
    exact h
  · intro e g' hheld
    exact keeping_free hheld rfl

theorem keeping_scope {body : HostM α}
    (hbody : self.Keeping (fun _ => cryptHandle.Held) cryptHandle.Held body g) :
    self.Keeping (fun _ g' => g' = .closed) (· = .closed) (cryptHandle.scope body) g := by
  apply (keeping_unwinding hbody).bind
  intro a g' hheld
  exact keeping_free hheld rfl

theorem held_throwIf {failed : Prop} [Decidable failed] {e : Exception}
    (hheld : cryptHandle.Held g) :
    self.Keeping (fun _ => cryptHandle.Held) cryptHandle.Held (throwIf failed e) g := by
  unfold throwIf
  split <;> exact hheld

/-- A call on the header of the open handle. -/
theorem keeping_onHeader {cd : CryptDevice} {c : HostCall} {k : c.Ret → HostM α}
    (hc : self.OnHeader cd c) (hnext : ∀ r, self.protocol.next (.loaded cd) c r = .loaded cd)
    (hk : ∀ r, self.Keeping Q E (k r) (.loaded cd)) :
    self.Keeping Q E (bind (α := no_index c.Ret) (askHost c) k) (.loaded cd) := by
  refine ⟨.inr hc, fun r => ?_⟩
  rw [hnext r]
  exact hk r

end CryptHandle

end Keeping

section Functions
variable (self : Names)

/-- The phase in which a loaded handle is handed over. -/
def Loaded (cryptHandle : CryptHandle) (g : HandlePhase) : Prop :=
  ∃ cd, cryptHandle.cryptDev = some cd ∧ g = .loaded cd

theorem closes_formatLuksDev (password : Password) :
    self.Closes (self.formatLuksDev password) := by
  refine closes_ask trivial (fun _ => rfl) fun generated => ?_
  apply closes_throwIf.bind
  intro _
  apply (CryptHandle.keeping_init self.devPath rfl).bind
  rintro cryptHandle _ rfl
  apply CryptHandle.keeping_scope
  apply (CryptHandle.keeping_get (.inl rfl)).bind
  rintro cd _ ⟨hcd, rfl⟩
  refine ⟨.inr ⟨cd, hcd, rfl, rfl, rfl, rfl, generated.2.2⟩, fun retval => ?_⟩
  have hheld : cryptHandle.Held (self.protocol.next (.opened cryptHandle.cryptDev)
      (.cryptFormat cd cryptLuks2 "aes" "xts-plain64" generated.2.1) retval) := by
    dsimp only [protocol]
    split
    · exact .inr ⟨cd, hcd, rfl⟩
    · exact .inl rfl
  apply (keeping_throwIf hheld).bind
  rintro _ _ ⟨hdone, rfl⟩
  have hphase : self.protocol.next (.opened cryptHandle.cryptDev)
      (.cryptFormat cd cryptLuks2 "aes" "xts-plain64" generated.2.1) retval = .loaded cd :=
    if_pos (not_lt.mp hdone)
  rw [hphase] at hheld ⊢
  apply (CryptHandle.keeping_get hheld).bind
  rintro cd' _ ⟨hcd', rfl⟩
  obtain rfl := Option.some.inj (hcd.symm.trans hcd')
  refine CryptHandle.keeping_onHeader ⟨rfl, rfl⟩ (fun _ => rfl) fun retval => ?_
  exact CryptHandle.held_throwIf hheld

/-- The load of a header, for both who go on with a non-negative result and who want zero. -/
theorem keeping_load {α : Type} {cryptHandle : CryptHandle} (failed : Int → Prop)
    [DecidablePred failed] {e : Exception} {body : CryptDevice → HostM α}
    {Q : α → HandlePhase → Prop} (hfailed : ∀ retval, ¬failed retval → 0 ≤ retval)
    (hbody : ∀ cd, cryptHandle.cryptDev = some cd →
      self.Keeping Q cryptHandle.Held (body cd) (.loaded cd)) :
    self.Keeping Q cryptHandle.Held
      (do
        let cd ← cryptHandle.get
        let retval : Int ← askHost (.cryptLoad cd cryptLuks2)
        throwIf (failed retval) e
        body cd)
      (.opened cryptHandle.cryptDev) := by
  apply (CryptHandle.keeping_get (.inl rfl)).bind
  rintro cd _ ⟨hcd, rfl⟩
  refine ⟨.inr ⟨cd, hcd, rfl, rfl⟩, fun retval => ?_⟩
  have hheld : cryptHandle.Held (self.protocol.next (.opened cryptHandle.cryptDev)
      (.cryptLoad cd cryptLuks2) retval) := by
    dsimp only [protocol]
    split
    · exact .inr ⟨cd, hcd, rfl⟩
    · exact .inl rfl
  apply (keeping_throwIf hheld).bind
  rintro _ _ ⟨hdone, rfl⟩
  have hphase : self.protocol.next (.opened cryptHandle.cryptDev)
      (.cryptLoad cd cryptLuks2) retval = .loaded cd := if_pos (hfailed retval hdone)
  rw [hphase]
  exact hbody cd hcd

theorem keeping_loadLuksHeader :
    self.Keeping Loaded (· = .closed) self.loadLuksHeader .closed := by
  apply (CryptHandle.keeping_init self.devPath rfl).bind
  rintro cryptHandle _ rfl
  apply CryptHandle.keeping_unwinding
  apply self.keeping_load (fun retval => retval < 0) (fun _ => not_lt.mp)
  intro cd hcd
  exact ⟨cd, hcd, rfl⟩

theorem closes_activateLuksDev (password : Password) :
    self.Closes (self.activateLuksDev password) := by
  apply self.keeping_loadLuksHeader.bind
  rintro cryptHandle _ ⟨cd, hcd, rfl⟩
  have hheld : cryptHandle.Held (.loaded cd) := .inr ⟨cd, hcd, rfl⟩
  apply CryptHandle.keeping_scope
  apply (CryptHandle.keeping_get hheld).bind
  rintro cd' _ ⟨hcd', rfl⟩
  obtain rfl := Option.some.inj (hcd.symm.trans hcd')
  refine CryptHandle.keeping_onHeader ⟨rfl, rfl, rfl, rfl⟩ (fun _ => rfl) fun retval => ?_
  exact CryptHandle.held_throwIf hheld

theorem closes_changePassword (oldPassword newPassword : Password) :
    self.Closes (self.changePassword oldPassword newPassword) := by
  apply self.keeping_loadLuksHeader.bind
  rintro cryptHandle _ ⟨cd, hcd, rfl⟩
  have hheld : cryptHandle.Held (.loaded cd) := .inr ⟨cd, hcd, rfl⟩
  apply CryptHandle.keeping_scope
  apply (CryptHandle.keeping_get hheld).bind
  rintro cd' _ ⟨hcd', rfl⟩
  obtain rfl := Option.some.inj (hcd.symm.trans hcd')
  refine CryptHandle.keeping_onHeader ⟨rfl, rfl, rfl⟩ (fun _ => rfl) fun retval => ?_
  exact CryptHandle.held_throwIf hheld

theorem closes_createFilesystem : self.Closes self.createFilesystem :=
  closes_ask ⟨rfl, rfl⟩ (fun _ => rfl) fun _ => closes_throwIf

theorem closes_prepareMountPoint : self.Closes self.prepareMountPoint := by
  refine closes_ask rfl (fun _ => rfl) fun answer => ?_
  apply (closes_orThrow answer).bind
  intro present
  cases present with
  | true => rfl
  | false =>
    refine closes_ask rfl (fun _ => rfl) fun created => ?_
    exact (closes_orThrow created).bind fun _ => closes_throwIf

theorem closes_mountFilesystem : self.Closes self.mountFilesystem := by
  refine closes_ask ⟨rfl, rfl⟩ (fun _ => rfl) fun _ => closes_throwIf.bind fun _ => ?_
  apply self.closes_prepareMountPoint.bind
  intro _
  refine closes_ask ⟨rfl, rfl, rfl, rfl⟩ (fun _ => rfl) fun retval => ?_
  split
  · refine closes_ask rfl (fun _ => rfl) fun removed => ?_
    exact (closes_orThrow removed).bind fun _ => rfl
  · rfl

theorem closes_deactivateLuksDev : self.Closes self.deactivateLuksDev :=
  closes_ask rfl (fun _ => rfl) fun _ => closes_throwIf

theorem closes_mountFilesystemLockOnError (lockOnError : Bool) :
    self.Closes (self.mountFilesystemLockOnError lockOnError) := by
  apply self.closes_mountFilesystem.tryCatch
  intro e
  unfold lockOnMountError
  cases e.runtimeWhat with
  | none => rfl
  | some what =>
    dsimp only
    split
    · cases lockOnError with
      | true => exact self.closes_deactivateLuksDev.bind fun _ => rfl
      | false => rfl
    · rfl

theorem closes_lock : self.Closes self.lock := by
  refine Closes.bind ?_ fun _ => self.closes_deactivateLuksDev
  refine closes_ask rfl (fun _ => rfl) fun _ => closes_throwIf.bind fun _ => ?_
  refine closes_ask rfl (fun _ => rfl) fun removed => ?_
  exact (closes_orThrow removed).bind fun _ => closes_throwIf

theorem closes_isLocked : self.Closes self.isLocked := by
  refine Closes.tryCatch (closes_ask rfl (fun _ => rfl) fun answer => ?_) fun _ => rfl
  exact (closes_orThrow answer).bind fun _ => rfl

theorem closes_findEncryptionStatus : self.Closes self.findEncryptionStatus := by
  refine Closes.tryCatch (self.keeping_loadLuksHeader.bind ?_) fun _ => rfl
  rintro cryptHandle g hloaded
  exact CryptHandle.keeping_free (.inr hloaded) rfl

/-- The loop stays on the header that was loaded. -/
theorem keeping_destroyKeyslots {cryptHandle : CryptHandle} {cd : CryptDevice}
    (hcd : cryptHandle.cryptDev = some cd) (n i : Nat) (keySlotIssue : Bool) :
    self.Keeping (fun _ => cryptHandle.Held) cryptHandle.Held
      (destroyKeyslots cryptHandle n i keySlotIssue) (.loaded cd) := by
  have hheld : cryptHandle.Held (.loaded cd) := .inr ⟨cd, hcd, rfl⟩
  induction n generalizing i keySlotIssue with
  | zero => exact hheld
  | succ n ih =>
    apply (CryptHandle.keeping_get hheld).bind
    rintro cd' _ ⟨hcd', rfl⟩
    obtain rfl := Option.some.inj (hcd.symm.trans hcd')
    refine CryptHandle.keeping_onHeader rfl (fun _ => rfl) fun ki => ?_
    split
    · apply (CryptHandle.keeping_get hheld).bind
      rintro cd' _ ⟨hcd'', rfl⟩
      obtain rfl := Option.some.inj (hcd.symm.trans hcd'')
      exact CryptHandle.keeping_onHeader rfl (fun _ => rfl) fun _ => ih _ _
    · exact ih _ _

theorem closes_doErase : self.Closes self.doErase := by
  apply (CryptHandle.keeping_init self.devPath rfl).bind
  rintro cryptHandle _ rfl
  apply CryptHandle.keeping_scope
  apply self.keeping_load (fun retval => retval ≠ 0)
  · intro retval hretval
    exact (not_not.mp hretval).ge
  · intro cd hcd
    have hheld : cryptHandle.Held (.loaded cd) := .inr ⟨cd, hcd, rfl⟩
    refine CryptHandle.keeping_onHeader rfl (fun _ => rfl) fun nKeySlots => ?_
    apply (keeping_throwIf hheld).bind
    rintro _ _ ⟨-, rfl⟩
    apply (keeping_throwIf hheld).bind
    rintro _ _ ⟨-, rfl⟩
    apply (self.keeping_destroyKeyslots hcd _ _ _).bind
    intro keySlotIssue g hheld
    exact CryptHandle.held_throwIf hheld

theorem closes_erase (inEraseMethod : EraseMethod) : self.Closes (self.erase inEraseMethod) := by
  cases inEraseMethod with
  | cryptoErase => exact self.closes_doErase
  | securedLocked =>
    apply self.closes_isLocked.bind
    intro locked
    cases locked with
    | true => rfl
    | false => exact self.closes_lock
  | _ =>
    refine closes_ask rfl (fun _ => rfl) fun answer => ?_
    cases answer <;> rfl

theorem closes_method (op : Op) : self.Closes (self.method op) := by
  cases op with
  | formatLuks password type =>
    apply closes_throwIf.bind
    intro _
    apply (self.closes_formatLuksDev password).bind
    intro _
    apply (self.closes_activateLuksDev password).bind
    intro _
    apply self.closes_createFilesystem.bind
    intro _
    exact self.closes_mountFilesystemLockOnError false
  | erase method => exact self.closes_erase method
  | lock => exact self.closes_lock
  | unlock password =>
    apply (self.closes_activateLuksDev password).bind
    intro _
    exact self.closes_mountFilesystemLockOnError true
  | changePassword oldPassword newPassword =>
    exact self.closes_changePassword oldPassword newPassword

theorem closes_request (request : Request) : self.Closes (self.request request) := by
  cases request with
  | method op => exact (self.closes_method op).bind fun _ => rfl
  | locked => exact self.closes_isLocked.bind fun _ => rfl
  | encryptionStatus => exact self.closes_findEncryptionStatus.bind fun _ => rfl

end Functions
end Names

/-! ## From opening to freeing -/

/-- Opens or frees a handle. -/
def HostCall.turns : HostCall → Bool
  | .cryptInit _ | .cryptFree _ => true
  | _ => false

/-- The device that a call is handed. -/
def HostCall.device? : HostCall → Option CryptDevice
  | .cryptFree cd => cd
  | .cryptFormat cd .. | .cryptKeyslotAddByVolumeKey cd .. | .cryptLoad cd ..
  | .cryptKeyslotChangeByPassphrase cd .. | .cryptActivateByPassphrase cd ..
  | .cryptKeySlotStatus cd _ | .cryptKeyslotDestroy cd _ => some cd
  | _ => none

/-- Needs the header of the device it is handed. -/
def HostCall.needsHeader : HostCall → Bool
  | .cryptKeyslotAddByVolumeKey .. | .cryptKeyslotChangeByPassphrase ..
  | .cryptActivateByPassphrase .. | .cryptKeySlotStatus .. | .cryptKeyslotDestroy .. => true
  | _ => false

section Traces
variable {σ : Type} {names : Names}

/-- A successful load or format. -/
inductive BringsHeader (cd : CryptDevice) : Event hostPorts σ → Prop where
  | load {s : σ} {retval : Int} :
      0 ≤ retval → BringsHeader cd ⟨s, .cryptLoad cd cryptLuks2, retval⟩
  | format {s : σ} {cipher cipherMode : String} {volumeKey : List UInt8} {retval : Int} :
      0 ≤ retval →
      BringsHeader cd ⟨s, .cryptFormat cd cryptLuks2 cipher cipherMode volumeKey, retval⟩

/-- `since` is all that came after the device file was opened last, nothing being freed. -/
def OpenedSince (names : Names) (held : Option CryptDevice) (past since : Trace hostPorts σ) :
    Prop :=
  ∃ before s answer, past = before ++ ⟨s, .cryptInit names.devPath, answer⟩ :: since ∧
    0 ≤ answer.retval ∧ answer.cryptDev = held ∧ ∀ ev ∈ since, ev.call.turns = false

/-- What the trace so far says of the phase it led to. -/
def HandlePhase.Reached (names : Names) (past : Trace hostPorts σ) : HandlePhase → Prop
  | .closed => True
  | .opened held => ∃ since, OpenedSince names held past since
  | .loaded cd => ∃ since, OpenedSince names (some cd) past since ∧ ∃ ev ∈ since, BringsHeader cd ev

/-- What becomes of the handles in a trace: a device is handed on after it was opened and
before it is freed only, to calls on the header after that was brought into memory, and
whatever was opened is freed with nothing but calls on it in between. -/
structure HandlesFreed (names : Names) (tr : Trace hostPorts σ) : Prop where
  used : ∀ past ev rest cd, tr = past ++ ev :: rest → ev.call.device? = some cd →
    ∃ since, OpenedSince names (some cd) past since ∧
      (ev.call.needsHeader = true → ∃ ev' ∈ since, BringsHeader cd ev')
  freed : ∀ past s device answer rest,
    tr = past ++ ⟨s, .cryptInit device, answer⟩ :: rest → 0 ≤ answer.retval →
    ∃ during s' after, rest = during ++ ⟨s', .cryptFree answer.cryptDev, ()⟩ :: after ∧
      ∀ ev ∈ during, ev.call.turns = false ∧
        (ev.call = .cryptKeySlotMax cryptLuks2 ∨
          ∃ cd, answer.cryptDev = some cd ∧ ev.call.device? = some cd)

theorem OpenedSince.snoc {held : Option CryptDevice} {past since : Trace hostPorts σ}
    (h : OpenedSince names held past since) (ev : Event hostPorts σ)
    (hev : ev.call.turns = false) : OpenedSince names held (past ++ [ev]) (since ++ [ev]) := by
  obtain ⟨before, s, answer, rfl, hretval, hheld, hsince⟩ := h
  refine ⟨before, s, answer, by simp, hretval, hheld, ?_⟩
  intro ev' hmem
  rcases List.mem_append.mp hmem with hmem | hmem
  · exact hsince ev' hmem
  · rwa [List.mem_singleton.mp hmem]

theorem HandlePhase.Reached.next (past : Trace hostPorts σ) (g : HandlePhase)
    (ev : Event hostPorts σ) (h : g.Reached names past)
    (hallows : names.protocol.allows g ev.call) :
    (names.protocol.next g ev.call ev.answer).Reached names (past ++ [ev]) := by
  obtain ⟨s, c, r⟩ := ev
  cases g with
  | closed =>
    cases c with
    | cryptInit device =>
      obtain rfl : device = names.devPath := hallows
      dsimp only [Names.protocol]
      split
      · trivial
      · next hretval => exact ⟨[], past, s, r, rfl, not_lt.mp hretval, rfl, by simp⟩
    | cryptFree | cryptFormat | cryptKeyslotAddByVolumeKey | cryptLoad
    | cryptKeyslotChangeByPassphrase | cryptActivateByPassphrase | cryptKeySlotMax
    | cryptKeySlotStatus | cryptKeyslotDestroy => exact hallows.elim
    | _ => trivial
  | opened held =>
    obtain ⟨since, hsince⟩ := h
    obtain rfl | ⟨cd, rfl, hof⟩ := hallows
    · trivial
    · cases c with
      | cryptLoad cd' requestedType =>
        obtain ⟨rfl, rfl⟩ := hof
        have hsnoc := hsince.snoc ⟨s, .cryptLoad cd' cryptLuks2, r⟩ rfl
        dsimp only [Names.protocol]
        split
        · next hretval =>
          exact ⟨_, hsnoc, _, List.mem_append_right _ List.mem_cons_self, .load hretval⟩
        · exact ⟨_, hsnoc⟩
      | cryptFormat cd' type cipher cipherMode volumeKey =>
        obtain ⟨rfl, rfl, -⟩ := hof
        have hsnoc := hsince.snoc
          ⟨s, .cryptFormat cd' cryptLuks2 cipher cipherMode volumeKey, r⟩ rfl
        dsimp only [Names.protocol]
        split
        · next hretval =>
          exact ⟨_, hsnoc, _, List.mem_append_right _ List.mem_cons_self, .format hretval⟩
        · exact ⟨_, hsnoc⟩
      | _ => exact hof.elim
  | loaded cd =>
    obtain ⟨since, hsince, ev', hmem, hbrings⟩ := h
    obtain rfl | hon := hallows
    · trivial
    · have hturns : c.turns = false := by
        cases c <;> first | rfl | exact hon.elim
      have hphase : names.protocol.next (.loaded cd) c r = .loaded cd := by
        cases c <;> first | rfl | exact hon.elim
      rw [hphase]
      exact ⟨_, hsince.snoc ⟨s, c, r⟩ hturns, ev', List.mem_append_left _ hmem, hbrings⟩

theorem reached_after {tr : Trace hostPorts σ} (h : names.protocol.Keeps .closed tr) :
    (names.protocol.after .closed tr).Reached names tr :=
  List.nil_append tr ▸ h.invariant trivial HandlePhase.Reached.next

/-- A device that a call is handed is the open one. -/
theorem used_reached {past : Trace hostPorts σ} {g : HandlePhase} {c : HostCall}
    {cd : CryptDevice} (h : g.Reached names past) (hallows : names.protocol.allows g c)
    (hdevice : c.device? = some cd) :
    ∃ since, OpenedSince names (some cd) past since ∧
      (c.needsHeader = true → ∃ ev' ∈ since, BringsHeader cd ev') := by
  cases g with
  | closed => cases c <;> first | exact hallows.elim | cases hdevice
  | opened held =>
    obtain ⟨since, hsince⟩ := h
    obtain rfl | ⟨cd', rfl, hof⟩ := hallows
    · obtain rfl : held = some cd := hdevice
      exact ⟨since, hsince, by simp [HostCall.needsHeader]⟩
    · cases c with
      | cryptLoad cd₁ _ | cryptFormat cd₁ _ _ _ _ =>
        obtain ⟨rfl, -⟩ := hof
        obtain rfl := Option.some.inj hdevice
        exact ⟨since, hsince, by simp [HostCall.needsHeader]⟩
      | _ => exact hof.elim
  | loaded cd' =>
    obtain ⟨since, hsince, hbrings⟩ := h
    have hcd : cd' = cd := by
      obtain rfl | hon := hallows
      · exact Option.some.inj hdevice
      · cases c with
        | cryptKeySlotStatus cd₁ _ | cryptKeyslotDestroy cd₁ _ =>
          obtain rfl : cd₁ = cd' := hon
          exact Option.some.inj hdevice
        | cryptKeyslotAddByVolumeKey cd₁ _ _ | cryptKeyslotChangeByPassphrase cd₁ _ _ _ _
        | cryptActivateByPassphrase cd₁ _ _ _ _ =>
          obtain ⟨rfl, -⟩ := hon
          exact Option.some.inj hdevice
        | cryptKeySlotMax _ => cases hdevice
        | _ => exact hon.elim
    subst hcd
    exact ⟨since, hsince, fun _ => hbrings⟩

/-- From an open handle on, a trace that ends closed frees it, and gets there with calls on
it only. -/
theorem freed_from {held : Option CryptDevice} {rest : Trace hostPorts σ} {g : HandlePhase}
    (hg : g = .opened held ∨ ∃ cd, held = some cd ∧ g = .loaded cd)
    (hkeeps : names.protocol.Keeps g rest) (hend : names.protocol.after g rest = .closed) :
    ∃ during s' after, rest = during ++ ⟨s', .cryptFree held, ()⟩ :: after ∧
      ∀ ev ∈ during, ev.call.turns = false ∧
        (ev.call = .cryptKeySlotMax cryptLuks2 ∨
          ∃ cd, held = some cd ∧ ev.call.device? = some cd) := by
  induction rest generalizing g with
  | nil =>
    obtain rfl | ⟨cd, -, rfl⟩ := hg <;> cases hend
  | cons ev rest ih =>
    obtain ⟨s, c, r⟩ := ev
    obtain ⟨hallows, hkeeps⟩ := hkeeps
    -- either the free itself, or a call on the device after which it is still open
    have hcall : c = .cryptFree held ∨
        (c.turns = false ∧ (c = .cryptKeySlotMax cryptLuks2 ∨
          ∃ cd, held = some cd ∧ c.device? = some cd) ∧
        (names.protocol.next g c r = .opened held ∨
          ∃ cd, held = some cd ∧ names.protocol.next g c r = .loaded cd)) := by
      obtain rfl | ⟨cd, rfl, rfl⟩ := hg
      · obtain rfl | ⟨cd, rfl, hof⟩ := hallows
        · exact .inl rfl
        · right
          cases c with
          | cryptLoad cd' _ | cryptFormat cd' _ _ _ _ =>
            obtain ⟨rfl, -⟩ := hof
            refine ⟨rfl, .inr ⟨cd', rfl, rfl⟩, ?_⟩
            dsimp only [Names.protocol]
            split
            · exact .inr ⟨cd', rfl, rfl⟩
            · exact .inl rfl
          | _ => exact hof.elim
      · obtain rfl | hon := hallows
        · exact .inl rfl
        · right
          cases c with
          | cryptKeySlotStatus cd' _ | cryptKeyslotDestroy cd' _ =>
            obtain rfl : cd' = cd := hon
            exact ⟨rfl, .inr ⟨_, rfl, rfl⟩, .inr ⟨_, rfl, rfl⟩⟩
          | cryptKeyslotAddByVolumeKey cd' _ _ | cryptKeyslotChangeByPassphrase cd' _ _ _ _
          | cryptActivateByPassphrase cd' _ _ _ _ =>
            obtain ⟨rfl, -⟩ := hon
            exact ⟨rfl, .inr ⟨_, rfl, rfl⟩, .inr ⟨_, rfl, rfl⟩⟩
          | cryptKeySlotMax type =>
            obtain rfl : type = cryptLuks2 := hon
            exact ⟨rfl, .inl rfl, .inr ⟨_, rfl, rfl⟩⟩
          | _ => exact hon.elim
    obtain rfl | ⟨hturns, hon, hnext⟩ := hcall
    · exact ⟨[], s, rest, rfl, by simp⟩
    · obtain ⟨during, s', after, rfl, hduring⟩ := ih hnext hkeeps hend
      refine ⟨⟨s, c, r⟩ :: during, s', after, rfl, ?_⟩
      exact List.forall_mem_cons.mpr ⟨⟨hturns, hon⟩, hduring⟩

theorem handlesFreed_of_keeps {tr : Trace hostPorts σ} (h : names.protocol.Keeps .closed tr)
    (hend : names.protocol.after .closed tr = .closed) : HandlesFreed names tr := by
  constructor
  · rintro past ev rest cd rfl hdevice
    obtain ⟨hpast, hallows, -⟩ := Protocol.keeps_append.mp h
    exact used_reached (reached_after hpast) hallows hdevice
  · rintro past s device answer rest rfl hretval
    obtain ⟨-, hallows, hrest⟩ := Protocol.keeps_append.mp h
    rw [Protocol.after_append] at hend
    have hphase : names.protocol.next (names.protocol.after .closed past) (.cryptInit device)
        answer = .opened answer.cryptDev := if_neg (not_lt.mpr hretval)
    have hend' : names.protocol.after (.opened answer.cryptDev) rest = .closed := by
      rw [← hphase]
      exact hend
    rw [hphase] at hrest
    exact freed_from (.inl rfl) hrest hend'

end Traces

/-- Whatever the calls answer, a request hands a device on only after it opened its own
device file and before it frees that device, and to calls on the header only after a
successful load or format; and it frees what it opened on every way out, having made no
other call in between. -/
theorem handles_freed_once {σ : Type} (names : Names) (request : Request)
    (env : Env hostPorts σ) (s : σ) :
    Ensures env (names.request request) s fun tr _ _ => HandlesFreed names tr := by
  refine ((names.closes_request request).ensures env s).mono ?_
  intro tr out s' h
  obtain ⟨hkeeps, hends⟩ := h
  apply handlesFreed_of_keeps hkeeps
  cases out with
  | ok reply => exact hends
  | error e => exact hends

end Estoraged

import Estoraged.MountSafety
import Estoraged.SoleEntry

/-!
# The keyslots

Which password opens the drive, over every run that begins with formatting. The
history of the run determines one current password; `nextCur` reads it off each
method call, and the keyslot table never holds anything else.
-/

namespace Estoraged
open Interaction SoleEntry
set_option autoImplicit false

def World.slot (w : World) (keyslot : Nat) : Option Password := w.keyslots[keyslot]?.getD none

/-! ## What is assumed of the keyslot calls -/

def Call.rekeys : Call → Bool
  | .cryptFormat | .cryptKeyslotAddByVolumeKey _ | .cryptKeyslotChangeByPassphrase _ _
  | .cryptKeyslotDestroy _ => true
  | _ => false

def Call.overwrites : Call → Bool
  | .eraseDevice method => method.overwrites
  | _ => false

/-- What libcryptsetup promises about the keyslot table. `status` only says that a slot in
use is reported as such, not that a reported slot is in use. -/
structure KeyslotContract (env : VolumeEnv) : Prop where
  frame : ∀ w c r w', env w c r w' → c.overwrites = false →
    (c.rekeys = true → c.succeeded r = false) → w'.slot = w.slot
  format : ∀ w (r : Int) w', env w .cryptFormat r w' → 0 ≤ r → ∀ i, w'.slot i = none
  add : ∀ w password (r : Int) w', env w (.cryptKeyslotAddByVolumeKey password) r w' → 0 ≤ r →
    ∃ i, w.slot i = none ∧ w'.slot = Function.update w.slot i (some password)
  change : ∀ w oldPassword newPassword (r : Int) w',
    env w (.cryptKeyslotChangeByPassphrase oldPassword newPassword) r w' → 0 ≤ r →
    ∃ i j, w.slot i = some oldPassword ∧ (j = i ∨ w.slot j = none) ∧
      w'.slot = Function.update (Function.update w.slot i none) j (some newPassword)
  activate : ∀ w password (r : Int) w', env w (.cryptActivateByPassphrase password) r w' →
    0 ≤ r → ∃ i, w.slot i = some password
  slotMax : ∀ w (r : Int) w', env w .cryptKeySlotMax r w' → 0 < r →
    ∀ i, (w.slot i).isSome → (i : Int) < r
  status : ∀ w i (ki : KeyslotInfo) w', env w (.cryptKeySlotStatus i) ki w' →
    (w.slot i).isSome → ki.working = true
  destroy : ∀ w i (r : Int) w', env w (.cryptKeyslotDestroy i) r w' → r = 0 →
    w'.slot = Function.update w.slot i none

theorem slot_set {w : World} {i : Nat} (hi : i < w.keyslots.length) (entry : Option Password) :
    World.slot { w with keyslots := w.keyslots.set i entry } =
      Function.update w.slot i entry := by
  funext j
  by_cases hne : j = i
  · subst hne
    simp [World.slot, hi]
  · simp [World.slot, Function.update_of_ne hne, List.getElem?_set_ne (Ne.symm hne)]

theorem slot_idxOf {w : World} {entry : Option Password} (h : entry ∈ w.keyslots) :
    w.slot (w.keyslots.idxOf entry) = entry := by
  simp [World.slot, List.getElem?_idxOf h]

theorem lt_of_slot {w : World} {i : Nat} (h : (w.slot i).isSome) : i < w.keyslots.length := by
  by_contra hge
  simp [World.slot, List.getElem?_eq_none (Nat.le_of_not_lt hge)] at h

theorem ruled_effect {w w' : World} {c : Call} {r : c.Ret} (h : ruled w c r w')
    (hoverwrites : c.overwrites = false) : w' = c.effect r w := by
  rcases h.2 with heffect | ⟨⟨method, hmethod, rfl⟩, _⟩
  · exact heffect
  · simp [Call.overwrites, hmethod] at hoverwrites

theorem ruled_succeeded {w w' : World} {c : Call} {r : c.Ret} (h : ruled w c r w')
    (hoverwrites : c.overwrites = false) (hdone : c.succeeded r = true) :
    w.allows c = true ∧ w.agrees c r = true ∧ w' = c.done r w := by
  obtain ⟨hallows, hagrees⟩ := h.1 hdone
  exact ⟨hallows, hagrees, (ruled_effect h hoverwrites).trans (Call.effect_succeeded hdone w)⟩

theorem ruled_keyslotContract : KeyslotContract ruled where
  frame := by
    intro w c r w' h hoverwrites hfailed
    rw [ruled_effect h hoverwrites]
    cases hdone : c.succeeded r with
    | false => rw [Call.effect_failed hdone]
    | true =>
      rw [Call.effect_succeeded hdone]
      cases c <;> first | rfl | simp [hfailed rfl] at hdone
  format := by
    intro w r w' h hr i
    obtain ⟨-, -, rfl⟩ := ruled_succeeded h rfl (by simpa [Call.succeeded] using hr)
    simp only [World.slot, Call.done, List.getElem?_map]
    cases w.keyslots[i]? <;> rfl
  add := by
    intro w password r w' h hr
    obtain ⟨-, hagrees, rfl⟩ := ruled_succeeded h rfl (by simpa [Call.succeeded] using hr)
    have hfree : w.keyslots[r.toNat]? = some none := by simpa [World.agrees] using hagrees
    obtain ⟨hlt, -⟩ := List.getElem?_eq_some_iff.mp hfree
    exact ⟨r.toNat, by simp [World.slot, hfree], slot_set hlt _⟩
  change := by
    intro w oldPassword newPassword r w' h hr
    obtain ⟨hallows, hagrees, rfl⟩ := ruled_succeeded h rfl (by simpa [Call.succeeded] using hr)
    have hmem : some oldPassword ∈ w.keyslots := by
      simp only [World.allows, Bool.and_eq_true, decide_eq_true_eq] at hallows
      exact hallows.2
    have hold : w.slot (w.keyslots.idxOf (some oldPassword)) = some oldPassword := slot_idxOf hmem
    have hlt : w.keyslots.idxOf (some oldPassword) < w.keyslots.length :=
      List.idxOf_lt_length_of_mem hmem
    have hplace : r.toNat = w.keyslots.idxOf (some oldPassword) ∨
        w.keyslots[r.toNat]? = some none := by
      simpa [World.agrees] using hagrees
    refine ⟨_, r.toNat, hold, hplace.imp_right fun hfree => by simp [World.slot, hfree], ?_⟩
    have hlt' : r.toNat < w.keyslots.length := by
      rcases hplace with heq | hfree
      · rwa [heq]
      · exact (List.getElem?_eq_some_iff.mp hfree).1
    rw [← slot_set hlt none]
    exact slot_set (w := { w with keyslots := _ }) (by simpa using hlt') _
  activate := by
    intro w password r w' h hr
    obtain ⟨hallows, -, -⟩ := ruled_succeeded h rfl (by simpa [Call.succeeded] using hr)
    have hmem : some password ∈ w.keyslots := by
      simp only [World.allows, Bool.and_eq_true, decide_eq_true_eq] at hallows
      exact hallows.1.2
    exact ⟨_, slot_idxOf hmem⟩
  slotMax := by
    intro w r w' h hr i hi
    obtain ⟨-, hagrees, -⟩ := ruled_succeeded h rfl (by simpa [Call.succeeded] using hr)
    have hlength : r = w.keyslots.length := by simpa [World.agrees] using hagrees
    have hlt := lt_of_slot hi
    omega
  status := by
    intro w i ki w' h hi
    have hagrees : w.agrees (.cryptKeySlotStatus i) ki = true := (h.1 rfl).2
    have hworking : ki.working = (w.slot i).isSome := by
      simpa [World.agrees, World.slot] using hagrees
    rw [hworking, hi]
  destroy := by
    rintro w i r w' h rfl
    obtain ⟨-, -, rfl⟩ := ruled_succeeded h rfl rfl
    by_cases hlt : i < w.keyslots.length
    · exact slot_set hlt none
    · have hnone : w.slot i = none := by
        simp [World.slot, List.getElem?_eq_none (Nat.le_of_not_lt hlt)]
      have hsame : w.keyslots.set i none = w.keyslots :=
        List.set_eq_of_length_le (Nat.le_of_not_lt hlt)
      rw [← hnone, Function.update_eq_self]
      simp [Call.done, hsame]

/-! ## Calls that leave the keyslots alone -/

def Call.plain (c : Call) : Prop := c.rekeys = false ∧ c.overwrites = false

def Call.wipes (c : Call) : Prop := c.plain ∨ ∃ keyslot, c = .cryptKeyslotDestroy keyslot

theorem CryptHandle.init_plain : CryptHandle.init.Uses Call.plain := by
  simp [CryptHandle.init, Call.plain, Call.rekeys, Call.overwrites]

theorem CryptHandle.get_plain (cryptHandle : CryptHandle) : cryptHandle.get.Uses Call.plain := by
  simp [CryptHandle.get]

theorem CryptHandle.get_present (cryptHandle : CryptHandle) (h : cryptHandle.cryptDev = true) :
    cryptHandle.get = .ret () := by
  simp [CryptHandle.get, throwIf, h]

theorem loadLuksHeader_plain : loadLuksHeader.Uses Call.plain := by
  refine CryptHandle.init_plain.bind fun cryptHandle => (cryptHandle.get_plain).bind fun _ => ?_
  simp [Call.plain, Call.rekeys, Call.overwrites]

theorem activateLuksDev_plain (password : Password) :
    (activateLuksDev password).Uses Call.plain :=
  loadLuksHeader_plain.bind fun cryptHandle => (cryptHandle.get_plain).bind fun _ =>
    ⟨⟨rfl, rfl⟩, fun _ => uses_throwIf⟩

theorem createFilesystem_plain : createFilesystem.Uses Call.plain :=
  ⟨⟨rfl, rfl⟩, fun _ => uses_throwIf⟩

theorem orThrow_uses {N : Call → Prop} (answer : Except FilesystemError Bool) :
    (orThrow answer).Uses N := by
  cases answer <;> trivial

theorem prepareMountPoint_plain : prepareMountPoint.Uses Call.plain := by
  refine ⟨⟨rfl, rfl⟩, fun answer => (orThrow_uses answer).bind fun present => ?_⟩
  cases present with
  | true => trivial
  | false =>
    exact ⟨⟨rfl, rfl⟩, fun created => (orThrow_uses created).bind fun _ => uses_throwIf⟩

theorem mountFilesystem_plain : mountFilesystem.Uses Call.plain := by
  refine ⟨⟨rfl, rfl⟩, fun _ => uses_throwIf.bind fun _ => prepareMountPoint_plain.bind fun _ => ?_⟩
  refine ⟨⟨rfl, rfl⟩, fun retval => ?_⟩
  simp only [Prog.bind]
  split
  · exact ⟨⟨rfl, rfl⟩, fun removed => (orThrow_uses removed).bind fun _ => trivial⟩
  · trivial

theorem deactivateLuksDev_plain : deactivateLuksDev.Uses Call.plain :=
  ⟨⟨rfl, rfl⟩, fun _ => uses_throwIf⟩

theorem mountFilesystemLockOnError_plain (lockOnError : Bool) :
    (mountFilesystemLockOnError lockOnError).Uses Call.plain := by
  apply mountFilesystem_plain.tryCatch
  intro e
  unfold lockOnMountError
  split
  · split
    · cases lockOnError with
      | true => exact deactivateLuksDev_plain.bind fun _ => Prog.uses_throw _
      | false => trivial
    · trivial
  · trivial

theorem lock_plain : lock.Uses Call.plain := by
  refine Prog.Uses.bind ?_ fun _ => deactivateLuksDev_plain
  refine ⟨⟨rfl, rfl⟩, fun _ => uses_throwIf.bind fun _ => ⟨⟨rfl, rfl⟩, fun removed => ?_⟩⟩
  exact (orThrow_uses removed).bind fun _ => uses_throwIf

theorem isLocked_plain : isLocked.Uses Call.plain := by
  refine Prog.Uses.tryCatch ⟨⟨rfl, rfl⟩, fun answer => ?_⟩ fun _ => trivial
  exact (orThrow_uses answer).bind fun _ => trivial

theorem erase_plain {method : EraseMethod} (hcrypto : method ≠ .cryptoErase)
    (hoverwrites : method.overwrites = false) : (erase method).Uses Call.plain := by
  cases method with
  | cryptoErase => exact absurd rfl hcrypto
  | securedLocked =>
    apply isLocked_plain.bind
    intro locked
    cases locked with
    | true => trivial
    | false => exact lock_plain
  | _ => exact ⟨⟨rfl, hoverwrites⟩, fun answer => by cases answer <;> trivial⟩

theorem destroyKeyslots_wipes (cryptHandle : CryptHandle) (n i : Nat) (keySlotIssue : Bool) :
    (destroyKeyslots cryptHandle n i keySlotIssue).Uses Call.wipes := by
  have hget : cryptHandle.get.Uses Call.wipes := cryptHandle.get_plain.mono fun _ => .inl
  induction n generalizing i keySlotIssue with
  | zero => trivial
  | succ n ih =>
    refine hget.bind fun _ => ⟨.inl ⟨rfl, rfl⟩, fun ki => ?_⟩
    simp only [Prog.bind]
    split
    · exact hget.bind fun _ => ⟨.inr ⟨i, rfl⟩, fun _ => ih _ _⟩
    · exact ih _ _

theorem doErase_wipes : doErase.Uses Call.wipes := by
  refine (CryptHandle.init_plain.mono fun _ => .inl).bind fun cryptHandle => ?_
  refine (cryptHandle.get_plain.mono fun _ => .inl).bind fun _ => ⟨.inl ⟨rfl, rfl⟩, fun _ => ?_⟩
  refine uses_throwIf.bind fun _ => ⟨.inl ⟨rfl, rfl⟩, fun nKeySlots => ?_⟩
  refine uses_throwIf.bind fun _ => uses_throwIf.bind fun _ => ?_
  exact (destroyKeyslots_wipes ..).bind fun _ => uses_throwIf

/-! ## The current password -/

def did (tr : VolumeTrace) (c : Call) : Bool :=
  tr.any fun ev => ev.call == c && ev.call.succeeded ev.answer

/-- The event destroyed a keyslot that held a passphrase. -/
def destroysKey (ev : Event ports World) : Bool :=
  match ev with
  | ⟨w, .cryptKeyslotDestroy keyslot, r⟩ => r == (0 : Int) && (w.slot keyslot).isSome
  | _ => false

/-- The event reported a free keyslot as one in use. -/
def overstates (ev : Event ports World) : Bool :=
  match ev with
  | ⟨w, .cryptKeySlotStatus keyslot, ki⟩ => KeyslotInfo.working ki && (w.slot keyslot).isNone
  | _ => false

/-- The password that opens the drive after a method call, if one did before. -/
def nextCur (cur : Option Password) (l : Performed) : Option Password :=
  match l.op with
  | .formatLuks password _ =>
    if did l.trace .cryptFormat then
      if did l.trace (.cryptKeyslotAddByVolumeKey password) then some password else none
    else cur
  | .changePassword _ newPassword => if l.out.isOk then some newPassword else cur
  | .erase .cryptoErase => if l.out.isOk || l.trace.any destroysKey then none else cur
  | _ => cur

variable {tr tr' : VolumeTrace}

@[simp] theorem did_nil (c : Call) : did [] c = false := rfl

@[simp] theorem did_cons (ev : Event ports World) (c : Call) :
    did (ev :: tr) c = ((ev.call == c && ev.call.succeeded ev.answer) || did tr c) := rfl

@[simp] theorem did_append (c : Call) : did (tr ++ tr') c = (did tr c || did tr' c) :=
  List.any_append

theorem foldl_wipe (tr : VolumeTrace) (cur : Option Password) :
    tr.foldl (fun cur ev => if destroysKey ev then none else cur) cur =
      if tr.any destroysKey then none else cur := by
  induction tr generalizing cur with
  | nil => rfl
  | cons ev tr ih =>
    rw [List.foldl_cons, ih, List.any_cons]
    cases destroysKey ev <;> cases tr.any destroysKey <;> rfl

theorem did_plain {tr : VolumeTrace} (htr : ∀ ev ∈ tr, Call.plain ev.call) {c : Call}
    (hc : c.rekeys = true) : did tr c = false := by
  apply List.any_eq_false.mpr
  intro ev hev
  have hne : ev.call ≠ c := by
    rintro rfl
    simp [(htr ev hev).1] at hc
  simp [hne]

theorem any_destroysKey_plain {tr : VolumeTrace} (htr : ∀ ev ∈ tr, Call.plain ev.call) :
    tr.any destroysKey = false := by
  apply List.any_eq_false.mpr
  intro ev hev
  rcases ev with ⟨w, c, r⟩
  have hplain := htr _ hev
  cases c <;> simp_all [destroysKey, Call.plain, Call.rekeys]

/-! ## What each function does to the keyslots -/

section Specs
variable {env : VolumeEnv} (hc : KeyslotContract env)
include hc

theorem KeyslotContract.plain_slot {w w' : World} {c : Call} {r : c.Ret} (h : env w c r w')
    (hplain : c.plain) : w'.slot = w.slot :=
  hc.frame w c r w' h hplain.2 fun hrekeys => by simp [hplain.1] at hrekeys

theorem plain_spec {α : Type} {p : M α} (hp : p.Uses Call.plain) (w : World) :
    Ensures env p w fun tr _ w' => w'.slot = w.slot ∧
      ∀ ev ∈ tr, Call.plain ev.call ∧ ev.before.slot = w.slot := by
  have hcall : ∀ w₁ c r w₂, Call.plain c → w₁.slot = w.slot → env w₁ c r w₂ →
      w₂.slot = w.slot := by
    intro w₁ c r w₂ hplain hw₁ h
    exact (hc.plain_slot h hplain).trans hw₁
  exact hp.ensures hcall rfl

theorem plain_bind {α β : Type} {p : M α} (hp : p.Uses Call.plain) {f : α → M β} {w : World}
    {Q : VolumeTrace → Except Exception β → World → Prop}
    (hok : ∀ tr a w₁, w₁.slot = w.slot → (∀ ev ∈ tr, Call.plain ev.call) →
      Ensures env (f a) w₁ fun tr' out w' => Q (tr ++ tr') out w')
    (herror : ∀ tr e w₁, w₁.slot = w.slot → (∀ ev ∈ tr, Call.plain ev.call) →
      Q tr (.error e) w₁) :
    Ensures env (p >>= f) w Q :=
  Ensures.bind (plain_spec hc hp w)
    (fun tr a w₁ h => hok tr a w₁ h.1 fun ev hev => (h.2 ev hev).1)
    (fun tr e w₁ h => herror tr e w₁ h.1 fun ev hev => (h.2 ev hev).1)

/-- An activation that returns normally found its password in a keyslot. -/
theorem activateLuksDev_slot (password : Password) (w : World) :
    Ensures env (activateLuksDev password) w fun _ out _ =>
      out.isOk = true → ∃ i, w.slot i = some password := by
  refine plain_bind hc loadLuksHeader_plain ?_ fun tr e w₁ _ _ hok => by cases hok
  intro tr cryptHandle w₁ hw₁ _
  refine plain_bind hc cryptHandle.get_plain ?_ fun tr e w₁ _ _ hok => by cases hok
  intro tr' _ w₂ hw₂ _
  simp only [ensures_ask_bind, ensures_throwIf]
  intro r w₃ hr
  split
  · rintro ⟨⟩
  · rename_i hpos
    rw [← hw₁, ← hw₂]
    exact fun _ => hc.activate _ _ _ _ hr (Int.not_lt.mp hpos)

theorem unlock_slot (password : Password) (w : World) :
    Ensures env (unlock password) w fun _ out _ =>
      out.isOk = true → ∃ i, w.slot i = some password := by
  refine Ensures.bind (activateLuksDev_slot hc password w) ?_ fun tr e w₁ _ hok => by cases hok
  intro tr _ w₁ hslot
  exact fun _ _ _ _ _ => hslot rfl

theorem changePassword_slot (oldPassword newPassword : Password) (w : World) :
    Ensures env (changePassword oldPassword newPassword) w fun _ out w' =>
      if out.isOk then ∃ i j, w.slot i = some oldPassword ∧ (j = i ∨ w.slot j = none) ∧
        w'.slot = Function.update (Function.update w.slot i none) j (some newPassword)
      else w'.slot = w.slot := by
  refine plain_bind hc loadLuksHeader_plain ?_ fun tr e w₁ hw₁ _ => hw₁
  intro tr cryptHandle w₁ hw₁ _
  refine plain_bind hc cryptHandle.get_plain ?_ fun tr e w₂ hw₂ _ => hw₂.trans hw₁
  intro tr' _ w₂ hw₂ _
  simp only [ensures_ask_bind, ensures_throwIf]
  intro r w₃ hr
  split
  · rename_i hneg
    have hfailed : Call.succeeded (.cryptKeyslotChangeByPassphrase oldPassword newPassword) r =
        false := by
      simpa [Call.succeeded] using hneg
    exact ((hc.frame _ _ _ _ hr rfl fun _ => hfailed).trans hw₂).trans hw₁
  · rename_i hpos
    rw [← hw₁, ← hw₂]
    exact hc.change _ _ _ _ _ hr (Int.not_lt.mp hpos)

/-- The keyslots after a format that may have stopped at any call. -/
def Reformatted (password : Password) (w : World) (tr : VolumeTrace) (w' : World) : Prop :=
  if did tr .cryptFormat then
    Sole w'.slot (if did tr (.cryptKeyslotAddByVolumeKey password) then some password else none)
  else w'.slot = w.slot

omit hc in
theorem Reformatted.surrounded {password : Password} {w w₁ w₂ w' : World}
    {before tr after : VolumeTrace} (h : Reformatted password w₁ tr w₂)
    (hbefore : ∀ ev ∈ before, Call.plain ev.call) (hafter : ∀ ev ∈ after, Call.plain ev.call)
    (hw₁ : w₁.slot = w.slot) (hw₂ : w'.slot = w₂.slot) :
    Reformatted password w (before ++ (tr ++ after)) w' := by
  have hformat := did_plain hbefore (c := .cryptFormat) rfl
  have hadd := did_plain hbefore (c := .cryptKeyslotAddByVolumeKey password) rfl
  have hformat' := did_plain hafter (c := .cryptFormat) rfl
  have hadd' := did_plain hafter (c := .cryptKeyslotAddByVolumeKey password) rfl
  simpa [Reformatted, hformat, hadd, hformat', hadd', ← hw₁, hw₂] using h

theorem formatAndAdd_slot (cryptHandle : CryptHandle) (password : Password) (w : World) :
    Ensures env (do
        let retval : Int ← ask .cryptFormat
        throwIf (retval < 0) .internalFailure
        cryptHandle.get
        let retval : Int ← ask (.cryptKeyslotAddByVolumeKey password)
        throwIf (retval < 0) .internalFailure) w fun tr out w' =>
      Reformatted password w tr w' ∧ (out.isOk = true → did tr .cryptFormat = true ∧
        did tr (.cryptKeyslotAddByVolumeKey password) = true) := by
  simp only [ensures_ask_bind, ensures_throwIf_bind]
  intro formatted w₁ hformat
  split
  · rename_i hneg
    have hfailed : Call.succeeded .cryptFormat formatted = false := by
      simpa [Call.succeeded] using hneg
    have hw₁ : w₁.slot = w.slot := hc.frame _ _ _ _ hformat rfl fun _ => hfailed
    exact ⟨by simpa [Reformatted, hfailed] using hw₁, fun hok => by cases hok⟩
  · rename_i hpos
    have hdone : Call.succeeded .cryptFormat formatted = true := by
      simpa [Call.succeeded] using hpos
    have hempty : Sole w₁.slot none := hc.format _ _ _ hformat (Int.not_lt.mp hpos)
    refine plain_bind hc cryptHandle.get_plain ?_ ?_
    · intro tr _ w₂ hw₂ htr
      have hquiet := did_plain htr (c := .cryptKeyslotAddByVolumeKey password) rfl
      simp only [ensures_ask_bind, ensures_throwIf]
      intro added w₃ hadd
      split
      · rename_i hneg
        have hfailed : Call.succeeded (.cryptKeyslotAddByVolumeKey password) added = false := by
          simpa [Call.succeeded] using hneg
        have hw₃ : w₃.slot = w₂.slot := hc.frame _ _ _ _ hadd rfl fun _ => hfailed
        refine ⟨?_, fun hok => by cases hok⟩
        simpa [Reformatted, hdone, hquiet, hfailed, hw₃, hw₂] using hempty
      · rename_i hpos
        have hadded : Call.succeeded (.cryptKeyslotAddByVolumeKey password) added = true := by
          simpa [Call.succeeded] using hpos
        obtain ⟨i, -, hw₃⟩ := hc.add _ _ _ _ hadd (Int.not_lt.mp hpos)
        have hsole : Sole w₃.slot (some password) := by
          rw [hw₃, hw₂]
          exact hempty.fill i password
        simpa [Reformatted, hdone, hadded] using hsole
    · intro tr e w₂ hw₂ htr
      have hquiet := did_plain htr (c := .cryptKeyslotAddByVolumeKey password) rfl
      refine ⟨?_, fun hok => by cases hok⟩
      simpa [Reformatted, hdone, hquiet, hw₂] using hempty

theorem formatLuksDev_slot (password : Password) (w : World) :
    Ensures env (formatLuksDev password) w fun tr out w' => Reformatted password w tr w' ∧
      (out.isOk = true → did tr .cryptFormat = true ∧
        did tr (.cryptKeyslotAddByVolumeKey password) = true) := by
  have hplain : ∀ tr e w₁, w₁.slot = w.slot → (∀ ev ∈ tr, Call.plain ev.call) →
      Reformatted password w tr w₁ ∧
        ((Except.error e : Except Exception Unit).isOk = true → did tr .cryptFormat = true ∧
          did tr (.cryptKeyslotAddByVolumeKey password) = true) := by
    intro tr e w₁ hw₁ htr
    have hquiet := did_plain htr (c := .cryptFormat) rfl
    exact ⟨by simpa [Reformatted, hquiet] using hw₁, fun hok => by cases hok⟩
  simp only [formatLuksDev, ensures_ask_bind, ensures_throwIf_bind]
  intro generated w₁ hgenerated
  have hw₁ : w₁.slot = w.slot := hc.plain_slot hgenerated ⟨rfl, rfl⟩
  have hfirst : Call.plain .randBytes := ⟨rfl, rfl⟩
  split
  · exact hplain _ _ w₁ hw₁ (by simpa using hfirst)
  refine plain_bind hc CryptHandle.init_plain ?_ ?_
  · intro tr cryptHandle w₂ hw₂ htr
    refine plain_bind hc cryptHandle.get_plain ?_ ?_
    · intro tr' _ w₃ hw₃ htr'
      have hw : w₃.slot = w.slot := (hw₃.trans hw₂).trans hw₁
      have hbefore : ∀ ev ∈ (⟨w, .randBytes, generated⟩ :: (tr ++ tr') : VolumeTrace),
          Call.plain ev.call :=
        List.forall_mem_cons.mpr ⟨hfirst, List.forall_mem_append.mpr ⟨htr, htr'⟩⟩
      refine (formatAndAdd_slot hc cryptHandle password w₃).mono ?_
      intro tr'' out w' h
      rcases h with ⟨hslots, hok⟩
      have hall := hslots.surrounded hbefore (List.forall_mem_nil _) hw rfl
      refine ⟨by simpa using hall, fun hout => ?_⟩
      obtain ⟨hformat, hadd⟩ := hok hout
      simp [hformat, hadd]
    · intro tr' e w₃ hw₃ htr'
      refine hplain _ e w₃ ((hw₃.trans hw₂).trans hw₁) (List.forall_mem_cons.mpr ⟨hfirst, ?_⟩)
      exact List.forall_mem_append.mpr ⟨htr, htr'⟩
  · intro tr e w₂ hw₂ htr
    exact hplain _ e w₂ (hw₂.trans hw₁) (List.forall_mem_cons.mpr ⟨hfirst, htr⟩)

theorem formatLuks_slot (password : Password) (type : FilesystemType) (w : World) :
    Ensures env (formatLuks password type) w fun tr out w' => Reformatted password w tr w' ∧
      (out.isOk = true → did tr .cryptFormat = true ∧
        did tr (.cryptKeyslotAddByVolumeKey password) = true) := by
  simp only [formatLuks, ensures_throwIf_bind]
  split
  · exact ⟨by simp [Reformatted], fun hok => by cases hok⟩
  refine Ensures.bind (formatLuksDev_slot hc password w) ?_ ?_
  · rintro tr _ w₁ ⟨hslots, hok⟩
    have hrest : Prog.Uses Call.plain (do
        activateLuksDev password
        createFilesystem
        mountFilesystemLockOnError false) :=
      (activateLuksDev_plain password).bind fun _ => createFilesystem_plain.bind fun _ =>
        mountFilesystemLockOnError_plain false
    refine (plain_spec hc hrest w₁).mono ?_
    intro tr' out w' h
    rcases h with ⟨hw', htr'⟩
    have hall := hslots.surrounded (List.forall_mem_nil _) (fun ev hev => (htr' ev hev).1) rfl hw'
    obtain ⟨hformat, hadd⟩ := hok rfl
    exact ⟨hall, fun _ => by simp [hformat, hadd]⟩
  · intro tr e w₁ h
    rcases h with ⟨hslots, hok⟩
    exact ⟨hslots, fun hok => by cases hok⟩

/-! Crypto erase: the table only empties. -/

theorem KeyslotContract.destroyed {w w' : World} {i : Nat} {r : Int}
    (h : env w (.cryptKeyslotDestroy i) r w') :
    w'.slot = if r = 0 then Function.update w.slot i none else w.slot := by
  split
  · rename_i hzero
    exact hc.destroy _ _ _ _ h hzero
  · rename_i hnonzero
    exact hc.frame _ _ _ _ h rfl fun _ => by simpa [Call.succeeded] using hnonzero

theorem wipe_slot {w w' : World} {c : Call} {r : c.Ret} (h : env w c r w') (hwipes : c.wipes)
    {cur : Option Password} (hw : Sole w.slot cur) :
    Sole w'.slot (if destroysKey ⟨w, c, r⟩ then none else cur) := by
  rcases hwipes with hplain | ⟨i, rfl⟩
  · have hnone : destroysKey ⟨w, c, r⟩ = false := by
      cases c <;> first | rfl | cases hplain.1
    rw [hnone, hc.plain_slot h hplain]
    exact hw
  · rw [hc.destroyed h]
    by_cases hzero : r = (0 : Int)
    · cases hslot : w.slot i with
      | none => simpa [destroysKey, hzero, hslot] using hw.clear_free hslot
      | some p => simpa [destroysKey, hzero, hslot] using hw.clear hslot
    · simpa [destroysKey, hzero] using hw

theorem doErase_sole {w : World} {cur : Option Password} (hw : Sole w.slot cur) :
    Ensures env doErase w fun tr _ w' =>
      Sole w'.slot (if tr.any destroysKey then none else cur) := by
  have hcall : ∀ (w : World) (cur : Option Password) c r w', Call.wipes c → Sole w.slot cur →
      env w c r w' → Sole w'.slot (if destroysKey ⟨w, c, r⟩ then none else cur) :=
    fun w cur c r w' hwipes hw h => wipe_slot hc h hwipes hw
  have hghost : Ensures env doErase w fun tr _ w' => Sole w'.slot
      (tr.foldl (fun cur ev => if destroysKey ev then none else cur) cur) :=
    doErase_wipes.ensures_ghost hcall hw
  refine hghost.mono ?_
  intro tr out w' h
  rwa [foldl_wipe] at h

theorem destroyKeyslots_slot (cryptHandle : CryptHandle) (n i : Nat) (keySlotIssue : Bool)
    (w : World) : Ensures env (destroyKeyslots cryptHandle n i keySlotIssue) w fun _ out w' =>
      (∀ j, w.slot j = none → w'.slot j = none) ∧
      (out = .ok false → keySlotIssue = false ∧ ∀ j, i ≤ j → j < i + n → w'.slot j = none) := by
  induction n generalizing i keySlotIssue w with
  | zero =>
    simp only [destroyKeyslots, Prog.pure_eq, Ensures.ret_iff]
    refine ⟨fun _ h => h, fun hout => ⟨by injection hout, fun j _ _ => by omega⟩⟩
  | succ n ih =>
    have hnext : ∀ {w₁ w' : World} {out : Except Exception Bool} {issue : Bool},
        w₁.slot i = none → (∀ j, w.slot j = none → w₁.slot j = none) →
        (∀ j, w₁.slot j = none → w'.slot j = none) ∧ (out = .ok false →
          issue = false ∧ ∀ j, i + 1 ≤ j → j < i + 1 + n → w'.slot j = none) →
        (∀ j, w.slot j = none → w'.slot j = none) ∧
        (out = .ok false → issue = false ∧ ∀ j, i ≤ j → j < i + (n + 1) → w'.slot j = none) := by
      intro w₁ w' out issue hi hfirst h
      rcases h with ⟨hrest, hout⟩
      refine ⟨fun j hj => hrest j (hfirst j hj), fun hok => ⟨(hout hok).1, fun j hle hlt => ?_⟩⟩
      rcases Nat.eq_or_lt_of_le hle with rfl | hlt'
      · exact hrest _ hi
      · exact (hout hok).2 j hlt' (by omega)
    refine plain_bind hc cryptHandle.get_plain ?_ fun tr e w₁ hw₁ _ =>
      ⟨fun j hj => by rw [hw₁, hj], fun hok => by cases hok⟩
    intro tr _ w₁ hw₁ _
    simp only [ensures_ask_bind]
    intro ki w₂ hstatus
    have hw₂ : w₂.slot = w.slot := (hc.plain_slot hstatus ⟨rfl, rfl⟩).trans hw₁
    split
    · refine plain_bind hc cryptHandle.get_plain ?_ fun tr e w₃ hw₃ _ =>
        ⟨fun j hj => by rw [hw₃, hw₂, hj], fun hok => by cases hok⟩
      intro tr' _ w₃ hw₃ _
      simp only [ensures_ask_bind]
      intro r w₄ hdestroy
      have hw₄ := hc.destroyed hdestroy
      rw [hw₃, hw₂] at hw₄
      refine (ih _ _ w₄).mono ?_
      intro tr'' out w' h
      rcases h with ⟨hrest, hout⟩
      by_cases hzero : r = 0
      · rw [if_pos hzero] at hw₄
        simp only [hzero, bne_self_eq_false, Bool.or_false] at hout
        refine hnext ?_ ?_ ⟨hrest, hout⟩
        · rw [hw₄, Function.update_self]
        · intro j hj
          rw [hw₄, Function.update_apply, hj, ite_self]
      · rw [if_neg hzero] at hw₄
        refine ⟨fun j hj => hrest j (by rw [hw₄, hj]), fun hok => ?_⟩
        simp [hzero] at hout
        exact (hout hok).elim
    · rename_i hidle
      have hfree : w.slot i = none := by
        rw [← hw₁]
        by_contra hsome
        exact hidle (hc.status _ _ _ _ hstatus (Option.isSome_iff_ne_none.mpr hsome))
      refine (ih _ _ w₂).mono ?_
      rintro tr' out w' hrest
      exact hnext (by rw [hw₂, hfree]) (fun j hj => by rw [hw₂, hj]) hrest

/-- A crypto erase that returns normally leaves no keyslot in use. -/
theorem doErase_empties (w : World) :
    Ensures env doErase w fun _ out w' => out.isOk = true → ∀ j, w'.slot j = none := by
  refine plain_bind hc CryptHandle.init_plain ?_ fun tr e w₁ _ _ hok => by cases hok
  intro tr cryptHandle w₁ _ _
  refine plain_bind hc cryptHandle.get_plain ?_ fun tr e w₁ _ _ hok => by cases hok
  intro tr' _ w₂ _ _
  simp only [ensures_ask_bind, ensures_throwIf_bind]
  intro loaded w₃ _
  split
  · rintro ⟨⟩
  intro nKeySlots w₄ hmax
  split
  · rintro ⟨⟩
  rename_i hnonneg
  split
  · rintro ⟨⟩
  rename_i hnonzero
  have hpos : (0 : Int) < nKeySlots :=
    Int.lt_iff_le_and_ne.mpr ⟨Int.not_lt.mp hnonneg, Ne.symm hnonzero⟩
  have hw₄ : w₄.slot = w₃.slot := hc.plain_slot hmax ⟨rfl, rfl⟩
  refine Ensures.bind (destroyKeyslots_slot hc cryptHandle nKeySlots.toNat 0 false w₄) ?_
    fun tr e w₅ _ hok => by cases hok
  intro tr'' keySlotIssue w₅ h
  rcases h with ⟨hmono, hempty⟩
  simp only [ensures_throwIf]
  split
  · rintro ⟨⟩
  · rename_i hclean
    intro _ j
    obtain ⟨-, hpassed⟩ := hempty (by simpa using hclean)
    by_cases hslot : w₃.slot j = none
    · exact hmono j (by rw [hw₄, hslot])
    · have hlt := hc.slotMax _ _ _ hmax hpos j (Option.isSome_iff_ne_none.mpr hslot)
      exact hpassed j (Nat.zero_le j) (by omega)

theorem destroyKeyslots_free {cryptHandle : CryptHandle} (hdev : cryptHandle.cryptDev = true)
    (n i : Nat) (keySlotIssue : Bool) {w : World} (hfree : ∀ j, i ≤ j → w.slot j = none) :
    Ensures env (destroyKeyslots cryptHandle n i keySlotIssue) w fun tr out _ =>
      (∀ ev ∈ tr, overstates ev = false) →
        tr.any destroysKey = false ∧ out = .ok keySlotIssue := by
  induction n generalizing i w with
  | zero => simp [destroyKeyslots]
  | succ n ih =>
    simp only [destroyKeyslots, cryptHandle.get_present hdev, Prog.ret_bind, ensures_ask_bind]
    intro ki w₁ hstatus
    have hw₁ : w₁.slot = w.slot := hc.plain_slot hstatus ⟨rfl, rfl⟩
    split
    · rename_i hworking
      intro tr out w' _ hexact
      have hsome := hexact _ List.mem_cons_self
      simp [overstates, hworking, hfree i (Nat.le_refl i)] at hsome
    · refine (ih (i + 1) fun j hj => by rw [hw₁, hfree j (by omega)]).mono ?_
      intro tr out w' h hexact
      obtain ⟨hnone, hout⟩ := h fun ev hev => hexact ev (List.mem_cons_of_mem _ hev)
      exact ⟨by simpa [destroysKey] using hnone, hout⟩

/-- Told the truth about the slots, a loop that destroys the key reports no issue of its own. -/
theorem destroyKeyslots_exact {cryptHandle : CryptHandle} (hdev : cryptHandle.cryptDev = true)
    (n i : Nat) (keySlotIssue : Bool) {w : World} {cur : Option Password}
    (hw : Sole w.slot cur) :
    Ensures env (destroyKeyslots cryptHandle n i keySlotIssue) w fun tr out _ =>
      (∀ ev ∈ tr, overstates ev = false) → tr.any destroysKey = true →
        out = .ok keySlotIssue := by
  induction n generalizing i w with
  | zero => simp [destroyKeyslots]
  | succ n ih =>
    simp only [destroyKeyslots, cryptHandle.get_present hdev, Prog.ret_bind, ensures_ask_bind]
    intro ki w₁ hstatus
    have hw₁ : w₁.slot = w.slot := hc.plain_slot hstatus ⟨rfl, rfl⟩
    split
    · rename_i hworking
      simp only [ensures_ask_bind]
      intro r w₂ hdestroy
      have hw₂ := hc.destroyed hdestroy
      rw [hw₁] at hw₂
      cases hslot : w.slot i with
      | none =>
        intro tr out w' _ hexact
        have hsome := hexact _ List.mem_cons_self
        simp [overstates, hworking, hslot] at hsome
      | some p =>
        have hfree : ∀ j, i + 1 ≤ j → w₂.slot j = none := by
          intro j hj
          have hother : w.slot j = none := hw.other_none hslot (by omega)
          rw [hw₂]
          split
          · rw [Function.update_of_ne (by omega), hother]
          · exact hother
        refine (destroyKeyslots_free hc hdev n (i + 1) _ hfree).mono ?_
        intro tr out w' h hexact hany
        obtain ⟨hnone, hout⟩ := h fun ev hev =>
          hexact ev (List.mem_cons_of_mem _ (List.mem_cons_of_mem _ hev))
        have hzero : r = (0 : Int) := by
          have hkey : destroysKey ⟨w₁, .cryptKeyslotDestroy i, r⟩ = true := by
            simpa [destroysKey, hnone] using hany
          simp [destroysKey] at hkey
          exact hkey.1
        simpa [hzero] using hout
    · refine (ih (i + 1) (by rwa [hw₁])).mono ?_
      intro tr out w' h hexact hany
      refine h (fun ev hev => hexact ev (List.mem_cons_of_mem _ hev)) ?_
      simpa [destroysKey] using hany

/-- Told the truth about the slots, a crypto erase that throws has destroyed no key. -/
theorem doErase_exact {w : World} {cur : Option Password} (hw : Sole w.slot cur) :
    Ensures env doErase w fun tr out _ =>
      (∀ ev ∈ tr, overstates ev = false) → tr.any destroysKey = true → out.isOk = true := by
  have hnever : ∀ {tr : VolumeTrace} {ok : Bool}, (∀ ev ∈ tr, Call.plain ev.call) →
      tr.any destroysKey = true → ok = true := by
    intro tr ok htr hany
    simp [any_destroysKey_plain htr] at hany
  refine plain_bind hc CryptHandle.init_plain ?_ fun tr e w₁ _ htr _ => hnever htr
  intro tr cryptHandle w₁ hw₁ htr
  cases hdev : cryptHandle.cryptDev with
  | false =>
    simp only [CryptHandle.get, hdev, ensures_throwIf_bind, if_pos]
    exact fun _ => hnever (by simpa using htr)
  | true =>
    simp only [cryptHandle.get_present hdev, Prog.ret_bind, ensures_ask_bind,
      ensures_throwIf_bind]
    intro loaded w₂ hload
    have hload' : Call.plain .cryptLoad := ⟨rfl, rfl⟩
    have hmax' : Call.plain .cryptKeySlotMax := ⟨rfl, rfl⟩
    split
    · exact fun _ => hnever (by simpa [or_imp, forall_and, hload'] using htr)
    intro nKeySlots w₃ hmax
    split
    · exact fun _ => hnever (by simpa [or_imp, forall_and, hload', hmax'] using htr)
    split
    · exact fun _ => hnever (by simpa [or_imp, forall_and, hload', hmax'] using htr)
    have hw₃ : w₃.slot = w.slot :=
      ((hc.plain_slot hmax hmax').trans (hc.plain_slot hload hload')).trans hw₁
    have hquiet := any_destroysKey_plain htr
    have hloop := destroyKeyslots_exact hc hdev nKeySlots.toNat 0 false (by rwa [hw₃])
    refine Ensures.bind hloop ?_ ?_
    · intro tr' keySlotIssue w₄ h
      simp only [ensures_throwIf]
      split
      · rename_i hissue
        intro hexact hany
        have hout := h (fun ev hev => hexact ev (by simp [hev]))
          (by simpa [hquiet, destroysKey] using hany)
        simp [hissue] at hout
      · exact fun _ _ => rfl
    · intro tr' e w₄ h hexact hany
      have hout := h (fun ev hev => hexact ev (by simp [hev]))
        (by simpa [hquiet, destroysKey] using hany)
      cases hout

end Specs

/-! ## Runs -/

def Op.overwrites : Op → Bool
  | .erase method => method.overwrites
  | _ => false

section Runs
variable {env : VolumeEnv} (hc : KeyslotContract env)
include hc

theorem performs_sole {w w' : World} {l : Performed} {cur : Option Password}
    (hoverwrites : l.op.overwrites = false) (hw : Sole w.slot cur) (h : Performs env w l w') :
    Sole w'.slot (nextCur cur l) := by
  rcases l with ⟨op, tr, out⟩
  have hplain : ∀ {p : M Unit}, p.Uses Call.plain → Exec env p w tr out w' →
      Sole w'.slot cur := by
    intro p hp hexec
    rwa [(plain_spec hc hp w _ _ _ hexec).1]
  cases op with
  | formatLuks password type =>
    obtain ⟨hslots, -⟩ := formatLuks_slot hc password type w _ _ _ h
    simp only [nextCur]
    unfold Reformatted at hslots
    split at hslots
    · rename_i hformat
      rwa [if_pos hformat]
    · rename_i hformat
      rwa [if_neg hformat, hslots]
  | erase method =>
    by_cases hcrypto : method = .cryptoErase
    · subst hcrypto
      have hsole := doErase_sole hc hw _ _ _ h
      simp only [nextCur]
      cases hok : out.isOk with
      | true => exact doErase_empties hc w _ _ _ h hok
      | false => simpa using hsole
    · have hcur : nextCur cur ⟨.erase method, tr, out⟩ = cur := by
        cases method <;> first | rfl | exact absurd rfl hcrypto
      rw [hcur]
      exact hplain (erase_plain hcrypto hoverwrites) h
  | lock => exact hplain lock_plain h
  | unlock password =>
    exact hplain ((activateLuksDev_plain password).bind fun _ =>
      mountFilesystemLockOnError_plain true) h
  | changePassword oldPassword newPassword =>
    have hslots := changePassword_slot hc oldPassword newPassword w _ _ _ h
    simp only [nextCur] at hslots ⊢
    split at hslots
    · rename_i hok
      rcases hslots with ⟨i, j, hold, -, hw'⟩
      rw [if_pos hok, hw']
      exact hw.replace hold j newPassword
    · rename_i hfailed
      rwa [if_neg hfailed, hslots]

theorem run_sole {w w' : World} {ls : List Performed} (hrun : VolumeRun env w ls w')
    (hops : ∀ l ∈ ls, l.op.overwrites = false) {cur : Option Password}
    (hw : Sole w.slot cur) : Sole w'.slot (ls.foldl nextCur cur) := by
  induction hrun generalizing cur with
  | nil w => exact hw
  | cons hl _ ih =>
    obtain ⟨hop, hops'⟩ := List.forall_mem_cons.mp hops
    exact ih hops' (performs_sole hc hop hw hl)

theorem performs_current {w w' : World} {l : Performed} {cur : Option Password}
    (hw : Sole w.slot cur) (h : Performs env w l w') (hok : l.out.isOk = true) (y : Password) :
    (l.op = .unlock y → cur = some y) ∧ (∀ z, l.op = .changePassword y z → cur = some y) := by
  rcases l with ⟨op, tr, out⟩
  constructor
  · rintro rfl
    obtain ⟨i, hi⟩ := unlock_slot hc y w _ _ _ h hok
    exact hw.eq_of_mem hi
  · rintro z rfl
    have hslots := changePassword_slot hc y z w _ _ _ h
    simp only at hok hslots
    rw [if_pos hok] at hslots
    rcases hslots with ⟨i, j, hold, -⟩
    exact hw.eq_of_mem hold

/-- After formatting, exactly the current password opens the drive, whatever the later
calls and their failures were. -/
theorem only_current_password_opens {w₀ w w' : World} {first : Performed} {ls : List Performed}
    {password : Password} {type : FilesystemType} (hop : first.op = .formatLuks password type)
    (hfirst : Performs env w₀ first w) (hok : first.out = .ok ())
    (hrun : VolumeRun env w ls w') (hops : ∀ l ∈ ls, l.op.overwrites = false) :
    (∀ p, ls.foldl nextCur (some password) = some p →
      ∃ i, w'.slot i = some p ∧ ∀ j, j ≠ i → w'.slot j = none) ∧
    (ls.foldl nextCur (some password) = none → ∀ i, w'.slot i = none) ∧
    (∀ l w'', Performs env w' l w'' → l.out = .ok () → ∀ y,
      (l.op = .unlock y → ls.foldl nextCur (some password) = some y) ∧
      (∀ z, l.op = .changePassword y z → ls.foldl nextCur (some password) = some y)) ∧
    (∀ l w'', Performs env w' l w'' → l.op = .erase .cryptoErase → l.out ≠ .ok () →
      (∀ ev ∈ l.trace, overstates ev = false) →
      nextCur (ls.foldl nextCur (some password)) l = ls.foldl nextCur (some password)) := by
  have hformatted : Sole w.slot (some password) := by
    rcases first with ⟨op, tr, out⟩
    simp only at hop hok
    subst hop hok
    obtain ⟨hslots, hdid⟩ := formatLuks_slot hc password type w₀ _ _ _ hfirst
    obtain ⟨hformat, hadd⟩ := hdid rfl
    simpa [Reformatted, hformat, hadd] using hslots
  have hsole := run_sole hc hrun hops hformatted
  generalize ls.foldl nextCur (some password) = cur at hsole ⊢
  refine ⟨?_, ?_, ?_, ?_⟩
  · rintro p rfl
    exact hsole
  · rintro rfl
    exact hsole
  · intro l w'' h hout y
    exact performs_current hc hsole h (by rw [hout]; rfl) y
  · rintro ⟨op, tr, out⟩ w'' h rfl hthrows hexact
    have hdestroyed : tr.any destroysKey = false := by
      by_contra hany
      have hok := doErase_exact hc hsole _ _ _ h hexact (by simpa using hany)
      cases out with
      | ok _ => exact hthrows rfl
      | error e => cases hok
    cases out with
    | ok _ => exact absurd rfl hthrows
    | error e => simp [nextCur, hdestroyed, Except.isOk, Except.toBool]

end Runs

theorem only_current_password_opens_changed :
    let first := perform compliant lockedDrive (.formatLuks [97] .ext4)
    let w := after compliant lockedDrive (.formatLuks [97] .ext4)
    let change := perform compliant w (.changePassword [97] [98])
    let w' := after compliant w (.changePassword [97] [98])
    (first.out = .ok () ∧ [change].foldl nextCur (some [97]) = some [98]) ∧
      ∃ i, w'.slot i = some [98] ∧ ∀ j, j ≠ i → w'.slot j = none := by
  intro first w change w'
  have hfirst : Performs ruled lockedDrive first w := performs_perform ruled_compliant _ _
  have hrun : VolumeRun ruled w [change] w' :=
    .cons (performs_perform ruled_compliant _ _) (.nil _)
  have hcur : [change].foldl nextCur (some [97]) = some [98] := by decide
  exact ⟨⟨by decide, hcur⟩,
    (only_current_password_opens ruled_keyslotContract rfl hfirst (by decide) hrun
      (by decide)).1 _ hcur⟩

end Estoraged

import Estoraged.DeviceRefinement

/-!
# The status properties

`Locked` and `EncryptionStatus` are found out anew at every reading. Readings come in
between the methods in any order; they change nothing, and what they say is what the calls
of that reading let the daemon see.
-/

namespace Estoraged
open Interaction
set_option autoImplicit false

/-- `Drive::DriveEncryptionState` -/
inductive DriveEncryptionState where
  | unknown
  | encrypted
  | unencrypted
deriving DecidableEq, Repr

def findEncryptionStatus : M DriveEncryptionState :=
  tryCatch
    (do
      let _ ← loadLuksHeader
      pure .encrypted)
    (fun _ => pure .unencrypted)

inductive Request where
  | method (op : Op)
  | locked
  | encryptionStatus
deriving DecidableEq, Repr

inductive Reply where
  | done
  | locked (value : Bool)
  | encryptionStatus (value : DriveEncryptionState)
deriving DecidableEq, Repr

def Request.prog : Request → M Reply
  | .method op => do
    op.prog
    pure .done
  | .locked => do
    let value ← isLocked
    pure (.locked value)
  | .encryptionStatus => do
    let value ← findEncryptionStatus
    pure (.encryptionStatus value)

structure Served where
  request : Request
  trace : VolumeTrace
  out : Except Exception Reply

def Serves (env : VolumeEnv) (w : World) (l : Served) (w' : World) : Prop :=
  Exec env l.request.prog w l.trace l.out w'

def served (respond : Responder ports World) (w : World) (request : Request) : Served :=
  ⟨request, (request.prog.run respond w).trace, (request.prog.run respond w).out⟩

def thereafter (respond : Responder ports World) (w : World) (request : Request) : World :=
  (request.prog.run respond w).state

theorem serves_served {env : VolumeEnv} {respond : Responder ports World}
    (hrespond : ∀ w c, env w c (respond w c).1 (respond w c).2) (w : World) (request : Request) :
    Serves env w (served respond w request) (thereafter respond w request) :=
  Prog.exec_run respond hrespond request.prog w

/-- The method call among the requests. -/
def Served.performed? (l : Served) : Option Performed :=
  match l.request with
  | .method op => some ⟨op, l.trace, l.out.map fun _ => ()⟩
  | _ => none

/-- No call failed. -/
def Answering (tr : VolumeTrace) : Prop := ∀ ev ∈ tr, ev.call.succeeded ev.answer = true

/-- What a reading says, by the state it is made in. -/
def Reply.Tells (w : World) (tr : VolumeTrace) : Reply → Prop
  | .done => False
  | .locked value => value = true ↔ w.mapped = false ∧ Answering tr
  | .encryptionStatus value =>
    value ≠ .unknown ∧ (value = .encrypted ↔ w.header = true ∧ Answering tr)

/-! ## One reading -/

section Reading
variable {w w' : World}

theorem ruled_keeps {c : Call} {r : c.Ret} (h : ruled w c r w') (hspares : c.spares)
    (hdone : c.done r w = w) : w' = w := by
  obtain ⟨-, heffect | ⟨⟨method, -, rfl⟩, -⟩⟩ := h
  · rw [heffect, Call.effect]
    split
    · exact hdone
    · rfl
  · exact absurd rfl (hspares method)

theorem isLocked_tells (w : World) : Ensures ruled isLocked w fun tr out w' => w' = w ∧
    ∃ value, out = .ok value ∧ (value = true ↔ w.mapped = false ∧ Answering tr) := by
  unfold isLocked
  rw [Ensures.tryCatch_iff, ensures_ask_bind]
  intro answer w₁ hanswer
  obtain rfl := ruled_keeps hanswer (by simp [Call.spares]) rfl
  cases answer with
  | error e =>
    refine Ensures.throw_iff.mpr (Ensures.ret_iff.mpr ⟨rfl, false, rfl, ?_⟩)
    apply iff_of_false
    · intro h
      cases h
    · intro h
      cases h.2 _ List.mem_cons_self
  | ok present =>
    have hagrees := (hanswer.1 rfl).2
    have hpresent : present = w₁.mapped := by simpa [World.agrees] using hagrees
    refine Ensures.ret_iff.mpr ⟨rfl, _, rfl, ?_⟩
    rw [hpresent]
    constructor
    · intro h
      refine ⟨by simpa using h, ?_⟩
      intro ev hev
      obtain rfl := List.mem_singleton.mp hev
      rfl
    · intro h
      simpa using h.1

/-- The header can be loaded just if it is there and no call fails. -/
theorem loadLuksHeader_tells (w : World) : Ensures ruled loadLuksHeader w fun tr out w' =>
    w' = w ∧ (out.isOk = true ↔ w.header = true ∧ Answering tr) := by
  unfold loadLuksHeader CryptHandle.init CryptHandle.get
  simp only [bind_assoc, ensures_ask_bind]
  intro answer w₁ hinit
  obtain rfl := ruled_keeps hinit (by simp [Call.spares]) rfl
  have hfailed : ∀ tr : VolumeTrace, Call.succeeded .cryptInit answer = false →
      ¬ (w₁.header = true ∧ Answering (⟨w₁, .cryptInit, answer⟩ :: tr)) := by
    intro tr hfails h
    have hdone := h.2 _ List.mem_cons_self
    rw [hfails] at hdone
    cases hdone
  rw [ensures_throwIf_bind]
  split_ifs with hretval
  · refine ⟨rfl, iff_of_false (fun h => by cases h) (hfailed _ ?_)⟩
    simp [Call.succeeded, hretval]
  rw [Prog.pure_eq, Prog.ret_bind, ensures_throwIf_bind]
  split_ifs with hnull
  · change answer.cryptDev = false at hnull
    refine ⟨rfl, iff_of_false (fun h => by cases h) (hfailed _ ?_)⟩
    simp [Call.succeeded, hnull]
  rw [ensures_ask_bind]
  intro retval w₂ hload
  obtain rfl := ruled_keeps hload (by simp [Call.spares]) rfl
  have hanswered : Call.succeeded .cryptInit answer = true := by
    change ¬ answer.cryptDev = false at hnull
    simpa [Call.succeeded, Int.not_lt.mp hretval] using hnull
  rw [ensures_throwIf_bind]
  split_ifs with hfails
  · refine ⟨rfl, iff_of_false (fun h => by cases h) ?_⟩
    intro h
    have hdone : Call.succeeded .cryptLoad retval = true :=
      h.2 _ (List.mem_cons_of_mem _ List.mem_cons_self)
    exact Int.not_le.mpr hfails (of_decide_eq_true hdone)
  · have hdone : Call.succeeded .cryptLoad retval = true := by
      simpa [Call.succeeded] using hfails
    refine Ensures.ret_iff.mpr ⟨rfl, iff_of_true rfl ⟨(hload.1 hdone).1, ?_⟩⟩
    intro ev hev
    rcases List.mem_cons.mp hev with rfl | hev
    · exact hanswered
    · obtain rfl := List.mem_singleton.mp hev
      exact hdone

theorem findEncryptionStatus_tells (w : World) : Ensures ruled findEncryptionStatus w
    fun tr out w' => w' = w ∧ ∃ value, out = .ok value ∧ value ≠ .unknown ∧
      (value = .encrypted ↔ w.header = true ∧ Answering tr) := by
  unfold findEncryptionStatus
  rw [Ensures.tryCatch_iff, Ensures.bind_iff]
  refine (loadLuksHeader_tells w).mono ?_
  intro tr out w' h
  obtain ⟨rfl, hiff⟩ := h
  cases out with
  | ok cryptHandle =>
    refine Ensures.ret_iff.mpr ⟨rfl, _, rfl, by simp, ?_⟩
    rw [List.append_nil]
    exact iff_of_true rfl (hiff.mp rfl)
  | error e =>
    refine Ensures.ret_iff.mpr ⟨rfl, _, rfl, by simp, ?_⟩
    rw [List.append_nil]
    apply iff_of_false
    · intro h
      cases h
    · intro h
      cases hiff.mpr h

end Reading

/-! ## Readings among the methods -/

section Runs
variable {w w' w'' : World} {ls : List Served} {l : Served}

theorem serves_method {op : Op} (hop : l.request = .method op) (h : Serves ruled w l w') :
    Performs ruled w ⟨op, l.trace, l.out.map fun _ => ()⟩ w' := by
  unfold Serves at h
  rw [hop] at h
  rcases h.of_bind with ⟨u, w₁, tr₁, tr₂, htr, hop, hdone⟩ | ⟨e, hout, hop⟩
  · obtain ⟨rfl, hout, rfl⟩ := hdone.of_ret
    rw [List.append_nil] at htr
    rw [htr, hout]
    exact hop
  · rw [hout]
    exact hop

theorem reading_tells {α : Type} {p : M α} {f : α → Reply}
    (hp : Ensures ruled p w fun tr out w' => w' = w ∧
      ∃ value, out = .ok value ∧ (f value).Tells w tr) :
    Ensures ruled (do
      let value ← p
      pure (f value)) w fun tr out w' => w' = w ∧
        ∃ value, out = .ok (f value) ∧ (f value).Tells w tr := by
  refine Ensures.bind hp ?_ ?_
  · intro tr value w₁ hvalue
    obtain ⟨rfl, value', hout, htells⟩ := hvalue
    obtain rfl := Except.ok.inj hout
    refine Ensures.ret_iff.mpr ⟨rfl, _, rfl, ?_⟩
    rwa [List.append_nil]
  · intro tr e w₁ hvalue
    obtain ⟨-, value, hout, -⟩ := hvalue
    cases hout

theorem serves_reading (hreading : l.performed? = none) (h : Serves ruled w l w') :
    w' = w ∧ ∃ reply, l.out = .ok reply ∧ reply.Tells w l.trace := by
  obtain ⟨request, tr, out⟩ := l
  cases request with
  | method op => cases hreading
  | locked =>
    obtain ⟨hw, value, hout, htells⟩ := reading_tells (f := .locked) (isLocked_tells w) _ _ _ h
    exact ⟨hw, _, hout, htells⟩
  | encryptionStatus =>
    obtain ⟨hw, value, hout, htells⟩ :=
      reading_tells (f := .encryptionStatus) (findEncryptionStatus_tells w) _ _ _ h
    exact ⟨hw, _, hout, htells⟩

/-- Without the readings it is a run of the methods alone. -/
theorem served_methods (hrun : Steps (Serves ruled) w ls w') :
    VolumeRun ruled w (ls.filterMap Served.performed?) w' := by
  refine Steps.project (f := id) ?_ ?_ hrun
  · intro w l w' h hreading
    exact (serves_reading hreading h).1
  · intro w l w' performed h hmethod
    obtain ⟨request, tr, out⟩ := l
    cases request with
    | method op =>
      obtain rfl := Option.some.inj hmethod
      exact serves_method rfl h
    | locked => cases hmethod
    | encryptionStatus => cases hmethod

/-- In every reachable state a reading changes nothing, never throws, and says what is so
unless a call failed under it; and a volume that is said to be locked is not mounted. -/
theorem readings_tell (hstart : w.mounted = true → w.mapped = true)
    (hrun : Steps (Serves ruled) w ls w') (hread : Serves ruled w' l w'') :
    VolumeRun ruled w (ls.filterMap Served.performed?) w' ∧
    (l.performed? = none → w'' = w' ∧ ∃ reply, l.out = .ok reply ∧ reply.Tells w' l.trace) ∧
    (l.request = .locked → l.out = .ok (.locked true) →
      w'.mapped = false ∧ w'.mounted = false) := by
  have hmethods := served_methods hrun
  refine ⟨hmethods, fun hreading => serves_reading hreading hread, ?_⟩
  intro hlocked hout
  have hreading : l.performed? = none := by rw [Served.performed?, hlocked]
  obtain ⟨-, reply, hreply, htells⟩ := serves_reading hreading hread
  obtain rfl := Except.ok.inj (hout.symm.trans hreply)
  have hunmapped := (htells.mp rfl).1
  have hsound := run_keeps_stage ruled_contract (World.exists_at_iff.mpr hstart) hmethods
  refine ⟨hunmapped, ?_⟩
  cases hmounted : w'.mounted with
  | false => rfl
  | true =>
    rw [World.exists_at_iff.mp hsound hmounted] at hunmapped
    cases hunmapped

end Runs

def unlockRequest : Request := .method (.unlock [112, 119])

theorem readings_tell_unlocked :
    VolumeRun ruled lockedDrive
      ([served compliant lockedDrive unlockRequest].filterMap Served.performed?)
      (thereafter compliant lockedDrive unlockRequest) ∧
    (served compliant (thereafter compliant lockedDrive unlockRequest) .locked).out =
      .ok (.locked false) := by
  have hrun : Steps (Serves ruled) lockedDrive [served compliant lockedDrive unlockRequest]
      (thereafter compliant lockedDrive unlockRequest) :=
    .cons (serves_served ruled_compliant _ _) (.nil _)
  have hread := serves_served ruled_compliant (thereafter compliant lockedDrive unlockRequest)
    .locked
  exact ⟨(readings_tell (by decide) hrun hread).1, rfl⟩

/-! ## The header stays -/

def Call.leavesHeader (c : Call) : Prop :=
  ∀ method, c = .eraseDevice method → method.overwrites = false

/-- No overwriting of the device is asked for. -/
def Request.leavesHeader (request : Request) : Prop :=
  ∀ method, request = .method (.erase method) → method.overwrites = false

/-- A header was loaded or written. -/
def showsHeader (ev : Event ports World) : Bool :=
  (ev.call == .cryptLoad || ev.call == .cryptFormat) && ev.call.succeeded ev.answer

theorem Request.prog_leavesHeader {request : Request} (h : request.leavesHeader) :
    request.prog.Uses Call.leavesHeader := by
  have hspares : ∀ c : Call, c.spares → c.leavesHeader := by
    intro c hc method hmethod
    exact absurd hmethod (hc method)
  cases request with
  | method op =>
    refine Prog.Uses.bind (op.prog_owns.mono ?_) fun _ => Prog.uses_ret _
    intro c howns method hmethod
    apply h
    rw [howns method hmethod]
  | locked => exact (isLocked_spares.mono hspares).bind fun _ => Prog.uses_ret _
  | encryptionStatus =>
    refine Prog.Uses.bind ?_ fun _ => Prog.uses_ret _
    refine Prog.Uses.tryCatch ?_ fun _ => Prog.uses_ret _
    exact (loadLuksHeader_spares.mono hspares).bind fun _ => Prog.uses_ret _

theorem ruled_header {w w' : World} {c : Call} {r : c.Ret} (hc : c.leavesHeader)
    (h : ruled w c r w') (hw : w.header = true ∨ showsHeader ⟨w, c, r⟩ = true) :
    w'.header = true := by
  obtain ⟨hallows, rfl | ⟨⟨method, hmethod, rfl⟩, -⟩⟩ := h
  · cases hdone : c.succeeded r with
    | false =>
      rw [Call.effect_failed hdone]
      simpa [showsHeader, hdone] using hw
    | true =>
      rw [Call.effect_succeeded hdone]
      have hallowed := (hallows hdone).1
      cases c with
      | cryptFormat => rfl
      | cryptLoad => exact hallowed
      | _ => simpa [showsHeader, Call.done] using hw
  · rw [hc method rfl] at hmethod
    cases hmethod

theorem header_after {α : Type} {p : M α} (hp : p.Uses Call.leavesHeader) (w : World) :
    Ensures ruled p w fun tr _ w' =>
      (w.header = true ∨ ∃ ev ∈ tr, showsHeader ev = true) → w'.header = true := by
  induction p generalizing w with
  | ret a => simp
  | throw e => simp
  | call c k ih =>
    rw [Ensures.call_iff]
    intro r w₁ hr
    refine (ih r (hp.2 r) w₁).mono ?_
    intro tr out w' hafter h
    rcases h with hw | ⟨ev, hev, hshows⟩
    · exact hafter (.inl (ruled_header hp.1 hr (.inl hw)))
    · rcases List.mem_cons.mp hev with rfl | hev
      · exact hafter (.inl (ruled_header hp.1 hr (.inr hshows)))
      · exact hafter (.inr ⟨ev, hev, hshows⟩)

theorem serves_header {w w' : World} {l : Served} (hspared : l.request.leavesHeader)
    (h : Serves ruled w l w') :
    (w.header = true ∨ ∃ ev ∈ l.trace, showsHeader ev = true) → w'.header = true :=
  header_after (Request.prog_leavesHeader hspared) w _ _ _ h

/-- The calls by which a reading finds the header. -/
def Call.readsHeader (c : Call) : Prop := c = .cryptInit ∨ c = .cryptLoad

/-- The header is there, and a call that is to find it fails. -/
def MissesHeader (ev : Event ports World) : Prop :=
  ev.before.header = true ∧ Call.readsHeader ev.call ∧ ev.call.succeeded ev.answer = false

theorem encryptionStatus_calls : Request.encryptionStatus.prog.Uses Call.readsHeader := by
  refine Prog.Uses.bind (Prog.Uses.tryCatch ?_ fun _ => Prog.uses_ret _) fun _ => Prog.uses_ret _
  refine Prog.Uses.bind ?_ fun _ => Prog.uses_ret _
  refine Prog.Uses.bind ⟨.inl rfl, fun _ => uses_throwIf.bind fun _ => Prog.uses_ret _⟩ ?_
  intro cryptHandle
  apply (uses_throwIf (N := Call.readsHeader)).bind
  intro _
  exact ⟨.inr rfl, fun _ => uses_throwIf.bind fun _ => Prog.uses_ret _⟩

/-- From then on the header is in every state of the run. -/
theorem header_of_run {w w' : World} {past rest : List Served} {l : Served}
    (hrun : Steps (Serves ruled) w (past ++ l :: rest) w')
    (hshown : ∃ ev ∈ l.trace, showsHeader ev = true)
    (hspared : ∀ l' ∈ l :: rest, l'.request.leavesHeader) : w'.header = true := by
  obtain ⟨w₁, -, hlast⟩ := hrun.split
  obtain ⟨hl, hrest⟩ := List.forall_mem_cons.mp hspared
  cases hlast with
  | cons hserves hlater =>
    have hnow := serves_header hl hserves (.inr hshown)
    have hstep : ∀ w l w', w.header = true →
        (Serves ruled w l w' ∧ l.request.leavesHeader) → w'.header = true := by
      intro w l w' hw h
      exact serves_header h.2 h.1 (.inl hw)
    exact (hlater.restrict hrest).invariant hstep hnow

theorem reading_on_header {w w' : World} {reading : Served} (hw : w.header = true)
    (hreading : reading.request = .encryptionStatus) (hread : Serves ruled w reading w') :
    ∀ ev ∈ reading.trace, Call.readsHeader ev.call ∧ ev.before.header = true := by
  obtain ⟨request, tr, out⟩ := reading
  obtain rfl : request = .encryptionStatus := hreading
  have hkeeps : ∀ w₁ c r w₂, Call.readsHeader c → w₁.header = true →
      ruled w₁ c r w₂ → w₂.header = true := by
    intro w₁ c r w₂ hc hheader h
    refine ruled_header ?_ h (.inl hheader)
    rcases hc with rfl | rfl <;> simp [Call.leavesHeader]
  have hensures : Ensures ruled Request.encryptionStatus.prog w fun tr _ w' =>
      w'.header = true ∧ ∀ ev ∈ tr, Call.readsHeader ev.call ∧ ev.before.header = true :=
    encryptionStatus_calls.ensures hkeeps hw
  exact (hensures _ _ _ hread).2

/-- Once a request has loaded or written a LUKS header, and as long as no overwriting erase
is asked for, the header is still there at every reading. So what reads as unencrypted then
is an encrypted drive on which `crypt_init` or `crypt_load` failed. -/
theorem encryption_status_stays {w w' w'' : World} {past rest : List Served} {l reading : Served}
    (hrun : Steps (Serves ruled) w (past ++ l :: rest) w')
    (hshown : ∃ ev ∈ l.trace, showsHeader ev = true)
    (hspared : ∀ l' ∈ l :: rest, l'.request.leavesHeader)
    (hreading : reading.request = .encryptionStatus) (hread : Serves ruled w' reading w'') :
    w'.header = true ∧
    (reading.out = .ok (.encryptionStatus .encrypted) ∨
      reading.out = .ok (.encryptionStatus .unencrypted)) ∧
    (reading.out = .ok (.encryptionStatus .unencrypted) ↔
      ∃ ev ∈ reading.trace, MissesHeader ev) := by
  have hheader := header_of_run hrun hshown hspared
  have hcalls := reading_on_header hheader hreading hread
  refine ⟨hheader, ?_⟩
  obtain ⟨request, tr, out⟩ := reading
  obtain rfl : request = .encryptionStatus := hreading
  obtain ⟨-, value, rfl, hknown, hvalue⟩ :=
    reading_tells (f := .encryptionStatus) (findEncryptionStatus_tells w') _ _ _ hread
  rw [hheader, eq_self, true_and] at hvalue
  have hmisses : (∃ ev ∈ tr, MissesHeader ev) ↔ ¬ Answering tr := by
    simp only [Answering, not_forall, exists_prop, Bool.not_eq_true]
    constructor
    · intro h
      obtain ⟨ev, hev, -, -, hfails⟩ := h
      exact ⟨ev, hev, hfails⟩
    · intro h
      obtain ⟨ev, hev, hfails⟩ := h
      exact ⟨ev, hev, (hcalls ev hev).2, (hcalls ev hev).1, hfails⟩
  rw [hmisses, ← hvalue]
  cases value with
  | unknown => exact absurd rfl hknown
  | encrypted => simp
  | unencrypted => simp

/-- A reading of the header that fails on the unlocked drive. -/
def unreadable (w : World) : Served where
  request := .encryptionStatus
  trace := [⟨w, .cryptInit, ⟨0, true⟩⟩, ⟨w, .cryptLoad, (-5 : Int)⟩]
  out := .ok (.encryptionStatus .unencrypted)

theorem encryption_status_stays_unlocked :
    (thereafter compliant lockedDrive unlockRequest).header = true ∧
    ((unreadable (thereafter compliant lockedDrive unlockRequest)).out =
        .ok (.encryptionStatus .encrypted) ∨
      (unreadable (thereafter compliant lockedDrive unlockRequest)).out =
        .ok (.encryptionStatus .unencrypted)) ∧
    ((unreadable (thereafter compliant lockedDrive unlockRequest)).out =
        .ok (.encryptionStatus .unencrypted) ↔
      ∃ ev ∈ (unreadable (thereafter compliant lockedDrive unlockRequest)).trace,
        MissesHeader ev) := by
  have hrun : Steps (Serves ruled) lockedDrive
      ([] ++ [served compliant lockedDrive unlockRequest])
      (thereafter compliant lockedDrive unlockRequest) :=
    .cons (serves_served ruled_compliant _ _) (.nil _)
  have hread : Serves ruled (thereafter compliant lockedDrive unlockRequest)
      (unreadable (thereafter compliant lockedDrive unlockRequest))
      (thereafter compliant lockedDrive unlockRequest) := by
    refine .call ⟨?_, .inl ?_⟩ (.call ⟨?_, .inl ?_⟩ (.ret _ _))
    · intro hsucceeded
      exact ⟨rfl, rfl⟩
    · rfl
    · intro hsucceeded
      cases hsucceeded
    · rfl
  refine encryption_status_stays hrun ?_ ?_ rfl hread
  · exact ⟨⟨lockedDrive, .cryptLoad, (0 : Int)⟩, List.mem_cons_of_mem _ List.mem_cons_self, rfl⟩
  · intro l hl method hmethod
    obtain rfl := List.mem_singleton.mp hl
    cases hmethod

end Estoraged

import Estoraged.BlockCover
import Estoraged.EraseDevice

/-!
# The calls of an erase, however they end

In any run, also one that an exception ends, the transfers stay within the size that was
reported, and come after it. Only two kinds of failing calls let their exception through.
-/

namespace Estoraged
open Interaction
set_option autoImplicit false

section FileDescriptor
variable {σ : Type} {env : Env fdPorts σ}

/-- With what exception the last call failed. -/
def failedWith (tr : Trace fdPorts σ) : Option String :=
  tr.getLast?.bind fun ev =>
    match FdCall.count ev.call ev.answer with
    | .error detail => some detail
    | .ok _ => none

theorem failedWith_cons {tr : Trace fdPorts σ} (h : tr ≠ []) (ev : Event fdPorts σ) :
    failedWith (ev :: tr) = failedWith tr := by
  rw [failedWith, List.getLast?_cons_of_ne_nil h]
  rfl

theorem failedWith_append {tr' : Trace fdPorts σ} (h : tr' ≠ []) (tr : Trace fdPorts σ) :
    failedWith (tr ++ tr') = failedWith tr' := by
  rw [failedWith, List.getLast?_append_of_ne_nil tr h]
  rfl

/-- What is thrown, when exceptions of the calls get through (`raw`) and when not. -/
structure Throws {α : Type} (raw : Bool) (tr : Trace fdPorts σ) (out : Except Exception α) :
    Prop where
  kinds : ∀ e, out = .error e → e = .internalFailure ∨ ∃ detail, e = .systemError detail
  system_iff : ∀ detail, out = .error (.systemError detail) ↔
    raw = true ∧ failedWith tr = some detail

namespace Throws
variable {α β : Type} {raw : Bool} {tr : Trace fdPorts σ}

theorem error {e : Exception} (h : Throws raw tr (.error e : Except Exception α)) :
    Throws raw tr (.error e : Except Exception β) := by
  constructor
  · intro e' hout
    obtain rfl := Except.error.inj hout
    exact h.kinds _ rfl
  · intro detail
    rw [← h.system_iff detail]
    constructor <;> intro hout <;> rw [Except.error.inj hout]

/-- After calls that did not fail, another value is returned or the check fails. -/
theorem proceed {a : α} (h : Throws raw tr (.ok a : Except Exception α))
    {out : Except Exception β} (hout : out.isOk = true ∨ out = .error .internalFailure) :
    Throws raw tr out := by
  have hquiet : ∀ detail, ¬ (raw = true ∧ failedWith tr = some detail) := by
    intro detail hfailed
    cases (h.system_iff detail).mpr hfailed
  rcases hout with hok | rfl
  · obtain ⟨b, rfl⟩ : ∃ b, out = .ok b := by
      cases out with
      | ok b => exact ⟨b, rfl⟩
      | error e => cases hok
    constructor
    · intro e hout
      cases hout
    · intro detail
      exact iff_of_false (fun hout => by cases hout) (hquiet detail)
  · constructor
    · intro e hout
      obtain rfl := Except.error.inj hout
      exact .inl rfl
    · intro detail
      exact iff_of_false (fun hout => by cases hout) (hquiet detail)

/-- Behind `catch (...)` nothing else than `InternalFailure` is thrown. -/
theorem masked {out : Except Exception α} (hout : out.isOk = true ∨ out = .error .internalFailure)
    (tr : Trace fdPorts σ) : Throws false tr out := by
  constructor
  · intro e herror
    subst herror
    rcases hout with hok | hfailure
    · cases hok
    · exact .inl (Except.error.inj hfailure)
  · intro detail
    refine iff_of_false ?_ fun hfailed => by cases hfailed.1
    intro herror
    subst herror
    rcases hout with hok | hfailure
    · cases hok
    · cases hfailure

end Throws

/-- A run of the calls for one block of `n` bytes. -/
structure WithinBlock {α : Type} (raw : Bool) (n : Nat) (tr : Trace fdPorts σ)
    (out : Except Exception α) : Prop where
  inside : ∀ index, ∀ place ∈ places index tr, place.1 + place.2 ≤ index + n
  throws : Throws raw tr out
  calls : tr ≠ []
  whole : out.isOk = true → OneBlock n tr

theorem WithinBlock.single {α : Type} {left moved n : Nat} {ev : Event fdPorts σ}
    {out : Except Exception α} (hsize : FdCall.start ev.call + FdCall.size ev.call = n)
    (hstart : FdCall.start ev.call = moved) (hlast : LastCall n left moved ev out) :
    WithinBlock true n [ev] out := by
  have hinside : ∀ index, ∀ place ∈ places index [ev], place.1 + place.2 ≤ index + n := by
    intro index place hplace
    obtain rfl := List.mem_singleton.mp hplace
    change index + FdCall.start ev.call + FdCall.size ev.call ≤ index + n
    omega
  have hfailed : ∀ answer, FdCall.count ev.call ev.answer = answer →
      failedWith [ev] = match answer with
        | .error detail => some detail
        | .ok _ => none := by
    intro answer hanswer
    subst hanswer
    rfl
  cases hlast with
  | done buffer hcount hdone =>
    refine ⟨hinside, ⟨?_, ?_⟩, by simp, ?_⟩
    · intro e hout
      cases hout
    · intro detail
      simp [hfailed _ hcount]
    · intro _
      apply OneBlock.single hsize
      rw [hcount]
      congr 1
      omega
  | beyond hcount hover =>
    refine ⟨hinside, ⟨?_, ?_⟩, by simp, ?_⟩
    · intro e hout
      cases hout
      exact .inl rfl
    · intro detail
      simp [hfailed _ hcount]
    · intro hok
      cases hok
  | exhausted hleft hcount hshort =>
    refine ⟨hinside, ⟨?_, ?_⟩, by simp, ?_⟩
    · intro e hout
      cases hout
      exact .inl rfl
    · intro detail
      simp [hfailed _ hcount]
    · intro hok
      cases hok
  | @threw detail hcount =>
    refine ⟨hinside, ⟨?_, ?_⟩, by simp, ?_⟩
    · intro e hout
      cases hout
      exact .inr ⟨detail, rfl⟩
    · intro detail'
      simp [hfailed _ hcount]
    · intro hok
      cases hok

theorem WithinBlock.cons {α : Type} {n : Nat} {ev : Event fdPorts σ} {count : Nat}
    {tr : Trace fdPorts σ} {out : Except Exception α}
    (hsize : FdCall.start ev.call + FdCall.size ev.call = n)
    (hcount : FdCall.count ev.call ev.answer = .ok count)
    (hshort : FdCall.start ev.call + count < n) (h : WithinBlock true n tr out) :
    WithinBlock true n (ev :: tr) out := by
  have hne : FdCall.count ev.call ev.answer ≠ .ok (FdCall.size ev.call) := by
    rw [hcount]
    intro hsame
    have hequal := Except.ok.inj hsame
    omega
  have hnone : endsBlock ev = none := if_neg hne
  refine ⟨?_, ⟨h.throws.kinds, ?_⟩, List.cons_ne_nil _ _, ?_⟩
  · intro index place hplace
    rw [places, hnone, Option.getD_none, Nat.add_zero] at hplace
    rcases List.mem_cons.mp hplace with rfl | hplace
    · change index + FdCall.start ev.call + FdCall.size ev.call ≤ index + n
      omega
    · exact h.inside index place hplace
  · intro detail
    rw [failedWith_cons h.calls]
    exact h.throws.system_iff detail
  · intro hok
    exact (h.whole hok).cons hsize hne

theorem transferLoop_within {β : Type} {n : Nat} {io : Nat → β → FdM (Nat × β)} (hpos : 0 < n)
    (hn : n ≤ blockSize) (hio : AsksForRest env n io) (left : Nat) (buffer : β) (s : σ) :
    Ensures env (transferLoop io n left 0 buffer) s fun tr out _ => WithinBlock true n tr out := by
  refine transferLoop_calls (P := fun _ _ _ => True)
    (Q := fun _ _ _ tr out => WithinBlock true n tr out) hn hio ?_ ?_ trivial hpos buffer
  · intro left moved s ev s' out _ _ hrest hlast
    exact .single hrest.size hrest.start hlast
  · intro left moved s ev s' count _ hrest hcount hshort
    refine ⟨trivial, ?_⟩
    intro tr out h
    apply h.cons hrest.size hcount
    rwa [hrest.start]

theorem within_rethrown {α : Type} {p : FdM α} {n : Nat} {s : σ}
    (h : Ensures env p s fun tr out _ => WithinBlock true n tr out) :
    Ensures env (tryCatch p fun _ => throw .internalFailure) s
      fun tr out _ => WithinBlock false n tr out := by
  refine Ensures.tryCatch h ?_ ?_
  · intro tr a s' hwithin
    exact ⟨hwithin.inside, .masked (.inl rfl) tr, hwithin.calls, hwithin.whole⟩
  · intro tr e s' hwithin
    refine Ensures.throw_iff.mpr ?_
    rw [List.append_nil]
    exact ⟨hwithin.inside, .masked (.inr rfl) tr, hwithin.calls, fun hok => by cases hok⟩

/-- Nothing is called after a block, and only `InternalFailure` is thrown there. -/
theorem within_then {α β : Type} {p : FdM α} {f : α → FdM β} {raw : Bool} {n : Nat} {s : σ}
    (h : Ensures env p s fun tr out _ => WithinBlock raw n tr out)
    (hf : ∀ a, (∃ b, f a = .ret b) ∨ f a = .throw .internalFailure) :
    Ensures env (p >>= f) s fun tr out _ => WithinBlock raw n tr out := by
  refine Ensures.bind h ?_ ?_
  · intro tr a s' hwithin
    rcases hf a with hret | hthrow
    · obtain ⟨b, hb⟩ := hret
      rw [hb, Ensures.ret_iff, List.append_nil]
      exact ⟨hwithin.inside, hwithin.throws.proceed (.inl rfl), hwithin.calls,
        fun _ => hwithin.whole rfl⟩
    · rw [hthrow, Ensures.throw_iff, List.append_nil]
      exact ⟨hwithin.inside, hwithin.throws.proceed (.inr rfl), hwithin.calls,
        fun hok => by cases hok⟩
  · intro tr e s' hwithin
    exact ⟨hwithin.inside, hwithin.throws.error, hwithin.calls, fun hok => by cases hok⟩

/-! ### The blocks -/

def StaysWithin {γ : Type} (raw : Bool) (block : Nat → γ → FdM γ) : Prop :=
  ∀ (σ : Type) (env : Env fdPorts σ) (n : Nat) (a : γ) (s : σ), 0 < n → n ≤ blockSize →
    Ensures env (block n a) s fun tr out _ => WithinBlock raw n tr out

theorem writeBlock_within {arr : List UInt8} {n : Nat} (hpos : 0 < n) (hn : n ≤ blockSize)
    (harr : arr.length = blockSize) (s : σ) :
    Ensures env (writeBlock arr n) s fun tr out _ => WithinBlock true n tr out :=
  transferLoop_within hpos hn (writeSubspan_asksForRest hn (by rw [harr]; exact hn)) maxRetry () s

theorem readBlock_within (readArr : List UInt8) {n : Nat} (hpos : 0 < n) (hn : n ≤ blockSize)
    (s : σ) : Ensures env (readBlock readArr n) s fun tr out _ => WithinBlock true n tr out :=
  transferLoop_within hpos hn (readSubspan_asksForRest hn) maxRetry readArr s

theorem writePatternBlock_within : StaysWithin true writePatternBlock := by
  intro σ env n generator s hpos hn
  unfold writePatternBlock
  apply within_then (writeBlock_within hpos hn (length_fillBlock generator) s)
  intro _
  exact .inl ⟨_, rfl⟩

theorem writeZeroBlock_within : StaysWithin false writeZeroBlock := by
  intro σ env n _ s hpos hn
  apply within_rethrown
  exact writeBlock_within hpos hn List.length_replicate s

theorem verify_within {γ : Type} (readArr : List UInt8) {n : Nat} (hpos : 0 < n)
    (hn : n ≤ blockSize) (s : σ) {matches_ : List UInt8 → Prop} [DecidablePred matches_]
    {f : List UInt8 → γ} :
    Ensures env (do
      let readArr ← tryCatch (readBlock readArr n) fun _ => throw .internalFailure
      if matches_ readArr then pure (f readArr) else throw .internalFailure : FdM γ) s
      fun tr out _ => WithinBlock false n tr out := by
  apply within_then (within_rethrown (readBlock_within readArr hpos hn s))
  intro readArr'
  split
  · exact .inl ⟨_, rfl⟩
  · exact .inr rfl

theorem verifyPatternBlock_within : StaysWithin false verifyPatternBlock := by
  intro σ env n s₀ s hpos hn
  obtain ⟨generator, readArr⟩ := s₀
  unfold verifyPatternBlock
  generalize fillBlock generator = filled
  exact verify_within readArr hpos hn s

theorem verifyZeroBlock_within : StaysWithin false verifyZeroBlock := by
  intro σ env n readArr s hpos hn
  unfold verifyZeroBlock
  exact verify_within readArr hpos hn s

/-! ### The drive -/

structure WithinDrive {α : Type} (raw : Bool) (driveSize index : Nat) (tr : Trace fdPorts σ)
    (out : Except Exception α) : Prop where
  inside : ∀ place ∈ places index tr, place.1 + place.2 ≤ driveSize
  throws : Throws raw tr out

theorem WithinDrive.nothing {α : Type} {raw : Bool} {driveSize index : Nat} (a : α) :
    WithinDrive raw driveSize index ([] : Trace fdPorts σ) (.ok a) := by
  refine ⟨?_, ?_, ?_⟩
  · intro place hplace
    cases hplace
  · intro e hout
    cases hout
  · intro detail
    exact iff_of_false (fun hout => by cases hout) fun hfailed => by cases hfailed.2

theorem WithinDrive.next {α β : Type} {raw : Bool} {driveSize index n : Nat}
    {tr tr' : Trace fdPorts σ} {a : α} {out : Except Exception β} (hn : index + n ≤ driveSize)
    (h : WithinBlock raw n tr (.ok a)) (hrest : WithinDrive raw driveSize (index + n) tr' out) :
    WithinDrive raw driveSize index (tr ++ tr') out := by
  refine ⟨?_, hrest.throws.kinds, ?_⟩
  · intro place hplace
    rw [places_append, (h.whole rfl).blocks, List.sum_singleton] at hplace
    rcases List.mem_append.mp hplace with hplace | hplace
    · have hinside := h.inside index place hplace
      omega
    · exact hrest.inside place hplace
  · intro detail
    rw [hrest.throws.system_iff detail]
    by_cases hnil : tr' = []
    · subst hnil
      rw [List.append_nil, ← h.throws.system_iff detail]
      constructor
      · intro hfailed
        cases hfailed.2
      · intro hout
        cases hout
    · rw [failedWith_append hnil]

theorem WithinDrive.stopped {α β : Type} {raw : Bool} {driveSize index n : Nat}
    {tr : Trace fdPorts σ} {e : Exception} (hn : index + n ≤ driveSize)
    (h : WithinBlock raw n tr (.error e : Except Exception α)) :
    WithinDrive raw driveSize index tr (.error e : Except Exception β) := by
  refine ⟨?_, h.throws.error⟩
  intro place hplace
  have hinside := h.inside index place hplace
  omega

theorem blockLoop_within {γ : Type} {raw : Bool} {width driveSize : Nat}
    {block : Nat → γ → FdM γ} (hwidth : blockSize < 2 ^ width)
    (hsize : driveSize + blockSize ≤ 2 ^ 64) (hblock : StaysWithin raw block)
    (fuel index : Nat) (a : γ) (s : σ) (hindex : index ≤ driveSize) :
    Ensures env (blockLoop width driveSize block fuel index a) s fun tr out _ =>
      WithinDrive raw driveSize index tr out := by
  induction fuel generalizing index a s with
  | zero =>
    unfold blockLoop
    split_ifs
    · exact Ensures.ret_iff.mpr (.nothing _)
    · exact Ensures.ret_iff.mpr (.nothing _)
  | succ fuel ih =>
    unfold blockLoop
    split_ifs with hlt
    · have hn := sizeOfBlock_eq hwidth hsize hlt
      have hblockSize : blockSize = 4096 := rfl
      generalize sizeOfBlock width driveSize index = n at hn
      refine Ensures.bind (hblock σ env n a s (by omega) (by omega)) ?_ ?_
      · intro tr a' s' hone
        rw [wrapAdd_eq (by omega)]
        refine (ih (index + n) a' s' (by omega)).mono ?_
        intro tr' out s'' hrest
        exact .next (by omega) hone hrest
      · intro tr e s' hstopped
        exact .stopped (by omega) hstopped
    · exact Ensures.ret_iff.mpr (.nothing _)

theorem forBlocks_within {γ : Type} {raw : Bool} {width driveSize : Nat}
    {block : Nat → γ → FdM γ} (hwidth : blockSize < 2 ^ width)
    (hsize : driveSize + blockSize ≤ 2 ^ 64) (hblock : StaysWithin raw block) (fuel : Nat) (a : γ)
    (s : σ) : Ensures env (forBlocks width driveSize block fuel a) s fun tr out _ =>
      WithinDrive raw driveSize 0 tr out := by
  unfold forBlocks
  refine Ensures.bind
    (blockLoop_within hwidth hsize hblock fuel 0 a s (Nat.zero_le driveSize)) ?_ ?_
  · intro tr r s' h
    rw [Prog.pure_eq, Ensures.ret_iff, List.append_nil]
    exact ⟨h.inside, h.throws.proceed (.inl rfl)⟩
  · intro tr e s' h
    exact ⟨h.inside, h.throws.error⟩

end FileDescriptor

/-! ## The whole method -/

section Device
variable {σ : Type} {env : Env devicePorts σ}

def fdEvent (ev : Event devicePorts σ) : Option (Event fdPorts σ) :=
  match ev with
  | ⟨s, .fd c, r⟩ => some ⟨s, c, r⟩
  | _ => none

def transfers (tr : Trace devicePorts σ) : Trace fdPorts σ := tr.filterMap fdEvent

def sizeReport (ev : Event devicePorts σ) : Option DeviceSize :=
  match ev with
  | ⟨_, .blkGetSize64, .ok size⟩ => some size
  | _ => none

def sizeReported (tr : Trace devicePorts σ) : Option DeviceSize := tr.findSome? sizeReport

def failure (ev : Event devicePorts σ) : Option String :=
  match ev with
  | ⟨_, .openDevice _, .error detail⟩ => some detail
  | ⟨_, .blkGetSize64, .error detail⟩ => some detail
  | ⟨_, .fd c, r⟩ =>
    match FdCall.count c r with
    | .error detail => some detail
    | .ok _ => none
  | ⟨_, .ioctl _, .error detail⟩ => some detail
  | _ => none

def unnumbered (ev : Event devicePorts σ) : Bool :=
  match ev with
  | ⟨_, .fdGet, none⟩ => true
  | _ => false

/-- The last call asked a descriptor for its number and threw. -/
def getThrows (tr : Trace devicePorts σ) : Bool := tr.getLast?.any unnumbered

/-- What becomes of a failure that the daemon answers with `InternalFailure`. -/
def sizeError (tr : Trace devicePorts σ) : Exception :=
  if getThrows tr then .badOptionalAccess else .internalFailure

theorem sizeError_eq_iff {tr : Trace devicePorts σ} :
    sizeError tr = .badOptionalAccess ↔ getThrows tr = true := by
  unfold sizeError
  split_ifs with hthrows
  · exact iff_of_true rfl hthrows
  · exact iff_of_false (fun h => by cases h) hthrows

theorem sizeError_ne_system (tr : Trace devicePorts σ) (detail : String) :
    sizeError tr ≠ .systemError detail := by
  unfold sizeError
  split_ifs <;> simp

theorem getThrows_cons {tr : Trace devicePorts σ} (h : tr ≠ []) (ev : Event devicePorts σ) :
    getThrows (ev :: tr) = getThrows tr := by
  rw [getThrows, List.getLast?_cons_of_ne_nil h]
  rfl

theorem sizeError_cons {tr : Trace devicePorts σ} (h : tr ≠ []) (ev : Event devicePorts σ) :
    sizeError (ev :: tr) = sizeError tr := by
  rw [sizeError, getThrows_cons h]
  rfl

theorem getThrows_eq_false {tr : Trace devicePorts σ} (h : ∀ ev ∈ tr, ev.call ≠ .fdGet) :
    getThrows tr = false := by
  rw [getThrows, Option.any_eq_false]
  intro ev hlast
  have hcall := h ev (List.mem_of_getLast? hlast)
  obtain ⟨s, c, r⟩ := ev
  cases c with
  | fdGet => exact absurd rfl hcall
  | _ => rfl

def lastFailure (tr : Trace devicePorts σ) : Option String := tr.getLast?.bind failure

def EraseMethod.looping (method : EraseMethod) : Bool :=
  method.loops .readOnly || method.loops .writeOnly

/-- An exception of a call gets through: of the first open, or of a write of the pattern. -/
def Escapes (method : EraseMethod) (tr : Trace devicePorts σ) (detail : String) : Prop :=
  lastFailure tr = some detail ∧
    (tr.length = 1 ∧ method.looping = true ∨ method = .logicalOverWrite ∧ transfers tr ≠ [])

/-- How the calls of a method and its outcome fit together. -/
structure Orderly (method : EraseMethod) (tr : Trace devicePorts σ)
    (out : Except Exception Unit) : Prop where
  permitted : ∀ ev ∈ tr, method.permits ev.call = true
  sized_first : ∀ before ev after, tr = before ++ ev :: after → (fdEvent ev).isSome = true →
    (sizeReported before).isSome = true
  inside : ∀ size, sizeReported tr = some size →
    ∀ place ∈ places 0 (transfers tr), place.1 + place.2 ≤ size.val.toNat
  covered : method.looping = true → out = .ok () → ∃ size, sizeReported tr = some size ∧
    (blocks (transfers tr)).sum = size.val.toNat
  kinds : ∀ e, out = .error e → e = sizeError tr ∨ ∃ detail, e = .systemError detail
  get_iff : out = .error .badOptionalAccess ↔ getThrows tr = true
  system_iff : ∀ detail, out = .error (.systemError detail) ↔ Escapes method tr detail

/-- The file descriptor behind the device file. -/
def fdEnv (env : Env devicePorts σ) : Env fdPorts σ := fun s c r s' => env s (.fd c) r s'

def deviceEvent (ev : Event fdPorts σ) : Event devicePorts σ := ⟨ev.before, .fd ev.call, ev.answer⟩

theorem transfers_map (tr : Trace fdPorts σ) : transfers (tr.map deviceEvent) = tr := by
  induction tr with
  | nil => rfl
  | cons ev rest ih => exact congrArg (ev :: ·) ih

theorem lastFailure_map (tr : Trace fdPorts σ) :
    lastFailure (tr.map deviceEvent) = failedWith tr := by
  rw [lastFailure, List.getLast?_map, failedWith]
  cases tr.getLast? <;> rfl

theorem ensures_onFd {α : Type} {p : FdM α} {s : σ}
    {Q : Trace fdPorts σ → Except Exception α → σ → Prop} (h : Ensures (fdEnv env) p s Q) :
    Ensures env (p.interpret onFd) s fun tr out s' => ∃ tr', tr = tr'.map deviceEvent ∧
      Q tr' out s' := by
  induction p generalizing s Q with
  | ret a => exact Ensures.ret_iff.mpr ⟨[], rfl, Ensures.ret_iff.mp h⟩
  | throw e => exact Ensures.throw_iff.mpr ⟨[], rfl, Ensures.throw_iff.mp h⟩
  | call c k ih =>
    refine Ensures.call_iff.mpr ?_
    intro r s₁ hr
    refine (ih r (Ensures.call_iff.mp h r s₁ hr)).mono ?_
    intro tr out s' hmapped
    obtain ⟨tr', rfl, hQ⟩ := hmapped
    exact ⟨_ :: tr', rfl, hQ⟩

/-! ### Up to the size -/

/-- What `findSizeOfBlockDevice` comes to. -/
inductive Sizing : Trace devicePorts σ → Except Exception UInt64 → Prop where
  | sized {s s₁ : σ} (u : Unit) (size : DeviceSize) :
      Sizing [⟨s, .openDevice .readOnly, .ok u⟩, ⟨s₁, .blkGetSize64, .ok size⟩] (.ok size.val)
  | failed {tr : Trace devicePorts σ} :
      tr ≠ [] → (∀ ev ∈ tr, fdEvent ev = none ∧ sizeReport ev = none) →
      Sizing tr (.error (sizeError tr))

theorem ensures_openDevice {access : OpenAccess} {s : σ}
    {Q : Trace devicePorts σ → Except Exception Unit → σ → Prop} :
    Ensures env (openDevice access) s Q ↔ ∀ answer s', env s (.openDevice access) answer s' →
      Q [⟨s, .openDevice access, answer⟩]
        (match answer with
          | .ok _ => .ok ()
          | .error detail => .error (.systemError detail)) s' := by
  unfold openDevice
  rw [Ensures.call_iff]
  refine forall₃_congr fun answer s' _ => ?_
  cases answer <;> simp

/-- The catch block, after the calls before it. -/
theorem ensures_catch {past : Trace devicePorts σ} {s : σ}
    (hpast : ∀ ev ∈ past, fdEvent ev = none ∧ sizeReport ev = none) :
    Ensures env (fdGet >>= fun _ => throw .internalFailure : DeviceM UInt64) s
      fun tr out _ => Sizing (past ++ tr) out := by
  refine Ensures.call_iff.mpr ?_
  intro answer s' hget
  have hquiet : ∀ ev ∈ past ++ [(⟨s, .fdGet, answer⟩ : Event devicePorts σ)],
      fdEvent ev = none ∧ sizeReport ev = none := by
    intro ev hev
    rcases List.mem_append.mp hev with hev | hev
    · exact hpast ev hev
    · obtain rfl := List.mem_singleton.mp hev
      exact ⟨rfl, rfl⟩
  have hfailed := Sizing.failed (by simp) hquiet
  cases answer with
  | none =>
    have herror : sizeError (past ++ [(⟨s, .fdGet, none⟩ : Event devicePorts σ)]) =
        .badOptionalAccess := by
      simp [sizeError, getThrows, unnumbered]
    rw [herror] at hfailed
    exact Ensures.throw_iff.mpr hfailed
  | some fd =>
    have herror : sizeError (past ++ [(⟨s, .fdGet, some fd⟩ : Event devicePorts σ)]) =
        .internalFailure := by
      simp [sizeError, getThrows, unnumbered]
    rw [herror] at hfailed
    exact Ensures.throw_iff.mpr hfailed

theorem findSizeOfBlockDevice_sizing (s : σ) :
    Ensures env findSizeOfBlockDevice s fun tr out _ => Sizing tr out := by
  unfold findSizeOfBlockDevice
  rw [Ensures.tryCatch_iff, Ensures.bind_iff, ensures_openDevice]
  intro answer s₁ hopen
  cases answer with
  | error detail =>
    refine ensures_catch ?_
    intro ev hev
    obtain rfl := List.mem_singleton.mp hev
    exact ⟨rfl, rfl⟩
  | ok u =>
    refine Ensures.call_iff.mpr ?_
    intro answer' s₂ hsize
    cases answer' with
    | error detail =>
      refine Ensures.throw_iff.mpr (ensures_catch ?_)
      intro ev hev
      rcases List.mem_cons.mp hev with rfl | hev
      · exact ⟨rfl, rfl⟩
      · obtain rfl := List.mem_singleton.mp hev
        exact ⟨rfl, rfl⟩
    | ok size => exact Ensures.ret_iff.mpr (.sized u size)

/-! ### Through the device -/

/-- The runs of a method that goes through the device. -/
inductive Course (access : OpenAccess) (raw : Bool) :
    Trace devicePorts σ → Except Exception Unit → Prop where
  | unopened {s : σ} (detail : String) :
      Course access raw [⟨s, .openDevice access, .error detail⟩] (.error (.systemError detail))
  | unsized {s : σ} {tr : Trace devicePorts σ} (u : Unit) :
      tr ≠ [] → (∀ ev ∈ tr, fdEvent ev = none ∧ sizeReport ev = none) →
      Course access raw (⟨s, .openDevice access, .ok u⟩ :: tr) (.error (sizeError tr))
  | through {s s₁ s₂ : σ} {size : DeviceSize} {tr : Trace fdPorts σ}
      {out : Except Exception (Option Unit)} (u u' : Unit) :
      WithinDrive raw size.val.toNat 0 tr out →
      (out.isOk = true → (blocks tr).sum = size.val.toNat) →
      Course access raw (⟨s, .openDevice access, .ok u⟩ :: ⟨s₁, .openDevice .readOnly, .ok u'⟩ ::
        ⟨s₂, .blkGetSize64, .ok size⟩ :: tr.map deviceEvent) (out.map fun _ => ())

/-- What the four loops have in common, whatever the file descriptor does. -/
structure LoopsWithin (raw : Bool) (loop : Nat → UInt64 → FdM (Option Unit)) : Prop where
  within : ∀ (τ : Type) (env : Env fdPorts τ) (fuel : Nat) (driveSize : UInt64) (s : τ),
    driveSize.toNat < 2 ^ 63 → Ensures env (loop fuel driveSize) s fun tr out _ =>
      WithinDrive raw driveSize.toNat 0 tr out
  covers : ∀ driveSize : UInt64, driveSize.toNat < 2 ^ 63 →
    CoversDrive driveSize.toNat fun fuel => loop fuel driveSize

theorem loopsWithin {γ : Type} {raw : Bool} {width : Nat} {block : Nat → γ → FdM γ}
    (hwidth : blockSize < 2 ^ width) (hblock : StaysWithin raw block) (a : γ) :
    LoopsWithin raw fun fuel driveSize => forBlocks width driveSize.toNat block fuel a := by
  constructor
  · intro τ env fuel driveSize s hsize
    exact forBlocks_within hwidth (fits_of_lt hsize) hblock fuel a s
  · intro driveSize hsize
    apply forBlocks_covers hwidth (fits_of_lt hsize)
    intro τ env n a s hpos hn
    exact (hblock τ env n a s hpos hn).mono fun _ _ _ h => h.whole

/-- With enough blocks, a loop that ends normally has transferred the whole drive. -/
theorem LoopsWithin.transferred {raw : Bool} {loop : Nat → UInt64 → FdM (Option Unit)}
    (h : LoopsWithin raw loop) {τ : Type} (env : Env fdPorts τ) {driveSize : UInt64}
    (hsize : driveSize.toNat < 2 ^ 63) (s : τ) :
    Ensures env (loop (enoughBlocks driveSize) driveSize) s fun tr out _ =>
      WithinDrive raw driveSize.toNat 0 tr out ∧
      (out.isOk = true → (blocks tr).sum = driveSize.toNat) := by
  intro tr out s' hrun
  refine ⟨h.within τ env _ driveSize s hsize _ _ _ hrun, ?_⟩
  intro hok
  have hcovered := h.covers driveSize hsize τ env s _ _ _ _ hrun hok
  apply hcovered.sum
  apply hcovered.ends_iff.mpr
  simp only [enoughBlocks, blockSize]
  omega

theorem throughDevice_course {access : OpenAccess} {raw : Bool}
    {loop : Nat → UInt64 → FdM (Option Unit)} (h : LoopsWithin raw loop) (s : σ) :
    Ensures env (throughDevice access loop) s fun tr out _ => Course access raw tr out := by
  unfold throughDevice
  rw [Ensures.bind_iff, ensures_openDevice]
  intro answer s₁ hopen
  cases answer with
  | error detail => exact .unopened detail
  | ok u =>
    refine Ensures.bind (findSizeOfBlockDevice_sizing s₁) ?_ ?_
    · intro tr driveSize s₂ hsizing
      cases hsizing with
      | sized u' size =>
        refine Ensures.bind (ensures_onFd (h.transferred (fdEnv env) size.property s₂)) ?_ ?_
        · intro tr finished s₃ hmapped
          obtain ⟨tr', rfl, hwithin, hcovered⟩ := hmapped
          rw [Prog.pure_eq, Ensures.ret_iff, List.append_nil]
          exact .through u u' hwithin hcovered
        · intro tr e s₃ hmapped
          obtain ⟨tr', rfl, hwithin, hcovered⟩ := hmapped
          exact .through u u' hwithin hcovered
    · intro tr e s₂ hsizing
      cases hsizing with
      | failed hne hquiet => exact .unsized u hne hquiet

theorem transfers_eq_nil {tr : Trace devicePorts σ} (h : ∀ ev ∈ tr, fdEvent ev = none) :
    transfers tr = [] :=
  List.filterMap_eq_nil_iff.mpr h

/-- Where nothing is transferred, only what is thrown remains to be said. -/
theorem Orderly.of_idle {method : EraseMethod} {tr : Trace devicePorts σ}
    {out : Except Exception Unit} (hpermitted : ∀ ev ∈ tr, method.permits ev.call = true)
    (hidle : ∀ ev ∈ tr, fdEvent ev = none) (hok : method.looping = true → out ≠ .ok ())
    (hkinds : ∀ e, out = .error e → e = sizeError tr ∨ ∃ detail, e = .systemError detail)
    (hget : out = .error .badOptionalAccess ↔ getThrows tr = true)
    (hsystem : ∀ detail, out = .error (.systemError detail) ↔ Escapes method tr detail) :
    Orderly method tr out := by
  refine ⟨hpermitted, ?_, ?_, ?_, hkinds, hget, hsystem⟩
  · intro before ev after htr hfd
    have hnone := hidle ev (by rw [htr]; simp)
    simp [hnone] at hfd
  · intro size _ place hplace
    rw [transfers_eq_nil hidle] at hplace
    cases hplace
  · intro hmethod hout
    exact absurd hout (hok hmethod)

/-- What a method without transfers throws comes from the daemon itself, or from the number
that it wants to log. -/
def Masked (tr : Trace devicePorts σ) (out : Except Exception Unit) : Prop :=
  out.isOk = true ∧ getThrows tr = false ∨ out = .error (sizeError tr)

namespace Masked
variable {tr : Trace devicePorts σ} {out : Except Exception Unit}

theorem of_numbered (hget : getThrows tr = false)
    (hout : out.isOk = true ∨ out = .error .internalFailure) : Masked tr out := by
  rcases hout with hok | rfl
  · exact .inl ⟨hok, hget⟩
  · right
    rw [sizeError, hget]
    rfl

theorem error_eq {e : Exception} (h : Masked tr (.error e)) : e = sizeError tr := by
  rcases h with hok | herror
  · cases hok.1
  · exact Except.error.inj herror

theorem get_iff (h : Masked tr out) : out = .error .badOptionalAccess ↔ getThrows tr = true := by
  rw [← sizeError_eq_iff]
  rcases h with hok | rfl
  · refine iff_of_false ?_ ?_
    · rintro rfl
      cases hok.1
    · rw [sizeError_eq_iff, hok.2]
      simp
  · exact ⟨Except.error.inj, congrArg Except.error⟩

end Masked

/-- Nothing is transferred, and no exception of a call gets through. -/
theorem Orderly.of_masked {method : EraseMethod} {tr : Trace devicePorts σ}
    {out : Except Exception Unit} (hpermitted : ∀ ev ∈ tr, method.permits ev.call = true)
    (hidle : ∀ ev ∈ tr, fdEvent ev = none) (hok : method.looping = true → out ≠ .ok ())
    (hfirst : ¬ (tr.length = 1 ∧ method.looping = true)) (hout : Masked tr out) :
    Orderly method tr out := by
  refine .of_idle hpermitted hidle hok ?_ hout.get_iff ?_
  · intro e herror
    rw [herror] at hout
    exact .inl hout.error_eq
  · intro detail
    apply iff_of_false
    · intro herror
      rw [herror] at hout
      exact sizeError_ne_system tr detail hout.error_eq.symm
    · intro hescapes
      rcases hescapes.2 with hopen | hwrite
      · exact hfirst hopen
      · exact hwrite.2 (transfers_eq_nil hidle)

theorem Orderly.of_quiet {method : EraseMethod} {tr : Trace devicePorts σ}
    {out : Except Exception Unit} (hmethod : method.looping = false)
    (hpermitted : ∀ ev ∈ tr, method.permits ev.call = true) (hout : Masked tr out) :
    Orderly method tr out := by
  have hidle : ∀ ev ∈ tr, fdEvent ev = none := by
    intro ev hev
    have hpermits := hpermitted ev hev
    obtain ⟨s, c, r⟩ := ev
    cases c with
    | fd c =>
      rw [EraseMethod.looping, Bool.or_eq_false_iff] at hmethod
      cases c with
      | write start bytes => exact absurd hpermits (by simp [EraseMethod.permits, hmethod.2])
      | read start size => exact absurd hpermits (by simp [EraseMethod.permits, hmethod.1])
    | _ => rfl
  refine .of_masked hpermitted hidle ?_ ?_ hout
  · intro hlooping
    rw [hmethod] at hlooping
    cases hlooping
  · intro hfirst
    rw [hmethod] at hfirst
    cases hfirst.2

section Course
variable {access : OpenAccess} {raw : Bool} {method : EraseMethod}

theorem orderly_unopened {s : σ} {detail : String} (hmethod : method.looping = true)
    (hpermitted : method.permits (.openDevice access) = true) :
    Orderly method [(⟨s, .openDevice access, .error detail⟩ : Event devicePorts σ)]
      (.error (.systemError detail)) := by
  apply Orderly.of_idle
  · intro ev hev
    obtain rfl := List.mem_singleton.mp hev
    exact hpermitted
  · intro ev hev
    obtain rfl := List.mem_singleton.mp hev
    rfl
  · intro _ hok
    cases hok
  · intro e hout
    obtain rfl := Except.error.inj hout
    exact .inr ⟨detail, rfl⟩
  · refine iff_of_false (fun hout => by cases hout) ?_
    intro hthrows
    cases hthrows
  · intro detail'
    constructor
    · intro hout
      obtain rfl : detail = detail' := by simpa using hout
      exact ⟨rfl, .inl ⟨rfl, hmethod⟩⟩
    · intro hescapes
      have hdetail : some detail = some detail' := hescapes.1
      rw [Option.some.inj hdetail]

theorem orderly_unsized {s : σ} {u : Unit} {tr : Trace devicePorts σ} (hne : tr ≠ [])
    (hquiet : ∀ ev ∈ tr, fdEvent ev = none)
    (hpermitted : ∀ ev ∈ (⟨s, .openDevice access, .ok u⟩ :: tr : Trace devicePorts σ),
      method.permits ev.call = true) :
    Orderly method (⟨s, .openDevice access, .ok u⟩ :: tr) (.error (sizeError tr)) := by
  have hidle : ∀ ev ∈ (⟨s, .openDevice access, .ok u⟩ :: tr : Trace devicePorts σ),
      fdEvent ev = none := by
    intro ev hev
    rcases List.mem_cons.mp hev with rfl | hev
    · rfl
    · exact hquiet ev hev
  refine .of_masked hpermitted hidle ?_ ?_ (.inr ?_)
  · intro _ hok
    cases hok
  · intro hfirst
    exact hne (List.eq_nil_of_length_eq_zero (Nat.succ.inj hfirst.1))
  · rw [sizeError_cons hne]

theorem lastFailure_through {s s₁ s₂ : σ} {u u' : Unit} {size : DeviceSize}
    (tr : Trace fdPorts σ) :
    lastFailure (⟨s, .openDevice access, .ok u⟩ :: ⟨s₁, .openDevice .readOnly, .ok u'⟩ ::
      ⟨s₂, .blkGetSize64, .ok size⟩ :: tr.map deviceEvent) = failedWith tr := by
  cases tr with
  | nil => rfl
  | cons ev rest => exact lastFailure_map (ev :: rest)

theorem getThrows_through {s s₁ s₂ : σ} {u u' : Unit} {size : DeviceSize}
    (tr : Trace fdPorts σ) :
    getThrows (⟨s, .openDevice access, .ok u⟩ :: ⟨s₁, .openDevice .readOnly, .ok u'⟩ ::
      ⟨s₂, .blkGetSize64, .ok size⟩ :: tr.map deviceEvent) = false := by
  apply getThrows_eq_false
  intro ev hev
  simp only [List.mem_cons, List.mem_map] at hev
  rcases hev with rfl | rfl | rfl | hev
  · simp
  · simp
  · simp
  · obtain ⟨ev', -, rfl⟩ := hev
    simp [deviceEvent]

theorem orderly_through {s s₁ s₂ : σ} {u u' : Unit} {size : DeviceSize} {tr : Trace fdPorts σ}
    {out : Except Exception (Option Unit)} (hraw : raw = true ↔ method = .logicalOverWrite)
    (hpermitted : ∀ ev ∈ (⟨s, .openDevice access, .ok u⟩ ::
      ⟨s₁, .openDevice .readOnly, .ok u'⟩ :: ⟨s₂, .blkGetSize64, .ok size⟩ ::
        tr.map deviceEvent : Trace devicePorts σ), method.permits ev.call = true)
    (hwithin : WithinDrive raw size.val.toNat 0 tr out)
    (hcovered : out.isOk = true → (blocks tr).sum = size.val.toNat) :
    Orderly method (⟨s, .openDevice access, .ok u⟩ :: ⟨s₁, .openDevice .readOnly, .ok u'⟩ ::
      ⟨s₂, .blkGetSize64, .ok size⟩ :: tr.map deviceEvent) (out.map fun _ => ()) := by
  have htransfers : transfers (⟨s, .openDevice access, .ok u⟩ ::
      ⟨s₁, .openDevice .readOnly, .ok u'⟩ :: ⟨s₂, .blkGetSize64, .ok size⟩ ::
        tr.map deviceEvent : Trace devicePorts σ) = tr := transfers_map tr
  have hthrown : ∀ e, out.map (fun _ => ()) = .error e ↔ out = .error e := by
    intro e
    cases out <;> simp [Except.map]
  have hget : getThrows (⟨s, .openDevice access, .ok u⟩ ::
      ⟨s₁, .openDevice .readOnly, .ok u'⟩ :: ⟨s₂, .blkGetSize64, .ok size⟩ ::
        tr.map deviceEvent : Trace devicePorts σ) = false := getThrows_through tr
  refine ⟨hpermitted, ?_, ?_, ?_, ?_, ?_, ?_⟩
  · intro before ev after htr hfd
    rcases before with _ | ⟨ev₁, _ | ⟨ev₂, _ | ⟨ev₃, before⟩⟩⟩
    · obtain ⟨rfl, -⟩ := List.cons.inj htr
      cases hfd
    · obtain ⟨-, htr⟩ := List.cons.inj htr
      obtain ⟨rfl, -⟩ := List.cons.inj htr
      cases hfd
    · obtain ⟨-, htr⟩ := List.cons.inj htr
      obtain ⟨-, htr⟩ := List.cons.inj htr
      obtain ⟨rfl, -⟩ := List.cons.inj htr
      cases hfd
    · obtain ⟨hfirst, htr⟩ := List.cons.inj htr
      obtain ⟨hsecond, htr⟩ := List.cons.inj htr
      obtain ⟨hthird, -⟩ := List.cons.inj htr
      rw [← hfirst, ← hsecond, ← hthird]
      rfl
  · intro size' hsize place hplace
    have hreported : some size = some size' := hsize
    rw [htransfers] at hplace
    rw [← Option.some.inj hreported]
    exact hwithin.inside place hplace
  · intro _ hout
    refine ⟨size, rfl, ?_⟩
    rw [htransfers]
    apply hcovered
    cases out with
    | ok finished => rfl
    | error e => cases hout
  · intro e hout
    rw [sizeError, hget]
    exact hwithin.throws.kinds e ((hthrown e).mp hout)
  · rw [hget, hthrown]
    refine iff_of_false ?_ Bool.false_ne_true
    intro hout
    rcases hwithin.throws.kinds _ hout with h | ⟨detail, h⟩ <;> cases h
  · intro detail
    rw [Escapes, lastFailure_through, htransfers, ← hraw]
    rw [hthrown, hwithin.throws.system_iff detail]
    constructor
    · intro hfailed
      refine ⟨hfailed.2, .inr ⟨hfailed.1, ?_⟩⟩
      intro hnil
      rw [hnil] at hfailed
      cases hfailed.2
    · intro hescapes
      rcases hescapes.2 with hfirst | hwrite
      · simp at hfirst
      · exact ⟨hwrite.1, hescapes.1⟩

theorem Course.orderly {tr : Trace devicePorts σ} {out : Except Exception Unit}
    (hmethod : method.looping = true) (hraw : raw = true ↔ method = .logicalOverWrite)
    (hpermitted : ∀ ev ∈ tr, method.permits ev.call = true) (h : Course access raw tr out) :
    Orderly method tr out := by
  cases h with
  | unopened detail =>
    apply orderly_unopened hmethod
    exact hpermitted _ List.mem_cons_self
  | unsized u hne hquiet =>
    apply orderly_unsized hne ?_ hpermitted
    intro ev hev
    exact (hquiet ev hev).1
  | through u u' hwithin hcovered => exact orderly_through hraw hpermitted hwithin hcovered

end Course

/-- What follows the size does not ask for a number any more. -/
def AfterSize (tr : Trace devicePorts σ) (out : Except Exception Unit) : Prop :=
  (∀ ev ∈ tr, ev.call ≠ .fdGet) ∧ (out.isOk = true ∨ out = .error .internalFailure)

theorem sizing_then {f : UInt64 → DeviceM Unit} (s : σ)
    (hf : ∀ driveSize s', Ensures env (f driveSize) s' fun tr out _ => AfterSize tr out) :
    Ensures env (findSizeOfBlockDevice >>= f) s fun tr out _ => Masked tr out := by
  refine Ensures.bind (findSizeOfBlockDevice_sizing s) ?_ ?_
  · intro tr driveSize s' hsizing
    refine (hf driveSize s').mono ?_
    intro tr' out s'' hafter
    refine .of_numbered (getThrows_eq_false ?_) hafter.2
    intro ev hev
    rcases List.mem_append.mp hev with hev | hev
    · cases hsizing with
      | sized u size =>
        rcases List.mem_cons.mp hev with rfl | hev
        · simp
        · obtain rfl := List.mem_singleton.mp hev
          simp
    · exact hafter.1 ev hev
  · intro tr e s' hsizing
    cases hsizing
    exact .inr rfl

theorem geometryOkay_afterSize (eraseMaxGeometry eraseMinGeometry bytes : UInt64) (s : σ) :
    Ensures env (VerifyDriveGeometry.geometryOkay eraseMaxGeometry eraseMinGeometry bytes) s
      fun tr out _ => AfterSize tr out := by
  unfold VerifyDriveGeometry.geometryOkay
  split_ifs
  · exact Ensures.throw_iff.mpr ⟨by simp, .inr rfl⟩
  · exact Ensures.throw_iff.mpr ⟨by simp, .inr rfl⟩
  · exact Ensures.ret_iff.mpr ⟨by simp, .inl rfl⟩

/-- Whatever the two requests come to, also when the device cannot be opened for them. -/
theorem doSanitize_afterSize (driveSize : UInt64) (s : σ) :
    Ensures env ((Estoraged.doSanitize driveSize).interpret fun c => (ioctlWrapper c).attempt) s
      fun tr out _ => AfterSize tr out := by
  have hcalls : ((Estoraged.doSanitize driveSize).interpret
      fun c => (ioctlWrapper c).attempt).Uses (· ≠ DeviceCall.fdGet) := by
    apply (Estoraged.doSanitize driveSize).uses_true.interpret
    intro c _
    apply Prog.Uses.attempt
    apply ioctlWrapper_uses <;> simp
  have hmasked : Ensures (anyAnswer ioctlPorts) (Estoraged.doSanitize driveSize) ()
      fun _ out _ => out.isOk = true ∨ out = .error .internalFailure := by
    unfold Estoraged.doSanitize
    refine Ensures.tryCatch (P := fun _ _ _ => True) (fun _ _ _ _ => trivial) ?_ ?_
    · intro _ _ _ _
      exact .inl rfl
    · intro _ _ _ _
      exact Ensures.throw_iff.mpr (.inr rfl)
  intro tr out s' hrun
  obtain ⟨tr', hexec⟩ := Exec.outcome (fun c t tr out t' hcall => by
    obtain ⟨outcome, rfl, -⟩ := hcall.of_attempt
    exact ⟨outcome, rfl⟩) hrun
  exact ⟨hcalls.calls s _ _ _ hrun, hmasked _ _ _ hexec⟩

theorem EStoraged.eraseDevice_masked (storage : EStoraged) {method : EraseMethod}
    (hmethod : method.looping = false) (s : σ) :
    Ensures env (storage.eraseDevice method) s fun tr out _ => Masked tr out := by
  cases method with
  | verifyGeometry => exact sizing_then s (geometryOkay_afterSize _ _)
  | vendorSanitize => exact sizing_then s doSanitize_afterSize
  | cryptoErase => exact Ensures.ret_iff.mpr (.inl ⟨rfl, rfl⟩)
  | securedLocked => exact Ensures.ret_iff.mpr (.inl ⟨rfl, rfl⟩)
  | _ => cases hmethod

theorem EStoraged.eraseDevice_course (storage : EStoraged) {method : EraseMethod}
    (hmethod : method.looping = true) (s : σ) : ∃ access raw,
      (raw = true ↔ method = .logicalOverWrite) ∧
      Ensures env (storage.eraseDevice method) s fun tr out _ => Course access raw tr out := by
  cases method with
  | logicalOverWrite =>
    exact ⟨.writeOnly, true, by simp,
      throughDevice_course (loopsWithin (by decide) writePatternBlock_within _) s⟩
  | logicalVerify =>
    exact ⟨.readOnly, false, by simp,
      throughDevice_course (loopsWithin (by decide) verifyPatternBlock_within _) s⟩
  | zeroOverWrite =>
    exact ⟨.writeOnly, false, by simp,
      throughDevice_course (loopsWithin (by decide) writeZeroBlock_within _) s⟩
  | zeroVerify =>
    exact ⟨.readOnly, false, by simp,
      throughDevice_course (loopsWithin (by decide) verifyZeroBlock_within _) s⟩
  | _ => cases hmethod

/-- In every run of an erase method, whatever the kernel answers: the calls are those of the
method, the size is known before anything is transferred and nothing is transferred beyond
it, a loop that returns has covered it, and an exception of the kernel is let through only
from the first open and from a write of the pattern. A failure to find the size is reported
as `InternalFailure`, unless the number of the descriptor cannot be had for the log. -/
theorem erase_calls_orderly (storage : EStoraged) (method : EraseMethod) (s : σ) :
    Ensures env (storage.eraseDevice method) s fun tr out _ => Orderly method tr out := by
  have hpermitted : Ensures env (storage.eraseDevice method) s fun tr _ _ =>
      ∀ ev ∈ tr, method.permits ev.call = true := (storage.eraseDevice_permitted method).calls s
  intro tr out s' hrun
  cases hmethod : method.looping with
  | false =>
    exact .of_quiet hmethod (hpermitted _ _ _ hrun)
      (storage.eraseDevice_masked hmethod s _ _ _ hrun)
  | true =>
    have hcourse := @EStoraged.eraseDevice_course σ env storage method hmethod s
    obtain ⟨access, raw, hraw, hcourse⟩ := hcourse
    exact (hcourse _ _ _ hrun).orderly hmethod hraw (hpermitted _ _ _ hrun)

end Device

end Estoraged

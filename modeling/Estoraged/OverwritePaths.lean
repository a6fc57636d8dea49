import Estoraged.BlockCover

/-!
# The two overwrite paths side by side

`writePattern` and `writeZero` are the same loops over different bytes, with the block
size in different widths and a handler in one of them. Against the same outcomes of the
write calls they go the same way until a call throws.
-/

namespace Estoraged
open Interaction
set_option autoImplicit false

/-- The two programs write as many bytes at the same places, and go on alike whatever the
outcome is; in the end they return alike or throw exceptions that `R` relates. -/
inductive Lockstep {α β : Type} (V : α → β → Prop) (R : Exception → Exception → Prop) :
    FdM α → FdM β → Prop where
  | ret {a : α} {b : β} : V a b → Lockstep V R (.ret a) (.ret b)
  | throw {e e' : Exception} : R e e' → Lockstep V R (.throw e) (.throw e')
  | write {start : Nat} {bytes bytes' : List UInt8}
      {k : Except String SpanSize → FdM α} {k' : Except String SpanSize → FdM β} :
      bytes.length = bytes'.length → (∀ outcome, Lockstep V R (k outcome) (k' outcome)) →
      Lockstep V R (.call (.write start bytes) k) (.call (.write start bytes') k')

namespace Lockstep
variable {α β γ δ : Type} {V : α → β → Prop} {W : γ → δ → Prop} {R S : Exception → Exception → Prop}

theorem bind {p : FdM α} {q : FdM β} {f : α → FdM γ} {g : β → FdM δ} (h : Lockstep V R p q)
    (hf : ∀ a b, V a b → Lockstep W R (f a) (g b)) : Lockstep W R (p >>= f) (q >>= g) := by
  induction h with
  | ret hV => exact hf _ _ hV
  | throw hR => exact .throw hR
  | write hlength _ ih => exact .write hlength ih

theorem caught {p : FdM α} {q : FdM β} {e : Exception} (h : Lockstep V R p q)
    (hR : ∀ e₁ e₂, R e₁ e₂ → S e₁ e) : Lockstep V S p (tryCatch q fun _ => Prog.throw e) := by
  induction h with
  | ret hV => exact .ret hV
  | throw hR' => exact .throw (hR _ _ hR')
  | write hlength _ ih => exact .write hlength ih

theorem ret_left {p : FdM α} {q : FdM β} {f : α → γ} {W : γ → β → Prop} (h : Lockstep V R p q)
    (hW : ∀ a b, V a b → W (f a) b) : Lockstep W R (p >>= fun a => pure (f a)) q := by
  induction h with
  | ret hV => exact .ret (hW _ _ hV)
  | throw hR => exact .throw hR
  | write hlength _ ih => exact .write hlength ih

end Lockstep

section Loops
variable {R : Exception → Exception → Prop}

theorem write_lockstep (hsystem : ∀ detail, R (.systemError detail) (.systemError detail))
    {start : Nat} {bytes bytes' : List UInt8} (hlength : bytes.length = bytes'.length) :
    Lockstep Eq R (Fd.write start bytes) (Fd.write start bytes') := by
  refine .write hlength ?_
  intro outcome
  cases outcome with
  | ok size => exact .ret rfl
  | error detail => exact .throw (hsystem detail)

theorem transferLoop_lockstep (hsystem : ∀ detail, R (.systemError detail) (.systemError detail))
    (hfailure : R .internalFailure .internalFailure) {arr arr' : List UInt8}
    (hlength : arr.length = arr'.length) (size left moved : Nat) :
    Lockstep Eq R (transferLoop (writeSubspan arr size) size left moved ())
      (transferLoop (writeSubspan arr' size) size left moved ()) := by
  have hwrite : ∀ moved, Lockstep Eq R (writeSubspan arr size moved ())
      (writeSubspan arr' size moved ()) := by
    intro moved
    refine (write_lockstep hsystem ?_).bind ?_
    · rw [List.length_take, List.length_take, List.length_drop, List.length_drop, hlength]
    · intro count count' hcount
      subst hcount
      exact .ret rfl
  have hstep : ∀ left moved, (∀ left' moved', left = left' + 1 →
      Lockstep Eq R (transferLoop (writeSubspan arr size) size left' moved' ())
        (transferLoop (writeSubspan arr' size) size left' moved' ())) →
      Lockstep Eq R (transferLoop (writeSubspan arr size) size left moved ())
        (transferLoop (writeSubspan arr' size) size left moved ()) := by
    intro left moved hagain
    unfold transferLoop
    split
    · refine (hwrite moved).bind ?_
      intro answered answered' hanswered
      subst hanswered
      dsimp only
      split
      · exact .ret rfl
      split
      · exact .throw hfailure
      cases left with
      | zero => exact .throw hfailure
      | succ left => exact hagain left _ rfl
    · exact .ret rfl
  induction left generalizing moved with
  | zero =>
    apply hstep
    intro left' moved' hleft
    cases hleft
  | succ left ih =>
    apply hstep
    intro left' moved' hleft
    obtain rfl := Nat.succ.inj hleft
    exact ih moved'

/-- What a transfer throws, the same in both. -/
inductive TransferThrows : Exception → Exception → Prop where
  | failure : TransferThrows .internalFailure .internalFailure
  | system (detail : String) : TransferThrows (.systemError detail) (.systemError detail)

/-- What the pattern erase throws, and what the zero erase makes of it. -/
inductive Thrown : Exception → Exception → Prop where
  | failure : Thrown .internalFailure .internalFailure
  | system (detail : String) : Thrown (.systemError detail) .internalFailure

theorem writeBlocks_lockstep (size generator : Nat) :
    Lockstep (fun _ _ => True) Thrown (writePatternBlock size generator)
      (writeZeroBlock size ()) := by
  have hlength : (fillBlock generator).1.length = blockOfZeros.length := by
    rw [length_fillBlock]
    exact List.length_replicate.symm
  have hloop : Lockstep Eq TransferThrows (writeBlock (fillBlock generator).1 size)
      (writeBlock blockOfZeros size) :=
    transferLoop_lockstep .system .failure hlength size maxRetry 0
  have hcaught : Lockstep Eq Thrown (writeBlock (fillBlock generator).1 size)
      (writeZeroBlock size ()) := by
    apply hloop.caught
    intro e e' hthrows
    cases hthrows with
    | failure => exact .failure
    | system detail => exact .system detail
  exact hcaught.ret_left fun _ _ _ => trivial

theorem blockLoops_lockstep {driveSize : Nat} (hlt : driveSize < 2 ^ 64)
    (fuel currentIndex generator : Nat) :
    Lockstep (fun r r' => r.isSome = r'.isSome) Thrown
      (blockLoop 64 driveSize writePatternBlock fuel currentIndex generator)
      (blockLoop 32 driveSize writeZeroBlock fuel currentIndex ()) := by
  induction fuel generalizing currentIndex generator with
  | zero =>
    unfold blockLoop
    split
    · exact .ret rfl
    · exact .ret rfl
  | succ fuel ih =>
    unfold blockLoop
    split
    · rename_i hindex
      rw [sizeOfBlock_width hlt hindex]
      refine (writeBlocks_lockstep _ generator).bind ?_
      intro generator' _ _
      exact ih _ generator'
    · exact .ret rfl

theorem overwrites_lockstep (fuel : Nat) (driveSize : UInt64) :
    Lockstep Eq Thrown (writePattern fuel driveSize) (writeZero fuel driveSize) := by
  refine (blockLoops_lockstep driveSize.toNat_lt fuel 0 _).bind ?_
  intro r r' hsome
  cases r with
  | none =>
    cases r' with
    | none => exact .ret rfl
    | some _ => cases hsome
  | some _ =>
    cases r' with
    | none => cases hsome
    | some _ => exact .ret rfl

end Loops

/-! ## Against one sequence of outcomes -/

def script (outcomes : Nat → Except String SpanSize) : Responder fdPorts Nat := fun k c =>
  match c with
  | .write _ _ => (outcomes k, k + 1)
  | .read _ _ => ((outcomes k).map fun size => ⟨List.replicate size.val 0, by
      rw [List.length_replicate]
      exact size.isLt⟩, k + 1)

def requested {α : Type} (r : Result fdPorts Exception α Nat) : List (Nat × Nat) :=
  r.trace.map fun ev => (FdCall.start ev.call, FdCall.size ev.call)

inductive OutRelated {α β : Type} (V : α → β → Prop) (R : Exception → Exception → Prop) :
    Except Exception α → Except Exception β → Prop where
  | ok {a : α} {b : β} : V a b → OutRelated V R (.ok a) (.ok b)
  | error {e e' : Exception} : R e e' → OutRelated V R (.error e) (.error e')

theorem Lockstep.run {α β : Type} {V : α → β → Prop} {R : Exception → Exception → Prop}
    {p : FdM α} {q : FdM β} (h : Lockstep V R p q) (outcomes : Nat → Except String SpanSize)
    (k : Nat) :
    requested (p.run (script outcomes) k) = requested (q.run (script outcomes) k) ∧
    OutRelated V R (p.run (script outcomes) k).out (q.run (script outcomes) k).out := by
  induction h generalizing k with
  | ret hV => exact ⟨rfl, .ok hV⟩
  | throw hR => exact ⟨rfl, .error hR⟩
  | @write start bytes bytes' _ _ hlength _ ih =>
    obtain ⟨hrequests, hout⟩ := ih (outcomes k) (k + 1)
    refine ⟨?_, hout⟩
    change (start, bytes.length) :: requested _ = (start, bytes'.length) :: requested _
    rw [hlength]
    exact congrArg _ hrequests

/-! ## Which calls are made -/

section Made
variable (driveSize : Nat) (outcomes : Nat → Except String SpanSize)

/-- What the first `k` calls report in sum. -/
def reported (k : Nat) : Nat :=
  capacity (fun j => match outcomes j with
    | .ok size => size.val
    | .error _ => 0) k

/-- Where the block that `position` lies in ends. -/
def endOfBlock (position : Nat) : Nat := min (blockSize * (position / blockSize + 1)) driveSize

/-- The outcomes before call `k` let the writing come to it: none is an exception, the drive
is not complete, no block is overstepped, and no block has used up its calls. -/
structure CallMade (k : Nat) : Prop where
  counts : ∀ j < k, (outcomes j).isOk = true
  inside : reported outcomes k < driveSize
  within : ∀ j < k, reported outcomes (j + 1) ≤ endOfBlock driveSize (reported outcomes j)
  retries : ∀ j, j + (maxRetry + 1) ≤ k →
    endOfBlock driveSize (reported outcomes j) ≤ reported outcomes (j + (maxRetry + 1))

/-- Call `k` is the next of a block with `left` retries, `moved` of whose bytes are done. -/
structure Writing (index left moved k : Nat) : Prop where
  made : CallMade driveSize outcomes k
  moved : reported outcomes k = index + moved
  aligned : index % blockSize = 0
  begun : ∃ first, first + maxRetry = k + left ∧ index ≤ reported outcomes first ∧
    ∀ j < first, reported outcomes j < index

def NoCallThrows : Prop := ∀ k, CallMade driveSize outcomes k → (outcomes k).isOk = true

end Made

section Progress
variable {driveSize : Nat} {outcomes : Nat → Except String SpanSize}

theorem reported_ok {k : Nat} {size : SpanSize} (h : outcomes k = .ok size) :
    reported outcomes (k + 1) = reported outcomes k + size.val := by
  unfold reported
  rw [capacity_succ, h]

theorem reported_mono {j k : Nat} (h : j ≤ k) : reported outcomes j ≤ reported outcomes k :=
  capacity_mono h

theorem endOfBlock_eq {index moved n : Nat} (haligned : index % blockSize = 0)
    (hn : n = min blockSize (driveSize - index)) (hmoved : moved < n) :
    endOfBlock driveSize (index + moved) = index + n := by
  simp only [endOfBlock, blockSize] at *
  omega

theorem endOfBlock_le {index position : Nat} (haligned : index % blockSize = 0)
    (h : position < index) : endOfBlock driveSize position ≤ index := by
  simp only [endOfBlock, blockSize] at *
  omega

theorem endOfBlock_mono {p q : Nat} (h : p ≤ q) :
    endOfBlock driveSize p ≤ endOfBlock driveSize q := by
  simp only [endOfBlock, blockSize]
  omega

theorem callMade_zero (h : 0 < driveSize) : CallMade driveSize outcomes 0 := by
  constructor
  · intro j hj
    omega
  · exact h
  · intro j hj
    omega
  · intro j hj
    omega

/-- A call whose outcome keeps within the block is followed by another, unless the block
has used up its calls. -/
theorem CallMade.next {k : Nat} {size : SpanSize} (h : CallMade driveSize outcomes k)
    (hok : outcomes k = .ok size) (hinside : reported outcomes (k + 1) < driveSize)
    (hwithin : reported outcomes (k + 1) ≤ endOfBlock driveSize (reported outcomes k))
    (hretries : ∀ j, j + (maxRetry + 1) = k + 1 →
      endOfBlock driveSize (reported outcomes j) ≤ reported outcomes (k + 1)) :
    CallMade driveSize outcomes (k + 1) := by
  constructor
  · intro j hj
    by_cases hlast : j = k
    · rw [hlast, hok]
      rfl
    · exact h.counts j (by omega)
  · exact hinside
  · intro j hj
    by_cases hlast : j = k
    · rw [hlast]
      exact hwithin
    · exact h.within j (by omega)
  · intro j hj
    by_cases hlast : j + (maxRetry + 1) = k + 1
    · rw [hlast]
      exact hretries j hlast
    · exact h.retries j (by omega)

variable {index left moved k n : Nat}

theorem Writing.short {size : SpanSize} (h : Writing driveSize outcomes index (left + 1) moved k)
    (hn : n = min blockSize (driveSize - index)) (hmoved : moved < n)
    (hok : outcomes k = .ok size) (hshort : moved + size.val < n) :
    Writing driveSize outcomes index left (moved + size.val) (k + 1) := by
  have htotal := reported_ok hok
  rw [h.moved] at htotal
  have hend := endOfBlock_eq h.aligned hn hmoved
  obtain ⟨first, hfirst, hindex, hbefore⟩ := h.begun
  constructor
  · apply h.made.next hok
    · omega
    · rw [h.moved]
      omega
    · intro j hj
      have hle : endOfBlock driveSize (reported outcomes j) ≤ index :=
        endOfBlock_le h.aligned (hbefore j (by omega))
      omega
  · omega
  · exact h.aligned
  · exact ⟨first, by omega, hindex, hbefore⟩

theorem Writing.done {size : SpanSize} (h : Writing driveSize outcomes index left moved k)
    (hn : n = min blockSize (driveSize - index)) (hmoved : moved < n)
    (hok : outcomes k = .ok size) (hdone : moved + size.val = n) (hmore : index + n < driveSize) :
    Writing driveSize outcomes (index + n) maxRetry 0 (k + 1) := by
  have htotal := reported_ok hok
  rw [h.moved] at htotal
  have hend := endOfBlock_eq h.aligned hn hmoved
  have hbefore : ∀ j < k + 1, reported outcomes j ≤ index + moved := by
    intro j hj
    rw [← h.moved]
    exact reported_mono (by omega)
  constructor
  · apply h.made.next hok
    · omega
    · rw [h.moved]
      omega
    · intro j hj
      have hmono : endOfBlock driveSize (reported outcomes j) ≤
          endOfBlock driveSize (index + moved) := endOfBlock_mono (hbefore j (by omega))
      omega
  · omega
  · have haligned := h.aligned
    simp only [blockSize] at *
    omega
  · refine ⟨k + 1, rfl, by omega, ?_⟩
    intro j hj
    have hle := hbefore j hj
    omega

/-- With a call that completes the drive, oversteps the block or leaves it unfinished for the
last time the writing ends. -/
theorem Writing.last {size : SpanSize} (h : Writing driveSize outcomes index left moved k)
    (hn : n = min blockSize (driveSize - index)) (hmoved : moved < n)
    (hok : outcomes k = .ok size)
    (hends : moved + size.val = n ∧ driveSize ≤ index + n ∨ n < moved + size.val ∨
      left = 0 ∧ moved + size.val < n) : NoCallThrows driveSize outcomes := by
  have htotal := reported_ok hok
  rw [h.moved] at htotal
  have hend := endOfBlock_eq h.aligned hn hmoved
  intro k' hmade
  by_cases hlater : k < k'
  · exfalso
    rcases hends with hdone | hover | hexhausted
    · have hmono : reported outcomes (k + 1) ≤ reported outcomes k' := reported_mono hlater
      have hinside := hmade.inside
      omega
    · have hwithin := hmade.within k hlater
      rw [h.moved] at hwithin
      omega
    · obtain ⟨first, hfirst, hindex, -⟩ := h.begun
      rw [hexhausted.1, Nat.add_zero] at hfirst
      have hretries := hmade.retries first (by omega)
      have hmono : reported outcomes first ≤ reported outcomes k := reported_mono (by omega)
      rw [h.moved] at hmono
      obtain ⟨before, hbefore⟩ := Nat.exists_eq_add_of_le hindex
      have hfirstEnd := endOfBlock_eq h.aligned hn (show before < n by omega)
      rw [← hbefore] at hfirstEnd
      rw [← Nat.add_assoc, hfirst] at hretries
      omega
  · by_cases hlast : k' = k
    · rw [hlast, hok]
      rfl
    · exact h.made.counts k' (by omega)

end Progress

/-! ## How the pattern erase ends -/

section Ends
variable {driveSize : Nat} {outcomes : Nat → Except String SpanSize}

/-- Between two blocks, or at the end. -/
structure AtBlock (driveSize : Nat) (outcomes : Nat → Except String SpanSize) (index k : Nat) :
    Prop where
  le : index ≤ driveSize
  more : index < driveSize → Writing driveSize outcomes index maxRetry 0 k
  complete : driveSize ≤ index → NoCallThrows driveSize outcomes

inductive Threw (driveSize : Nat) (outcomes : Nat → Except String SpanSize) :
    Exception → Prop where
  | failure : NoCallThrows driveSize outcomes → Threw driveSize outcomes .internalFailure
  | system {k : Nat} {detail : String} :
      CallMade driveSize outcomes k → outcomes k = .error detail →
      Threw driveSize outcomes (.systemError detail)

inductive Ended (driveSize : Nat) (outcomes : Nat → Except String SpanSize) :
    Except Exception (Option Unit) → Prop where
  | normally : NoCallThrows driveSize outcomes → Ended driveSize outcomes (.ok (some ()))
  | threw {e : Exception} : Threw driveSize outcomes e → Ended driveSize outcomes (.error e)

theorem AtBlock.start (driveSize : Nat) (outcomes : Nat → Except String SpanSize) :
    AtBlock driveSize outcomes 0 0 := by
  constructor
  · exact Nat.zero_le driveSize
  · intro hpos
    constructor
    · exact callMade_zero hpos
    · rfl
    · rfl
    · refine ⟨0, Nat.add_comm 0 maxRetry, Nat.le_refl 0, ?_⟩
      intro j hj
      omega
  · intro hzero k hmade
    have hinside := hmade.inside
    omega

theorem writeBlock_scripted {arr : List UInt8} {index k n : Nat}
    (hn : n = min blockSize (driveSize - index)) (hlt : index < driveSize)
    (h : AtBlock driveSize outcomes index k) :
    Ensures (graph (script outcomes)) (writeBlock arr n) k fun _ out k' =>
      match out with
      | .ok _ => AtBlock driveSize outcomes (index + n) k'
      | .error e => Threw driveSize outcomes e := by
  have hblockSize : blockSize = 4096 := rfl
  refine transferLoop_rule (P := fun left moved _ k => Writing driveSize outcomes index left moved k)
    ?_ (by omega) (h.more hlt)
  intro left moved buffer k hmoved hwriting
  unfold writeSubspan
  rw [Ensures.bind_iff, ensures_write]
  intro answer k' hanswer
  obtain ⟨rfl, rfl⟩ : outcomes k = answer ∧ k + 1 = k' := by
    simpa [graph, script] using hanswer
  cases houtcome : outcomes k with
  | error detail => exact .system hwriting.made houtcome
  | ok size =>
    refine Ensures.ret_iff.mpr ?_
    have hcount : wrapAdd moved size.val = moved + size.val := wrapAdd_eq (by omega)
    dsimp only
    rw [hcount]
    refine ⟨?_, ?_, ?_⟩
    · intro hdone
      constructor
      · omega
      · intro hmore
        exact hwriting.done hn hmoved houtcome hdone hmore
      · intro hcomplete
        exact hwriting.last hn hmoved houtcome (.inl ⟨hdone, hcomplete⟩)
    · intro hover
      exact .failure (hwriting.last hn hmoved houtcome (.inr (.inl hover)))
    · intro hshort
      cases left with
      | zero => exact .failure (hwriting.last hn hmoved houtcome (.inr (.inr ⟨rfl, hshort⟩)))
      | succ left => exact hwriting.short hn hmoved houtcome hshort

theorem writePattern_scripted {driveSize : UInt64} (hsize : driveSize.toNat < 2 ^ 63) {fuel : Nat}
    (hfuel : driveSize.toNat ≤ blockSize * fuel) :
    Ensures (graph (script outcomes)) (writePattern fuel driveSize) 0 fun _ out _ =>
      Ended driveSize.toNat outcomes out := by
  have hfits := fits_of_lt hsize
  refine forBlocks_rule (P := fun fuel index _ k => driveSize.toNat ≤ index + blockSize * fuel ∧
    AtBlock driveSize.toNat outcomes index k) ?_ ?_ ?_ ⟨by omega, .start _ outcomes⟩
  · intro fuel index _ k hend h
    exact .normally (h.2.complete hend)
  · intro index _ k hlt h
    omega
  · intro fuel index generator k hlt h
    have hn : sizeOfBlock 64 driveSize.toNat index = min blockSize (driveSize.toNat - index) :=
      sizeOfBlock_eq (by decide) hfits hlt
    generalize sizeOfBlock 64 driveSize.toNat index = n at hn
    refine Ensures.bind (writeBlock_scripted hn hlt h.2) ?_ ?_
    · intro tr _ k' hblock
      refine Ensures.ret_iff.mpr ?_
      dsimp only
      rw [wrapAdd_eq (by omega)]
      refine ⟨?_, hblock⟩
      have hleft := h.1
      rw [Nat.mul_add_one] at hleft
      omega
    · intro tr e k' hthrew
      exact .threw hthrew

end Ends

/-- The same calls, for as many bytes each, and the same end. -/
structure EndAlike (r r' : Result fdPorts Exception (Option Unit) Nat) : Prop where
  requested : requested r = requested r'
  ends : r.out = .ok (some ()) ∧ r'.out = .ok (some ()) ∨
    r.out = .error .internalFailure ∧ r'.out = .error .internalFailure

theorem OutRelated.ends {driveSize : Nat} {outcomes : Nat → Except String SpanSize}
    {out out' : Except Exception (Option Unit)} (hrelated : OutRelated Eq Thrown out out')
    (hended : Ended driveSize outcomes out) (hnone : NoCallThrows driveSize outcomes) :
    out = .ok (some ()) ∧ out' = .ok (some ()) ∨
    out = .error .internalFailure ∧ out' = .error .internalFailure := by
  cases hrelated with
  | ok hsame =>
    subst hsame
    cases hended with
    | normally => exact .inl ⟨rfl, rfl⟩
  | error hthrown =>
    cases hthrown with
    | failure => exact .inr ⟨rfl, rfl⟩
    | system detail =>
      cases hended with
      | threw hthrew =>
        cases hthrew with
        | system hmade houtcome =>
          have hcount := hnone _ hmade
          rw [houtcome] at hcount
          cases hcount

/-- The two erases end alike just when no call that they come to throws: `writeZero` turns the
exception into `InternalFailure`, `writePattern` lets it pass. -/
theorem overwrites_alike_iff {driveSize : UInt64} (hsize : driveSize.toNat < 2 ^ 63) {fuel : Nat}
    (hfuel : driveSize.toNat ≤ blockSize * fuel) (outcomes : Nat → Except String SpanSize) :
    EndAlike ((writePattern fuel driveSize).run (script outcomes) 0)
      ((writeZero fuel driveSize).run (script outcomes) 0) ↔
    NoCallThrows driveSize.toNat outcomes := by
  obtain ⟨hrequested, hrelated⟩ := (overwrites_lockstep fuel driveSize).run outcomes 0
  have hpattern := Prog.run_of_ensures (script outcomes) (fun _ _ => rfl)
    (writePattern_scripted hsize hfuel)
  constructor
  · intro halike
    rcases halike.ends with hok | hfailure
    · rw [hok.1] at hpattern
      cases hpattern with
      | normally hnone => exact hnone
    · rw [hfailure.1] at hpattern
      cases hpattern with
      | threw hthrew =>
        cases hthrew with
        | failure hnone => exact hnone
  · intro hnone
    exact ⟨hrequested, hrelated.ends hpattern hnone⟩

theorem overwrites_alike_iff_short :
    EndAlike ((writePattern 1 5).run (script fun _ => .ok 3) 0)
      ((writeZero 1 5).run (script fun _ => .ok 3) 0) ↔
    NoCallThrows (5 : UInt64).toNat fun _ => .ok 3 :=
  @overwrites_alike_iff 5 (by decide) 1 (by decide) fun _ => .ok 3

theorem write_throws_through : ¬ EndAlike
    ((writePattern 1 1).run (script fun _ => .error "write") 0)
    ((writeZero 1 1).run (script fun _ => .error "write") 0) := by
  intro halike
  have hthrew : ((writePattern 1 1).run (script fun _ => .error "write") 0).out =
      .error (.systemError "write") := rfl
  rcases halike.ends with hok | hfailure
  · rw [hthrew] at hok
    cases hok.1
  · rw [hthrew] at hfailure
    cases hfailure.1

end Estoraged

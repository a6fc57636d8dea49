import Estoraged.Interfaces
import Mathlib.Algebra.Order.Ring.Nat

/-!
# Block transfers over a file descriptor

The two nested loops that `Pattern` and `Zero` are made of: the inner one transfers a
block piece by piece, the outer one goes through the blocks of the drive. Integers
wrap as `size_t` and `uint64_t` do; delays and log messages are left out.
-/

namespace Estoraged
open Interaction
set_option autoImplicit false

/-- The size of a span; no object is larger. -/
abbrev SpanSize := Fin (2 ^ 63)

abbrev Span := { bytes : List UInt8 // bytes.length < 2 ^ 63 }

/-- `write` and `read` of `stdplus::Fd`, with the place of the subspan in its buffer. -/
inductive FdCall where
  | write (start : Nat) (bytes : List UInt8)
  | read (start size : Nat)
deriving DecidableEq, Repr

abbrev FdCall.Ret : FdCall → Type
  | .write _ _ => Except String SpanSize
  | .read _ _ => Except String Span

abbrev fdPorts : Interface := ⟨FdCall, FdCall.Ret⟩

abbrev FdM (α : Type) := Prog fdPorts Exception α

def Fd.write (start : Nat) (bytes : List UInt8) : FdM Nat :=
  .call (.write start bytes) fun answer =>
    match answer with
    | .ok size => .ret size.val
    | .error detail => .throw (.systemError detail)

def Fd.read (start size : Nat) : FdM (List UInt8) :=
  .call (.read start size) fun answer =>
    match answer with
    | .ok span => .ret span.val
    | .error detail => .throw (.systemError detail)

/-! ## The loops -/

def wrapAdd (a b : Nat) : Nat := (a + b) % 2 ^ 64

def wrapSub (a b : Nat) : Nat := (a + 2 ^ 64 - b) % 2 ^ 64

def blockSize : Nat := 4096

def maxRetry : Nat := 32

/-- The inner loop, `left` being `maxRetry - retry`. -/
def transferLoop {β : Type} (io : Nat → β → FdM (Nat × β)) (size left moved : Nat) (buffer : β) :
    FdM β :=
  if moved < size then do
    let (count, buffer) ← io moved buffer
    let moved := wrapAdd moved count
    if moved = size then pure buffer
    else if size < moved then throw .internalFailure
    else
      match left with
      | 0 => throw .internalFailure
      | left + 1 => transferLoop io size left moved buffer
  else pure buffer

def writeSubspan (arr : List UInt8) (writeSize written : Nat) (_ : Unit) : FdM (Nat × Unit) := do
  let size ← Fd.write written ((arr.drop written).take (wrapSub writeSize written))
  pure (size, ())

def writeBlock (arr : List UInt8) (writeSize : Nat) : FdM Unit :=
  transferLoop (writeSubspan arr writeSize) writeSize maxRetry 0 ()

def place (buffer : List UInt8) (start : Nat) (bytes : List UInt8) : List UInt8 :=
  buffer.take start ++ bytes ++ buffer.drop (start + bytes.length)

def readSubspan (readSize read : Nat) (readArr : List UInt8) : FdM (Nat × List UInt8) := do
  let bytes ← Fd.read read (wrapSub readSize read)
  pure (bytes.length, place readArr read bytes)

def readBlock (readArr : List UInt8) (readSize : Nat) : FdM (List UInt8) :=
  transferLoop (readSubspan readSize) readSize maxRetry 0 readArr

/-- The size of the block at `currentIndex`, stored in a variable of `width` bits. -/
def sizeOfBlock (width driveSize currentIndex : Nat) : Nat :=
  (if wrapAdd currentIndex blockSize < driveSize then blockSize
    else wrapSub driveSize currentIndex) % 2 ^ width

/-- The outer loop for at most `fuel` blocks; `none` while there are more. -/
def blockLoop {γ : Type} (width driveSize : Nat) (block : Nat → γ → FdM γ)
    (fuel currentIndex : Nat) (s : γ) : FdM (Option γ) :=
  if currentIndex < driveSize then
    match fuel with
    | 0 => pure none
    | fuel + 1 => do
      let size := sizeOfBlock width driveSize currentIndex
      let s ← block size s
      blockLoop width driveSize block fuel (wrapAdd currentIndex size) s
  else pure (some s)

/-- The outer loop from the start of the drive on; what it keeps for itself is dropped. -/
def forBlocks {γ : Type} (width driveSize : Nat) (block : Nat → γ → FdM γ) (fuel : Nat) (s : γ) :
    FdM (Option Unit) := do
  let finished ← blockLoop width driveSize block fuel 0 s
  pure (finished.map fun _ => ())

/-! ## Loop rules -/

section Rules
variable {σ : Type} {env : Env fdPorts σ}

@[simp] theorem ensures_write {start : Nat} {bytes : List UInt8} {s : σ}
    {Q : Trace fdPorts σ → Except Exception Nat → σ → Prop} :
    Ensures env (Fd.write start bytes) s Q ↔ ∀ answer s', env s (.write start bytes) answer s' →
      Q [⟨s, .write start bytes, answer⟩]
        (match answer with
          | .ok size => .ok size.val
          | .error detail => .error (.systemError detail)) s' := by
  unfold Fd.write
  rw [Ensures.call_iff]
  refine forall₃_congr fun answer s' _ => ?_
  cases answer <;> simp

@[simp] theorem ensures_read {start size : Nat} {s : σ}
    {Q : Trace fdPorts σ → Except Exception (List UInt8) → σ → Prop} :
    Ensures env (Fd.read start size) s Q ↔ ∀ answer s', env s (.read start size) answer s' →
      Q [⟨s, .read start size, answer⟩]
        (match answer with
          | .ok span => .ok span.val
          | .error detail => .error (.systemError detail)) s' := by
  unfold Fd.read
  rw [Ensures.call_iff]
  refine forall₃_congr fun answer s' _ => ?_
  cases answer <;> simp

/-- One iteration of the inner loop, and the loop again unless the call was the last. -/
theorem transferLoop_step {β : Type} {io : Nat → β → FdM (Nat × β)} {size left moved : Nat}
    {buffer : β} {s : σ} {Q : Trace fdPorts σ → Except Exception β → σ → Prop}
    (hmoved : moved < size)
    (hio : Ensures env (io moved buffer) s fun tr out s' =>
      match out with
      | .error e => Q tr (.error e) s'
      | .ok (count, buffer') =>
        (wrapAdd moved count = size → Q tr (.ok buffer') s') ∧
        (size < wrapAdd moved count → Q tr (.error .internalFailure) s') ∧
        (wrapAdd moved count < size →
          match left with
          | 0 => Q tr (.error .internalFailure) s'
          | left + 1 => Ensures env (transferLoop io size left (wrapAdd moved count) buffer') s'
              fun tr' out s'' => Q (tr ++ tr') out s'')) :
    Ensures env (transferLoop io size left moved buffer) s Q := by
  unfold transferLoop
  rw [if_pos hmoved]
  refine Ensures.bind hio ?_ fun _ _ _ h => h
  intro tr answered s' h
  obtain ⟨count, buffer'⟩ := answered
  obtain ⟨hdone, hover, hshort⟩ := h
  dsimp only
  split_ifs with heq hlt
  · simpa using hdone heq
  · simpa using hover hlt
  · have hagain := hshort (by omega)
    cases left with
    | zero => simpa using hagain
    | succ left => exact hagain

/-- The invariant rule of the inner loop: a call ends the loop in `Q`, or leaves `P` with
one retry less. -/
theorem transferLoop_rule {β : Type} {io : Nat → β → FdM (Nat × β)} {size : Nat}
    {P : Nat → Nat → β → σ → Prop} {Q : Except Exception β → σ → Prop}
    (hio : ∀ left moved buffer s, moved < size → P left moved buffer s →
      Ensures env (io moved buffer) s fun _ out s' =>
        match out with
        | .error e => Q (.error e) s'
        | .ok (count, buffer') =>
          (wrapAdd moved count = size → Q (.ok buffer') s') ∧
          (size < wrapAdd moved count → Q (.error .internalFailure) s') ∧
          (wrapAdd moved count < size →
            match left with
            | 0 => Q (.error .internalFailure) s'
            | left + 1 => P left (wrapAdd moved count) buffer' s'))
    {left moved : Nat} {buffer : β} {s : σ} (hmoved : moved < size) (hP : P left moved buffer s) :
    Ensures env (transferLoop io size left moved buffer) s fun _ out s' => Q out s' := by
  induction left generalizing moved buffer s with
  | zero => exact transferLoop_step hmoved (hio _ _ _ _ hmoved hP)
  | succ left ih =>
    refine transferLoop_step hmoved ((hio _ _ _ _ hmoved hP).mono ?_)
    intro tr out s' h
    cases out with
    | error e => exact h
    | ok answered =>
      obtain ⟨hdone, hover, hshort⟩ := h
      exact ⟨hdone, hover, fun hlt => ih hlt (hshort hlt)⟩

theorem forBlocks_rule {γ : Type} {width driveSize : Nat} {block : Nat → γ → FdM γ}
    {P : Nat → Nat → γ → σ → Prop} {Q : Except Exception (Option Unit) → σ → Prop}
    (hend : ∀ fuel currentIndex a s, driveSize ≤ currentIndex → P fuel currentIndex a s →
      Q (.ok (some ())) s)
    (hfuel : ∀ currentIndex a s, currentIndex < driveSize → P 0 currentIndex a s →
      Q (.ok none) s)
    (hblock : ∀ fuel currentIndex a s, currentIndex < driveSize →
      P (fuel + 1) currentIndex a s →
      Ensures env (block (sizeOfBlock width driveSize currentIndex) a) s fun _ out s' =>
        match out with
        | .error e => Q (.error e) s'
        | .ok a' =>
          P fuel (wrapAdd currentIndex (sizeOfBlock width driveSize currentIndex)) a' s')
    {fuel : Nat} {a : γ} {s : σ} (hP : P fuel 0 a s) :
    Ensures env (forBlocks width driveSize block fuel a) s fun _ out s' => Q out s' := by
  unfold forBlocks
  generalize 0 = currentIndex at hP ⊢
  induction fuel generalizing currentIndex a s with
  | zero =>
    unfold blockLoop
    split_ifs with hlt
    · simpa using hfuel _ _ _ hlt hP
    · simpa using hend _ _ _ _ (Nat.le_of_not_lt hlt) hP
  | succ fuel ih =>
    unfold blockLoop
    split_ifs with hlt
    · rw [bind_assoc]
      exact Ensures.bind (hblock _ _ _ _ hlt hP) (fun _ _ _ h => ih _ h) fun _ _ _ h => h
    · simpa using hend _ _ _ _ (Nat.le_of_not_lt hlt) hP

end Rules

end Estoraged

import Estoraged.WholeDrive

/-!
# The zero erase

`Zero::writeZero` and `Zero::verifyZero`. The block size is kept in 32 bits here, and
every exception becomes `InternalFailure`.
-/

namespace Estoraged
open Interaction
set_option autoImplicit false

def blockOfZeros : List UInt8 := List.replicate blockSize 0

def writeZeroBlock (writeSize : Nat) (_ : Unit) : FdM Unit :=
  tryCatch (writeBlock blockOfZeros writeSize) fun _ => throw .internalFailure

def writeZero (fuel : Nat) (driveSize : UInt64) : FdM (Option Unit) :=
  forBlocks 32 driveSize.toNat writeZeroBlock fuel ()

def verifyZeroBlock (readSize : Nat) (readArr : List UInt8) : FdM (List UInt8) := do
  let readArr ← tryCatch (readBlock readArr readSize) fun _ => throw .internalFailure
  -- the buffer still holds an earlier block behind `readSize`
  if readArr.take readSize = blockOfZeros.take readSize then pure readArr
  else throw .internalFailure

def verifyZero (fuel : Nat) (driveSize : UInt64) : FdM (Option Unit) :=
  forBlocks 32 driveSize.toNat verifyZeroBlock fuel (List.replicate blockSize 0)

/-! ## Writing and verifying -/

theorem take_blockOfZeros {n : Nat} (h : n ≤ blockSize) (start : Nat) :
    blockOfZeros.take n = stretch (fun _ => 0) start n := by
  rw [blockOfZeros, List.take_replicate, Nat.min_eq_left h, stretch]
  simp

theorem writeZeroBlock_spec (b : Nat) (s : Unit) (n : Nat) (m : Medium) (_ : True)
    (hpos : 0 < n) (hle : n ≤ blockSize) :
    Ensures (graph medium) (writeZeroBlock n s) m fun _ out m' =>
      WritesBlock (fun _ => 0) (fun _ _ => True) b n m out m' := by
  have hlength : n ≤ blockOfZeros.length := by rwa [blockOfZeros, List.length_replicate]
  have hlt : n < 2 ^ 63 := Nat.lt_of_le_of_lt hle (by decide)
  refine ensures_caught ((writeBlock_spec hpos hlength hlt m).mono ?_) fun e m' h => h.1
  intro tr out m' hwrote
  cases out with
  | ok _ =>
    rw [Wrote, take_blockOfZeros hle (blockSize * b)] at hwrote
    exact ⟨trivial, hwrote⟩
  | error e =>
    rcases hwrote with ⟨rfl, k, hk, hwrote⟩
    rw [take_blockOfZeros (by omega) (blockSize * b)] at hwrote
    exact ⟨rfl, k, hk, hwrote⟩

theorem verifyZeroBlock_spec (b : Nat) (readArr : List UInt8) (n : Nat) (m : Medium) (_ : True)
    (hpos : 0 < n) (hle : n ≤ blockSize) :
    Ensures (graph medium) (verifyZeroBlock n readArr) m fun _ out m' =>
      ChecksBlock (fun _ => 0) (fun _ _ => True) b n m out m' := by
  have hlt : n < 2 ^ 63 := Nat.lt_of_le_of_lt hle (by decide)
  rw [verifyZeroBlock]
  apply check_spec readArr hpos hlt m
  intro readArr' m' hread
  have hmatches : readArr'.take n = blockOfZeros.take n ↔
      readArr'.take n = stretch (fun _ => 0) (blockSize * b) n := by
    rw [take_blockOfZeros hle]
  exact compare_spec hread trivial hmatches

theorem writeZero_spec {driveSize : UInt64} (hsize : driveSize.toNat + blockSize ≤ 2 ^ 64)
    {fuel : Nat} (hfuel : driveSize.toNat ≤ blockSize * fuel) (m : Medium) :
    Ensures (graph medium) (writeZero fuel driveSize) m fun _ out m' =>
      WritesDrive (fun _ => 0) driveSize.toNat m out m' :=
  write_drive (by decide) writeZeroBlock_spec hsize hfuel trivial m

theorem verifyZero_spec {driveSize : UInt64} (hsize : driveSize.toNat + blockSize ≤ 2 ^ 64)
    {fuel : Nat} (hfuel : driveSize.toNat ≤ blockSize * fuel) (bytes : List UInt8)
    (schedule : Nat → Nat) :
    Ensures (graph medium) (verifyZero fuel driveSize) (.rewound bytes schedule)
      fun _ out _ => VerifiesDrive (fun _ => 0) driveSize.toNat bytes schedule out :=
  verify_drive (by decide) verifyZeroBlock_spec hsize hfuel trivial bytes schedule

/-- `writeZero` wipes the drive and nothing else, and `verifyZero` accepts wiped drives
only: not one that ends early, nor one whose old blocks linger in the read buffer. -/
theorem zeros_written_and_verified {driveSize : UInt64} (hsize : driveSize.toNat < 2 ^ 63)
    {fuel : Nat} (hfuel : driveSize.toNat ≤ blockSize * fuel) (bytes : List UInt8)
    (schedule : Nat → Nat) :
    let written := (writeZero fuel driveSize).run medium (.rewound bytes schedule)
    let verified := (verifyZero fuel driveSize).run medium (.rewound bytes schedule)
    (written.out = .ok (some ()) ∨ written.out = .error .internalFailure) ∧
    (written.out = .ok (some ()) → ∀ k, written.state.contents[k]? =
      if k < driveSize.toNat then some 0 else bytes[k]?) ∧
    (written.out = .error .internalFailure → ∃ k₀ < driveSize.toNat,
      written.state.before.length = k₀ ∧ ∀ k, written.state.contents[k]? =
        if k < k₀ then some 0 else bytes[k]?) ∧
    (verified.out = .ok (some ()) ∨ verified.out = .error .internalFailure) ∧
    (Completes schedule driveSize.toNat →
      (verified.out = .ok (some ()) ↔ ∀ k < driveSize.toNat, bytes[k]? = some 0)) ∧
    (bytes.length < driveSize.toNat → verified.out = .error .internalFailure) := by
  intro written verified
  have hwrite := Prog.run_of_ensures medium (fun _ _ => rfl)
    (writeZero_spec (fits_of_lt hsize) hfuel (.rewound bytes schedule))
  have hverify := Prog.run_of_ensures medium (fun _ _ => rfl)
    (verifyZero_spec (fits_of_lt hsize) hfuel bytes schedule)
  rcases hwrite.bytewise with ⟨hends, hdone, hstopped⟩
  rcases hverify.bytewise with ⟨hends', hright, hiff⟩
  refine ⟨hends, hdone, hstopped, hends', hiff, fun hshort => ?_⟩
  rcases hends' with hok | hthrew
  · have hlast := hright hok bytes.length hshort
    simp at hlast
  · exact hthrew

theorem zeros_written_and_verified_short :
    let verified := (verifyZero 1 5).run medium (.rewound [0, 0, 0] fun _ => 2)
    verified.out = .error .internalFailure :=
  (@zeros_written_and_verified 5 (by decide) 1 (by decide) [0, 0, 0] fun _ => 2).2.2.2.2.2
    (by decide)

end Estoraged

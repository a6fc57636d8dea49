import Estoraged.LinearCongruential
import Estoraged.WholeDrive

/-!
# The pattern erase

`Pattern::writePattern` and `Pattern::verifyPattern` generate the same bytes: byte `k`
of the drive depends on `k` alone. The generator runs one whole block ahead also when
only the rest of a drive is left.
-/

namespace Estoraged
open Interaction LinearCongruential
set_option autoImplicit false

def minstdRand0 : Engine where
  multiplier := 16807
  increment := 0
  modulus := 2147483647

def seed : Nat := 0x6a656272

def blockSizeUsing32 : Nat := blockSize / 4

def littleEndian (word : Nat) : List UInt8 :=
  [.ofNat word, .ofNat (word / 256), .ofNat (word / 256 ^ 2), .ofNat (word / 256 ^ 3)]

/-- Generates the 32-bit words of one block; also returns the generator. -/
def fillBlock (generator : Nat) : List UInt8 × Nat :=
  let filled := minstdRand0.outputs blockSizeUsing32 generator
  (filled.1.flatMap littleEndian, filled.2)

def writePatternBlock (writeSize generator : Nat) : FdM Nat := do
  let (randArr, generator) := fillBlock generator
  writeBlock randArr writeSize
  pure generator

def writePattern (fuel : Nat) (driveSize : UInt64) : FdM (Option Unit) :=
  forBlocks 64 driveSize.toNat writePatternBlock fuel (minstdRand0.seeded seed)

def verifyPatternBlock (readSize : Nat) (s : Nat × List UInt8) : FdM (Nat × List UInt8) := do
  let (generator, readArr) := s
  let (randArr, generator) := fillBlock generator
  let readArr ← tryCatch (readBlock readArr readSize) fun _ => throw .internalFailure
  if randArr.take readSize = readArr.take readSize then pure (generator, readArr)
  else throw .internalFailure

def verifyPattern (fuel : Nat) (driveSize : UInt64) : FdM (Option Unit) :=
  forBlocks 64 driveSize.toNat verifyPatternBlock fuel
    (minstdRand0.seeded seed, List.replicate blockSize 0)

/-! ## The pattern -/

def patternWord (k : Nat) : Nat := minstdRand0.output (minstdRand0.seeded seed) k

/-- What belongs at position `k` of the drive. -/
def patternByte (k : Nat) : UInt8 := .ofNat (patternWord (k / 4) / 256 ^ (k % 4))

def generatorAt (b : Nat) : Nat := minstdRand0.next^[blockSizeUsing32 * b] (minstdRand0.seeded seed)

theorem stretch_word (k : Nat) : stretch patternByte (4 * k) 4 = littleEndian (patternWord k) := by
  have hbyte : ∀ j < 4, patternByte (4 * k + j) = .ofNat (patternWord k / 256 ^ j) := by
    intro j hj
    rw [patternByte, Nat.mul_add_div (by decide), Nat.mul_add_mod, Nat.div_eq_of_lt hj,
      Nat.mod_eq_of_lt hj, Nat.add_zero]
  have hfirst : patternByte (4 * k) = .ofNat (patternWord k) := by
    simpa using hbyte 0 (by decide)
  simp [stretch, List.range_succ, hbyte, hfirst, littleEndian]

theorem stretch_words (b n : Nat) :
    ((List.range n).map fun i => patternWord (b + i)).flatMap littleEndian =
      stretch patternByte (4 * b) (4 * n) := by
  induction n with
  | zero => rfl
  | succ n ih =>
    rw [List.range_succ, List.map_append, List.flatMap_append, ih, Nat.mul_add_one,
      ← stretch_append, ← Nat.mul_add, stretch_word]
    simp

theorem fillBlock_eq (b : Nat) : fillBlock (generatorAt b) =
    (stretch patternByte (blockSize * b) blockSize, generatorAt (b + 1)) := by
  have hwords : minstdRand0.output (generatorAt b) =
      fun i => patternWord (blockSizeUsing32 * b + i) := by
    funext i
    exact minstdRand0.output_iterate _ _ _
  have hnext : minstdRand0.next^[blockSizeUsing32] (generatorAt b) = generatorAt (b + 1) := by
    rw [generatorAt, ← Function.iterate_add_apply, generatorAt]
    congr 1
    rw [Nat.mul_add_one, Nat.add_comm]
  have hblock : 4 * blockSizeUsing32 = blockSize := rfl
  rw [fillBlock, Engine.outputs_eq, hwords, hnext, stretch_words, ← Nat.mul_assoc, hblock]

/-! ## Writing and verifying -/

theorem writePatternBlock_spec (b generator n : Nat) (m : Medium)
    (hgenerator : generator = generatorAt b) (hpos : 0 < n) (hle : n ≤ blockSize) :
    Ensures (graph medium) (writePatternBlock n generator) m fun _ out m' =>
      WritesBlock patternByte (fun b generator => generator = generatorAt b) b n m out m' := by
  subst hgenerator
  rw [writePatternBlock, fillBlock_eq]
  have hlength : n ≤ (stretch patternByte (blockSize * b) blockSize).length := by
    rwa [length_stretch]
  have hlt : n < 2 ^ 63 := Nat.lt_of_le_of_lt hle (by decide)
  refine Ensures.bind (writeBlock_spec hpos hlength hlt m) ?_ ?_
  · intro tr _ m' hwrote
    rw [Wrote, take_stretch _ hle] at hwrote
    exact Ensures.ret_iff.mpr ⟨rfl, hwrote⟩
  · intro tr e m' h
    rcases h with ⟨rfl, k, hk, hwrote⟩
    rw [take_stretch _ (by omega)] at hwrote
    exact ⟨rfl, k, hk, hwrote⟩

theorem verifyPatternBlock_spec (b : Nat) (s : Nat × List UInt8) (n : Nat) (m : Medium)
    (hgenerator : s.1 = generatorAt b) (hpos : 0 < n) (hle : n ≤ blockSize) :
    Ensures (graph medium) (verifyPatternBlock n s) m fun _ out m' =>
      ChecksBlock patternByte (fun b s => s.1 = generatorAt b) b n m out m' := by
  rcases s with ⟨generator, readArr⟩
  obtain rfl : generator = generatorAt b := hgenerator
  have hlt : n < 2 ^ 63 := Nat.lt_of_le_of_lt hle (by decide)
  rw [verifyPatternBlock, fillBlock_eq]
  apply check_spec readArr hpos hlt m
  intro readArr' m' hread
  have hmatches : (stretch patternByte (blockSize * b) blockSize).take n = readArr'.take n ↔
      readArr'.take n = stretch patternByte (blockSize * b) n := by
    rw [take_stretch _ hle, eq_comm]
  refine compare_spec hread ?_ hmatches
  simp only

theorem writePattern_spec {driveSize : UInt64} (hsize : driveSize.toNat + blockSize ≤ 2 ^ 64)
    {fuel : Nat} (hfuel : driveSize.toNat ≤ blockSize * fuel) (m : Medium) :
    Ensures (graph medium) (writePattern fuel driveSize) m fun _ out m' =>
      WritesDrive patternByte driveSize.toNat m out m' :=
  write_drive (by decide) writePatternBlock_spec hsize hfuel rfl m

theorem verifyPattern_spec {driveSize : UInt64} (hsize : driveSize.toNat + blockSize ≤ 2 ^ 64)
    {fuel : Nat} (hfuel : driveSize.toNat ≤ blockSize * fuel) (bytes : List UInt8)
    (schedule : Nat → Nat) :
    Ensures (graph medium) (verifyPattern fuel driveSize) (.rewound bytes schedule)
      fun _ out _ => VerifiesDrive patternByte driveSize.toNat bytes schedule out :=
  verify_drive (by decide) verifyPatternBlock_spec hsize hfuel rfl bytes schedule

/-- What `writePattern` leaves on the medium and what `verifyPattern` accepts there is the
same pattern, whatever the transfers are split into. -/
theorem pattern_written_and_verified {driveSize : UInt64} (hsize : driveSize.toNat < 2 ^ 63)
    {fuel : Nat} (hfuel : driveSize.toNat ≤ blockSize * fuel) (bytes : List UInt8)
    (schedule : Nat → Nat) :
    let written := (writePattern fuel driveSize).run medium (.rewound bytes schedule)
    let verified := (verifyPattern fuel driveSize).run medium (.rewound bytes schedule)
    (written.out = .ok (some ()) ∨ written.out = .error .internalFailure) ∧
    (written.out = .ok (some ()) → ∀ k, written.state.contents[k]? =
      if k < driveSize.toNat then some (patternByte k) else bytes[k]?) ∧
    (written.out = .error .internalFailure → ∃ k₀ < driveSize.toNat,
      written.state.before.length = k₀ ∧ ∀ k, written.state.contents[k]? =
        if k < k₀ then some (patternByte k) else bytes[k]?) ∧
    (verified.out = .ok (some ()) ∨ verified.out = .error .internalFailure) ∧
    (Completes schedule driveSize.toNat →
      (verified.out = .ok (some ()) ↔
        ∀ k < driveSize.toNat, bytes[k]? = some (patternByte k))) := by
  intro written verified
  have hwrite := Prog.run_of_ensures medium (fun _ _ => rfl)
    (writePattern_spec (fits_of_lt hsize) hfuel (.rewound bytes schedule))
  have hverify := Prog.run_of_ensures medium (fun _ _ => rfl)
    (verifyPattern_spec (fits_of_lt hsize) hfuel bytes schedule)
  rcases hwrite.bytewise with ⟨hends, hdone, hstopped⟩
  rcases hverify.bytewise with ⟨hends', -, hiff⟩
  exact ⟨hends, hdone, hstopped, hends', hiff⟩

theorem pattern_written_and_verified_short :
    let written := (writePattern 1 5).run medium (.rewound [0, 0, 0, 0, 0, 7] fun _ => 3)
    written.out = .ok (some ()) ∧ ∀ k, written.state.contents[k]? =
      if k < (5 : UInt64).toNat then some (patternByte k) else [0, 0, 0, 0, 0, 7][k]? :=
  ⟨rfl, (@pattern_written_and_verified 5 (by decide) 1 (by decide) [0, 0, 0, 0, 0, 7]
    fun _ => 3).2.1 rfl⟩

end Estoraged

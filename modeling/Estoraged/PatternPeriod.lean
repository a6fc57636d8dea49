import Estoraged.MultiplicativePeriod
import Estoraged.Pattern
import Mathlib.Tactic.NormNum.Prime
import Mathlib.Tactic.ReduceModChar

/-!
# The period of the pattern

The blocks of the pattern come again after `2 ^ 30 - 1` of them and not before, so the
verification notices a block that lies in another's place.
-/

namespace Estoraged
open Interaction LinearCongruential
set_option autoImplicit false

theorem minstdRand0_fullPeriod : minstdRand0.FullPeriod := by
  have hprime : ∀ q ∈ [2, 3, 3, 7, 11, 31, 151, 331], Nat.Prime q := by norm_num
  have hone : ((16807 : Nat) : ZMod 2147483647) ^ 2147483646 = 1 := by
    rw [Nat.cast_ofNat]
    reduce_mod_char
  have hne : ∀ q ∈ [2, 3, 3, 7, 11, 31, 151, 331],
      ((16807 : Nat) : ZMod 2147483647) ^ (2147483646 / q) ≠ 1 := by
    rw [Nat.cast_ofNat]
    intro q hq
    fin_cases hq
    all_goals
      norm_num only
      reduce_mod_char
      decide
  exact Engine.FullPeriod.of_factors rfl (Nat.le_of_ble_eq_true rfl) hprime rfl hone hne

def patternPeriod : Nat := 2 ^ 30 - 1

theorem seeded_ne_zero : ((minstdRand0.seeded seed : Nat) : ZMod minstdRand0.modulus) ≠ 0 := by
  rw [Ne, ZMod.natCast_eq_zero_iff]
  apply Nat.not_dvd_of_pos_of_lt
  · decide
  · decide

theorem patternWord_ne_zero (k : Nat) : patternWord k ≠ 0 :=
  minstdRand0_fullPeriod.output_ne_zero seeded_ne_zero k

theorem patternWord_lt (k : Nat) : patternWord k < 2 ^ 32 := by
  have hlt : patternWord k < 2147483647 := Engine.output_lt minstdRand0_fullPeriod.prime.pos _ k
  omega

theorem patternWord_stride_iff (i j w : Nat) :
    patternWord (blockSizeUsing32 * i + w) = patternWord (blockSizeUsing32 * j + w) ↔
      i ≡ j [MOD patternPeriod] := by
  have hperiod : (minstdRand0.modulus - 1) / (minstdRand0.modulus - 1).gcd blockSizeUsing32 =
      patternPeriod := by decide
  rw [← hperiod]
  exact minstdRand0_fullPeriod.output_stride_iff seeded_ne_zero blockSizeUsing32 i j w

/-! ## Words and blocks -/

theorem littleEndian_injective {v w : Nat} (hv : v < 2 ^ 32) (hw : w < 2 ^ 32)
    (h : littleEndian v = littleEndian w) : v = w := by
  simp only [littleEndian, List.cons.injEq, and_true, ← UInt8.toNat_inj, UInt8.toNat_ofNat'] at h
  omega

/-- Block `b` as the writer generates it. -/
def patternBlock (b : Nat) : List UInt8 := (fillBlock (generatorAt b)).1

def wordAt (bytes : List UInt8) (w : Nat) : List UInt8 := (bytes.drop (4 * w)).take 4

theorem patternBlock_eq (b : Nat) :
    patternBlock b = stretch patternByte (blockSize * b) blockSize := by
  rw [patternBlock, fillBlock_eq]

theorem wordAt_patternBlock (b : Nat) {w : Nat} (hw : w < blockSizeUsing32) :
    wordAt (patternBlock b) w = littleEndian (patternWord (blockSizeUsing32 * b + w)) := by
  have hblock : blockSize * b + 4 * w = 4 * (blockSizeUsing32 * b + w) := by
    simp only [blockSizeUsing32, blockSize]
    omega
  have hfits : 4 * w + 4 ≤ blockSize := by
    simp only [blockSizeUsing32, blockSize] at *
    omega
  rw [wordAt, patternBlock_eq, take_drop_stretch _ hfits, hblock, stretch_word]

theorem wordAt_eq_iff (i j : Nat) {w : Nat} (hw : w < blockSizeUsing32) :
    wordAt (patternBlock i) w = wordAt (patternBlock j) w ↔ i ≡ j [MOD patternPeriod] := by
  rw [wordAt_patternBlock i hw, wordAt_patternBlock j hw, ← patternWord_stride_iff i j w]
  constructor
  · exact littleEndian_injective (patternWord_lt _) (patternWord_lt _)
  · exact congrArg littleEndian

theorem patternBlock_eq_iff (i j : Nat) :
    patternBlock i = patternBlock j ↔ i ≡ j [MOD patternPeriod] := by
  have hpos : 0 < blockSizeUsing32 := by decide
  constructor
  · intro hsame
    apply (wordAt_eq_iff i j hpos).mp
    rw [hsame]
  · intro hperiod
    have hwords : (fun w => patternWord (blockSizeUsing32 * i + w)) =
        fun w => patternWord (blockSizeUsing32 * j + w) := by
      funext w
      exact (patternWord_stride_iff i j w).mpr hperiod
    have hblock : ∀ b, blockSize * b = 4 * (blockSizeUsing32 * b) := by
      intro b
      rw [← Nat.mul_assoc]
      rfl
    have hsize : blockSize = 4 * blockSizeUsing32 := rfl
    rw [patternBlock_eq, patternBlock_eq, hblock i, hblock j, hsize, ← stretch_words, hwords,
      stretch_words]

/-! ## Misdirected blocks -/

def blockOn (bytes : List UInt8) (b : Nat) : List UInt8 :=
  (bytes.drop (blockSize * b)).take blockSize

def withBlock (bytes : List UInt8) (b : Nat) (block : List UInt8) : List UInt8 :=
  place bytes (blockSize * b) block

/-- The contents of block `j` in place of block `i`. -/
def misdirected (bytes : List UInt8) (i j : Nat) : List UInt8 :=
  withBlock bytes i (blockOn bytes j)

def swapped (bytes : List UInt8) (i j : Nat) : List UInt8 :=
  withBlock (misdirected bytes i j) j (blockOn bytes i)

/-- However the reads are split up, the verification does not accept the bytes. -/
def Rejects (fuel : Nat) (driveSize : UInt64) (bytes : List UInt8) : Prop :=
  ∀ schedule, ((verifyPattern fuel driveSize).run medium (.rewound bytes schedule)).out =
    .error .internalFailure

theorem length_place_le (buffer : List UInt8) (start : Nat) (bytes : List UInt8) :
    buffer.length ≤ (place buffer start bytes).length := by
  simp only [place, List.length_append, List.length_take, List.length_drop]
  omega

theorem blockOn_withBlock {bytes block : List UInt8} {b : Nat} (hlength : block.length = blockSize)
    (hle : blockSize * b ≤ bytes.length) : blockOn (withBlock bytes b block) b = block := by
  have hbefore : (bytes.take (blockSize * b)).length = blockSize * b := by
    rw [List.length_take]
    omega
  rw [blockOn, withBlock, place, List.append_assoc, List.drop_left' hbefore]
  exact List.take_left' hlength

section Medium
variable {driveSize : Nat} {bytes : List UInt8}

theorem blockOn_pattern {b : Nat} (h : ∀ k < driveSize, bytes[k]? = some (patternByte k))
    (hb : blockSize * (b + 1) ≤ driveSize) : blockOn bytes b = patternBlock b := by
  rw [Nat.mul_add_one] at hb
  have hstretch := @take_drop_stretch patternByte 0 _ _ _ hb
  rw [← (take_eq_stretch_iff patternByte).mpr h, List.drop_take, List.take_take, Nat.zero_add,
    Nat.min_eq_left (by omega)] at hstretch
  rw [patternBlock_eq]
  exact hstretch

theorem pattern_holds_block {b : Nat} (h : ∀ k < driveSize, bytes[k]? = some (patternByte k))
    (hb : blockSize * (b + 1) ≤ driveSize) :
    (blockOn bytes b).length = blockSize ∧ blockSize * b ≤ bytes.length := by
  have hlengths := congrArg List.length ((take_eq_stretch_iff patternByte).mpr h)
  rw [List.length_take, length_stretch] at hlengths
  constructor
  · rw [blockOn_pattern h hb, patternBlock_eq, length_stretch]
  · rw [Nat.mul_add_one] at hb
    omega

theorem blockOn_misdirected {i j : Nat} (h : ∀ k < driveSize, bytes[k]? = some (patternByte k))
    (hi : blockSize * (i + 1) ≤ driveSize) (hj : blockSize * (j + 1) ≤ driveSize) :
    blockOn (misdirected bytes i j) i = patternBlock j := by
  have hle := (pattern_holds_block h hi).2
  rw [misdirected, blockOn_withBlock (pattern_holds_block h hj).1 hle, blockOn_pattern h hj]

theorem blockOn_swapped {i j : Nat} (h : ∀ k < driveSize, bytes[k]? = some (patternByte k))
    (hi : blockSize * (i + 1) ≤ driveSize) (hj : blockSize * (j + 1) ≤ driveSize) :
    blockOn (swapped bytes i j) j = patternBlock i := by
  have hle := (pattern_holds_block h hj).2
  have hgrown : bytes.length ≤ (misdirected bytes i j).length := length_place_le _ _ _
  rw [swapped, blockOn_withBlock (pattern_holds_block h hi).1 (Nat.le_trans hle hgrown),
    blockOn_pattern h hi]

/-- A drive shorter than the period holds no block twice. -/
theorem block_unique {i j : Nat} (hperiod : driveSize < patternPeriod * blockSize)
    (hi : blockSize * (i + 1) ≤ driveSize) (hj : blockSize * (j + 1) ≤ driveSize)
    (h : patternBlock i = patternBlock j) : i = j := by
  have hlt : ∀ {b}, blockSize * (b + 1) ≤ driveSize → b < patternPeriod := by
    intro b hb
    simp only [blockSize] at *
    omega
  exact ((patternBlock_eq_iff i j).mp h).eq_of_lt_of_lt (hlt hi) (hlt hj)

end Medium

theorem rejects_of_blockOn_ne {driveSize : UInt64} (hsize : driveSize.toNat < 2 ^ 63) {fuel : Nat}
    (hfuel : driveSize.toNat ≤ blockSize * fuel) {bytes : List UInt8} {b : Nat}
    (hb : blockSize * (b + 1) ≤ driveSize.toNat) (hne : blockOn bytes b ≠ patternBlock b) :
    Rejects fuel driveSize bytes := by
  intro schedule
  have hverify := Prog.run_of_ensures medium (fun _ _ => rfl)
    (verifyPattern_spec (fits_of_lt hsize) hfuel bytes schedule)
  rcases hverify.bytewise with ⟨hends, hright, -⟩
  rcases hends with hok | hthrew
  · exact absurd (blockOn_pattern (hright hok) hb) hne
  · exact hthrew

/-- The blocks of the pattern are told apart, and so are drives on which one of them lies in
another's place. -/
theorem pattern_tells_blocks_apart :
    (∀ i j, patternBlock i = patternBlock j ↔ i ≡ j [MOD 2 ^ 30 - 1]) ∧
    (∀ i j, ¬ i ≡ j [MOD 2 ^ 30 - 1] → ∀ w < blockSizeUsing32,
      wordAt (patternBlock i) w ≠ wordAt (patternBlock j) w) ∧
    (∀ k, patternWord k ≠ 0) ∧
    ∀ (driveSize : UInt64) (fuel : Nat) (bytes : List UInt8) (schedule : Nat → Nat) (i j : Nat),
      driveSize.toNat < (2 ^ 30 - 1) * blockSize → driveSize.toNat ≤ blockSize * fuel → i ≠ j →
      blockSize * (i + 1) ≤ driveSize.toNat → blockSize * (j + 1) ≤ driveSize.toNat →
      let written := (writePattern fuel driveSize).run medium (.rewound bytes schedule)
      written.out = .ok (some ()) →
      Rejects fuel driveSize (misdirected written.state.contents i j) ∧
      Rejects fuel driveSize (swapped written.state.contents i j) := by
  refine ⟨patternBlock_eq_iff, ?_, patternWord_ne_zero, ?_⟩
  · intro i j hperiod w hw hsame
    exact hperiod ((wordAt_eq_iff i j hw).mp hsame)
  · intro driveSize fuel bytes schedule i j hperiod hfuel hne hi hj written hok
    have hsize : driveSize.toNat < 2 ^ 63 := by
      simp only [blockSize] at hperiod
      omega
    have hwrite := Prog.run_of_ensures medium (fun _ _ => rfl)
      (writePattern_spec (fits_of_lt hsize) hfuel (.rewound bytes schedule))
    have hpattern : ∀ k < driveSize.toNat, written.state.contents[k]? = some (patternByte k) := by
      intro k hk
      rw [hwrite.bytewise.2.1 hok k, if_pos hk]
    have hother : patternBlock i ≠ patternBlock j := by
      intro hsame
      exact hne (block_unique hperiod hi hj hsame)
    constructor
    · apply rejects_of_blockOn_ne hsize hfuel hi
      rw [blockOn_misdirected hpattern hi hj]
      exact hother.symm
    · apply rejects_of_blockOn_ne hsize hfuel hj
      rw [blockOn_swapped hpattern hi hj]
      exact hother

theorem pattern_tells_blocks_apart_two :
    let written := (writePattern 2 8192).run medium
      (.rewound (List.replicate 8192 0) fun _ => 4096)
    Rejects 2 8192 (misdirected written.state.contents 0 1) ∧
    Rejects 2 8192 (swapped written.state.contents 0 1) :=
  pattern_tells_blocks_apart.2.2.2 8192 2 _ _ 0 1 (by decide) (by decide) (by decide) (by decide)
    (by decide) (by decide +kernel)

end Estoraged

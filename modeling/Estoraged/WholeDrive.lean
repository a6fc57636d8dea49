import Estoraged.Medium

/-!
# Whole drives

`content k` is the byte that belongs at position `k`. A loop that writes the right
stretch of it in each block writes all of it; a loop that checks each block against
it accepts exactly the media that hold all of it.
-/

namespace Estoraged
open Interaction
set_option autoImplicit false

def stretch (content : Nat → UInt8) (start n : Nat) : List UInt8 :=
  (List.range n).map fun k => content (start + k)

section Stretch
variable (content : Nat → UInt8)

@[simp] theorem length_stretch (start n : Nat) : (stretch content start n).length = n := by
  simp [stretch]

@[simp] theorem stretch_zero (start : Nat) : stretch content start 0 = [] := rfl

theorem stretch_append (start n k : Nat) :
    stretch content start n ++ stretch content (start + n) k = stretch content start (n + k) := by
  simp only [stretch, List.range_add, List.map_append, List.map_map, Function.comp_def,
    Nat.add_assoc]

theorem take_stretch {n k : Nat} (h : k ≤ n) (start : Nat) :
    (stretch content start n).take k = stretch content start k := by
  rw [stretch, ← List.map_take, List.take_range, Nat.min_eq_left h, stretch]

theorem take_drop_stretch {first start n k : Nat} (h : start + k ≤ n) :
    ((stretch content first n).drop start).take k = stretch content (first + start) k := by
  have hsplit := stretch_append content first start (n - start)
  rw [Nat.add_sub_cancel' (by omega)] at hsplit
  rw [← hsplit, List.drop_left' (length_stretch ..), take_stretch content (by omega)]

theorem take_eq_stretch_iff {bytes : List UInt8} {n : Nat} :
    bytes.take n = stretch content 0 n ↔ ∀ k < n, bytes[k]? = some (content k) := by
  rw [List.ext_getElem?_iff]
  constructor
  · intro h k hk
    have hget := h k
    rw [List.getElem?_take_of_lt hk] at hget
    simpa [stretch, hk] using hget
  · intro h k
    by_cases hk : k < n
    · rw [List.getElem?_take_of_lt hk, h k hk]
      simp [stretch, hk]
    · simp [stretch, hk]

end Stretch

theorem Medium.Passed.trans {m m' m'' : Medium} {bytes bytes' : List UInt8}
    (h : m.Passed bytes m') (h' : m'.Passed bytes' m'') : m.Passed (bytes ++ bytes') m'' := by
  have hle := h'.length_le
  have hlength := h.length_le
  rw [h.after, List.length_drop] at hle
  refine ⟨?_, ?_, ?_⟩
  · rw [List.length_append]
    omega
  · rw [h'.before, h.before, List.append_assoc]
  · rw [h'.after, h.after, List.drop_drop, List.length_append]

theorem Medium.Passed.contents {old : List UInt8} {schedule : Nat → Nat} {bytes : List UInt8}
    {m' : Medium} (h : (Medium.rewound old schedule).Passed bytes m') :
    m'.contents = bytes ++ old.drop bytes.length := by
  rw [Medium.contents, h.before, h.after]
  rfl

theorem Medium.Passed.getElem?_contents {old : List UInt8} {schedule : Nat → Nat}
    {content : Nat → UInt8} {n : Nat} {m' : Medium}
    (h : (Medium.rewound old schedule).Passed (stretch content 0 n) m') (k : Nat) :
    m'.contents[k]? = if k < n then some (content k) else old[k]? := by
  rw [h.contents, length_stretch, List.getElem?_append, length_stretch]
  split
  · rename_i hk
    simp [stretch, hk]
  · rename_i hk
    rw [List.getElem?_drop, Nat.add_sub_cancel' (Nat.le_of_not_lt hk)]

/-! ## Sizes -/

/-- As long as nothing wraps, a block is what is left of the drive up to `blockSize`. -/
theorem sizeOfBlock_eq {width driveSize currentIndex : Nat} (hwidth : blockSize < 2 ^ width)
    (hsize : driveSize + blockSize ≤ 2 ^ 64) (hlt : currentIndex < driveSize) :
    sizeOfBlock width driveSize currentIndex = min blockSize (driveSize - currentIndex) := by
  have hblock : blockSize = 4096 := rfl
  rw [sizeOfBlock, wrapAdd_eq (by omega), wrapSub_eq (by omega) (Nat.le_of_lt hlt)]
  split_ifs with hfull
  · rw [Nat.mod_eq_of_lt hwidth]
    omega
  · rw [Nat.mod_eq_of_lt (by omega)]
    omega

section Loops
variable {γ : Type} {content : Nat → UInt8} {width driveSize fuel : Nat}
variable {block : Nat → γ → FdM γ} {At : Nat → γ → Prop} {a : γ}

/-- The block loop after `b` blocks, with `fuel` for all that are left. -/
structure Looping (At : Nat → γ → Prop) (driveSize fuel currentIndex : Nat) (a : γ)
    (b : Nat) : Prop where
  index : currentIndex = min (blockSize * b) driveSize
  state : At b a
  fuel : driveSize ≤ blockSize * (b + fuel)

theorem Looping.start (hfuel : driveSize ≤ blockSize * fuel) (ha : At 0 a) :
    Looping At driveSize fuel 0 a 0 :=
  ⟨by simp, ha, by rwa [Nat.zero_add]⟩

theorem Looping.end_eq {currentIndex b : Nat} (h : Looping At driveSize fuel currentIndex a b)
    (hend : driveSize ≤ currentIndex) : currentIndex = driveSize := by
  have hindex := h.index
  omega

theorem Looping.fuel_ne_zero {currentIndex b : Nat}
    (h : Looping At driveSize 0 currentIndex a b) : ¬ currentIndex < driveSize := by
  have hindex := h.index
  have hfuel := h.fuel
  rw [Nat.add_zero] at hfuel
  omega

/-- The block of the current iteration starts at a multiple of `blockSize`. -/
theorem Looping.next_block {currentIndex b : Nat} (hwidth : blockSize < 2 ^ width)
    (hsize : driveSize + blockSize ≤ 2 ^ 64)
    (h : Looping At driveSize (fuel + 1) currentIndex a b) (hlt : currentIndex < driveSize) :
    currentIndex = blockSize * b ∧
    ∃ n, sizeOfBlock width driveSize currentIndex = n ∧
      n = min blockSize (driveSize - currentIndex) ∧
      0 < n ∧ n ≤ blockSize ∧ currentIndex + n ≤ driveSize ∧
      wrapAdd currentIndex n = currentIndex + n ∧
      ∀ a', At (b + 1) a' → Looping At driveSize fuel (currentIndex + n) a' (b + 1) := by
  have hindex := h.index
  have hfuel := h.fuel
  refine ⟨?_, _, sizeOfBlock_eq hwidth hsize hlt, ?_⟩
  · simp only [blockSize] at *
    omega
  · simp only [blockSize] at *
    refine ⟨trivial, by omega, by omega, by omega, wrapAdd_eq (by omega), ?_⟩
    intro a' ha'
    exact ⟨by simp only [blockSize]; omega, ha', by simp only [blockSize]; omega⟩

def WritesBlock (content : Nat → UInt8) (At : Nat → γ → Prop) (b n : Nat) (m : Medium) :
    Except Exception γ → Medium → Prop
  | .ok a', m' => At (b + 1) a' ∧ m.Passed (stretch content (blockSize * b) n) m'
  | .error e, m' => e = .internalFailure ∧
      ∃ k < n, m.Passed (stretch content (blockSize * b) k) m'

/-- The whole content was written, or a part of it and an exception. -/
def WritesDrive (content : Nat → UInt8) (driveSize : Nat) (m : Medium) :
    Except Exception (Option Unit) → Medium → Prop
  | .ok finished, m' => finished = some () ∧ m.Passed (stretch content 0 driveSize) m'
  | .error e, m' => e = .internalFailure ∧ ∃ k < driveSize, m.Passed (stretch content 0 k) m'

theorem write_drive (hwidth : blockSize < 2 ^ width)
    (hblock : ∀ b a n m, At b a → 0 < n → n ≤ blockSize →
      Ensures (graph medium) (block n a) m fun _ out m' => WritesBlock content At b n m out m')
    (hsize : driveSize + blockSize ≤ 2 ^ 64) (hfuel : driveSize ≤ blockSize * fuel)
    (ha : At 0 a) (m : Medium) :
    Ensures (graph medium) (forBlocks width driveSize block fuel a) m fun _ out m' =>
      WritesDrive content driveSize m out m' := by
  refine forBlocks_rule
    (P := fun fuel currentIndex a m' => ∃ b, Looping At driveSize fuel currentIndex a b ∧
      m.Passed (stretch content 0 currentIndex) m')
    ?_ ?_ ?_ ⟨0, .start hfuel ha, by simpa using Medium.Passed.refl m⟩
  · intro fuel currentIndex a m' hend h
    rcases h with ⟨b, hloop, hpassed⟩
    rw [hloop.end_eq hend] at hpassed
    exact ⟨rfl, hpassed⟩
  · intro currentIndex a m' hlt h
    rcases h with ⟨b, hloop, -⟩
    exact absurd hlt hloop.fuel_ne_zero
  · intro fuel currentIndex a m' hlt h
    rcases h with ⟨b, hloop, hpassed⟩
    obtain ⟨hindex, n, hn, -, hpos, hle, hfits, hadd, hnext⟩ := hloop.next_block hwidth hsize hlt
    rw [hn, hadd]
    refine (hblock b a n m' hloop.state hpos hle).mono ?_
    have hgrow : ∀ {k m''}, m'.Passed (stretch content (blockSize * b) k) m'' →
        m.Passed (stretch content 0 (currentIndex + k)) m'' := by
      intro k m'' h
      have hsplit := stretch_append content 0 currentIndex k
      rw [Nat.zero_add, hindex] at hsplit
      rw [hindex, ← hsplit, ← hindex]
      exact hpassed.trans (hindex ▸ h)
    intro tr out m'' hout
    cases out with
    | ok a' =>
      rcases hout with ⟨hstate, hmoved⟩
      exact ⟨b + 1, hnext a' hstate, hgrow hmoved⟩
    | error e =>
      rcases hout with ⟨rfl, k, hk, hmoved⟩
      exact ⟨rfl, _, by omega, hgrow hmoved⟩

def ChecksBlock (content : Nat → UInt8) (At : Nat → γ → Prop) (b n : Nat) (m : Medium) :
    Except Exception γ → Medium → Prop
  | .ok a', m' => At (b + 1) a' ∧ n ≤ m.after.length ∧
      m.after.take n = stretch content (blockSize * b) n ∧ m.Passed (m.after.take n) m' ∧
      ∃ calls ≤ maxRetry + 1, Reaches m.schedule n calls ∧ m'.schedule = later m.schedule calls
  | .error e, _ => e = .internalFailure ∧ (n ≤ m.after.length →
      ∀ calls ≤ maxRetry + 1, Reaches m.schedule n calls →
        m.after.take n ≠ stretch content (blockSize * b) n)

theorem compare_spec {b n : Nat} {m m' : Medium} {readArr : List UInt8} {a' : γ}
    (hread : ReadBack n m (.ok readArr) m') (hstate : At (b + 1) a') {matches_ : Prop}
    [Decidable matches_]
    (hmatches : matches_ ↔ readArr.take n = stretch content (blockSize * b) n) :
    Ensures (graph medium)
      (if matches_ then pure a' else throw .internalFailure : FdM γ) m' fun _ out m'' =>
      ChecksBlock content At b n m out m'' := by
  rcases hread with ⟨hlong, htake, hpassed, hcalls⟩
  rw [htake] at hmatches
  split
  · rename_i hright
    exact Ensures.ret_iff.mpr ⟨hstate, hlong, hmatches.mp hright, hpassed, hcalls⟩
  · rename_i hwrong
    exact Ensures.throw_iff.mpr ⟨rfl, fun _ _ _ _ hright => hwrong (hmatches.mpr hright)⟩

/-- Reading a block, whatever is thrown there, and comparing it. -/
theorem check_spec {b n : Nat} (readArr : List UInt8) (hpos : 0 < n) (hlt : n < 2 ^ 63) (m : Medium)
    {compare : List UInt8 → FdM γ}
    (hcompare : ∀ readArr' m', ReadBack n m (.ok readArr') m' →
      Ensures (graph medium) (compare readArr') m' fun _ out m'' =>
        ChecksBlock content At b n m out m'') :
    Ensures (graph medium) (do
      let readArr ← tryCatch (readBlock readArr n) fun _ => throw .internalFailure
      compare readArr) m fun _ out m' => ChecksBlock content At b n m out m' := by
  refine Ensures.bind (ensures_caught (readBlock_spec readArr hpos hlt m) fun _ _ h => h.1) ?_ ?_
  · intro tr readArr' m' hread
    exact hcompare readArr' m' hread
  · intro tr e m' h
    obtain ⟨rfl, hshort⟩ := h
    refine ⟨rfl, ?_⟩
    intro hlong calls hcalls hreaches
    exact absurd hreaches (hshort hlong calls hcalls)

structure Checking (content : Nat → UInt8) (bytes : List UInt8) (schedule : Nat → Nat)
    (driveSize currentIndex : Nat) (m : Medium) : Prop where
  after : m.after = bytes.drop currentIndex
  le_length : currentIndex ≤ bytes.length
  right : bytes.take currentIndex = stretch content 0 currentIndex
  completes : Completes schedule driveSize → Completes m.schedule (driveSize - currentIndex)

/-- The content was found on the medium, or the schedule stopped short, or it is not
there. -/
def VerifiesDrive (content : Nat → UInt8) (driveSize : Nat) (bytes : List UInt8)
    (schedule : Nat → Nat) : Except Exception (Option Unit) → Prop
  | .ok finished => finished = some () ∧ bytes.take driveSize = stretch content 0 driveSize
  | .error e => e = .internalFailure ∧
      (Completes schedule driveSize → bytes.take driveSize ≠ stretch content 0 driveSize)

theorem verify_drive (hwidth : blockSize < 2 ^ width)
    (hblock : ∀ b a n m, At b a → 0 < n → n ≤ blockSize →
      Ensures (graph medium) (block n a) m fun _ out m' => ChecksBlock content At b n m out m')
    (hsize : driveSize + blockSize ≤ 2 ^ 64) (hfuel : driveSize ≤ blockSize * fuel)
    (ha : At 0 a) (bytes : List UInt8) (schedule : Nat → Nat) :
    Ensures (graph medium) (forBlocks width driveSize block fuel a)
      (Medium.rewound bytes schedule) fun _ out _ =>
      VerifiesDrive content driveSize bytes schedule out := by
  refine forBlocks_rule
    (P := fun fuel currentIndex a m => ∃ b, Looping At driveSize fuel currentIndex a b ∧
      Checking content bytes schedule driveSize currentIndex m)
    (Q := fun out _ => VerifiesDrive content driveSize bytes schedule out)
    ?_ ?_ ?_ ⟨0, .start hfuel ha, ⟨rfl, Nat.zero_le _, by simp, fun h => h⟩⟩
  · intro fuel currentIndex a m hend h
    rcases h with ⟨b, hloop, hcheck⟩
    obtain rfl := hloop.end_eq hend
    exact ⟨rfl, hcheck.right⟩
  · intro currentIndex a m hlt h
    rcases h with ⟨b, hloop, -⟩
    exact absurd hlt hloop.fuel_ne_zero
  · intro fuel currentIndex a m hlt h
    rcases h with ⟨b, hloop, hcheck⟩
    obtain ⟨hindex, n, hn, hmin, hpos, hle, hfits, hadd, hnext⟩ := hloop.next_block hwidth hsize hlt
    rw [hn, hadd]
    refine (hblock b a n m hloop.state hpos hle).mono ?_
    intro tr out m' hout
    have hlength : m.after.length = bytes.length - currentIndex := by
      rw [hcheck.after, List.length_drop]
    cases out with
    | ok a' =>
      rcases hout with ⟨hstate, hlong, hright, hpassed, calls, hcalls, hreaches, hschedule⟩
      refine ⟨b + 1, hnext a' hstate, ?_, by omega, ?_, fun hcompletes => ?_⟩
      · rw [hpassed.after, List.length_take, Nat.min_eq_left hlong, hcheck.after, List.drop_drop]
      · rw [List.take_add, hcheck.right, ← hcheck.after, hright, ← hindex]
        simpa using stretch_append content 0 currentIndex n
      · rw [hmin] at hreaches
        have hrest := (hcheck.completes hcompletes).rest (by omega) hreaches
        rwa [hschedule, Nat.sub_add_eq, hmin]
    | error e =>
      rcases hout with ⟨rfl, hwrong⟩
      refine ⟨rfl, fun hcompletes htake => ?_⟩
      have hlong : driveSize ≤ bytes.length := by
        have hlengths := congrArg List.length htake
        rw [List.length_take, length_stretch] at hlengths
        omega
      obtain ⟨calls, hcalls, hreaches⟩ := (hcheck.completes hcompletes).first (by omega)
      rw [← hmin] at hreaches
      apply hwrong (by omega) calls hcalls hreaches
      have hstretch := @take_drop_stretch content 0 _ _ _ hfits
      rw [Nat.zero_add] at hstretch
      rw [hcheck.after, ← hindex, ← hstretch, ← htake, List.drop_take, List.take_take]
      congr 1
      omega

end Loops

/-! ## Byte for byte -/

section Bytes
variable {content : Nat → UInt8} {driveSize : Nat} {bytes : List UInt8} {schedule : Nat → Nat}
variable {out : Except Exception (Option Unit)}

theorem WritesDrive.bytewise {m' : Medium}
    (h : WritesDrive content driveSize (.rewound bytes schedule) out m') :
    (out = .ok (some ()) ∨ out = .error .internalFailure) ∧
    (out = .ok (some ()) → ∀ k, m'.contents[k]? =
      if k < driveSize then some (content k) else bytes[k]?) ∧
    (out = .error .internalFailure → ∃ k₀ < driveSize, m'.before.length = k₀ ∧
      ∀ k, m'.contents[k]? = if k < k₀ then some (content k) else bytes[k]?) := by
  cases out with
  | ok finished =>
    rcases h with ⟨rfl, hpassed⟩
    exact ⟨.inl rfl, fun _ => hpassed.getElem?_contents, fun hthrew => by cases hthrew⟩
  | error e =>
    rcases h with ⟨rfl, k₀, hk₀, hpassed⟩
    refine ⟨.inr rfl, fun hok => (by cases hok), fun _ => ⟨k₀, hk₀, ?_, hpassed.getElem?_contents⟩⟩
    simp [hpassed.before, Medium.rewound]

theorem VerifiesDrive.bytewise (h : VerifiesDrive content driveSize bytes schedule out) :
    (out = .ok (some ()) ∨ out = .error .internalFailure) ∧
    (out = .ok (some ()) → ∀ k < driveSize, bytes[k]? = some (content k)) ∧
    (Completes schedule driveSize →
      (out = .ok (some ()) ↔ ∀ k < driveSize, bytes[k]? = some (content k))) := by
  rw [← take_eq_stretch_iff]
  cases out with
  | ok finished =>
    rcases h with ⟨rfl, hright⟩
    exact ⟨.inl rfl, fun _ => hright, fun _ => iff_of_true rfl hright⟩
  | error e =>
    rcases h with ⟨rfl, hwrong⟩
    exact ⟨.inr rfl, fun hok => (by cases hok),
      fun hcompletes => iff_of_false (fun hok => by cases hok) (hwrong hcompletes)⟩

end Bytes

theorem fits_of_lt {driveSize : Nat} (h : driveSize < 2 ^ 63) : driveSize + blockSize ≤ 2 ^ 64 := by
  simp only [blockSize]
  omega

end Estoraged

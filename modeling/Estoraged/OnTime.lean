import Estoraged.TransferBounds

/-!
# When a drive is gone through

Apart from what is on the drive, only the schedule and the length of the medium decide how
the four loops end: each goes through the drive just if every block of it is reached
within its calls.
-/

namespace Estoraged
open Interaction
set_option autoImplicit false

/-- Moving over `n` bytes takes the calls that the schedule needs for them. If `strict`, nothing
else than a lack of calls or bytes ends it early. -/
def OnTime {α : Type} (strict : Prop) (n : Nat) (m : Medium) :
    Except Exception α → Medium → Prop
  | .ok _, m' => n ≤ m.after.length ∧ m'.after = m.after.drop n ∧
      ∃ calls ≤ maxRetry + 1, Reaches m.schedule n calls ∧ m'.schedule = later m.schedule calls
  | .error _, _ => strict → n ≤ m.after.length →
      ∀ calls ≤ maxRetry + 1, ¬ Reaches m.schedule n calls

/-! ## One block -/

/-- The inner loop in the middle of `n` bytes. -/
structure Moving (n : Nat) (m : Medium) (left moved : Nat) (m' : Medium) : Prop where
  after : m'.after = m.after.drop moved
  moved_le : moved ≤ m.after.length
  calls : n ≤ m.after.length → ∃ calls, calls + left = maxRetry ∧
    m'.schedule = later m.schedule calls ∧ capacity m.schedule calls = moved

theorem Moving.next {n : Nat} {m m' : Medium} {left moved : Nat} (h : Moving n m left moved m')
    (hmoved : moved < n) {bytes : List UInt8} (hbytes : bytes.length = m'.moves (n - moved)) :
    moved + bytes.length ≤ n ∧ moved + bytes.length ≤ m.after.length ∧
      (m'.advance bytes).after = m.after.drop (moved + bytes.length) ∧
      (n ≤ m.after.length → ∃ calls, calls + left = maxRetry ∧
        (m'.advance bytes).schedule = later m.schedule (calls + 1) ∧
        capacity m.schedule calls = moved ∧
        bytes.length = min (m.schedule calls) (n - moved)) := by
  have hle := m'.moves_le (n - moved)
  have hlength := m'.moves_le_length (n - moved)
  have hmoved_le := h.moved_le
  have hrest : m'.after.length = m.after.length - moved := by rw [h.after, List.length_drop]
  refine ⟨by omega, by omega, ?_, ?_⟩
  · rw [Medium.advance, h.after, List.drop_drop]
  · intro hn
    obtain ⟨calls, hbudget, hschedule, hcapacity⟩ := h.calls hn
    have hfirst : m'.schedule 0 = m.schedule calls := by
      rw [hschedule, later, Nat.zero_add]
    have hcount : m'.moves (n - moved) = min (m'.schedule 0) (min (n - moved) m'.after.length) :=
      rfl
    refine ⟨calls, hbudget, ?_, hcapacity, ?_⟩
    · rw [Medium.advance, hschedule, later_later]
    · omega

theorem writeBlock_onTime {arr : List UInt8} {n : Nat} (hn : 0 < n) (harr : n ≤ arr.length)
    (hlt : n < 2 ^ 63) (m : Medium) :
    Ensures (graph medium) (writeBlock arr n) m fun _ out m' => OnTime True n m out m' := by
  refine transferLoop_rule (P := fun left moved _ m' => Moving n m left moved m') ?_ hn
    ⟨rfl, Nat.zero_le _, fun _ => ⟨0, rfl, rfl, rfl⟩⟩
  intro left moved _ m' hmoved h
  have hrest : ((arr.drop moved).take (n - moved)).length = n - moved := by
    rw [List.length_take, List.length_drop]
    omega
  rw [writeSubspan, wrapSub_eq (by omega) (Nat.le_of_lt hmoved)]
  refine Ensures.bind (write_spec (by omega) m') ?_ ?_
  · rintro _ size m'' ⟨hsize, rfl⟩
    obtain rfl : size = m'.moves (n - moved) := by simpa [hrest] using hsize
    rw [hrest]
    have hbytes : (((arr.drop moved).take (n - moved)).take (m'.moves (n - moved))).length =
        m'.moves (n - moved) := by
      rw [List.length_take, hrest, Nat.min_eq_left (m'.moves_le _)]
    obtain ⟨hle, hlength, hafter, hcalls⟩ := h.next hmoved hbytes
    generalize ((arr.drop moved).take (n - moved)).take (m'.moves (n - moved)) = bytes at *
    rw [← hbytes]
    simp only [Prog.pure_eq, Ensures.ret_iff]
    rw [wrapAdd_eq (by omega)]
    refine ⟨fun heq => ?_, fun hover => by omega, fun hshort => ?_⟩
    · rw [heq] at hafter hlength
      obtain ⟨calls, hbudget, hschedule, hcapacity, hcount⟩ := hcalls hlength
      refine ⟨hlength, hafter, calls + 1, by omega, .of_call (by omega) (by omega), hschedule⟩
    · have hfull : ∀ {calls}, bytes.length = min (m.schedule calls) (n - moved) →
          capacity m.schedule calls = moved →
          capacity m.schedule (calls + 1) = moved + bytes.length := by
        intro calls hcount hcapacity
        rw [capacity_succ]
        omega
      cases left with
      | zero =>
        intro _ hn
        obtain ⟨calls, hbudget, -, hcapacity, hcount⟩ := hcalls hn
        have hlast := hfull hcount hcapacity
        obtain rfl : calls = maxRetry := by omega
        exact not_reaches (by omega)
      | succ left =>
        refine ⟨hafter, hlength, fun hn => ?_⟩
        obtain ⟨calls, hbudget, hschedule, hcapacity, hcount⟩ := hcalls hn
        exact ⟨calls + 1, by omega, hschedule, hfull hcount hcapacity⟩
  · rintro _ e m'' ⟨hout, -⟩
    cases hout

theorem readBlock_onTime (readArr : List UInt8) {n : Nat} (hn : 0 < n) (hlt : n < 2 ^ 63)
    (m : Medium) :
    Ensures (graph medium) (readBlock readArr n) m fun _ out m' => OnTime True n m out m' := by
  refine (readBlock_spec readArr hn hlt m).mono ?_
  intro tr out m' hread
  cases out with
  | ok readArr' =>
    obtain ⟨hlength, -, hpassed, hcalls⟩ := hread
    refine ⟨hlength, ?_, hcalls⟩
    rw [hpassed.after, List.length_take, Nat.min_eq_left hlength]
  | error e => exact fun _ => hread.2

/-- Whatever is thrown becomes `InternalFailure`; the medium is where it was left. -/
theorem onTime_caught {α : Type} {p : FdM α} {n : Nat} {m : Medium}
    (hp : Ensures (graph medium) p m fun _ out m' => OnTime True n m out m') :
    Ensures (graph medium) (tryCatch p fun _ => throw .internalFailure) m
      fun _ out m' => OnTime True n m out m' := by
  refine Ensures.tryCatch hp (fun _ _ _ h => h) ?_
  intro tr e m' h
  exact Ensures.throw_iff.mpr h

section Blocks
variable {n : Nat}

theorem writePatternBlock_onTime (generator : Nat) (hn : 0 < n) (hle : n ≤ blockSize)
    (m : Medium) : Ensures (graph medium) (writePatternBlock n generator) m fun _ out m' =>
      OnTime True n m out m' := by
  have hlt : n < 2 ^ 63 := Nat.lt_of_le_of_lt hle (by decide)
  have hlength := length_fillBlock generator
  unfold writePatternBlock
  generalize fillBlock generator = filled at hlength ⊢
  refine Ensures.bind (writeBlock_onTime hn (by omega) hlt m) ?_ fun _ _ _ h => h
  intro tr _ m' h
  exact Ensures.ret_iff.mpr h

theorem writeZeroBlock_onTime (s : Unit) (hn : 0 < n) (hle : n ≤ blockSize) (m : Medium) :
    Ensures (graph medium) (writeZeroBlock n s) m fun _ out m' => OnTime True n m out m' := by
  have hlt : n < 2 ^ 63 := Nat.lt_of_le_of_lt hle (by decide)
  have hlength : n ≤ blockOfZeros.length := by rwa [blockOfZeros, List.length_replicate]
  exact onTime_caught (writeBlock_onTime hn hlength hlt m)

/-- A verifier may also end because of what it read. -/
theorem check_onTime {γ : Type} (readArr : List UInt8) (hn : 0 < n) (hle : n ≤ blockSize)
    (m : Medium) {matches_ : List UInt8 → Prop} [DecidablePred matches_] {f : List UInt8 → γ} :
    Ensures (graph medium) (do
      let readArr ← tryCatch (readBlock readArr n) fun _ => throw .internalFailure
      if matches_ readArr then pure (f readArr) else throw .internalFailure : FdM γ) m
      fun _ out m' => OnTime False n m out m' := by
  have hlt : n < 2 ^ 63 := Nat.lt_of_le_of_lt hle (by decide)
  refine Ensures.bind (onTime_caught (readBlock_onTime readArr hn hlt m)) ?_ ?_
  · intro tr readArr' m' h
    split
    · exact Ensures.ret_iff.mpr h
    · exact Ensures.throw_iff.mpr False.elim
  · intro tr e m' _
    exact False.elim

theorem verifyPatternBlock_onTime (s : Nat × List UInt8) (hn : 0 < n) (hle : n ≤ blockSize)
    (m : Medium) : Ensures (graph medium) (verifyPatternBlock n s) m fun _ out m' =>
      OnTime False n m out m' :=
  check_onTime s.2 hn hle m

theorem verifyZeroBlock_onTime (readArr : List UInt8) (hn : 0 < n) (hle : n ≤ blockSize)
    (m : Medium) : Ensures (graph medium) (verifyZeroBlock n readArr) m fun _ out m' =>
      OnTime False n m out m' :=
  check_onTime readArr hn hle m

end Blocks

/-! ## Whole drives -/

section Drive
variable {γ : Type} {strict : Prop} {width driveSize fuel : Nat} {block : Nat → γ → FdM γ} {a : γ}

structure Going (m : Medium) (driveSize currentIndex : Nat) (m' : Medium) : Prop where
  after : m'.after = m.after.drop currentIndex
  le_length : currentIndex ≤ m.after.length
  completes : Completes m.schedule driveSize ↔
    Completes m'.schedule (driveSize - currentIndex)

/-- How a loop over a drive ends, as far as the schedule and the length decide it. -/
def WentThrough (strict : Prop) (driveSize : Nat) (m : Medium) :
    Except Exception (Option Unit) → Prop
  | .ok finished => finished = some () ∧ driveSize ≤ m.after.length ∧
      Completes m.schedule driveSize
  | .error _ => strict → ¬ (driveSize ≤ m.after.length ∧ Completes m.schedule driveSize)

theorem drive_onTime (hwidth : blockSize < 2 ^ width)
    (hblock : ∀ a {n}, 0 < n → n ≤ blockSize → ∀ m,
      Ensures (graph medium) (block n a) m fun _ out m' => OnTime strict n m out m')
    (hsize : driveSize + blockSize ≤ 2 ^ 64) (hfuel : driveSize ≤ blockSize * fuel) (m : Medium) :
    Ensures (graph medium) (forBlocks width driveSize block fuel a) m fun _ out _ =>
      WentThrough strict driveSize m out := by
  refine forBlocks_rule
    (P := fun fuel currentIndex a m' => ∃ b,
      Looping (fun _ _ => True) driveSize fuel currentIndex a b ∧
        Going m driveSize currentIndex m')
    (Q := fun out _ => WentThrough strict driveSize m out)
    ?_ ?_ ?_ ⟨0, .start hfuel trivial, ⟨rfl, Nat.zero_le _, Iff.rfl⟩⟩
  · intro fuel currentIndex a m' hend h
    obtain ⟨b, hloop, hgoing⟩ := h
    obtain rfl := hloop.end_eq hend
    refine ⟨rfl, hgoing.le_length, hgoing.completes.mpr ?_⟩
    rw [Nat.sub_self]
    exact .nil _
  · intro currentIndex a m' hlt h
    obtain ⟨b, hloop, -⟩ := h
    exact absurd hlt hloop.fuel_ne_zero
  · intro fuel currentIndex a m' hlt h
    obtain ⟨b, hloop, hgoing⟩ := h
    obtain ⟨-, n, hn, hmin, hpos, hle, hfits, hadd, hnext⟩ := hloop.next_block hwidth hsize hlt
    have hlength : m'.after.length = m.after.length - currentIndex := by
      rw [hgoing.after, List.length_drop]
    have hle_length := hgoing.le_length
    rw [hn, hadd]
    refine (hblock a hpos hle m').mono ?_
    intro tr out m'' hout
    cases out with
    | ok a' =>
      obtain ⟨hlong, hafter, calls, hcalls, hreaches, hschedule⟩ := hout
      refine ⟨b + 1, hnext a' trivial, ?_, by omega, ?_⟩
      · rw [hafter, hgoing.after, List.drop_drop]
      · rw [hgoing.completes, hschedule, Nat.sub_add_eq]
        rw [hmin] at hreaches ⊢
        exact ⟨fun h => h.rest (by omega) hreaches,
          fun h => .block (by omega) hcalls hreaches h⟩
    | error e =>
      intro hstrict h
      obtain ⟨hlong, hcompletes⟩ := h
      obtain ⟨calls, hcalls, hreaches⟩ := (hgoing.completes.mp hcompletes).first (by omega)
      rw [← hmin] at hreaches
      exact hout hstrict (by omega) calls hcalls hreaches

end Drive

end Estoraged

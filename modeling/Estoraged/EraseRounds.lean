import Estoraged.OnTime
import Estoraged.PatternPeriod

/-!
# Rounds of overwriting and verifying

Any sequence of the four methods on one drive, some of which may fail. An overwrite
leaves its content up to where it got, a verification leaves the drive as it is; so each
byte is that of the last overwrite that reached it.
-/

namespace Estoraged
open Interaction
set_option autoImplicit false

inductive Content where
  | pattern
  | zeros
deriving DecidableEq, Repr

namespace Content

def byte : Content → Nat → UInt8
  | .pattern => patternByte
  | .zeros => fun _ => 0

def write : Content → Nat → UInt64 → FdM (Option Unit)
  | .pattern => writePattern
  | .zeros => writeZero

def verify : Content → Nat → UInt64 → FdM (Option Unit)
  | .pattern => verifyPattern
  | .zeros => verifyZero

/-- The contents differ in the first byte already. -/
theorem byte_zero_inj {c c' : Content} (h : c.byte 0 = c'.byte 0) : c = c' := by
  have hfirst : patternByte 0 ≠ 0 := by decide
  cases c <;> cases c'
  · rfl
  · exact absurd h hfirst
  · exact absurd h.symm hfirst
  · rfl

end Content

/-! ## How one method ends -/

section Method
variable {driveSize : UInt64} {fuel : Nat} (c : Content) (bytes : List UInt8)
  (schedule : Nat → Nat)

theorem Content.write_writes (hsize : driveSize.toNat < 2 ^ 63)
    (hfuel : driveSize.toNat ≤ blockSize * fuel) :
    let written := (c.write fuel driveSize).run medium (.rewound bytes schedule)
    WritesDrive c.byte driveSize.toNat (.rewound bytes schedule) written.out written.state := by
  cases c with
  | pattern =>
    exact Prog.run_of_ensures medium (fun _ _ => rfl)
      (writePattern_spec (fits_of_lt hsize) hfuel _)
  | zeros =>
    exact Prog.run_of_ensures medium (fun _ _ => rfl)
      (writeZero_spec (fits_of_lt hsize) hfuel _)

theorem Content.write_wentThrough (hsize : driveSize.toNat < 2 ^ 63)
    (hfuel : driveSize.toNat ≤ blockSize * fuel) :
    WentThrough True driveSize.toNat (.rewound bytes schedule)
      ((c.write fuel driveSize).run medium (.rewound bytes schedule)).out := by
  cases c with
  | pattern =>
    exact Prog.run_of_ensures medium (fun _ _ => rfl)
      (drive_onTime (by decide) (fun a _ => writePatternBlock_onTime a) (fits_of_lt hsize) hfuel _)
  | zeros =>
    exact Prog.run_of_ensures medium (fun _ _ => rfl)
      (drive_onTime (by decide) (fun a _ => writeZeroBlock_onTime a) (fits_of_lt hsize) hfuel _)

theorem Content.verify_verifies (hsize : driveSize.toNat < 2 ^ 63)
    (hfuel : driveSize.toNat ≤ blockSize * fuel) :
    VerifiesDrive c.byte driveSize.toNat bytes schedule
      ((c.verify fuel driveSize).run medium (.rewound bytes schedule)).out := by
  cases c with
  | pattern =>
    exact Prog.run_of_ensures medium (fun _ _ => rfl)
      (verifyPattern_spec (fits_of_lt hsize) hfuel _ _)
  | zeros =>
    exact Prog.run_of_ensures medium (fun _ _ => rfl)
      (verifyZero_spec (fits_of_lt hsize) hfuel _ _)

theorem Content.verify_wentThrough (hsize : driveSize.toNat < 2 ^ 63)
    (hfuel : driveSize.toNat ≤ blockSize * fuel) :
    WentThrough False driveSize.toNat (.rewound bytes schedule)
      ((c.verify fuel driveSize).run medium (.rewound bytes schedule)).out := by
  cases c with
  | pattern =>
    exact Prog.run_of_ensures medium (fun _ _ => rfl)
      (drive_onTime (by decide) (fun a _ => verifyPatternBlock_onTime a) (fits_of_lt hsize)
        hfuel _)
  | zeros =>
    exact Prog.run_of_ensures medium (fun _ _ => rfl)
      (drive_onTime (by decide) (fun a _ => verifyZeroBlock_onTime a) (fits_of_lt hsize) hfuel _)

theorem Content.write_ok_iff (hsize : driveSize.toNat < 2 ^ 63)
    (hfuel : driveSize.toNat ≤ blockSize * fuel) :
    ((c.write fuel driveSize).run medium (.rewound bytes schedule)).out = .ok (some ()) ↔
      driveSize.toNat ≤ bytes.length ∧ Completes schedule driveSize.toNat := by
  have hends := c.write_wentThrough bytes schedule hsize hfuel
  cases hout : ((c.write fuel driveSize).run medium (.rewound bytes schedule)).out with
  | ok finished =>
    rw [hout] at hends
    obtain ⟨rfl, hlength, hcompletes⟩ := hends
    exact iff_of_true rfl ⟨hlength, hcompletes⟩
  | error e =>
    rw [hout] at hends
    apply iff_of_false
    · intro h
      cases h
    · exact hends trivial

theorem Content.verify_ok_iff (hsize : driveSize.toNat < 2 ^ 63)
    (hfuel : driveSize.toNat ≤ blockSize * fuel) :
    ((c.verify fuel driveSize).run medium (.rewound bytes schedule)).out = .ok (some ()) ↔
      Completes schedule driveSize.toNat ∧
        ∀ k < driveSize.toNat, bytes[k]? = some (c.byte k) := by
  have hends := c.verify_wentThrough bytes schedule hsize hfuel
  obtain ⟨-, -, hiff⟩ := (c.verify_verifies bytes schedule hsize hfuel).bytewise
  constructor
  · intro hok
    rw [hok] at hends
    exact ⟨hends.2.2, (hiff hends.2.2).mp hok⟩
  · intro h
    exact (hiff h.1).mpr h.2

end Method

/-- Whether an overwrite or a verification ends normally depends on the schedule and on the
length of the medium in the same way for both contents; a verification also needs every
byte of the drive to be right. -/
theorem ends_normally_iff {driveSize : UInt64} (hsize : driveSize.toNat < 2 ^ 63) {fuel : Nat}
    (hfuel : driveSize.toNat ≤ blockSize * fuel) (c : Content) (bytes : List UInt8)
    (schedule : Nat → Nat) :
    (((c.write fuel driveSize).run medium (.rewound bytes schedule)).out = .ok (some ()) ↔
      driveSize.toNat ≤ bytes.length ∧ Completes schedule driveSize.toNat) ∧
    (((c.verify fuel driveSize).run medium (.rewound bytes schedule)).out = .ok (some ()) ↔
      Completes schedule driveSize.toNat ∧
        ∀ k < driveSize.toNat, bytes[k]? = some (c.byte k)) :=
  ⟨c.write_ok_iff bytes schedule hsize hfuel, c.verify_ok_iff bytes schedule hsize hfuel⟩

theorem ends_normally_iff_short :
    ((Content.zeros.write 1 5).run medium (.rewound [7, 7, 7, 7, 7, 7] fun _ => 1)).out =
        .ok (some ()) ↔
      (5 : UInt64).toNat ≤ [7, 7, 7, 7, 7, 7].length ∧ Completes (fun _ => 1) (5 : UInt64).toNat :=
  (@ends_normally_iff 5 (by decide) 1 (by decide) .zeros [7, 7, 7, 7, 7, 7] fun _ => 1).1

/-- After an overwrite that ended normally, whatever was there before and whatever schedule
the reads have: a verification whose reads complete accepts that content and no other. -/
theorem overwritten_verifies_iff {driveSize : UInt64} (hsize : driveSize.toNat < 2 ^ 63)
    {fuel : Nat} (hfuel : driveSize.toNat ≤ blockSize * fuel) (c c' : Content)
    (bytes : List UInt8) (schedule schedule' : Nat → Nat)
    (hwritten : ((c.write fuel driveSize).run medium (.rewound bytes schedule)).out =
      .ok (some ())) :
    ((c'.verify fuel driveSize).run medium (.rewound
        ((c.write fuel driveSize).run medium (.rewound bytes schedule)).state.contents
        schedule')).out = .ok (some ()) ↔
      Completes schedule' driveSize.toNat ∧ (c' = c ∨ driveSize = 0) := by
  obtain ⟨-, hdone, -⟩ := (c.write_writes bytes schedule hsize hfuel).bytewise
  have hcontents := hdone hwritten
  rw [c'.verify_ok_iff _ _ hsize hfuel]
  apply and_congr_right
  intro _
  constructor
  · intro hbytes
    by_cases hpos : 0 < driveSize.toNat
    · have hfirst := hbytes 0 hpos
      rw [hcontents 0, if_pos hpos] at hfirst
      exact .inl (Content.byte_zero_inj (Option.some.inj hfirst)).symm
    · exact .inr (UInt64.toNat_inj.mp (Nat.eq_zero_of_not_pos hpos))
  · intro h k hk
    rw [hcontents k, if_pos hk]
    obtain rfl | rfl := h
    · rfl
    · exact absurd hk (Nat.not_lt_zero k)

theorem overwritten_verifies_iff_short :
    ((Content.pattern.verify 1 5).run medium (.rewound
        ((Content.zeros.write 1 5).run medium (.rewound [7, 7, 7, 7, 7, 7]
          fun _ => 3)).state.contents fun _ => 2)).out = .ok (some ()) ↔
      Completes (fun _ => 2) (5 : UInt64).toNat ∧ (Content.pattern = .zeros ∨ (5 : UInt64) = 0) :=
  @overwritten_verifies_iff 5 (by decide) 1 (by decide) .zeros .pattern [7, 7, 7, 7, 7, 7]
    (fun _ => 3) (fun _ => 2) rfl

/-! ## Rounds -/

inductive Job where
  | write (content : Content) (schedule : Nat → Nat)
  | verify (content : Content) (schedule : Nat → Nat)

/-- One round, from the bytes of the drive before it. -/
def Job.perform (fuel : Nat) (driveSize : UInt64) (bytes : List UInt8) :
    Job → Result fdPorts Exception (Option Unit) Medium
  | .write content schedule =>
    (content.write fuel driveSize).run medium (.rewound bytes schedule)
  | .verify content schedule =>
    (content.verify fuel driveSize).run medium (.rewound bytes schedule)

/-- What an overwrite wrote, and how far it got. -/
structure Layer where
  content : Content
  reach : Nat

def Job.layer (fuel : Nat) (driveSize : UInt64) (bytes : List UInt8) (job : Job) : List Layer :=
  match job with
  | .write content _ => [⟨content, (job.perform fuel driveSize bytes).state.before.length⟩]
  | .verify _ _ => []

/-- The bytes that a sequence of rounds leaves. -/
def bytesAfter (fuel : Nat) (driveSize : UInt64) : List UInt8 → List Job → List UInt8
  | bytes, [] => bytes
  | bytes, job :: jobs =>
    bytesAfter fuel driveSize (job.perform fuel driveSize bytes).state.contents jobs

def layers (fuel : Nat) (driveSize : UInt64) : List UInt8 → List Job → List Layer
  | _, [] => []
  | bytes, job :: jobs =>
    job.layer fuel driveSize bytes ++
      layers fuel driveSize (job.perform fuel driveSize bytes).state.contents jobs

/-- The byte at `k` under these layers, the last of which lies on top. -/
def visible (bytes : List UInt8) (ls : List Layer) (k : Nat) : Option UInt8 :=
  match (ls.reverse.find? fun layer => k < layer.reach) with
  | some layer => some (layer.content.byte k)
  | none => bytes[k]?

section Rounds
variable {driveSize : UInt64} {fuel : Nat} {bytes : List UInt8}

theorem visible_cons (layer : Layer) (ls : List Layer) (k : Nat) {bytes' : List UInt8}
    (hbytes' : bytes'[k]? = if k < layer.reach then some (layer.content.byte k) else bytes[k]?) :
    visible bytes (layer :: ls) k = visible bytes' ls k := by
  simp only [visible, List.reverse_cons, List.find?_append]
  cases hfind : ls.reverse.find? fun layer => k < layer.reach with
  | some top => simp
  | none =>
    by_cases hk : k < layer.reach
    · simp [hk, hbytes']
    · simp [hk, hbytes']

/-! ### Verifying only reads -/

def FdCall.reads : FdCall → Prop
  | .read _ _ => True
  | .write _ _ => False

theorem transferLoop_uses {β : Type} {N : FdCall → Prop} {io : Nat → β → FdM (Nat × β)}
    (hio : ∀ moved buffer, (io moved buffer).Uses N) (size left moved : Nat) (buffer : β) :
    (transferLoop io size left moved buffer).Uses N := by
  induction left generalizing moved buffer with
  | zero =>
    unfold transferLoop
    split
    · apply (hio moved buffer).bind
      intro answered
      dsimp only
      split_ifs <;> trivial
    · trivial
  | succ left ih =>
    unfold transferLoop
    split
    · apply (hio moved buffer).bind
      intro answered
      dsimp only
      split_ifs
      · trivial
      · trivial
      · exact ih _ _
    · trivial

theorem blockLoop_uses {γ : Type} {N : FdCall → Prop} {block : Nat → γ → FdM γ}
    (hblock : ∀ size a, (block size a).Uses N) (width driveSize fuel currentIndex : Nat) (a : γ) :
    (blockLoop width driveSize block fuel currentIndex a).Uses N := by
  induction fuel generalizing currentIndex a with
  | zero =>
    unfold blockLoop
    split <;> trivial
  | succ fuel ih =>
    unfold blockLoop
    split
    · exact (hblock _ a).bind fun a' => ih _ a'
    · trivial

theorem forBlocks_uses {γ : Type} {N : FdCall → Prop} {block : Nat → γ → FdM γ}
    (hblock : ∀ size a, (block size a).Uses N) (width driveSize fuel : Nat) (a : γ) :
    (forBlocks width driveSize block fuel a).Uses N :=
  (blockLoop_uses hblock width driveSize fuel 0 a).bind fun _ => Prog.uses_ret _

theorem readBlock_reads (readArr : List UInt8) (n : Nat) :
    (readBlock readArr n).Uses FdCall.reads := by
  apply transferLoop_uses
  intro read readArr'
  refine ⟨trivial, ?_⟩
  intro answer
  cases answer <;> trivial

theorem check_reads {γ : Type} (readArr : List UInt8) (n : Nat) {matches_ : List UInt8 → Prop}
    [DecidablePred matches_] {f : List UInt8 → γ} :
    (do
      let readArr ← tryCatch (readBlock readArr n) fun _ => throw .internalFailure
      if matches_ readArr then pure (f readArr) else throw .internalFailure : FdM γ).Uses
      FdCall.reads := by
  have hread : (tryCatch (readBlock readArr n) fun _ => throw .internalFailure :
      FdM (List UInt8)).Uses FdCall.reads :=
    (readBlock_reads readArr n).tryCatch fun _ => Prog.uses_throw _
  apply hread.bind
  intro readArr'
  split <;> trivial

theorem verifyPatternBlock_reads (n : Nat) (s : Nat × List UInt8) :
    (verifyPatternBlock n s).Uses FdCall.reads := by
  obtain ⟨generator, readArr⟩ := s
  unfold verifyPatternBlock
  generalize fillBlock generator = filled
  exact check_reads readArr n

theorem verifyZeroBlock_reads (n : Nat) (readArr : List UInt8) :
    (verifyZeroBlock n readArr).Uses FdCall.reads := by
  unfold verifyZeroBlock
  exact check_reads readArr n

theorem Content.verify_reads (c : Content) : (c.verify fuel driveSize).Uses FdCall.reads := by
  cases c with
  | pattern =>
    unfold Content.verify verifyPattern
    exact forBlocks_uses verifyPatternBlock_reads ..
  | zeros =>
    unfold Content.verify verifyZero
    exact forBlocks_uses verifyZeroBlock_reads ..

theorem Content.verify_keeps (c : Content) (m : Medium) :
    ((c.verify fuel driveSize).run medium m).state.contents = m.contents := by
  have hkeeps : ∀ m' call answer m'', call.reads → m'.contents = m.contents →
      graph medium m' call answer m'' → m''.contents = m.contents := by
    intro m' call answer m'' hreads hm' hanswered
    cases call with
    | write => exact hreads.elim
    | read start size =>
      obtain ⟨-, rfl⟩ := Prod.mk.inj hanswered
      rw [← hm', Medium.contents, Medium.advance, Medium.contents, List.append_assoc,
        List.length_take, Nat.min_eq_left (m'.moves_le_length size), List.take_append_drop]
  exact (Prog.run_of_ensures medium (fun _ _ => rfl)
    ((c.verify_reads).ensures hkeeps rfl)).1

/-! ### What the rounds leave -/

/-- An overwrite leaves its layer, the whole of it if it ended normally. -/
theorem Content.write_leaves (hsize : driveSize.toNat < 2 ^ 63)
    (hfuel : driveSize.toNat ≤ blockSize * fuel) (c : Content) (schedule : Nat → Nat) :
    let written := (c.write fuel driveSize).run medium (.rewound bytes schedule)
    written.state.before.length ≤ driveSize.toNat ∧
      ∀ k, written.state.contents[k]? =
        if k < written.state.before.length then some (c.byte k) else bytes[k]? := by
  intro written
  have hwrites : WritesDrive c.byte driveSize.toNat (.rewound bytes schedule) written.out
      written.state := c.write_writes bytes schedule hsize hfuel
  cases hout : written.out with
  | ok finished =>
    rw [hout] at hwrites
    obtain ⟨-, hpassed⟩ := hwrites
    have hlength : written.state.before.length = driveSize.toNat := by
      simp [hpassed.before, Medium.rewound]
    rw [hlength]
    exact ⟨Nat.le_refl _, hpassed.getElem?_contents⟩
  | error e =>
    rw [hout] at hwrites
    obtain ⟨-, k₀, hk₀, hpassed⟩ := hwrites
    have hlength : written.state.before.length = k₀ := by
      simp [hpassed.before, Medium.rewound]
    rw [hlength]
    exact ⟨Nat.le_of_lt hk₀, hpassed.getElem?_contents⟩

theorem Job.perform_visible (hsize : driveSize.toNat < 2 ^ 63)
    (hfuel : driveSize.toNat ≤ blockSize * fuel) (job : Job) (ls : List Layer) (k : Nat) :
    visible bytes (job.layer fuel driveSize bytes ++ ls) k =
      visible (job.perform fuel driveSize bytes).state.contents ls k := by
  cases job with
  | write c schedule =>
    exact visible_cons _ ls k ((Content.write_leaves hsize hfuel c schedule).2 k)
  | verify c schedule =>
    have hkeeps : (Job.perform fuel driveSize bytes (.verify c schedule)).state.contents = bytes :=
      c.verify_keeps _
    rw [hkeeps]
    rfl

theorem bytesAfter_visible (hsize : driveSize.toNat < 2 ^ 63)
    (hfuel : driveSize.toNat ≤ blockSize * fuel) (jobs : List Job) (k : Nat) :
    (bytesAfter fuel driveSize bytes jobs)[k]? =
      visible bytes (layers fuel driveSize bytes jobs) k := by
  induction jobs generalizing bytes with
  | nil => rfl
  | cons job jobs ih => rw [bytesAfter, layers, job.perform_visible hsize hfuel, ih]

theorem layers_reach (hsize : driveSize.toNat < 2 ^ 63)
    (hfuel : driveSize.toNat ≤ blockSize * fuel) (jobs : List Job) :
    ∀ layer ∈ layers fuel driveSize bytes jobs, layer.reach ≤ driveSize.toNat := by
  induction jobs generalizing bytes with
  | nil => simp [layers]
  | cons job jobs ih =>
    intro layer hmem
    obtain hfirst | hlater := List.mem_append.mp hmem
    · cases job with
      | write c schedule =>
        obtain rfl := List.mem_singleton.mp hfirst
        exact (Content.write_leaves hsize hfuel c schedule).1
      | verify c schedule => cases hfirst
    · exact ih layer hlater

end Rounds

/-- After any rounds, ended normally or not, each byte of the medium is that of the last
overwrite that reached it, bytes behind the drive are the old ones, and a verification
accepts exactly what is visible so. -/
theorem rounds_leave_last_layer {driveSize : UInt64} (hsize : driveSize.toNat < 2 ^ 63)
    {fuel : Nat} (hfuel : driveSize.toNat ≤ blockSize * fuel) (bytes : List UInt8)
    (jobs : List Job) :
    (∀ k, (bytesAfter fuel driveSize bytes jobs)[k]? =
      visible bytes (layers fuel driveSize bytes jobs) k) ∧
    (∀ k, driveSize.toNat ≤ k → (bytesAfter fuel driveSize bytes jobs)[k]? = bytes[k]?) ∧
    ∀ (c : Content) (schedule : Nat → Nat),
      ((Job.verify c schedule).perform fuel driveSize
          (bytesAfter fuel driveSize bytes jobs)).out = .ok (some ()) ↔
        Completes schedule driveSize.toNat ∧ ∀ k < driveSize.toNat,
          visible bytes (layers fuel driveSize bytes jobs) k = some (c.byte k) := by
  have hvisible : ∀ k, (bytesAfter fuel driveSize bytes jobs)[k]? =
      visible bytes (layers fuel driveSize bytes jobs) k := bytesAfter_visible hsize hfuel jobs
  refine ⟨hvisible, ?_, ?_⟩
  · intro k hk
    have hnone : (layers fuel driveSize bytes jobs).reverse.find?
        (fun layer => k < layer.reach) = none := by
      apply List.find?_eq_none.mpr
      intro layer hmem
      have hreach := layers_reach hsize hfuel jobs layer (List.mem_reverse.mp hmem)
      simpa using Nat.le_trans hreach hk
    rw [hvisible k, visible, hnone]
  · intro c schedule
    have hiff := c.verify_ok_iff (bytesAfter fuel driveSize bytes jobs) schedule hsize hfuel
    simp only [hvisible] at hiff
    exact hiff

theorem rounds_leave_last_layer_short :
    (bytesAfter 1 5 [7, 7, 7, 7, 7, 7]
      [.write .pattern fun _ => 5, .write .zeros fun _ => 0])[5]? = some 7 :=
  (@rounds_leave_last_layer 5 (by decide) 1 (by decide) [7, 7, 7, 7, 7, 7]
    [.write .pattern fun _ => 5, .write .zeros fun _ => 0]).2.1 5 (by decide)

end Estoraged

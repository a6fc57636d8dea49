import Estoraged.TransferBounds

/-!
# How the blocks cover a drive

The outer loop of the overwrite methods, seen in the calls of a run: a block is done with
the call that gets all it asks for. The index and the sum it is compared by are kept in
64 bits.
-/

namespace Estoraged
open Interaction
set_option autoImplicit false

section Trace
variable {σ : Type}

/-- The size of the block that a call brings to its end. -/
def endsBlock (ev : Event fdPorts σ) : Option Nat :=
  if FdCall.count ev.call ev.answer = .ok (FdCall.size ev.call) then
    some (FdCall.start ev.call + FdCall.size ev.call)
  else none

def blocks (tr : Trace fdPorts σ) : List Nat := tr.filterMap endsBlock

/-- Where on the drive each call works and how many bytes it is for, beginning at `index`. -/
def places (index : Nat) : Trace fdPorts σ → List (Nat × Nat)
  | [] => []
  | ev :: rest =>
    (index + FdCall.start ev.call, FdCall.size ev.call) ::
      places (index + (endsBlock ev).getD 0) rest

theorem blocks_append (tr tr' : Trace fdPorts σ) : blocks (tr ++ tr') = blocks tr ++ blocks tr' :=
  List.filterMap_append

theorem blocks_cons (ev : Event fdPorts σ) (tr : Trace fdPorts σ) :
    (blocks (ev :: tr)).sum = (endsBlock ev).getD 0 + (blocks tr).sum := by
  unfold blocks
  rw [List.filterMap_cons]
  cases endsBlock ev with
  | none => exact (Nat.zero_add _).symm
  | some size => exact List.sum_cons

theorem places_append (index : Nat) (tr tr' : Trace fdPorts σ) :
    places index (tr ++ tr') = places index tr ++ places (index + (blocks tr).sum) tr' := by
  induction tr generalizing index with
  | nil => rfl
  | cons ev rest ih =>
    rw [List.cons_append, places, ih, places, List.cons_append, blocks_cons, Nat.add_assoc]

/-- The calls of one block of `n` bytes, wherever it is. -/
structure OneBlock (n : Nat) (tr : Trace fdPorts σ) : Prop where
  blocks : blocks tr = [n]
  inside : ∀ index, ∀ place ∈ places index tr, place.1 + place.2 ≤ index + n

/-- The drive as covered after at most `fuel` blocks. -/
structure DriveCovered (driveSize fuel : Nat) (tr : Trace fdPorts σ)
    (out : Except Exception (Option Unit)) : Prop where
  ends_iff : out = .ok (some ()) ↔ (driveSize + (blockSize - 1)) / blockSize ≤ fuel
  iterations : (blocks tr).length = min fuel ((driveSize + (blockSize - 1)) / blockSize)
  sizes : ∀ size ∈ blocks tr, 1 ≤ size ∧ size ≤ blockSize
  increases : ∀ b < (blocks tr).length,
    ((blocks tr).take b).sum < ((blocks tr).take (b + 1)).sum
  sum : out = .ok (some ()) → (blocks tr).sum = driveSize
  inside : ∀ place ∈ places 0 tr, place.1 + place.2 ≤ driveSize

end Trace

/-- In every run in which the transfers succeed, the loop covers the drive. -/
def CoversDrive (driveSize : Nat) (loop : Nat → FdM (Option Unit)) : Prop :=
  ∀ (σ : Type) (env : Env fdPorts σ) (s : σ) (fuel : Nat), Ensures env (loop fuel) s
    fun tr out _ => out.isOk = true → DriveCovered driveSize fuel tr out

/-! ## One block -/

section Block
variable {σ : Type} {env : Env fdPorts σ} {n : Nat}

theorem OneBlock.single {ev : Event fdPorts σ}
    (hsize : FdCall.start ev.call + FdCall.size ev.call = n)
    (hdone : FdCall.count ev.call ev.answer = .ok (FdCall.size ev.call)) : OneBlock n [ev] := by
  constructor
  · unfold Estoraged.blocks
    rw [List.filterMap_cons, endsBlock, if_pos hdone, hsize]
    rfl
  · intro index place hplace
    obtain rfl := List.mem_singleton.mp hplace
    change index + FdCall.start ev.call + FdCall.size ev.call ≤ index + n
    omega

theorem OneBlock.cons {ev : Event fdPorts σ} {tr : Trace fdPorts σ}
    (hsize : FdCall.start ev.call + FdCall.size ev.call = n)
    (hshort : FdCall.count ev.call ev.answer ≠ .ok (FdCall.size ev.call)) (h : OneBlock n tr) :
    OneBlock n (ev :: tr) := by
  have hnone : endsBlock ev = none := if_neg hshort
  constructor
  · unfold Estoraged.blocks
    rw [List.filterMap_cons, hnone]
    exact h.blocks
  · intro index place hplace
    rw [places, hnone, Option.getD_none, Nat.add_zero] at hplace
    rcases List.mem_cons.mp hplace with rfl | hplace
    · change index + FdCall.start ev.call + FdCall.size ev.call ≤ index + n
      omega
    · exact h.inside index place hplace

/-- A block that is transferred without an exception is done with the last of its calls. -/
theorem transferLoop_oneBlock {β : Type} {io : Nat → β → FdM (Nat × β)} (hpos : 0 < n)
    (hn : n ≤ blockSize) (hio : AsksForRest env n io) (left : Nat) (buffer : β) (s : σ) :
    Ensures env (transferLoop io n left 0 buffer) s
      fun tr out _ => out.isOk = true → OneBlock n tr := by
  refine transferLoop_calls (P := fun _ _ _ => True)
    (Q := fun _ _ _ tr out => out.isOk = true → OneBlock n tr) hn hio ?_ ?_ trivial hpos buffer
  · intro left moved s ev s' out _ _ hrest hlast hok
    have hstart := hrest.start
    have hsize := hrest.size
    cases hlast with
    | done buffer' hcount hdone =>
      apply OneBlock.single hsize
      rw [hcount]
      congr 1
      omega
    | beyond => cases hok
    | exhausted => cases hok
    | threw => cases hok
  · intro left moved s ev s' count _ hrest hcount hshort
    have hstart := hrest.start
    have hsize := hrest.size
    refine ⟨trivial, fun tr out h hok => (h hok).cons hsize ?_⟩
    rw [hcount]
    intro hsame
    have hequal := Except.ok.inj hsame
    omega

/-- The block transfer of one iteration. -/
def TransfersOneBlock {γ : Type} (block : Nat → γ → FdM γ) : Prop :=
  ∀ (σ : Type) (env : Env fdPorts σ) (n : Nat) (a : γ) (s : σ), 0 < n → n ≤ blockSize →
    Ensures env (block n a) s fun tr out _ => out.isOk = true → OneBlock n tr

theorem writeBlock_oneBlock {arr : List UInt8} (hpos : 0 < n) (hn : n ≤ blockSize)
    (harr : arr.length = blockSize) (s : σ) : Ensures env (writeBlock arr n) s
      fun tr out _ => out.isOk = true → OneBlock n tr :=
  transferLoop_oneBlock hpos hn (writeSubspan_asksForRest hn (by rw [harr]; exact hn)) maxRetry () s

theorem readBlock_oneBlock (readArr : List UInt8) (hpos : 0 < n) (hn : n ≤ blockSize) (s : σ) :
    Ensures env (readBlock readArr n) s fun tr out _ => out.isOk = true → OneBlock n tr :=
  transferLoop_oneBlock hpos hn (readSubspan_asksForRest hn) maxRetry readArr s

/-- What is left of an outcome behind `catch (...)`, and what holds of the others stays. -/
theorem ensures_rethrown {α : Type} {p : FdM α} {s : σ} {R : Trace fdPorts σ → Prop}
    (h : Ensures env p s fun tr out _ => out.isOk = true → R tr) :
    Ensures env (tryCatch p fun _ => throw .internalFailure) s
      fun tr out _ => out.isOk = true → R tr := by
  refine Ensures.tryCatch h (fun _ _ _ hout => hout) ?_
  intro tr e s' _
  refine Ensures.throw_iff.mpr ?_
  intro hok
  cases hok

end Block

theorem writePatternBlock_oneBlock : TransfersOneBlock writePatternBlock := by
  intro σ env n generator s hpos hn
  unfold writePatternBlock
  refine Ensures.bind (writeBlock_oneBlock hpos hn (length_fillBlock generator) s) ?_ ?_
  · intro tr _ s' h
    refine Ensures.ret_iff.mpr fun _ => ?_
    rw [List.append_nil]
    exact h rfl
  · intro tr e s' _ hok
    cases hok

theorem writeZeroBlock_oneBlock : TransfersOneBlock writeZeroBlock := by
  intro σ env n _ s hpos hn
  apply ensures_rethrown
  exact writeBlock_oneBlock hpos hn List.length_replicate s

/-- Reading a block and comparing it. -/
theorem verify_oneBlock {γ : Type} {σ : Type} {env : Env fdPorts σ} {n : Nat}
    (readArr : List UInt8) (hpos : 0 < n) (hn : n ≤ blockSize) (s : σ)
    {compare : List UInt8 → FdM γ}
    (hcompare : ∀ readArr s', Ensures env (compare readArr) s' fun tr out _ =>
      out.isOk = true → tr = []) :
    Ensures env (do
      let readArr ← tryCatch (readBlock readArr n) fun _ => throw .internalFailure
      compare readArr) s fun tr out _ => out.isOk = true → OneBlock n tr := by
  refine Ensures.bind (ensures_rethrown (readBlock_oneBlock readArr hpos hn s)) ?_ ?_
  · intro tr readArr' s' h
    refine (hcompare readArr' s').mono ?_
    intro tr' out s'' hcompared hok
    rw [hcompared hok, List.append_nil]
    exact h rfl
  · intro tr e s' _ hok
    cases hok

theorem verifyPatternBlock_oneBlock : TransfersOneBlock verifyPatternBlock := by
  intro σ env n s₀ s hpos hn
  refine verify_oneBlock s₀.2 hpos hn s ?_
  intro readArr s'
  split
  · exact Ensures.ret_iff.mpr fun _ => rfl
  · exact Ensures.throw_iff.mpr fun _ => rfl

theorem verifyZeroBlock_oneBlock : TransfersOneBlock verifyZeroBlock := by
  intro σ env n readArr s hpos hn
  refine verify_oneBlock readArr hpos hn s ?_
  intro readArr' s'
  split
  · exact Ensures.ret_iff.mpr fun _ => rfl
  · exact Ensures.throw_iff.mpr fun _ => rfl

/-! ## All blocks -/

/-- The number of blocks from `index` on. -/
def blocksLeft (driveSize index : Nat) : Nat := (driveSize - index + (blockSize - 1)) / blockSize

structure CoveredFrom {σ : Type} (driveSize index fuel : Nat) (tr : Trace fdPorts σ)
    (finished : Bool) : Prop where
  ends_iff : finished = true ↔ blocksLeft driveSize index ≤ fuel
  iterations : (blocks tr).length = min fuel (blocksLeft driveSize index)
  sizes : ∀ size ∈ blocks tr, 1 ≤ size ∧ size ≤ blockSize
  sum : finished = true → index + (blocks tr).sum = driveSize
  inside : ∀ place ∈ places index tr, place.1 + place.2 ≤ driveSize

section Loop
variable {σ : Type} {driveSize index fuel : Nat}

theorem blocksLeft_end (h : driveSize ≤ index) : blocksLeft driveSize index = 0 := by
  unfold blocksLeft
  rw [Nat.sub_eq_zero_of_le h]
  rfl

theorem blocksLeft_next (h : index < driveSize) : blocksLeft driveSize index =
    blocksLeft driveSize (index + min blockSize (driveSize - index)) + 1 := by
  simp only [blocksLeft, blockSize]
  omega

theorem CoveredFrom.done (h : driveSize = index) :
    CoveredFrom driveSize index fuel ([] : Trace fdPorts σ) true := by
  have hzero := blocksLeft_end (Nat.le_of_eq h)
  constructor
  · rw [hzero]
    exact iff_of_true rfl (Nat.zero_le fuel)
  · rw [hzero, Nat.min_zero]
    rfl
  · intro size hsize
    cases hsize
  · intro _
    exact h.symm
  · intro place hplace
    cases hplace

theorem CoveredFrom.more (h : index < driveSize) :
    CoveredFrom driveSize index 0 ([] : Trace fdPorts σ) false := by
  have hleft := blocksLeft_next h
  constructor
  · constructor
    · intro hfinished
      cases hfinished
    · intro hnone
      omega
  · rw [Nat.zero_min]
    rfl
  · intro size hsize
    cases hsize
  · intro hfinished
    cases hfinished
  · intro place hplace
    cases hplace

theorem CoveredFrom.next {n : Nat} {tr tr' : Trace fdPorts σ} {finished : Bool}
    (h : index < driveSize) (hn : n = min blockSize (driveSize - index)) (hblock : OneBlock n tr)
    (hrest : CoveredFrom driveSize (index + n) fuel tr' finished) :
    CoveredFrom driveSize index (fuel + 1) (tr ++ tr') finished := by
  have hleft := blocksLeft_next h
  rw [← hn] at hleft
  have hblocks : blocks (tr ++ tr') = n :: blocks tr' := by
    rw [blocks_append, hblock.blocks]
    rfl
  constructor
  · rw [hrest.ends_iff, hleft]
    omega
  · rw [hblocks, List.length_cons, hrest.iterations, hleft]
    omega
  · intro size hsize
    rw [hblocks] at hsize
    rcases List.mem_cons.mp hsize with rfl | hsize
    · have hblockSize : blockSize = 4096 := rfl
      omega
    · exact hrest.sizes size hsize
  · intro hfinished
    rw [hblocks, List.sum_cons, ← Nat.add_assoc]
    exact hrest.sum hfinished
  · intro place hplace
    rw [places_append, hblock.blocks, List.sum_singleton] at hplace
    rcases List.mem_append.mp hplace with hplace | hplace
    · have hinside := hblock.inside index place hplace
      omega
    · exact hrest.inside place hplace

variable {γ : Type} {width : Nat} {block : Nat → γ → FdM γ}

theorem blockLoop_covers (hwidth : blockSize < 2 ^ width) (hsize : driveSize + blockSize ≤ 2 ^ 64)
    (hblock : TransfersOneBlock block) (env : Env fdPorts σ) (fuel index : Nat) (a : γ) (s : σ)
    (hindex : index ≤ driveSize) :
    Ensures env (blockLoop width driveSize block fuel index a) s fun tr out _ =>
      ∀ r, out = .ok r → CoveredFrom driveSize index fuel tr r.isSome := by
  induction fuel generalizing index a s with
  | zero =>
    unfold blockLoop
    split_ifs with hlt
    · refine Ensures.ret_iff.mpr ?_
      intro r hr
      obtain rfl := Except.ok.inj hr
      exact .more hlt
    · refine Ensures.ret_iff.mpr ?_
      intro r hr
      obtain rfl := Except.ok.inj hr
      exact .done (by omega)
  | succ fuel ih =>
    unfold blockLoop
    split_ifs with hlt
    · have hn := sizeOfBlock_eq hwidth hsize hlt
      have hblockSize : blockSize = 4096 := rfl
      generalize sizeOfBlock width driveSize index = n at hn
      refine Ensures.bind (hblock σ env n a s (by omega) (by omega)) ?_ ?_
      · intro tr a' s' hone
        rw [wrapAdd_eq (by omega)]
        refine (ih (index + n) a' s' (by omega)).mono ?_
        intro tr' out s'' hrest r hr
        exact .next hlt hn (hone rfl) (hrest r hr)
      · intro tr e s' _ r hr
        cases hr
    · refine Ensures.ret_iff.mpr ?_
      intro r hr
      obtain rfl := Except.ok.inj hr
      exact .done (by omega)

end Loop

theorem CoveredFrom.drive {σ : Type} {driveSize fuel : Nat} {tr : Trace fdPorts σ}
    {finished : Bool} (h : CoveredFrom driveSize 0 fuel tr finished) :
    DriveCovered driveSize fuel tr (.ok (if finished then some () else none)) := by
  have hfinished : (Except.ok (if finished then some () else none) : Except Exception (Option Unit)) =
      .ok (some ()) ↔ finished = true := by
    cases finished <;> simp
  refine ⟨?_, h.iterations, h.sizes, ?_, ?_, h.inside⟩
  · rw [hfinished]
    exact h.ends_iff
  · intro b hb
    have hpos := (h.sizes _ (List.getElem_mem hb)).1
    rw [List.take_succ_eq_append_getElem hb, List.sum_append, List.sum_singleton]
    omega
  · intro hout
    have hsum := h.sum (hfinished.mp hout)
    rwa [Nat.zero_add] at hsum

theorem forBlocks_covers {γ : Type} {width driveSize : Nat} {block : Nat → γ → FdM γ}
    (hwidth : blockSize < 2 ^ width) (hsize : driveSize + blockSize ≤ 2 ^ 64)
    (hblock : TransfersOneBlock block) (a : γ) :
    CoversDrive driveSize fun fuel => forBlocks width driveSize block fuel a := by
  intro σ env s fuel
  unfold forBlocks
  refine Ensures.bind
    (blockLoop_covers hwidth hsize hblock env fuel 0 a s (Nat.zero_le driveSize)) ?_ ?_
  · intro tr r s' h
    refine Ensures.ret_iff.mpr fun _ => ?_
    have hdrive := (h r rfl).drive
    rw [List.append_nil]
    cases r with
    | none => exact hdrive
    | some a' => exact hdrive
  · intro tr e s' _ hok
    cases hok

/-! ## The top of the range -/

def spanOf (bytes : List UInt8) : Span :=
  ⟨bytes.take (2 ^ 63 - 1), Nat.lt_of_le_of_lt (List.length_take_le _ _) (by decide)⟩

/-- A medium that transfers all it is asked for and has the right bytes in each block; the
state is the number of the block. -/
def full (content : Nat → UInt8) : Responder fdPorts Nat := fun b c =>
  match c with
  | .write _ bytes => (.ok ⟨bytes.length % 2 ^ 63, Nat.mod_lt _ (by decide)⟩, b + 1)
  | .read _ size => (.ok (spanOf (stretch content (blockSize * b) size)), b + 1)

/-- A full block goes through with one call. -/
def GoesThrough {γ : Type} (content : Nat → UInt8) (At : Nat → γ → Prop)
    (block : Nat → γ → FdM γ) : Prop :=
  ∀ b a, At b a → Ensures (graph (full content)) (block blockSize a) b fun _ out b' =>
    ∃ a', out = .ok a' ∧ At (b + 1) a' ∧ b' = b + 1

section Full
variable {content : Nat → UInt8}

/-- A first call that moves the whole block is the only one. -/
theorem transferLoop_full {β : Type} {io : Nat → β → FdM (Nat × β)} {b : Nat} {buffer : β}
    {R : β → Prop}
    (hio : Ensures (graph (full content)) (io 0 buffer) b fun _ out b' =>
      ∃ buffer', out = .ok (blockSize, buffer') ∧ R buffer' ∧ b' = b + 1) :
    Ensures (graph (full content)) (transferLoop io blockSize maxRetry 0 buffer) b
      fun _ out b' => ∃ buffer', out = .ok buffer' ∧ R buffer' ∧ b' = b + 1 := by
  have hpos : 0 < blockSize := by decide
  have hall : wrapAdd 0 blockSize = blockSize := by decide
  refine transferLoop_rule
    (P := fun _ moved buffer₀ b₀ => moved = 0 ∧ buffer₀ = buffer ∧ b₀ = b)
    (Q := fun out b' => ∃ buffer', out = .ok buffer' ∧ R buffer' ∧ b' = b + 1)
    ?_ hpos ⟨rfl, rfl, rfl⟩
  intro left moved buffer₀ b₀ _ hstart
  obtain ⟨rfl, rfl, rfl⟩ := hstart
  refine hio.mono ?_
  intro tr out b' h
  obtain ⟨buffer', rfl, hR, rfl⟩ := h
  dsimp only
  rw [hall]
  refine ⟨fun _ => ⟨buffer', rfl, hR, rfl⟩, ?_, ?_⟩
  · intro hover
    exact absurd hover (Nat.lt_irrefl _)
  · intro hshort
    exact absurd hshort (Nat.lt_irrefl _)

theorem write_full {start : Nat} {bytes : List UInt8} (hbytes : bytes.length < 2 ^ 63) (b : Nat) :
    Ensures (graph (full content)) (Fd.write start bytes) b fun _ out b' =>
      out = .ok bytes.length ∧ b' = b + 1 := by
  rw [ensures_write]
  intro answer b' h
  obtain ⟨rfl, rfl⟩ := Prod.mk.inj h
  exact ⟨congrArg Except.ok (Nat.mod_eq_of_lt hbytes), rfl⟩

theorem read_full {start size : Nat} (hsize : size < 2 ^ 63) (b : Nat) :
    Ensures (graph (full content)) (Fd.read start size) b fun _ out b' =>
      out = .ok (stretch content (blockSize * b) size) ∧ b' = b + 1 := by
  rw [ensures_read]
  intro answer b' h
  obtain ⟨rfl, rfl⟩ := Prod.mk.inj h
  refine ⟨congrArg Except.ok (List.take_of_length_le ?_), rfl⟩
  rw [length_stretch]
  omega

theorem writeBlock_full {arr : List UInt8} (harr : arr.length = blockSize) (b : Nat) :
    Ensures (graph (full content)) (writeBlock arr blockSize) b fun _ out b' =>
      ∃ buffer', out = .ok buffer' ∧ True ∧ b' = b + 1 := by
  have hlt : arr.length < 2 ^ 63 := by
    rw [harr]
    decide
  apply transferLoop_full
  rw [writeSubspan, wrapSub_eq (by decide) (Nat.zero_le _), Nat.sub_zero, List.drop_zero, ← harr,
    List.take_length]
  refine (write_full hlt b).bind_ok ?_
  intro tr b' h
  exact Ensures.ret_iff.mpr ⟨(), rfl, trivial, h⟩

theorem readBlock_full (readArr : List UInt8) (b : Nat) :
    Ensures (graph (full content)) (readBlock readArr blockSize) b fun _ out b' =>
      ∃ readArr', out = .ok readArr' ∧
        readArr'.take blockSize = stretch content (blockSize * b) blockSize ∧ b' = b + 1 := by
  have hlt : blockSize < 2 ^ 63 := by decide
  apply transferLoop_full
  rw [readSubspan, wrapSub_eq (by decide) (Nat.zero_le _), Nat.sub_zero]
  refine (read_full hlt b).bind_ok ?_
  intro tr b' h
  have hlength := length_stretch content (blockSize * b) blockSize
  generalize stretch content (blockSize * b) blockSize = bytes at *
  have hplace : (place readArr 0 bytes).take (0 + bytes.length) = readArr.take 0 ++ bytes :=
    take_place (Nat.zero_le _)
  rw [hlength, Nat.zero_add, List.take_zero, List.nil_append] at hplace
  exact Ensures.ret_iff.mpr ⟨place readArr 0 bytes, by rw [hlength], hplace, h⟩

end Full

theorem writePatternBlock_goesThrough :
    GoesThrough patternByte (fun _ _ => True) writePatternBlock := by
  intro b generator _
  unfold writePatternBlock
  refine Ensures.bind (writeBlock_full (length_fillBlock generator) b) ?_ ?_
  · intro tr _ b' h
    obtain ⟨-, -, -, rfl⟩ := h
    exact Ensures.ret_iff.mpr ⟨_, rfl, trivial, rfl⟩
  · intro tr e b' h
    obtain ⟨a', hout, h⟩ := h
    cases hout

theorem writeZeroBlock_goesThrough :
    GoesThrough (fun _ => 0) (fun _ _ => True) writeZeroBlock := by
  intro b s _
  refine Ensures.tryCatch (writeBlock_full List.length_replicate b) ?_ ?_
  · intro tr _ b' h
    obtain ⟨-, -, -, rfl⟩ := h
    exact ⟨(), rfl, trivial, rfl⟩
  · intro tr e b' h
    obtain ⟨a', hout, h⟩ := h
    cases hout

/-- Reading a block of the right content and finding it equal to `expected`. -/
theorem verify_goesThrough {γ : Type} {content : Nat → UInt8} {b : Nat} {readArr : List UInt8}
    {compare : List UInt8 → FdM γ} {R : γ → Prop}
    (hcompare : ∀ readArr', readArr'.take blockSize = stretch content (blockSize * b) blockSize →
      ∃ a', compare readArr' = .ret a' ∧ R a') :
    Ensures (graph (full content)) (do
      let readArr ← tryCatch (readBlock readArr blockSize) fun _ => throw .internalFailure
      compare readArr) b fun _ out b' => ∃ a', out = .ok a' ∧ R a' ∧ b' = b + 1 := by
  have hread : Ensures (graph (full content))
      (tryCatch (readBlock readArr blockSize) fun _ => throw .internalFailure) b fun _ out b' =>
      ∃ readArr', out = .ok readArr' ∧
        readArr'.take blockSize = stretch content (blockSize * b) blockSize ∧ b' = b + 1 := by
    refine Ensures.tryCatch (readBlock_full readArr b) (fun _ _ _ h => h) ?_
    intro tr e b' h
    obtain ⟨a', hout, h⟩ := h
    cases hout
  refine Ensures.bind hread ?_ ?_
  · intro tr readArr₁ b' h
    obtain ⟨readArr', hout, htake, rfl⟩ := h
    obtain rfl := Except.ok.inj hout
    obtain ⟨a', hcompare, hR⟩ := hcompare readArr₁ htake
    rw [hcompare]
    exact Ensures.ret_iff.mpr ⟨a', rfl, hR, rfl⟩
  · intro tr e b' h
    obtain ⟨a', hout, h⟩ := h
    cases hout

theorem verifyPatternBlock_goesThrough :
    GoesThrough patternByte (fun b s => s.1 = generatorAt b) verifyPatternBlock := by
  intro b s hgenerator
  obtain ⟨generator, readArr⟩ := s
  obtain rfl : generator = generatorAt b := hgenerator
  unfold verifyPatternBlock
  simp only [fillBlock_eq]
  generalize generatorAt (b + 1) = next
  refine verify_goesThrough (R := fun s : Nat × List UInt8 => s.1 = next) ?_
  intro readArr' htake
  refine ⟨(next, readArr'), ?_, rfl⟩
  rw [if_pos]
  · rfl
  · rw [htake]
    apply List.take_of_length_le
    exact Nat.le_of_eq (length_stretch ..)

theorem verifyZeroBlock_goesThrough :
    GoesThrough (fun _ => 0) (fun _ _ => True) verifyZeroBlock := by
  intro b readArr _
  refine verify_goesThrough ?_
  intro readArr' htake
  refine ⟨readArr', ?_, trivial⟩
  rw [if_pos]
  · rfl
  · rw [htake, ← take_blockOfZeros (Nat.le_refl _)]

/-- Past the last multiple of the block size below 2 ^ 64 the loop starts over, without
end. -/
theorem forBlocks_endless {γ : Type} {content : Nat → UInt8} {At : Nat → γ → Prop}
    {block : Nat → γ → FdM γ} (hblock : GoesThrough content At block) {width driveSize : Nat}
    (hwidth : blockSize < 2 ^ width) (hlt : driveSize < 2 ^ 64)
    (hlarge : 2 ^ 64 < driveSize + blockSize) {a : γ} (ha : At 0 a) (fuel : Nat) :
    Ensures (graph (full content)) (forBlocks width driveSize block fuel a) 0
      fun _ out _ => out = .ok none := by
  have hblockSize : blockSize = 4096 := rfl
  refine forBlocks_rule
    (P := fun _ index a b => At b a ∧ index % 4096 = 0 ∧ index < 2 ^ 64)
    (Q := fun out _ => out = .ok none) ?_ ?_ ?_ ⟨ha, rfl, by decide⟩
  · intro fuel index a b hend h
    obtain ⟨-, hmultiple, hindex⟩ := h
    omega
  · intro index a b _ _
    rfl
  · intro fuel index a b _ h
    obtain ⟨hat, hmultiple, hindex⟩ := h
    have hwrapped : wrapAdd index blockSize % 4096 = 0 ∧ wrapAdd index blockSize < 2 ^ 64 := by
      unfold wrapAdd
      omega
    have hsize : sizeOfBlock width driveSize index = blockSize := by
      unfold sizeOfBlock
      rw [if_pos (by omega), Nat.mod_eq_of_lt hwidth]
    rw [hsize]
    refine (hblock b a hat).mono ?_
    intro tr out b' hout
    obtain ⟨a', rfl, hat', rfl⟩ := hout
    exact ⟨hat', hwrapped⟩

theorem forBlocks_covers_iff {γ : Type} {content : Nat → UInt8} {At : Nat → γ → Prop}
    {block : Nat → γ → FdM γ} {width : Nat} (hwidth : blockSize < 2 ^ width)
    (hone : TransfersOneBlock block) (hblock : GoesThrough content At block) {a : γ}
    (ha : At 0 a) (driveSize : UInt64) :
    CoversDrive driveSize.toNat (fun fuel => forBlocks width driveSize.toNat block fuel a) ↔
      driveSize.toNat + blockSize ≤ 2 ^ 64 := by
  constructor
  · intro hcovers
    apply Nat.le_of_not_lt
    intro hlarge
    obtain ⟨fuel, hfuel⟩ : ∃ fuel, (driveSize.toNat + (blockSize - 1)) / blockSize = fuel := ⟨_, rfl⟩
    have hrun : Exec (graph (full content)) (forBlocks width driveSize.toNat block fuel a) 0 _ _ _ :=
      Prog.exec_run (full content) (fun _ _ => rfl) _ 0
    have hnone := forBlocks_endless hblock hwidth driveSize.toNat_lt hlarge ha fuel _ _ _ hrun
    have hcovered := hcovers Nat (graph (full content)) 0 fuel _ _ _ hrun
    rw [hnone] at hcovered
    have hends := (hcovered rfl).ends_iff
    rw [hfuel] at hends
    cases hends.mpr (Nat.le_refl fuel)
  · intro hsize
    exact forBlocks_covers hwidth hsize hone a

def overwriteLoops : List (Nat → UInt64 → FdM (Option Unit)) :=
  [writePattern, verifyPattern, writeZero, verifyZero]

/-- The block size fits into 32 bits wherever the loop is. -/
theorem sizeOfBlock_width {driveSize currentIndex : Nat} (hlt : driveSize < 2 ^ 64)
    (h : currentIndex < driveSize) :
    sizeOfBlock 32 driveSize currentIndex = sizeOfBlock 64 driveSize currentIndex := by
  unfold sizeOfBlock
  split_ifs with hfull
  · rfl
  · rw [wrapSub_eq hlt (Nat.le_of_lt h)]
    simp only [wrapAdd, blockSize] at hfull
    omega

/-- Each of the four loops covers the drive just when the index can be moved past its end in
64 bits; the two widths of the block size make no difference. -/
theorem overwriteLoops_cover_iff (driveSize : UInt64) :
    (∀ loop ∈ overwriteLoops, CoversDrive driveSize.toNat (fun fuel => loop fuel driveSize) ↔
      driveSize.toNat + blockSize ≤ 2 ^ 64) ∧
    ∀ currentIndex < driveSize.toNat, sizeOfBlock 32 driveSize.toNat currentIndex =
      sizeOfBlock 64 driveSize.toNat currentIndex := by
  constructor
  · intro loop hloop
    have h32 : blockSize < 2 ^ 32 := by decide
    have h64 : blockSize < 2 ^ 64 := by decide
    rcases List.mem_cons.mp hloop with rfl | hloop
    · exact forBlocks_covers_iff h64 writePatternBlock_oneBlock writePatternBlock_goesThrough
        trivial driveSize
    rcases List.mem_cons.mp hloop with rfl | hloop
    · exact forBlocks_covers_iff h64 verifyPatternBlock_oneBlock verifyPatternBlock_goesThrough
        rfl driveSize
    rcases List.mem_cons.mp hloop with rfl | hloop
    · exact forBlocks_covers_iff h32 writeZeroBlock_oneBlock writeZeroBlock_goesThrough
        trivial driveSize
    obtain rfl := List.mem_singleton.mp hloop
    exact forBlocks_covers_iff h32 verifyZeroBlock_oneBlock verifyZeroBlock_goesThrough
      trivial driveSize
  · intro currentIndex h
    exact sizeOfBlock_width driveSize.toNat_lt h

/-- The largest size: after its last full block the index is zero again. -/
theorem overwrite_wraps : ¬ ∀ driveSize : UInt64, ∀ loop ∈ overwriteLoops,
    CoversDrive driveSize.toNat fun fuel => loop fuel driveSize := by
  intro halways
  have hcovers := halways 18446744073709551615 writePattern List.mem_cons_self
  have hwidth : blockSize < 2 ^ 64 := by decide
  have hsize := (forBlocks_covers_iff hwidth writePatternBlock_oneBlock
    writePatternBlock_goesThrough trivial 18446744073709551615).mp hcovers
  exact absurd hsize (by decide)

end Estoraged

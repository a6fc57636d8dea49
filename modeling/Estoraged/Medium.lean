import Estoraged.BlockTransfer

/-!
# A medium accessed in sequence

The bytes behind the file descriptor, split at the current position, and a schedule
that bounds what each call transfers. One block is read or written in full exactly
when the calls of its retry budget have the capacity for it.
-/

namespace Estoraged
open Interaction
set_option autoImplicit false

structure Medium where
  before : List UInt8
  after : List UInt8
  schedule : Nat → Nat

def Medium.contents (m : Medium) : List UInt8 := m.before ++ m.after

def Medium.rewound (bytes : List UInt8) (schedule : Nat → Nat) : Medium := ⟨[], bytes, schedule⟩

def later (schedule : Nat → Nat) (calls : Nat) : Nat → Nat := fun k => schedule (k + calls)

/-- The position moves over `bytes`, which are what it leaves behind. -/
def Medium.advance (m : Medium) (bytes : List UInt8) : Medium where
  before := m.before ++ bytes
  after := m.after.drop bytes.length
  schedule := later m.schedule 1

/-- How many of `size` bytes the next call transfers; nothing is behind the end. -/
def Medium.moves (m : Medium) (size : Nat) : Nat := min (m.schedule 0) (min size m.after.length)

/-- The file descriptor of a medium: calls are short, but they do not fail. -/
def medium : Responder fdPorts Medium := fun m c =>
  match c with
  | .write _ bytes =>
    (.ok (Fin.ofNat (2 ^ 63) (m.moves bytes.length)), m.advance (bytes.take (m.moves bytes.length)))
  | .read _ size =>
    (.ok ⟨(m.after.take (m.moves size)).take (2 ^ 63 - 1),
        Nat.lt_of_le_of_lt (List.length_take_le _ _) (by decide)⟩,
      m.advance (m.after.take (m.moves size)))

def capacity (schedule : Nat → Nat) (calls : Nat) : Nat := ((List.range calls).map schedule).sum

/-- The schedule takes exactly `calls` calls for `size` bytes. -/
structure Reaches (schedule : Nat → Nat) (size calls : Nat) : Prop where
  enough : size ≤ capacity schedule calls
  short : ∀ c < calls, capacity schedule c < size

/-- Every block of the next `size` bytes is reached within its `maxRetry + 1` calls. -/
inductive Completes : (Nat → Nat) → Nat → Prop where
  | nil (schedule : Nat → Nat) : Completes schedule 0
  | block {schedule : Nat → Nat} {size calls : Nat} :
      0 < size → calls ≤ maxRetry + 1 → Reaches schedule (min blockSize size) calls →
      Completes (later schedule calls) (size - min blockSize size) → Completes schedule size

theorem later_later (schedule : Nat → Nat) (c d : Nat) :
    later (later schedule c) d = later schedule (c + d) := by
  funext k
  simp only [later]
  congr 1
  omega

theorem capacity_succ (schedule : Nat → Nat) (calls : Nat) :
    capacity schedule (calls + 1) = capacity schedule calls + schedule calls := by
  simp [capacity, List.range_succ]

theorem capacity_mono {schedule : Nat → Nat} {c d : Nat} (h : c ≤ d) :
    capacity schedule c ≤ capacity schedule d := by
  induction h with
  | refl => exact Nat.le_refl _
  | step _ ih => exact Nat.le_trans ih (by rw [capacity_succ]; exact Nat.le_add_right _ _)

theorem Reaches.unique {schedule : Nat → Nat} {size c d : Nat} (h : Reaches schedule size c)
    (h' : Reaches schedule size d) : c = d := by
  rcases Nat.lt_trichotomy c d with hlt | heq | hlt
  · exact absurd (h'.short c hlt) (Nat.not_lt.mpr h.enough)
  · exact heq
  · exact absurd (h.short d hlt) (Nat.not_lt.mpr h'.enough)

theorem Reaches.of_call {schedule : Nat → Nat} {size calls : Nat}
    (hshort : capacity schedule calls < size)
    (henough : size ≤ capacity schedule calls + schedule calls) :
    Reaches schedule size (calls + 1) := by
  refine ⟨by rwa [capacity_succ], fun c hc => ?_⟩
  exact Nat.lt_of_le_of_lt (capacity_mono (Nat.lt_succ_iff.mp hc)) hshort

theorem not_reaches {schedule : Nat → Nat} {size calls : Nat}
    (hshort : capacity schedule calls < size) : ∀ c ≤ calls, ¬ Reaches schedule size c :=
  fun _ hc h => Nat.not_lt.mpr h.enough (Nat.lt_of_le_of_lt (capacity_mono hc) hshort)

theorem Completes.first {schedule : Nat → Nat} {size : Nat} (h : Completes schedule size)
    (hpos : 0 < size) :
    ∃ calls ≤ maxRetry + 1, Reaches schedule (min blockSize size) calls := by
  cases h with
  | nil => exact absurd hpos (Nat.lt_irrefl 0)
  | block _ hcalls hreaches _ => exact ⟨_, hcalls, hreaches⟩

theorem Completes.rest {schedule : Nat → Nat} {size calls : Nat} (h : Completes schedule size)
    (hpos : 0 < size) (hreaches : Reaches schedule (min blockSize size) calls) :
    Completes (later schedule calls) (size - min blockSize size) := by
  cases h with
  | nil => exact absurd hpos (Nat.lt_irrefl 0)
  | block _ _ hreaches' hrest =>
    rw [hreaches.unique hreaches']
    exact hrest

theorem wrapAdd_eq {a b : Nat} (h : a + b < 2 ^ 64) : wrapAdd a b = a + b :=
  Nat.mod_eq_of_lt h

theorem wrapSub_eq {a b : Nat} (ha : a < 2 ^ 64) (h : b ≤ a) : wrapSub a b = a - b := by
  unfold wrapSub
  omega

/-! ## One call -/

theorem Medium.moves_le (m : Medium) (size : Nat) : m.moves size ≤ size := by
  unfold Medium.moves
  omega

theorem Medium.moves_le_length (m : Medium) (size : Nat) : m.moves size ≤ m.after.length := by
  unfold Medium.moves
  omega

theorem write_spec {start : Nat} {bytes : List UInt8} (hbytes : bytes.length < 2 ^ 63)
    (m : Medium) : Ensures (graph medium) (Fd.write start bytes) m fun _ out m' =>
      out = .ok (m.moves bytes.length) ∧ m' = m.advance (bytes.take (m.moves bytes.length)) := by
  rw [ensures_write]
  intro answer m' h
  obtain ⟨rfl, rfl⟩ := Prod.mk.inj h
  have hlt : m.moves bytes.length < 2 ^ 63 := Nat.lt_of_le_of_lt (m.moves_le _) hbytes
  exact ⟨congrArg Except.ok (Nat.mod_eq_of_lt hlt), rfl⟩

theorem read_spec {start size : Nat} (hsize : size < 2 ^ 63) (m : Medium) :
    Ensures (graph medium) (Fd.read start size) m fun _ out m' =>
      out = .ok (m.after.take (m.moves size)) ∧ m' = m.advance (m.after.take (m.moves size)) := by
  rw [ensures_read]
  intro answer m' h
  obtain ⟨rfl, rfl⟩ := Prod.mk.inj h
  have hle : m.moves size ≤ 2 ^ 63 - 1 := by
    have := m.moves_le size
    omega
  refine ⟨congrArg Except.ok ?_, rfl⟩
  exact List.take_take.trans (by rw [Nat.min_eq_right hle])

/-! ## One block -/

structure Medium.Passed (m : Medium) (bytes : List UInt8) (m' : Medium) : Prop where
  length_le : bytes.length ≤ m.after.length
  before : m'.before = m.before ++ bytes
  after : m'.after = m.after.drop bytes.length

theorem Medium.Passed.refl (m : Medium) : m.Passed [] m := ⟨by simp, by simp, by simp⟩

theorem Medium.Passed.advance {m m' : Medium} {bytes bytes' : List UInt8}
    (h : m.Passed bytes m') (hle : bytes'.length ≤ m'.after.length) :
    m.Passed (bytes ++ bytes') (m'.advance bytes') := by
  rw [h.after, List.length_drop] at hle
  have hlength := h.length_le
  refine ⟨?_, ?_, ?_⟩
  · rw [List.length_append]
    omega
  · rw [Medium.advance, h.before, List.append_assoc]
  · rw [Medium.advance, h.after, List.drop_drop, List.length_append]

/-- Writing `n` bytes of the buffer moved over them, or stopped before the last. -/
def Wrote (arr : List UInt8) (n : Nat) (m : Medium) : Except Exception Unit → Medium → Prop
  | .ok _, m' => m.Passed (arr.take n) m'
  | .error e, m' => e = .internalFailure ∧ ∃ k < n, m.Passed (arr.take k) m'

theorem writeBlock_spec {arr : List UInt8} {n : Nat} (hn : 0 < n) (harr : n ≤ arr.length)
    (hlt : n < 2 ^ 63) (m : Medium) :
    Ensures (graph medium) (writeBlock arr n) m fun _ out m' => Wrote arr n m out m' := by
  refine transferLoop_rule (P := fun _ moved _ m' => m.Passed (arr.take moved) m') ?_ hn
    (by simpa using Medium.Passed.refl m)
  intro left moved _ m' hmoved hpassed
  have hrest : ((arr.drop moved).take (n - moved)).length = n - moved := by
    rw [List.length_take, List.length_drop]
    omega
  rw [writeSubspan, wrapSub_eq (by omega) (Nat.le_of_lt hmoved)]
  refine Ensures.bind (write_spec (by omega) m') ?_ ?_
  · rintro _ size m'' ⟨hsize, rfl⟩
    obtain rfl : size = m'.moves (n - moved) := by simpa [hrest] using hsize
    have hle := m'.moves_le (n - moved)
    have hlength := m'.moves_le_length (n - moved)
    have hnext : m.Passed (arr.take (moved + m'.moves (n - moved)))
        (m'.advance ((arr.drop moved).take (m'.moves (n - moved)))) := by
      rw [List.take_add]
      apply hpassed.advance
      rw [List.length_take]
      omega
    rw [hrest, List.take_take, Nat.min_eq_left hle]
    simp only [Prog.pure_eq, Ensures.ret_iff]
    rw [wrapAdd_eq (by omega)]
    refine ⟨fun heq => by rwa [heq] at hnext, fun hover => by omega, fun hshort => ?_⟩
    cases left with
    | zero => exact ⟨rfl, _, hshort, hnext⟩
    | succ left => exact hnext
  · rintro _ e m'' ⟨hout, -⟩
    cases hout

theorem ensures_caught {α : Type} {p : FdM α} {m : Medium}
    {Q : Except Exception α → Medium → Prop}
    (hp : Ensures (graph medium) p m fun _ out m' => Q out m')
    (hQ : ∀ e m', Q (.error e) m' → e = .internalFailure) :
    Ensures (graph medium) (tryCatch p fun _ => throw .internalFailure) m
      fun _ out m' => Q out m' := by
  refine Ensures.tryCatch hp (fun _ _ _ h => h) fun _ e m' h => ?_
  obtain rfl := hQ e m' h
  exact Ensures.throw_iff.mpr h

/-- Reading `n` bytes got them from the medium, just as the schedule reached them, or the
schedule does not reach them. -/
def ReadBack (n : Nat) (m : Medium) : Except Exception (List UInt8) → Medium → Prop
  | .ok readArr, m' => n ≤ m.after.length ∧ readArr.take n = m.after.take n ∧
      m.Passed (m.after.take n) m' ∧
      ∃ calls ≤ maxRetry + 1, Reaches m.schedule n calls ∧ m'.schedule = later m.schedule calls
  | .error e, _ => e = .internalFailure ∧
      (n ≤ m.after.length → ∀ calls ≤ maxRetry + 1, ¬ Reaches m.schedule n calls)

structure Reading (n : Nat) (m : Medium) (left moved : Nat) (readArr : List UInt8)
    (m' : Medium) : Prop where
  passed : m.Passed (m.after.take moved) m'
  moved_le : moved ≤ m.after.length
  readArr_take : readArr.take moved = m.after.take moved
  calls : n ≤ m.after.length → ∃ calls, calls + left = maxRetry ∧
    m'.schedule = later m.schedule calls ∧ capacity m.schedule calls = moved

theorem take_place {buffer bytes : List UInt8} {start : Nat} (h : start ≤ buffer.length) :
    (place buffer start bytes).take (start + bytes.length) = buffer.take start ++ bytes := by
  have hlength : (buffer.take start ++ bytes).length = start + bytes.length := by
    rw [List.length_append, List.length_take, Nat.min_eq_left h]
  rw [place, List.take_left' hlength]

theorem Reading.next {n : Nat} {m m' : Medium} {left moved : Nat} {readArr : List UInt8}
    (h : Reading n m left moved readArr m') (hmoved : moved < n) :
    let count := m'.moves (n - moved)
    let bytes := m'.after.take count
    bytes.length = count ∧ moved + count ≤ n ∧ moved + count ≤ m.after.length ∧
      m.Passed (m.after.take (moved + count)) (m'.advance bytes) ∧
      (place readArr moved bytes).take (moved + count) = m.after.take (moved + count) ∧
      (n ≤ m.after.length → ∃ calls, calls + left = maxRetry ∧
        m'.schedule = later m.schedule calls ∧ capacity m.schedule calls = moved ∧
        count = min (m.schedule calls) (n - moved)) := by
  intro count bytes
  have hle : count ≤ n - moved := m'.moves_le _
  have hlength : count ≤ m'.after.length := m'.moves_le_length _
  have hbytes : bytes.length = count := by rw [List.length_take, Nat.min_eq_left hlength]
  have hafter : m'.after = m.after.drop moved := by
    rw [h.passed.after, List.length_take, Nat.min_eq_left h.moved_le]
  have hrest : m'.after.length = m.after.length - moved := by rw [hafter, List.length_drop]
  have htake : m.after.take (moved + count) = m.after.take moved ++ bytes := by
    rw [List.take_add, ← hafter]
  have hmoved_le := h.moved_le
  have hstart : moved ≤ readArr.length := by
    have hlengths := congrArg List.length h.readArr_take
    simp only [List.length_take] at hlengths
    omega
  refine ⟨hbytes, by omega, by omega, ?_, ?_, ?_⟩
  · rw [htake]
    exact h.passed.advance (by rw [hbytes]; exact hlength)
  · have hplace : (place readArr moved bytes).take (moved + bytes.length) = _ :=
      take_place hstart
    rw [hbytes] at hplace
    rw [hplace, htake, h.readArr_take]
  · intro hn
    obtain ⟨calls, hbudget, hschedule, hcapacity⟩ := h.calls hn
    refine ⟨calls, hbudget, hschedule, hcapacity, ?_⟩
    have hfirst : m'.schedule 0 = m.schedule calls := by
      rw [hschedule, later, Nat.zero_add]
    have hcount : count = min (m'.schedule 0) (min (n - moved) m'.after.length) := rfl
    omega

theorem readBlock_spec (readArr : List UInt8) {n : Nat} (hn : 0 < n) (hlt : n < 2 ^ 63)
    (m : Medium) :
    Ensures (graph medium) (readBlock readArr n) m fun _ out m' => ReadBack n m out m' := by
  refine transferLoop_rule (P := Reading n m) ?_ hn
    ⟨by simpa using Medium.Passed.refl m, Nat.zero_le _, by simp, fun _ => ⟨0, rfl, rfl, rfl⟩⟩
  intro left moved readArr m' hmoved h
  obtain ⟨hbytes, hle, hlength, hpassed, hplace, hcalls⟩ := h.next hmoved
  rw [readSubspan, wrapSub_eq (by omega) (Nat.le_of_lt hmoved)]
  refine Ensures.bind (read_spec (by omega) m') ?_ ?_
  · rintro _ bytes m'' ⟨hread, rfl⟩
    obtain rfl : bytes = m'.after.take (m'.moves (n - moved)) := by simpa using hread
    simp only [Prog.pure_eq, Ensures.ret_iff]
    rw [hbytes, wrapAdd_eq (by omega)]
    generalize m'.after.take (m'.moves (n - moved)) = bytes at *
    generalize m'.moves (n - moved) = count at *
    refine ⟨fun heq => ?_, fun hover => by omega, fun hshort => ?_⟩
    · rw [heq] at hpassed hplace hlength
      refine ⟨hlength, hplace, hpassed, ?_⟩
      obtain ⟨calls, hbudget, hschedule, hcapacity, hcount⟩ := hcalls hlength
      refine ⟨calls + 1, by omega, .of_call (by omega) (by omega), ?_⟩
      rw [Medium.advance, hschedule, later_later]
    · have hfull : ∀ {calls}, count = min (m.schedule calls) (n - moved) →
          capacity m.schedule calls = moved →
          capacity m.schedule (calls + 1) = moved + count := by
        intro calls hcount hcapacity
        rw [capacity_succ]
        omega
      cases left with
      | zero =>
        refine ⟨rfl, fun hn => ?_⟩
        obtain ⟨calls, hbudget, -, hcapacity, hcount⟩ := hcalls hn
        have hlast := hfull hcount hcapacity
        obtain rfl : calls = maxRetry := by omega
        exact not_reaches (by omega)
      | succ left =>
        refine ⟨hpassed, hlength, hplace, fun hn => ?_⟩
        obtain ⟨calls, hbudget, hschedule, hcapacity, hcount⟩ := hcalls hn
        refine ⟨calls + 1, by omega, ?_, hfull hcount hcapacity⟩
        rw [Medium.advance, hschedule, later_later]
  · rintro _ e m'' ⟨hout, -⟩
    cases hout

end Estoraged

import Estoraged.Pattern
import Estoraged.Zero

/-!
# The bounds of a block transfer

The inner loop under any sequence of byte counts. It asks for what is left of the
block, so the counts alone say how many calls it makes and how it ends.
-/

namespace Estoraged
open Interaction
set_option autoImplicit false

def FdCall.start : FdCall → Nat
  | .write start _ => start
  | .read start _ => start

def FdCall.size : FdCall → Nat
  | .write _ bytes => bytes.length
  | .read _ size => size

/-- The size of the span an answer consists of. -/
def FdCall.count : (c : FdCall) → c.Ret → Except String Nat
  | .write _ _, r => r.map fun size => size.val
  | .read _ _, r => r.map fun span => span.val.length

theorem FdCall.count_lt {c : FdCall} {r : c.Ret} {n : Nat} (h : FdCall.count c r = .ok n) :
    n < 2 ^ 63 := by
  cases c with
  | write start bytes =>
    cases r with
    | error detail => cases h
    | ok size =>
      obtain rfl : size.val = n := by injection h
      exact size.isLt
  | read start size =>
    cases r with
    | error detail => cases h
    | ok span =>
      obtain rfl : span.val.length = n := by injection h
      exact span.property

/-- The call that the loop makes in state `s` when `moved` bytes are done: it is for all
that is left of the block. -/
structure RestCall {σ : Type} (env : Env fdPorts σ) (n moved : Nat) (s : σ) (ev : Event fdPorts σ)
    (s' : σ) : Prop where
  start : FdCall.start ev.call = moved
  size : FdCall.start ev.call + FdCall.size ev.call = n
  answer : env s ev.call ev.answer s'

/-- The count is handed on, an exception too. -/
structure HandsOn {α σ : Type} (ev : Event fdPorts σ) (out : Except Exception (Nat × α)) :
    Prop where
  ok : ∀ count buffer, out = .ok (count, buffer) → FdCall.count ev.call ev.answer = .ok count
  error : ∀ e, out = .error e → ∃ detail, e = .systemError detail ∧
    FdCall.count ev.call ev.answer = .error detail

def AsksForRest {β σ : Type} (env : Env fdPorts σ) (n : Nat) (io : Nat → β → FdM (Nat × β)) :
    Prop :=
  ∀ moved buffer s, moved < n → Ensures env (io moved buffer) s fun tr out s' =>
    ∃ ev : Event fdPorts σ, tr = [ev] ∧ RestCall env n moved s ev s' ∧ HandsOn ev out

/-- How the loop can end with a call, when there are `left` retries. -/
inductive LastCall {β σ : Type} (n left moved : Nat) (ev : Event fdPorts σ) :
    Except Exception β → Prop where
  | done {count : Nat} (buffer : β) :
      FdCall.count ev.call ev.answer = .ok count → moved + count = n →
      LastCall n left moved ev (.ok buffer)
  | beyond {count : Nat} :
      FdCall.count ev.call ev.answer = .ok count → n < moved + count →
      LastCall n left moved ev (.error .internalFailure)
  | exhausted {count : Nat} :
      left = 0 → FdCall.count ev.call ev.answer = .ok count → moved + count < n →
      LastCall n left moved ev (.error .internalFailure)
  | threw {detail : String} :
      FdCall.count ev.call ev.answer = .error detail →
      LastCall n left moved ev (.error (.systemError detail))

section Calls
variable {σ : Type} {env : Env fdPorts σ} {n : Nat}

theorem writeSubspan_asksForRest {arr : List UInt8} (hn : n ≤ blockSize) (harr : n ≤ arr.length) :
    AsksForRest env n (writeSubspan arr n) := by
  have hblock : blockSize = 4096 := rfl
  intro moved buffer s hmoved
  unfold writeSubspan
  rw [wrapSub_eq (by omega) (Nat.le_of_lt hmoved), Ensures.bind_iff, ensures_write]
  intro answer s' hanswer
  have hsize : moved + ((arr.drop moved).take (n - moved)).length = n := by
    rw [List.length_take, List.length_drop]
    omega
  cases answer with
  | error detail =>
    refine ⟨_, rfl, ⟨rfl, hsize, hanswer⟩, ?_, ?_⟩
    · intro count buffer hout
      cases hout
    · intro e hout
      obtain rfl : Exception.systemError detail = e := by injection hout
      exact ⟨detail, rfl, rfl⟩
  | ok size =>
    refine Ensures.ret_iff.mpr ⟨_, rfl, ⟨rfl, hsize, hanswer⟩, ?_, ?_⟩
    · intro count buffer hout
      obtain ⟨rfl, -⟩ : size.val = count ∧ () = buffer := by simpa using hout
      rfl
    · intro e hout
      cases hout

theorem readSubspan_asksForRest (hn : n ≤ blockSize) : AsksForRest env n (readSubspan n) := by
  have hblock : blockSize = 4096 := rfl
  intro moved buffer s hmoved
  unfold readSubspan
  rw [wrapSub_eq (by omega) (Nat.le_of_lt hmoved), Ensures.bind_iff, ensures_read]
  intro answer s' hanswer
  have hsize : moved + (n - moved) = n := by omega
  cases answer with
  | error detail =>
    refine ⟨_, rfl, ⟨rfl, hsize, hanswer⟩, ?_, ?_⟩
    · intro count buffer hout
      cases hout
    · intro e hout
      obtain rfl : Exception.systemError detail = e := by injection hout
      exact ⟨detail, rfl, rfl⟩
  | ok span =>
    refine Ensures.ret_iff.mpr ⟨_, rfl, ⟨rfl, hsize, hanswer⟩, ?_, ?_⟩
    · intro count buffer' hout
      obtain ⟨rfl, -⟩ : span.val.length = count ∧ place buffer moved span.val = buffer' := by
        simpa using hout
      rfl
    · intro e hout
      cases hout

/-- What the calls of the loop come to: `P` holds before each, and `Q` of those from any
call on, with what the loop then ends with. -/
theorem transferLoop_calls {β : Type} {io : Nat → β → FdM (Nat × β)} (hn : n ≤ blockSize)
    (hio : AsksForRest env n io) {P : Nat → Nat → σ → Prop}
    {Q : Nat → Nat → σ → Trace fdPorts σ → Except Exception β → Prop}
    (hlast : ∀ left moved s ev s' out, P left moved s → moved < n → RestCall env n moved s ev s' →
      LastCall n left moved ev out → Q left moved s [ev] out)
    (hnext : ∀ left moved s ev s' count, P (left + 1) moved s → RestCall env n moved s ev s' →
      FdCall.count ev.call ev.answer = .ok count → moved + count < n →
      P left (moved + count) s' ∧ ∀ tr out, Q left (moved + count) s' tr out →
        Q (left + 1) moved s (ev :: tr) out)
    {left moved : Nat} {s : σ} (hP : P left moved s) (hmoved : moved < n) (buffer : β) :
    Ensures env (transferLoop io n left moved buffer) s fun tr out _ => Q left moved s tr out := by
  have hblock : blockSize = 4096 := rfl
  have hstep : ∀ left moved s buffer, P left moved s → moved < n →
      (∀ left' moved' s' buffer', left = left' + 1 → P left' moved' s' → moved' < n →
        Ensures env (transferLoop io n left' moved' buffer') s'
          fun tr out _ => Q left' moved' s' tr out) →
      Ensures env (transferLoop io n left moved buffer) s
        fun tr out _ => Q left moved s tr out := by
    intro left moved s buffer hP hmoved hagain
    refine transferLoop_step hmoved ((hio moved buffer s hmoved).mono ?_)
    intro tr out s' hcall
    obtain ⟨ev, rfl, hrest, hhands⟩ := hcall
    cases out with
    | error e =>
      obtain ⟨detail, rfl, herror⟩ := hhands.error e rfl
      exact hlast _ _ _ _ _ _ hP hmoved hrest (.threw herror)
    | ok answered =>
      obtain ⟨count, buffer'⟩ := answered
      have hcount := hhands.ok count buffer' rfl
      have hlt := FdCall.count_lt hcount
      dsimp only
      rw [wrapAdd_eq (by omega)]
      refine ⟨?_, ?_, ?_⟩
      · intro hdone
        exact hlast _ _ _ _ _ _ hP hmoved hrest (.done buffer' hcount hdone)
      · intro hover
        exact hlast _ _ _ _ _ _ hP hmoved hrest (.beyond hcount hover)
      · intro hshort
        cases left with
        | zero => exact hlast _ _ _ _ _ _ hP hmoved hrest (.exhausted rfl hcount hshort)
        | succ left =>
          obtain ⟨hP', hQ⟩ := hnext _ _ _ _ _ _ hP hrest hcount hshort
          refine (hagain left _ _ buffer' rfl hP' hshort).mono ?_
          intro tr out s'' h
          exact hQ tr out h
  induction left generalizing moved s buffer with
  | zero =>
    apply hstep 0 moved s buffer hP hmoved
    intro left' moved' s' buffer' hleft
    cases hleft
  | succ left ih =>
    apply hstep (left + 1) moved s buffer hP hmoved
    intro left' moved' s' buffer' hleft hP' hmoved'
    obtain rfl := Nat.succ.inj hleft
    exact ih hP' hmoved' buffer'

end Calls

/-- A file descriptor that answers with the given counts, whatever it is asked for; the
state is the number of calls so far. -/
def counting (counts : Nat → SpanSize) : Env fdPorts Nat := fun k c r k' =>
  FdCall.count c r = .ok (counts k).val ∧ k' = k + 1

def total (counts : Nat → SpanSize) (calls : Nat) : Nat :=
  capacity (fun k => (counts k).val) calls

structure TransferBounded {α : Type} (n : Nat) (counts : Nat → SpanSize) (tr : Trace fdPorts Nat)
    (out : Except Exception α) : Prop where
  subspans : ∀ (k : Nat) (ev : Event fdPorts Nat), tr[k]? = some ev →
    FdCall.start ev.call = total counts k ∧ 0 < FdCall.size ev.call ∧
    FdCall.start ev.call + FdCall.size ev.call = n
  calls : tr.length ≤ maxRetry + 1
  completes_iff : out.isOk = true ↔
    ∃ c ≤ maxRetry + 1, total counts c = n ∧ ∀ c' < c, total counts c' ≤ n
  fails : out.isOk = false → out = .error .internalFailure ∧
    ((∀ c < tr.length, total counts c < n) ∧ n < total counts tr.length ∨
      tr.length = maxRetry + 1 ∧ total counts tr.length < n)

section Loop
variable {counts : Nat → SpanSize} {n : Nat}

theorem total_succ (counts : Nat → SpanSize) (calls : Nat) :
    total counts (calls + 1) = total counts calls + (counts calls).val :=
  capacity_succ _ _

theorem total_mono (counts : Nat → SpanSize) {c d : Nat} (h : c ≤ d) :
    total counts c ≤ total counts d := capacity_mono h

/-- The loop from call number `first` on, with `left` retries to go. -/
structure Transfers {α : Type} (n : Nat) (counts : Nat → SpanSize) (first left : Nat)
    (tr : Trace fdPorts Nat) (out : Except Exception α) : Prop where
  subspans : ∀ (k : Nat) (ev : Event fdPorts Nat), tr[k]? = some ev →
    FdCall.start ev.call = total counts (first + k) ∧ total counts (first + k) < n ∧
    FdCall.start ev.call + FdCall.size ev.call = n
  calls : tr.length ≤ left + 1
  ends : total counts (first + tr.length) = n ∧ out.isOk = true ∨
    n < total counts (first + tr.length) ∧ out = .error .internalFailure ∨
    tr.length = left + 1 ∧ total counts (first + tr.length) < n ∧ out = .error .internalFailure

theorem Transfers.cons {α : Type} {first left : Nat} {ev : Event fdPorts Nat}
    {tr : Trace fdPorts Nat} {out : Except Exception α}
    (hstart : FdCall.start ev.call = total counts first) (hshort : total counts first < n)
    (hsize : FdCall.start ev.call + FdCall.size ev.call = n)
    (h : Transfers n counts (first + 1) left tr out) :
    Transfers n counts first (left + 1) (ev :: tr) out := by
  have hnext : ∀ k, first + 1 + k = first + (k + 1) := fun k => by omega
  constructor
  · intro k ev' hev
    cases k with
    | zero =>
      obtain rfl := Option.some.inj hev
      exact ⟨hstart, hshort, hsize⟩
    | succ k =>
      rw [← hnext]
      exact h.subspans k ev' hev
  · have hcalls := h.calls
    rw [List.length_cons]
    omega
  · have hends := h.ends
    rw [hnext] at hends
    rw [List.length_cons]
    rcases hends with hdone | hover | hshort
    · exact .inl hdone
    · exact .inr (.inl hover)
    · exact .inr (.inr ⟨by omega, hshort.2⟩)

theorem Transfers.single {α : Type} {first left : Nat} {ev : Event fdPorts Nat}
    {out : Except Exception α}
    (hstart : FdCall.start ev.call = total counts first) (hshort : total counts first < n)
    (hsize : FdCall.start ev.call + FdCall.size ev.call = n)
    (hends : total counts (first + 1) = n ∧ out.isOk = true ∨
      n < total counts (first + 1) ∧ out = .error .internalFailure ∨
      left = 0 ∧ total counts (first + 1) < n ∧ out = .error .internalFailure) :
    Transfers n counts first left [ev] out := by
  constructor
  · intro k ev' hev
    cases k with
    | zero =>
      obtain rfl := Option.some.inj hev
      exact ⟨hstart, hshort, hsize⟩
    | succ k => cases hev
  · exact Nat.le_add_left 1 left
  · rcases hends with hdone | hover | hshort
    · exact .inl hdone
    · exact .inr (.inl hover)
    · exact .inr (.inr ⟨by rw [hshort.1]; rfl, hshort.2⟩)

theorem RestCall.counted {moved first : Nat} {ev : Event fdPorts Nat} {k' : Nat}
    (h : RestCall (counting counts) n moved first ev k') :
    k' = first + 1 ∧ FdCall.count ev.call ev.answer = .ok (counts first).val :=
  ⟨h.answer.2, h.answer.1⟩

theorem transferLoop_transfers {β : Type} {io : Nat → β → FdM (Nat × β)} (hpos : 0 < n)
    (hn : n ≤ blockSize) (hio : AsksForRest (counting counts) n io) (left : Nat) (buffer : β) :
    Ensures (counting counts) (transferLoop io n left 0 buffer) 0
      fun tr out _ => Transfers n counts 0 left tr out := by
  have hstart : 0 = total counts 0 := rfl
  refine transferLoop_calls (P := fun _ moved first => moved = total counts first)
    (Q := fun left _ first tr out => Transfers n counts first left tr out) hn hio ?_ ?_ hstart
    hpos buffer
  · intro left moved first ev k' out hmoved hshort hrest hlast
    obtain ⟨-, hcount⟩ := hrest.counted
    have hnext := total_succ counts first
    subst hmoved
    refine .single hrest.start hshort hrest.size ?_
    cases hlast with
    | done buffer' hok hdone =>
      obtain hval := Except.ok.inj (hcount.symm.trans hok)
      exact .inl ⟨by omega, rfl⟩
    | beyond hok hover =>
      obtain hval := Except.ok.inj (hcount.symm.trans hok)
      exact .inr (.inl ⟨by omega, rfl⟩)
    | exhausted hleft hok hstill =>
      obtain hval := Except.ok.inj (hcount.symm.trans hok)
      exact .inr (.inr ⟨hleft, by omega, rfl⟩)
    | threw herror =>
      rw [hcount] at herror
      cases herror
  · intro left moved first ev k' count hmoved hrest hok hstill
    obtain ⟨rfl, hcount⟩ := hrest.counted
    have hnext := total_succ counts first
    obtain hval := Except.ok.inj (hcount.symm.trans hok)
    subst hmoved
    refine ⟨by omega, ?_⟩
    intro tr out h
    exact h.cons hrest.start (by omega) hrest.size

/-- Before the last call the total stays below the size of the block. -/
theorem Transfers.short {α : Type} {left : Nat} {tr : Trace fdPorts Nat} {out : Except Exception α}
    (h : Transfers n counts 0 left tr out) {c : Nat} (hc : c < tr.length) : total counts c < n := by
  have hev := h.subspans c tr[c] (List.getElem?_eq_getElem hc)
  rw [Nat.zero_add] at hev
  exact hev.2.1

theorem Transfers.bounded {α : Type} {tr : Trace fdPorts Nat} {out : Except Exception α}
    (h : Transfers n counts 0 maxRetry tr out) : TransferBounded n counts tr out := by
  have hends := h.ends
  rw [Nat.zero_add] at hends
  constructor
  · intro k ev hev
    obtain ⟨hstart, hshort, hsize⟩ := h.subspans k ev hev
    rw [Nat.zero_add] at hstart hshort
    exact ⟨hstart, by omega, hsize⟩
  · exact h.calls
  · constructor
    · intro hok
      rcases hends with hdone | hover | hexhausted
      · exact ⟨tr.length, h.calls, hdone.1, fun c' hc' => Nat.le_of_lt (h.short hc')⟩
      · rw [hover.2] at hok
        cases hok
      · rw [hexhausted.2.2] at hok
        cases hok
    · intro hreached
      obtain ⟨c, hc, heq, -⟩ := hreached
      rcases hends with hdone | hover | hexhausted
      · exact hdone.2
      · exfalso
        by_cases hlast : c < tr.length
        · have hshort := h.short hlast
          omega
        · have hmono := total_mono counts (Nat.le_of_not_lt hlast)
          omega
      · exfalso
        rw [hexhausted.1] at hexhausted
        have hmono := total_mono counts hc
        omega
  · intro hfailed
    rcases hends with hdone | hover | hexhausted
    · rw [hdone.2] at hfailed
      cases hfailed
    · exact ⟨hover.2, .inl ⟨fun c hc => h.short hc, hover.1⟩⟩
    · exact ⟨hexhausted.2.2, .inr ⟨hexhausted.1, hexhausted.2.1⟩⟩

theorem TransferBounded.caught {α : Type} {p : FdM α}
    (h : Ensures (counting counts) p 0 fun tr out _ => TransferBounded n counts tr out) :
    Ensures (counting counts) (tryCatch p fun _ => throw .internalFailure) 0
      fun tr out _ => TransferBounded n counts tr out := by
  refine Ensures.tryCatch h (fun _ _ _ hout => hout) ?_
  intro tr e k hout
  obtain ⟨hthrew, -⟩ := hout.fails rfl
  obtain rfl : e = .internalFailure := by injection hthrew
  refine Ensures.throw_iff.mpr ?_
  rw [List.append_nil]
  exact hout

variable (counts)

theorem writeBlock_bounded {arr : List UInt8} (hpos : 0 < n) (hn : n ≤ blockSize)
    (harr : n ≤ arr.length) : Ensures (counting counts) (writeBlock arr n) 0
      fun tr out _ => TransferBounded n counts tr out :=
  (transferLoop_transfers hpos hn (writeSubspan_asksForRest hn harr) maxRetry ()).mono
    fun _ _ _ h => h.bounded

theorem readBlock_bounded (readArr : List UInt8) (hpos : 0 < n) (hn : n ≤ blockSize) :
    Ensures (counting counts) (readBlock readArr n) 0
      fun tr out _ => TransferBounded n counts tr out :=
  (transferLoop_transfers hpos hn (readSubspan_asksForRest hn) maxRetry readArr).mono
    fun _ _ _ h => h.bounded

end Loop

theorem length_fillBlock (generator : Nat) : (fillBlock generator).1.length = blockSize := by
  have hword : ∀ words : List Nat, (words.flatMap littleEndian).length = 4 * words.length := by
    intro words
    induction words with
    | nil => rfl
    | cons word rest ih =>
      rw [List.flatMap_cons, List.length_append, ih, List.length_cons]
      change 4 + _ = _
      omega
  rw [fillBlock, LinearCongruential.Engine.outputs_eq, hword, List.length_map, List.length_range]
  rfl

/-- Each transfer loop, with the handler around it if it has one, stays within its block and
its retries and ends as the running total of the counts says. The two verifiers read in
the same way. -/
theorem block_transfers_bounded {n : Nat} (hpos : 0 < n) (hn : n ≤ blockSize)
    (counts : Nat → SpanSize) :
    (∀ generator, Ensures (counting counts) (writeBlock (fillBlock generator).1 n) 0
      fun tr out _ => TransferBounded n counts tr out) ∧
    (∀ readArr, Ensures (counting counts)
      (tryCatch (readBlock readArr n) fun _ => throw .internalFailure) 0
      fun tr out _ => TransferBounded n counts tr out) ∧
    (∀ s, Ensures (counting counts) (writeZeroBlock n s) 0
      fun tr out _ => TransferBounded n counts tr out) := by
  refine ⟨?_, ?_, ?_⟩
  · intro generator
    apply writeBlock_bounded counts hpos hn
    rwa [length_fillBlock]
  · intro readArr
    exact .caught (readBlock_bounded counts readArr hpos hn)
  · intro s
    apply TransferBounded.caught
    apply writeBlock_bounded counts hpos hn
    rwa [blockOfZeros, List.length_replicate]

theorem block_transfers_bounded_five :
    (∀ generator, Ensures (counting fun _ => 3) (writeBlock (fillBlock generator).1 5) 0
      fun tr out _ => TransferBounded 5 (fun _ => 3) tr out) ∧
    (∀ readArr, Ensures (counting fun _ => 3)
      (tryCatch (readBlock readArr 5) fun _ => throw .internalFailure) 0
      fun tr out _ => TransferBounded 5 (fun _ => 3) tr out) ∧
    (∀ s, Ensures (counting fun _ => 3) (writeZeroBlock 5 s) 0
      fun tr out _ => TransferBounded 5 (fun _ => 3) tr out) :=
  block_transfers_bounded (Nat.succ_pos 4) (by decide) fun _ => 3

end Estoraged

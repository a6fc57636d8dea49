import Mathlib.Data.List.TakeWhile

/-!
# Formatted input

Extraction of words and of hexadecimal numerals from a stream in the classic locale. What a
library makes of a numeral with a minus sign is left open, for it differs.
-/

namespace FormattedInput
set_option autoImplicit false

def isSpace (c : Char) : Bool :=
  c == ' ' || c == '\t' || c == '\n' || c == '\x0b' || c == '\x0c' || c == '\r'

def hexValue (c : Char) : Option Nat :=
  if '0'.toNat ≤ c.toNat ∧ c.toNat ≤ '9'.toNat then some (c.toNat - '0'.toNat)
  else if 'a'.toNat ≤ c.toNat ∧ c.toNat ≤ 'f'.toNat then some (c.toNat - 'a'.toNat + 10)
  else if 'A'.toNat ≤ c.toNat ∧ c.toNat ≤ 'F'.toNat then some (c.toNat - 'A'.toNat + 10)
  else none

def isHex (c : Char) : Bool := (hexValue c).isSome

def hexNumber (digits : List Char) : Nat :=
  digits.foldl (fun n c => 16 * n + (hexValue c).getD 0) 0

/-- The characters that are left, and whether the stream is good for more. -/
structure InStream where
  rest : List Char
  good : Bool
deriving DecidableEq

/-- A stream on the text of a file, if this could be opened. -/
def InStream.ofFile (text : Option String) : InStream :=
  match text with
  | some text => ⟨text.toList, true⟩
  | none => ⟨[], false⟩

theorem InStream.ofFile_ofList (cs : List Char) :
    InStream.ofFile (some (.ofList cs)) = ⟨cs, true⟩ :=
  congrArg (InStream.mk · true) String.toList_ofList

/-- What is there behind the white space, where an extraction may begin. -/
def InStream.sentry (s : InStream) : Option (List Char) :=
  if s.good = false then none
  else if s.rest.dropWhile isSpace = [] then none
  else some (s.rest.dropWhile isSpace)

/-- After an extraction. The end of the file is not good for another one. -/
def InStream.after (rest : List Char) (good : Bool) : InStream := ⟨rest, good && rest != []⟩

def InStream.spent : InStream := ⟨[], false⟩

def dropPrefix : List Char → List Char
  | '0' :: 'x' :: rest => rest
  | '0' :: 'X' :: rest => rest
  | cs => cs

/-- The digits of a numeral, with the prefix if there is one. -/
def getHex (cs : List Char) : Option (Nat × List Char) :=
  if (dropPrefix cs).takeWhile isHex = [] then none
  else some (hexNumber ((dropPrefix cs).takeWhile isHex), (dropPrefix cs).dropWhile isHex)

/-- The value stored for a numeral, and whether it fits. -/
def stored (max : Nat) (n : Nat) : Nat × Bool := if n ≤ max then (n, true) else (max, false)

/-- `>> std::hex >> v` for an unsigned `v` of at most `max`. -/
def InStream.extractHex (minus : Nat → Nat × Bool) (max : Nat) (s : InStream) (v : Nat) :
    Nat × InStream :=
  match s.sentry with
  | none => (v, .spent)
  | some cs =>
    let store := if cs.head? = some '-' then minus else stored max
    match getHex (if cs.head? = some '-' ∨ cs.head? = some '+' then cs.tail else cs) with
    | none => (0, .spent)
    | some (n, rest) => ((store n).1, .after rest (store n).2)

/-- `>> word` for an empty word. -/
def InStream.extractWord (s : InStream) : List Char × InStream :=
  match s.sentry with
  | none => ([], .spent)
  | some cs =>
    (cs.takeWhile fun c => !isSpace c, .after (cs.dropWhile fun c => !isSpace c) true)

/-! ## Runs of characters -/

section Stops
variable {p : Char → Bool} {run rest : List Char}

/-- A run of characters that satisfy `p` does not go on into `rest`. -/
def Stops (p : Char → Bool) (rest : List Char) : Prop := ∀ c, rest.head? = some c → p c = false

theorem stops_dropWhile (p : Char → Bool) (cs : List Char) : Stops p (cs.dropWhile p) := by
  intro c hc
  have hhead := List.head?_dropWhile_not p cs
  rwa [hc] at hhead

theorem dropWhile_of_stops (h : Stops p rest) : rest.dropWhile p = rest := by
  cases rest with
  | nil => rfl
  | cons c rest => exact List.dropWhile_cons_of_neg (Bool.eq_false_iff.mp (h c rfl))

theorem takeWhile_of_stops (h : Stops p rest) : rest.takeWhile p = [] := by
  cases rest with
  | nil => rfl
  | cons c rest => exact List.takeWhile_cons_of_neg (Bool.eq_false_iff.mp (h c rfl))

theorem takeWhile_run (hrun : ∀ c ∈ run, p c = true) (h : Stops p rest) :
    (run ++ rest).takeWhile p = run := by
  rw [List.takeWhile_append_of_pos hrun, takeWhile_of_stops h, List.append_nil]

theorem dropWhile_run (hrun : ∀ c ∈ run, p c = true) (h : Stops p rest) :
    (run ++ rest).dropWhile p = rest := by
  rw [List.dropWhile_append_of_pos hrun, dropWhile_of_stops h]

end Stops

/-! ## Digits -/

theorem hexValue_digitChar : ∀ d < 16, hexValue d.digitChar = some d := by decide

theorem hexNumber_append (digits : List Char) (c : Char) :
    hexNumber (digits ++ [c]) = 16 * hexNumber digits + (hexValue c).getD 0 := by
  unfold hexNumber
  rw [List.foldl_append, List.foldl_cons, List.foldl_nil]

theorem hexNumber_toDigits (n : Nat) : hexNumber (Nat.toDigits 16 n) = n := by
  induction n using Nat.base_induction 16 (by omega) with
  | single m hm =>
    rw [Nat.toDigits_of_lt_base hm, ← List.nil_append [_], hexNumber_append,
      hexValue_digitChar m hm]
    simp [hexNumber]
  | digit m d hd hm ih =>
    rw [← Nat.toDigits_append_toDigits (by omega) hm hd, Nat.toDigits_of_lt_base hd,
      hexNumber_append, ih, hexValue_digitChar d hd, Option.getD_some]

theorem isHex_of_mem_toDigits {n : Nat} {c : Char} (h : c ∈ Nat.toDigits 16 n) :
    isHex c = true := by
  have hdigit : ∀ d < 16, isHex d.digitChar = true := by
    intro d hd
    rw [isHex, hexValue_digitChar d hd]
    rfl
  induction n using Nat.base_induction 16 (by omega) with
  | single m hm =>
    rw [Nat.toDigits_of_lt_base hm] at h
    obtain rfl := List.mem_singleton.mp h
    exact hdigit m hm
  | digit m d hd hm ih =>
    rw [← Nat.toDigits_append_toDigits (by omega) hm hd, Nat.toDigits_of_lt_base hd] at h
    rcases List.mem_append.mp h with h | h
    · exact ih h
    · obtain rfl := List.mem_singleton.mp h
      exact hdigit d hd

/-! ## Numerals -/

/-- A numeral without a sign, and behind it the text that it cannot be read on into. -/
inductive Unsigned (n : Nat) : List Char → List Char → Prop where
  | plain (digits rest : List Char) : digits ≠ [] → (∀ c ∈ digits, isHex c = true) →
      hexNumber digits = n → Stops isHex rest →
      (digits = ['0'] → rest.head? ≠ some 'x' ∧ rest.head? ≠ some 'X') →
      Unsigned n (digits ++ rest) rest
  | prefixed (x : Char) (digits rest : List Char) : x = 'x' ∨ x = 'X' → digits ≠ [] →
      (∀ c ∈ digits, isHex c = true) → hexNumber digits = n → Stops isHex rest →
      Unsigned n ('0' :: x :: (digits ++ rest)) rest

theorem dropPrefix_cases (cs : List Char) :
    (∃ x rest, (x = 'x' ∨ x = 'X') ∧ cs = '0' :: x :: rest ∧ dropPrefix cs = rest) ∨
      (dropPrefix cs = cs ∧ ∀ x rest, cs = '0' :: x :: rest → x ≠ 'x' ∧ x ≠ 'X') := by
  unfold dropPrefix
  split
  · next rest => exact .inl ⟨'x', rest, .inl rfl, rfl, rfl⟩
  · next rest => exact .inl ⟨'X', rest, .inr rfl, rfl, rfl⟩
  · next hlower hupper =>
    refine .inr ⟨rfl, ?_⟩
    rintro x rest rfl
    constructor
    · rintro rfl
      exact hlower rest rfl
    · rintro rfl
      exact hupper rest rfl

theorem dropPrefix_prefixed {x : Char} (hx : x = 'x' ∨ x = 'X') (rest : List Char) :
    dropPrefix ('0' :: x :: rest) = rest := by
  rcases hx with rfl | rfl <;> rfl

theorem dropPrefix_plain {cs : List Char} (h : ∀ x rest, cs = '0' :: x :: rest →
    x ≠ 'x' ∧ x ≠ 'X') : dropPrefix cs = cs := by
  rcases dropPrefix_cases cs with ⟨x, rest, hx, rfl, -⟩ | ⟨hsame, -⟩
  · obtain ⟨hlower, hupper⟩ := h x rest rfl
    rcases hx with hx | hx
    · exact absurd hx hlower
    · exact absurd hx hupper
  · exact hsame

theorem getHex_of_digits {cs digits rest : List Char} (hcs : dropPrefix cs = digits ++ rest)
    (hsome : digits ≠ []) (hhex : ∀ c ∈ digits, isHex c = true) (hstops : Stops isHex rest) :
    getHex cs = some (hexNumber digits, rest) := by
  unfold getHex
  rw [hcs, takeWhile_run hhex hstops, dropWhile_run hhex hstops, if_neg hsome]

theorem digits_of_getHex {cs rest : List Char} {n : Nat} (h : getHex cs = some (n, rest)) :
    ∃ digits, dropPrefix cs = digits ++ rest ∧ digits ≠ [] ∧ (∀ c ∈ digits, isHex c = true) ∧
      hexNumber digits = n ∧ Stops isHex rest := by
  unfold getHex at h
  split_ifs at h with hnone
  obtain ⟨hvalue, rfl⟩ := Prod.mk.inj (Option.some.inj h)
  refine ⟨_, List.takeWhile_append_dropWhile.symm, hnone, ?_, hvalue, stops_dropWhile isHex _⟩
  intro c hc
  exact List.all_eq_true.mp List.all_takeWhile c hc

theorem x_not_hex {x : Char} (hx : x = 'x' ∨ x = 'X') : isHex x = false := by
  rcases hx with rfl | rfl <;> rfl

/-- A numeral is read just where one stands. -/
theorem getHex_iff {cs rest : List Char} {n : Nat} :
    getHex cs = some (n, rest) ↔ Unsigned n cs rest := by
  constructor
  · intro h
    obtain ⟨digits, hdrop, hsome, hhex, hvalue, hstops⟩ := digits_of_getHex h
    rcases dropPrefix_cases cs with ⟨x, tail, hx, rfl, htail⟩ | ⟨hsame, hbare⟩
    · obtain rfl := htail.symm.trans hdrop
      exact .prefixed x digits rest hx hsome hhex hvalue hstops
    · obtain rfl := hsame.symm.trans hdrop
      refine .plain digits rest hsome hhex hvalue hstops ?_
      rintro rfl
      constructor
      · intro hhead
        obtain ⟨tail, rfl⟩ := List.head?_eq_some_iff.mp hhead
        exact (hbare 'x' tail rfl).1 rfl
      · intro hhead
        obtain ⟨tail, rfl⟩ := List.head?_eq_some_iff.mp hhead
        exact (hbare 'X' tail rfl).2 rfl
  · intro h
    cases h with
    | plain digits _ hsome hhex hvalue hstops hbare =>
      rw [← hvalue]
      apply getHex_of_digits _ hsome hhex hstops
      apply dropPrefix_plain
      intro x tail hcs
      cases digits with
      | nil => exact absurd rfl hsome
      | cons c digits =>
        obtain ⟨rfl, htail⟩ := List.cons.inj hcs
        cases digits with
        | nil =>
          obtain rfl : rest = x :: tail := htail
          obtain ⟨hlower, hupper⟩ := hbare rfl
          exact ⟨fun h => hlower (congrArg some h), fun h => hupper (congrArg some h)⟩
        | cons c digits =>
          -- The second character is a digit, so it begins no prefix.
          obtain ⟨rfl, -⟩ := List.cons.inj htail
          have hdigit := hhex c (List.mem_cons_of_mem _ List.mem_cons_self)
          rw [← not_or]
          intro hx
          rw [x_not_hex hx] at hdigit
          cases hdigit
    | prefixed x digits _ hx hsome hhex hvalue hstops =>
      rw [← hvalue]
      exact getHex_of_digits (dropPrefix_prefixed hx _) hsome hhex hstops

/-! ## Extraction -/

/-- The next numeral of a text, after white space and perhaps a plus sign. -/
inductive Next (n : Nat) : List Char → List Char → Prop where
  | bare (space cs rest : List Char) : (∀ c ∈ space, isSpace c = true) → Unsigned n cs rest →
      Next n (space ++ cs) rest
  | plus (space cs rest : List Char) : (∀ c ∈ space, isSpace c = true) → Unsigned n cs rest →
      Next n (space ++ '+' :: cs) rest

theorem Unsigned.head {n : Nat} {cs rest : List Char} (h : Unsigned n cs rest) :
    ∃ c tail, cs = c :: tail ∧ isHex c = true := by
  cases h with
  | plain digits _ hsome hhex _ _ _ =>
    obtain ⟨c, digits, rfl⟩ := List.exists_cons_of_ne_nil hsome
    exact ⟨c, digits ++ rest, rfl, hhex c List.mem_cons_self⟩
  | prefixed x digits _ _ _ _ _ _ => exact ⟨'0', x :: (digits ++ rest), rfl, rfl⟩

theorem hex_not_space {c : Char} (h : isHex c = true) : isSpace c = false := by
  apply Bool.eq_false_iff.mpr
  intro hspace
  simp only [isSpace, Bool.or_eq_true, beq_iff_eq, or_assoc] at hspace
  rcases hspace with rfl | rfl | rfl | rfl | rfl | rfl <;> cases h

/-- Behind the white space stands a digit, or a plus sign and then a digit. -/
theorem Next.skip {n : Nat} {text rest : List Char} (h : Next n text rest) :
    ∃ cs, Unsigned n cs rest ∧
      (text.dropWhile isSpace = cs ∨ text.dropWhile isSpace = '+' :: cs) := by
  cases h with
  | bare space cs _ hspace hnumeral =>
    refine ⟨cs, hnumeral, .inl (dropWhile_run hspace ?_)⟩
    obtain ⟨c, tail, rfl, hhex⟩ := hnumeral.head
    intro c' hc'
    obtain rfl := Option.some.inj hc'
    exact hex_not_space hhex
  | plus space cs _ hspace hnumeral =>
    refine ⟨cs, hnumeral, .inr (dropWhile_run hspace ?_)⟩
    intro c' hc'
    obtain rfl := Option.some.inj hc'
    rfl

theorem next_of_skip {n : Nat} {text cs rest : List Char} (hnumeral : Unsigned n cs rest)
    (h : text.dropWhile isSpace = cs ∨ text.dropWhile isSpace = '+' :: cs) : Next n text rest := by
  have hspace : ∀ c ∈ text.takeWhile isSpace, isSpace c = true := by
    intro c hc
    exact List.all_eq_true.mp List.all_takeWhile c hc
  have hsplit : text.takeWhile isSpace ++ text.dropWhile isSpace = text :=
    List.takeWhile_append_dropWhile
  rcases h with h | h
  · rw [← hsplit, h]
    exact .bare _ cs rest hspace hnumeral
  · rw [← hsplit, h]
    exact .plus _ cs rest hspace hnumeral

theorem Unsigned.mem {n : Nat} {cs rest : List Char} (h : Unsigned n cs rest) {c : Char}
    (hc : c ∈ rest) : c ∈ cs := by
  cases h with
  | plain digits _ _ _ _ _ _ => exact List.mem_append_right digits hc
  | prefixed x digits _ _ _ _ _ _ =>
    exact List.mem_cons_of_mem _ (List.mem_cons_of_mem _ (List.mem_append_right digits hc))

theorem Next.mem {n : Nat} {text rest : List Char} (h : Next n text rest) {c : Char}
    (hc : c ∈ rest) : c ∈ text := by
  cases h with
  | bare space cs _ _ hnumeral => exact List.mem_append_right space (hnumeral.mem hc)
  | plus space cs _ _ hnumeral =>
    exact List.mem_append_right space (List.mem_cons_of_mem _ (hnumeral.mem hc))

/-- What ends in front of a numeral has not come to the end of the file. -/
theorem Next.good {n : Nat} {text rest : List Char} (h : Next n text rest) :
    (InStream.after text true).good = true := by
  have hsome : text ≠ [] := by
    rintro rfl
    obtain ⟨cs, hnumeral, hskip⟩ := h.skip
    obtain ⟨c, tail, rfl, -⟩ := hnumeral.head
    rcases hskip with hskip | hskip <;> cases hskip
  simpa [InStream.after] using hsome

section Extract
variable {minus : Nat → Nat × Bool} {max n v : Nat} {s : InStream} {rest : List Char}

theorem InStream.sentry_of_good (hgood : s.good = true) (h : s.rest.dropWhile isSpace ≠ []) :
    s.sentry = some (s.rest.dropWhile isSpace) := by
  unfold InStream.sentry
  rw [hgood, if_neg (by decide), if_neg h]

theorem InStream.sentry_cases (s : InStream) : s.sentry = none ∨
    s.good = true ∧ s.rest.dropWhile isSpace ≠ [] ∧ s.sentry = some (s.rest.dropWhile isSpace) := by
  unfold InStream.sentry
  split_ifs with hbad hnone
  · exact .inl rfl
  · exact .inl rfl
  · exact .inr ⟨Bool.not_eq_false _ ▸ hbad, hnone, rfl⟩

theorem eq_of_stored {m : Nat} (hmax : n < max) (h : (stored max m).1 = n) : m = n := by
  unfold stored at h
  split_ifs at h
  · exact h
  · exact absurd h (Nat.ne_of_gt hmax)

/-- A numeral that fits is stored. -/
theorem InStream.extractHex_next (hgood : s.good = true) (h : Next n s.rest rest) (hmax : n ≤ max) :
    s.extractHex minus max v = (n, .after rest true) := by
  obtain ⟨cs, hnumeral, hskip⟩ := h.skip
  obtain ⟨c, tail, rfl, hhex⟩ := hnumeral.head
  have hget := getHex_iff.mpr hnumeral
  have hstored : stored max n = (n, true) := if_pos hmax
  have hsigns : isHex '-' = false ∧ isHex '+' = false := ⟨rfl, rfl⟩
  unfold InStream.extractHex
  rcases hskip with hskip | hskip
  · have hminus : c ≠ '-' := by
      rintro rfl
      rw [hsigns.1] at hhex
      cases hhex
    have hplus : c ≠ '+' := by
      rintro rfl
      rw [hsigns.2] at hhex
      cases hhex
    rw [sentry_of_good hgood (by simp [hskip]), hskip]
    simp [hminus, hplus, hget, hstored]
  · rw [sentry_of_good hgood (by simp [hskip]), hskip]
    simp [hget, hstored]

theorem stored_le (max n : Nat) : (stored max n).1 ≤ max := by
  unfold stored
  split_ifs with hfits
  · exact hfits
  · exact Nat.le_refl max

theorem InStream.head_plain (hplain : '-' ∉ s.rest) :
    (s.rest.dropWhile isSpace).head? ≠ some '-' := by
  intro hhead
  apply hplain
  exact (List.dropWhile_subset isSpace) (List.mem_of_head? hhead)

theorem InStream.extractHex_le (hplain : '-' ∉ s.rest) (hv : v ≤ max) :
    (s.extractHex minus max v).1 ≤ max := by
  unfold InStream.extractHex
  rcases s.sentry_cases with hnone | ⟨-, -, hsentry⟩
  · rw [hnone]
    exact hv
  · simp only [hsentry, head_plain hplain, false_or, if_false]
    split
    · exact Nat.zero_le max
    · exact stored_le max _

/-- Without a minus sign nothing else gives a value between zero and the largest one. -/
theorem InStream.next_of_extractHex (hplain : '-' ∉ s.rest) (hn : 0 < n) (hmax : n < max)
    (h : (s.extractHex minus max 0).1 = n) :
    s.good = true ∧ ∃ rest, Next n s.rest rest := by
  unfold InStream.extractHex at h
  rcases s.sentry_cases with hnone | ⟨hgood, hsome, hsentry⟩
  · rw [hnone] at h
    exact absurd h (Nat.ne_of_lt hn)
  · refine ⟨hgood, ?_⟩
    simp only [hsentry, head_plain hplain, false_or, if_false] at h
    split at h
    · exact absurd h (Nat.ne_of_lt hn)
    · next m rest hget =>
      obtain rfl : m = n := eq_of_stored hmax h
      refine ⟨rest, ?_⟩
      split_ifs at hget with hplus
      · obtain ⟨tail, htail⟩ := List.head?_eq_some_iff.mp hplus
        rw [htail] at hget
        exact next_of_skip (getHex_iff.mp hget) (.inr htail)
      · exact next_of_skip (getHex_iff.mp hget) (.inl rfl)

/-- A word is read up to the next white space. -/
theorem InStream.extractWord_run {space word : List Char} (hgood : s.good = true)
    (hs : s.rest = space ++ (word ++ rest)) (hspace : ∀ c ∈ space, isSpace c = true)
    (hword : ∀ c ∈ word, isSpace c = false) (hsome : word ≠ [])
    (hrest : ∀ c, rest.head? = some c → isSpace c = true) :
    s.extractWord = (word, .after rest true) := by
  have hskip : s.rest.dropWhile isSpace = word ++ rest := by
    rw [hs]
    apply dropWhile_run hspace
    obtain ⟨c, word, rfl⟩ := List.exists_cons_of_ne_nil hsome
    intro c' hc'
    obtain rfl := Option.some.inj hc'
    exact hword c List.mem_cons_self
  have hrun : ∀ c ∈ word, (!isSpace c) = true := by
    intro c hc
    rw [hword c hc]
    rfl
  have hstops : Stops (fun c => !isSpace c) rest := by
    intro c hc
    dsimp only
    rw [hrest c hc]
    rfl
  unfold InStream.extractWord
  rw [sentry_of_good hgood (by simp [hskip, hsome]), hskip]
  exact Prod.ext (takeWhile_run hrun hstops) (by simp [dropWhile_run hrun hstops])

theorem InStream.extractWord_blank (h : ∀ c ∈ s.rest, isSpace c = true) :
    s.extractWord = ([], .spent) := by
  unfold InStream.extractWord
  rcases s.sentry_cases with hnone | ⟨-, hsome, -⟩
  · rw [hnone]
  · exact absurd (List.dropWhile_eq_nil_iff.mpr h) hsome

end Extract

end FormattedInput

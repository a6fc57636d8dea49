import Estoraged.FormattedInput
import Estoraged.StorageObjects

/-!
# The text of the sysfs nodes

What a device shows, read from the text of its nodes. The life time is reported for two
numerals in range and for nothing else, and what a device prints is read back.
-/

namespace Estoraged
open FormattedInput
set_option autoImplicit false

/-- The nodes below the directory of a device, `none` where one cannot be opened. -/
structure SysfsNodes where
  lifeTime : Option String
  name : Option String
  serial : Option String

def readWord (text : Option String) : String :=
  String.ofList (InStream.ofFile text).extractWord.1

/-- `minus` stands for what the library makes of a minus sign. -/
def SysfsNodes.shown (minus : Nat → Nat × Bool) (nodes : SysfsNodes) : SysfsDevice :=
  let (estA, lifeTimeFile) := (InStream.ofFile nodes.lifeTime).extractHex minus 65535 0
  let (estB, _) := lifeTimeFile.extractHex minus 65535 0
  { estA := .ofNat estA
    estB := .ofNat estB
    name := readWord nodes.name
    serial := readWord nodes.serial }

/-! ## The life left -/

/-- The text begins with these two numerals. -/
def ShowsEstimates (text : String) (estA estB : Nat) : Prop :=
  ∃ rest last, Next estA text.toList rest ∧ Next estB rest last

theorem lifeLeft_table : ∀ a < 12, ∀ b < 12, 0 < a → 0 < b →
    (SysfsDevice.mk (.ofNat a) (.ofNat b) "" "").findPredictedMediaLifeLeftPercent.toNat =
      10 * (11 - max a b) := by decide

/-- An estimate that the daemon goes by. -/
def InRange (est : Nat) : Prop := 0 < est ∧ est ≤ 11

theorem inRange_toNat {est : UInt16} : InRange est.toNat ↔ 0 < est ∧ est ≤ 11 := by
  rw [UInt16.lt_iff_toNat_lt, UInt16.le_iff_toNat_le]
  rfl

theorem InRange.toNat_ofNat {est : Nat} (h : InRange est) : (UInt16.ofNat est).toNat = est :=
  UInt16.toNat_ofNat_of_lt' (Nat.lt_of_le_of_lt h.2 (by decide))

theorem SysfsDevice.inRange_of_known {device : SysfsDevice}
    (h : device.findPredictedMediaLifeLeftPercent ≠ 255) :
    InRange device.estA.toNat ∧ InRange device.estB.toNat := by
  rw [inRange_toNat, inRange_toNat]
  unfold findPredictedMediaLifeLeftPercent at h
  split at h
  · exact absurd rfl h
  · next hunknown =>
    simp only [Bool.or_eq_true, decide_eq_true_eq, not_or] at hunknown
    grind

theorem SysfsDevice.lifeLeft_known {device : SysfsDevice} (hA : InRange device.estA.toNat)
    (hB : InRange device.estB.toNat) : device.findPredictedMediaLifeLeftPercent.toNat =
      10 * (11 - max device.estA.toNat device.estB.toNat) := by
  have htable := lifeLeft_table device.estA.toNat (Nat.lt_succ_of_le hA.2) device.estB.toNat
    (Nat.lt_succ_of_le hB.2) hA.1 hB.1
  rw [UInt16.ofNat_toNat, UInt16.ofNat_toNat] at htable
  exact htable

section LifeLeft
variable {minus : Nat → Nat × Bool} {nodes : SysfsNodes} {text : String}

/-- Two numerals at the beginning of the text are the estimates. -/
theorem shown_estimates {estA estB : Nat} (hnode : nodes.lifeTime = some text)
    (h : ShowsEstimates text estA estB) (hA : estA ≤ 65535) (hB : estB ≤ 65535) :
    (nodes.shown minus).estA = .ofNat estA ∧ (nodes.shown minus).estB = .ofNat estB := by
  obtain ⟨rest, last, hfirst, hsecond⟩ := h
  unfold SysfsNodes.shown
  rw [hnode, @InStream.extractHex_next minus 65535 estA 0 (.ofFile (some text)) rest rfl hfirst hA]
  dsimp only
  rw [InStream.extractHex_next hsecond.good hsecond hB]
  exact ⟨rfl, rfl⟩

/-- And numbers other than zero come from numerals. -/
theorem shows_of_shown (hnode : nodes.lifeTime = some text) (hplain : '-' ∉ text.toList)
    (hA : InRange (nodes.shown minus).estA.toNat) (hB : InRange (nodes.shown minus).estB.toNat) :
    ShowsEstimates text (nodes.shown minus).estA.toNat (nodes.shown minus).estB.toNat := by
  have hfits : ∀ est, InRange est → est < 65535 := fun est h => Nat.lt_of_le_of_lt h.2 (by decide)
  have hfile : InStream.ofFile nodes.lifeTime = ⟨text.toList, true⟩ := by
    rw [hnode]
    rfl
  have hestA : (nodes.shown minus).estA.toNat =
      ((InStream.ofFile nodes.lifeTime).extractHex minus 65535 0).1 := by
    apply UInt16.toNat_ofNat_of_lt'
    apply Nat.lt_succ_of_le
    apply InStream.extractHex_le _ (Nat.zero_le _)
    rwa [hfile]
  rw [hfile] at hestA
  obtain ⟨-, rest, hfirst⟩ := InStream.next_of_extractHex hplain hA.1 (hfits _ hA)
    hestA.symm
  have hplain' : '-' ∉ rest := fun hmem => hplain (hfirst.mem hmem)
  have hestB : (nodes.shown minus).estB.toNat =
      ((InStream.after rest true).extractHex minus 65535 0).1 := by
    have hnext := @InStream.extractHex_next minus 65535 _ 0 ⟨text.toList, true⟩ rest rfl hfirst
      (Nat.le_of_lt (hfits _ hA))
    unfold SysfsNodes.shown
    rw [hfile, hnext]
    apply UInt16.toNat_ofNat_of_lt'
    apply Nat.lt_succ_of_le
    exact InStream.extractHex_le hplain' (Nat.zero_le _)
  obtain ⟨-, last, hsecond⟩ := InStream.next_of_extractHex hplain' hB.1 (hfits _ hB)
    hestB.symm
  exact ⟨rest, last, hfirst, hsecond⟩

/-- A percentage is reported just for a text that begins with two numerals from one to
eleven, and it is the one the greater of them leaves. -/
theorem life_left_iff (hnode : nodes.lifeTime = some text) (hplain : '-' ∉ text.toList)
    (percent : UInt8) :
    ((nodes.shown minus).findPredictedMediaLifeLeftPercent = percent ∧ percent ≠ 255) ↔
      ∃ estA estB, ShowsEstimates text estA estB ∧ InRange estA ∧ InRange estB ∧
        percent.toNat = 10 * (11 - max estA estB) := by
  constructor
  · intro h
    obtain ⟨rfl, hknown⟩ := h
    obtain ⟨hA, hB⟩ := SysfsDevice.inRange_of_known hknown
    exact ⟨_, _, shows_of_shown hnode hplain hA hB, hA, hB, SysfsDevice.lifeLeft_known hA hB⟩
  · intro h
    obtain ⟨estA, estB, hshows, hA, hB, hpercent⟩ := h
    obtain ⟨hestA, hestB⟩ := @shown_estimates minus nodes text estA estB hnode hshows
      (Nat.le_trans hA.2 (by decide)) (Nat.le_trans hB.2 (by decide))
    have hnatA : (nodes.shown minus).estA.toNat = estA := by rw [hestA, hA.toNat_ofNat]
    have hnatB : (nodes.shown minus).estB.toNat = estB := by rw [hestB, hB.toNat_ofNat]
    have hknown := SysfsDevice.lifeLeft_known (hnatA ▸ hA) (hnatB ▸ hB)
    rw [hnatA, hnatB, ← hpercent] at hknown
    refine ⟨UInt8.toNat_inj.mp hknown, ?_⟩
    rintro rfl
    have hmost : (255 : UInt8).toNat = 255 := rfl
    omega

theorem life_left_iff_worn :
    ((SysfsNodes.shown (fun _ => (65535, false)) ⟨some "0x07 0x04", none, none⟩)
        |>.findPredictedMediaLifeLeftPercent) = 40 ∧ (40 : UInt8) ≠ 255 ↔
      ∃ estA estB, ShowsEstimates "0x07 0x04" estA estB ∧ InRange estA ∧ InRange estB ∧
        (40 : UInt8).toNat = 10 * (11 - max estA estB) :=
  life_left_iff rfl (by decide) 40

end LifeLeft

/-! ## What is printed -/

/-- At least two digits, as in `0x%02x`. -/
def printedEstimate (est : UInt16) : List Char :=
  '0' :: 'x' :: ((if est < 16 then ['0'] else []) ++ Nat.toDigits 16 est.toNat)

/-- The nodes of a device, each closed by `tail`. -/
def SysfsDevice.printed (tail : List Char) (device : SysfsDevice) : SysfsNodes where
  lifeTime := some (.ofList
    (printedEstimate device.estA ++ ' ' :: (printedEstimate device.estB ++ tail)))
  name := some (.ofList (device.name.toList ++ tail))
  serial := some (.ofList (device.serial.toList ++ tail))

def Spaceless (word : List Char) : Prop := ∀ c ∈ word, isSpace c = false

theorem spaceless_of_all {word : List Char} (h : word.all (fun c => !isSpace c) = true) :
    Spaceless word := by
  intro c hc
  simpa using List.all_eq_true.mp h c hc

section ReadBack
variable {tail : List Char}

theorem stops_space (htail : ∀ c ∈ tail, isSpace c = true) : Stops isHex tail := by
  intro c hc
  apply Bool.eq_false_iff.mpr
  intro hhex
  have hspace := htail c (List.mem_of_head? hc)
  rw [hex_not_space hhex] at hspace
  cases hspace

theorem printedEstimate_numeral (est : UInt16) {rest : List Char} (h : Stops isHex rest) :
    Unsigned est.toNat (printedEstimate est ++ rest) rest := by
  have hvalue := hexNumber_toDigits est.toNat
  have hdigits : ∀ c ∈ Nat.toDigits 16 est.toNat, isHex c = true :=
    fun c hc => isHex_of_mem_toDigits hc
  unfold printedEstimate
  split_ifs with hsmall
  · refine .prefixed 'x' ('0' :: Nat.toDigits 16 est.toNat) rest (.inl rfl) (by simp) ?_ hvalue h
    exact List.forall_mem_cons.mpr ⟨rfl, hdigits⟩
  · exact .prefixed 'x' (Nat.toDigits 16 est.toNat) rest (.inl rfl) Nat.toDigits_ne_nil hdigits
      hvalue h

theorem printed_shows (htail : ∀ c ∈ tail, isSpace c = true) (device : SysfsDevice) :
    ∃ text, (device.printed tail).lifeTime = some text ∧
      ShowsEstimates text device.estA.toNat device.estB.toNat := by
  have hspace : Stops isHex (' ' :: (printedEstimate device.estB ++ tail)) := by
    intro c hc
    obtain rfl := Option.some.inj hc
    rfl
  refine ⟨_, rfl, ' ' :: (printedEstimate device.estB ++ tail), tail, ?_, ?_⟩
  · rw [String.toList_ofList]
    apply Next.bare []
    · intro c hc
      cases hc
    · exact printedEstimate_numeral device.estA hspace
  · apply Next.bare [' ']
    · intro c hc
      obtain rfl := List.mem_singleton.mp hc
      rfl
    · exact printedEstimate_numeral device.estB (stops_space htail)

theorem readWord_printed (htail : ∀ c ∈ tail, isSpace c = true) {word : String}
    (hword : Spaceless word.toList) : readWord (some (.ofList (word.toList ++ tail))) = word := by
  unfold readWord
  rw [InStream.ofFile_ofList]
  cases hchars : word.toList with
  | nil =>
    rw [InStream.extractWord_blank htail]
    exact String.toList_inj.mp hchars.symm
  | cons c chars =>
    rw [← hchars, @InStream.extractWord_run ⟨word.toList ++ tail, true⟩ tail [] word.toList rfl rfl]
    · exact String.ofList_toList
    · intro c hc
      cases hc
    · exact hword
    · rw [hchars]
      exact List.cons_ne_nil c chars
    · intro c hc
      exact htail c (List.mem_of_head? hc)

/-- A device is read back from what it prints, whatever white space closes a node. -/
theorem sysfs_read_back (minus : Nat → Nat × Bool) (htail : ∀ c ∈ tail, isSpace c = true)
    {device : SysfsDevice} (hname : Spaceless device.name.toList)
    (hserial : Spaceless device.serial.toList) : (device.printed tail).shown minus = device := by
  obtain ⟨text, hnode, hshows⟩ := printed_shows htail device
  obtain ⟨hestA, hestB⟩ := @shown_estimates minus _ text _ _ hnode hshows
    (Nat.le_of_lt_succ device.estA.toNat_lt) (Nat.le_of_lt_succ device.estB.toNat_lt)
  have hname' : ((device.printed tail).shown minus).name = device.name :=
    readWord_printed htail hname
  have hserial' : ((device.printed tail).shown minus).serial = device.serial :=
    readWord_printed htail hserial
  rw [UInt16.ofNat_toNat] at hestA hestB
  generalize (device.printed tail).shown minus = shown at *
  obtain ⟨estA, estB, name, serial⟩ := shown
  subst hestA hestB hname' hserial'
  rfl

theorem sysfs_read_back_emmc :
    (SysfsDevice.printed ['\n'] ⟨7, 4, "DG4016", "0x12345678"⟩).shown
      (fun _ => (65535, false)) = ⟨7, 4, "DG4016", "0x12345678"⟩ := by
  apply sysfs_read_back
  · intro c hc
    obtain rfl := List.mem_singleton.mp hc
    rfl
  · exact spaceless_of_all rfl
  · exact spaceless_of_all rfl

end ReadBack

end Estoraged

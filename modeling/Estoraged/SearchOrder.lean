import Estoraged.FindDevice

/-!
# The order of the search

A directory may be listed in any order, and its other entries may be anything. The
device is found all the same as long as each entry ahead of it can be checked for a
`type` file.
-/

namespace Estoraged
set_option autoImplicit false

def DirEntry.qualifies (dirEntry : DirEntry) : Bool :=
  DirItem.qualifies (.entry dirEntry)

def qualifying (entries : List DirEntry) : List DirEntry := entries.filter DirEntry.qualifies

/-- Two listings of one directory; the entries that do not qualify may differ in all but
their names. -/
structure Relisted (entries entries' : List DirEntry) : Prop where
  names : (entries'.map DirEntry.name).Perm (entries.map DirEntry.name)
  devices : (qualifying entries').Perm (qualifying entries)

/-- The existence check succeeds for the entries ahead of the first that qualifies. -/
def Undisturbed (entries : List DirEntry) : Prop :=
  ∀ dirEntry ∈ entries.takeWhile (!DirEntry.qualifies ·), dirEntry.typeExists.isOk = true

section Search
variable {dirEntry : DirEntry} {rest : List DirEntry}

theorem DirEntry.typeExists_of_qualifies (h : dirEntry.qualifies = true) :
    dirEntry.typeExists = .ok true := by
  rcases dirEntry with ⟨name, typeExists, devType⟩
  cases typeExists with
  | error e => cases h
  | ok present =>
    cases present with
    | false => cases h
    | true => rfl

theorem undisturbed_cons_qualifying (h : dirEntry.qualifies = true) :
    Undisturbed (dirEntry :: rest) := by
  intro entry hentry
  rw [List.takeWhile_cons_of_neg (by simp [h])] at hentry
  cases hentry

theorem undisturbed_cons_other (h : dirEntry.qualifies = false) :
    Undisturbed (dirEntry :: rest) ↔ dirEntry.typeExists.isOk = true ∧ Undisturbed rest := by
  unfold Undisturbed
  rw [List.takeWhile_cons_of_pos (by simp [h]), List.forall_mem_cons]

theorem qualifying_cons_other (h : dirEntry.qualifies = false) :
    qualifying (dirEntry :: rest) = qualifying rest :=
  List.filter_cons_of_neg (by simp [h])

theorem searchEnd_cons_qualifying (h : dirEntry.qualifies = true) :
    searchEnd ((dirEntry :: rest).map .entry) = some (.entry dirEntry) := by
  rw [List.map_cons, searchEnd_cons, if_pos]
  exact (Bool.or_eq_true _ _).mpr (.inr h)

theorem searchEnd_cons_other (h : dirEntry.qualifies = false)
    (hexists : dirEntry.typeExists.isOk = true) :
    searchEnd ((dirEntry :: rest).map .entry) = searchEnd (rest.map .entry) := by
  rw [List.map_cons, searchEnd_cons, if_neg]
  have hfails : DirItem.fails (.entry dirEntry) = false := by
    rw [DirItem.fails, hexists]
    rfl
  rw [hfails, Bool.false_or]
  exact Bool.eq_false_iff.mp h

theorem searchEnd_cons_failing (hexists : dirEntry.typeExists.isOk = false) :
    searchEnd ((dirEntry :: rest).map .entry) = some (.entry dirEntry) := by
  rw [List.map_cons, searchEnd_cons, if_pos]
  have hfails : DirItem.fails (.entry dirEntry) = true := by
    rw [DirItem.fails, hexists]
    rfl
  exact (Bool.or_eq_true _ _).mpr (.inl hfails)

end Search

section Listings
variable [EstoragedConf]

def found (data : StorageData) (searchDir : String) (entries : List DirEntry) :
    Except Exception (Option DeviceInfo) :=
  findDevice data searchDir (entries.map .entry)

/-- What the search is for: the information of the entry that qualifies. -/
def wanted (data : StorageData) (searchDir : String) (entries : List DirEntry) :
    Option DeviceInfo :=
  (qualifying entries).head?.map fun dirEntry => deviceInfo data searchDir dirEntry.name

structure FoundInBoth (data : StorageData) (searchDir : String)
    (entries entries' : List DirEntry) : Prop where
  first : found data searchDir entries = .ok (wanted data searchDir entries)
  second : found data searchDir entries' = .ok (wanted data searchDir entries')
  same : found data searchDir entries = found data searchDir entries'

theorem searchOutcome_eq_wanted_iff (data : StorageData) (searchDir : String)
    (entries : List DirEntry) :
    searchOutcome data searchDir (searchEnd (entries.map .entry)) =
      .ok (wanted data searchDir entries) ↔ Undisturbed entries := by
  induction entries with
  | nil => exact iff_of_true rfl (by simp [Undisturbed])
  | cons dirEntry rest ih =>
    cases hqualifies : dirEntry.qualifies with
    | true =>
      refine iff_of_true ?_ (undisturbed_cons_qualifying hqualifies)
      have hhead : qualifying (dirEntry :: rest) = dirEntry :: qualifying rest :=
        List.filter_cons_of_pos hqualifies
      rw [searchEnd_cons_qualifying hqualifies, wanted, hhead]
      simp only [searchOutcome, DirEntry.typeExists_of_qualifies hqualifies]
      rfl
    | false =>
      rw [undisturbed_cons_other hqualifies, wanted, qualifying_cons_other hqualifies]
      cases hexists : dirEntry.typeExists.isOk with
      | true =>
        rw [searchEnd_cons_other hqualifies hexists, and_iff_right rfl]
        exact ih
      | false =>
        rw [searchEnd_cons_failing hexists]
        refine iff_of_false ?_ (by simp)
        cases htype : dirEntry.typeExists with
        | ok present => rw [htype] at hexists; cases hexists
        | error e =>
          simp only [searchOutcome, htype]
          intro h
          cases h

theorem found_eq_wanted_iff {data : StorageData} (hemmc : isEmmc data) (searchDir : String)
    (entries : List DirEntry) :
    found data searchDir entries = .ok (wanted data searchDir entries) ↔ Undisturbed entries := by
  rw [found, findDevice_of_isEmmc hemmc, searchOutcome_eq_wanted_iff]

theorem Relisted.wanted_eq {entries entries' : List DirEntry} (h : Relisted entries entries')
    (hone : (qualifying entries).length ≤ 1) (data : StorageData) (searchDir : String) :
    wanted data searchDir entries' = wanted data searchDir entries := by
  have hsame : qualifying entries' = qualifying entries := by
    have hperm := h.devices
    rcases hlist : qualifying entries with _ | ⟨dirEntry, rest⟩
    · rw [hlist] at hperm
      exact hperm.eq_nil
    · rw [hlist] at hone hperm
      obtain rfl : rest = [] := List.length_eq_zero_iff.mp (by simpa using hone)
      exact List.perm_singleton.mp hperm
  rw [wanted, hsame, wanted]

/-- The device is found in either order, and the same, just when neither listing has an
entry ahead of it that cannot be checked. -/
theorem foundInBoth_iff {data : StorageData} (hemmc : isEmmc data) (searchDir : String)
    {entries entries' : List DirEntry} (hone : (qualifying entries).length ≤ 1)
    (h : Relisted entries entries') : FoundInBoth data searchDir entries entries' ↔
      Undisturbed entries ∧ Undisturbed entries' := by
  rw [← found_eq_wanted_iff hemmc searchDir entries, ← found_eq_wanted_iff hemmc searchDir entries']
  constructor
  · intro hboth
    exact ⟨hboth.first, hboth.second⟩
  · intro hboth
    refine ⟨hboth.1, hboth.2, ?_⟩
    rw [hboth.1, hboth.2, h.wanted_eq hone]

end Listings

def emmcData : StorageData := FlatMap.empty.assign "Type" (.string "EmmcDevice")

theorem isEmmc_emmcData : isEmmc emmcData := rfl

def emmcEntry : DirEntry := ⟨"mmcblk0", .ok true, some "MMC"⟩

def diskEntry (typeExists : Except FilesystemError Bool) : DirEntry := ⟨"sda", typeExists, none⟩

theorem foundInBoth_iff_swapped :
    FoundInBoth emmcData "./" [diskEntry (.ok false), emmcEntry]
      [emmcEntry, diskEntry (.error ⟨"cannot get status"⟩)] ↔
      Undisturbed [diskEntry (.ok false), emmcEntry] ∧
        Undisturbed [emmcEntry, diskEntry (.error ⟨"cannot get status"⟩)] :=
  foundInBoth_iff isEmmc_emmcData "./" (Nat.le_refl 1) ⟨.swap _ _ _, .refl _⟩

/-- The entry listed first cannot be checked. -/
theorem search_disturbed : ¬ ∀ (data : StorageData), isEmmc data → ∀ (searchDir : String)
    (entries entries' : List DirEntry), (qualifying entries).length ≤ 1 →
    Relisted entries entries' → FoundInBoth data searchDir entries entries' := by
  intro halways
  have h := halways emmcData isEmmc_emmcData "/sys/block" [diskEntry (.ok false), emmcEntry]
    [diskEntry (.error ⟨"cannot get status"⟩), emmcEntry] (Nat.le_refl 1) ⟨.refl _, .refl _⟩
  cases h.second

end Estoraged

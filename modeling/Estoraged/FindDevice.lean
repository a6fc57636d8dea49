import Estoraged.FlatMap
import Estoraged.Interfaces
import Mathlib.Data.String.Basic

/-!
# Finding the device

`util::findDevice` with what it reads: the properties of the config object and the
entries of the search directory. Only the reading of a `type` file is guarded; the
iteration itself and the existence check may throw.
-/

namespace Estoraged
set_option autoImplicit false

/-- `BasicVariantType`; a floating point number is kept as its bits. -/
inductive BasicVariantType where
  | strings (values : List String)
  | string (value : String)
  | int64 (value : Int64)
  | uint64 (value : UInt64)
  | double (bits : UInt64)
  | int32 (value : Int32)
  | uint32 (value : UInt32)
  | int16 (value : Int16)
  | uint16 (value : UInt16)
  | uint8 (value : UInt8)
  | bool (value : Bool)
deriving DecidableEq

def BasicVariantType.string? : BasicVariantType → Option String
  | .string value => some value
  | _ => none

def BasicVariantType.uint64? : BasicVariantType → Option UInt64
  | .uint64 value => some value
  | _ => none

abbrev StorageData := FlatMap String BasicVariantType

structure DeviceInfo where
  deviceFile : String
  sysfsDir : String
  luksName : String
  locationCode : String
  eraseMaxGeometry : UInt64
  eraseMinGeometry : UInt64
  driveType : String
  driveProtocol : String
deriving DecidableEq, Repr

/-- What the build generates into `estoraged_conf.hpp` for the geometry check. -/
class EstoragedConf where
  ERASE_MAX_GEOMETRY : UInt64
  ERASE_MIN_GEOMETRY : UInt64

export EstoragedConf (ERASE_MAX_GEOMETRY ERASE_MIN_GEOMETRY)

/-- The defaults of the build options. -/
instance mesonOptions : EstoragedConf where
  ERASE_MAX_GEOMETRY := 5368709120
  ERASE_MIN_GEOMETRY := 10

/-- An entry of the search directory and what is found at its `device/type`. -/
structure DirEntry where
  name : String
  /-- `std::filesystem::exists` of the file. -/
  typeExists : Except FilesystemError Bool
  /-- The first token of the file, empty if there is none; `none` if reading throws. -/
  devType : Option String
deriving DecidableEq

/-- One step of the directory iterator: the next entry, or an exception. -/
inductive DirItem where
  | entry (dirEntry : DirEntry)
  | error (e : FilesystemError)
deriving DecidableEq

def DirEntry.isMmc (dirEntry : DirEntry) : Bool :=
  dirEntry.devType == some "MMC" || dirEntry.devType == some "SD"

/-- `operator/` of `std::filesystem::path` with a file name on the right: a separator is put
in between only where the left side ends in a file name itself. -/
def pathAppend (dir name : String) : String :=
  match dir.toList.getLast? with
  | none | some '/' => dir ++ name
  | some _ => dir ++ "/" ++ name

theorem pathAppend_dev (name : String) : pathAppend "/dev" name = "/dev/" ++ name := rfl

example : pathAppend (pathAppend "./" "mmcblk0") "device" = "./mmcblk0/device" := rfl

/-- The search loop, with what the properties have settled so far. -/
def searchDevice (searchDir locationCode : String) (eraseMaxGeometry eraseMinGeometry : UInt64)
    (driveType driveProtocol : String) : List DirItem → Except Exception (Option DeviceInfo)
  | [] => .ok none
  | .error e :: _ => .error (.filesystemError e.detail)
  | .entry dirEntry :: rest =>
    match dirEntry.typeExists with
    | .error e => .error (.filesystemError e.detail)
    | .ok false =>
      searchDevice searchDir locationCode eraseMaxGeometry eraseMinGeometry driveType
        driveProtocol rest
    | .ok true =>
      if dirEntry.isMmc then
        .ok (some {
          deviceFile := pathAppend "/dev" dirEntry.name
          sysfsDir := pathAppend (pathAppend searchDir dirEntry.name) "device"
          luksName := "luks-" ++ dirEntry.name
          locationCode, eraseMaxGeometry, eraseMinGeometry, driveType, driveProtocol })
      else
        searchDevice searchDir locationCode eraseMaxGeometry eraseMinGeometry driveType
          driveProtocol rest

def property? {α : Type} (data : StorageData) (get : BasicVariantType → Option α)
    (name : String) : Option α :=
  (data.find? name).bind get

variable [EstoragedConf]

/-- `listing` is what iterating over `searchDir` yields. -/
def findDevice (data : StorageData) (searchDir : String) (listing : List DirItem) :
    Except Exception (Option DeviceInfo) :=
  match data.find? "Type" with
  | none => .ok none
  | some typeVariant =>
    let locationCode := (property? data (·.string?) "LocationCode").getD ""
    let eraseMaxGeometry :=
      (property? data (·.uint64?) "EraseMaxGeometry").getD ERASE_MAX_GEOMETRY
    let eraseMinGeometry :=
      (property? data (·.uint64?) "EraseMinGeometry").getD ERASE_MIN_GEOMETRY
    match typeVariant.string? with
    | none => .error .badVariantAccess
    | some deviceType =>
      if deviceType = "EmmcDevice" then
        searchDevice searchDir locationCode eraseMaxGeometry eraseMinGeometry "SSD" "eMMC" listing
      else .ok none

/-! ## Where the search ends -/

def DirItem.fails : DirItem → Bool
  | .error _ => true
  | .entry dirEntry => !dirEntry.typeExists.isOk

def DirItem.qualifies : DirItem → Bool
  | .error _ => false
  | .entry dirEntry => (dirEntry.typeExists matches .ok true) && dirEntry.isMmc

/-- The item the search ends at, whatever the properties are. -/
def searchEnd (listing : List DirItem) : Option DirItem :=
  listing.find? fun item => item.fails || item.qualifies

def deviceInfo (data : StorageData) (searchDir name : String) : DeviceInfo where
  deviceFile := pathAppend "/dev" name
  sysfsDir := pathAppend (pathAppend searchDir name) "device"
  luksName := "luks-" ++ name
  locationCode := (property? data (·.string?) "LocationCode").getD ""
  eraseMaxGeometry := (property? data (·.uint64?) "EraseMaxGeometry").getD ERASE_MAX_GEOMETRY
  eraseMinGeometry := (property? data (·.uint64?) "EraseMinGeometry").getD ERASE_MIN_GEOMETRY
  driveType := "SSD"
  driveProtocol := "eMMC"

omit [EstoragedConf] in
theorem searchEnd_cons (item : DirItem) (rest : List DirItem) :
    searchEnd (item :: rest) =
      if item.fails || item.qualifies then some item else searchEnd rest := by
  rw [searchEnd, List.find?_cons]
  cases item.fails || item.qualifies <;> rfl

def searchOutcome (data : StorageData) (searchDir : String) :
    Option DirItem → Except Exception (Option DeviceInfo)
  | none => .ok none
  | some (.error e) => .error (.filesystemError e.detail)
  | some (.entry dirEntry) =>
    match dirEntry.typeExists with
    | .error e => .error (.filesystemError e.detail)
    | .ok _ => .ok (some (deviceInfo data searchDir dirEntry.name))

theorem searchDevice_eq (data : StorageData) (searchDir : String) (listing : List DirItem) :
    let info := deviceInfo data searchDir ""
    searchDevice searchDir info.locationCode info.eraseMaxGeometry info.eraseMinGeometry "SSD"
      "eMMC" listing = searchOutcome data searchDir (searchEnd listing) := by
  intro info
  induction listing with
  | nil => rfl
  | cons item rest ih =>
    rw [searchEnd_cons]
    cases item with
    | error e => rfl
    | entry dirEntry =>
      rcases dirEntry with ⟨name, typeExists, devType⟩
      cases typeExists with
      | error e => rfl
      | ok present =>
        cases present with
        | false => exact ih
        | true =>
          simp only [searchDevice, DirItem.fails, DirItem.qualifies, Except.isOk, Except.toBool,
            Bool.not_true, Bool.false_or, Bool.true_and]
          split
          · rfl
          · exact ih

theorem findDevice_eq (data : StorageData) (searchDir : String) (listing : List DirItem) :
    findDevice data searchDir listing =
      match data.find? "Type" with
      | none => .ok none
      | some typeVariant =>
        match typeVariant.string? with
        | none => .error .badVariantAccess
        | some deviceType =>
          if deviceType = "EmmcDevice" then searchOutcome data searchDir (searchEnd listing)
          else .ok none := by
  rw [← searchDevice_eq]
  rfl

def isEmmc (data : StorageData) : Prop := property? data (·.string?) "Type" = some "EmmcDevice"

omit [EstoragedConf] in
theorem isEmmc_iff {data : StorageData} {typeVariant : BasicVariantType} {deviceType : String}
    (htype : data.find? "Type" = some typeVariant)
    (hstring : typeVariant.string? = some deviceType) :
    isEmmc data ↔ deviceType = "EmmcDevice" := by
  simp [isEmmc, property?, htype, hstring]

theorem findDevice_of_isEmmc {data : StorageData} {searchDir : String} {listing : List DirItem}
    (hemmc : isEmmc data) :
    findDevice data searchDir listing = searchOutcome data searchDir (searchEnd listing) := by
  obtain ⟨typeVariant, htype, hstring⟩ := Option.bind_eq_some_iff.mp hemmc
  rw [findDevice_eq, htype]
  simp only [hstring, if_pos]

/-- Anything else is turned down before the search, or throws if its type is not a string. -/
theorem findDevice_of_not_isEmmc {data : StorageData} {searchDir : String}
    {listing : List DirItem} (hemmc : ¬isEmmc data) :
    findDevice data searchDir listing =
      if ∃ v, data.find? "Type" = some v ∧ v.string? = none then .error .badVariantAccess
      else .ok none := by
  rw [findDevice_eq]
  cases htype : data.find? "Type" with
  | none => simp
  | some typeVariant =>
    cases hstring : typeVariant.string? with
    | none => simp [hstring]
    | some deviceType =>
      have hother := mt (isEmmc_iff htype hstring).mpr hemmc
      simp [hstring, hother]

theorem searchOutcome_eq_some_iff {data : StorageData} {searchDir : String}
    {item? : Option DirItem} {info : DeviceInfo} :
    searchOutcome data searchDir item? = .ok (some info) ↔
      ∃ dirEntry, item? = some (.entry dirEntry) ∧ dirEntry.typeExists.isOk = true ∧
        info = deviceInfo data searchDir dirEntry.name := by
  rcases item? with _ | (dirEntry | e)
  · simp [searchOutcome]
  · cases hexists : dirEntry.typeExists with
    | error e => simp [searchOutcome, hexists, Except.isOk, Except.toBool]
    | ok present =>
      constructor
      · intro h
        simp only [searchOutcome, hexists, Except.ok.injEq, Option.some.injEq] at h
        exact ⟨dirEntry, rfl, by rw [hexists]; rfl, h.symm⟩
      · intro h
        rcases h with ⟨_, ⟨⟩, -, rfl⟩
        simp only [searchOutcome, hexists]
  · simp [searchOutcome]

theorem searchOutcome_throws_iff {data : StorageData} {searchDir : String}
    {item? : Option DirItem} : (∃ e, searchOutcome data searchDir item? = .error e) ↔
      ∃ item, item? = some item ∧ item.fails = true := by
  rcases item? with _ | (dirEntry | e)
  · simp [searchOutcome]
  · cases hexists : dirEntry.typeExists <;>
      simp [searchOutcome, hexists, DirItem.fails, Except.isOk, Except.toBool]
  · simp [searchOutcome, DirItem.fails]

theorem findDevice_eq_some_iff {data : StorageData} {searchDir : String} {listing : List DirItem}
    {info : DeviceInfo} : findDevice data searchDir listing = .ok (some info) ↔
      isEmmc data ∧ ∃ dirEntry, searchEnd listing = some (.entry dirEntry) ∧
        dirEntry.typeExists.isOk = true ∧ info = deviceInfo data searchDir dirEntry.name := by
  by_cases hemmc : isEmmc data
  · rw [findDevice_of_isEmmc hemmc, searchOutcome_eq_some_iff]
    exact (and_iff_right hemmc).symm
  · rw [findDevice_of_not_isEmmc hemmc]
    refine iff_of_false ?_ (fun h => hemmc h.1)
    split_ifs <;> rintro ⟨⟩

theorem findDevice_throws_iff {data : StorageData} {searchDir : String}
    {listing : List DirItem} : (∃ e, findDevice data searchDir listing = .error e) ↔
      (∃ v, data.find? "Type" = some v ∧ v.string? = none) ∨
      (isEmmc data ∧ ∃ item, searchEnd listing = some item ∧ item.fails = true) := by
  by_cases hemmc : isEmmc data
  · have hstring : ¬∃ v, data.find? "Type" = some v ∧ v.string? = none := by
      intro h
      rcases h with ⟨v, htype, hnone⟩
      simp [isEmmc, property?, htype, hnone] at hemmc
    rw [findDevice_of_isEmmc hemmc, searchOutcome_throws_iff, or_iff_right hstring]
    exact (and_iff_right hemmc).symm
  · rw [findDevice_of_not_isEmmc hemmc]
    split_ifs with hstring
    · simp [hstring]
    · simp [hstring, hemmc]

end Estoraged

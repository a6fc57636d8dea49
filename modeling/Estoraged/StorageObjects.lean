import Estoraged.FindDevice

/-!
# The storage objects

The callback of `createStorageObjects` in `main.cpp`, with the helpers it calls to
describe the device. It runs inside a destructor that must not throw, so an exception
ends the process.
-/

namespace Estoraged
open Interaction
set_option autoImplicit false

/-- What a device shows below its `sysfs` directory: the first two numbers of `life_time`
and the first words of `name` and `serial`, zero and empty where nothing is read. -/
structure SysfsDevice where
  estA : UInt16
  estB : UInt16
  name : String
  serial : String
deriving DecidableEq

def SysfsDevice.findPredictedMediaLifeLeftPercent (device : SysfsDevice) : UInt8 :=
  if device.estA = 0 || device.estA > 11 || device.estB = 0 || device.estB > 11 then 255
  else
    let maxLifeUsed :=
      if device.estA > device.estB then device.estA.toUInt8 else device.estB.toUInt8
    (11 - maxLifeUsed) * 10

def wordOrUnknown (word : String) : String := if word = "" then "unknown" else word

def SysfsDevice.getPartNumber (device : SysfsDevice) : String := wordOrUnknown device.name

def SysfsDevice.getSerialNumber (device : SysfsDevice) : String := wordOrUnknown device.serial

/-- `std::filesystem::path::filename` -/
def filename (path : String) : String :=
  String.ofList (path.toList.reverse.takeWhile (· ≠ '/')).reverse

structure EStoraged where
  fd : Bool
  configPath : String
  devPath : String
  containerName : String
  size : UInt64
  lifeTime : UInt8
  partNumber : String
  serialNumber : String
  locationCode : String
  eraseMaxGeometry : UInt64
  eraseMinGeometry : UInt64
  driveType : String
  driveProtocol : String
deriving DecidableEq

def EStoraged.objectPath (storage : EStoraged) : String :=
  "/xyz/openbmc_project/inventory/storage/" ++ filename storage.devPath

/-- What the host answers during one callback. -/
structure Host where
  listing : List DirItem
  /-- `BLKGETSIZE64`; `none` if the device cannot be opened or the request fails. -/
  blockSize : String → Option UInt64
  /-- Whether the descriptor of a device that could not be sized still has a number. -/
  fdGet : String → Bool
  opensReadWrite : String → Bool
  sysfs : String → SysfsDevice
  /-- What the constructor of the volume object throws. -/
  construct : EStoraged → Except Exception Unit

def Host.findSizeOfBlockDevice (host : Host) (devPath : String) : Except Exception UInt64 :=
  match host.blockSize devPath with
  | some bytes => .ok bytes
  -- The catch block asks for the number first, also where the device was never opened.
  | none => .error (if host.fdGet devPath then .internalFailure else .badOptionalAccess)

/-- The objects by the path of their config object; `none` is the placeholder. -/
abbrev StorageObjects := FlatMap String (Option EStoraged)

abbrev ManagedStorageType := FlatMap String StorageData

def blockDevDir : String := "/sys/block"

def newObject (host : Host) (path : String) (info : DeviceInfo) (size : UInt64) : EStoraged where
  fd := host.opensReadWrite info.deviceFile
  configPath := path
  devPath := info.deviceFile
  containerName := info.luksName
  size := size
  lifeTime := (host.sysfs info.sysfsDir).findPredictedMediaLifeLeftPercent
  partNumber := (host.sysfs info.sysfsDir).getPartNumber
  serialNumber := (host.sysfs info.sysfsDir).getSerialNumber
  locationCode := info.locationCode
  eraseMaxGeometry := info.eraseMaxGeometry
  eraseMinGeometry := info.eraseMinGeometry
  driveType := info.driveType
  driveProtocol := info.driveProtocol

/-- The constructors called, and how it ended. -/
structure Outcome where
  constructed : List EStoraged
  result : Except Exception StorageObjects

section Callback
variable [EstoragedConf]

def createStorageObject (host : Host) (storageObjects : StorageObjects)
    (storage : String × StorageData) : Outcome :=
  let (path, data) := storage
  if (storageObjects.find? path).isSome then ⟨[], .ok storageObjects⟩
  else
    match findDevice data blockDevDir host.listing with
    | .error e => ⟨[], .error e⟩
    | .ok none => ⟨[], .ok (storageObjects.assign path none)⟩
    | .ok (some info) =>
      match host.findSizeOfBlockDevice info.deviceFile with
      | .error e => ⟨[], .error e⟩
      | .ok size =>
        let object := newObject host path info size
        ⟨[object], (host.construct object).map fun _ => storageObjects.assign path (some object)⟩

/-- The loop, which an exception leaves. -/
def createEach (host : Host) : StorageObjects → List (String × StorageData) → Outcome
  | storageObjects, [] => ⟨[], .ok storageObjects⟩
  | storageObjects, storage :: rest =>
    let first := createStorageObject host storageObjects storage
    match first.result with
    | .error e => ⟨first.constructed, .error e⟩
    | .ok storageObjects =>
      let later := createEach host storageObjects rest
      ⟨first.constructed ++ later.constructed, later.result⟩

/-- The callback. -/
def createStorageObjects (host : Host) (storageObjects : StorageObjects)
    (storageConfigurations : ManagedStorageType) : Outcome :=
  if storageConfigurations.size > 1 then ⟨[], .ok storageObjects⟩
  else createEach host storageObjects storageConfigurations.entries

theorem createStorageObjects_single (host : Host) (objs : StorageObjects)
    {reply : ManagedStorageType} {storage : String × StorageData}
    (hreply : reply.entries = [storage]) :
    createStorageObjects host objs reply = createStorageObject host objs storage := by
  simp only [createStorageObjects, FlatMap.size, hreply, createEach]
  cases hresult : (createStorageObject host objs storage).result with
  | error e => simp [← hresult]
  | ok objs' => simp [← hresult]

theorem createStorageObjects_other (host : Host) (objs : StorageObjects)
    {reply : ManagedStorageType} (hreply : ∀ storage, reply.entries ≠ [storage]) :
    createStorageObjects host objs reply = ⟨[], .ok objs⟩ := by
  rw [createStorageObjects, FlatMap.size]
  rcases hentries : reply.entries with _ | ⟨storage, _ | ⟨_, _⟩⟩
  · rfl
  · exact absurd hentries (hreply storage)
  · exact if_pos (by simp)

/-! ## One configuration -/

section OneConfig
variable {host : Host} {objs : StorageObjects} {path : String} {data : StorageData}

def Located (host : Host) (data : StorageData) (info : DeviceInfo) (size : UInt64) : Prop :=
  findDevice data blockDevDir host.listing = .ok (some info) ∧
    host.blockSize info.deviceFile = some size

theorem Located.unique {info info' : DeviceInfo} {size size' : UInt64}
    (h : Located host data info size) (h' : Located host data info' size') :
    info = info' ∧ size = size' := by
  rcases h with ⟨hfound, hsize⟩
  rcases h' with ⟨hfound', hsize'⟩
  obtain rfl : info = info' := by simpa [hfound] using hfound'
  exact ⟨rfl, by simpa [hsize] using hsize'⟩

/-- All that one pass may come to. Where no device is found and sized it sets the
placeholder, unless an exception escapes first. -/
inductive Pass (host : Host) (objs : StorageObjects) (path : String) (data : StorageData) :
    Outcome → Prop where
  | known {entry : Option EStoraged} :
      objs.find? path = some entry → Pass host objs path data ⟨[], .ok objs⟩
  | live {info : DeviceInfo} {size : UInt64} :
      objs.find? path = none → Located host data info size →
      Pass host objs path data ⟨[newObject host path info size],
        .ok (objs.assign path (some (newObject host path info size)))⟩
  | refused {info : DeviceInfo} {size : UInt64} {e : Exception} :
      objs.find? path = none → Located host data info size →
      Pass host objs path data ⟨[newObject host path info size], .error e⟩
  | placeholder :
      objs.find? path = none → (∀ info size, ¬Located host data info size) →
      Pass host objs path data ⟨[], .ok (objs.assign path none)⟩
  | escaped {e : Exception} :
      objs.find? path = none → (∀ info size, ¬Located host data info size) →
      Pass host objs path data ⟨[], .error e⟩

theorem createStorageObject_known {entry : Option EStoraged}
    (hpath : objs.find? path = some entry) :
    createStorageObject host objs (path, data) = ⟨[], .ok objs⟩ :=
  if_pos (by rw [hpath]; rfl)

theorem createStorageObject_pass :
    Pass host objs path data (createStorageObject host objs (path, data)) := by
  cases hpath : objs.find? path with
  | some entry =>
    rw [createStorageObject_known hpath]
    exact .known hpath
  | none =>
    simp only [createStorageObject, hpath, Option.isSome_none, Bool.false_eq_true, if_false]
    rcases hfound : findDevice data blockDevDir host.listing with e | (_ | info)
    · exact .escaped hpath (by simp [Located, hfound])
    · exact .placeholder hpath (by simp [Located, hfound])
    · cases hsize : host.blockSize info.deviceFile with
      | none =>
        have hnone : ∀ info' size, ¬Located host data info' size := by
          intro info' size h
          rcases h with ⟨hfound', hsize'⟩
          obtain rfl : info = info' := by simpa [hfound] using hfound'
          simp [hsize] at hsize'
        simp only [Host.findSizeOfBlockDevice, hsize]
        exact .escaped hpath hnone
      | some size =>
        simp only [Host.findSizeOfBlockDevice, hsize]
        cases host.construct (newObject host path info size) with
        | error e => exact .refused hpath ⟨hfound, hsize⟩
        | ok u => exact .live hpath ⟨hfound, hsize⟩

theorem constructed_iff {object : EStoraged} :
    object ∈ (createStorageObject host objs (path, data)).constructed ↔
      objs.find? path = none ∧
        ∃ info size, Located host data info size ∧ object = newObject host path info size := by
  have hpass : Pass host objs path data (createStorageObject host objs (path, data)) :=
    createStorageObject_pass
  generalize createStorageObject host objs (path, data) = outcome at hpass
  have hother {info : DeviceInfo} {size : UInt64} (h : Located host data info size) :
      object ∈ [newObject host path info size] ↔
        ∃ info size, Located host data info size ∧ object = newObject host path info size := by
    rw [List.mem_singleton]
    refine ⟨fun hobject => ⟨info, size, h, hobject⟩, ?_⟩
    intro hlocated
    rcases hlocated with ⟨info', size', h', rfl⟩
    obtain ⟨rfl, rfl⟩ := h.unique h'
    rfl
  cases hpass with
  | known hpath => simp [hpath]
  | live hpath h => simpa [hpath] using hother h
  | refused hpath h => simpa [hpath] using hother h
  | placeholder hpath hnone => simp [hnone]
  | escaped hpath hnone => simp [hnone]

theorem live_after {objs' : StorageObjects}
    (hresult : (createStorageObject host objs (path, data)).result = .ok objs')
    {p : String} {object : EStoraged} (hlive : objs'.find? p = some (some object)) :
    objs.find? p = some (some object) ∨
      (p = path ∧ object ∈ (createStorageObject host objs (path, data)).constructed) := by
  have hpass : Pass host objs path data (createStorageObject host objs (path, data)) :=
    createStorageObject_pass
  generalize createStorageObject host objs (path, data) = outcome at hpass hresult
  cases hpass with
  | known _ =>
    obtain rfl := Except.ok.inj hresult
    exact .inl hlive
  | live _ _ =>
    obtain rfl := Except.ok.inj hresult
    rcases FlatMap.find?_assign_cases hlive with ⟨hp, hobject⟩ | hbefore
    · exact .inr ⟨hp, List.mem_singleton.mpr (Option.some.inj hobject).symm⟩
    · exact .inl hbefore
  | placeholder _ _ =>
    obtain rfl := Except.ok.inj hresult
    rcases FlatMap.find?_assign_cases hlive with ⟨-, hnone⟩ | hbefore
    · cases hnone
    · exact .inl hbefore
  | refused => cases hresult
  | escaped => cases hresult

/-! ## Which replies are survived -/

structure Settled (host : Host) (objs objs' : StorageObjects) (path : String)
    (data : StorageData) : Prop where
  known : ∀ entry, objs.find? path = some entry → objs'.find? path = some entry
  live : objs.find? path = none → ∀ info size, Located host data info size →
    objs'.find? path = some (some (newObject host path info size))
  placeholder : objs.find? path = none → (∀ info size, ¬Located host data info size) →
    objs'.find? path = some none

/-- A type is a string; and the search for an eMMC ends, if at all, at an entry that it
could read and whose device can be sized. -/
def Manageable (host : Host) (data : StorageData) : Prop :=
  ∀ typeVariant, data.find? "Type" = some typeVariant →
    ∃ deviceType, typeVariant.string? = some deviceType ∧
      (deviceType = "EmmcDevice" → ∀ item, searchEnd host.listing = some item →
        ∃ dirEntry, item = .entry dirEntry ∧ dirEntry.typeExists.isOk = true ∧
          (host.blockSize (pathAppend "/dev" dirEntry.name)).isSome = true)

/-- In terms of what is called: nothing throws on the way to the constructor. -/
theorem manageable_iff : Manageable host data ↔
    (¬∃ e, findDevice data blockDevDir host.listing = .error e) ∧
      ∀ info, findDevice data blockDevDir host.listing = .ok (some info) →
        (host.blockSize info.deviceFile).isSome = true := by
  simp only [findDevice_throws_iff, findDevice_eq_some_iff]
  constructor
  · intro h
    refine ⟨?_, ?_⟩
    · intro h
      rcases h with ⟨v, htype, hnone⟩ | ⟨hemmc, item, hitem, hfails⟩
      · obtain ⟨deviceType, hstring, -⟩ := h v htype
        simp [hnone] at hstring
      · obtain ⟨v, htype, hstring⟩ := Option.bind_eq_some_iff.mp hemmc
        obtain ⟨deviceType, hstring', hsearch⟩ := h v htype
        obtain rfl : deviceType = "EmmcDevice" := by simpa [hstring'] using hstring
        obtain ⟨dirEntry, rfl, hexists, -⟩ := hsearch rfl item hitem
        simp [DirItem.fails, hexists] at hfails
    · intro info h
      rcases h with ⟨hemmc, dirEntry, hitem, hexists, rfl⟩
      obtain ⟨v, htype, hstring⟩ := Option.bind_eq_some_iff.mp hemmc
      obtain ⟨deviceType, hstring', hsearch⟩ := h v htype
      obtain rfl : deviceType = "EmmcDevice" := by simpa [hstring'] using hstring
      obtain ⟨_, ⟨⟩, -, hsize⟩ := hsearch rfl _ hitem
      exact hsize
  · rintro ⟨hthrows, hsized⟩ v htype
    rw [not_or] at hthrows
    cases hstring : v.string? with
    | none => exact absurd ⟨v, htype, hstring⟩ hthrows.1
    | some deviceType =>
      refine ⟨deviceType, rfl, fun hdevice item hitem => ?_⟩
      have hemmc : isEmmc data := (isEmmc_iff htype hstring).mpr hdevice
      have hfine : item.fails = false :=
        Bool.eq_false_iff.mpr fun hfails => hthrows.2 ⟨hemmc, item, hitem, hfails⟩
      cases item with
      | error e => cases hfine
      | entry dirEntry =>
        have hexists : dirEntry.typeExists.isOk = true := by simpa [DirItem.fails] using hfine
        exact ⟨dirEntry, rfl, hexists, hsized _ ⟨hemmc, dirEntry, hitem, hexists, rfl⟩⟩

theorem createStorageObject_settled {objs' : StorageObjects}
    (hresult : (createStorageObject host objs (path, data)).result = .ok objs') :
    Settled host objs objs' path data := by
  have hpass : Pass host objs path data (createStorageObject host objs (path, data)) :=
    createStorageObject_pass
  generalize createStorageObject host objs (path, data) = outcome at hpass hresult
  cases hpass with
  | known hpath =>
    obtain rfl := Except.ok.inj hresult
    exact ⟨fun _ h => h, fun h => by simp [hpath] at h, fun h => by simp [hpath] at h⟩
  | live hpath hlocated =>
    obtain rfl := Except.ok.inj hresult
    refine ⟨fun _ h => by simp [hpath] at h, ?_, fun _ hnone => absurd hlocated (hnone _ _)⟩
    intro _ info size h
    obtain ⟨rfl, rfl⟩ := hlocated.unique h
    exact FlatMap.find?_assign_self ..
  | placeholder hpath hnone =>
    obtain rfl := Except.ok.inj hresult
    exact ⟨fun _ h => by simp [hpath] at h, fun _ info size h => absurd h (hnone info size),
      fun _ _ => FlatMap.find?_assign_self ..⟩
  | refused => cases hresult
  | escaped => cases hresult

theorem createStorageObject_returns_iff (hconstruct : ∀ object, host.construct object = .ok ())
    (hnew : objs.find? path = none) :
    (∃ objs', (createStorageObject host objs (path, data)).result = .ok objs') ↔
      Manageable host data := by
  rw [manageable_iff]
  simp only [createStorageObject, hnew]
  rcases hfound : findDevice data blockDevDir host.listing with e | (_ | info)
  · simp
  · simp
  · cases hsize : host.blockSize info.deviceFile with
    | none => simp [Host.findSizeOfBlockDevice, hsize]
    | some size => simp [Host.findSizeOfBlockDevice, hsize, hconstruct, Except.map]

end OneConfig

/-- The callback returns and settles a reply's only configuration, if and only if that
configuration is known already or manageable. -/
theorem reply_settled_iff {host : Host} {objs : StorageObjects} {reply : ManagedStorageType}
    (hconstruct : ∀ object, host.construct object = .ok ()) :
    (∃ objs', (createStorageObjects host objs reply).result = .ok objs' ∧
      ∀ path data, reply.entries = [(path, data)] → Settled host objs objs' path data) ↔
    ∀ path data, reply.entries = [(path, data)] → objs.find? path = none →
      Manageable host data := by
  by_cases hsingle : ∃ storage, reply.entries = [storage]
  · rcases hsingle with ⟨⟨path, data⟩, hreply⟩
    rw [createStorageObjects_single host objs hreply]
    constructor
    · rintro ⟨objs', hresult, -⟩ path' data' hreply' hnew
      obtain ⟨rfl, rfl⟩ : path = path' ∧ data = data' := by simpa [hreply] using hreply'
      exact (createStorageObject_returns_iff hconstruct hnew).mp ⟨objs', hresult⟩
    · intro h
      obtain ⟨objs', hresult⟩ :
          ∃ objs', (createStorageObject host objs (path, data)).result = .ok objs' := by
        cases hpath : objs.find? path with
        | some entry => exact ⟨objs, by rw [createStorageObject_known hpath]⟩
        | none =>
          exact (createStorageObject_returns_iff hconstruct hpath).mpr (h path data hreply hpath)
      refine ⟨objs', hresult, fun path' data' hreply' => ?_⟩
      obtain ⟨rfl, rfl⟩ : path = path' ∧ data = data' := by simpa [hreply] using hreply'
      exact createStorageObject_settled hresult
  · push Not at hsingle
    rw [createStorageObjects_other host objs hsingle]
    exact ⟨fun _ path data hreply => absurd hreply (hsingle _),
      fun _ => ⟨objs, rfl, fun path data hreply => absurd hreply (hsingle _)⟩⟩

end Callback

def emmcHost : Host where
  listing := [.entry ⟨"sda", .ok false, none⟩, .entry ⟨"mmcblk0", .ok true, some "MMC"⟩]
  blockSize := fun _ => some 15634268160
  fdGet := fun _ => true
  opensReadWrite := fun _ => true
  sysfs := fun _ => ⟨1, 2, "DG4016", "0x1234"⟩
  construct := fun _ => .ok ()

def emmcReply (path : String) : ManagedStorageType :=
  FlatMap.empty.assign path (FlatMap.empty.assign "Type" (.string "EmmcDevice"))

theorem reply_settled_iff_emmc :
    (∃ objs', (createStorageObjects emmcHost .empty (emmcReply "/board/emmc")).result = .ok objs' ∧
      ∀ path data, (emmcReply "/board/emmc").entries = [(path, data)] →
        Settled emmcHost .empty objs' path data) ↔
    ∀ path data, (emmcReply "/board/emmc").entries = [(path, data)] →
      (FlatMap.empty : StorageObjects).find? path = none → Manageable emmcHost data :=
  reply_settled_iff fun _ => rfl

/-- A device that vanished before it was opened: the exception of
`findSizeOfBlockDevice` escapes. -/
theorem unsized_device_escapes : ¬ ∀ (host : Host) (objs : StorageObjects)
    (reply : ManagedStorageType), (∀ object, host.construct object = .ok ()) →
      ∃ objs', (createStorageObjects host objs reply).result = .ok objs' ∧
        ∀ path data, reply.entries = [(path, data)] → Settled host objs objs' path data := by
  intro halways
  obtain ⟨objs', hresult, -⟩ := halways { emmcHost with blockSize := fun _ => none } .empty
    (emmcReply "/board/emmc") fun _ => rfl
  cases hresult

/-! ## One device, one object -/

structure Delivery where
  before : StorageObjects
  host : Host
  reply : ManagedStorageType

section Deliveries
variable [EstoragedConf]

def Delivery.outcome (d : Delivery) : Outcome := createStorageObjects d.host d.before d.reply

inductive Daemon where
  | running (storageObjects : StorageObjects)
  | terminated

/-- An exception that leaves the callback terminates the process. -/
def Daemon.afterwards : Except Exception StorageObjects → Daemon
  | .ok storageObjects => .running storageObjects
  | .error _ => .terminated

/-- The contents of `/sys/block` stay as they are. -/
def Delivers (listing : List DirItem) (s : Daemon) (d : Delivery) (s' : Daemon) : Prop :=
  s = .running d.before ∧ d.host.listing = listing ∧ s' = .afterwards d.outcome.result

def Live (objs : StorageObjects) (path : String) (object : EStoraged) : Prop :=
  objs.find? path = some (some object)

structure OneDevice (objs : StorageObjects) : Prop where
  atMostOne : ∀ p q a b, Live objs p a → Live objs q b → p = q
  distinct : ∀ p q a b, Live objs p a → Live objs q b → p ≠ q →
    a.devPath ≠ b.devPath ∧ a.containerName ≠ b.containerName ∧ a.objectPath ≠ b.objectPath

def Delivery.Reconstructs (d : Delivery) : Prop :=
  ∃ object ∈ d.outcome.constructed, ∃ path live, Live d.before path live ∧
    object.devPath = live.devPath

/-- A reply with a new eMMC only, while the device of a live object can be sized. -/
def Delivery.Doubles (d : Delivery) : Prop :=
  ∃ path data, d.reply.entries = [(path, data)] ∧ d.before.find? path = none ∧ isEmmc data ∧
    ∃ p live, Live d.before p live ∧ (d.host.blockSize live.devPath).isSome = true

def MadeFor (listing : List DirItem) (object : EStoraged) : Prop :=
  ∃ dirEntry, searchEnd listing = some (.entry dirEntry) ∧ dirEntry.typeExists.isOk = true ∧
    object.devPath = pathAppend "/dev" dirEntry.name

omit [EstoragedConf] in
theorem MadeFor.devPath_eq {listing : List DirItem} {a b : EStoraged} (ha : MadeFor listing a)
    (hb : MadeFor listing b) : a.devPath = b.devPath := by
  rcases ha with ⟨dirEntry, hend, -, ha⟩
  rcases hb with ⟨dirEntry', hend', -, hb⟩
  obtain rfl : dirEntry = dirEntry' := by simpa [hend] using hend'
  rw [ha, hb]

theorem Located.madeFor {host : Host} {data : StorageData} {info : DeviceInfo} {size : UInt64}
    (h : Located host data info size) (path : String) :
    MadeFor host.listing (newObject host path info size) := by
  obtain ⟨-, dirEntry, hend, hexists, rfl⟩ := findDevice_eq_some_iff.mp h.1
  exact ⟨dirEntry, hend, hexists, rfl⟩

theorem Delivery.constructed_iff {d : Delivery} {object : EStoraged} :
    object ∈ d.outcome.constructed ↔ ∃ path data, d.reply.entries = [(path, data)] ∧
      d.before.find? path = none ∧
        ∃ info size, Located d.host data info size ∧ object = newObject d.host path info size := by
  by_cases hsingle : ∃ storage, d.reply.entries = [storage]
  · rcases hsingle with ⟨⟨path, data⟩, hreply⟩
    rw [outcome, createStorageObjects_single _ _ hreply, Estoraged.constructed_iff]
    refine ⟨fun h => ⟨path, data, hreply, h⟩, ?_⟩
    intro h
    rcases h with ⟨path', data', hreply', h⟩
    obtain ⟨rfl, rfl⟩ : path = path' ∧ data = data' := by simpa [hreply] using hreply'
    exact h
  · push Not at hsingle
    rw [outcome, createStorageObjects_other _ _ hsingle]
    apply iff_of_false (by simp)
    intro h
    rcases h with ⟨path, data, hreply, -⟩
    exact hsingle _ hreply

theorem Delivery.live_after {d : Delivery} {objs : StorageObjects}
    (hresult : d.outcome.result = .ok objs) {p : String} {object : EStoraged}
    (hlive : Live objs p object) :
    Live d.before p object ∨ (object ∈ d.outcome.constructed ∧
      ∃ data, d.reply.entries = [(p, data)]) := by
  by_cases hsingle : ∃ storage, d.reply.entries = [storage]
  · rcases hsingle with ⟨⟨path, data⟩, hreply⟩
    rw [outcome, createStorageObjects_single _ _ hreply] at hresult ⊢
    apply (Estoraged.live_after hresult hlive).imp_right
    intro h
    rcases h with ⟨rfl, hmem⟩
    exact ⟨hmem, data, hreply⟩
  · push Not at hsingle
    rw [outcome, createStorageObjects_other _ _ hsingle] at hresult
    obtain rfl : d.before = objs := by simpa using hresult
    exact .inl hlive

section Runs
variable {listing : List DirItem}

/-- In a state whose live objects are made for the search's end, a doubling reply is just
one that reaches the constructor again. -/
theorem Delivery.reconstructs_iff {d : Delivery} (hlisting : d.host.listing = listing)
    (hmade : ∀ path live, Live d.before path live → MadeFor listing live) :
    d.Reconstructs ↔ d.Doubles := by
  constructor
  · intro h
    rcases h with ⟨object, hmem, p, live, hlive, hdev⟩
    obtain ⟨path, data, hreply, hnew, info, size, hlocated, rfl⟩ := constructed_iff.mp hmem
    have hemmc := (findDevice_eq_some_iff.mp hlocated.1).1
    refine ⟨path, data, hreply, hnew, hemmc, p, live, hlive, ?_⟩
    rw [← hdev]
    exact Option.isSome_of_eq_some hlocated.2
  · intro h
    rcases h with ⟨path, data, hreply, hnew, hemmc, p, live, hlive, hsized⟩
    obtain ⟨dirEntry, hend, hexists, hdev⟩ := hmade p live hlive
    obtain ⟨size, hsize⟩ := Option.isSome_iff_exists.mp hsized
    have hlocated : Located d.host data (deviceInfo data blockDevDir dirEntry.name) size :=
      ⟨findDevice_eq_some_iff.mpr ⟨hemmc, dirEntry, by rw [hlisting, hend], hexists, rfl⟩,
        by rw [← hsize, hdev]; rfl⟩
    exact ⟨_, constructed_iff.mpr ⟨path, data, hreply, hnew, _, _, hlocated, rfl⟩, p, live, hlive,
      hdev.symm⟩

def AllMade (listing : List DirItem) (s : Daemon) : Prop :=
  ∀ objs, s = .running objs → ∀ path live, Live objs path live → MadeFor listing live

theorem delivers_keeps_made (s : Daemon) (d : Delivery) (s' : Daemon)
    (hs : AllMade listing s) (h : Delivers listing s d s') : AllMade listing s' := by
  rcases h with ⟨rfl, hlisting, rfl⟩
  intro objs hrunning path live hlive
  cases hresult : d.outcome.result with
  | error e => simp [hresult, Daemon.afterwards] at hrunning
  | ok objs' =>
    obtain rfl : objs' = objs := by simpa [hresult, Daemon.afterwards] using hrunning
    rcases Delivery.live_after hresult hlive with hbefore | ⟨hmem, -⟩
    · exact hs _ rfl path live hbefore
    · obtain ⟨path', data, -, -, info, size, hlocated, rfl⟩ := Delivery.constructed_iff.mp hmem
      exact hlisting ▸ hlocated.madeFor path'

theorem delivers_keeps_oneDevice (s : Daemon) (d : Delivery) (s' : Daemon)
    (hs : AllMade listing s ∧ ∀ objs, s = .running objs → OneDevice objs)
    (h : Delivers listing s d s' ∧ ¬d.Doubles) :
    AllMade listing s' ∧ ∀ objs, s' = .running objs → OneDevice objs := by
  rcases h with ⟨hdelivers, hdoubles⟩
  refine ⟨delivers_keeps_made s d s' hs.1 hdelivers, ?_⟩
  rcases hdelivers with ⟨rfl, hlisting, rfl⟩
  rcases hs with ⟨hmade, hone⟩
  have hmade := hmade _ rfl
  have hone := hone _ rfl
  intro objs hrunning
  cases hresult : d.outcome.result with
  | error e => simp [hresult, Daemon.afterwards] at hrunning
  | ok objs' =>
    obtain rfl : objs' = objs := by simpa [hresult, Daemon.afterwards] using hrunning
    -- A live object and a constructed one would be for the same device.
    have exclusive : ∀ p a b, Live d.before p a → b ∈ d.outcome.constructed → False := by
      intro p a b ha hb
      have hmadeb : MadeFor listing b := by
        obtain ⟨path, data, -, -, info, size, hlocated, rfl⟩ := Delivery.constructed_iff.mp hb
        exact hlisting ▸ hlocated.madeFor path
      exact hdoubles ((Delivery.reconstructs_iff hlisting hmade).mp
        ⟨b, hb, p, a, ha, hmadeb.devPath_eq (hmade p a ha)⟩)
    have atMostOne : ∀ p q a b, Live objs' p a → Live objs' q b → p = q := by
      intro p q a b ha hb
      rcases Delivery.live_after hresult ha with ha | ⟨ha, data, hp⟩ <;>
        rcases Delivery.live_after hresult hb with hb | ⟨hb, data', hq⟩
      · exact hone.atMostOne p q a b ha hb
      · exact (exclusive p a b ha hb).elim
      · exact (exclusive q b a hb ha).elim
      · simp only [hp, List.cons.injEq, Prod.mk.injEq] at hq
        exact hq.1.1
    exact ⟨atMostOne, fun p q a b ha hb hne => absurd (atMostOne p q a b ha hb) hne⟩

omit [EstoragedConf] in
theorem oneDevice_empty : OneDevice .empty := by
  constructor
  · intro p q a b ha
    cases ha
  · intro p q a b ha
    cases ha

/-- From the start of the daemon on, every state holds at most one object and no
constructor is called for a device that has one, if and only if no reply doubles it. -/
theorem one_device_iff {ds : List Delivery} {s : Daemon}
    (hrun : Steps (Delivers listing) (.running .empty) ds s) :
    ((∀ d ∈ ds, ¬d.Reconstructs ∧ OneDevice d.before) ∧
      ∀ objs, s = .running objs → OneDevice objs) ↔ ∀ d ∈ ds, ¬d.Doubles := by
  have hstart : AllMade listing (.running .empty) := by
    rintro _ ⟨⟩ path live hlive
    cases hlive
  have hiff : ∀ d ∈ ds, (d.Reconstructs ↔ d.Doubles) :=
    hrun.forall_labels delivers_keeps_made (fun s d s' hs h =>
      Delivery.reconstructs_iff h.2.1 (hs _ h.1)) hstart
  constructor
  · rintro ⟨hproper, -⟩ d hd hdoubles
    exact (hproper d hd).1 ((hiff d hd).mpr hdoubles)
  · intro hdoubles
    have hinit : AllMade listing (.running .empty) ∧
        ∀ objs, Daemon.running .empty = .running objs → OneDevice objs :=
      ⟨hstart, by rintro _ ⟨⟩; exact oneDevice_empty⟩
    have hrun' := hrun.restrict hdoubles
    refine ⟨fun d hd => ⟨fun h => hdoubles d hd ((hiff d hd).mp h), ?_⟩, ?_⟩
    · exact hrun'.forall_labels delivers_keeps_oneDevice
        (fun s d s' hs h => hs.2 _ h.1.1) hinit d hd
    · exact (hrun'.invariant delivers_keeps_oneDevice hinit).2

end Runs

end Deliveries

def firstDelivery : Delivery := ⟨.empty, emmcHost, emmcReply "/board/emmc"⟩

def emmcObject (path : String) : EStoraged :=
  newObject emmcHost path
    (deviceInfo (FlatMap.empty.assign "Type" (.string "EmmcDevice")) blockDevDir "mmcblk0")
    15634268160

/-- What the first reply leaves. -/
def emmcObjects : StorageObjects :=
  FlatMap.empty.assign "/board/emmc" (some (emmcObject "/board/emmc"))

/-- The same reply again. -/
def knownDelivery : Delivery := ⟨emmcObjects, emmcHost, emmcReply "/board/emmc"⟩

/-- A drive of another type, for which the placeholder is set. -/
def otherDelivery : Delivery where
  before := emmcObjects
  host := emmcHost
  reply := FlatMap.empty.assign "/board/ssd" (FlatMap.empty.assign "Type" (.string "SataDevice"))

theorem one_device_iff_three :
    (∀ d ∈ [firstDelivery, knownDelivery, otherDelivery], ¬d.Reconstructs ∧ OneDevice d.before) ∧
      ∀ objs, Daemon.running (emmcObjects.assign "/board/ssd" none) = .running objs →
        OneDevice objs := by
  have hrun : Steps (Delivers emmcHost.listing) (.running .empty)
      [firstDelivery, knownDelivery, otherDelivery]
      (.running (emmcObjects.assign "/board/ssd" none)) :=
    .cons ⟨rfl, rfl, rfl⟩ (.cons ⟨rfl, rfl, rfl⟩ (.cons ⟨rfl, rfl, rfl⟩ (.nil _)))
  refine (one_device_iff hrun).mpr ?_
  intro d hd hdoubles
  obtain ⟨path, data, hreply, hnew, hemmc, p, live, hlive, -⟩ := hdoubles
  simp only [List.mem_cons, List.not_mem_nil, or_false] at hd
  rcases hd with rfl | rfl | rfl
  · cases hlive
  · obtain ⟨rfl, -⟩ := Prod.mk.inj (List.cons.inj hreply).1
    cases hnew
  · obtain ⟨-, rfl⟩ := Prod.mk.inj (List.cons.inj hreply).1
    exact absurd (Option.some.inj hemmc) (by decide)

def secondDelivery (construct : EStoraged → Except Exception Unit) : Delivery where
  before := emmcObjects
  host := { emmcHost with construct }
  reply := emmcReply "/board/spare"

/-- The second configuration reaches the constructor with the same device, whatever the
constructor then does. -/
theorem second_path_reconstructs : ¬ ∃ construct : EStoraged → Except Exception Unit,
    ∀ s : Daemon,
      Steps (Delivers emmcHost.listing) (.running .empty)
        [firstDelivery, secondDelivery construct] s →
      (∀ d ∈ [firstDelivery, secondDelivery construct], ¬d.Reconstructs ∧ OneDevice d.before) ∧
        ∀ objs, s = .running objs → OneDevice objs := by
  intro h
  rcases h with ⟨construct, halways⟩
  obtain ⟨hproper, -⟩ := halways _ (.cons ⟨rfl, rfl, rfl⟩ (.cons ⟨rfl, rfl, rfl⟩ (.nil _)))
  have hnew : (secondDelivery construct).before.find? "/board/spare" = none :=
    FlatMap.find?_assign_of_ne .empty (by decide) _
  have hconstructed : emmcObject "/board/spare" ∈ (secondDelivery construct).outcome.constructed :=
    Delivery.constructed_iff.mpr ⟨_, _, rfl, hnew, _, _, ⟨rfl, rfl⟩, rfl⟩
  exact (hproper (secondDelivery construct) (by simp)).1
    ⟨_, hconstructed, "/board/emmc", emmcObject "/board/emmc", rfl, rfl⟩

end Estoraged

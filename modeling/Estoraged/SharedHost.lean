import Estoraged.HandleProtocol
import Estoraged.PairedTables

/-!
# Several objects on one host

The host keeps its own tables: the LUKS data of each device file, which container maps
which device, what is mounted where. The objects that the daemon constructs reach into the
same tables by name. The requests of all objects of one device file are still a run of the
volume model, and nothing that is asked of the others touches it.
-/

namespace Estoraged
open Interaction PairedTables
set_option autoImplicit false

/-- What is stored on a device file. -/
structure LuksData (keySlots : Nat) where
  header : Bool
  keyslots : Vector (Option Password) keySlots
  filesystem : Bool
deriving DecidableEq

/-- `containers` has the device file each container maps, `mounts` the source mounted at
each target, `handles` the device file of each open `crypt_device`. -/
structure HostState (keySlots : Nat) where
  devices : String → LuksData keySlots
  containers : List (String × String)
  mounts : List (String × String)
  directories : List String
  handles : List (CryptDevice × String)

namespace HostState
variable {keySlots : Nat}

def deviceOf (s : HostState keySlots) (cd : CryptDevice) : Option String := s.handles.lookup cd

/-- The device file that is mapped at a path below `cryptDir`. -/
def mappedAt (cryptDir : String) (s : HostState keySlots) (path : String) : Option String :=
  (s.containers.find? fun container => cryptDir ++ "/" ++ container.1 == path).map Prod.snd

/-- Changes the data on a device file, where there is one. -/
def onDevice (s : HostState keySlots) (device : Option String)
    (f : LuksData keySlots → LuksData keySlots) : HostState keySlots :=
  match device with
  | some device =>
    { s with devices := Function.update s.devices device (f (s.devices device)) }
  | none => s

end HostState

/-! ## The calls -/

section Calls
variable {keySlots : Nat}

def HostCall.succeeded (c : HostCall) (r : c.Ret) : Bool :=
  match c.shown r with
  | some answered => answered.1.succeeded answered.2
  | none => true

def HostCall.done (cryptDir : String) : (c : HostCall) → c.Ret → HostState keySlots →
    HostState keySlots
  | .cryptInit device, answer, s =>
    match answer.cryptDev with
    | some cd => { s with handles := (cd, device) :: s.handles }
    | none => s
  | .cryptFree (some cd), _, s =>
    { s with handles := s.handles.filter fun handle => handle.1 != cd }
  | .cryptFormat cd _ _ _ _, _, s =>
    s.onDevice (s.deviceOf cd) fun data =>
      { header := true, keyslots := data.keyslots.map fun _ => none, filesystem := false }
  | .cryptKeyslotAddByVolumeKey cd _ passphrase, retval, s =>
    s.onDevice (s.deviceOf cd) fun data =>
      { data with keyslots := data.keyslots.setIfInBounds (Int.toNat retval) (some passphrase) }
  | .cryptKeyslotChangeByPassphrase cd _ _ passphrase newPassphrase, retval, s =>
    s.onDevice (s.deviceOf cd) fun data =>
      let freed := data.keyslots.setIfInBounds
        (data.keyslots.toList.idxOf (some passphrase)) none
      { data with keyslots := freed.setIfInBounds (Int.toNat retval) (some newPassphrase) }
  | .cryptActivateByPassphrase cd name _ _ _, _, s =>
    match s.deviceOf cd with
    | some device => { s with containers := (name, device) :: s.containers }
    | none => s
  | .cryptDeactivate name, _, s =>
    { s with containers := s.containers.filter fun container => container.1 != name }
  | .cryptKeyslotDestroy cd keyslot, _, s =>
    s.onDevice (s.deviceOf cd) fun data =>
      { data with keyslots := data.keyslots.setIfInBounds keyslot none }
  | .runMkfs path _, _, s =>
    s.onDevice (s.mappedAt cryptDir path) fun data => { data with filesystem := true }
  | .createDirectory path, _, s => { s with directories := path :: s.directories }
  | .doMount source target _ _, _, s => { s with mounts := (target, source) :: s.mounts }
  | .doUnmount target, _, s =>
    { s with mounts := s.mounts.filter fun mount => mount.1 != target }
  | .removeDirectory path, _, s =>
    { s with directories := s.directories.filter fun directory => directory != path }
  | _, _, s => s

/-- A failed call changes nothing. -/
def HostCall.effect (cryptDir : String) (c : HostCall) (r : c.Ret) (s : HostState keySlots) :
    HostState keySlots :=
  if c.succeeded r then c.done cryptDir r s else s

/-- Whether the device of a handle is so. -/
def HostState.handleIs (s : HostState keySlots) (cd : CryptDevice)
    (p : String → LuksData keySlots → Bool) : Bool :=
  match s.deviceOf cd with
  | some device => p device (s.devices device)
  | none => false

/-- The keyslots on the device of a handle. -/
def HostState.slotsOf (s : HostState keySlots) (cd : CryptDevice) : List (Option Password) :=
  match s.deviceOf cd with
  | some device => (s.devices device).keyslots.toList
  | none => []

/-- What a call needs to succeed. -/
def HostState.allows (cryptDir : String) (s : HostState keySlots) : HostCall → Bool
  | .cryptFormat cd _ _ _ _ =>
    s.handleIs cd fun device _ => device ∉ s.containers.map Prod.snd
  | .cryptKeyslotAddByVolumeKey cd _ _ =>
    s.handleIs cd fun _ data => data.header && data.keyslots.toList.contains none
  | .cryptLoad cd _ => s.handleIs cd fun _ data => data.header
  | .cryptKeyslotChangeByPassphrase cd _ _ passphrase _ =>
    s.handleIs cd fun _ data => data.header && data.keyslots.toList.contains (some passphrase)
  | .cryptActivateByPassphrase cd name _ passphrase _ =>
    s.handleIs cd fun device data =>
      data.header && data.keyslots.toList.contains (some passphrase) &&
        device ∉ s.containers.map Prod.snd && name ∉ s.containers.map Prod.fst
  | .cryptDeactivate name =>
    name ∈ s.containers.map Prod.fst && (cryptDir ++ "/" ++ name) ∉ s.mounts.map Prod.snd
  | .cryptKeySlotMax _ => keySlots != 0
  | .runMkfs path _ => (s.mappedAt cryptDir path).isSome && path ∉ s.mounts.map Prod.snd
  | .runFsck path _ => (s.mappedAt cryptDir path).isSome && path ∉ s.mounts.map Prod.snd
  | .createDirectory path => path ∉ s.directories
  | .doMount source target _ _ =>
    (s.mappedAt cryptDir source).any (fun device => (s.devices device).filesystem) &&
      source ∉ s.mounts.map Prod.snd && target ∉ s.mounts.map Prod.fst &&
      target ∈ s.directories
  | .doUnmount target => target ∈ s.mounts.map Prod.fst
  | .removeDirectory path => path ∈ s.directories && path ∉ s.mounts.map Prod.fst
  | _ => true

/-- Whether a successful answer tells the truth; a new handle is none of the open ones. -/
def HostState.agrees (cryptDir : String) (s : HostState keySlots) : (c : HostCall) → c.Ret → Bool
  | .cryptInit _, answer =>
    match answer.cryptDev with
    | some cd => s.deviceOf cd == none
    | none => true
  | .cryptKeyslotAddByVolumeKey cd _ _, retval =>
    s.handleIs cd fun _ data => data.keyslots.toList[Int.toNat retval]? == some none
  | .cryptKeyslotChangeByPassphrase cd _ _ passphrase _, retval =>
    s.handleIs cd fun _ data =>
      Int.toNat retval == data.keyslots.toList.idxOf (some passphrase) ||
        data.keyslots.toList[Int.toNat retval]? == some none
  | .cryptKeySlotMax _, nKeySlots => nKeySlots == (keySlots : Int)
  | .cryptKeySlotStatus cd keyslot, ki =>
    ki.working == ((s.slotsOf cd)[keyslot]?.getD none).isSome
  | .pathExists path, .ok present => present == (s.mappedAt cryptDir path).isSome
  | .directoryExists path, .ok present => present == decide (path ∈ s.directories)
  | _, _ => true

/-- The host. Any call may fail, and overwriting a device file may leave any data on it. -/
def hosted (cryptDir : String) : Env hostPorts (HostState keySlots) := fun s c r s' =>
  (c.succeeded r → s.allows cryptDir c ∧ s.agrees cryptDir c r) ∧
  (s' = c.effect cryptDir r s ∨
    ∃ devPath method data, method.overwrites = true ∧ c = .eraseDevice devPath method ∧
      s' = s.onDevice (some devPath) fun _ => data)

end Calls

/-! ## The volume of a device file -/

/-- What the objects of a device in `/sys/block` name. -/
def deviceNames (cryptDir name : String) : Names where
  devPath := pathAppend "/dev" name
  containerName := "luks-" ++ name
  mountPoint := "/mnt/" ++ ("luks-" ++ name) ++ "_fs"
  cryptDevicePath := cryptDir ++ "/" ++ ("luks-" ++ name)

/-- An object that the daemon has constructed at some time. -/
def EStoraged.Made [EstoragedConf] (storage : EStoraged) : Prop :=
  ∃ d : Delivery, storage ∈ d.outcome.constructed

theorem EStoraged.Made.names_eq [EstoragedConf] {storage : EStoraged} (h : storage.Made)
    (cryptDir : String) : ∃ name, storage.devPath = pathAppend "/dev" name ∧
      storage.names cryptDir = deviceNames cryptDir name := by
  obtain ⟨d, hd⟩ := h
  obtain ⟨path, data, -, -, info, size, hlocated, rfl⟩ := Delivery.constructed_iff.mp hd
  obtain ⟨-, dirEntry, -, -, rfl⟩ := findDevice_eq_some_iff.mp hlocated.1
  exact ⟨dirEntry.name, rfl, rfl⟩

section Apart
variable (cryptDir : String)

theorem devPath_injective :
    Function.Injective fun name => (deviceNames cryptDir name).devPath := by
  intro n m h
  simpa [deviceNames, pathAppend_dev] using h

theorem containerName_injective :
    Function.Injective fun name => (deviceNames cryptDir name).containerName := by
  intro n m h
  simpa [deviceNames] using h

theorem mountPoint_injective :
    Function.Injective fun name => (deviceNames cryptDir name).mountPoint := by
  intro n m h
  simpa [deviceNames] using h

theorem cryptDevicePath_injective :
    Function.Injective fun name => (deviceNames cryptDir name).cryptDevicePath := by
  intro n m h
  simpa [deviceNames] using h

end Apart

/-- What the host shows of the volume with these names. -/
def HostState.world {keySlots : Nat} (s : HostState keySlots) (names : Names) : World where
  header := (s.devices names.devPath).header
  keyslots := (s.devices names.devPath).keyslots.toList
  mapped := (names.containerName, names.devPath) ∈ s.containers
  mounted := (names.mountPoint, names.cryptDevicePath) ∈ s.mounts
  mountPoint := names.mountPoint ∈ s.directories
  filesystem := (s.devices names.devPath).filesystem

/-- Nothing on the host takes the names of this device for something else, or maps or mounts
it under another name. -/
structure HostState.Sound {keySlots : Nat} (cryptDir : String) (s : HostState keySlots)
    (name : String) : Prop where
  containers : Paired (deviceNames cryptDir name).containerName
    (deviceNames cryptDir name).devPath s.containers
  mounts : Paired (deviceNames cryptDir name).mountPoint
    (deviceNames cryptDir name).cryptDevicePath s.mounts

/-- So it is with the device of an object. -/
def HostState.SoundFor {keySlots : Nat} (cryptDir : String) (s : HostState keySlots)
    (storage : EStoraged) : Prop :=
  ∀ name, storage.devPath = pathAppend "/dev" name → s.Sound cryptDir name

section Worlds
variable {keySlots : Nat} {cryptDir : String} {s : HostState keySlots} {n m : String}

theorem HostState.Sound.container_iff (hs : s.Sound cryptDir n) :
    (deviceNames cryptDir n).containerName ∈ s.containers.map Prod.fst ↔
      (s.world (deviceNames cryptDir n)).mapped = true := by
  simpa [HostState.world] using hs.containers.key_iff

theorem HostState.Sound.device_iff (hs : s.Sound cryptDir n) :
    (deviceNames cryptDir n).devPath ∈ s.containers.map Prod.snd ↔
      (s.world (deviceNames cryptDir n)).mapped = true := by
  simpa [HostState.world] using hs.containers.value_iff

theorem HostState.Sound.target_iff (hs : s.Sound cryptDir n) :
    (deviceNames cryptDir n).mountPoint ∈ s.mounts.map Prod.fst ↔
      (s.world (deviceNames cryptDir n)).mounted = true := by
  simpa [HostState.world] using hs.mounts.key_iff

theorem HostState.Sound.source_iff (hs : s.Sound cryptDir n) :
    (deviceNames cryptDir n).cryptDevicePath ∈ s.mounts.map Prod.snd ↔
      (s.world (deviceNames cryptDir n)).mounted = true := by
  simpa [HostState.world] using hs.mounts.value_iff

theorem HostState.Sound.mapped_iff (hs : s.Sound cryptDir n) :
    (s.mappedAt cryptDir (deviceNames cryptDir n).cryptDevicePath).isSome = true ↔
      (s.world (deviceNames cryptDir n)).mapped = true := by
  rw [← hs.container_iff]
  simp [HostState.mappedAt, List.find?_isSome, deviceNames]

/-- Where something is mapped at the path of a device, it is that device. -/
theorem HostState.Sound.mappedAt_eq (hs : s.Sound cryptDir n) {device : String}
    (h : s.mappedAt cryptDir (deviceNames cryptDir n).cryptDevicePath = some device) :
    device = (deviceNames cryptDir n).devPath := by
  obtain ⟨⟨container, device⟩, hfind, rfl⟩ := Option.map_eq_some_iff.mp h
  have hname : container = (deviceNames cryptDir n).containerName := by
    simpa [deviceNames] using List.find?_some hfind
  exact (hs.containers _ (List.mem_of_find?_eq_some hfind)).mp hname

/-- A call on what has these names. -/
def HostState.Touches (s : HostState keySlots) (names : Names) : HostCall → Prop
  | .cryptInit device => device = names.devPath
  | .cryptFormat cd .. | .cryptKeyslotAddByVolumeKey cd .. | .cryptLoad cd ..
  | .cryptKeyslotChangeByPassphrase cd .. | .cryptKeySlotStatus cd _
  | .cryptKeyslotDestroy cd _ => s.deviceOf cd = some names.devPath
  | .cryptActivateByPassphrase cd name .. =>
    s.deviceOf cd = some names.devPath ∧ name = names.containerName
  | .cryptDeactivate name => name = names.containerName
  | .pathExists path | .runMkfs path _ | .runFsck path _ => path = names.cryptDevicePath
  | .directoryExists path | .createDirectory path | .removeDirectory path =>
    path = names.mountPoint
  | .doMount source target _ _ => source = names.cryptDevicePath ∧ target = names.mountPoint
  | .doUnmount target => target = names.mountPoint
  | .eraseDevice devPath _ => devPath = names.devPath
  | .randBytes _ | .cryptFree _ | .cryptKeySlotMax _ => True

theorem HostState.handleIs_eq {names : Names} {cd : CryptDevice}
    (h : s.deviceOf cd = some names.devPath) (p : String → LuksData keySlots → Bool) :
    s.handleIs cd p = p names.devPath (s.devices names.devPath) := by
  simp [HostState.handleIs, h]

/-- What the host needs for a call is what the volume model needs for it. -/
theorem allows_world (hs : s.Sound cryptDir n) {c : HostCall} {r : c.Ret}
    {answered : (d : Call) × d.Ret} (htouches : s.Touches (deviceNames cryptDir n) c)
    (hshown : c.shown r = some answered) (hallows : s.allows cryptDir c = true) :
    (s.world (deviceNames cryptDir n)).allows answered.1 = true := by
  cases c with
  | cryptFree => cases hshown
  | randBytes | cryptInit | cryptKeySlotStatus | cryptKeyslotDestroy | pathExists
  | directoryExists | eraseDevice =>
    obtain rfl := Option.some.inj hshown
    rfl
  | cryptFormat cd =>
    obtain rfl := Option.some.inj hshown
    rw [HostState.allows, HostState.handleIs_eq htouches, decide_eq_true_eq, hs.device_iff]
      at hallows
    simpa [World.allows] using hallows
  | cryptLoad cd =>
    obtain rfl := Option.some.inj hshown
    rw [HostState.allows, HostState.handleIs_eq htouches] at hallows
    exact hallows
  | cryptKeyslotAddByVolumeKey cd | cryptKeyslotChangeByPassphrase cd =>
    obtain rfl := Option.some.inj hshown
    rw [HostState.allows, HostState.handleIs_eq htouches, List.contains_eq_mem] at hallows
    exact hallows
  | cryptActivateByPassphrase cd =>
    obtain rfl := Option.some.inj hshown
    obtain ⟨hdevice, rfl⟩ := htouches
    rw [HostState.allows, HostState.handleIs_eq hdevice] at hallows
    simp only [Bool.and_eq_true, List.contains_eq_mem, decide_eq_true_eq, hs.device_iff] at hallows
    simp only [World.allows, Bool.and_eq_true]
    exact ⟨⟨hallows.1.1.1, decide_eq_true hallows.1.1.2⟩, by simpa using hallows.1.2⟩
  | cryptDeactivate name =>
    obtain rfl := Option.some.inj hshown
    obtain rfl := htouches
    have hsource : cryptDir ++ "/" ++ (deviceNames cryptDir n).containerName =
        (deviceNames cryptDir n).cryptDevicePath := rfl
    rw [HostState.allows, hsource] at hallows
    simp only [Bool.and_eq_true, decide_eq_true_eq, hs.container_iff, hs.source_iff] at hallows
    simpa [World.allows] using hallows
  | cryptKeySlotMax type =>
    obtain rfl := Option.some.inj hshown
    simpa [HostState.allows, World.allows, HostState.world] using hallows
  | runMkfs path | runFsck path =>
    obtain rfl := Option.some.inj hshown
    obtain rfl := htouches
    simp only [HostState.allows, Bool.and_eq_true, decide_eq_true_eq, hs.mapped_iff,
      hs.source_iff] at hallows
    simpa [World.allows] using hallows
  | createDirectory path =>
    obtain rfl := Option.some.inj hshown
    obtain rfl := htouches
    simpa [HostState.allows, World.allows, HostState.world] using hallows
  | doMount source target =>
    obtain rfl := Option.some.inj hshown
    obtain ⟨rfl, rfl⟩ := htouches
    simp only [HostState.allows, Bool.and_eq_true, decide_eq_true_eq, hs.source_iff,
      Option.any_eq_true] at hallows
    obtain ⟨⟨⟨⟨device, hmapped, hfilesystem⟩, hsource⟩, -⟩, htarget⟩ := hallows
    obtain rfl := hs.mappedAt_eq hmapped
    have hmapped := hs.mapped_iff.mp (Option.isSome_of_eq_some hmapped)
    simp only [World.allows, Bool.and_eq_true]
    exact ⟨⟨⟨hmapped, by simpa using hsource⟩, by simpa [HostState.world] using htarget⟩,
      hfilesystem⟩
  | doUnmount target =>
    obtain rfl := Option.some.inj hshown
    obtain rfl := htouches
    simpa [HostState.allows, World.allows, hs.target_iff] using hallows
  | removeDirectory path =>
    obtain rfl := Option.some.inj hshown
    obtain rfl := htouches
    simp only [HostState.allows, Bool.and_eq_true, decide_eq_true_eq, hs.target_iff] at hallows
    simpa [World.allows, HostState.world] using hallows

theorem agrees_world (hs : s.Sound cryptDir n) {c : HostCall} {r : c.Ret}
    {answered : (d : Call) × d.Ret} (htouches : s.Touches (deviceNames cryptDir n) c)
    (hshown : c.shown r = some answered) (hagrees : s.agrees cryptDir c r = true) :
    (s.world (deviceNames cryptDir n)).agrees answered.1 answered.2 = true := by
  cases c with
  | cryptFree => cases hshown
  | cryptKeyslotAddByVolumeKey cd | cryptKeyslotChangeByPassphrase cd =>
    obtain rfl := Option.some.inj hshown
    rw [HostState.agrees, HostState.handleIs_eq htouches] at hagrees
    exact hagrees
  | cryptKeySlotStatus cd =>
    obtain rfl := Option.some.inj hshown
    have hdevice : s.deviceOf cd = some (deviceNames cryptDir n).devPath := htouches
    simp only [HostState.agrees, HostState.slotsOf, hdevice] at hagrees
    exact hagrees
  | cryptKeySlotMax type =>
    obtain rfl := Option.some.inj hshown
    simpa [HostState.agrees, World.agrees, HostState.world] using hagrees
  | pathExists path =>
    obtain rfl := Option.some.inj hshown
    obtain rfl := htouches
    cases r with
    | error e => rfl
    | ok present =>
      have hpresent : present = (s.mappedAt cryptDir
          (deviceNames cryptDir n).cryptDevicePath).isSome := by
        simpa [HostState.agrees] using hagrees
      have hmapped : present = (s.world (deviceNames cryptDir n)).mapped := by
        rw [hpresent, Bool.eq_iff_iff]
        exact hs.mapped_iff
      simp [World.agrees, hmapped]
  | directoryExists path =>
    obtain rfl := Option.some.inj hshown
    obtain rfl := htouches
    cases r with
    | error e => rfl
    | ok present => exact hagrees
  | _ =>
    obtain rfl := Option.some.inj hshown
    rfl

@[simp] theorem world_containers (containers : List (String × String)) (names : Names) :
    ({ s with containers } : HostState keySlots).world names =
      { s.world names with
        mapped := decide ((names.containerName, names.devPath) ∈ containers) } := rfl

@[simp] theorem world_mounts (mounts : List (String × String)) (names : Names) :
    ({ s with mounts } : HostState keySlots).world names =
      { s.world names with
        mounted := decide ((names.mountPoint, names.cryptDevicePath) ∈ mounts) } := rfl

@[simp] theorem world_directories (directories : List String) (names : Names) :
    ({ s with directories } : HostState keySlots).world names =
      { s.world names with mountPoint := decide (names.mountPoint ∈ directories) } := rfl

theorem world_onDevice (device : String) (f : LuksData keySlots → LuksData keySlots)
    (names : Names) :
    (s.onDevice (some device) f).world names =
      if names.devPath = device then
        { s.world names with
          header := (f (s.devices device)).header
          keyslots := (f (s.devices device)).keyslots.toList
          filesystem := (f (s.devices device)).filesystem }
      else s.world names := by
  by_cases hdevice : names.devPath = device
  · have hdata : (s.onDevice (some device) f).devices names.devPath = f (s.devices device) := by
      rw [hdevice]
      exact Function.update_self ..
    rw [if_pos hdevice, HostState.world, hdata]
    rfl
  · have hdata : (s.onDevice (some device) f).devices names.devPath = s.devices names.devPath :=
      Function.update_of_ne hdevice ..
    rw [if_neg hdevice, HostState.world, hdata]
    rfl

/-- What a call does on the host is, in the volume of its device, what it does in the volume
model. -/
theorem done_world (hs : s.Sound cryptDir n) {c : HostCall} {r : c.Ret}
    {answered : (d : Call) × d.Ret} (htouches : s.Touches (deviceNames cryptDir n) c)
    (hshown : c.shown r = some answered) (hallows : s.allows cryptDir c = true) :
    (c.done cryptDir r s).world (deviceNames cryptDir n) =
      answered.1.done answered.2 (s.world (deviceNames cryptDir n)) := by
  cases c with
  | cryptFree => cases hshown
  | cryptInit device =>
    obtain rfl := Option.some.inj hshown
    obtain ⟨retval, cryptDev⟩ := r
    cases cryptDev <;> rfl
  | cryptFormat cd =>
    obtain rfl := Option.some.inj hshown
    have hdevice : s.deviceOf cd = some (deviceNames cryptDir n).devPath := htouches
    rw [HostCall.done, hdevice, world_onDevice, if_pos rfl, Vector.toList_map]
    rfl
  | cryptKeyslotAddByVolumeKey cd | cryptKeyslotChangeByPassphrase cd
  | cryptKeyslotDestroy cd =>
    obtain rfl := Option.some.inj hshown
    have hdevice : s.deviceOf cd = some (deviceNames cryptDir n).devPath := htouches
    rw [HostCall.done, hdevice, world_onDevice, if_pos rfl]
    simp [Call.done, HostState.world]
  | cryptActivateByPassphrase cd =>
    obtain rfl := Option.some.inj hshown
    obtain ⟨hdevice, rfl⟩ := htouches
    simp [HostCall.done, Call.done, hdevice]
  | cryptDeactivate name =>
    obtain rfl := Option.some.inj hshown
    obtain rfl := htouches
    simp [HostCall.done, Call.done]
  | runMkfs path =>
    obtain rfl := Option.some.inj hshown
    obtain rfl := htouches
    simp only [HostState.allows, Bool.and_eq_true] at hallows
    obtain ⟨device, hmapped⟩ := Option.isSome_iff_exists.mp hallows.1
    obtain rfl := hs.mappedAt_eq hmapped
    rw [HostCall.done, hmapped, world_onDevice, if_pos rfl]
    rfl
  | createDirectory path | removeDirectory path | doUnmount target =>
    obtain rfl := Option.some.inj hshown
    obtain rfl := htouches
    simp [HostCall.done, Call.done]
  | doMount source target =>
    obtain rfl := Option.some.inj hshown
    obtain ⟨rfl, rfl⟩ := htouches
    simp [HostCall.done, Call.done]
  | _ =>
    obtain rfl := Option.some.inj hshown
    rfl

/-- The volumes of the other devices stay as they are. -/
theorem done_others (hs : s.Sound cryptDir n) {c : HostCall} {r : c.Ret}
    (htouches : s.Touches (deviceNames cryptDir n) c) (hallows : s.allows cryptDir c = true)
    (hm : m ≠ n) :
    (c.done cryptDir r s).world (deviceNames cryptDir m) = s.world (deviceNames cryptDir m) := by
  have hdevPath : (deviceNames cryptDir m).devPath ≠ (deviceNames cryptDir n).devPath :=
    fun h => hm (devPath_injective cryptDir h)
  have hmountPoint : (deviceNames cryptDir m).mountPoint ≠ (deviceNames cryptDir n).mountPoint :=
    fun h => hm (mountPoint_injective cryptDir h)
  have hcontainer : (deviceNames cryptDir m).containerName ≠
      (deviceNames cryptDir n).containerName :=
    fun h => hm (containerName_injective cryptDir h)
  cases c with
  | cryptInit device =>
    obtain ⟨retval, cryptDev⟩ := r
    cases cryptDev <;> rfl
  | cryptFree cd => cases cd <;> rfl
  | cryptFormat cd | cryptKeyslotAddByVolumeKey cd | cryptKeyslotChangeByPassphrase cd
  | cryptKeyslotDestroy cd =>
    have hdevice : s.deviceOf cd = some (deviceNames cryptDir n).devPath := htouches
    rw [HostCall.done, hdevice, world_onDevice, if_neg hdevPath]
  | cryptActivateByPassphrase cd =>
    obtain ⟨hdevice, rfl⟩ := htouches
    simp only [HostCall.done, hdevice, world_containers, List.mem_cons, Prod.mk.injEq,
      hcontainer, false_and, false_or]
    rfl
  | cryptDeactivate name =>
    obtain rfl := htouches
    simp only [HostCall.done, world_containers, List.mem_filter, bne_iff_ne, ne_eq, hcontainer,
      not_false_eq_true, and_true]
    rfl
  | runMkfs path =>
    obtain rfl := htouches
    simp only [HostState.allows, Bool.and_eq_true] at hallows
    obtain ⟨device, hmapped⟩ := Option.isSome_iff_exists.mp hallows.1
    obtain rfl := hs.mappedAt_eq hmapped
    rw [HostCall.done, hmapped, world_onDevice, if_neg hdevPath]
  | createDirectory path =>
    obtain rfl := htouches
    simp only [HostCall.done, world_directories, List.mem_cons, hmountPoint, false_or]
    rfl
  | removeDirectory path =>
    obtain rfl := htouches
    simp only [HostCall.done, world_directories, List.mem_filter, bne_iff_ne, ne_eq, hmountPoint,
      not_false_eq_true, and_true]
    rfl
  | doMount source target =>
    obtain ⟨rfl, rfl⟩ := htouches
    simp only [HostCall.done, world_mounts, List.mem_cons, Prod.mk.injEq, hmountPoint,
      false_and, false_or]
    rfl
  | doUnmount target =>
    obtain rfl := htouches
    simp only [HostCall.done, world_mounts, List.mem_filter, bne_iff_ne, ne_eq, hmountPoint,
      not_false_eq_true, and_true]
    rfl
  | _ => rfl

theorem onDevice_sound (hs : s.Sound cryptDir n) (device : Option String)
    (f : LuksData keySlots → LuksData keySlots) : (s.onDevice device f).Sound cryptDir n := by
  cases device with
  | none => exact hs
  | some device => exact ⟨hs.containers, hs.mounts⟩

/-- A call on one device leaves every device sound that was. -/
theorem done_sound (hs : s.Sound cryptDir m) {c : HostCall} {r : c.Ret}
    (htouches : s.Touches (deviceNames cryptDir n) c) :
    (c.done cryptDir r s).Sound cryptDir m := by
  cases c with
  | cryptInit device =>
    obtain ⟨retval, cryptDev⟩ := r
    cases cryptDev <;> exact ⟨hs.containers, hs.mounts⟩
  | cryptFree cd => cases cd <;> exact ⟨hs.containers, hs.mounts⟩
  | cryptFormat | cryptKeyslotAddByVolumeKey | cryptKeyslotChangeByPassphrase
  | cryptKeyslotDestroy | runMkfs =>
    rw [HostCall.done]
    exact onDevice_sound hs _ _
  | cryptActivateByPassphrase cd =>
    obtain ⟨hdevice, rfl⟩ := htouches
    simp only [HostCall.done, hdevice]
    refine ⟨hs.containers.cons ?_, hs.mounts⟩
    exact (containerName_injective cryptDir).eq_iff.trans
      (devPath_injective cryptDir).eq_iff.symm
  | cryptDeactivate name => exact ⟨hs.containers.filter _, hs.mounts⟩
  | doMount source target =>
    obtain ⟨rfl, rfl⟩ := htouches
    refine ⟨hs.containers, hs.mounts.cons ?_⟩
    exact (mountPoint_injective cryptDir).eq_iff.trans
      (cryptDevicePath_injective cryptDir).eq_iff.symm
  | doUnmount target => exact ⟨hs.containers, hs.mounts.filter _⟩
  | _ => exact ⟨hs.containers, hs.mounts⟩

/-- The handles in a phase: those there were before, and the open one. -/
def HandlePhase.Tracks (devPath : String) (base : List (CryptDevice × String)) :
    HandlePhase → HostState keySlots → Prop
  | .closed, s | .opened none, s => s.handles = base
  | .opened (some cd), s | .loaded cd, s =>
    s.handles = (cd, devPath) :: base ∧ base.lookup cd = none

theorem HandlePhase.Tracks.deviceOf {devPath : String} {base : List (CryptDevice × String)}
    {g : HandlePhase} {cd : CryptDevice} (h : g.Tracks devPath base s)
    (hg : g = .opened (some cd) ∨ g = .loaded cd) : s.deviceOf cd = some devPath := by
  have hhandles : s.handles = (cd, devPath) :: base := by
    obtain rfl | rfl := hg <;> exact h.1
  simp [HostState.deviceOf, hhandles]

/-- The calls that the protocol allows in a phase are calls on what has the names. -/
theorem touches_of_allows {names : Names} {base : List (CryptDevice × String)} {g : HandlePhase}
    {c : HostCall} (h : g.Tracks names.devPath base s) (hallows : names.protocol.allows g c) :
    s.Touches names c := by
  cases g with
  | closed =>
    cases c with
    | runMkfs | runFsck => exact hallows.1
    | doMount => exact ⟨hallows.1, hallows.2.1⟩
    | randBytes | cryptInit | cryptDeactivate | pathExists | directoryExists | createDirectory
    | doUnmount | removeDirectory | eraseDevice => exact hallows
    | _ => exact hallows.elim
  | opened held =>
    obtain rfl | ⟨cd, rfl, hof⟩ := hallows
    · trivial
    · have hdevice := h.deviceOf (.inl rfl)
      cases c with
      | cryptLoad cd' _ | cryptFormat cd' _ _ _ _ =>
        obtain ⟨rfl, -⟩ := hof
        exact hdevice
      | _ => exact hof.elim
  | loaded cd =>
    have hdevice := h.deviceOf (.inr rfl)
    obtain rfl | hon := hallows
    · trivial
    · cases c with
      | cryptKeySlotStatus cd' _ | cryptKeyslotDestroy cd' _ =>
        obtain rfl : cd' = cd := hon
        exact hdevice
      | cryptKeyslotAddByVolumeKey cd' _ _ | cryptKeyslotChangeByPassphrase cd' _ _ _ _ =>
        obtain ⟨rfl, -⟩ := hon
        exact hdevice
      | cryptActivateByPassphrase cd' _ _ _ _ =>
        obtain ⟨rfl, rfl, -⟩ := hon
        exact ⟨hdevice, rfl⟩
      | cryptKeySlotMax _ => trivial
      | _ => exact hon.elim

theorem hosted_effect {c : HostCall} {r : c.Ret} {s' : HostState keySlots}
    (hcall : hosted cryptDir s c r s') (hc : ∀ devPath method, c ≠ .eraseDevice devPath method) :
    s' = c.effect cryptDir r s := by
  obtain ⟨-, heffect | ⟨devPath, method, data, -, rfl, -⟩⟩ := hcall
  · exact heffect
  · exact absurd rfl (hc devPath method)

theorem onDevice_handles (device : Option String) (f : LuksData keySlots → LuksData keySlots) :
    (s.onDevice device f).handles = s.handles := by
  cases device <;> rfl

/-- Only opening and freeing changes the open handles. -/
theorem hosted_handles {c : HostCall} {r : c.Ret} {s' : HostState keySlots}
    (hcall : hosted cryptDir s c r s') (hturns : c.turns = false) : s'.handles = s.handles := by
  obtain ⟨-, rfl | ⟨devPath, method, data, -, rfl, rfl⟩⟩ := hcall
  · unfold HostCall.effect
    split
    · cases c with
      | cryptInit | cryptFree => cases hturns
      | cryptFormat | cryptKeyslotAddByVolumeKey | cryptKeyslotChangeByPassphrase
      | cryptKeyslotDestroy | runMkfs =>
        rw [HostCall.done]
        exact onDevice_handles _ _
      | cryptActivateByPassphrase cd =>
        rw [HostCall.done]
        split <;> rfl
      | _ => rfl
    · rfl
  · rfl

theorem tracks_init {names : Names} {base : List (CryptDevice × String)} {device : String}
    {answer : DeviceAnswer} {s' : HostState keySlots} (h : s.handles = base)
    (hdevice : device = names.devPath) (hcall : hosted cryptDir s (.cryptInit device) answer s') :
    (names.protocol.next .closed (.cryptInit device) answer).Tracks names.devPath base s' := by
  have heffect := hosted_effect hcall (by simp)
  obtain ⟨hsuccess, -⟩ := hcall
  obtain ⟨retval, cryptDev⟩ := answer
  subst hdevice h
  dsimp only [Names.protocol]
  by_cases hretval : retval < 0
  · have hfailed : HostCall.succeeded (.cryptInit names.devPath) ⟨retval, cryptDev⟩ = false := by
      simp [HostCall.succeeded, HostCall.shown, Call.succeeded, hretval]
    rw [if_pos hretval, heffect, HostCall.effect, if_neg (by simp [hfailed])]
    rfl
  · rw [if_neg hretval]
    cases cryptDev with
    | none =>
      have hfailed : HostCall.succeeded (.cryptInit names.devPath) ⟨retval, none⟩ = false := by
        simp [HostCall.succeeded, HostCall.shown, Call.succeeded]
      rw [heffect, HostCall.effect, if_neg (by simp [hfailed])]
      rfl
    | some cd =>
      have hdone : HostCall.succeeded (.cryptInit names.devPath) ⟨retval, some cd⟩ = true := by
        simpa [HostCall.succeeded, HostCall.shown, Call.succeeded] using hretval
      rw [heffect, HostCall.effect, if_pos hdone]
      exact ⟨rfl, beq_iff_eq.mp (hsuccess hdone).2⟩

theorem tracks_free {names : Names} {base : List (CryptDevice × String)} {g : HandlePhase}
    {held : Option CryptDevice} {s' : HostState keySlots}
    (h : g.Tracks names.devPath base s)
    (hg : g = .opened held ∨ ∃ cd, held = some cd ∧ g = .loaded cd)
    (hcall : hosted cryptDir s (.cryptFree held) () s') :
    s'.handles = base := by
  have heffect := hosted_effect hcall (by simp)
  cases held with
  | none =>
    obtain rfl | ⟨cd, hcd, -⟩ := hg
    · rw [heffect]
      exact h
    · cases hcd
  | some cd =>
    have hhandles : s.handles = (cd, names.devPath) :: base ∧ base.lookup cd = none := by
      obtain rfl | ⟨cd', hcd, rfl⟩ := hg
      · exact h
      · obtain rfl := Option.some.inj hcd
        exact h
    have hothers : ∀ handle ∈ base, handle.1 ≠ cd := by
      intro handle hmem hcd
      have := List.lookup_eq_none_iff.mp hhandles.2 handle hmem
      simp [hcd] at this
    rw [heffect]
    show s.handles.filter (fun handle => handle.1 != cd) = base
    rw [hhandles.1, List.filter_cons_of_neg (by simp)]
    exact List.filter_eq_self.mpr fun handle hmem => by simpa using hothers handle hmem

theorem tracks_next {names : Names} {base : List (CryptDevice × String)} {g : HandlePhase}
    {c : HostCall} {r : c.Ret} {s' : HostState keySlots} (h : g.Tracks names.devPath base s)
    (hallows : names.protocol.allows g c) (hcall : hosted cryptDir s c r s') :
    (names.protocol.next g c r).Tracks names.devPath base s' := by
  cases g with
  | closed =>
    cases c with
    | cryptInit device => exact tracks_init h hallows hcall
    | cryptFree | cryptFormat | cryptKeyslotAddByVolumeKey | cryptLoad
    | cryptKeyslotChangeByPassphrase | cryptActivateByPassphrase | cryptKeySlotMax
    | cryptKeySlotStatus | cryptKeyslotDestroy => exact hallows.elim
    | _ => exact (hosted_handles hcall rfl).trans h
  | opened held =>
    obtain rfl | ⟨cd, rfl, hof⟩ := hallows
    · exact tracks_free h (.inl rfl) hcall
    · cases c with
      | cryptLoad cd' _ | cryptFormat cd' _ _ _ _ =>
        obtain ⟨rfl, -⟩ := hof
        have hopen : s'.handles = (cd', names.devPath) :: base ∧ base.lookup cd' = none :=
          ⟨(hosted_handles hcall rfl).trans h.1, h.2⟩
        dsimp only [Names.protocol]
        split <;> exact hopen
      | _ => exact hof.elim
  | loaded cd =>
    obtain rfl | hon := hallows
    · exact tracks_free h (.inr ⟨cd, rfl, rfl⟩) hcall
    · have hopen : c.turns = false →
          s'.handles = (cd, names.devPath) :: base ∧ base.lookup cd = none :=
        fun hturns => ⟨(hosted_handles hcall hturns).trans h.1, h.2⟩
      cases c <;> first | exact hon.elim | exact hopen rfl

/-- While one device is served, the volumes of the others stay as they were at `start`. -/
structure Serving (cryptDir n : String) (start : HostState keySlots) (g : HandlePhase)
    (s : HostState keySlots) : Prop where
  tracks : g.Tracks (deviceNames cryptDir n).devPath start.handles s
  sound : ∀ m, start.Sound cryptDir m → s.Sound cryptDir m
  others : ∀ m, m ≠ n →
    s.world (deviceNames cryptDir m) = start.world (deviceNames cryptDir m)

theorem Serving.effect {start : HostState keySlots} (hstart : start.Sound cryptDir n)
    {g : HandlePhase} (h : Serving cryptDir n start g s) {c : HostCall} {r : c.Ret}
    (htouches : s.Touches (deviceNames cryptDir n) c)
    (hallows : c.succeeded r = true → s.allows cryptDir c = true) :
    (∀ m, start.Sound cryptDir m → (c.effect cryptDir r s).Sound cryptDir m) ∧
    (∀ m, m ≠ n → (c.effect cryptDir r s).world (deviceNames cryptDir m) =
      start.world (deviceNames cryptDir m)) ∧
    (c.shown r = none → (c.effect cryptDir r s).world (deviceNames cryptDir n) =
      s.world (deviceNames cryptDir n)) ∧
    ∀ answered, c.shown r = some answered →
      (c.effect cryptDir r s).world (deviceNames cryptDir n) =
        answered.1.effect answered.2 (s.world (deviceNames cryptDir n)) := by
  have hsound := h.sound n hstart
  unfold HostCall.effect
  cases hdone : c.succeeded r with
  | false =>
    refine ⟨h.sound, h.others, fun _ => rfl, ?_⟩
    intro answered hshown
    have hfailed : answered.1.succeeded answered.2 = false := by
      simpa [HostCall.succeeded, hshown] using hdone
    rw [Call.effect_failed hfailed]
    rfl
  | true =>
    rw [if_pos rfl]
    have hneeds := hallows hdone
    refine ⟨fun m hm => done_sound (h.sound m hm) htouches, ?_, ?_, ?_⟩
    · intro m hm
      rw [done_others hsound htouches hneeds hm]
      exact h.others m hm
    · intro hhidden
      cases c with
      | cryptFree cd => cases cd <;> rfl
      | _ => cases hhidden
    · intro answered hshown
      have hsucceeded : answered.1.succeeded answered.2 = true := by
        simpa [HostCall.succeeded, hshown] using hdone
      rw [Call.effect_succeeded hsucceeded]
      exact done_world hsound htouches hshown hneeds

/-- On the volume of its device a call of an object is a call of the volume model. -/
theorem Serving.next {start : HostState keySlots} (hstart : start.Sound cryptDir n)
    {g : HandlePhase} (h : Serving cryptDir n start g s) {c : HostCall} {r : c.Ret}
    {s' : HostState keySlots} (hallows : (deviceNames cryptDir n).protocol.allows g c)
    (hcall : hosted cryptDir s c r s') :
    Shows (deviceNames cryptDir n).protocol ruled (Serving cryptDir n start)
      (fun s => s.world (deviceNames cryptDir n)) HostCall.shown g s c r s' := by
  have htouches := touches_of_allows h.tracks hallows
  have htracks := tracks_next h.tracks hallows hcall
  have hsound := h.sound n hstart
  obtain ⟨hneeds, rfl | ⟨devPath, method, data, hoverwrites, rfl, rfl⟩⟩ := hcall
  · obtain ⟨hsounds, hothers, hhidden, hshows⟩ :=
      h.effect hstart htouches fun hdone => (hneeds hdone).1
    refine ⟨⟨htracks, hsounds, hothers⟩, hhidden, ?_⟩
    intro answered hshown
    refine ⟨fun hdone => ?_, .inl (hshows answered hshown)⟩
    have hsucceeded : c.succeeded r = true := by
      simpa [HostCall.succeeded, hshown] using hdone
    obtain ⟨hhost, htruth⟩ := hneeds hsucceeded
    exact ⟨allows_world hsound htouches hshown hhost, agrees_world hsound htouches hshown htruth⟩
  · obtain rfl : devPath = (deviceNames cryptDir n).devPath := htouches
    refine ⟨⟨htracks, fun m hm => onDevice_sound (h.sound m hm) _ _, ?_⟩,
      by simp [HostCall.shown], ?_⟩
    · intro m hm
      rw [world_onDevice, if_neg fun hdevPath => hm (devPath_injective cryptDir hdevPath)]
      exact h.others m hm
    · intro answered hshown
      obtain rfl := Option.some.inj hshown
      refine ⟨fun _ => ⟨rfl, rfl⟩, .inr ⟨⟨method, hoverwrites, rfl⟩, ?_⟩⟩
      rw [world_onDevice, if_pos rfl]
      exact ⟨rfl, rfl, rfl⟩

end Worlds

/-! ## Requests of several objects -/

/-- A request that an object has served. -/
structure ServedOn (σ : Type) where
  storage : EStoraged
  request : Request
  trace : Trace hostPorts σ
  out : Except Exception Reply

def ServesOn {σ : Type} (cryptDir : String) (env : Env hostPorts σ) (s : σ) (l : ServedOn σ)
    (s' : σ) : Prop :=
  Exec env ((l.storage.names cryptDir).request l.request) s l.trace l.out s'

section Requests
variable {keySlots : Nat} {cryptDir : String}

/-- What a request is to the volume of a device file. -/
def ServedOn.at? (cryptDir name : String) (l : ServedOn (HostState keySlots)) : Option Served :=
  if l.storage.devPath = pathAppend "/dev" name then
    some ⟨l.request,
      l.trace.filterMap
        (shownEvent HostCall.shown fun s => s.world (deviceNames cryptDir name)), l.out⟩
  else none

/-- One request: a run of the volume model on its own device, and nothing on the others. -/
theorem servesOn_world {s s' : HostState keySlots} {l : ServedOn (HostState keySlots)}
    {n : String} (hs : s.Sound cryptDir n)
    (hnames : l.storage.names cryptDir = deviceNames cryptDir n)
    (hdevPath : l.storage.devPath = pathAppend "/dev" n)
    (h : ServesOn cryptDir (hosted cryptDir) s l s') :
    (∃ served, l.at? cryptDir n = some served ∧
      Serves ruled (s.world (deviceNames cryptDir n)) served (s'.world (deviceNames cryptDir n))) ∧
    Serving cryptDir n s .closed s' := by
  rw [ServesOn, hnames] at h
  have hstart : Serving cryptDir n s .closed s := ⟨rfl, fun _ h => h, fun _ _ => rfl⟩
  obtain ⟨⟨out', hends, hexec⟩, g, hout, hend⟩ :=
    Exec.mirrors (fun g t c r t' ht => ht.next hs)
      ((deviceNames cryptDir n).mirrors_request l.request)
      ((deviceNames cryptDir n).closes_request l.request) hstart h
  obtain rfl := hends.eq_of_eq
  have hclosed : g = .closed := by
    cases hresult : l.out with
    | ok reply =>
      rw [hresult] at hout
      exact hout
    | error e =>
      rw [hresult] at hout
      exact hout
  subst hclosed
  exact ⟨⟨_, if_pos hdevPath, hexec⟩, hend⟩

section Run
variable [EstoragedConf] {start s s' : HostState keySlots}
variable {ls : List (ServedOn (HostState keySlots))}

/-- Devices that are sound at `start` stay so, whoever is served. -/
def HostState.Keeps (cryptDir : String) (start s : HostState keySlots) : Prop :=
  ∀ n, start.Sound cryptDir n → s.Sound cryptDir n

/-- By an object that was made for a device that is sound at `start`. -/
structure ServedOn.Proper (cryptDir : String) (start : HostState keySlots)
    (l : ServedOn (HostState keySlots)) : Prop where
  made : l.storage.Made
  soundFor : start.SoundFor cryptDir l.storage

theorem served_at {l : ServedOn (HostState keySlots)} (hs : start.Keeps cryptDir s)
    (hl : l.Proper cryptDir start) (h : ServesOn cryptDir (hosted cryptDir) s l s') :
    s'.handles = s.handles ∧ start.Keeps cryptDir s' ∧
    ∀ n, (l.at? cryptDir n = none →
        s'.world (deviceNames cryptDir n) = s.world (deviceNames cryptDir n)) ∧
      ∀ served, l.at? cryptDir n = some served →
        Serves ruled (s.world (deviceNames cryptDir n)) served
          (s'.world (deviceNames cryptDir n)) := by
  obtain ⟨name, hdevPath, hnames⟩ := hl.made.names_eq cryptDir
  have hsound := hs name (hl.soundFor name hdevPath)
  obtain ⟨⟨served, hat, hserves⟩, hend⟩ := servesOn_world hsound hnames hdevPath h
  refine ⟨hend.tracks, fun n hn => hend.sound n (hs n hn), fun n => ⟨?_, ?_⟩⟩
  · intro hnone
    apply hend.others
    rintro rfl
    rw [hat] at hnone
    cases hnone
  · intro served' hserved
    obtain rfl : name = n := by
      unfold ServedOn.at? at hserved
      split at hserved
      · next hdevice => exact devPath_injective cryptDir (hdevPath.symm.trans hdevice)
      · cases hserved
    obtain rfl := Option.some.inj (hat.symm.trans hserved)
    exact hserves

theorem guarded_of_run (hproper : ∀ l ∈ ls, l.Proper cryptDir s)
    (hrun : Steps (ServesOn cryptDir (hosted cryptDir)) s ls s') :
    Steps (fun t l t' => (HostState.Keeps cryptDir s t ∧ ServedOn.Proper cryptDir s l) ∧
      ServesOn cryptDir (hosted cryptDir) t l t') s ls s' := by
  apply hrun.guarded _ (fun _ hn => hn) hproper
  intro t l t' ht hl h
  exact (served_at ht hl h).2.1

theorem handles_of_run (hproper : ∀ l ∈ ls, l.Proper cryptDir s)
    (hrun : Steps (ServesOn cryptDir (hosted cryptDir)) s ls s') : s'.handles = s.handles := by
  have hkeeps : ∀ (t : HostState keySlots) (l : ServedOn (HostState keySlots))
      (t' : HostState keySlots), t.handles = s.handles →
      (s.Keeps cryptDir t ∧ l.Proper cryptDir s) ∧ ServesOn cryptDir (hosted cryptDir) t l t' →
      t'.handles = s.handles :=
    fun t l t' ht h => (served_at h.1.1 h.1.2 h.2).1.trans ht
  exact (guarded_of_run hproper hrun).invariant hkeeps rfl

/-- To one device a run of requests is the run of those at it. -/
theorem world_of_run (hproper : ∀ l ∈ ls, l.Proper cryptDir s)
    (hrun : Steps (ServesOn cryptDir (hosted cryptDir)) s ls s') (n : String) :
    Steps (Serves ruled) (s.world (deviceNames cryptDir n))
      (ls.filterMap (ServedOn.at? cryptDir n)) (s'.world (deviceNames cryptDir n)) := by
  refine Steps.project (f := fun s => s.world (deviceNames cryptDir n)) ?_ ?_
    (guarded_of_run hproper hrun)
  · intro t l t' h hnone
    exact ((served_at h.1.1 h.1.2 h.2).2.2 n).1 hnone
  · intro t l t' served h hserved
    exact ((served_at h.1.1 h.1.2 h.2).2.2 n).2 served hserved

omit [EstoragedConf] in
theorem mapped_of_serves {w w' : World} {ls : List Served} (hrun : Steps (Serves ruled) w ls w')
    (hstart : w.mounted = true → w.mapped = true) (hmounted : w'.mounted = true) :
    w'.mapped = true := by
  have hstage := run_keeps_stage ruled_contract (World.exists_at_iff.mpr hstart)
    (served_methods hrun)
  exact World.exists_at_iff.mp hstage hmounted

/-- Whatever objects the daemon has constructed, and however their requests come in between
each other: to the volume of a device file the requests of its objects are a run of the
volume model, whichever of them serves, and those of the others are nothing. It is mounted
only while it is mapped, and no request leaves a handle open. Of the host this needs only
that nothing else takes the names of the devices that are served. -/
theorem devices_apart (hmade : ∀ l ∈ ls, l.storage.Made)
    (hsound : ∀ l ∈ ls, s.SoundFor cryptDir l.storage)
    (hrun : Steps (ServesOn cryptDir (hosted cryptDir)) s ls s') :
    s'.handles = s.handles ∧ ∀ n,
      Steps (Serves ruled) (s.world (deviceNames cryptDir n))
        (ls.filterMap (ServedOn.at? cryptDir n)) (s'.world (deviceNames cryptDir n)) ∧
      (((s.world (deviceNames cryptDir n)).mounted = true →
          (s.world (deviceNames cryptDir n)).mapped = true) →
        (s'.world (deviceNames cryptDir n)).mounted = true →
          (s'.world (deviceNames cryptDir n)).mapped = true) := by
  have hproper : ∀ l ∈ ls, l.Proper cryptDir s := fun l hl => ⟨hmade l hl, hsound l hl⟩
  refine ⟨handles_of_run hproper hrun, fun n => ?_⟩
  have hvolume := world_of_run hproper hrun n
  exact ⟨hvolume, mapped_of_serves hvolume⟩

end Run

end Requests

/-! ## A host -/

section Host
variable {keySlots : Nat} {cryptDir : String}

/-- A handle that is not open yet. -/
def HostState.fresh (s : HostState keySlots) : CryptDevice := (s.handles.map Prod.fst).sum + 1

theorem HostState.fresh_closed (s : HostState keySlots) : s.deviceOf s.fresh = none := by
  apply List.lookup_eq_none_iff.mpr
  intro handle hmem
  have hle : handle.1 ≤ (s.handles.map Prod.fst).sum :=
    List.le_sum_of_mem (List.mem_map_of_mem hmem)
  have hne : s.fresh ≠ handle.1 := (Nat.lt_succ_of_le hle).ne'
  simpa using hne

def HostState.answer (cryptDir : String) (s : HostState keySlots) : (c : HostCall) → c.Ret
  | .randBytes num => ((1 : Int), ⟨List.replicate num 0, List.length_replicate⟩)
  | .cryptInit _ => (⟨0, some s.fresh⟩ : DeviceAnswer)
  | .cryptFree _ => ()
  | .cryptFormat .. => (0 : Int)
  | .cryptKeyslotAddByVolumeKey cd _ _ => ((s.slotsOf cd).idxOf none : Int)
  | .cryptLoad .. => (0 : Int)
  | .cryptKeyslotChangeByPassphrase cd _ _ passphrase _ =>
    ((s.slotsOf cd).idxOf (some passphrase) : Int)
  | .cryptActivateByPassphrase cd _ _ passphrase _ =>
    ((s.slotsOf cd).idxOf (some passphrase) : Int)
  | .cryptDeactivate _ => (0 : Int)
  | .cryptKeySlotMax _ => (keySlots : Int)
  | .cryptKeySlotStatus cd keyslot =>
    if ((s.slotsOf cd)[keyslot]?.getD none).isSome then KeyslotInfo.active else .inactive
  | .cryptKeyslotDestroy .. => (0 : Int)
  | .pathExists path => (.ok (s.mappedAt cryptDir path).isSome : Except FilesystemError Bool)
  | .runMkfs .. => (0 : Int)
  | .runFsck .. => (0 : Int)
  | .directoryExists path => (.ok (decide (path ∈ s.directories)) : Except FilesystemError Bool)
  | .createDirectory _ => (.ok true : Except FilesystemError Bool)
  | .doMount .. => (0 : Int)
  | .doUnmount _ => (0 : Int)
  | .removeDirectory _ => (.ok true : Except FilesystemError Bool)
  | .eraseDevice .. => (.ok () : Except Exception Unit)

def HostCall.refusal : (c : HostCall) → c.Ret
  | .randBytes num => ((-1 : Int), ⟨List.replicate num 0, List.length_replicate⟩)
  | .cryptInit _ => (⟨-1, none⟩ : DeviceAnswer)
  | .cryptFree _ => ()
  | .cryptKeySlotStatus .. => KeyslotInfo.invalid
  | .pathExists _ => (.error ⟨""⟩ : Except FilesystemError Bool)
  | .directoryExists _ => (.error ⟨""⟩ : Except FilesystemError Bool)
  | .createDirectory _ => (.ok false : Except FilesystemError Bool)
  | .removeDirectory _ => (.ok false : Except FilesystemError Bool)
  | .eraseDevice .. => (.error .internalFailure : Except Exception Unit)
  | .cryptFormat .. => (-1 : Int)
  | .cryptKeyslotAddByVolumeKey .. => (-1 : Int)
  | .cryptLoad .. => (-1 : Int)
  | .cryptKeyslotChangeByPassphrase .. => (-1 : Int)
  | .cryptActivateByPassphrase .. => (-1 : Int)
  | .cryptDeactivate _ => (-1 : Int)
  | .cryptKeySlotMax _ => (-1 : Int)
  | .cryptKeyslotDestroy .. => (-1 : Int)
  | .runMkfs .. => (-1 : Int)
  | .runFsck .. => (-1 : Int)
  | .doMount .. => (-1 : Int)
  | .doUnmount _ => (-1 : Int)

/-- The host on which every call succeeds whenever it can. -/
def obliging (cryptDir : String) : Responder hostPorts (HostState keySlots) := fun s c =>
  let r := if s.allows cryptDir c then s.answer cryptDir c else c.refusal
  (r, c.effect cryptDir r s)

theorem HostCall.succeeded_refusal {c : HostCall} (h : c.succeeded c.refusal = true)
    (s : HostState keySlots) : s.allows cryptDir c = true := by
  cases c <;>
    first
    | rfl
    | simp [HostCall.succeeded, HostCall.shown, HostCall.refusal, Call.succeeded, okTrue] at h

theorem HostState.agrees_answer {s : HostState keySlots} {c : HostCall}
    (h : s.allows cryptDir c = true) : s.agrees cryptDir c (s.answer cryptDir c) = true := by
  cases c with
  | cryptInit device => simp [HostState.agrees, HostState.answer, s.fresh_closed]
  | cryptKeyslotAddByVolumeKey cd =>
    simp only [HostState.allows, HostState.agrees, HostState.answer, HostState.handleIs,
      HostState.slotsOf] at h ⊢
    split at h
    · next device hdevice =>
      have hmem : none ∈ (s.devices device).keyslots.toList := by simp_all
      simp [List.getElem?_idxOf hmem]
    · cases h
  | cryptKeyslotChangeByPassphrase cd =>
    simp only [HostState.allows, HostState.agrees, HostState.answer, HostState.handleIs,
      HostState.slotsOf] at h ⊢
    split at h
    · simp
    · cases h
  | cryptKeySlotStatus cd keyslot =>
    cases hslot : ((s.slotsOf cd)[keyslot]?.getD none) <;>
      simp [HostState.agrees, HostState.answer, hslot, KeyslotInfo.working]
  | _ => simp [HostState.agrees, HostState.answer]

theorem hosted_obliging (s : HostState keySlots) (c : HostCall) :
    hosted cryptDir s c (obliging cryptDir s c).1 (obliging cryptDir s c).2 := by
  refine ⟨?_, .inl rfl⟩
  intro hdone
  by_cases hallows : s.allows cryptDir c = true
  · simp only [obliging, if_pos hallows]
    exact ⟨hallows, HostState.agrees_answer hallows⟩
  · simp only [obliging, if_neg hallows] at hdone
    exact absurd (HostCall.succeeded_refusal hdone s) hallows

def servedOn (cryptDir : String) (s : HostState keySlots) (storage : EStoraged)
    (request : Request) : ServedOn (HostState keySlots) :=
  let result := ((storage.names cryptDir).request request).run (obliging cryptDir) s
  ⟨storage, request, result.trace, result.out⟩

def hostAfter (cryptDir : String) (s : HostState keySlots) (storage : EStoraged)
    (request : Request) : HostState keySlots :=
  (((storage.names cryptDir).request request).run (obliging cryptDir) s).state

theorem servesOn_servedOn (s : HostState keySlots) (storage : EStoraged) (request : Request) :
    ServesOn cryptDir (hosted cryptDir) s (servedOn cryptDir s storage request)
      (hostAfter cryptDir s storage request) :=
  Prog.exec_run (obliging cryptDir) hosted_obliging _ s

end Host

/-- The swap space of the board has nothing to do with the daemon. -/
def boardHost : HostState 2 where
  devices := fun _ => ⟨true, #v[some [112, 119], none], true⟩
  containers := [("swap", "/dev/sda2")]
  mounts := []
  directories := []
  handles := []

theorem emmcObject_made (path : String) : (emmcObject path).Made :=
  ⟨⟨.empty, emmcHost, emmcReply path⟩,
    Delivery.constructed_iff.mpr ⟨path, _, rfl, rfl, _, _, ⟨rfl, rfl⟩, rfl⟩⟩

theorem boardHost_sound (path : String) :
    boardHost.SoundFor "/dev/mapper" (emmcObject path) := by
  intro name hname
  obtain rfl : "mmcblk0" = name := devPath_injective "/dev/mapper" hname
  constructor <;> simp [Paired, boardHost, deviceNames, pathAppend_dev]

def unlockedHost : HostState 2 :=
  hostAfter "/dev/mapper" boardHost (emmcObject "/board/emmc") unlockRequest

/-- Two objects for one device: what one unlocks the other shows as unlocked. -/
theorem devices_apart_doubled :
    (servedOn "/dev/mapper" unlockedHost (emmcObject "/board/spare") .locked).out =
      .ok (.locked false) ∧
    Steps (Serves ruled) (boardHost.world (deviceNames "/dev/mapper" "mmcblk0"))
      ([servedOn "/dev/mapper" boardHost (emmcObject "/board/emmc") unlockRequest,
        servedOn "/dev/mapper" unlockedHost (emmcObject "/board/spare") .locked].filterMap
          (ServedOn.at? "/dev/mapper" "mmcblk0"))
      ((hostAfter "/dev/mapper" unlockedHost (emmcObject "/board/spare") .locked).world
        (deviceNames "/dev/mapper" "mmcblk0")) := by
  have hproper : ∀ l ∈ [servedOn "/dev/mapper" boardHost (emmcObject "/board/emmc") unlockRequest,
      servedOn "/dev/mapper" unlockedHost (emmcObject "/board/spare") .locked],
      l.storage.Made ∧ boardHost.SoundFor "/dev/mapper" l.storage := by
    intro l hl
    simp only [List.mem_cons, List.not_mem_nil, or_false] at hl
    rcases hl with rfl | rfl
    · exact ⟨emmcObject_made "/board/emmc", boardHost_sound "/board/emmc"⟩
    · exact ⟨emmcObject_made "/board/spare", boardHost_sound "/board/spare"⟩
  exact ⟨rfl, ((devices_apart (fun l hl => (hproper l hl).1) (fun l hl => (hproper l hl).2)
    (.cons (servesOn_servedOn _ _ _) (.cons (servesOn_servedOn _ _ _) (.nil _)))).2 "mmcblk0").1⟩

end Estoraged

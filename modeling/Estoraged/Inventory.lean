import Estoraged.ObjectServer
import Estoraged.SharedHost

/-!
# The inventory on the bus

The interfaces that objects register under their object paths, and messages to them in any
order, on the host that all objects share. The constructor is taken from where it has tuned
the device; a constructor that returns has found its object path free.
-/

namespace Estoraged
open Interaction
set_option autoImplicit false

/-- `std::filesystem::path::parent_path` -/
def parentPath (path : String) : String :=
  let parent := (path.toList.reverse.dropWhile (· ≠ '/')).dropWhile (· = '/')
  if parent = [] then String.ofList (path.toList.take 1 |>.filter (· = '/'))
  else String.ofList parent.reverse

/-- A property that only the object itself may change. -/
def readOnly (value : PropertyValue) : InterfaceMember := .property value false

def InterfacePointer.interfaceName : InterfacePointer → String
  | .volumeInterface => "xyz.openbmc_project.Inventory.Item.Volume"
  | .driveInterface => "xyz.openbmc_project.Inventory.Item.Drive"
  | .embeddedLocationInterface => "xyz.openbmc_project.Inventory.Connector.Embedded"
  | .locationCodeInterface => "xyz.openbmc_project.Inventory.Decorator.LocationCode"
  | .assetInterface => "xyz.openbmc_project.Inventory.Decorator.Asset"
  | .association => "xyz.openbmc_project.Association.Definitions"

/-- What the constructor registers at an interface. -/
def EStoraged.members (storage : EStoraged) : InterfacePointer → List (String × InterfaceMember)
  | .volumeInterface =>
    [("FormatLuks", .method), ("Erase", .method), ("Lock", .method), ("Unlock", .method),
      ("ChangePassword", .method), ("Locked", .reading .locked)]
  | .driveInterface =>
    [("Capacity", readOnly (.uint64 storage.size)),
      ("PredictedMediaLifeLeftPercent", .property (.byte storage.lifeTime) true),
      ("Type", readOnly (.string
        ("xyz.openbmc_project.Inventory.Item.Drive.DriveType." ++ storage.driveType))),
      ("Protocol", readOnly (.string
        ("xyz.openbmc_project.Inventory.Item.Drive.DriveProtocol." ++ storage.driveProtocol))),
      ("Locked", .reading .locked), ("EncryptionStatus", .reading .encryptionStatus)]
  | .embeddedLocationInterface => []
  | .locationCodeInterface => [("LocationCode", readOnly (.string storage.locationCode))]
  | .assetInterface =>
    [("PartNumber", readOnly (.string storage.partNumber)),
      ("SerialNumber", readOnly (.string storage.serialNumber))]
  | .association =>
    [("Associations", readOnly (.associations
      [("chassis", "drive", parentPath storage.configPath)]))]

def EStoraged.interface (storage : EStoraged) (pointer : InterfacePointer) : DbusInterface :=
  ⟨pointer.interfaceName, storage.members pointer⟩

/-- The interfaces that the constructor adds, in its order. -/
def EStoraged.added (storage : EStoraged) : List InterfacePointer :=
  [.volumeInterface, .driveInterface, .embeddedLocationInterface] ++
    (if storage.locationCode = "" then [] else [.locationCodeInterface]) ++
    [.assetInterface, .association]

def EStoraged.withLifeTime (storage : EStoraged) (lifeTime : UInt8) : EStoraged :=
  { storage with lifeTime }

def EStoraged.registers (storage : EStoraged) (object : Nat) (pointer : InterfacePointer) :
    Registered :=
  ⟨object, pointer, storage.objectPath, storage.interface pointer⟩

/-- The interfaces of one object, with the life time its property has come to. -/
def registeredBy (lifeTimes : Nat → UInt8) (entry : Nat × EStoraged) : Registry :=
  entry.2.added.map fun pointer =>
    ⟨entry.1, pointer, entry.2.objectPath,
      (entry.2.withLifeTime (lifeTimes entry.1)).interface pointer⟩

namespace ObjectServer
variable {τ : Type} (objectServer : ObjectServer τ)

def addInterfaces (server : τ) (object : Nat) (storage : EStoraged) : τ :=
  storage.added.foldl
    (fun server pointer => objectServer.addInterface server (storage.registers object pointer))
    server

/-- The destructor. The pointer to the location code is null unless one was added. -/
def removeInterfaces (server : τ) (object : Nat) (storage : EStoraged) : τ :=
  let server := objectServer.removeInterface server object .volumeInterface
  let server := objectServer.removeInterface server object .driveInterface
  let server := objectServer.removeInterface server object .embeddedLocationInterface
  let server := objectServer.removeInterface server object .assetInterface
  let server := objectServer.removeInterface server object .association
  if storage.locationCode = "" then server
  else objectServer.removeInterface server object .locationCodeInterface

end ObjectServer

/-! ## The bus -/

/-- The live objects, what the object server keeps of them, and the host they are on. -/
structure Bus (τ σ : Type) where
  objects : List (Nat × EStoraged)
  server : τ
  host : σ

inductive Answer (σ : Type) where
  | refused
  | shown (value : PropertyValue)
  | stored (object : Nat) (value : PropertyValue)
  | served (object : Nat) (l : ServedOn σ)

inductive BusEvent (σ : Type) where
  | constructed (object : Nat) (storage : EStoraged)
  | destroyed (object : Nat)
  | answered (message : Message) (answer : Answer σ)

inductive Bus.Moves {τ σ : Type} (objectServer : ObjectServer τ) (cryptDir : String)
    (env : Env hostPorts σ) : Bus τ σ → BusEvent σ → Bus τ σ → Prop where
  | constructed {bus : Bus τ σ} {object : Nat} {storage : EStoraged} :
      (∀ entry ∈ bus.objects, entry.1 ≠ object ∧ entry.2.objectPath ≠ storage.objectPath) →
      Bus.Moves objectServer cryptDir env bus (.constructed object storage)
        { bus with
          objects := bus.objects ++ [(object, storage)]
          server := objectServer.addInterfaces bus.server object storage }
  | destroyed {bus : Bus τ σ} {object : Nat} {storage : EStoraged} :
      (object, storage) ∈ bus.objects →
      Bus.Moves objectServer cryptDir env bus (.destroyed object)
        { bus with
          objects := bus.objects.filter fun entry => entry.1 != object
          server := objectServer.removeInterfaces bus.server object storage }
  | refused {bus : Bus τ σ} {message : Message} :
      objectServer.react bus.server message = .refuses →
      Bus.Moves objectServer cryptDir env bus (.answered message .refused) bus
  | shown {bus : Bus τ σ} {message : Message} {value : PropertyValue} :
      objectServer.react bus.server message = .shows value →
      Bus.Moves objectServer cryptDir env bus (.answered message (.shown value)) bus
  | stored {bus : Bus τ σ} {path interface property : String} {value : PropertyValue}
      {object : Nat} :
      objectServer.react bus.server (.set path interface property value) = .stores object →
      Bus.Moves objectServer cryptDir env bus
        (.answered (.set path interface property value) (.stored object value))
        { bus with server := objectServer.store bus.server path interface property value }
  -- the handlers of an object have captured its `this`
  | served {bus : Bus τ σ} {message : Message} {object : Nat} {l : ServedOn σ} {host' : σ} :
      objectServer.react bus.server message = .serves object l.request →
      (object, l.storage) ∈ bus.objects →
      ServesOn cryptDir env bus.host l host' →
      Bus.Moves objectServer cryptDir env bus (.answered message (.served object l))
        { bus with host := host' }

/-- The life times shown after these events: the one at construction, or the last one set. -/
def lifeTimeNext {σ : Type} (lifeTimes : Nat → UInt8) : BusEvent σ → Nat → UInt8
  | .constructed object storage => Function.update lifeTimes object storage.lifeTime
  | .answered _ (.stored object (.byte value)) => Function.update lifeTimes object value
  | _ => lifeTimes

def lifeTimesAfter {σ : Type} (events : List (BusEvent σ)) : Nat → UInt8 :=
  events.foldl lifeTimeNext fun _ => 0

/-! ## What is registered -/

/-- The server holds the interfaces of the live objects and no others. -/
structure Bus.Shows {τ σ : Type} (registered : τ → Registry) (lifeTimes : Nat → UInt8)
    (bus : Bus τ σ) : Prop where
  server : registered bus.server = bus.objects.flatMap (registeredBy lifeTimes)
  objects : (bus.objects.map Prod.fst).Nodup
  paths : (bus.objects.map fun entry => entry.2.objectPath).Nodup

section Registered
variable {lifeTimes : Nat → UInt8} {object : Nat} {storage : EStoraged}

theorem InterfacePointer.interfaceName_inj {pointer pointer' : InterfacePointer}
    (h : pointer.interfaceName = pointer'.interfaceName) : pointer = pointer' := by
  cases pointer <;> cases pointer' <;> first | rfl | simp [interfaceName] at h

theorem EStoraged.added_nodup (storage : EStoraged) : storage.added.Nodup := by
  unfold added
  split_ifs <;> decide

theorem registeredBy_congr {lifeTimes' : Nat → UInt8} {entry : Nat × EStoraged}
    (h : lifeTimes entry.1 = lifeTimes' entry.1) :
    registeredBy lifeTimes entry = registeredBy lifeTimes' entry := by
  unfold registeredBy
  rw [h]

theorem mem_registeredBy {entry : Nat × EStoraged} {registered : Registered} :
    registered ∈ registeredBy lifeTimes entry ↔ ∃ pointer ∈ entry.2.added,
      registered = ⟨entry.1, pointer, entry.2.objectPath,
        (entry.2.withLifeTime (lifeTimes entry.1)).interface pointer⟩ := by
  unfold registeredBy
  rw [List.mem_map]
  constructor
  · rintro ⟨pointer, hpointer, rfl⟩
    exact ⟨pointer, hpointer, rfl⟩
  · rintro ⟨pointer, hpointer, rfl⟩
    exact ⟨pointer, hpointer, rfl⟩

section Contract
variable {τ : Type} {objectServer : ObjectServer τ} {registered : τ → Registry}
variable (hserver : ServerContract objectServer registered)
include hserver

/-- Interfaces with different names are added one after another. -/
theorem registered_adding (pointers : List InterfacePointer) {server : τ}
    (hnodup : pointers.Nodup)
    (hnew : ∀ entry ∈ registered server, entry.path = storage.objectPath →
      ∀ pointer ∈ pointers, entry.interface.name ≠ pointer.interfaceName) :
    registered (pointers.foldl (fun server pointer =>
      objectServer.addInterface server (storage.registers object pointer)) server) =
      registered server ++ pointers.map (storage.registers object) := by
  induction pointers generalizing server with
  | nil => simp
  | cons pointer pointers ih =>
    obtain ⟨hpointer, hnodup⟩ := List.nodup_cons.mp hnodup
    have hadded := hserver.addInterface server (storage.registers object pointer)
      fun entry hentry hpath => hnew entry hentry hpath pointer List.mem_cons_self
    rw [List.foldl_cons, ih hnodup, hadded, List.append_assoc]
    · rfl
    · rw [hadded]
      intro entry hentry hpath pointer' hpointer'
      rcases List.mem_append.mp hentry with hold | hnow
      · exact hnew entry hold hpath pointer' (List.mem_cons_of_mem _ hpointer')
      · obtain rfl := List.mem_singleton.mp hnow
        intro hname
        rw [InterfacePointer.interfaceName_inj hname] at hpointer
        exact hpointer hpointer'

theorem registered_addInterfaces {server : τ}
    (hfree : ∀ entry ∈ registered server, entry.path ≠ storage.objectPath) :
    registered (objectServer.addInterfaces server object storage) =
      registered server ++ storage.added.map (storage.registers object) := by
  apply registered_adding hserver storage.added storage.added_nodup
  intro entry hentry hpath
  exact absurd hpath (hfree entry hentry)

theorem registered_removeInterfaces {server : τ} :
    registered (objectServer.removeInterfaces server object storage) =
      (registered server).filter fun entry =>
        !(entry.object == object && storage.added.contains entry.pointer) := by
  unfold ObjectServer.removeInterfaces EStoraged.added
  split_ifs with hcode
  · simp only [hserver.removeInterface, Registry.without, List.filter_filter]
    congr 1
    funext entry
    cases entry.pointer <;> cases entry.object == object <;> rfl
  · simp only [hserver.removeInterface, Registry.without, List.filter_filter]
    congr 1
    funext entry
    cases entry.pointer <;> cases entry.object == object <;> rfl

end Contract

/-- The destructor leaves nothing of its object, and all of the others. -/
theorem filter_registered {objects : List (Nat × EStoraged)}
    (hsame : ∀ entry ∈ objects, entry.1 = object → entry.2 = storage) :
    ((objects.flatMap (registeredBy lifeTimes)).filter fun entry =>
        !(entry.object == object && storage.added.contains entry.pointer)) =
      (objects.filter fun entry => entry.1 != object).flatMap (registeredBy lifeTimes) := by
  induction objects with
  | nil => rfl
  | cons entry objects ih =>
    obtain ⟨hhead, htail⟩ := List.forall_mem_cons.mp hsame
    rw [List.flatMap_cons, List.filter_append, ih htail]
    by_cases hobject : entry.1 = object
    · rw [List.filter_cons_of_neg (by simp [hobject]), List.filter_eq_nil_iff.mpr, List.nil_append]
      intro registered hmem
      obtain ⟨pointer, hpointer, rfl⟩ := mem_registeredBy.mp hmem
      rw [hhead hobject] at hpointer
      simp [hobject, hpointer]
    · rw [List.filter_cons_of_pos (by simp [hobject]), List.flatMap_cons,
        List.filter_eq_self.mpr]
      intro registered hmem
      obtain ⟨pointer, hpointer, rfl⟩ := mem_registeredBy.mp hmem
      simp [hobject]

/-- Only the life time can be set. -/
theorem writable_member {pointer : InterfacePointer} {name : String} {old : PropertyValue}
    (h : (name, .property old true) ∈ storage.members pointer) :
    pointer = .driveInterface ∧ name = "PredictedMediaLifeLeftPercent" ∧
      old = .byte storage.lifeTime := by
  cases pointer <;> simp_all [EStoraged.members, readOnly]

theorem mem_of_lookup {α β : Type} [BEq α] [LawfulBEq α] {l : List (α × β)} {a : α} {b : β}
    (h : l.lookup a = some b) : (a, b) ∈ l := by
  obtain ⟨before, after, rfl, -⟩ := List.lookup_eq_some_iff.mp h
  exact List.mem_append_right _ List.mem_cons_self

theorem find?_unique {α : Type} {p : α → Bool} {l : List α} {a : α} (hmem : a ∈ l)
    (ha : p a = true) (honly : ∀ b ∈ l, p b = true → b = a) : l.find? p = some a := by
  cases hfind : l.find? p with
  | none => exact absurd ha (List.find?_eq_none.mp hfind a hmem)
  | some b => rw [honly b (List.mem_of_find?_eq_some hfind) (List.find?_some hfind)]

/-- Storing a life time is storing it with its object. -/
theorem store_registeredBy (value : UInt8) : Registry.store
    (registeredBy lifeTimes (object, storage)) storage.objectPath
      "xyz.openbmc_project.Inventory.Item.Drive" "PredictedMediaLifeLeftPercent" (.byte value) =
    registeredBy (Function.update lifeTimes object value) (object, storage) := by
  unfold Registry.store registeredBy
  rw [List.map_map]
  apply List.map_congr_left
  intro pointer hpointer
  cases pointer <;> simp [EStoraged.interface, EStoraged.members, InterfacePointer.interfaceName,
    DbusInterface.store, EStoraged.withLifeTime, readOnly]

theorem store_elsewhere {registry : Registry} {path interface property : String}
    {value : PropertyValue} (h : ∀ registered ∈ registry, registered.path ≠ path) :
    registry.store path interface property value = registry := by
  calc registry.store path interface property value = registry.map id := by
        apply List.map_congr_left
        intro registered hmem
        apply if_neg
        intro hfits
        exact h registered hmem hfits.1
    _ = registry := List.map_id registry

end Registered

section Shows
variable {τ σ : Type} {objectServer : ObjectServer τ} {registered : τ → Registry}
variable {lifeTimes : Nat → UInt8} {bus : Bus τ σ}

theorem Bus.Shows.same_object (h : bus.Shows registered lifeTimes)
    {entry entry' : Nat × EStoraged} (hmem : entry ∈ bus.objects) (hmem' : entry' ∈ bus.objects)
    (hobject : entry.1 = entry'.1) : entry = entry' :=
  List.inj_on_of_nodup_map h.objects hmem hmem' hobject

theorem Bus.Shows.same_path (h : bus.Shows registered lifeTimes)
    {entry entry' : Nat × EStoraged} (hmem : entry ∈ bus.objects) (hmem' : entry' ∈ bus.objects)
    (hpath : entry.2.objectPath = entry'.2.objectPath) : entry = entry' :=
  List.inj_on_of_nodup_map h.paths hmem hmem' hpath

theorem Bus.Shows.mem_server (h : bus.Shows registered lifeTimes) {registration : Registered} :
    registration ∈ registered bus.server ↔ ∃ entry ∈ bus.objects, ∃ pointer ∈ entry.2.added,
      registration = ⟨entry.1, pointer, entry.2.objectPath,
        (entry.2.withLifeTime (lifeTimes entry.1)).interface pointer⟩ := by
  rw [h.server, List.mem_flatMap]
  simp only [mem_registeredBy]

/-- A message finds the one object that has its path. -/
theorem Bus.Shows.member?_iff (h : bus.Shows registered lifeTimes)
    {path interface name : String} {object : Nat} {member : InterfaceMember} :
    (registered bus.server).member? path interface name = some (object, member) ↔
      ∃ storage, (object, storage) ∈ bus.objects ∧ storage.objectPath = path ∧
        ∃ pointer ∈ storage.added, pointer.interfaceName = interface ∧
          ((storage.withLifeTime (lifeTimes object)).members pointer).lookup name =
            some member := by
  unfold Registry.member?
  constructor
  · intro hmember
    obtain ⟨registration, hfind, hmap⟩ := Option.bind_eq_some_iff.mp hmember
    obtain ⟨⟨object', storage⟩, hentry, pointer, hpointer, rfl⟩ :=
      h.mem_server.mp (List.mem_of_find?_eq_some hfind)
    obtain ⟨member', hlookup, hsame⟩ := Option.map_eq_some_iff.mp hmap
    obtain ⟨rfl, rfl⟩ := Prod.mk.inj hsame
    have hfits := List.find?_some hfind
    obtain ⟨hpath, hname⟩ := Bool.and_eq_true_iff.mp hfits
    exact ⟨storage, hentry, beq_iff_eq.mp hpath, pointer, hpointer, beq_iff_eq.mp hname, hlookup⟩
  · rintro ⟨storage, hentry, rfl, pointer, hpointer, rfl, hlookup⟩
    have hmem := h.mem_server.mpr ⟨(object, storage), hentry, pointer, hpointer, rfl⟩
    rw [find?_unique hmem, Option.bind_some]
    · dsimp only [EStoraged.interface]
      rw [hlookup]
      rfl
    · exact Bool.and_eq_true_iff.mpr ⟨beq_self_eq_true _, beq_self_eq_true _⟩
    · intro registration hregistration hfits
      obtain ⟨entry, hentry', pointer', hpointer', rfl⟩ := h.mem_server.mp hregistration
      obtain ⟨hpath, hname⟩ := Bool.and_eq_true_iff.mp hfits
      obtain rfl := h.same_path hentry' hentry (beq_iff_eq.mp hpath)
      obtain rfl := InterfacePointer.interfaceName_inj (beq_iff_eq.mp hname)
      rfl

/-- A set that is carried out sets a life time. -/
theorem Bus.Shows.stores (h : bus.Shows registered lifeTimes) {path interface property : String}
    {value : PropertyValue} {object : Nat}
    (hstores : (registered bus.server).react (.set path interface property value) =
      .stores object) :
    ∃ storage percent, (object, storage) ∈ bus.objects ∧ path = storage.objectPath ∧
      interface = "xyz.openbmc_project.Inventory.Item.Drive" ∧
      property = "PredictedMediaLifeLeftPercent" ∧ value = .byte percent := by
  simp only [Registry.react] at hstores
  split at hstores
  · next object' old hmember =>
    split at hstores
    · next htype =>
      obtain rfl := Reaction.stores.inj hstores
      obtain ⟨storage, hlive, rfl, pointer, -, rfl, hlookup⟩ := h.member?_iff.mp hmember
      obtain ⟨rfl, rfl, rfl⟩ := writable_member (mem_of_lookup hlookup)
      cases value with
      | byte percent => exact ⟨storage, percent, hlive, rfl, rfl, rfl, rfl⟩
      | uint64 _ | string _ | associations _ => cases htype
    · cases hstores
  · cases hstores

section Contract
variable (hserver : ServerContract objectServer registered)
include hserver

theorem Bus.Shows.start (host : σ) (lifeTimes : Nat → UInt8) :
    Bus.Shows registered lifeTimes ⟨[], objectServer.empty, host⟩ where
  server := hserver.empty
  objects := List.nodup_nil
  paths := List.nodup_nil

theorem Bus.Shows.constructed (h : bus.Shows registered lifeTimes) {object : Nat}
    {storage : EStoraged}
    (hnew : ∀ entry ∈ bus.objects, entry.1 ≠ object ∧ entry.2.objectPath ≠ storage.objectPath) :
    Bus.Shows registered (Function.update lifeTimes object storage.lifeTime)
      { bus with
        objects := bus.objects ++ [(object, storage)]
        server := objectServer.addInterfaces bus.server object storage } := by
  have hfree : ∀ entry ∈ registered bus.server, entry.path ≠ storage.objectPath := by
    intro registration hmem
    obtain ⟨entry, hentry, pointer, -, rfl⟩ := h.mem_server.mp hmem
    exact (hnew entry hentry).2
  constructor
  · dsimp only
    rw [List.flatMap_append, List.flatMap_singleton, registered_addInterfaces hserver hfree,
      h.server]
    congr 1
    · apply List.flatMap_congr
      intro entry hentry
      apply registeredBy_congr
      rw [Function.update_of_ne (hnew entry hentry).1]
    · rw [registeredBy, Function.update_self]
      rfl
  · dsimp only
    rw [List.map_append, List.map_singleton, ← List.concat_eq_append]
    apply List.Nodup.concat _ h.objects
    intro hmem
    obtain ⟨entry, hentry, hobject⟩ := List.mem_map.mp hmem
    exact (hnew entry hentry).1 hobject
  · dsimp only
    rw [List.map_append, List.map_singleton, ← List.concat_eq_append]
    apply List.Nodup.concat _ h.paths
    intro hmem
    obtain ⟨entry, hentry, hpath⟩ := List.mem_map.mp hmem
    exact (hnew entry hentry).2 hpath

theorem Bus.Shows.destroyed (h : bus.Shows registered lifeTimes) {object : Nat}
    {storage : EStoraged} (hlive : (object, storage) ∈ bus.objects) :
    Bus.Shows registered lifeTimes
      { bus with
        objects := bus.objects.filter fun entry => entry.1 != object
        server := objectServer.removeInterfaces bus.server object storage } := by
  have hkept : (bus.objects.filter fun entry => entry.1 != object).Sublist bus.objects :=
    List.filter_sublist
  constructor
  · dsimp only
    rw [registered_removeInterfaces hserver, h.server]
    apply filter_registered
    intro entry hentry hobject
    rw [h.same_object hentry hlive hobject]
  · exact h.objects.sublist (hkept.map _)
  · exact h.paths.sublist (hkept.map _)

theorem Bus.Shows.stored (h : bus.Shows registered lifeTimes) {object : Nat}
    {storage : EStoraged} (hlive : (object, storage) ∈ bus.objects) (percent : UInt8) :
    Bus.Shows registered (Function.update lifeTimes object percent)
      { bus with
        server := objectServer.store bus.server storage.objectPath
          "xyz.openbmc_project.Inventory.Item.Drive" "PredictedMediaLifeLeftPercent"
          (.byte percent) } := by
  refine ⟨?_, h.objects, h.paths⟩
  dsimp only
  have hstore : ∀ entry ∈ bus.objects, Registry.store (registeredBy lifeTimes entry)
      storage.objectPath "xyz.openbmc_project.Inventory.Item.Drive"
        "PredictedMediaLifeLeftPercent" (.byte percent) =
      registeredBy (Function.update lifeTimes object percent) entry := by
    intro entry hentry
    by_cases hobject : entry.1 = object
    · obtain rfl := h.same_object hentry hlive hobject
      exact store_registeredBy percent
    · rw [store_elsewhere, registeredBy_congr]
      · rw [Function.update_of_ne hobject]
      · intro registration hmem hpath
        obtain ⟨pointer, -, rfl⟩ := mem_registeredBy.mp hmem
        apply hobject
        rw [h.same_path hentry hlive hpath]
  calc registered (objectServer.store bus.server storage.objectPath _ _ _)
      = bus.objects.flatMap fun entry =>
          Registry.store (registeredBy lifeTimes entry) storage.objectPath _ _ _ := by
        rw [hserver.store, h.server, Registry.store, List.map_flatMap]
        rfl
    _ = _ := List.flatMap_congr hstore

theorem Bus.Moves.shows {cryptDir : String} {env : Env hostPorts σ} (past : List (BusEvent σ))
    (bus : Bus τ σ) (event : BusEvent σ) (bus' : Bus τ σ)
    (h : bus.Shows registered (lifeTimesAfter past))
    (hmoves : Bus.Moves objectServer cryptDir env bus event bus') :
    bus'.Shows registered (lifeTimesAfter (past ++ [event])) := by
  have hnext : lifeTimesAfter (past ++ [event]) = lifeTimeNext (lifeTimesAfter past) event := by
    unfold lifeTimesAfter
    rw [List.foldl_append, List.foldl_cons, List.foldl_nil]
  rw [hnext]
  cases hmoves with
  | constructed hnew => exact h.constructed hserver hnew
  | destroyed hlive => exact h.destroyed hserver hlive
  | refused | shown => exact h
  | stored hstores =>
    rw [hserver.react] at hstores
    obtain ⟨storage, percent, hlive, rfl, rfl, rfl, rfl⟩ := h.stores hstores
    exact h.stored hserver hlive percent
  | served => exact ⟨h.server, h.objects, h.paths⟩

end Contract

end Shows

section Runs
variable {τ σ : Type} {objectServer : ObjectServer τ} {registered : τ → Registry}
variable {cryptDir : String} {env : Env hostPorts σ} {host : σ}
variable {events : List (BusEvent σ)} {bus : Bus τ σ}

/-- The empty bus. -/
def Bus.start (objectServer : ObjectServer τ) (host : σ) : Bus τ σ := ⟨[], objectServer.empty, host⟩

theorem shows_of_run (hserver : ServerContract objectServer registered)
    (hrun : Steps (Bus.Moves objectServer cryptDir env) (.start objectServer host) events bus) :
    bus.Shows registered (lifeTimesAfter events) :=
  hrun.from_start (Bus.Shows.start hserver host _) (Bus.Moves.shows hserver)

/-- Whatever objects come and go and whatever is set, the bus answers for the live objects
and for nothing else: under the path of one, with what its constructor registered, the life
time being the last one set. -/
theorem bus_answers_for_live (hserver : ServerContract objectServer registered)
    (hrun : Steps (Bus.Moves objectServer cryptDir env) (.start objectServer host) events bus)
    (path interface name : String) (object : Nat) (member : InterfaceMember) :
    objectServer.member? bus.server path interface name = some (object, member) ↔
      ∃ storage, (object, storage) ∈ bus.objects ∧ storage.objectPath = path ∧
        ∃ pointer ∈ storage.added, pointer.interfaceName = interface ∧
          ((storage.withLifeTime (lifeTimesAfter events object)).members pointer).lookup name =
            some member := by
  rw [hserver.member?]
  exact (shows_of_run hserver hrun).member?_iff

/-! ## Requests -/

def BusEvent.served? : BusEvent σ → Option (ServedOn σ)
  | .answered _ (.served _ l) => some l
  | _ => none

/-- To the host a run of the bus is a run of the requests that were served. -/
theorem host_of_run {start : Bus τ σ}
    (hrun : Steps (Bus.Moves objectServer cryptDir env) start events bus) :
    Steps (ServesOn cryptDir env) start.host (events.filterMap BusEvent.served?) bus.host := by
  refine Steps.project (f := Bus.host) ?_ ?_ hrun
  · intro bus event bus' hmoves hother
    cases hmoves with
    | constructed | destroyed | refused | shown | stored => rfl
    | served => cases hother
  · intro bus event bus' l hmoves hserved
    cases hmoves with
    | constructed | destroyed | refused | shown | stored => cases hserved
    | served _ _ hserves =>
      obtain rfl := Option.some.inj hserved
      exact hserves

def Message.path : Message → String
  | .call path _ _ | .get path _ _ | .set path _ _ _ => path

/-- What a message asks of the object it is for. -/
inductive Message.Asks : Message → Request → Prop where
  | method (path : String) (op : Op) :
      Message.Asks (.call path "xyz.openbmc_project.Inventory.Item.Volume" op) (.method op)
  | volumeLocked (path : String) :
      Message.Asks (.get path "xyz.openbmc_project.Inventory.Item.Volume" "Locked") .locked
  | driveLocked (path : String) :
      Message.Asks (.get path "xyz.openbmc_project.Inventory.Item.Drive" "Locked") .locked
  | encryptionStatus (path : String) :
      Message.Asks (.get path "xyz.openbmc_project.Inventory.Item.Drive" "EncryptionStatus")
        .encryptionStatus

theorem Op.memberName_lookup (op : Op) (storage : EStoraged) :
    (storage.members .volumeInterface).lookup op.memberName = some .method := by
  cases op <;> rfl

theorem method_member {storage : EStoraged} {pointer : InterfacePointer} {name : String}
    (h : (name, .method) ∈ storage.members pointer) : pointer = .volumeInterface := by
  cases pointer <;> simp_all [EStoraged.members, readOnly]

theorem reading_member {storage : EStoraged} {pointer : InterfacePointer} {name : String}
    {request : Request} (h : (name, .reading request) ∈ storage.members pointer) (path : String) :
    Message.Asks (.get path pointer.interfaceName name) request := by
  cases pointer <;> simp [EStoraged.members, readOnly] at h
  · obtain ⟨rfl, rfl⟩ := h
    exact .volumeLocked path
  · rcases h with ⟨rfl, rfl⟩ | ⟨rfl, rfl⟩
    · exact .driveLocked path
    · exact .encryptionStatus path

theorem Bus.Shows.asks {lifeTimes : Nat → UInt8} (h : bus.Shows registered lifeTimes)
    {message : Message} {object : Nat} {request : Request}
    (hserves : (registered bus.server).react message = .serves object request) :
    ∃ storage, (object, storage) ∈ bus.objects ∧ message.path = storage.objectPath ∧
      message.Asks request := by
  cases message with
  | call path interface op =>
    simp only [Registry.react] at hserves
    split at hserves
    · next object' hmember =>
      obtain ⟨rfl, rfl⟩ := Reaction.serves.inj hserves
      obtain ⟨storage, hlive, rfl, pointer, -, rfl, hlookup⟩ := h.member?_iff.mp hmember
      obtain rfl := method_member (mem_of_lookup hlookup)
      exact ⟨storage, hlive, rfl, .method _ op⟩
    · cases hserves
  | get path interface property =>
    simp only [Registry.react] at hserves
    split at hserves
    · cases hserves
    · next object' request' hmember =>
      obtain ⟨rfl, rfl⟩ := Reaction.serves.inj hserves
      obtain ⟨storage, hlive, rfl, pointer, -, rfl, hlookup⟩ := h.member?_iff.mp hmember
      exact ⟨storage, hlive, rfl, reading_member (mem_of_lookup hlookup) _⟩
    · cases hserves
  | set path interface property value =>
    simp only [Registry.react] at hserves
    split at hserves
    · split at hserves <;> cases hserves
    · cases hserves

theorem Bus.Shows.reaches {lifeTimes : Nat → UInt8} (h : bus.Shows registered lifeTimes)
    {object : Nat} {storage : EStoraged} (hlive : (object, storage) ∈ bus.objects) (op : Op) :
    (registered bus.server).react
        (.call storage.objectPath "xyz.openbmc_project.Inventory.Item.Volume" op) =
      .serves object (.method op) := by
  have hmember : (registered bus.server).member? storage.objectPath
      "xyz.openbmc_project.Inventory.Item.Volume" op.memberName = some (object, .method) :=
    h.member?_iff.mpr
      ⟨storage, hlive, rfl, .volumeInterface, List.mem_cons_self, rfl, op.memberName_lookup _⟩
  simp only [Registry.react, hmember]

/-- Every live object was constructed, and what an object served was asked of it. -/
structure Addressed (registered : τ → Registry) (past : List (BusEvent σ)) (bus : Bus τ σ) :
    Prop where
  shows : bus.Shows registered (lifeTimesAfter past)
  live : ∀ object storage, (object, storage) ∈ bus.objects → .constructed object storage ∈ past
  asked : ∀ message object l, .answered message (.served object l) ∈ past →
    .constructed object l.storage ∈ past ∧ message.path = l.storage.objectPath ∧
      message.Asks l.request

theorem Addressed.step (hserver : ServerContract objectServer registered)
    (past : List (BusEvent σ)) (bus : Bus τ σ) (event : BusEvent σ) (bus' : Bus τ σ)
    (h : Addressed registered past bus)
    (hmoves : Bus.Moves objectServer cryptDir env bus event bus') :
    Addressed registered (past ++ [event]) bus' := by
  refine ⟨hmoves.shows hserver past bus event bus' h.shows, ?_, ?_⟩
  · intro object storage hlive
    have hold : (object, storage) ∈ bus.objects → .constructed object storage ∈ past ++ [event] :=
      fun hmem => List.mem_append_left _ (h.live object storage hmem)
    cases hmoves with
    | constructed =>
      rcases List.mem_append.mp hlive with hmem | hmem
      · exact hold hmem
      · obtain ⟨rfl, rfl⟩ := Prod.mk.inj (List.mem_singleton.mp hmem)
        exact List.mem_append_right _ List.mem_cons_self
    | destroyed => exact hold (List.mem_filter.mp hlive).1
    | refused | shown | stored | served => exact hold hlive
  · intro message object l hmem
    rcases List.mem_append.mp hmem with hpast | hnow
    · obtain ⟨hconstructed, hasks⟩ := h.asked message object l hpast
      exact ⟨List.mem_append_left _ hconstructed, hasks⟩
    · obtain rfl := List.mem_singleton.mp hnow
      cases hmoves with
      | served hreact hobject _ =>
        rw [hserver.react] at hreact
        obtain ⟨storage, hlive, hasks⟩ := h.shows.asks hreact
        obtain ⟨-, rfl⟩ := Prod.mk.inj (h.shows.same_object hlive hobject rfl)
        exact ⟨List.mem_append_left _ (h.live object _ hobject), hasks⟩

theorem addressed_of_run (hserver : ServerContract objectServer registered)
    (hrun : Steps (Bus.Moves objectServer cryptDir env) (.start objectServer host) events bus) :
    Addressed registered events bus := by
  refine hrun.from_start ⟨.start hserver host _, ?_, ?_⟩ (Addressed.step hserver)
  · intro object storage hlive
    cases hlive
  · intro message object l hmem
    cases hmem

end Runs

section Devices
variable [EstoragedConf] {τ : Type} {objectServer : ObjectServer τ} {registered : τ → Registry}
variable {keySlots : Nat} {cryptDir : String} {host : HostState keySlots}
variable {events : List (BusEvent (HostState keySlots))} {bus : Bus τ (HostState keySlots)}

/-- Objects that the daemon has made come and go, and methods and readings for them come in
between each other in any order. What an object serves was asked at its own path, and every
method at the path of a live object gets to it. The volume of a device file goes through a
run of what was asked of its objects, and keeps its state from one of them to the next: it
is never mounted without being mapped. -/
theorem volumes_apart (hserver : ServerContract objectServer registered)
    (hmade : ∀ object storage, .constructed object storage ∈ events → storage.Made)
    (hsound : ∀ object storage, .constructed object storage ∈ events →
      host.SoundFor cryptDir storage)
    (hrun : Steps (Bus.Moves objectServer cryptDir (hosted cryptDir)) (.start objectServer host)
      events bus) :
    (∀ message object l, .answered message (.served object l) ∈ events →
      .constructed object l.storage ∈ events ∧ message.path = l.storage.objectPath ∧
        message.Asks l.request) ∧
    (∀ object storage, (object, storage) ∈ bus.objects → ∀ op,
      objectServer.react bus.server
          (.call storage.objectPath "xyz.openbmc_project.Inventory.Item.Volume" op) =
        .serves object (.method op)) ∧
    ∀ name,
      Steps (Serves ruled) (host.world (deviceNames cryptDir name))
        ((events.filterMap BusEvent.served?).filterMap (ServedOn.at? cryptDir name))
        (bus.host.world (deviceNames cryptDir name)) ∧
      (((host.world (deviceNames cryptDir name)).mounted = true →
          (host.world (deviceNames cryptDir name)).mapped = true) →
        (bus.host.world (deviceNames cryptDir name)).mounted = true →
          (bus.host.world (deviceNames cryptDir name)).mapped = true) := by
  have haddressed := addressed_of_run hserver hrun
  refine ⟨haddressed.asked, ?_, ?_⟩
  · intro object storage hlive op
    rw [hserver.react]
    exact haddressed.shows.reaches hlive op
  · intro name
    have hproper : ∀ l ∈ events.filterMap BusEvent.served?, l.Proper cryptDir host := by
      intro l hl
      obtain ⟨event, hevent, hserved⟩ := List.mem_filterMap.mp hl
      obtain ⟨message, object, rfl⟩ : ∃ message object, event =
          .answered message (.served object l) := by
        unfold BusEvent.served? at hserved
        split at hserved
        · next message object _ =>
          obtain rfl := Option.some.inj hserved
          exact ⟨message, object, rfl⟩
        · cases hserved
      have hconstructed := (haddressed.asked _ _ _ hevent).1
      exact ⟨hmade _ _ hconstructed, hsound _ _ hconstructed⟩
    have hvolume := world_of_run hproper (host_of_run hrun) name
    exact ⟨hvolume, mapped_of_serves hvolume⟩

end Devices

/-! ## A bus with one object -/

def emmcBus : Bus Registry (HostState 2) :=
  { Bus.start registryServer boardHost with
    objects := [(0, emmcObject "/board/emmc")]
    server := registryServer.addInterfaces [] 0 (emmcObject "/board/emmc") }

def unlockMessage : Message :=
  .call "/xyz/openbmc_project/inventory/storage/mmcblk0"
    "xyz.openbmc_project.Inventory.Item.Volume" (.unlock [112, 119])

def lockedMessage : Message :=
  .get "/xyz/openbmc_project/inventory/storage/mmcblk0"
    "xyz.openbmc_project.Inventory.Item.Volume" "Locked"

def lifeTimeMessage : Message :=
  .set "/xyz/openbmc_project/inventory/storage/mmcblk0"
    "xyz.openbmc_project.Inventory.Item.Drive" "PredictedMediaLifeLeftPercent" (.byte 90)

theorem emmcBus_constructed {env : Env hostPorts (HostState 2)} :
    Bus.Moves registryServer "/dev/mapper" env (.start registryServer boardHost)
      (.constructed 0 (emmcObject "/board/emmc")) emmcBus := by
  apply Bus.Moves.constructed
  intro entry hentry
  cases hentry

/-- Its life time was set. -/
def emmcBusSet : Bus Registry (HostState 2) :=
  { emmcBus with
    server := emmcBus.server.store "/xyz/openbmc_project/inventory/storage/mmcblk0"
      "xyz.openbmc_project.Inventory.Item.Drive" "PredictedMediaLifeLeftPercent" (.byte 90) }

theorem bus_answers_for_live_set :
    registryServer.member? emmcBusSet.server "/xyz/openbmc_project/inventory/storage/mmcblk0"
        "xyz.openbmc_project.Inventory.Item.Drive" "PredictedMediaLifeLeftPercent" =
        some (0, .property (.byte 90) true) ↔
      ∃ storage, (0, storage) ∈ emmcBusSet.objects ∧
        storage.objectPath = "/xyz/openbmc_project/inventory/storage/mmcblk0" ∧
        ∃ pointer ∈ storage.added,
          pointer.interfaceName = "xyz.openbmc_project.Inventory.Item.Drive" ∧
          ((storage.withLifeTime (lifeTimesAfter (σ := HostState 2)
              [.constructed 0 (emmcObject "/board/emmc"),
                .answered lifeTimeMessage (.stored 0 (.byte 90))] 0)).members pointer).lookup
            "PredictedMediaLifeLeftPercent" = some (.property (.byte 90) true) := by
  have hstored : Bus.Moves registryServer "/dev/mapper" (hosted "/dev/mapper") emmcBus
      (.answered lifeTimeMessage (.stored 0 (.byte 90))) emmcBusSet := .stored rfl
  exact bus_answers_for_live registryServer_contract
    (.cons emmcBus_constructed (.cons hstored (.nil _))) _ _ _ _ _

/-- The object of the unlocked device was destroyed, and another one made for it. -/
def spareBus : Bus Registry (HostState 2) where
  objects := [(1, emmcObject "/board/spare")]
  server := registryServer.addInterfaces
    (registryServer.removeInterfaces emmcBus.server 0 (emmcObject "/board/emmc")) 1
    (emmcObject "/board/spare")
  host := unlockedHost

def spareEvents : List (BusEvent (HostState 2)) :=
  [.constructed 0 (emmcObject "/board/emmc"),
    .answered unlockMessage (.served 0
      (servedOn "/dev/mapper" boardHost (emmcObject "/board/emmc") unlockRequest)),
    .destroyed 0,
    .constructed 1 (emmcObject "/board/spare"),
    .answered lockedMessage (.served 1
      (servedOn "/dev/mapper" unlockedHost (emmcObject "/board/spare") .locked))]

theorem spareBus_run : Steps (Bus.Moves registryServer "/dev/mapper" (hosted "/dev/mapper"))
    (.start registryServer boardHost) spareEvents
    { spareBus with
      host := hostAfter "/dev/mapper" unlockedHost (emmcObject "/board/spare") .locked } := by
  have hunlocked : Bus.Moves registryServer "/dev/mapper" (hosted "/dev/mapper") emmcBus
      (.answered unlockMessage (.served 0
        (servedOn "/dev/mapper" boardHost (emmcObject "/board/emmc") unlockRequest)))
      { emmcBus with host := unlockedHost } :=
    .served rfl List.mem_cons_self (servesOn_servedOn _ _ _)
  have hmade : Bus.Moves registryServer "/dev/mapper" (hosted "/dev/mapper")
      { emmcBus with
        objects := []
        server := registryServer.removeInterfaces emmcBus.server 0 (emmcObject "/board/emmc")
        host := unlockedHost }
      (.constructed 1 (emmcObject "/board/spare")) spareBus := by
    apply Bus.Moves.constructed
    intro entry hentry
    cases hentry
  have hread : Bus.Moves registryServer "/dev/mapper" (hosted "/dev/mapper") spareBus
      (.answered lockedMessage (.served 1
        (servedOn "/dev/mapper" unlockedHost (emmcObject "/board/spare") .locked)))
      { spareBus with
        host := hostAfter "/dev/mapper" unlockedHost (emmcObject "/board/spare") .locked } :=
    .served rfl List.mem_cons_self (servesOn_servedOn _ _ _)
  exact .cons emmcBus_constructed (.cons hunlocked
    (.cons (.destroyed List.mem_cons_self) (.cons hmade (.cons hread (.nil _)))))

/-- The second object shows the device as the first one has left it. -/
theorem volumes_apart_handed_over :
    (servedOn "/dev/mapper" unlockedHost (emmcObject "/board/spare") .locked).out =
      .ok (.locked false) ∧
    Steps (Serves ruled) (boardHost.world (deviceNames "/dev/mapper" "mmcblk0"))
      ((spareEvents.filterMap BusEvent.served?).filterMap
        (ServedOn.at? "/dev/mapper" "mmcblk0"))
      ((hostAfter "/dev/mapper" unlockedHost (emmcObject "/board/spare") .locked).world
        (deviceNames "/dev/mapper" "mmcblk0")) := by
  have hobjects : ∀ object storage, .constructed object storage ∈ spareEvents →
      ∃ path, storage = emmcObject path := by
    intro object storage hmem
    simp only [spareEvents, List.mem_cons, BusEvent.constructed.injEq, reduceCtorEq, false_or,
      List.not_mem_nil, or_false] at hmem
    rcases hmem with ⟨-, rfl⟩ | ⟨-, rfl⟩
    · exact ⟨"/board/emmc", rfl⟩
    · exact ⟨"/board/spare", rfl⟩
  have hmade : ∀ object storage, .constructed object storage ∈ spareEvents → storage.Made := by
    intro object storage hmem
    obtain ⟨path, rfl⟩ := hobjects object storage hmem
    exact emmcObject_made path
  have hsound : ∀ object storage, .constructed object storage ∈ spareEvents →
      boardHost.SoundFor "/dev/mapper" storage := by
    intro object storage hmem
    obtain ⟨path, rfl⟩ := hobjects object storage hmem
    exact boardHost_sound path
  exact ⟨rfl, ((volumes_apart registryServer_contract hmade hsound spareBus_run).2.2 "mmcblk0").1⟩

end Estoraged

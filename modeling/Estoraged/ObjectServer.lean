import Estoraged.StatusProperties

/-!
# The object server

What `sdbusplus` does for the daemon: it keeps the interfaces that were added and not yet
removed, and finds among them what a message is for. Whatever it is like inside, the daemon
relies on the contract only.
-/

namespace Estoraged
set_option autoImplicit false

inductive PropertyValue where
  | uint64 (value : UInt64)
  | byte (value : UInt8)
  | string (value : String)
  | associations (value : List (String × String × String))
deriving DecidableEq

/-- What an interface has under a name. A reading is found out by the object. -/
inductive InterfaceMember where
  | method
  | property (value : PropertyValue) (writable : Bool)
  | reading (request : Request)
deriving DecidableEq

structure DbusInterface where
  name : String
  members : List (String × InterfaceMember)
deriving DecidableEq

/-- The pointers of an object to its interfaces. -/
inductive InterfacePointer where
  | volumeInterface
  | driveInterface
  | embeddedLocationInterface
  | locationCodeInterface
  | assetInterface
  | association
deriving DecidableEq, Repr

/-- An interface on the bus, with the object that its handlers have captured. -/
structure Registered where
  object : Nat
  pointer : InterfacePointer
  path : String
  interface : DbusInterface
deriving DecidableEq

abbrev Registry := List Registered

/-! ## Messages -/

def Op.memberName : Op → String
  | .formatLuks _ _ => "FormatLuks"
  | .erase _ => "Erase"
  | .lock => "Lock"
  | .unlock _ => "Unlock"
  | .changePassword _ _ => "ChangePassword"

inductive Message where
  | call (path interface : String) (op : Op)
  | get (path interface property : String)
  | set (path interface property : String) (value : PropertyValue)

/-- What the bus makes of a message. -/
inductive Reaction where
  | refuses
  | shows (value : PropertyValue)
  | stores (object : Nat)
  | serves (object : Nat) (request : Request)
deriving DecidableEq

def PropertyValue.sameType : PropertyValue → PropertyValue → Bool
  | .uint64 _, .uint64 _ | .byte _, .byte _ | .string _, .string _ => true
  | .associations _, .associations _ => true
  | _, _ => false

/-- The interface with another value for a property. -/
def DbusInterface.store (interface : DbusInterface) (property : String) (value : PropertyValue) :
    DbusInterface :=
  { interface with
    members := interface.members.map fun (name, member) =>
      (name, if name = property then .property value true else member) }

namespace Registry

def member? (registry : Registry) (path interface name : String) :
    Option (Nat × InterfaceMember) :=
  (registry.find? fun registered =>
      registered.path == path && registered.interface.name == interface).bind fun registered =>
    (registered.interface.members.lookup name).map fun member => (registered.object, member)

def react (registry : Registry) : Message → Reaction
  | .call path interface op =>
    match registry.member? path interface op.memberName with
    | some (object, .method) => .serves object (.method op)
    | _ => .refuses
  | .get path interface property =>
    match registry.member? path interface property with
    | some (_, .property value _) => .shows value
    | some (object, .reading request) => .serves object request
    | _ => .refuses
  | .set path interface property value =>
    match registry.member? path interface property with
    | some (object, .property old true) => if old.sameType value then .stores object else .refuses
    | _ => .refuses

def store (registry : Registry) (path interface property : String) (value : PropertyValue) :
    Registry :=
  registry.map fun registered =>
    if registered.path = path ∧ registered.interface.name = interface then
      { registered with interface := registered.interface.store property value }
    else registered

def without (registry : Registry) (object : Nat) (pointer : InterfacePointer) : Registry :=
  registry.filter fun registered => !(registered.object == object && registered.pointer == pointer)

/-- There is no such interface under the path yet. -/
def Free (registry : Registry) (entry : Registered) : Prop :=
  ∀ registered ∈ registry, registered.path = entry.path →
    registered.interface.name ≠ entry.interface.name

end Registry

/-! ## The server -/

/-- `sdbusplus::asio::object_server`, with the interfaces that it hands out. -/
structure ObjectServer (τ : Type) where
  empty : τ
  addInterface : τ → Registered → τ
  removeInterface : τ → Nat → InterfacePointer → τ
  member? : τ → String → String → String → Option (Nat × InterfaceMember)
  react : τ → Message → Reaction
  store : τ → String → String → String → PropertyValue → τ

/-- What is `registered` with a server changes by these operations as it should, and messages
go by it. -/
structure ServerContract {τ : Type} (objectServer : ObjectServer τ) (registered : τ → Registry) :
    Prop where
  empty : registered objectServer.empty = []
  addInterface : ∀ t entry, (registered t).Free entry →
    registered (objectServer.addInterface t entry) = registered t ++ [entry]
  removeInterface : ∀ t object pointer,
    registered (objectServer.removeInterface t object pointer) =
      (registered t).without object pointer
  member? : ∀ t path interface name,
    objectServer.member? t path interface name = (registered t).member? path interface name
  react : ∀ t message, objectServer.react t message = (registered t).react message
  store : ∀ t path interface property value,
    registered (objectServer.store t path interface property value) =
      (registered t).store path interface property value

/-- A server that keeps nothing else. -/
def registryServer : ObjectServer Registry where
  empty := []
  addInterface registry entry := registry ++ [entry]
  removeInterface := Registry.without
  member? := Registry.member?
  react := Registry.react
  store := Registry.store

theorem registryServer_contract : ServerContract registryServer id where
  empty := rfl
  addInterface := fun _ _ _ => rfl
  removeInterface := fun _ _ _ => rfl
  member? := fun _ _ _ _ => rfl
  react := fun _ _ => rfl
  store := fun _ _ _ _ _ => rfl

end Estoraged

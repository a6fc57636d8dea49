import Estoraged.StorageObjects

/-!
# Asking for the configuration

`GetStorageConfiguration` as a message-passing system. Every handler that waits for a
reply or a timer holds the shared pointer, as the creator does until it returns; the
destructor gives the callback what was collected.
-/

namespace Estoraged
open Interaction
set_option autoImplicit false

def emmcConfigInterface : String := "xyz.openbmc_project.Configuration.EmmcDevice"

/-- The objects with their owners and the interfaces of each. -/
abbrev GetSubTreeType := List (String × List (String × List String))

/-- The handlers, with what they captured besides the shared pointer. -/
inductive Handler where
  | getSubTree
  | getAll (path owner : String) (retries : Nat)
  | retryTimer (path owner : String) (retries : Nat)
deriving DecidableEq

structure GetStorageConfiguration where
  refs : Nat
  creator : Bool
  pending : List Handler
  respData : ManagedStorageType
  calls : List (String × String)
  reports : List ManagedStorageType

/-- What happens next. An answer is `none` if it carries an error code. -/
inductive QueryEvent where
  | released
  | getSubTree (answer : Option GetSubTreeType)
  | getAll (path owner : String) (retries : Nat) (answer : Option StorageData)
  | retryTimer (path owner : String) (retries : Nat) (ec : Bool)

namespace GetStorageConfiguration

def await (self : GetStorageConfiguration) (handler : Handler) : GetStorageConfiguration :=
  { self with refs := self.refs + 1, pending := self.pending ++ [handler] }

def getStorageInfo (self : GetStorageConfiguration) (path owner : String) (retries : Nat) :
    GetStorageConfiguration :=
  { self with calls := self.calls ++ [(path, owner)] }.await (.getAll path owner retries)

def defaultRetries : Nat := 5

def getAllHandler (self : GetStorageConfiguration) (path owner : String) (retries : Nat) :
    Option StorageData → GetStorageConfiguration
  | none => if retries = 0 then self else self.await (.retryTimer path owner retries)
  | some data => { self with respData := self.respData.assign path data }

def retryTimerHandler (self : GetStorageConfiguration) (path owner : String) (retries : Nat)
    (ec : Bool) : GetStorageConfiguration :=
  if ec then self else self.getStorageInfo path owner (retries - 1)

/-- The inner loop: the interfaces of the first owner. -/
def queryInterfaces (self : GetStorageConfiguration) (objPath objOwner : String) :
    List String → GetStorageConfiguration
  | [] => self
  | interface :: rest =>
    if interface = emmcConfigInterface then
      (self.getStorageInfo objPath objOwner defaultRetries).queryInterfaces objPath objOwner rest
    else self.queryInterfaces objPath objOwner rest

/-- The outer loop; an object without an owner ends it. -/
def queryObjects (self : GetStorageConfiguration) : GetSubTreeType → GetStorageConfiguration
  | [] => self
  | (_, []) :: _ => self
  | (objPath, (objOwner, interfaces) :: _) :: rest =>
    (self.queryInterfaces objPath objOwner interfaces).queryObjects rest

def getSubTreeHandler (self : GetStorageConfiguration) :
    Option GetSubTreeType → GetStorageConfiguration
  | none => self
  | some ret => self.queryObjects ret

def getConfiguration (self : GetStorageConfiguration) : GetStorageConfiguration :=
  self.await .getSubTree

def initial : GetStorageConfiguration :=
  getConfiguration { refs := 1, creator := true, pending := [], respData := .empty, calls := []
                     reports := [] }

/-- A copy of the shared pointer goes away; the last one takes the object with it. -/
def release (self : GetStorageConfiguration) : GetStorageConfiguration :=
  let refs := self.refs - 1
  if refs = 0 then { self with refs, reports := self.reports ++ [self.respData] }
  else { self with refs }

def handle (self : GetStorageConfiguration) : QueryEvent → GetStorageConfiguration
  | .released => { self with creator := false }
  | .getSubTree answer => self.getSubTreeHandler answer
  | .getAll path owner retries answer => self.getAllHandler path owner retries answer
  | .retryTimer path owner retries ec => self.retryTimerHandler path owner retries ec

end GetStorageConfiguration

def QueryEvent.handler? : QueryEvent → Option Handler
  | .released => none
  | .getSubTree _ => some .getSubTree
  | .getAll path owner retries _ => some (.getAll path owner retries)
  | .retryTimer path owner retries _ => some (.retryTimer path owner retries)

namespace GetStorageConfiguration

/-- A handler runs and is destroyed, with its copy of the shared pointer. -/
def deliver (self : GetStorageConfiguration) (event : QueryEvent) :
    Option GetStorageConfiguration :=
  match event.handler? with
  | none => if self.creator then some (self.handle event).release else none
  | some handler =>
    if handler ∈ self.pending then
      let handled := self.handle event
      some { handled with pending := handled.pending.erase handler }.release
    else none

end GetStorageConfiguration

def Delivered (self : GetStorageConfiguration) (event : QueryEvent)
    (self' : GetStorageConfiguration) : Prop :=
  self.deliver event = some self'

/-! ## What a handler does -/

/-- The calls that a reply of the mapper leads to. -/
def requests : GetSubTreeType → List (String × String)
  | [] => []
  | (_, []) :: _ => []
  | (objPath, (objOwner, interfaces) :: _) :: rest =>
    (interfaces.filter (· = emmcConfigInterface)).map (fun _ => (objPath, objOwner)) ++
      requests rest

def QueryEvent.spawns : QueryEvent → List Handler
  | .getSubTree (some ret) =>
    (requests ret).map fun (path, owner) =>
      .getAll path owner GetStorageConfiguration.defaultRetries
  | .getAll path owner retries none =>
    if retries = 0 then [] else [.retryTimer path owner retries]
  | .retryTimer path owner retries false => [.getAll path owner (retries - 1)]
  | _ => []

def QueryEvent.asks : QueryEvent → List (String × String)
  | .getSubTree (some ret) => requests ret
  | .retryTimer path owner _ false => [(path, owner)]
  | _ => []

def QueryEvent.store (respData : ManagedStorageType) : QueryEvent → ManagedStorageType
  | .getAll path _ _ (some data) => respData.assign path data
  | _ => respData

attribute [local simp] QueryEvent.spawns QueryEvent.asks QueryEvent.store

namespace GetStorageConfiguration

theorem queryInterfaces_eq (self : GetStorageConfiguration) (objPath objOwner : String)
    (interfaces : List String) :
    self.queryInterfaces objPath objOwner interfaces =
      ((interfaces.filter (· = emmcConfigInterface)).map fun _ => (objPath, objOwner)).foldl
        (fun self (path, owner) => self.getStorageInfo path owner defaultRetries) self := by
  induction interfaces generalizing self with
  | nil => rfl
  | cons interface rest ih =>
    by_cases hinterface : interface = emmcConfigInterface
    · simp [queryInterfaces, hinterface, ih]
    · simp [queryInterfaces, hinterface, ih]

theorem queryObjects_eq (self : GetStorageConfiguration) (ret : GetSubTreeType) :
    self.queryObjects ret = (requests ret).foldl
      (fun self (path, owner) => self.getStorageInfo path owner defaultRetries) self := by
  induction ret generalizing self with
  | nil => rfl
  | cons object rest ih =>
    rcases object with ⟨objPath, _ | ⟨⟨objOwner, interfaces⟩, others⟩⟩
    · rfl
    · rw [queryObjects, requests, List.foldl_append, ih, queryInterfaces_eq]

theorem foldl_getStorageInfo (self : GetStorageConfiguration) (queries : List (String × String)) :
    queries.foldl (fun self (path, owner) => self.getStorageInfo path owner defaultRetries) self =
      { self with
        refs := self.refs + queries.length
        pending := self.pending ++
          queries.map fun (path, owner) => .getAll path owner defaultRetries
        calls := self.calls ++ queries } := by
  induction queries generalizing self with
  | nil => simp
  | cons query rest ih =>
    rw [List.foldl_cons, ih]
    simp [getStorageInfo, await, Nat.add_assoc, Nat.add_comm 1]

theorem handle_eq (self : GetStorageConfiguration) {event : QueryEvent} {handler : Handler}
    (hhandler : event.handler? = some handler) :
    self.handle event =
      { self with
        refs := self.refs + event.spawns.length
        pending := self.pending ++ event.spawns
        calls := self.calls ++ event.asks
        respData := event.store self.respData } := by
  cases event with
  | released => cases hhandler
  | getSubTree answer =>
    cases answer with
    | none => simp [handle, getSubTreeHandler]
    | some ret => simp [handle, getSubTreeHandler, queryObjects_eq, foldl_getStorageInfo]
  | getAll path owner retries answer =>
    cases answer with
    | none =>
      by_cases hretries : retries = 0
      · simp [handle, getAllHandler, hretries]
      · simp [handle, getAllHandler, hretries, await]
    | some data => simp [handle, getAllHandler]
  | retryTimer path owner retries ec =>
    cases ec with
    | false => simp [handle, retryTimerHandler, getStorageInfo, await]
    | true => simp [handle, retryTimerHandler]

def settled (self : GetStorageConfiguration) (event : QueryEvent) (others : List Handler) :
    GetStorageConfiguration :=
  { self with
    refs := self.refs + event.spawns.length
    pending := others ++ event.spawns
    calls := self.calls ++ event.asks
    respData := event.store self.respData }

/-- A delivery is the creator's release, or that of a handler that was awaited. -/
theorem deliver_cases {self self' : GetStorageConfiguration} {event : QueryEvent}
    (h : Delivered self event self') :
    (event = .released ∧ self.creator = true ∧
      self' = { self with creator := false }.release) ∨
    ∃ handler before after, event.handler? = some handler ∧
      self.pending = before ++ handler :: after ∧
      self' = (self.settled event (before ++ after)).release := by
  cases hhandler : event.handler? with
  | none =>
    cases event <;> cases hhandler
    simp only [Delivered, deliver, QueryEvent.handler?] at h
    split_ifs at h with hcreator
    exact .inl ⟨rfl, hcreator, (Option.some.inj h).symm⟩
  | some handler =>
    simp only [Delivered, deliver, hhandler] at h
    split_ifs at h with hmem
    obtain ⟨before, after, -, hpending, herase⟩ := List.exists_erase_eq hmem
    refine .inr ⟨handler, before, after, rfl, hpending, ?_⟩
    rw [← Option.some.inj h, handle_eq self hhandler]
    simp only [settled, List.erase_append_left _ hmem, herase]

section Release
variable (self : GetStorageConfiguration)

@[simp] theorem release_refs : self.release.refs = self.refs - 1 := by
  unfold release; dsimp only; split <;> rfl

@[simp] theorem release_creator : self.release.creator = self.creator := by
  unfold release; dsimp only; split <;> rfl

@[simp] theorem release_pending : self.release.pending = self.pending := by
  unfold release; dsimp only; split <;> rfl

@[simp] theorem release_respData : self.release.respData = self.respData := by
  unfold release; dsimp only; split <;> rfl

@[simp] theorem release_calls : self.release.calls = self.calls := by
  unfold release; dsimp only; split <;> rfl

theorem release_reports : self.release.reports =
    if self.refs - 1 = 0 then self.reports ++ [self.respData] else self.reports := by
  unfold release; dsimp only; split <;> rfl

end Release

/-! ## The use count -/

/-- The count is that of the holders, and the callback has run when it is zero. -/
structure Counted (getter : GetStorageConfiguration) : Prop where
  refs : getter.refs = getter.pending.length + getter.creator.toNat
  reports : getter.reports = if getter.refs = 0 then [getter.respData] else []

theorem Counted.release {self : GetStorageConfiguration}
    (hrefs : self.refs = self.pending.length + self.creator.toNat + 1)
    (hreports : self.reports = []) : self.release.Counted := by
  refine ⟨by simp [hrefs], ?_⟩
  rw [release_reports, release_refs, release_respData, hreports]
  rfl

theorem counted_initial : initial.Counted := ⟨rfl, rfl⟩

theorem delivered_counted (self : GetStorageConfiguration) (event : QueryEvent)
    (self' : GetStorageConfiguration) (hs : self.Counted) (h : Delivered self event self') :
    self'.Counted := by
  rcases hs with ⟨hrefs, hreports⟩
  rcases deliver_cases h with ⟨-, hcreator, rfl⟩ | ⟨handler, before, after, -, hpending, rfl⟩
  · refine .release (by simp [hrefs, hcreator]) ?_
    rw [hreports, if_neg (by simp [hrefs, hcreator])]
  · have hsome : self.refs ≠ 0 := by simp [hrefs, hpending]
    refine .release ?_ ?_
    · simp only [settled, hrefs, hpending, List.length_append, List.length_cons]
      omega
    · simp only [settled, hreports, if_neg hsome]

theorem Counted.reports_iff {self : GetStorageConfiguration} (hs : self.Counted) :
    self.reports ≠ [] ↔ self.creator = false ∧ self.pending = [] := by
  have hzero : self.refs = 0 ↔ self.creator = false ∧ self.pending = [] := by
    rw [hs.refs]
    cases hcreator : self.creator <;> simp
  rw [hs.reports, ← hzero]
  split_ifs with hrefs <;> simp [hrefs]

end GetStorageConfiguration

end Estoraged

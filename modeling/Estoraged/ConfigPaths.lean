import Estoraged.GetConfig
import Mathlib.Data.List.Nodup

/-!
# The paths a reply leads to

Which objects of a reply `getConfiguration` asks about. It looks at the first owner of
each object, and goes no further than the first object that has none.
-/

namespace Estoraged
set_option autoImplicit false

abbrev Owner := String × List String

def Owner.configured (owner : Owner) : Bool := emmcConfigInterface ∈ owner.2

/-- The calls made when the reply comes in. -/
def asked (ret : GetSubTreeType) : List (String × String) :=
  (GetStorageConfiguration.initial.getSubTreeHandler (some ret)).calls

/-- Each object is asked about just when one of its owners has the configuration, and that
owner is asked. -/
structure NoneSkipped (ret : GetSubTreeType) : Prop where
  asked_iff : ∀ object ∈ ret, object.1 ∈ (asked ret).map Prod.fst ↔
    ∃ owner ∈ object.2, Owner.configured owner = true
  owner : ∀ query ∈ asked ret, ∃ object ∈ ret, object.1 = query.1 ∧
    ∃ owner ∈ object.2, owner.1 = query.2 ∧ Owner.configured owner = true

/-- The objects before the first one without an owner. -/
def beforeOwnerless (ret : GetSubTreeType) : GetSubTreeType :=
  ret.takeWhile fun object => !object.2.isEmpty

/-- No configured object stands behind one without owners or has another owner first. -/
def FirstOwnersSuffice (ret : GetSubTreeType) : Prop :=
  ∀ object ∈ ret, (∃ owner ∈ object.2, Owner.configured owner = true) →
    object ∈ beforeOwnerless ret ∧ ∃ owner ∈ object.2.head?, Owner.configured owner = true

theorem asked_eq (ret : GetSubTreeType) : asked ret = requests ret := by
  change (GetStorageConfiguration.initial.queryObjects ret).calls = _
  rw [GetStorageConfiguration.queryObjects_eq, GetStorageConfiguration.foldl_getStorageInfo]
  rfl

theorem mem_first_request {objPath objOwner : String} {interfaces : List String}
    {query : String × String} :
    query ∈ (interfaces.filter (· = emmcConfigInterface)).map (fun _ => (objPath, objOwner)) ↔
      objPath = query.1 ∧ objOwner = query.2 ∧ Owner.configured (objOwner, interfaces) = true := by
  constructor
  · intro h
    obtain ⟨interface, hmem, rfl⟩ := List.mem_map.mp h
    obtain ⟨hmem, hname⟩ := List.mem_filter.mp hmem
    have hname' : interface = emmcConfigInterface := of_decide_eq_true hname
    subst hname'
    exact ⟨rfl, rfl, decide_eq_true hmem⟩
  · intro h
    obtain ⟨rfl, rfl, hconfigured⟩ := h
    refine List.mem_map.mpr ⟨emmcConfigInterface, List.mem_filter.mpr ⟨?_, ?_⟩, rfl⟩
    · exact of_decide_eq_true hconfigured
    · exact decide_eq_true rfl

/-- The queries are those for first owners of the objects before an ownerless one. -/
theorem mem_requests {ret : GetSubTreeType} {query : String × String} :
    query ∈ requests ret ↔ ∃ object ∈ beforeOwnerless ret, object.1 = query.1 ∧
      ∃ owner ∈ object.2.head?, owner.1 = query.2 ∧ Owner.configured owner = true := by
  induction ret with
  | nil => simp [requests, beforeOwnerless]
  | cons object rest ih =>
    rcases object with ⟨objPath, _ | ⟨⟨objOwner, interfaces⟩, others⟩⟩
    · simp [requests, beforeOwnerless]
    · have hfirst : beforeOwnerless ((objPath, (objOwner, interfaces) :: others) :: rest) =
          (objPath, (objOwner, interfaces) :: others) :: beforeOwnerless rest := rfl
      rw [requests, List.mem_append, ih, hfirst, List.exists_mem_cons_iff, mem_first_request]
      simp

theorem beforeOwnerless_subset {ret : GetSubTreeType} : beforeOwnerless ret ⊆ ret :=
  (List.takeWhile_prefix _).subset

theorem object_eq {ret : GetSubTreeType} (hpaths : (ret.map Prod.fst).Nodup)
    {object object' : String × List Owner} (h : object ∈ ret) (h' : object' ∈ ret)
    (hpath : object.1 = object'.1) : object = object' :=
  List.inj_on_of_nodup_map hpaths h h' hpath

/-- No configured object is skipped just when they all come before the first ownerless
object and their first owners have the configuration. -/
theorem noneSkipped_iff {ret : GetSubTreeType} (hpaths : (ret.map Prod.fst).Nodup) :
    NoneSkipped ret ↔ FirstOwnersSuffice ret := by
  constructor
  · intro h object hobject hconfigured
    obtain ⟨query, hquery, hpath⟩ := List.mem_map.mp ((h.asked_iff object hobject).mpr hconfigured)
    rw [asked_eq] at hquery
    obtain ⟨object', hobject', hpath', owner, howner, -, hfirst⟩ := mem_requests.mp hquery
    obtain rfl := object_eq hpaths (beforeOwnerless_subset hobject') hobject (hpath'.trans hpath)
    exact ⟨hobject', owner, howner, hfirst⟩
  · intro h
    constructor
    · intro object hobject
      rw [asked_eq]
      constructor
      · intro hasked
        obtain ⟨query, hquery, hpath⟩ := List.mem_map.mp hasked
        obtain ⟨object', hobject', hpath', owner, howner, -, hfirst⟩ := mem_requests.mp hquery
        obtain rfl := object_eq hpaths (beforeOwnerless_subset hobject') hobject
          (hpath'.trans hpath)
        exact ⟨owner, List.mem_of_mem_head? howner, hfirst⟩
      · intro hconfigured
        obtain ⟨hbefore, owner, howner, hfirst⟩ := h object hobject hconfigured
        apply List.mem_map.mpr
        exact ⟨(object.1, owner.1),
          mem_requests.mpr ⟨object, hbefore, rfl, owner, howner, rfl, hfirst⟩, rfl⟩
    · intro query hquery
      rw [asked_eq] at hquery
      obtain ⟨object, hobject, hpath, owner, howner, hname, hfirst⟩ := mem_requests.mp hquery
      exact ⟨object, beforeOwnerless_subset hobject, hpath, owner, List.mem_of_mem_head? howner,
        hname, hfirst⟩

/-- Then what is asked about one object depends on that object alone. -/
theorem NoneSkipped.independent {ret ret' : GetSubTreeType} (h : NoneSkipped ret)
    (h' : NoneSkipped ret') {object : String × List Owner} (hmem : object ∈ ret)
    (hmem' : object ∈ ret') :
    object.1 ∈ (asked ret).map Prod.fst ↔ object.1 ∈ (asked ret').map Prod.fst :=
  (h.asked_iff object hmem).trans (h'.asked_iff object hmem').symm

def configuredObject (path : String) : String × List Owner :=
  (path, [("xyz.openbmc_project.EntityManager", [emmcConfigInterface])])

/-- Two configured objects among others, one with a second owner. -/
def boardReply : GetSubTreeType :=
  [("/board/fan", [("xyz.openbmc_project.EntityManager", ["xyz.openbmc_project.Fan"])]),
    ("/board/emmc", [("xyz.openbmc_project.EntityManager",
      ["xyz.openbmc_project.AddObject", emmcConfigInterface]), ("xyz.openbmc_project.Other", [])]),
    configuredObject "/board/spare", ("/board/none", [])]

theorem noneSkipped_iff_board : NoneSkipped boardReply := by
  refine (noneSkipped_iff (by decide)).mpr ?_
  intro object hobject hconfigured
  simp only [boardReply, List.mem_cons, List.not_mem_nil, or_false] at hobject
  rcases hobject with rfl | rfl | rfl | rfl
  · simp [Owner.configured, emmcConfigInterface] at hconfigured
  · exact ⟨.tail _ (.head _), _, rfl, by decide⟩
  · exact ⟨.tail _ (.tail _ (.head _)), _, rfl, by decide⟩
  · simp at hconfigured

/-- An object without owners comes first, and the handler returns. -/
theorem configured_behind_ownerless : ¬ ∀ ret : GetSubTreeType, (ret.map Prod.fst).Nodup →
    NoneSkipped ret := by
  intro halways
  have h := halways [("/board/none", []), configuredObject "/board/emmc"] (by decide)
  have hasked := (h.asked_iff (configuredObject "/board/emmc") (by simp)).mpr
    ⟨_, List.mem_cons_self, by decide⟩
  cases hasked

end Estoraged

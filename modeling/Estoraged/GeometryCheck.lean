import Estoraged.EraseCalls
import Estoraged.ServiceObjects

/-!
# From the configuration to the geometry check

What the owner of a config object answers about the geometry decides, for the lifetime of
the storage object, which sizes its `VerifyGeometry` erase accepts.
-/

namespace Estoraged
open Interaction GetStorageConfiguration
set_option autoImplicit false

/-- A bound as configured; a property of another type counts as none. -/
def geometryBound (data : StorageData) (name : String) (default : UInt64) : UInt64 :=
  (property? data (·.uint64?) name).getD default

section Bounds
variable [EstoragedConf]

def GeometryAccepts (data : StorageData) (bytes : UInt64) : Prop :=
  geometryBound data "EraseMinGeometry" ERASE_MIN_GEOMETRY ≤ bytes ∧
    bytes ≤ geometryBound data "EraseMaxGeometry" ERASE_MAX_GEOMETRY

theorem Located.bounds {host : Host} {data : StorageData} {info : DeviceInfo} {size : UInt64}
    (h : Located host data info size) (path : String) :
    (newObject host path info size).eraseMaxGeometry =
      geometryBound data "EraseMaxGeometry" ERASE_MAX_GEOMETRY ∧
    (newObject host path info size).eraseMinGeometry =
      geometryBound data "EraseMinGeometry" ERASE_MIN_GEOMETRY := by
  obtain ⟨-, dirEntry, -, -, rfl⟩ := findDevice_eq_some_iff.mp h.1
  exact ⟨rfl, rfl⟩

end Bounds

section Check
variable {σ : Type} {env : Env devicePorts σ}

theorem geometryOkay_spec (eraseMaxGeometry eraseMinGeometry bytes : UInt64) (s : σ) :
    Ensures env (VerifyDriveGeometry.geometryOkay eraseMaxGeometry eraseMinGeometry bytes) s
      fun tr out _ => tr = [] ∧ (out.isOk = true ∨ out = .error .internalFailure) ∧
        (out = .ok () ↔ eraseMinGeometry ≤ bytes ∧ bytes ≤ eraseMaxGeometry) := by
  unfold VerifyDriveGeometry.geometryOkay
  split_ifs with hmax hmin
  · refine Ensures.throw_iff.mpr ⟨rfl, .inr rfl, iff_of_false (fun h => by cases h) ?_⟩
    intro h
    exact UInt64.not_le.mpr hmax h.2
  · refine Ensures.throw_iff.mpr ⟨rfl, .inr rfl, iff_of_false (fun h => by cases h) ?_⟩
    intro h
    exact UInt64.not_le.mpr hmin h.1
  · refine Ensures.ret_iff.mpr ⟨rfl, .inl rfl, iff_of_true rfl ?_⟩
    exact ⟨UInt64.not_lt.mp hmin, UInt64.not_lt.mp hmax⟩

/-- The check reports nothing else than whether the size it was told lies in the bounds. -/
theorem deviceGeometryOkay_spec (eraseMaxGeometry eraseMinGeometry : UInt64) (s : σ) :
    Ensures env (VerifyDriveGeometry.deviceGeometryOkay eraseMaxGeometry eraseMinGeometry) s
      fun tr out _ => Masked tr out ∧ (out = .ok () ↔ ∃ size, sizeReported tr = some size ∧
        eraseMinGeometry ≤ size.val ∧ size.val ≤ eraseMaxGeometry) := by
  unfold VerifyDriveGeometry.deviceGeometryOkay
  refine Ensures.bind (findSizeOfBlockDevice_sizing s) ?_ ?_
  · intro tr bytes s' hsizing
    cases hsizing with
    | @sized s₀ s₁ u size =>
      refine (geometryOkay_spec eraseMaxGeometry eraseMinGeometry size.val s').mono ?_
      intro tr out s'' h
      obtain ⟨rfl, hmasked, hiff⟩ := h
      have hreported : sizeReported ([⟨s₀, .openDevice .readOnly, .ok u⟩,
          ⟨s₁, .blkGetSize64, .ok size⟩] ++ [] : Trace devicePorts σ) = some size := rfl
      refine ⟨.of_numbered rfl hmasked, ?_⟩
      rw [hiff, hreported]
      constructor
      · intro hbounds
        exact ⟨size, rfl, hbounds⟩
      · intro h
        obtain ⟨size', hsize, hbounds⟩ := h
        obtain rfl := Option.some.inj hsize
        exact hbounds
  · intro tr e s' hsizing
    cases hsizing with
    | failed hne hquiet =>
      refine ⟨.inr rfl, iff_of_false (fun h => by cases h) ?_⟩
      intro h
      obtain ⟨size, hsize, -⟩ := h
      have hnone : sizeReported tr = none :=
        List.findSome?_eq_none_iff.mpr fun ev hev => (hquiet ev hev).2
      rw [hnone] at hsize
      cases hsize

end Check

/-- In any run of the service, whatever the bounds of the build, the geometry check of a live
object accepts a device just if the size that is reported at the check lies within what was
answered for its path, or within the bounds of the build where nothing was. -/
theorem live_geometry_as_answered [EstoragedConf] {events : List ServiceEvent} {s : Service}
    {objs : StorageObjects} {path : String} {object : EStoraged}
    (hrun : Steps Service.Moves .initial events s) (hobjs : s.daemon = .running objs)
    (hlive : Live objs path object) :
    ∃ index data, Answered (.released :: queryEvents index events) path data ∧
      ∀ (σ : Type) (env : Env devicePorts σ) (t : σ),
        Ensures env (object.eraseDevice .verifyGeometry) t fun tr out _ => Masked tr out ∧
          (out = .ok () ↔
            ∃ size, sizeReported tr = some size ∧ GeometryAccepts data size.val) := by
  obtain ⟨before, index, event, d, after, rfl, hreports, data, info, size, hfind, hlocated, rfl⟩ :=
    live_reported hrun hobjs hlive
  have hevents : queryEvents index (before ++ .query index event d.host :: after) =
      queryEvents index (before ++ [.query index event d.host]) ++ queryEvents index after := by
    rw [queryEvents, queryEvents, queryEvents, ← List.filterMap_append, List.append_assoc,
      List.singleton_append]
  refine ⟨index, data, ?_, ?_⟩
  · rw [hevents]
    exact (hreports.answered path data hfind).append
  intro σ env t
  obtain ⟨hmax, hmin⟩ := hlocated.bounds path
  have hcheck := @deviceGeometryOkay_spec σ env
    (newObject d.host path info size).eraseMaxGeometry
    (newObject d.host path info size).eraseMinGeometry t
  rw [hmax, hmin] at hcheck
  rw [EStoraged.eraseDevice, hmax, hmin]
  exact hcheck

theorem live_geometry_as_answered_emmc :
    ∃ index data, Answered (.released :: queryEvents index emmcEvents) "/board/emmc" data ∧
      ∀ (σ : Type) (env : Env devicePorts σ) (t : σ),
        Ensures env ((emmcObject "/board/emmc").eraseDevice .verifyGeometry) t fun tr out _ =>
          Masked tr out ∧ (out = .ok () ↔
            ∃ size, sizeReported tr = some size ∧ GeometryAccepts data size.val) :=
  live_geometry_as_answered emmc_run rfl (FlatMap.find?_assign_self ..)

end Estoraged

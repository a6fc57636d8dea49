import Estoraged.Inventory
import Estoraged.ServiceObjects

/-!
# The objects of the service on the bus

The constructors that the callbacks of a run have called make a run of the bus, as long as
no two of the objects have one object path.
-/

namespace Estoraged
open Interaction
set_option autoImplicit false

section Built
variable {τ σ : Type} {objectServer : ObjectServer τ} {cryptDir : String}
variable {env : Env hostPorts σ} {host : σ}

/-- Construction of the objects in their order. -/
def constructions (objects : List (Nat × EStoraged)) : List (BusEvent σ) :=
  objects.map fun entry => .constructed entry.1 entry.2

/-- Objects with different paths can all be constructed. -/
theorem bus_of_constructions (objects : List (Nat × EStoraged))
    (hobjects : (objects.map Prod.fst).Nodup)
    (hpaths : (objects.map fun entry => entry.2.objectPath).Nodup) :
    ∃ bus, bus.objects = objects ∧ Steps (Bus.Moves objectServer cryptDir env)
      (.start objectServer host) (constructions objects) bus := by
  induction objects using List.reverseRecOn with
  | nil => exact ⟨.start objectServer host, rfl, .nil _⟩
  | append_singleton objects entry ih =>
    rw [List.map_append, List.nodup_append] at hobjects hpaths
    obtain ⟨bus, rfl, hrun⟩ := ih hobjects.1 hpaths.1
    have hconstructed : Bus.Moves objectServer cryptDir env bus (.constructed entry.1 entry.2)
        { bus with
          objects := bus.objects ++ [entry]
          server := objectServer.addInterfaces bus.server entry.1 entry.2 } := by
      apply Bus.Moves.constructed
      intro entry' hentry'
      constructor
      · exact hobjects.2.2 _ (List.mem_map_of_mem hentry') _ List.mem_cons_self
      · exact hpaths.2.2 _ (List.mem_map_of_mem hentry') _ List.mem_cons_self
    refine ⟨⟨bus.objects ++ [entry], objectServer.addInterfaces bus.server entry.1 entry.2,
      bus.host⟩, rfl, ?_⟩
    rw [constructions, List.map_append]
    exact hrun.snoc hconstructed

/-- The objects in the order of their construction, numbered. -/
def numbered (objects : List EStoraged) : List (Nat × EStoraged) :=
  objects.zipIdx.map Prod.swap

theorem numbered_fst (objects : List EStoraged) : ((numbered objects).map Prod.fst).Nodup := by
  unfold numbered
  rw [List.map_map]
  exact List.zipIdx_map_snd 0 objects ▸ List.nodup_range'

theorem numbered_snd (objects : List EStoraged) : (numbered objects).map Prod.snd = objects := by
  unfold numbered
  rw [List.map_map]
  exact List.zipIdx_map_fst 0 objects

theorem mem_numbered {objects : List EStoraged} {object : EStoraged} :
    (∃ i, (i, object) ∈ numbered objects) ↔ object ∈ objects := by
  nth_rewrite 2 [← numbered_snd objects]
  rw [List.mem_map]
  constructor
  · intro h
    obtain ⟨i, hmem⟩ := h
    exact ⟨(i, object), hmem, rfl⟩
  · intro h
    obtain ⟨⟨i, object'⟩, hmem, rfl⟩ := h
    exact ⟨i, hmem⟩

end Built

section Runs
variable [EstoragedConf] {τ σ : Type} {objectServer : ObjectServer τ}
variable {registered : τ → Registry}
variable {events : List ServiceEvent} {s : Service} {objs : StorageObjects}

/-- The callbacks of a run, in the order of its events and one for each query that has
reported, make the storage objects what they are. The objects that they have made get onto
the bus by exactly these constructors, in this order, and a method called at the path of a
live object gets to it, as long as no two live objects have one object path. -/
theorem service_objects_answer (hserver : ServerContract objectServer registered)
    (cryptDir : String) (env : Env hostPorts σ) (host : σ)
    (hrun : Steps Service.Moves .initial events s) (hobjs : s.daemon = .running objs)
    (hapart : ∀ p q a b, Live objs p a → Live objs q b → a.objectPath = b.objectPath → p = q) :
    Steps CalledBack (.running .empty) (Service.initial.log events) (.running objs) ∧
    ((Service.initial.log events).map Delivery.reply).Perm
      (s.queries.flatMap GetStorageConfiguration.reports) ∧
    ∃ bus, bus.objects = numbered (built (Service.initial.log events)) ∧
      Steps (Bus.Moves objectServer cryptDir env) (.start objectServer host)
        (constructions (numbered (built (Service.initial.log events)))) bus ∧
      ∀ path object, Live objs path object → ∃ i, (i, object) ∈ bus.objects ∧
        ∀ op, objectServer.react bus.server (.call object.objectPath
          "xyz.openbmc_project.Inventory.Item.Volume" op) = .serves i (.method op) := by
  have hcallbacks := log_calledBack hrun
  rw [hobjs] at hcallbacks
  refine ⟨hcallbacks, log_reports hrun, ?_⟩
  have hbuilt := builtOnce_of_run hcallbacks
  have honce := hbuilt.nodup
  have hlive := hbuilt.live objs rfl
  generalize built (Service.initial.log events) = objects at honce hlive
  have hpaths : (objects.map EStoraged.objectPath).Nodup := by
    apply List.Nodup.map_on _ (List.Nodup.of_map _ honce)
    intro a ha b hb hsame
    apply List.inj_on_of_nodup_map honce ha hb
    exact hapart _ _ a b ((hlive _ a).mpr ⟨ha, rfl⟩) ((hlive _ b).mpr ⟨hb, rfl⟩) hsame
  have hnumbered : ((numbered objects).map fun entry => entry.2.objectPath).Nodup := by
    have hcompose : ((numbered objects).map fun entry => entry.2.objectPath) =
        ((numbered objects).map Prod.snd).map EStoraged.objectPath := by
      rw [List.map_map]
      rfl
    rwa [hcompose, numbered_snd]
  obtain ⟨bus, hobjects, hbus⟩ := @bus_of_constructions τ σ objectServer cryptDir env host _
    (numbered_fst objects) hnumbered
  refine ⟨bus, hobjects, hbus, ?_⟩
  intro path object hnow
  obtain ⟨hmem, -⟩ := (hlive path object).mp hnow
  obtain ⟨i, hi⟩ := mem_numbered.mpr hmem
  rw [← hobjects] at hi
  refine ⟨i, hi, fun op => ?_⟩
  rw [hserver.react]
  exact (shows_of_run hserver hbus).reaches hi op

end Runs

theorem emmcObjects_live {path : String} {object : EStoraged}
    (h : Live emmcObjects path object) : path = "/board/emmc" := by
  rcases FlatMap.find?_assign_cases h with ⟨hpath, -⟩ | hempty
  · exact hpath
  · cases hempty

theorem service_objects_answer_emmc :
    ∃ bus, bus.objects = numbered (built (Service.initial.log emmcEvents)) ∧
      Steps (Bus.Moves registryServer "/dev/mapper" (hosted "/dev/mapper"))
        (.start registryServer boardHost)
        (constructions (numbered (built (Service.initial.log emmcEvents)))) bus ∧
      ∀ path object, Live emmcObjects path object → ∃ i, (i, object) ∈ bus.objects ∧
        ∀ op, registryServer.react bus.server (.call object.objectPath
          "xyz.openbmc_project.Inventory.Item.Volume" op) = .serves i (.method op) := by
  have hapart : ∀ p q a b, Live emmcObjects p a → Live emmcObjects q b →
      a.objectPath = b.objectPath → p = q := by
    intro p q a b ha hb _
    rw [emmcObjects_live ha, emmcObjects_live hb]
  exact (service_objects_answer registryServer_contract "/dev/mapper" (hosted "/dev/mapper")
    boardHost emmc_run rfl hapart).2.2

end Estoraged

import Estoraged.GetConfig
import Mathlib.Algebra.Order.Ring.Nat

/-!
# How a query ends

Every reply and every timer takes a query nearer to its end, in whatever order they come,
and until the end there is one more to wait for. All that it has collected by then was
asked for in the mapper's reply and answered.
-/

namespace Estoraged
open Interaction GetStorageConfiguration
set_option autoImplicit false

/-- How many more events a handler can lead to. -/
def Handler.weight : Handler → Nat
  | .getSubTree => 1
  | .getAll _ _ retries => 2 * retries + 1
  | .retryTimer _ _ retries => 2 * (retries - 1) + 2

def QueryEvent.asked : QueryEvent → List (String × String)
  | .getSubTree (some ret) => requests ret
  | _ => []

/-- The calls that the mapper's reply led to. -/
def askedFor (events : List QueryEvent) : List (String × String) :=
  events.flatMap QueryEvent.asked

def GetStorageConfiguration.weight (self : GetStorageConfiguration) : Nat :=
  (self.pending.map Handler.weight).sum + self.creator.toNat

section Weight
variable {getter getter' : GetStorageConfiguration} {event : QueryEvent}

/-- A call made at first is worth all its retries. -/
theorem weight_spawns {handler : Handler} (h : event.handler? = some handler) :
    (event.spawns.map Handler.weight).sum + 1 ≤ handler.weight + 11 * event.asked.length := by
  cases event with
  | released => cases h
  | getSubTree answer =>
    obtain rfl := Option.some.inj h
    cases answer with
    | none => simp [QueryEvent.spawns, QueryEvent.asked, Handler.weight]
    | some ret =>
      have hweight : Handler.weight ∘ (fun query : String × String =>
          Handler.getAll query.1 query.2 defaultRetries) = fun _ => 11 := rfl
      simp only [QueryEvent.spawns, QueryEvent.asked, Handler.weight, List.map_map, hweight]
      simp
      omega
  | getAll path owner retries answer =>
    obtain rfl := Option.some.inj h
    cases answer with
    | none =>
      simp only [QueryEvent.spawns, QueryEvent.asked, Handler.weight]
      split_ifs
      · simp
      · simp [Handler.weight]
        omega
    | some data => simp [QueryEvent.spawns, QueryEvent.asked, Handler.weight]
  | retryTimer path owner retries ec =>
    obtain rfl := Option.some.inj h
    cases ec with
    | false => simp [QueryEvent.spawns, QueryEvent.asked, Handler.weight]
    | true => simp [QueryEvent.spawns, QueryEvent.asked, Handler.weight]

theorem delivered_weight (h : Delivered getter event getter') :
    getter'.weight + 1 ≤ getter.weight + 11 * event.asked.length := by
  rcases deliver_cases h with
    ⟨rfl, hcreator, rfl⟩ | ⟨handler, before, after, hhandler, hpending, rfl⟩
  · simp [weight, hcreator]
  · have hspawns := weight_spawns hhandler
    simp only [weight, hpending, settled, release_pending, release_creator, List.map_append,
      List.map_cons, List.sum_append, List.sum_cons]
    omega

/-- The events so far and those that may still come are as many as the calls allow. -/
def WithinWeight (past : List QueryEvent) (getter : GetStorageConfiguration) : Prop :=
  past.length + getter.weight ≤ 2 + 11 * (askedFor past).length

theorem delivered_withinWeight (past : List QueryEvent) (getter : GetStorageConfiguration)
    (event : QueryEvent) (getter' : GetStorageConfiguration) (hs : WithinWeight past getter)
    (h : Delivered getter event getter') : WithinWeight (past ++ [event]) getter' := by
  have hweight := delivered_weight h
  have hasked : askedFor (past ++ [event]) = askedFor past ++ event.asked := by
    simp [askedFor]
  unfold WithinWeight at hs ⊢
  rw [hasked, List.length_append, List.length_append, List.length_singleton]
  omega

/-- Whatever is outstanding can happen: no handler waits for another one. -/
theorem delivered_of_pending {handler : Handler} (hmem : handler ∈ getter.pending) :
    ∃ event getter', Delivered getter event getter' := by
  have hdeliver : ∀ event : QueryEvent, event.handler? = some handler →
      ∃ getter', Delivered getter event getter' := by
    intro event hhandler
    simp only [Delivered, deliver, hhandler, if_pos hmem]
    exact ⟨_, rfl⟩
  cases handler with
  | getSubTree => exact ⟨.getSubTree none, hdeliver _ rfl⟩
  | getAll path owner retries => exact ⟨.getAll path owner retries none, hdeliver _ rfl⟩
  | retryTimer path owner retries => exact ⟨.retryTimer path owner retries true, hdeliver _ rfl⟩

end Weight

/-- A query takes at most eleven events for each call that the mapper's reply leads to, and
two more; and it has reported when there is nothing more to come, and not before. -/
theorem query_ends {events : List QueryEvent} {getter : GetStorageConfiguration}
    (hrun : Steps Delivered initial events getter) :
    events.length ≤ 2 + 11 * (askedFor events).length ∧
      ((∃ event getter', Delivered getter event getter') ↔ getter.reports = []) := by
  have hcounted : getter.Counted := hrun.invariant delivered_counted counted_initial
  have hstart : WithinWeight [] initial := by
    unfold WithinWeight
    decide
  have hwithin : WithinWeight events getter := hrun.from_start hstart delivered_withinWeight
  refine ⟨Nat.le_trans (Nat.le_add_right _ _) hwithin, ?_⟩
  constructor
  · intro h
    obtain ⟨event, getter', hdelivered⟩ := h
    by_contra hreported
    obtain ⟨hcreator, hpending⟩ := hcounted.reports_iff.mp hreported
    rcases deliver_cases hdelivered with ⟨-, hholds, -⟩ | ⟨handler, before, after, -, hmem, -⟩
    · rw [hcreator] at hholds
      cases hholds
    · rw [hpending] at hmem
      simp at hmem
  · intro hreports
    cases hcreator : getter.creator with
    | true => exact ⟨.released, _, if_pos hcreator⟩
    | false =>
      cases hpending : getter.pending with
      | nil => exact absurd hreports (hcounted.reports_iff.mpr ⟨hcreator, hpending⟩)
      | cons handler rest =>
        exact delivered_of_pending (hpending ▸ List.mem_cons_self)

def retriedCall : List QueryEvent :=
  [.released, .getSubTree (some [("/board/emmc", [("owner", [emmcConfigInterface])])]),
   .getAll "/board/emmc" "owner" 5 none, .retryTimer "/board/emmc" "owner" 5 true]

theorem query_ends_retried :
    retriedCall.length ≤ 2 + 11 * (askedFor retriedCall).length ∧
      ((∃ event getter', Delivered
          { refs := 0, creator := false, pending := [], respData := .empty
            calls := [("/board/emmc", "owner")], reports := [.empty] } event getter') ↔
        [(FlatMap.empty : ManagedStorageType)] = []) :=
  query_ends (steps_of_foldlM rfl)

/-! ## Where the data comes from -/

/-- The call whose answer a handler waits for, or is to repeat. -/
def Handler.call? : Handler → Option (String × String)
  | .getSubTree => none
  | .getAll path owner _ => some (path, owner)
  | .retryTimer path owner _ => some (path, owner)

def Answered (events : List QueryEvent) (path : String) (data : StorageData) : Prop :=
  ∃ owner retries, (path, owner) ∈ askedFor events ∧
    .getAll path owner retries (some data) ∈ events

structure Traced (past : List QueryEvent) (getter : GetStorageConfiguration) : Prop where
  pending : ∀ handler ∈ getter.pending, ∀ call, handler.call? = some call → call ∈ askedFor past
  respData : ∀ path data, getter.respData.find? path = some data → Answered past path data

section Trace
variable {past : List QueryEvent} {getter getter' : GetStorageConfiguration} {event : QueryEvent}
variable {path : String} {data : StorageData}

theorem mem_askedFor_snoc {call : String × String} :
    call ∈ askedFor (past ++ [event]) ↔ call ∈ askedFor past ∨ call ∈ event.asked := by
  simp [askedFor]

theorem Answered.snoc (h : Answered past path data) (event : QueryEvent) :
    Answered (past ++ [event]) path data := by
  obtain ⟨owner, retries, hasked, hanswer⟩ := h
  exact ⟨owner, retries, mem_askedFor_snoc.mpr (.inl hasked), List.mem_append_left _ hanswer⟩

/-- What a handler starts is asked for by its event, or its own call again. -/
theorem spawns_call {handler handler' : Handler} {call : String × String}
    (hhandler : event.handler? = some handler) (hmem : handler' ∈ event.spawns)
    (hcall : handler'.call? = some call) : call ∈ event.asked ∨ handler.call? = some call := by
  cases event with
  | released => cases hhandler
  | getSubTree answer =>
    cases answer with
    | none => cases hmem
    | some ret =>
      obtain ⟨query, hquery, rfl⟩ := List.mem_map.mp hmem
      obtain rfl := Option.some.inj hcall
      exact .inl hquery
  | getAll path owner retries answer =>
    obtain rfl := Option.some.inj hhandler
    cases answer with
    | none =>
      simp only [QueryEvent.spawns] at hmem
      split_ifs at hmem
      · cases hmem
      · obtain rfl := List.mem_singleton.mp hmem
        exact .inr hcall
    | some data => cases hmem
  | retryTimer path owner retries ec =>
    obtain rfl := Option.some.inj hhandler
    cases ec with
    | false =>
      obtain rfl := List.mem_singleton.mp hmem
      exact .inr hcall
    | true => cases hmem

theorem store_cases (hfind : (event.store getter.respData).find? path = some data) :
    getter.respData.find? path = some data ∨
      ∃ owner retries, event = .getAll path owner retries (some data) := by
  unfold QueryEvent.store at hfind
  split at hfind
  · obtain ⟨rfl, rfl⟩ | hold := FlatMap.find?_assign_cases hfind
    · exact .inr ⟨_, _, rfl⟩
    · exact .inl hold
  · exact .inl hfind

theorem delivered_traced (past : List QueryEvent) (getter : GetStorageConfiguration)
    (event : QueryEvent) (getter' : GetStorageConfiguration) (hs : Traced past getter)
    (h : Delivered getter event getter') : Traced (past ++ [event]) getter' := by
  obtain ⟨hcalls, hdata⟩ := hs
  rcases deliver_cases h with ⟨rfl, -, rfl⟩ | ⟨handler, before, after, hhandler, hpending, rfl⟩
  · refine ⟨?_, ?_⟩
    · intro handler hmem call hcall
      exact mem_askedFor_snoc.mpr (.inl (hcalls handler (by simpa using hmem) call hcall))
    · intro path data hfind
      exact (hdata path data (by simpa using hfind)).snoc _
  · have hown : ∀ call, handler.call? = some call → call ∈ askedFor past :=
      hcalls handler (by simp [hpending])
    refine ⟨?_, ?_⟩
    · intro handler' hmem call hcall
      simp only [release_pending, settled, List.mem_append] at hmem
      rw [mem_askedFor_snoc]
      obtain (hmem | hmem) | hmem := hmem
      · exact .inl (hcalls handler' (by simp [hpending, hmem]) call hcall)
      · exact .inl (hcalls handler' (by simp [hpending, hmem]) call hcall)
      · exact (spawns_call hhandler hmem hcall).symm.imp_left (hown call)
    · intro path data hfind
      rw [release_respData] at hfind
      obtain hold | ⟨owner, retries, rfl⟩ := store_cases hfind
      · exact (hdata path data hold).snoc _
      · obtain rfl := Option.some.inj hhandler
        exact ⟨owner, retries, mem_askedFor_snoc.mpr (.inl (hown _ rfl)), by simp⟩

theorem traced_of_run (hrun : Steps Delivered initial past getter) : Traced past getter := by
  refine hrun.from_start ⟨?_, ?_⟩ delivered_traced
  · intro handler hmem call hcall
    obtain rfl := List.mem_singleton.mp hmem
    cases hcall
  · intro path data hfind
    cases hfind

end Trace

end Estoraged

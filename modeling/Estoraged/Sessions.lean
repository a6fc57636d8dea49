import Estoraged.GetConfig
import Mathlib.Data.List.Induction

/-!
# The query of one path

What happens to one path, whatever is going on for the others: it is asked for, a failed
answer leads to a pause and another call, and the sixth failure or the first data ends it.
The system follows this protocol for every path at once.
-/

namespace Estoraged
open Interaction GetStorageConfiguration
set_option autoImplicit false

/-- How far the query of a path is, with the number of calls made. -/
inductive Session where
  | unasked
  | asked (calls : Nat)
  | waiting (calls : Nat)
  | answered (calls : Nat) (data : StorageData)
  | failed (calls : Nat)

def maxCalls : Nat := 6

namespace Session

def next (path : String) : Session → QueryEvent → Session
  | .unasked, .getSubTree (some ret) =>
    if path ∈ (requests ret).map Prod.fst then .asked 1 else .unasked
  | .asked calls, .getAll path' _ _ answer =>
    if path' = path then
      match answer with
      | some data => .answered calls data
      | none => if calls < maxCalls then .waiting calls else .failed calls
    else .asked calls
  | .waiting calls, .retryTimer path' _ _ ec =>
    if path' = path then if ec then .failed calls else .asked (calls + 1) else .waiting calls
  | session, _ => session

def calls : Session → Nat
  | .unasked => 0
  | .asked calls | .waiting calls | .answered calls _ | .failed calls => calls

def failures : Session → Nat
  | .unasked => 0
  | .asked calls | .answered calls _ => calls - 1
  | .waiting calls | .failed calls => calls

def data? : Session → Option StorageData
  | .answered _ data => some data
  | _ => none

def Bounded : Session → Prop
  | .unasked => True
  | .asked calls | .answered calls _ | .failed calls => 0 < calls ∧ calls ≤ maxCalls
  | .waiting calls => 0 < calls ∧ calls < maxCalls

theorem Bounded.next {session : Session} (h : session.Bounded) (path : String)
    (event : QueryEvent) : (session.next path event).Bounded := by
  unfold Session.next
  split
  · split
    · exact ⟨Nat.one_pos, by decide⟩
    · trivial
  · split
    · split
      · exact h
      · split
        · exact ⟨h.1, by assumption⟩
        · exact h
    · exact h
  · split
    · split
      · exact ⟨h.1, h.2.le⟩
      · exact ⟨Nat.succ_pos _, h.2⟩
    · exact h
  · exact h

theorem Bounded.calls_le {session : Session} (h : session.Bounded) : session.calls ≤ maxCalls := by
  cases session with
  | unasked => exact Nat.zero_le _
  | waiting calls => exact h.2.le
  | _ => exact h.2

/-- Each call but the first follows a failed one. -/
theorem calls_le_failures (session : Session) : session.calls ≤ session.failures + 1 := by
  cases session <;> simp only [calls, failures] <;> omega

end Session

def session (path : String) (past : List QueryEvent) : Session :=
  past.foldl (Session.next path) .unasked

theorem session_snoc (path : String) (past : List QueryEvent) (event : QueryEvent) :
    session path (past ++ [event]) = (session path past).next path event :=
  List.foldl_concat ..

theorem session_bounded (path : String) (past : List QueryEvent) : (session path past).Bounded := by
  induction past using List.reverseRecOn with
  | nil => trivial
  | append_singleton past event ih =>
    rw [session_snoc]
    exact ih.next path event

/-! ## Events for other paths -/

def Handler.isFor (path : String) : Handler → Bool
  | .getSubTree => false
  | .getAll path' _ _ | .retryTimer path' _ _ => path' = path

def QueryEvent.fails (path : String) : QueryEvent → Bool
  | .getAll path' _ _ none => path' = path
  | _ => false

def QueryEvent.Concerns (path : String) : QueryEvent → Prop
  | .released | .getSubTree none => False
  | .getSubTree (some ret) => path ∈ (requests ret).map Prod.fst
  | .getAll path' _ _ _ | .retryTimer path' _ _ _ => path' = path

section Others
variable {path : String} {event : QueryEvent} (hother : ¬event.Concerns path)
include hother

theorem next_other (s : Session) : s.next path event = s := by
  unfold Session.next
  split
  · exact if_neg hother
  · exact if_neg hother
  · exact if_neg hother
  · rfl

theorem spawns_other : event.spawns.filter (·.isFor path) = [] := by
  apply List.filter_eq_nil_iff.mpr
  intro handler hmem
  unfold QueryEvent.spawns at hmem
  split at hmem
  · obtain ⟨query, hquery, rfl⟩ := List.mem_map.mp hmem
    have hne : query.1 ≠ path := fun h => hother (List.mem_map.mpr ⟨query, hquery, h⟩)
    simp [Handler.isFor, hne]
  · split_ifs at hmem
    · cases hmem
    · obtain rfl := List.mem_singleton.mp hmem
      simpa [Handler.isFor, QueryEvent.Concerns] using hother
  · obtain rfl := List.mem_singleton.mp hmem
    simpa [Handler.isFor, QueryEvent.Concerns] using hother
  · cases hmem

theorem asks_other : event.asks.filter (·.1 = path) = [] := by
  apply List.filter_eq_nil_iff.mpr
  intro query hmem
  unfold QueryEvent.asks at hmem
  split at hmem
  · simpa using fun h => hother (List.mem_map.mpr ⟨query, hmem, h⟩)
  · obtain rfl := List.mem_singleton.mp hmem
    simpa [QueryEvent.Concerns] using hother
  · cases hmem

theorem store_other (m : ManagedStorageType) : (event.store m).find? path = m.find? path := by
  unfold QueryEvent.store
  split
  · exact FlatMap.find?_assign_of_ne m (Ne.symm hother) _
  · rfl

theorem handler_other {handler : Handler} (hhandler : event.handler? = some handler) :
    handler.isFor path = false := by
  cases event with
  | released => cases hhandler
  | getSubTree answer =>
    obtain rfl := Option.some.inj hhandler
    rfl
  | getAll path' owner retries answer =>
    obtain rfl := Option.some.inj hhandler
    exact decide_eq_false hother
  | retryTimer path' owner retries ec =>
    obtain rfl := Option.some.inj hhandler
    exact decide_eq_false hother

theorem fails_other : event.fails path = false := by
  unfold QueryEvent.fails
  split
  · exact decide_eq_false hother
  · rfl

end Others

/-! ## The system follows the sessions -/

/-- The handlers that a session waits for. -/
def Session.Awaits (path : String) : Session → List Handler → Prop
  | .asked calls, handlers => ∃ owner retries, handlers = [.getAll path owner retries] ∧
      calls + retries = maxCalls
  | .waiting calls, handlers => ∃ owner retries, handlers = [.retryTimer path owner retries] ∧
      calls + retries = maxCalls
  | _, handlers => handlers = []

namespace Session
variable {path owner : String} {retries : Nat} {s : Session}

theorem Awaits.sole {handlers : List Handler} (h : s.Awaits path handlers) :
    handlers = [] ∨ ∃ handler, handlers = [handler] := by
  cases s with
  | asked calls =>
    rcases h with ⟨owner, retries, rfl, -⟩
    exact .inr ⟨_, rfl⟩
  | waiting calls =>
    rcases h with ⟨owner, retries, rfl, -⟩
    exact .inr ⟨_, rfl⟩
  | _ => exact .inl h

theorem Awaits.of_getAll (h : s.Awaits path [.getAll path owner retries]) :
    ∃ calls, s = .asked calls ∧ calls + retries = maxCalls := by
  cases s with
  | asked calls =>
    obtain ⟨_, _, ⟨⟩, hcalls⟩ := h
    exact ⟨calls, rfl, hcalls⟩
  | waiting calls =>
    obtain ⟨_, _, ⟨⟩, -⟩ := h
  | _ => cases h

theorem Awaits.of_retryTimer (h : s.Awaits path [.retryTimer path owner retries]) :
    ∃ calls, s = .waiting calls ∧ calls + retries = maxCalls := by
  cases s with
  | waiting calls =>
    obtain ⟨_, _, ⟨⟩, hcalls⟩ := h
    exact ⟨calls, rfl, hcalls⟩
  | asked calls =>
    obtain ⟨_, _, ⟨⟩, -⟩ := h
  | _ => cases h

end Session

structure Follows (path : String) (past : List QueryEvent) (getter : GetStorageConfiguration) :
    Prop where
  awaits : (session path past).Awaits path (getter.pending.filter (·.isFor path))
  data : getter.respData.find? path = (session path past).data?
  calls : (getter.calls.filter (·.1 = path)).length = (session path past).calls
  answers : ∀ data, (∃ owner retries, QueryEvent.getAll path owner retries (some data) ∈ past) ↔
    (session path past).data? = some data
  failures : past.countP (·.fails path) = (session path past).failures

section Follow
variable {path : String} {past : List QueryEvent} {getter : GetStorageConfiguration}
  {event : QueryEvent}

theorem Follows.other (hfollows : Follows path past getter) (hother : ¬event.Concerns path)
    {getter' : GetStorageConfiguration}
    (hpending : getter'.pending.filter (·.isFor path) = getter.pending.filter (·.isFor path))
    (hdata : getter'.respData.find? path = getter.respData.find? path)
    (hcalls : getter'.calls.filter (·.1 = path) = getter.calls.filter (·.1 = path)) :
    Follows path (past ++ [event]) getter' := by
  have hsession : session path (past ++ [event]) = session path past := by
    rw [session_snoc, next_other hother]
  refine ⟨?_, ?_, ?_, fun data => ?_, ?_⟩
  · rw [hsession, hpending]
    exact hfollows.awaits
  · rw [hsession, hdata]
    exact hfollows.data
  · rw [hsession, hcalls]
    exact hfollows.calls
  · rw [hsession, ← hfollows.answers data]
    have hne : ∀ owner retries, event ≠ .getAll path owner retries (some data) := by
      rintro owner retries rfl
      exact hother rfl
    simp [fun owner retries => Ne.symm (hne owner retries)]
  · rw [hsession, List.countP_append, hfollows.failures]
    simp [fails_other hother]

variable {handler : Handler} {before after : List Handler}

theorem filter_pop {handler' : Handler} (hfor : handler.isFor path = true)
    (hfilter : (before ++ handler :: after).filter (·.isFor path) = [handler']) :
    handler = handler' ∧ (before ++ after).filter (·.isFor path) = [] := by
  rw [List.filter_append, List.filter_cons, if_pos hfor, List.append_eq_singleton_iff] at hfilter
  rcases hfilter with ⟨hbefore, hrest⟩ | ⟨-, hrest⟩
  · obtain ⟨hhandler, hafter⟩ := List.cons.inj hrest
    exact ⟨hhandler, by rw [List.filter_append, hbefore, hafter]; rfl⟩
  · cases hrest

/-- A handler of a path that runs is the one its session waits for, and the only one. -/
theorem Follows.runs (hfollows : Follows path past getter) (hfor : handler.isFor path = true)
    (hpending : getter.pending = before ++ handler :: after) :
    (session path past).Awaits path [handler] ∧
      (before ++ after).filter (·.isFor path) = [] := by
  have hawaits := hfollows.awaits
  rw [hpending] at hawaits
  rcases hawaits.sole with hnil | ⟨handler', hfilter⟩
  · have hmem : handler ∈ (before ++ handler :: after).filter (·.isFor path) :=
      List.mem_filter.mpr ⟨by simp, hfor⟩
    rw [hnil] at hmem
    cases hmem
  · obtain ⟨rfl, hothers⟩ := filter_pop hfor hfilter
    exact ⟨hfilter ▸ hawaits, hothers⟩

/-- What is left to show for an event that concerns the path. -/
theorem Follows.concerned (hfollows : Follows path past getter)
    (hothers : (before ++ after).filter (·.isFor path) = []) {t : Session}
    (hnext : (session path past).next path event = t)
    (hawaits : t.Awaits path (event.spawns.filter (·.isFor path)))
    (hdata : (event.store getter.respData).find? path = t.data?)
    (hcalls : (session path past).calls + (event.asks.filter (·.1 = path)).length = t.calls)
    (hanswers : ∀ data, (t.data? = some data ↔ (session path past).data? = some data ∨
      ∃ owner retries, event = .getAll path owner retries (some data)))
    (hfailures : (session path past).failures + (event.fails path).toNat = t.failures) :
    Follows path (past ++ [event]) (getter.settled event (before ++ after)).release := by
  have hsession : session path (past ++ [event]) = t := by rw [session_snoc, hnext]
  refine ⟨?_, ?_, ?_, fun data => ?_, ?_⟩
  · rwa [hsession, release_pending, settled, List.filter_append, hothers, List.nil_append]
  · simpa [hsession, settled] using hdata
  · simpa [hsession, settled, hfollows.calls] using hcalls
  · rw [hsession, hanswers data, ← hfollows.answers data]
    simp [exists_or, eq_comm]
  · rw [hsession, ← hfailures, List.countP_append, hfollows.failures]
    cases hfails : event.fails path <;> simp [hfails]

theorem Follows.getAll {owner : String} {retries : Nat} {answer : Option StorageData}
    (hfollows : Follows path past getter)
    (hpending : getter.pending = before ++ .getAll path owner retries :: after) :
    Follows path (past ++ [.getAll path owner retries answer])
      (getter.settled (.getAll path owner retries answer) (before ++ after)).release := by
  have hfor : (Handler.getAll path owner retries).isFor path = true := decide_eq_true rfl
  obtain ⟨hawaits, hothers⟩ := hfollows.runs hfor hpending
  obtain ⟨calls, hsession, hcalls⟩ := hawaits.of_getAll
  have hbound := session_bounded path past
  have hdata := hfollows.data
  rw [hsession] at hbound hdata
  cases answer with
  | some data =>
    apply hfollows.concerned hothers (t := .answered calls data)
    · simp [hsession, Session.next]
    · rfl
    · exact FlatMap.find?_assign_self ..
    · simp [hsession, Session.calls, QueryEvent.asks]
    · simp [hsession, Session.data?]
    · simp [hsession, Session.failures, QueryEvent.fails]
  | none =>
    by_cases hmore : calls < maxCalls
    · have hretries : retries ≠ 0 := by omega
      apply hfollows.concerned hothers (t := .waiting calls)
      · simp [hsession, Session.next, hmore]
      · simpa [Session.Awaits, QueryEvent.spawns, hretries, Handler.isFor] using hcalls
      · exact hdata
      · simp [hsession, Session.calls, QueryEvent.asks]
      · simp [hsession, Session.data?]
      · have := hbound.1
        simp only [hsession, Session.failures, QueryEvent.fails, decide_true, Bool.toNat_true]
        omega
    · have hretries : retries = 0 := by omega
      apply hfollows.concerned hothers (t := .failed calls)
      · simp [hsession, Session.next, hmore]
      · simp [Session.Awaits, QueryEvent.spawns, hretries]
      · exact hdata
      · simp [hsession, Session.calls, QueryEvent.asks]
      · simp [hsession, Session.data?]
      · have := hbound.1
        simp only [hsession, Session.failures, QueryEvent.fails, decide_true, Bool.toNat_true]
        omega

theorem Follows.retryTimer {owner : String} {retries : Nat} {ec : Bool}
    (hfollows : Follows path past getter)
    (hpending : getter.pending = before ++ .retryTimer path owner retries :: after) :
    Follows path (past ++ [.retryTimer path owner retries ec])
      (getter.settled (.retryTimer path owner retries ec) (before ++ after)).release := by
  have hfor : (Handler.retryTimer path owner retries).isFor path = true := decide_eq_true rfl
  obtain ⟨hawaits, hothers⟩ := hfollows.runs hfor hpending
  obtain ⟨calls, hsession, hcalls⟩ := hawaits.of_retryTimer
  have hbound := session_bounded path past
  have hdata := hfollows.data
  rw [hsession] at hbound hdata
  cases ec with
  | true =>
    apply hfollows.concerned hothers (t := .failed calls)
    · simp [hsession, Session.next]
    · rfl
    · exact hdata
    · simp [hsession, Session.calls, QueryEvent.asks]
    · simp [hsession, Session.data?]
    · simp [hsession, Session.failures, QueryEvent.fails]
  | false =>
    apply hfollows.concerned hothers (t := .asked (calls + 1))
    · simp [hsession, Session.next]
    · have hless : calls < maxCalls := hbound.2
      simp only [Session.Awaits, QueryEvent.spawns, Handler.isFor]
      exact ⟨owner, retries - 1, by simp, by omega⟩
    · exact hdata
    · simp [hsession, Session.calls, QueryEvent.asks]
    · simp [hsession, Session.data?]
    · simp [hsession, Session.failures, QueryEvent.fails]

end Follow

/-! ## The reply of the mapper -/

/-- The paths are distinct, and so are the interfaces of each owner. -/
def Distinct (ret : GetSubTreeType) : Prop :=
  (ret.map Prod.fst).Nodup ∧ ∀ object ∈ ret, ∀ owner ∈ object.2, owner.2.Nodup

theorem requests_paths (ret : GetSubTreeType) :
    (requests ret).map Prod.fst ⊆ ret.map Prod.fst := by
  induction ret with
  | nil => simp [requests]
  | cons object rest ih =>
    rcases object with ⟨objPath, _ | ⟨⟨objOwner, interfaces⟩, others⟩⟩
    · simp [requests]
    · rw [requests, List.map_append, List.map_map, List.map_cons]
      refine List.append_subset.mpr ⟨fun path hpath => ?_, fun path hpath => ?_⟩
      · obtain ⟨_, -, rfl⟩ := List.mem_map.mp hpath
        exact List.mem_cons_self
      · exact List.mem_cons_of_mem _ (ih hpath)

theorem requests_nodup {ret : GetSubTreeType} (hdistinct : Distinct ret) :
    ((requests ret).map Prod.fst).Nodup := by
  induction ret with
  | nil => simp [requests]
  | cons object rest ih =>
    rcases hdistinct with ⟨hpaths, hinterfaces⟩
    rcases object with ⟨objPath, _ | ⟨⟨objOwner, interfaces⟩, others⟩⟩
    · simp [requests]
    · have hnodup : interfaces.Nodup := hinterfaces _ List.mem_cons_self _ List.mem_cons_self
      obtain ⟨hnotmem, hrest⟩ := List.nodup_cons.mp hpaths
      rw [requests, List.map_append, List.map_map, List.filter_eq, List.map_replicate]
      refine List.nodup_append.mpr ⟨?_, ?_, ?_⟩
      · exact List.nodup_replicate.mpr (List.nodup_iff_count.mp hnodup _)
      · exact ih ⟨hrest, fun object hobject => hinterfaces object (List.mem_cons_of_mem _ hobject)⟩
      · rintro path hpath _ hmem rfl
        obtain rfl := List.eq_of_mem_replicate hpath
        exact hnotmem (requests_paths rest hmem)

theorem filter_nodup {queries : List (String × String)} {path : String}
    (hnodup : (queries.map Prod.fst).Nodup) (hmem : path ∈ queries.map Prod.fst) :
    ∃ owner, queries.filter (·.1 = path) = [(path, owner)] := by
  induction queries with
  | nil => cases hmem
  | cons query rest ih =>
    obtain ⟨hnotmem, hrest⟩ := List.nodup_cons.mp hnodup
    by_cases hpath : query.1 = path
    · subst hpath
      have hnone : rest.filter (·.1 = query.1) = [] := by
        apply List.filter_eq_nil_iff.mpr
        intro query' hquery'
        have hne : query'.1 ≠ query.1 := fun h => hnotmem (List.mem_map.mpr ⟨query', hquery', h⟩)
        simp [hne]
      exact ⟨query.2, by rw [List.filter_cons_of_pos (by simp), hnone]⟩
    · obtain ⟨owner, hfilter⟩ :=
        ih hrest ((List.mem_cons.mp hmem).resolve_left fun h => hpath h.symm)
      exact ⟨owner, by rw [List.filter_cons_of_neg (by simpa using hpath), hfilter]⟩

section Reply
variable {path : String} {past : List QueryEvent} {getter : GetStorageConfiguration}
  {event : QueryEvent}

theorem Follows.getSubTree {ret : GetSubTreeType} (hfollows : Follows path past getter)
    (hunasked : session path past = .unasked) (hdistinct : Distinct ret)
    (hnamed : path ∈ (requests ret).map Prod.fst) :
    Follows path (past ++ [.getSubTree (some ret)])
      (getter.settled (.getSubTree (some ret)) ([] ++ [])).release := by
  obtain ⟨owner, hfilter⟩ := filter_nodup (requests_nodup hdistinct) hnamed
  have hdata := hfollows.data
  rw [hunasked] at hdata
  apply hfollows.concerned rfl (t := .asked 1)
  · simp [hunasked, Session.next, hnamed]
  · refine ⟨owner, defaultRetries, ?_, rfl⟩
    have hcomp : Handler.isFor path ∘ (fun query : String × String =>
        Handler.getAll query.1 query.2 defaultRetries) = fun query => decide (query.1 = path) := rfl
    simp only [QueryEvent.spawns, List.filter_map, hcomp, hfilter, List.map_singleton]
  · exact hdata
  · simp [hunasked, Session.calls, QueryEvent.asks, hfilter]
  · simp [hunasked, Session.data?]
  · simp [hunasked, Session.failures, QueryEvent.fails]

theorem QueryEvent.getSubTree_notMem_spawns : Handler.getSubTree ∉ event.spawns := by
  intro hmem
  unfold QueryEvent.spawns at hmem
  split at hmem
  · obtain ⟨_, -, heq⟩ := List.mem_map.mp hmem
    cases heq
  · split at hmem <;> simp at hmem
  · simp at hmem
  · cases hmem

end Reply

theorem only_handler {handler handler' : Handler} {before after : List Handler}
    (h : before ++ handler :: after = [handler']) : handler = handler' ∧ before ++ after = [] := by
  rcases List.append_eq_singleton_iff.mp h with ⟨rfl, hrest⟩ | ⟨-, hrest⟩
  · obtain ⟨hhandler, rfl⟩ := List.cons.inj hrest
    exact ⟨hhandler, rfl⟩
  · cases hrest

/-- Until the mapper has answered, no path is asked for; and every path follows its session. -/
structure Consistent (past : List QueryEvent) (getter : GetStorageConfiguration) : Prop where
  fresh : .getSubTree ∈ getter.pending →
    getter.pending = [.getSubTree] ∧ ∀ path, session path past = .unasked
  follows : ∀ path, Follows path past getter

theorem consistent_initial : Consistent [] initial := by
  refine ⟨fun _ => ⟨rfl, fun _ => rfl⟩, fun path => ⟨rfl, rfl, rfl, fun data => ?_, rfl⟩⟩
  simp [session, Session.data?]

section Delivery
variable {past : List QueryEvent} {getter : GetStorageConfiguration} {event : QueryEvent}
variable {handler : Handler} {before after : List Handler}

theorem Consistent.released (hs : Consistent past getter) :
    Consistent (past ++ [.released]) { getter with creator := false }.release := by
  have hother : ∀ path, ¬QueryEvent.released.Concerns path := fun _ h => h
  refine ⟨fun hmem => ?_, fun path => ?_⟩
  · obtain ⟨hpending, hunasked⟩ := hs.fresh (by simpa using hmem)
    refine ⟨by simpa using hpending, fun path => ?_⟩
    rw [session_snoc, next_other (hother path), hunasked path]
  · exact (hs.follows path).other (hother path) (by simp) (by simp) (by simp)

/-- The mapper's handler is the only one while it is pending, so it is gone afterwards. -/
theorem Consistent.mapper_done (hs : Consistent past getter)
    (hpending : getter.pending = before ++ handler :: after) :
    Handler.getSubTree ∉ (getter.settled event (before ++ after)).release.pending := by
  intro hmem
  rw [release_pending, settled] at hmem
  have hothers : Handler.getSubTree ∈ before ++ after :=
    (List.mem_append.mp hmem).resolve_right QueryEvent.getSubTree_notMem_spawns
  have hwas : Handler.getSubTree ∈ getter.pending := by
    rw [hpending]
    exact List.mem_append.mpr ((List.mem_append.mp hothers).imp_right (List.mem_cons_of_mem _))
  rw [(only_handler (hpending.symm.trans (hs.fresh hwas).1)).2] at hothers
  cases hothers

theorem Consistent.follows_handled (hs : Consistent past getter)
    (hdistinct : ∀ ret, event = .getSubTree (some ret) → Distinct ret)
    (hhandler : event.handler? = some handler)
    (hpending : getter.pending = before ++ handler :: after) (path : String) :
    Follows path (past ++ [event]) (getter.settled event (before ++ after)).release := by
  by_cases hconcerns : event.Concerns path
  · cases event with
    | released => exact hconcerns.elim
    | getSubTree answer =>
      cases answer with
      | none => exact hconcerns.elim
      | some ret =>
        obtain rfl := Option.some.inj hhandler
        obtain ⟨hsole, hunasked⟩ := hs.fresh (by simp [hpending])
        rw [(only_handler (hpending.symm.trans hsole)).2]
        exact (hs.follows path).getSubTree (hunasked path) (hdistinct ret rfl) hconcerns
    | getAll path' owner retries answer =>
      obtain rfl : path' = path := hconcerns
      obtain rfl := Option.some.inj hhandler
      exact (hs.follows path').getAll hpending
    | retryTimer path' owner retries ec =>
      obtain rfl : path' = path := hconcerns
      obtain rfl := Option.some.inj hhandler
      exact (hs.follows path').retryTimer hpending
  · apply (hs.follows path).other hconcerns
    · simp [settled, hpending, spawns_other hconcerns, handler_other hconcerns hhandler]
    · simp [settled, store_other hconcerns]
    · simp [settled, asks_other hconcerns]

end Delivery

theorem delivered_consistent (past : List QueryEvent) (getter : GetStorageConfiguration)
    (event : QueryEvent) (getter' : GetStorageConfiguration) (hs : Consistent past getter)
    (h : Delivered getter event getter' ∧ ∀ ret, event = .getSubTree (some ret) → Distinct ret) :
    Consistent (past ++ [event]) getter' := by
  rcases h with ⟨hdelivered, hdistinct⟩
  rcases deliver_cases hdelivered with
    ⟨rfl, -, rfl⟩ | ⟨handler, before, after, hhandler, hpending, rfl⟩
  · exact hs.released
  · exact ⟨fun hmem => absurd hmem (hs.mapper_done hpending),
      hs.follows_handled hdistinct hhandler hpending⟩

/-- The callback is given the collected data once, as soon as nothing is outstanding. The data
of a path is that of the one call that was answered, among at most six, each of which but
the first follows a failed one. -/
theorem configuration_reported {events : List QueryEvent} {getter : GetStorageConfiguration}
    (hrun : Steps Delivered initial events getter)
    (hdistinct : ∀ ret, QueryEvent.getSubTree (some ret) ∈ events → Distinct ret) :
    (getter.reports.length ≤ 1 ∧
      (getter.reports ≠ [] ↔ getter.creator = false ∧ getter.pending = [])) ∧
    (∀ report ∈ getter.reports, ∀ path data, report.find? path = some data ↔
      ∃ owner retries, QueryEvent.getAll path owner retries (some data) ∈ events) ∧
    ∀ path, (getter.calls.filter (·.1 = path)).length ≤ 6 ∧
      (getter.calls.filter (·.1 = path)).length ≤ events.countP (·.fails path) + 1 ∧
      (getter.pending.filter (·.isFor path)).length ≤ 1 := by
  have hcounted : getter.Counted := hrun.invariant delivered_counted counted_initial
  have hrestrict := hrun.restrict (P := fun event =>
    ∀ ret, event = .getSubTree (some ret) → Distinct ret)
    (by rintro _ hmem ret rfl; exact hdistinct ret hmem)
  have hconsistent : Consistent events getter := by
    simpa using hrestrict.history delivered_consistent consistent_initial
  have hreports := hcounted.reports
  refine ⟨⟨?_, hcounted.reports_iff⟩, fun report hreport path data => ?_, fun path => ?_⟩
  · rw [hreports]
    split_ifs <;> simp
  · have hreport : report = getter.respData := by
      rw [hreports] at hreport
      split_ifs at hreport
      · exact List.mem_singleton.mp hreport
      · cases hreport
    rw [hreport, (hconsistent.follows path).data, (hconsistent.follows path).answers]
  · have hfollows := hconsistent.follows path
    rw [hfollows.calls, hfollows.failures]
    refine ⟨(session_bounded path events).calls_le, (session path events).calls_le_failures, ?_⟩
    rcases hfollows.awaits.sole with hnil | ⟨handler, hsole⟩
    · simp [hnil]
    · simp [hsole]

def mapperReply : GetSubTreeType :=
  [("/board/emmc", [("xyz.openbmc_project.EntityManager", [emmcConfigInterface])])]

def retriedQuery : List QueryEvent :=
  [.released, .getSubTree (some mapperReply),
   .getAll "/board/emmc" "xyz.openbmc_project.EntityManager" 5 none,
   .retryTimer "/board/emmc" "xyz.openbmc_project.EntityManager" 5 false,
   .getAll "/board/emmc" "xyz.openbmc_project.EntityManager" 4
     (some (FlatMap.empty.assign "Type" (.string "EmmcDevice")))]

def retriedGetter : GetStorageConfiguration where
  refs := 0
  creator := false
  pending := []
  respData := emmcReply "/board/emmc"
  calls := [("/board/emmc", "xyz.openbmc_project.EntityManager"),
    ("/board/emmc", "xyz.openbmc_project.EntityManager")]
  reports := [emmcReply "/board/emmc"]

theorem configuration_reported_retried :
    (retriedGetter.reports.length ≤ 1 ∧
      (retriedGetter.reports ≠ [] ↔
        retriedGetter.creator = false ∧ retriedGetter.pending = [])) ∧
    (∀ report ∈ retriedGetter.reports, ∀ path data, report.find? path = some data ↔
      ∃ owner retries, QueryEvent.getAll path owner retries (some data) ∈ retriedQuery) ∧
    ∀ path, (retriedGetter.calls.filter (·.1 = path)).length ≤ 6 ∧
      (retriedGetter.calls.filter (·.1 = path)).length ≤
        retriedQuery.countP (·.fails path) + 1 ∧
      (retriedGetter.pending.filter (·.isFor path)).length ≤ 1 :=
  configuration_reported
    (.cons rfl (.cons rfl (.cons rfl (.cons rfl (.cons rfl (.nil _))))))
    (by
      intro ret hmem
      obtain rfl : ret = mapperReply := by simpa [retriedQuery] using hmem
      simp [Distinct, mapperReply])

end Estoraged

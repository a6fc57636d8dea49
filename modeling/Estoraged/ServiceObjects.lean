import Estoraged.Service
import Estoraged.QueryEnds
import Mathlib.Data.List.Perm.Basic

/-!
# The storage objects of the service

To the storage objects a run of the service is a sequence of callbacks, one for each query
that has ended. An entry is never changed again, no object is constructed twice, and each
is made from what was answered for its path.
-/

namespace Estoraged
open Interaction GetStorageConfiguration
set_option autoImplicit false

/-! ## Runs of callbacks -/

section Build
variable [EstoragedConf]

/-- As `Delivers`, whatever becomes of `/sys/block`. -/
def CalledBack (s : Daemon) (d : Delivery) (s' : Daemon) : Prop :=
  s = .running d.before ∧ s' = .afterwards d.outcome.result

omit [EstoragedConf] in
theorem Daemon.afterwards_running {result : Except Exception StorageObjects}
    {objs : StorageObjects} (h : Daemon.afterwards result = .running objs) : result = .ok objs := by
  cases result with
  | error e => cases h
  | ok objs' =>
    cases h
    rfl

section Callback
variable {d : Delivery} {objs : StorageObjects}

theorem Delivery.keeps (hresult : d.outcome.result = .ok objs) {p : String}
    {entry : Option EStoraged} (hentry : d.before.find? p = some entry) :
    objs.find? p = some entry := by
  by_cases hsingle : ∃ storage, d.reply.entries = [storage]
  · obtain ⟨⟨path, data⟩, hreply⟩ := hsingle
    rw [outcome, createStorageObjects_single _ _ hreply] at hresult
    have hpass : Pass d.host d.before path data
        (createStorageObject d.host d.before (path, data)) :=
      createStorageObject_pass
    generalize createStorageObject d.host d.before (path, data) = out at hpass hresult
    have hassign : ∀ entry', d.before.find? path = none →
        (d.before.assign path entry').find? p = some entry := by
      intro entry' hnew
      rw [FlatMap.find?_assign_of_ne, hentry]
      rintro rfl
      simp [hnew] at hentry
    cases hpass with
    | known =>
      obtain rfl := Except.ok.inj hresult
      exact hentry
    | live hnew | placeholder hnew =>
      obtain rfl := Except.ok.inj hresult
      exact hassign _ hnew
    | refused | escaped => cases hresult
  · push Not at hsingle
    rw [outcome, createStorageObjects_other _ _ hsingle] at hresult
    obtain rfl := Except.ok.inj hresult
    exact hentry

/-- What is constructed is new, and live when the callback returns. -/
theorem Delivery.constructed_cases : d.outcome.constructed = [] ∨
    ∃ object, d.outcome.constructed = [object] ∧ d.before.find? object.configPath = none ∧
      ∀ objs, d.outcome.result = .ok objs → Live objs object.configPath object := by
  by_cases hsingle : ∃ storage, d.reply.entries = [storage]
  · obtain ⟨⟨path, data⟩, hreply⟩ := hsingle
    rw [outcome, createStorageObjects_single _ _ hreply]
    have hpass : Pass d.host d.before path data
        (createStorageObject d.host d.before (path, data)) :=
      createStorageObject_pass
    generalize createStorageObject d.host d.before (path, data) = out at hpass
    cases hpass with
    | known | placeholder | escaped => exact .inl rfl
    | live hnew =>
      refine .inr ⟨_, rfl, hnew, ?_⟩
      intro objs hresult
      obtain rfl := Except.ok.inj hresult
      exact FlatMap.find?_assign_self ..
    | refused hnew =>
      refine .inr ⟨_, rfl, hnew, ?_⟩
      intro objs hresult
      cases hresult
  · push Not at hsingle
    rw [outcome, createStorageObjects_other _ _ hsingle]
    exact .inl rfl

end Callback

theorem calledBack_keeps {ds : List Delivery} {s s' : Daemon} {objs objs' : StorageObjects}
    (hrun : Steps CalledBack s ds s') (hs : s = .running objs) (hs' : s' = .running objs')
    {p : String} {entry : Option EStoraged} (hentry : objs.find? p = some entry) :
    objs'.find? p = some entry := by
  induction hrun generalizing objs with
  | nil =>
    cases hs.symm.trans hs'
    exact hentry
  | cons hback hrest ih =>
    obtain ⟨hbefore, rfl⟩ := hback
    cases hs.symm.trans hbefore
    cases hrest with
    | nil => exact Delivery.keeps (Daemon.afterwards_running hs') hentry
    | cons hback' hrest' =>
      exact ih hback'.1 hs' (Delivery.keeps (Daemon.afterwards_running hback'.1) hentry)

theorem Delivery.returns {d : Delivery} (hconstruct : ∀ object, d.host.construct object = .ok ())
    (hmanageable : ∀ path data, d.reply.entries = [(path, data)] → Manageable d.host data) :
    ∃ objs, d.outcome.result = .ok objs := by
  by_cases hsingle : ∃ storage, d.reply.entries = [storage]
  · obtain ⟨⟨path, data⟩, hreply⟩ := hsingle
    rw [outcome, createStorageObjects_single _ _ hreply]
    cases hpath : d.before.find? path with
    | some entry => exact ⟨d.before, by rw [createStorageObject_known hpath]⟩
    | none =>
      exact (createStorageObject_returns_iff hconstruct hpath).mpr (hmanageable path data hreply)
  · push Not at hsingle
    rw [outcome, createStorageObjects_other _ _ hsingle]
    exact ⟨d.before, rfl⟩

theorem running_of_returns {ds : List Delivery} {s s' : Daemon}
    (hreturns : ∀ d ∈ ds, ∃ objs, d.outcome.result = .ok objs) (hrun : Steps CalledBack s ds s')
    (hs : s ≠ .terminated) : s' ≠ .terminated := by
  induction hrun with
  | nil => exact hs
  | @cons s s₁ s₂ d ds hback _ ih =>
    obtain ⟨hhead, hrest⟩ := List.forall_mem_cons.mp hreturns
    obtain ⟨objs, hresult⟩ := hhead
    apply ih hrest
    rw [hback.2, hresult]
    intro h
    cases h

def built (ds : List Delivery) : List EStoraged := ds.flatMap fun d => d.outcome.constructed

/-- The constructor ran at most once for a config path, and the live objects are those it
made, each at its own path. -/
structure BuiltOnce (past : List Delivery) (s : Daemon) : Prop where
  nodup : ((built past).map EStoraged.configPath).Nodup
  live : ∀ objs, s = .running objs → ∀ path object,
    Live objs path object ↔ object ∈ built past ∧ object.configPath = path

theorem calledBack_builtOnce (past : List Delivery) (s : Daemon) (d : Delivery) (s' : Daemon)
    (hs : BuiltOnce past s) (h : CalledBack s d s') : BuiltOnce (past ++ [d]) s' := by
  obtain ⟨rfl, rfl⟩ := h
  have hlive := hs.live _ rfl
  have hbuilt : built (past ++ [d]) = built past ++ d.outcome.constructed := by simp [built]
  refine ⟨?_, ?_⟩
  · rw [hbuilt, List.map_append]
    obtain hnone | ⟨object, hone, hnew, -⟩ := d.constructed_cases
    · simpa [hnone] using hs.nodup
    · rw [hone]
      refine List.nodup_append.mpr ⟨hs.nodup, by simp, ?_⟩
      intro path hpath _ hmem
      obtain rfl := List.mem_singleton.mp hmem
      obtain ⟨object', hobject', rfl⟩ := List.mem_map.mp hpath
      intro hsame
      have hthere : Live d.before object'.configPath object' := (hlive _ _).mpr ⟨hobject', rfl⟩
      rw [Live, hsame, hnew] at hthere
      cases hthere
  · intro objs hrunning path object
    have hresult := Daemon.afterwards_running hrunning
    rw [hbuilt, List.mem_append]
    constructor
    · intro hnow
      obtain hbefore | ⟨hmem, data, hreply⟩ := Delivery.live_after hresult hnow
      · exact ((hlive path object).mp hbefore).imp_left .inl
      · refine ⟨.inr hmem, ?_⟩
        obtain ⟨path', data', hreply', -, info, size, -, rfl⟩ := Delivery.constructed_iff.mp hmem
        simp only [hreply', List.cons.injEq, Prod.mk.injEq] at hreply
        exact hreply.1.1
    · intro h
      obtain ⟨hpast | hmem, rfl⟩ := h
      · exact Delivery.keeps hresult ((hlive _ _).mpr ⟨hpast, rfl⟩)
      · obtain hnone | ⟨object', hone, -, hafter⟩ := d.constructed_cases
        · simp [hnone] at hmem
        · obtain rfl := List.mem_singleton.mp (hone ▸ hmem)
          exact hafter objs hresult

theorem builtOnce_of_run {ds : List Delivery} {s : Daemon}
    (hrun : Steps CalledBack (.running .empty) ds s) : BuiltOnce ds s := by
  refine hrun.from_start ⟨List.nodup_nil, ?_⟩ calledBack_builtOnce
  intro objs hrunning path object
  cases hrunning
  constructor
  · intro hlive
    cases hlive
  · intro h
    cases h.1

/-! ## The callbacks of the service -/

/-- One callback, at the event that ends its query. -/
structure Reports (past : List ServiceEvent) (s : Service) (event : ServiceEvent) (s' : Service)
    (d : Delivery) : Prop where
  called : s.callbacks event = [d]
  answered : ∃ index queryEvent, event = .query index queryEvent d.host ∧
    ∀ path data, d.reply.find? path = some data →
      Answered (.released :: queryEvents index (past ++ [event])) path data
  reports : (s'.queries.flatMap GetStorageConfiguration.reports).Perm
    (s.queries.flatMap GetStorageConfiguration.reports ++ [d.reply])

section Events
variable {past : List ServiceEvent} {s s' : Service} {event : ServiceEvent}

omit [EstoragedConf] in
/-- What a query that is still under way hands to its callback at its next event. -/
theorem newly_reported {events : List QueryEvent} {queryEvent : QueryEvent}
    {getter getter' : GetStorageConfiguration}
    (hrun : Steps Delivered initial (.released :: events) getter)
    (h : Delivered getter queryEvent getter') :
    getter.reports = [] ∧ (getter'.reports = [] ∨ getter'.reports = [getter'.respData]) := by
  have hreports := opened_reports hrun
  have hreports' := opened_reports (hrun.snoc h)
  constructor
  · rcases deliver_cases h with ⟨-, hcreator, -⟩ | ⟨handler, before, after, -, hpending, -⟩
    · rw [opened_creator hrun] at hcreator
      cases hcreator
    · rw [hreports, if_neg (by simp [hpending])]
  · rw [hreports']
    split_ifs
    · exact .inr rfl
    · exact .inl rfl

omit [EstoragedConf] in
theorem flatMap_set_perm {α β : Type} {f : α → List β} {l : List α} {i : Nat} {a b : α}
    (ha : l[i]? = some a) (hnone : f a = []) :
    ((l.set i b).flatMap f).Perm (l.flatMap f ++ f b) := by
  induction l generalizing i with
  | nil => cases ha
  | cons c l ih =>
    cases i with
    | zero =>
      obtain rfl := Option.some.inj ha
      simpa [hnone] using List.perm_append_comm
    | succ i =>
      rw [List.set_cons_succ, List.flatMap_cons, List.flatMap_cons, List.append_assoc]
      exact (ih ha).append_left _

theorem foldl_terminated (host : Host) (reports : List ManagedStorageType) :
    reports.foldl (Daemon.callback host) .terminated = .terminated := by
  induction reports with
  | nil => rfl
  | cons report reports ih => exact ih

theorem called_calledBack (host : Host) (daemon : Daemon) (reports : List ManagedStorageType) :
    Steps CalledBack daemon (daemon.called host reports)
      (reports.foldl (Daemon.callback host) daemon) := by
  induction reports generalizing daemon with
  | nil => exact .nil _
  | cons report reports ih =>
    cases daemon with
    | running objs => exact .cons ⟨rfl, rfl⟩ (ih _)
    | terminated =>
      rw [foldl_terminated]
      exact .nil _

omit [EstoragedConf] in
theorem newReports_eq {index : Nat} {queryEvent : QueryEvent}
    {getter getter' : GetStorageConfiguration} (hgetter : s.queries[index]? = some getter)
    (h : Delivered getter queryEvent getter') :
    s.newReports index queryEvent = getter'.reports.drop getter.reports.length := by
  have hdelivered : getter.deliver queryEvent = some getter' := h
  simp only [Service.newReports, hgetter, hdelivered]

/-- The storage objects change by the callbacks only. -/
theorem moves_calledBack (h : s.Moves event s') :
    Steps CalledBack s.daemon (s.callbacks event) s'.daemon := by
  cases h.move with
  | posted | signal | ignored | elapse | timeout | fired | dropped => exact .nil _
  | query hgetter hdelivered =>
    rw [Service.callbacks, newReports_eq hgetter hdelivered]
    exact called_calledBack ..

theorem log_append {first last : List ServiceEvent} (h : Steps Service.Moves s first s') :
    s.log (first ++ last) = s.log first ++ s'.log last := by
  induction h with
  | nil s => rfl
  | cons hmoves _ ih =>
    have hadvance := Service.Moves.eq_1 .. ▸ hmoves
    simp only [List.cons_append, Service.log, hadvance, ih, List.append_assoc]

theorem log_calledBack {events : List ServiceEvent} (h : Steps Service.Moves s events s') :
    Steps CalledBack s.daemon (s.log events) s'.daemon := by
  induction h with
  | nil s => exact .nil _
  | cons hmoves _ ih =>
    have hadvance := Service.Moves.eq_1 .. ▸ hmoves
    simp only [Service.log, hadvance]
    exact (moves_calledBack hmoves).append ih

/-- An event at which no query ends, or one that ends a query with its only callback. -/
theorem moves_reports (hs : s.Tracks past) (h : s.Moves event s') :
    (s.callbacks event = [] ∧ (s'.queries.flatMap GetStorageConfiguration.reports).Perm
        (s.queries.flatMap GetStorageConfiguration.reports)) ∨
      ∃ d, Reports past s event s' d := by
  have hrunning : ∃ objs, s.daemon = .running objs := by
    unfold Service.Moves Service.advance at h
    split at h
    · exact ⟨_, by assumption⟩
    · cases h
  have htracks := moves_tracks past s event s' hs h
  cases h.move with
  | posted | fired =>
    have hopened : opened.reports = [] := rfl
    exact .inl ⟨rfl, by simp [hopened]⟩
  | signal | ignored | elapse | timeout | dropped => exact .inl ⟨rfl, .refl _⟩
  | @query index queryEvent host getter getter' hgetter hdelivered =>
    have hrun := hs.runs index getter hgetter
    obtain ⟨hnone, hreports⟩ := newly_reported hrun hdelivered
    have hperm := flatMap_set_perm (b := getter') hgetter hnone
    have hcalled : s.callbacks (.query index queryEvent host) =
        s.daemon.called host getter'.reports := by
      rw [Service.callbacks, newReports_eq hgetter hdelivered, hnone]
      rfl
    obtain hreports | hreports := hreports
    · refine .inl ⟨?_, ?_⟩
      · rw [hcalled, hreports]
        rfl
      · simpa [hreports] using hperm
    · obtain ⟨objs, hobjs⟩ := hrunning
      refine .inr ⟨⟨objs, host, getter'.respData⟩, ?_, ⟨index, queryEvent, rfl, ?_⟩, ?_⟩
      · rw [hcalled, hreports, hobjs]
        rfl
      · have hgetter' : (s.queries.set index getter')[index]? = some getter' :=
          List.getElem?_set_self (List.getElem?_eq_some_iff.mp hgetter).1
        exact (traced_of_run (htracks.runs index getter' hgetter')).respData
      · simpa [hreports] using hperm

end Events

section Runs
variable {past rest events : List ServiceEvent} {s s' : Service}

omit [EstoragedConf] in
theorem Answered.append {first last : List QueryEvent} {path : String} {data : StorageData}
    (h : Answered first path data) : Answered (first ++ last) path data := by
  induction last using List.reverseRecOn with
  | nil => simpa using h
  | append_singleton last event ih =>
    rw [← List.append_assoc]
    exact ih.snoc event

/-- At this event the query reports, by this callback, what was answered to it before. -/
structure ReportsAt (before : List ServiceEvent) (index : Nat) (queryEvent : QueryEvent)
    (d : Delivery) : Prop where
  called : ∃ s, Steps Service.Moves .initial before s ∧
    s.callbacks (.query index queryEvent d.host) = [d]
  answered : ∀ path data, d.reply.find? path = some data →
    Answered (.released :: queryEvents index (before ++ [.query index queryEvent d.host])) path data

/-- Every callback of a run belongs to one of its events. -/
theorem mem_log {d : Delivery} (hrun : Steps Service.Moves s events s') (hd : d ∈ s.log events) :
    ∃ before event after s₁ s₂, events = before ++ event :: after ∧
      Steps Service.Moves s before s₁ ∧ s₁.Moves event s₂ ∧ d ∈ s₁.callbacks event := by
  induction hrun with
  | nil s => cases hd
  | @cons s s₁ s₂ event rest hmoves _ ih =>
    have hadvance : s.advance event = some s₁ := hmoves
    simp only [Service.log, hadvance, List.mem_append] at hd
    rcases hd with hnow | hlater
    · exact ⟨[], event, rest, s, s₁, rfl, .nil _, hmoves, hnow⟩
    · obtain ⟨before, event', after, t, t', rfl, hbefore, hevent, hmem⟩ := ih hlater
      exact ⟨event :: before, event', after, t, t', rfl, .cons hmoves hbefore, hevent, hmem⟩

theorem log_reported {d : Delivery} (hrun : Steps Service.Moves .initial events s)
    (hd : d ∈ Service.initial.log events) :
    ∃ before index queryEvent after, events = before ++ .query index queryEvent d.host :: after ∧
      ReportsAt before index queryEvent d := by
  obtain ⟨before, event, after, s₁, s₂, rfl, hbefore, hmoves, hmem⟩ := mem_log hrun hd
  obtain ⟨hnone, -⟩ | ⟨d', hcalled, ⟨index, queryEvent, rfl, hanswered⟩, -⟩ :=
    moves_reports (tracks_of_run hbefore) hmoves
  · rw [hnone] at hmem
    cases hmem
  · rw [hcalled] at hmem
    obtain rfl := List.mem_singleton.mp hmem
    exact ⟨before, index, queryEvent, after, rfl, ⟨s₁, hbefore, hcalled⟩, hanswered⟩

/-- One callback for every query that has ended, with what it reported. -/
theorem log_reports (hrun : Steps Service.Moves .initial events s) :
    ((Service.initial.log events).map Delivery.reply).Perm
      (s.queries.flatMap GetStorageConfiguration.reports) := by
  induction events using List.reverseRecOn generalizing s with
  | nil =>
    cases hrun
    exact .refl _
  | append_singleton past event ih =>
    obtain ⟨s₁, hpast, hlast⟩ := hrun.split
    have hmoves : s₁.Moves event s := by
      cases hlast with
      | cons hmoves hnil =>
        cases hnil
        exact hmoves
    have hadvance : s₁.advance event = some s := hmoves
    have hlog : s₁.log [event] = s₁.callbacks event := by
      simp only [Service.log, hadvance, List.append_nil]
    rw [log_append hpast, hlog, List.map_append]
    obtain ⟨hnone, hsame⟩ | ⟨d, hcalled, -, hnew⟩ := moves_reports (tracks_of_run hpast) hmoves
    · rw [hnone, List.map_nil, List.append_nil]
      exact (ih hpast).trans hsame.symm
    · rw [hcalled]
      exact ((ih hpast).append_right _).trans hnew.symm

/-- Every run of the service refines a run of callbacks, one with each query's report. Over
it the constructor runs at most once for a config path, and the live objects are exactly
those that were made, for ever. -/
theorem service_refines_callbacks (hrun : Steps Service.Moves .initial events s) :
    ∃ ds, Steps CalledBack (.running .empty) ds s.daemon ∧
      (ds.map Delivery.reply).Perm (s.queries.flatMap GetStorageConfiguration.reports) ∧
      ((built ds).map EStoraged.configPath).Nodup ∧
      ∀ objs, s.daemon = .running objs → ∀ path object,
        Live objs path object ↔ object ∈ built ds ∧ object.configPath = path := by
  have hcallbacks := log_calledBack hrun
  have hbuilt := builtOnce_of_run hcallbacks
  exact ⟨_, hcallbacks, log_reports hrun, hbuilt.nodup, hbuilt.live⟩

theorem live_reported {objs : StorageObjects} {path : String} {object : EStoraged}
    (hrun : Steps Service.Moves .initial events s) (hobjs : s.daemon = .running objs)
    (hlive : Live objs path object) :
    ∃ before index queryEvent d after,
      events = before ++ .query index queryEvent d.host :: after ∧
        ReportsAt before index queryEvent d ∧
        ∃ data info size, d.reply.find? path = some data ∧ Located d.host data info size ∧
          object = newObject d.host path info size := by
  have hbuilt := builtOnce_of_run (log_calledBack hrun)
  obtain ⟨hmem, rfl⟩ := (hbuilt.live objs hobjs path object).mp hlive
  obtain ⟨d, hd, hmade⟩ := List.mem_flatMap.mp hmem
  obtain ⟨path, data, hreply, -, info, size, hlocated, rfl⟩ := Delivery.constructed_iff.mp hmade
  obtain ⟨before, index, queryEvent, after, rfl, hreports⟩ := log_reported hrun hd
  refine ⟨before, index, queryEvent, d, after, rfl, hreports, data, info, size, ?_, hlocated, rfl⟩
  simp [FlatMap.find?, FlatMap.findEntry, hreply, newObject]

/-- A live object is made at the event at which a query reported, of what the owner had
answered to that query for a path that the mapper's reply named, and of the device that the
host had then. -/
theorem live_from_answer {objs : StorageObjects} {path : String} {object : EStoraged}
    (hrun : Steps Service.Moves .initial events s) (hobjs : s.daemon = .running objs)
    (hlive : Live objs path object) :
    ∃ before index queryEvent d after,
      events = before ++ .query index queryEvent d.host :: after ∧
        (∃ s₁, Steps Service.Moves .initial before s₁ ∧
          s₁.callbacks (.query index queryEvent d.host) = [d]) ∧
        ∃ data info size, d.reply.find? path = some data ∧
          Answered (.released :: queryEvents index (before ++ [.query index queryEvent d.host]))
            path data ∧
          Located d.host data info size ∧ object = newObject d.host path info size := by
  obtain ⟨before, index, queryEvent, d, after, rfl, hreports, data, info, size, hfind, hlocated,
    hobject⟩ := live_reported hrun hobjs hlive
  exact ⟨before, index, queryEvent, d, after, rfl, hreports.called, data, info, size, hfind,
    hreports.answered path data hfind, hlocated, hobject⟩

/-! ## What stays -/

/-- A callback for a path with an entry makes no object, whatever could be found. -/
theorem known_untouched {before : StorageObjects} {reply : ManagedStorageType} {path : String}
    {data : StorageData} {entry : Option EStoraged} (hreply : reply.entries = [(path, data)])
    (hentry : before.find? path = some entry) (host : Host) :
    createStorageObjects host before reply = ⟨[], .ok before⟩ := by
  rw [createStorageObjects_single host before hreply, createStorageObject_known hentry]

/-- An entry of the storage objects stays as it is: an object is not replaced, and where the
placeholder was set no device is looked for again. From then on a callback for this path
comes to the same on every host, whatever is listed or sized there. -/
theorem settled_forever {objs : StorageObjects} {path : String} {entry : Option EStoraged}
    (hrest : Steps Service.Moves s rest s') (hobjs : s.daemon = .running objs)
    (hentry : objs.find? path = some entry) :
    (∀ objs', s'.daemon = .running objs' → objs'.find? path = some entry) ∧
      ∀ d ∈ s.log rest, d.before.find? path = some entry ∧
        ∀ data, d.reply.entries = [(path, data)] →
          ∀ host, createStorageObjects host d.before d.reply = ⟨[], .ok d.before⟩ := by
  have hrun := log_calledBack hrest
  refine ⟨fun objs' hobjs' => calledBack_keeps hrun hobjs hobjs' hentry, ?_⟩
  intro d hd
  obtain ⟨first, last, hlog⟩ := List.append_of_mem hd
  rw [hlog] at hrun
  obtain ⟨daemon, hfirst, hlast⟩ := hrun.split
  have hbefore : d.before.find? path = some entry := by
    cases hlast with
    | cons hback _ => exact calledBack_keeps hfirst hobjs hback.1 hentry
  exact ⟨hbefore, fun data hreply host => known_untouched hreply hbefore host⟩

/-- Replies, timers and signals do not end the process, whatever they are, as long as the
constructor returns and what is answered can be managed by the hosts of the callbacks. -/
theorem service_survives (hrun : Steps Service.Moves .initial events s)
    (hconstruct : ∀ index event host, .query index event host ∈ events →
      ∀ object, host.construct object = .ok ())
    (hanswers : ∀ index path owner retries data host,
      .query index (.getAll path owner retries (some data)) host ∈ events →
      ∀ index' event host', .query index' event host' ∈ events → Manageable host' data) :
    s.daemon ≠ .terminated := by
  refine running_of_returns ?_ (log_calledBack hrun) (by simp [Service.initial])
  intro d hd
  obtain ⟨before, index, event, after, rfl, hreports⟩ := log_reported hrun hd
  have hevent : ServiceEvent.query index event d.host ∈
      before ++ .query index event d.host :: after := by
    simp
  apply Delivery.returns (hconstruct index event d.host hevent)
  intro path data hreply
  have hfind : d.reply.find? path = some data := by
    simp [FlatMap.find?, FlatMap.findEntry, hreply]
  obtain ⟨owner, retries, -, hmem⟩ := hreports.answered path data hfind
  obtain hmem | hmem := List.mem_cons.mp hmem
  · cases hmem
  · obtain ⟨event', hevent', hquery⟩ := List.mem_filterMap.mp hmem
    cases event' with
    | query index' queryEvent host =>
      simp only [ServiceEvent.forQuery] at hquery
      split_ifs at hquery
      obtain rfl := Option.some.inj hquery
      have hasked : ServiceEvent.query index' (.getAll path owner retries (some data)) host ∈
          before ++ .query index event d.host :: after := by
        rcases List.mem_append.mp hevent' with hpast | hnow
        · exact List.mem_append_left _ hpast
        · rw [List.mem_singleton.mp hnow]
          simp
      exact hanswers index' path owner retries data host hasked index event d.host hevent
    | posted | signal | elapse | timeout | waited => cases hquery

end Runs

end Build

def emmcEvents : List ServiceEvent :=
  [.posted, .query 0 (.getSubTree (some mapperReply)) emmcHost,
   .query 0 (.getAll "/board/emmc" "xyz.openbmc_project.EntityManager" 5
     (some (FlatMap.empty.assign "Type" (.string "EmmcDevice")))) emmcHost]

def emmcService : Service where
  posted := false
  timer := .initial
  queries := [{ retriedGetter with
    calls := [("/board/emmc", "xyz.openbmc_project.EntityManager")] }]
  daemon := .running emmcObjects

theorem emmc_run : Steps Service.Moves .initial emmcEvents emmcService :=
  steps_of_foldlM rfl

theorem service_refines_callbacks_emmc :
    ∃ ds, Steps CalledBack (.running .empty) ds emmcService.daemon ∧
      (ds.map Delivery.reply).Perm (emmcService.queries.flatMap GetStorageConfiguration.reports) ∧
      ((built ds).map EStoraged.configPath).Nodup ∧
      ∀ objs, emmcService.daemon = .running objs → ∀ path object,
        Live objs path object ↔ object ∈ built ds ∧ object.configPath = path :=
  service_refines_callbacks emmc_run

theorem live_from_answer_emmc :
    ∃ before index queryEvent d after,
      emmcEvents = before ++ .query index queryEvent d.host :: after ∧
        (∃ s₁, Steps Service.Moves .initial before s₁ ∧
          s₁.callbacks (.query index queryEvent d.host) = [d]) ∧
        ∃ data info size, d.reply.find? "/board/emmc" = some data ∧
          Answered (.released :: queryEvents index (before ++ [.query index queryEvent d.host]))
            "/board/emmc" data ∧
          Located d.host data info size ∧
          emmcObject "/board/emmc" = newObject d.host "/board/emmc" info size :=
  live_from_answer emmc_run rfl (FlatMap.find?_assign_self ..)

/-- A second query that collects the same. -/
def emmcAgain : List ServiceEvent :=
  [.signal false, .elapse 1000, .timeout .success, .waited .success,
   .query 1 (.getSubTree (some mapperReply)) emmcHost,
   .query 1 (.getAll "/board/emmc" "xyz.openbmc_project.EntityManager" 5
     (some (FlatMap.empty.assign "Type" (.string "EmmcDevice")))) emmcHost]

def emmcServiceAgain : Service where
  posted := false
  timer := ⟨1000, 1000, []⟩
  queries := emmcService.queries ++ emmcService.queries
  daemon := .running emmcObjects

theorem settled_forever_emmc :
    emmcObjects.find? "/board/emmc" = some (some (emmcObject "/board/emmc")) ∧
      ∀ d ∈ emmcService.log emmcAgain,
        d.before.find? "/board/emmc" = some (some (emmcObject "/board/emmc")) ∧
          ∀ data, d.reply.entries = [("/board/emmc", data)] →
            ∀ host, createStorageObjects host d.before d.reply = ⟨[], .ok d.before⟩ := by
  have hagain : Steps Service.Moves emmcService emmcAgain emmcServiceAgain := steps_of_foldlM rfl
  obtain ⟨hafter, hcallbacks⟩ :=
    settled_forever hagain rfl (FlatMap.find?_assign_self .empty "/board/emmc" _)
  exact ⟨hafter emmcObjects rfl, hcallbacks⟩

theorem emmc_manageable :
    Manageable emmcHost (FlatMap.empty.assign "Type" (.string "EmmcDevice")) := by
  apply manageable_iff.mpr
  constructor
  · intro h
    obtain ⟨e, herror⟩ := h
    cases herror
  · intro info _
    rfl

theorem service_survives_emmc : emmcService.daemon ≠ .terminated := by
  have hhost : ∀ index event host, ServiceEvent.query index event host ∈ emmcEvents →
      host = emmcHost := by
    intro index event host hmem
    simp only [emmcEvents, List.mem_cons, List.not_mem_nil, reduceCtorEq, false_or, or_false,
      ServiceEvent.query.injEq] at hmem
    obtain ⟨-, -, rfl⟩ | ⟨-, -, rfl⟩ := hmem <;> rfl
  apply service_survives emmc_run
  · intro index event host hmem object
    rw [hhost index event host hmem]
    rfl
  · intro index path owner retries data host hmem index' event host' hmem'
    rw [hhost index' event host' hmem']
    simp only [emmcEvents, List.mem_cons, List.not_mem_nil, reduceCtorEq, false_or, or_false,
      ServiceEvent.query.injEq, QueryEvent.getAll.injEq, false_and, and_false,
      Option.some.injEq] at hmem
    obtain ⟨-, ⟨-, -, -, rfl⟩, -⟩ := hmem
    exact emmc_manageable

end Estoraged

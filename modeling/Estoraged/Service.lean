import Estoraged.FilterTimer
import Estoraged.Sessions

/-!
# The service

`main` as one system: the handler that is posted at the start, the event handler with its
timer, the queries that are under way at the same time, and the storage objects which
their callbacks share. The events of all of them come in any order.
-/

namespace Estoraged
open Interaction GetStorageConfiguration
set_option autoImplicit false

structure Service where
  posted : Bool
  timer : FilterTimer
  queries : List GetStorageConfiguration
  daemon : Daemon

/-- What happens next. The host is what a callback would find. -/
inductive ServiceEvent where
  | posted
  | signal (methodError : Bool)
  | elapse (milliseconds : Nat)
  | timeout (ec : ErrorCode)
  | waited (ec : ErrorCode)
  | query (index : Nat) (event : QueryEvent) (host : Host)

/-- The getter when `createStorageObjects` returns and drops its reference. -/
def opened : GetStorageConfiguration := { GetStorageConfiguration.initial with
  creator := false }.release

section Steps
variable [EstoragedConf]

def Daemon.callback (host : Host) (daemon : Daemon) (report : ManagedStorageType) : Daemon :=
  match daemon with
  | .running storageObjects => .afterwards (createStorageObjects host storageObjects report).result
  | .terminated => .terminated

namespace Service

def initial : Service := ⟨true, .initial, [], .running .empty⟩

def createStorageObjects (s : Service) : Service := { s with queries := s.queries ++ [opened] }

def eventHandler (s : Service) (methodError : Bool) : Service :=
  if methodError then s else { s with timer := s.timer.restart }

def waitHandler (s : Service) (ec : ErrorCode) : Service :=
  if ec = .operationAborted then s
  else if ec ≠ .success then s
  else s.createStorageObjects

/-- A handler of a query runs; if the getter goes away with it, so does its callback run. -/
def deliver (s : Service) (index : Nat) (event : QueryEvent) (host : Host) : Option Service := do
  let getter ← s.queries[index]?
  let getter' ← getter.deliver event
  let reports := getter'.reports.drop getter.reports.length
  some { s with
    queries := s.queries.set index getter'
    daemon := reports.foldl (Daemon.callback host) s.daemon }

def step (s : Service) : ServiceEvent → Option Service
  | .posted => if s.posted then some { s with posted := false }.createStorageObjects else none
  | .signal methodError => some (s.eventHandler methodError)
  | .elapse milliseconds => some { s with timer := s.timer.elapse milliseconds }
  | .timeout ec => (s.timer.timeout ec).map fun timer => { s with timer }
  | .waited ec => (s.timer.run ec).map fun timer => { s with timer }.waitHandler ec
  | .query index event host => s.deliver index event host

/-- Nothing happens any more once the process has been terminated. -/
def advance (s : Service) (event : ServiceEvent) : Option Service :=
  match s.daemon with
  | .running _ => s.step event
  | .terminated => none

def Moves (s : Service) (event : ServiceEvent) (s' : Service) : Prop :=
  s.advance event = some s'

/-! ## The callbacks of a run -/

/-- What the getter hands over when it goes away at this event. -/
def newReports (s : Service) (index : Nat) (event : QueryEvent) : List ManagedStorageType :=
  match s.queries[index]? with
  | none => []
  | some getter =>
    match getter.deliver event with
    | none => []
    | some getter' => getter'.reports.drop getter.reports.length

end Service

def Daemon.called (host : Host) (daemon : Daemon) : List ManagedStorageType → List Delivery
  | [] => []
  | report :: reports =>
    match daemon with
    | .running storageObjects =>
      ⟨storageObjects, host, report⟩ :: (Daemon.callback host daemon report).called host reports
    | .terminated => []

namespace Service

/-- The callbacks that run at an event. -/
def callbacks (s : Service) : ServiceEvent → List Delivery
  | .query index event host => s.daemon.called host (s.newReports index event)
  | _ => []

/-- The callbacks that run one after another while these events happen. -/
def log (s : Service) : List ServiceEvent → List Delivery
  | [] => []
  | event :: events =>
    s.callbacks event ++ (match s.advance event with
      | some s' => s'.log events
      | none => [])

end Service

/-! ## The moves -/

omit [EstoragedConf] in
theorem opened_delivered :
    Delivered GetStorageConfiguration.initial .released opened := rfl

/-- All that can happen. -/
inductive Move : Service → ServiceEvent → Service → Prop where
  | posted {s : Service} : s.posted = true →
      Move s .posted { s with posted := false, queries := s.queries ++ [opened] }
  | signal {s : Service} : Move s (.signal false) { s with timer := s.timer.restart }
  | ignored {s : Service} : Move s (.signal true) s
  | elapse {s : Service} (milliseconds : Nat) :
      Move s (.elapse milliseconds) { s with timer := s.timer.elapse milliseconds }
  | timeout {s : Service} {ec : ErrorCode} {timer : FilterTimer} :
      s.timer.timeout ec = some timer → Move s (.timeout ec) { s with timer }
  | fired {s : Service} {timer : FilterTimer} : s.timer.run .success = some timer →
      Move s (.waited .success) { s with timer, queries := s.queries ++ [opened] }
  | dropped {s : Service} {ec : ErrorCode} {timer : FilterTimer} : ec ≠ .success →
      s.timer.run ec = some timer → Move s (.waited ec) { s with timer }
  | query {s : Service} {index : Nat} {event : QueryEvent} {host : Host}
      {getter getter' : GetStorageConfiguration} : s.queries[index]? = some getter →
      Delivered getter event getter' →
      Move s (.query index event host) { s with
        queries := s.queries.set index getter'
        daemon := (getter'.reports.drop getter.reports.length).foldl (Daemon.callback host)
          s.daemon }

theorem Service.Moves.move {s s' : Service} {event : ServiceEvent} (h : s.Moves event s') :
    Move s event s' := by
  have hstep : s.step event = some s' := by
    unfold Moves advance at h
    split at h
    · exact h
    · cases h
  cases event with
  | posted =>
    simp only [step] at hstep
    split_ifs at hstep with hposted
    obtain rfl := Option.some.inj hstep
    exact .posted hposted
  | signal methodError =>
    obtain rfl := Option.some.inj hstep
    cases methodError with
    | false => exact .signal
    | true => exact .ignored
  | elapse milliseconds =>
    obtain rfl := Option.some.inj hstep
    exact .elapse milliseconds
  | timeout ec =>
    obtain ⟨timer, htimer, rfl⟩ := Option.map_eq_some_iff.mp hstep
    exact .timeout htimer
  | waited ec =>
    obtain ⟨timer, htimer, rfl⟩ := Option.map_eq_some_iff.mp hstep
    cases ec with
    | success => exact .fired htimer
    | operationAborted => exact .dropped (by simp) htimer
    | failure => exact .dropped (by simp) htimer
  | query index event host =>
    simp only [step, deliver, Option.bind_eq_bind, Option.bind_eq_some_iff] at hstep
    obtain ⟨getter, hgetter, getter', hdelivered, hstep⟩ := hstep
    obtain rfl := Option.some.inj hstep
    exact .query hgetter hdelivered

end Steps

/-! ## What a run did -/

namespace ServiceEvent

/-- `createStorageObjects` is called. -/
def starts : ServiceEvent → Bool
  | .posted => true
  | .waited ec => ec = .success
  | _ => false

def accepted : ServiceEvent → Bool
  | .signal methodError => !methodError
  | _ => false

def duration : ServiceEvent → Nat
  | .elapse milliseconds => milliseconds
  | _ => 0

def forTimer : ServiceEvent → Option TimerEvent
  | .signal methodError => if methodError then none else some .restart
  | .elapse milliseconds => some (.elapse milliseconds)
  | .timeout ec => some (.timeout ec)
  | .waited ec => some (.run ec)
  | _ => none

def forQuery (index : Nat) : ServiceEvent → Option QueryEvent
  | .query index' event _ => if index' = index then some event else none
  | _ => none

end ServiceEvent

def elapsed (events : List ServiceEvent) : Nat := (events.map ServiceEvent.duration).sum

def timerEvents (events : List ServiceEvent) : List TimerEvent :=
  events.filterMap ServiceEvent.forTimer

def queryEvents (index : Nat) (events : List ServiceEvent) : List QueryEvent :=
  events.filterMap (ServiceEvent.forQuery index)

theorem queryEvents_snoc (index : Nat) (past : List ServiceEvent) (event : ServiceEvent) :
    queryEvents index (past ++ [event]) =
      queryEvents index past ++ (event.forQuery index).toList := by
  rw [queryEvents, List.filterMap_append]
  cases hquery : event.forQuery index <;> simp [queryEvents, hquery]

section Timer
variable {events : List ServiceEvent} {s s' : Service}

/-- The only event of the service that shows the timer this one. -/
def TimerEvent.shown : TimerEvent → ServiceEvent
  | .restart => .signal false
  | .elapse milliseconds => .elapse milliseconds
  | .timeout ec => .timeout ec
  | .run ec => .waited ec

theorem forTimer_eq_some_iff {event : ServiceEvent} {event' : TimerEvent} :
    event.forTimer = some event' ↔ event = event'.shown := by
  constructor
  · intro h
    cases event with
    | signal methodError =>
      cases methodError with
      | false =>
        obtain rfl := Option.some.inj h
        rfl
      | true => cases h
    | elapse | timeout | waited =>
      obtain rfl := Option.some.inj h
      rfl
    | posted | query => cases h
  · rintro rfl
    cases event' <;> rfl

theorem accepted_iff {event : ServiceEvent} : event.accepted = true ↔ event = .signal false := by
  cases event <;> simp [ServiceEvent.accepted]

theorem timer_ticks [EstoragedConf] (h : Steps Service.Moves s events s') :
    Steps Ticks s.timer (timerEvents events) s'.timer := by
  refine h.project (f := Service.timer) ?_ ?_
  · intro s event s' h hnone
    cases h.move with
    | posted | ignored | query => rfl
    | signal | elapse | timeout | fired | dropped => simp [ServiceEvent.forTimer] at hnone
  · intro s event s' event' h hsome
    cases h.move with
    | posted | ignored | query => simp [ServiceEvent.forTimer] at hsome
    | signal | elapse =>
      obtain rfl := Option.some.inj hsome
      rfl
    | timeout htimer | fired htimer | dropped hec htimer =>
      obtain rfl := Option.some.inj hsome
      exact htimer

theorem count_restart : (timerEvents events).count .restart =
    events.countP ServiceEvent.accepted := by
  induction events with
  | nil => rfl
  | cons event events ih =>
    rw [timerEvents] at ih ⊢
    cases event with
    | signal methodError =>
      cases methodError <;> simp [ServiceEvent.forTimer, ServiceEvent.accepted, ih]
    | posted | elapse | timeout | waited | query =>
      simp [List.filterMap_cons, ServiceEvent.forTimer, ServiceEvent.accepted, ih]

theorem total_timerEvents : TimerEvent.total (timerEvents events) = elapsed events := by
  induction events with
  | nil => rfl
  | cons event events ih =>
    simp only [timerEvents, elapsed, TimerEvent.total] at ih ⊢
    cases event with
    | signal methodError =>
      cases methodError <;>
        simp [ServiceEvent.forTimer, ServiceEvent.duration, TimerEvent.duration, ih]
    | posted | elapse | timeout | waited | query =>
      simp [List.filterMap_cons, ServiceEvent.forTimer, ServiceEvent.duration,
        TimerEvent.duration, ih]

end Timer

/-! ## The queries, each for itself -/

/-- Every query has gone through what was delivered to it, and nothing was before it was
started. -/
structure Service.Tracks (past : List ServiceEvent) (s : Service) : Prop where
  started : s.queries.length = past.countP ServiceEvent.starts
  runs : ∀ index getter, s.queries[index]? = some getter →
    Steps Delivered GetStorageConfiguration.initial (.released :: queryEvents index past) getter
  early : ∀ index, s.queries.length ≤ index → queryEvents index past = []

section Tracking
variable {past : List ServiceEvent} {s s' : Service} {event : ServiceEvent}

theorem Service.Tracks.same (hs : s.Tracks past) (hqueries : s'.queries = s.queries)
    (hstarts : event.starts = false) (hother : ∀ index, event.forQuery index = none) :
    s'.Tracks (past ++ [event]) := by
  refine ⟨?_, ?_, ?_⟩
  · simpa [hqueries, hstarts] using hs.started
  · intro index getter hgetter
    rw [hqueries] at hgetter
    simpa [queryEvents_snoc, hother] using hs.runs index getter hgetter
  · intro index hindex
    rw [hqueries] at hindex
    simpa [queryEvents_snoc, hother] using hs.early index hindex

theorem Service.Tracks.start (hs : s.Tracks past) (hqueries : s'.queries = s.queries ++ [opened])
    (hstarts : event.starts = true) (hother : ∀ index, event.forQuery index = none) :
    s'.Tracks (past ++ [event]) := by
  refine ⟨?_, ?_, ?_⟩
  · simpa [hqueries, hstarts] using hs.started
  · intro index getter hgetter
    rw [hqueries] at hgetter
    rw [queryEvents_snoc, hother]
    rcases Nat.lt_or_ge index s.queries.length with hold | hnew
    · rw [List.getElem?_append_left hold] at hgetter
      simpa using hs.runs index getter hgetter
    · rw [List.getElem?_append_right hnew] at hgetter
      obtain ⟨-, rfl⟩ := List.getElem?_eq_some_iff.mp hgetter
      simpa [hs.early index hnew] using Steps.cons opened_delivered (.nil opened)
  · intro index hindex
    rw [hqueries, List.length_append] at hindex
    rw [List.length_singleton] at hindex
    simpa [queryEvents_snoc, hother] using hs.early index (by omega)

theorem Service.Tracks.query {index : Nat} {queryEvent : QueryEvent} {host : Host}
    {getter getter' : GetStorageConfiguration} (hs : s.Tracks past)
    (hgetter : s.queries[index]? = some getter) (hdelivered : Delivered getter queryEvent getter')
    (hqueries : s'.queries = s.queries.set index getter') :
    s'.Tracks (past ++ [.query index queryEvent host]) := by
  obtain ⟨hindex, -⟩ := List.getElem?_eq_some_iff.mp hgetter
  refine ⟨?_, ?_, ?_⟩
  · simpa [hqueries, ServiceEvent.starts] using hs.started
  · intro index' getter'' hgetter'
    rw [hqueries] at hgetter'
    rw [queryEvents_snoc]
    by_cases hsame : index = index'
    · subst hsame
      rw [List.getElem?_set_self hindex] at hgetter'
      obtain rfl := Option.some.inj hgetter'
      simpa [ServiceEvent.forQuery] using (hs.runs index getter hgetter).snoc hdelivered
    · rw [List.getElem?_set_ne hsame] at hgetter'
      simpa [ServiceEvent.forQuery, hsame] using hs.runs index' getter'' hgetter'
  · intro index' hindex'
    rw [hqueries, List.length_set] at hindex'
    have hne : index ≠ index' := by omega
    simpa [queryEvents_snoc, ServiceEvent.forQuery, hne] using hs.early index' hindex'

theorem tracks_initial : Service.Tracks [] .initial := by
  refine ⟨rfl, ?_, fun _ _ => rfl⟩
  intro index getter hgetter
  cases hgetter

theorem moves_tracks [EstoragedConf] (past : List ServiceEvent) (s : Service) (event : ServiceEvent)
    (s' : Service) (hs : s.Tracks past) (h : s.Moves event s') : s'.Tracks (past ++ [event]) := by
  cases h.move with
  | posted => exact hs.start rfl rfl fun _ => rfl
  | signal | ignored | elapse | timeout => exact hs.same rfl rfl fun _ => rfl
  | fired => exact hs.start rfl rfl fun _ => rfl
  | dropped hec => exact hs.same rfl (by simpa [ServiceEvent.starts] using hec) fun _ => rfl
  | query hgetter hdelivered => exact hs.query hgetter hdelivered rfl

theorem tracks_of_run [EstoragedConf] {events : List ServiceEvent}
    (hrun : Steps Service.Moves .initial events s) : s.Tracks events := by
  exact hrun.from_start tracks_initial moves_tracks

end Tracking

section Getter
variable {events : List QueryEvent} {getter : GetStorageConfiguration}

theorem delivered_uncreated (getter : GetStorageConfiguration) (event : QueryEvent)
    (getter' : GetStorageConfiguration) (hs : getter.creator = false)
    (h : Delivered getter event getter') : getter'.creator = false := by
  rcases deliver_cases h with ⟨-, hcreator, -⟩ | ⟨handler, before, after, -, -, rfl⟩
  · rw [hs] at hcreator
    cases hcreator
  · simpa [settled] using hs

theorem opened_creator (hrun : Steps Delivered initial (.released :: events) getter) :
    getter.creator = false := by
  cases hrun with
  | cons hreleased hrest =>
    obtain rfl := Option.some.inj (opened_delivered.symm.trans hreleased)
    exact hrest.invariant delivered_uncreated rfl

/-- A query that the service has started reports once, when nothing is outstanding. -/
theorem opened_reports (hrun : Steps Delivered initial (.released :: events) getter) :
    getter.reports = if getter.pending = [] then [getter.respData] else [] := by
  have hcounted : getter.Counted := hrun.invariant delivered_counted counted_initial
  have hreports := hcounted.reports_iff
  rw [opened_creator hrun] at hreports
  rw [hcounted.reports] at hreports ⊢
  split_ifs at hreports ⊢ with hrefs hpending hpending
  · rfl
  · simp [hpending] at hreports
  · simp [hpending] at hreports
  · rfl

end Getter

/-! ## Signals and queries -/

section Signals
variable {past rest events : List ServiceEvent} {s : Service}

theorem timer_metered [EstoragedConf] (hrun : Steps Service.Moves .initial events s) :
    Metered (timerEvents events) s.timer := by
  have hstart : Metered [] Service.initial.timer := ⟨.initial, rfl, Nat.le_refl _⟩
  exact (timer_ticks hrun).from_start hstart ticks_metered

/-- All but the first query were started by the timer. -/
def TimerStarted (past : List ServiceEvent) (s : Service) : Prop :=
  past.countP ServiceEvent.starts + s.posted.toNat =
    (timerEvents past).count (.run .success) + 1

theorem moves_timerStarted [EstoragedConf] (past : List ServiceEvent) (s : Service) (event : ServiceEvent)
    (s' : Service) (hs : TimerStarted past s) (h : s.Moves event s') :
    TimerStarted (past ++ [event]) s' := by
  have hsnoc : timerEvents (past ++ [event]) = timerEvents past ++ event.forTimer.toList := by
    rw [timerEvents, List.filterMap_append]
    cases htimer : event.forTimer <;> simp [timerEvents, htimer]
  unfold TimerStarted at hs ⊢
  rw [hsnoc, List.countP_append, List.count_append]
  cases h.move with
  | posted hposted => simpa [ServiceEvent.starts, ServiceEvent.forTimer, hposted] using hs
  | dropped hec =>
    simpa [ServiceEvent.starts, ServiceEvent.forTimer, hec] using hs
  | signal | ignored | elapse | timeout | query =>
    simpa [ServiceEvent.starts, ServiceEvent.forTimer] using hs
  | fired =>
    simp [ServiceEvent.starts, ServiceEvent.forTimer]
    omega

/-- However many signals there are, there is at most one query more than these, and at most
one more than the seconds that have passed. -/
theorem queries_rate_limited [EstoragedConf] (hrun : Steps Service.Moves .initial events s) :
    s.queries.length ≤ events.countP ServiceEvent.accepted + 1 ∧
      1000 * s.queries.length ≤ elapsed events + 1000 := by
  have hmetered := timer_metered hrun
  have hstarts : TimerStarted events s := hrun.from_start rfl moves_timerStarted
  have hrestarts := hmetered.restarts
  have hspaced := hmetered.paced.spaced
  rw [TimerStarted, ← (tracks_of_run hrun).started] at hstarts
  rw [count_restart] at hrestarts
  rw [hmetered.now, total_timerEvents, FilterTimer.filterDelay] at hspaced
  constructor
  · omega
  · omega

def burst : List ServiceEvent :=
  [.posted, .signal false, .elapse 400, .signal false, .elapse 1000, .timeout .success,
   .waited .operationAborted]

def afterBurst : Service := ⟨false, ⟨1400, 1400, []⟩, [opened, opened], .running .empty⟩

theorem queries_rate_limited_burst :
    afterBurst.queries.length ≤
      (burst ++ [ServiceEvent.waited .success]).countP ServiceEvent.accepted + 1 ∧
    1000 * afterBurst.queries.length ≤ elapsed (burst ++ [ServiceEvent.waited .success]) + 1000 :=
  queries_rate_limited (steps_of_foldlM rfl)

/-- What the timer started was asked for by a signal, after which a second passed without
another one before the time was up. -/
theorem fired_after_quiet_second [EstoragedConf]
    (hrun : Steps Service.Moves .initial (past ++ [.waited .success]) s) :
    ∃ before between after,
      past = before ++ .signal false :: between ++ .timeout .success :: after ∧
        (∀ event ∈ between, event.accepted = false) ∧ 1000 ≤ elapsed between := by
  obtain ⟨s₁, hpast, hlast⟩ := hrun.split
  have hquiet : LeftAlone (timerEvents past) s₁.timer := by
    have hstart : LeftAlone [] Service.initial.timer := by
      constructor
      · intro hmem
        cases hmem
      · intro hmem
        cases hmem
    exact (timer_ticks hpast).from_start hstart ticks_leftAlone
  have hready : .ready .success ∈ s₁.timer.waits := by
    cases hlast with
    | cons hmoves _ =>
      cases hmoves.move with
      | fired htimer => exact (FilterTimer.run_eq htimer).1
      | dropped hec _ => exact absurd rfl hec
  obtain ⟨before, between, after, hevents, hnone, hlong⟩ := hquiet.expired hready
  obtain ⟨first, last, rfl, hfirst, hlast⟩ := List.filterMap_eq_append_iff.mp hevents
  obtain ⟨hidden, timeout, after', rfl, hhidden, htimeout, -⟩ :=
    List.filterMap_eq_cons_iff.mp hlast
  obtain ⟨before', last', rfl, -, hlast'⟩ := List.filterMap_eq_append_iff.mp hfirst
  obtain ⟨hidden', signal, between', rfl, -, hsignal, hbetween⟩ :=
    List.filterMap_eq_cons_iff.mp hlast'
  obtain rfl := forTimer_eq_some_iff.mp htimeout
  obtain rfl := forTimer_eq_some_iff.mp hsignal
  have hshown : timerEvents (between' ++ hidden) = between := by
    rw [timerEvents, List.filterMap_append, hbetween, List.filterMap_eq_nil_iff.mpr hhidden,
      List.append_nil]
  refine ⟨before' ++ hidden', between' ++ hidden, after', by simp [TimerEvent.shown], ?_, ?_⟩
  · intro event hevent
    apply Bool.eq_false_iff.mpr
    intro haccepted
    apply hnone
    rw [← hshown]
    obtain rfl := accepted_iff.mp haccepted
    exact List.mem_filterMap.mpr ⟨_, hevent, rfl⟩
  · rwa [← total_timerEvents, hshown]

theorem fired_after_quiet_second_burst : ∃ before between after,
    burst = before ++ .signal false :: between ++ .timeout .success :: after ∧
      (∀ event ∈ between, event.accepted = false) ∧ 1000 ≤ elapsed between :=
  @fired_after_quiet_second burst afterBurst mesonOptions (steps_of_foldlM rfl)

/-- No signal is lost. When nothing is left to happen, each has been followed by the handler of
a wait that was not cancelled; and unless the timer failed there, by a query that was
started then and has reported what it collected. -/
theorem no_signal_lost [EstoragedConf]
    (hrun : Steps Service.Moves .initial (past ++ .signal false :: rest) s)
    (hwaits : ∀ wait ∈ s.timer.waits, wait = .ready .operationAborted)
    (hqueries : ∀ getter ∈ s.queries, getter.pending = []) :
    ∃ between ec after, rest = between ++ .waited ec :: after ∧ ec ≠ .operationAborted ∧
      (ec = .success → ∃ getter,
        s.queries[(past ++ .signal false :: between).countP ServiceEvent.starts]? = some getter ∧
          getter.reports = [getter.respData]) := by
  obtain ⟨s₁, hpast, hlater⟩ := hrun.split
  cases hlater with
  | @cons _ s₂ _ _ _ hsignal hrest =>
    have hset : Heard [] s₂.timer := by
      cases hsignal.move with
      | signal => exact .inl ⟨.pending, List.mem_append_right _ List.mem_cons_self, by simp⟩
    have hheard : Heard (timerEvents rest) s.timer := by
      exact (timer_ticks hrest).from_start hset ticks_heard
    obtain ⟨wait, hmem, halive⟩ | ⟨ec, hmem, hec⟩ := hheard
    · exact absurd (hwaits wait hmem) halive
    · obtain ⟨event, hevent, hran⟩ := List.mem_filterMap.mp hmem
      obtain rfl := forTimer_eq_some_iff.mp hran
      obtain ⟨between, after, rfl⟩ := List.append_of_mem hevent
      refine ⟨between, ec, after, rfl, hec, ?_⟩
      intro hsuccess
      have htracks := tracks_of_run hrun
      have hstarted : (past ++ .signal false :: between).countP ServiceEvent.starts <
          s.queries.length := by
        rw [htracks.started]
        simp [List.countP_append, ServiceEvent.starts, TimerEvent.shown, hsuccess]
      have hgetter := List.getElem?_eq_getElem hstarted
      refine ⟨_, hgetter, ?_⟩
      rw [opened_reports (htracks.runs _ _ hgetter),
        if_pos (hqueries _ (List.getElem_mem hstarted))]

def afterFirstSignal : List ServiceEvent :=
  [.elapse 400, .signal false, .elapse 1000, .timeout .success, .waited .operationAborted,
   .waited .success, .query 0 (.getSubTree none) emmcHost, .query 1 (.getSubTree none) emmcHost]

/-- The getter of a query that the mapper did not answer. -/
def unanswered : GetStorageConfiguration :=
  { opened with refs := 0, pending := [], reports := [.empty] }

theorem no_signal_lost_burst : ∃ between ec after,
    afterFirstSignal = between ++ .waited ec :: after ∧ ec ≠ .operationAborted ∧
      (ec = .success → ∃ getter,
        [unanswered, unanswered][(ServiceEvent.posted :: .signal false :: between).countP
          ServiceEvent.starts]? = some getter ∧ getter.reports = [getter.respData]) :=
  @no_signal_lost [.posted] afterFirstSignal
    ⟨false, ⟨1400, 1400, []⟩, [unanswered, unanswered], .running .empty⟩ mesonOptions
    (steps_of_foldlM rfl) (by simp) (by simp [unanswered])

end Signals

end Estoraged

import Estoraged.Interaction
import Mathlib.Algebra.Order.Ring.Nat

/-!
# The filter timer

The timer that `main` starts anew with every signal. A wait on it is in the timer's queue
until the time is up or the timer is set again; only then can its handler run. A wait
whose handler is ready is not cancelled any more.
-/

namespace Estoraged
open Interaction
set_option autoImplicit false

inductive ErrorCode where
  | success
  | operationAborted
  | failure
deriving DecidableEq, Repr

inductive Wait where
  | pending
  | ready (ec : ErrorCode)
deriving DecidableEq, Repr

/-- Times are in milliseconds. -/
structure FilterTimer where
  now : Nat
  expiry : Nat
  waits : List Wait

def Wait.complete (ec : ErrorCode) : Wait → Wait
  | .pending => .ready ec
  | .ready ec => .ready ec

namespace FilterTimer

def filterDelay : Nat := 1000

def expiresAfter (timer : FilterTimer) (duration : Nat) : FilterTimer where
  now := timer.now
  expiry := timer.now + duration
  waits := timer.waits.map (Wait.complete .operationAborted)

def asyncWait (timer : FilterTimer) : FilterTimer :=
  { timer with waits := timer.waits ++ [.pending] }

/-- What the event handler does with a signal that is no method error. -/
def restart (timer : FilterTimer) : FilterTimer := (timer.expiresAfter filterDelay).asyncWait

def elapse (timer : FilterTimer) (milliseconds : Nat) : FilterTimer :=
  { timer with now := timer.now + milliseconds }

/-- The time is up, or the timer fails, which it may do at any time. -/
def timeout (timer : FilterTimer) (ec : ErrorCode) : Option FilterTimer :=
  if ec = .operationAborted ∨ (ec = .success ∧ timer.now < timer.expiry) then none
  else some { timer with waits := timer.waits.map (Wait.complete ec) }

/-- The handler of a wait runs. -/
def run (timer : FilterTimer) (ec : ErrorCode) : Option FilterTimer :=
  if .ready ec ∈ timer.waits then
    some { timer with waits := timer.waits.erase (.ready ec) }
  else none

def initial : FilterTimer := ⟨0, 0, []⟩

def pending (timer : FilterTimer) : Nat := timer.waits.count .pending

def expired (timer : FilterTimer) : Nat := timer.waits.count (.ready .success)

/-! ## What the operations leave -/

section Counts
variable (timer : FilterTimer)

theorem complete_count_pending (ec : ErrorCode) (waits : List Wait) :
    (waits.map (Wait.complete ec)).count .pending = 0 := by
  apply List.count_eq_zero.mpr
  intro hmem
  obtain ⟨wait, -, hwait⟩ := List.mem_map.mp hmem
  cases wait <;> cases hwait

theorem complete_count_ready (ec ec' : ErrorCode) (waits : List Wait) :
    (waits.map (Wait.complete ec)).count (.ready ec') =
      waits.count (.ready ec') + if ec = ec' then waits.count .pending else 0 := by
  induction waits with
  | nil => simp
  | cons wait waits ih =>
    rw [List.map_cons, List.count_cons, List.count_cons, List.count_cons, ih]
    cases wait <;> by_cases hec : ec = ec' <;> simp [Wait.complete, hec] <;> omega

@[simp] theorem restart_now : timer.restart.now = timer.now := rfl

@[simp] theorem restart_length : timer.restart.waits.length = timer.waits.length + 1 := by
  simp [restart, asyncWait, expiresAfter]

@[simp] theorem elapse_now (milliseconds : Nat) :
    (timer.elapse milliseconds).now = timer.now + milliseconds := rfl

@[simp] theorem elapse_waits (milliseconds : Nat) :
    (timer.elapse milliseconds).waits = timer.waits := rfl

theorem mem_restart {ec : ErrorCode} (hec : ec ≠ .operationAborted)
    (hmem : .ready ec ∈ timer.restart.waits) : .ready ec ∈ timer.waits := by
  obtain hmem | hmem := List.mem_append.mp hmem
  · obtain ⟨wait, hwait, hready⟩ := List.mem_map.mp hmem
    cases wait with
    | pending =>
      cases hready
      exact absurd rfl hec
    | ready ec' =>
      cases hready
      exact hwait
  · cases List.mem_singleton.mp hmem

theorem restart_pending : timer.restart.pending = 1 := by
  simp [restart, asyncWait, expiresAfter, pending, complete_count_pending]

theorem restart_expired : timer.restart.expired = timer.expired := by
  simp [restart, asyncWait, expiresAfter, expired, complete_count_ready]

end Counts

section Results
variable {timer timer' : FilterTimer} {ec : ErrorCode}

theorem timeout_eq (h : timer.timeout ec = some timer') :
    ec ≠ .operationAborted ∧ (ec = .success → timer.expiry ≤ timer.now) ∧
      timer' = { timer with waits := timer.waits.map (Wait.complete ec) } := by
  unfold timeout at h
  split_ifs at h with hrefused
  rw [not_or, not_and, Nat.not_lt] at hrefused
  exact ⟨hrefused.1, hrefused.2, (Option.some.inj h).symm⟩

theorem run_eq (h : timer.run ec = some timer') :
    .ready ec ∈ timer.waits ∧ timer' = { timer with waits := timer.waits.erase (.ready ec) } := by
  unfold run at h
  split_ifs at h with hmem
  exact ⟨hmem, (Option.some.inj h).symm⟩

end Results

/-! ## How often the time is up -/

/-- `fired` handlers have run with success. Each of them, and each that is ready for it, had
a delay of its own; the wait in the queue, of which there is only one, is to have another. -/
structure Paced (timer : FilterTimer) (fired : Nat) : Prop where
  spaced : filterDelay * (fired + timer.expired) ≤ timer.now
  next : 0 < timer.pending → filterDelay * (fired + timer.expired + 1) ≤ timer.expiry
  sole : timer.pending ≤ 1

namespace Paced
variable {timer timer' : FilterTimer} {fired : Nat} {ec : ErrorCode}

theorem initial : Paced initial 0 := ⟨Nat.le_refl _, fun h => absurd h (by decide), Nat.zero_le _⟩

theorem restart (h : timer.Paced fired) : timer.restart.Paced fired := by
  have hspaced := h.spaced
  refine ⟨?_, ?_, ?_⟩
  · rwa [restart_expired]
  · intro _
    rw [restart_expired, Nat.mul_add, Nat.mul_one]
    exact Nat.add_le_add_right hspaced _
  · rw [restart_pending]

theorem elapse (h : timer.Paced fired) (milliseconds : Nat) :
    (timer.elapse milliseconds).Paced fired :=
  ⟨Nat.le_trans h.spaced (Nat.le_add_right _ _), h.next, h.sole⟩

theorem timeout (h : timer.Paced fired) (htimeout : timer.timeout ec = some timer') :
    timer'.Paced fired := by
  obtain ⟨-, hdue, rfl⟩ := timeout_eq htimeout
  have hsole := h.sole
  have hexpired : FilterTimer.expired { timer with waits := timer.waits.map (Wait.complete ec) } =
      timer.expired + if ec = .success then timer.pending else 0 := complete_count_ready ..
  have hpending : FilterTimer.pending { timer with waits := timer.waits.map (Wait.complete ec) } =
      0 := complete_count_pending ..
  refine ⟨?_, ?_, ?_⟩
  · rw [hexpired]
    split_ifs with hec
    · rcases Nat.eq_zero_or_pos timer.pending with hnone | hsome
      · rw [hnone]
        exact h.spaced
      · have hone : timer.pending = 1 := by omega
        rw [hone]
        exact Nat.le_trans (h.next hsome) (hdue hec)
    · exact h.spaced
  · intro hpos
    omega
  · omega

theorem run (h : timer.Paced fired) (hrun : timer.run ec = some timer') :
    timer'.Paced (fired + if ec = .success then 1 else 0) := by
  obtain ⟨hmem, rfl⟩ := run_eq hrun
  have hpending : FilterTimer.pending { timer with waits := timer.waits.erase (.ready ec) } =
      timer.pending := List.count_erase_of_ne (by simp) ..
  have hexpired : (fired + if ec = .success then 1 else 0) +
      FilterTimer.expired { timer with waits := timer.waits.erase (.ready ec) } =
      fired + timer.expired := by
    simp only [expired, List.count_erase]
    split_ifs with hec hready hready
    · subst hec
      have hpos := List.count_pos_iff.mpr hmem
      omega
    · simp [hec] at hready
    · simp at hready
      exact absurd hready hec
    · omega
  refine ⟨?_, ?_, ?_⟩
  · rw [hexpired]
    exact h.spaced
  · rw [hexpired, hpending]
    exact h.next
  · rw [hpending]
    exact h.sole

end Paced

end FilterTimer

/-! ## Runs of the timer -/

inductive TimerEvent where
  | restart
  | elapse (milliseconds : Nat)
  | timeout (ec : ErrorCode)
  | run (ec : ErrorCode)
deriving DecidableEq, Repr

def FilterTimer.step (timer : FilterTimer) : TimerEvent → Option FilterTimer
  | .restart => some timer.restart
  | .elapse milliseconds => some (timer.elapse milliseconds)
  | .timeout ec => timer.timeout ec
  | .run ec => timer.run ec

def Ticks (timer : FilterTimer) (event : TimerEvent) (timer' : FilterTimer) : Prop :=
  timer.step event = some timer'

def TimerEvent.duration : TimerEvent → Nat
  | .elapse milliseconds => milliseconds
  | _ => 0

def TimerEvent.total (events : List TimerEvent) : Nat := (events.map duration).sum

section Runs
open TimerEvent
variable {timer : FilterTimer} {events : List TimerEvent}

@[simp] theorem TimerEvent.total_snoc (past : List TimerEvent) (event : TimerEvent) :
    total (past ++ [event]) = total past + event.duration := by
  simp [total]

structure Metered (past : List TimerEvent) (timer : FilterTimer) : Prop where
  paced : timer.Paced (past.count (.run .success))
  now : timer.now = total past
  restarts : past.count (.run .success) + timer.waits.length ≤ past.count .restart

theorem ticks_metered (past : List TimerEvent) (timer : FilterTimer) (event : TimerEvent)
    (timer' : FilterTimer) (hs : Metered past timer) (h : Ticks timer event timer') :
    Metered (past ++ [event]) timer' := by
  obtain ⟨hpaced, hnow, hrestarts⟩ := hs
  cases event with
  | restart =>
    obtain rfl := Option.some.inj h
    refine ⟨?_, ?_, ?_⟩
    · simpa using hpaced.restart
    · simpa [duration] using hnow
    · simp
      omega
  | elapse milliseconds =>
    obtain rfl := Option.some.inj h
    refine ⟨?_, ?_, ?_⟩
    · simpa using hpaced.elapse milliseconds
    · simp [duration, hnow]
    · simpa using hrestarts
  | timeout ec =>
    have hpaced' := hpaced.timeout h
    obtain ⟨-, -, rfl⟩ := FilterTimer.timeout_eq h
    refine ⟨?_, ?_, ?_⟩
    · simpa using hpaced'
    · simpa [duration] using hnow
    · simpa using hrestarts
  | run ec =>
    have hpaced' := hpaced.run h
    obtain ⟨hmem, rfl⟩ := FilterTimer.run_eq h
    have hpos := List.length_pos_of_mem hmem
    have hfired : (past ++ [TimerEvent.run ec]).count (.run .success) =
        past.count (TimerEvent.run .success) + if ec = .success then 1 else 0 := by
      simp [List.count_append, List.count_singleton]
    refine ⟨?_, ?_, ?_⟩
    · rwa [hfired]
    · simpa [duration] using hnow
    · rw [hfired, List.length_erase_of_mem hmem]
      split_ifs <;> simp <;> omega

/-- Between the signal that set the timer and the time being up, the timer is not set again
for a whole delay. -/
structure LeftAlone (past : List TimerEvent) (timer : FilterTimer) : Prop where
  pending : .pending ∈ timer.waits → ∃ before between, past = before ++ .restart :: between ∧
    .restart ∉ between ∧ timer.expiry + total between = timer.now + FilterTimer.filterDelay
  expired : .ready .success ∈ timer.waits → ∃ before between after,
    past = before ++ .restart :: between ++ .timeout .success :: after ∧
      .restart ∉ between ∧ FilterTimer.filterDelay ≤ total between

theorem ticks_leftAlone (past : List TimerEvent) (timer : FilterTimer) (event : TimerEvent)
    (timer' : FilterTimer) (hs : LeftAlone past timer) (h : Ticks timer event timer') :
    LeftAlone (past ++ [event]) timer' := by
  obtain ⟨hpending, hexpired⟩ := hs
  have hlater : ∀ event, .ready .success ∈ timer.waits → ∃ before between after,
      past ++ [event] = before ++ .restart :: between ++ .timeout .success :: after ∧
        .restart ∉ between ∧ FilterTimer.filterDelay ≤ total between := by
    intro event hmem
    obtain ⟨before, between, after, rfl, hquiet⟩ := hexpired hmem
    exact ⟨before, between, after ++ [event], by simp, hquiet⟩
  cases event with
  | restart =>
    obtain rfl := Option.some.inj h
    refine ⟨fun _ => ⟨past, [], rfl, by simp, rfl⟩, ?_⟩
    intro hmem
    apply hlater
    exact timer.mem_restart (by simp) hmem
  | elapse milliseconds =>
    obtain rfl := Option.some.inj h
    refine ⟨?_, hlater _⟩
    intro hmem
    obtain ⟨before, between, rfl, hquiet, htime⟩ := hpending hmem
    refine ⟨before, between ++ [.elapse milliseconds], by simp, by simp [hquiet], ?_⟩
    simp only [total_snoc, duration, FilterTimer.elapse]
    omega
  | timeout ec =>
    obtain ⟨-, hdue, rfl⟩ := FilterTimer.timeout_eq h
    refine ⟨?_, ?_⟩
    · intro hmem
      obtain ⟨wait, -, hwait⟩ := List.mem_map.mp hmem
      cases wait <;> cases hwait
    · intro hready
      obtain ⟨wait, hmem, hwait⟩ := List.mem_map.mp hready
      cases wait with
      | pending =>
        cases hwait
        obtain ⟨before, between, rfl, hquiet, htime⟩ := hpending hmem
        have hdue := hdue rfl
        exact ⟨before, between, [], by simp, hquiet, by omega⟩
      | ready ec' =>
        cases hwait
        exact hlater _ hmem
  | run ec =>
    obtain ⟨-, rfl⟩ := FilterTimer.run_eq h
    refine ⟨?_, fun hmem => hlater _ (List.mem_of_mem_erase hmem)⟩
    intro hmem
    obtain ⟨before, between, rfl, hquiet, htime⟩ := hpending (List.mem_of_mem_erase hmem)
    exact ⟨before, between ++ [.run ec], by simp, by simp [hquiet], by simpa [duration] using htime⟩

/-- A wait that is not cancelled is there until the handler of one runs. -/
def Heard (past : List TimerEvent) (timer : FilterTimer) : Prop :=
  (∃ wait ∈ timer.waits, wait ≠ .ready .operationAborted) ∨
    ∃ ec, .run ec ∈ past ∧ ec ≠ .operationAborted

theorem ticks_heard (past : List TimerEvent) (timer : FilterTimer) (event : TimerEvent)
    (timer' : FilterTimer) (hs : Heard past timer) (h : Ticks timer event timer') :
    Heard (past ++ [event]) timer' := by
  obtain ⟨wait, hmem, halive⟩ | ⟨ec, hmem, hec⟩ := hs
  · cases event with
    | restart =>
      obtain rfl := Option.some.inj h
      exact .inl ⟨.pending, List.mem_append_right _ List.mem_cons_self, by simp⟩
    | elapse milliseconds =>
      obtain rfl := Option.some.inj h
      exact .inl ⟨wait, hmem, halive⟩
    | timeout ec =>
      obtain ⟨hec, -, rfl⟩ := FilterTimer.timeout_eq h
      refine .inl ⟨wait.complete ec, List.mem_map_of_mem hmem, ?_⟩
      cases wait with
      | pending => simpa [Wait.complete] using hec
      | ready ec' => exact halive
    | run ec =>
      by_cases hec : ec = .operationAborted
      · obtain ⟨-, rfl⟩ := FilterTimer.run_eq h
        subst hec
        exact .inl ⟨wait, (List.mem_erase_of_ne halive).mpr hmem, halive⟩
      · exact .inr ⟨ec, by simp, hec⟩
  · exact .inr ⟨ec, List.mem_append_left _ hmem, hec⟩

end Runs

end Estoraged

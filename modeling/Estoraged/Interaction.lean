import Mathlib.Data.List.Basic

/-!
# Programs that call out

A program is a tree of external calls: each call names what is asked of the
surroundings and continues with the answer. The surroundings are a relation, so
any number of answers may be possible, and every run leaves the trace of its calls.
-/

namespace Interaction
set_option autoImplicit false

/-- The calls a program may make, and the type of the answer to each. -/
structure Interface where
  Call : Type
  Ret : Call → Type

inductive Prog (I : Interface) (ε α : Type) : Type where
  | ret (a : α)
  | throw (e : ε)
  | call (c : I.Call) (k : I.Ret c → Prog I ε α)

section Monad
variable {I : Interface} {ε α β : Type}

namespace Prog

def bind (p : Prog I ε α) (f : α → Prog I ε β) : Prog I ε β :=
  match p with
  | .ret a => f a
  | .throw e => .throw e
  | .call c k => .call c fun r => (k r).bind f

/-- The handler sees the exception only; what the calls did stays done. -/
def tryCatch (p : Prog I ε α) (handler : ε → Prog I ε α) : Prog I ε α :=
  match p with
  | .ret a => .ret a
  | .throw e => handler e
  | .call c k => .call c fun r => (k r).tryCatch handler

instance : Monad (Prog I ε) where
  pure := .ret
  bind := .bind

instance : MonadExceptOf ε (Prog I ε) where
  throw := .throw
  tryCatch := .tryCatch

def ask (c : I.Call) : Prog I ε (I.Ret c) := .call c .ret

theorem bind_ret (p : Prog I ε α) : p.bind .ret = p := by
  induction p with
  | ret a => rfl
  | throw e => rfl
  | call c k ih => simp only [bind, ih]

theorem bind_assoc {γ : Type} (p : Prog I ε α) (f : α → Prog I ε β) (g : β → Prog I ε γ) :
    (p.bind f).bind g = p.bind fun a => (f a).bind g := by
  induction p with
  | ret a => rfl
  | throw e => rfl
  | call c k ih => simp only [bind, ih]

instance : LawfulMonad (Prog I ε) := LawfulMonad.mk' _
  bind_ret
  (fun _ _ => rfl)
  bind_assoc

@[simp] theorem pure_eq (a : α) : (pure a : Prog I ε α) = .ret a := rfl

@[simp] theorem throw_eq (e : ε) : (MonadExcept.throw e : Prog I ε α) = .throw e := rfl

@[simp] theorem ret_bind (a : α) (f : α → Prog I ε β) : (Prog.ret a >>= f) = f a := rfl

@[simp] theorem throw_bind (e : ε) (f : α → Prog I ε β) :
    ((Prog.throw e : Prog I ε α) >>= f) = .throw e := rfl

@[simp] theorem call_bind (c : I.Call) (k : I.Ret c → Prog I ε α) (f : α → Prog I ε β) :
    (Prog.call c k >>= f) = .call c fun r => k r >>= f := rfl

@[simp] theorem ask_bind (c : I.Call) (f : I.Ret c → Prog I ε β) :
    (ask c >>= f) = .call c f := rfl

@[simp] theorem tryCatch_ret (a : α) (handler : ε → Prog I ε α) :
    MonadExcept.tryCatch (Prog.ret a) handler = .ret a := rfl

@[simp] theorem tryCatch_throw (e : ε) (handler : ε → Prog I ε α) :
    MonadExcept.tryCatch (Prog.throw e) handler = handler e := rfl

@[simp] theorem tryCatch_call (c : I.Call) (k : I.Ret c → Prog I ε α)
    (handler : ε → Prog I ε α) :
    MonadExcept.tryCatch (Prog.call c k) handler =
      .call c fun r => MonadExcept.tryCatch (k r) handler := rfl

end Prog

end Monad

/-- One answered call, with the state it was issued in. -/
structure Event (I : Interface) (σ : Type) where
  before : σ
  call : I.Call
  answer : I.Ret call

/-- The surroundings: which answer a call may get in a state, and the state it leaves. -/
abbrev Env (I : Interface) (σ : Type) := σ → (c : I.Call) → I.Ret c → σ → Prop

abbrev Trace (I : Interface) (σ : Type) := List (Event I σ)

inductive Exec {I : Interface} {ε α σ : Type} (env : Env I σ) :
    Prog I ε α → σ → Trace I σ → Except ε α → σ → Prop where
  | ret (a : α) (s : σ) : Exec env (.ret a) s [] (.ok a) s
  | throw (e : ε) (s : σ) : Exec env (.throw e) s [] (.error e) s
  | call {c : I.Call} {k : I.Ret c → Prog I ε α} {r : I.Ret c} {s s₁ s₂ : σ}
      {tr : Trace I σ} {out : Except ε α} :
      env s c r s₁ → Exec env (k r) s₁ tr out s₂ →
      Exec env (.call c k) s (⟨s, c, r⟩ :: tr) out s₂

/-- Every run of `p` from `s` has a trace, an outcome and a final state in `Q`. -/
def Ensures {I : Interface} {ε α σ : Type} (env : Env I σ) (p : Prog I ε α) (s : σ)
    (Q : Trace I σ → Except ε α → σ → Prop) : Prop :=
  ∀ tr out s', Exec env p s tr out s' → Q tr out s'

namespace Ensures
variable {I : Interface} {ε α β σ : Type} {env : Env I σ}

theorem mono {p : Prog I ε α} {s : σ} {Q Q' : Trace I σ → Except ε α → σ → Prop}
    (h : Ensures env p s Q) (hQ : ∀ tr out s', Q tr out s' → Q' tr out s') :
    Ensures env p s Q' :=
  fun tr out s' hrun => hQ tr out s' (h tr out s' hrun)

@[simp] theorem ret_iff {a : α} {s : σ} {Q : Trace I σ → Except ε α → σ → Prop} :
    Ensures env (.ret a) s Q ↔ Q [] (.ok a) s := by
  constructor
  · exact fun h => h _ _ _ (.ret a s)
  · intro h tr out s' hrun
    cases hrun
    exact h

@[simp] theorem throw_iff {e : ε} {s : σ} {Q : Trace I σ → Except ε α → σ → Prop} :
    Ensures env (.throw e) s Q ↔ Q [] (.error e) s := by
  constructor
  · exact fun h => h _ _ _ (.throw e s)
  · intro h tr out s' hrun
    cases hrun
    exact h

theorem call_iff {c : I.Call} {k : I.Ret c → Prog I ε α} {s : σ}
    {Q : Trace I σ → Except ε α → σ → Prop} :
    Ensures env (.call c k) s Q ↔ ∀ r s₁, env s c r s₁ →
      Ensures env (k r) s₁ fun tr out s' => Q (⟨s, c, r⟩ :: tr) out s' := by
  constructor
  · exact fun h r s₁ hr tr out s' hrun => h _ out s' (.call hr hrun)
  · intro h tr out s' hrun
    cases hrun with
    | call hr hk => exact h _ _ hr _ _ _ hk

theorem bind_iff {p : Prog I ε α} {f : α → Prog I ε β} {s : σ}
    {Q : Trace I σ → Except ε β → σ → Prop} :
    Ensures env (p >>= f) s Q ↔ Ensures env p s fun tr out s₁ =>
      match out with
      | .ok a => Ensures env (f a) s₁ fun tr' out' s' => Q (tr ++ tr') out' s'
      | .error e => Q tr (.error e) s₁ := by
  induction p generalizing s Q with
  | ret a => simp
  | throw e => simp
  | call c k ih => simp only [Prog.call_bind, call_iff, ih, List.cons_append]

theorem tryCatch_iff {p : Prog I ε α} {handler : ε → Prog I ε α} {s : σ}
    {Q : Trace I σ → Except ε α → σ → Prop} :
    Ensures env (MonadExcept.tryCatch p handler) s Q ↔ Ensures env p s fun tr out s₁ =>
      match out with
      | .ok a => Q tr (.ok a) s₁
      | .error e => Ensures env (handler e) s₁ fun tr' out' s' => Q (tr ++ tr') out' s' := by
  induction p generalizing s Q with
  | ret a => simp
  | throw e => simp
  | call c k ih => simp only [Prog.tryCatch_call, call_iff, ih, List.cons_append]

theorem bind {p : Prog I ε α} {f : α → Prog I ε β} {s : σ}
    {P : Trace I σ → Except ε α → σ → Prop} {Q : Trace I σ → Except ε β → σ → Prop}
    (hp : Ensures env p s P)
    (hok : ∀ tr a s₁, P tr (.ok a) s₁ →
      Ensures env (f a) s₁ fun tr' out' s' => Q (tr ++ tr') out' s')
    (herror : ∀ tr e s₁, P tr (.error e) s₁ → Q tr (.error e) s₁) :
    Ensures env (p >>= f) s Q := by
  rw [bind_iff]
  refine hp.mono ?_
  intro tr out s₁ h
  cases out with
  | ok a => exact hok tr a s₁ h
  | error e => exact herror tr e s₁ h

/-- Nothing is thrown by a program that always returns the same. -/
theorem bind_ok {p : Prog I ε α} {f : α → Prog I ε β} {s : σ} {a : α} {P : Trace I σ → σ → Prop}
    {Q : Trace I σ → Except ε β → σ → Prop}
    (hp : Ensures env p s fun tr out s₁ => out = .ok a ∧ P tr s₁)
    (hf : ∀ tr s₁, P tr s₁ → Ensures env (f a) s₁ fun tr' out' s' => Q (tr ++ tr') out' s') :
    Ensures env (p >>= f) s Q := by
  refine hp.bind ?_ ?_
  · intro tr a' s₁ h
    obtain ⟨hout, hP⟩ := h
    obtain rfl := Except.ok.inj hout
    exact hf tr s₁ hP
  · intro tr e s₁ h
    cases h.1

theorem tryCatch {p : Prog I ε α} {handler : ε → Prog I ε α} {s : σ}
    {P Q : Trace I σ → Except ε α → σ → Prop}
    (hp : Ensures env p s P)
    (hok : ∀ tr a s₁, P tr (.ok a) s₁ → Q tr (.ok a) s₁)
    (herror : ∀ tr e s₁, P tr (.error e) s₁ →
      Ensures env (handler e) s₁ fun tr' out' s' => Q (tr ++ tr') out' s') :
    Ensures env (MonadExcept.tryCatch p handler) s Q := by
  rw [tryCatch_iff]
  refine hp.mono ?_
  intro tr out s₁ h
  cases out with
  | ok a => exact hok tr a s₁ h
  | error e => exact herror tr e s₁ h

end Ensures

/-! ## Programs of few calls -/

/-- Every call the program can come to make satisfies `N`. -/
def Prog.Uses {I : Interface} {ε α : Type} (N : I.Call → Prop) : Prog I ε α → Prop
  | .ret _ => True
  | .throw _ => True
  | .call c k => N c ∧ ∀ r, (k r).Uses N

namespace Prog
variable {I : Interface} {ε α β : Type} {N : I.Call → Prop}

@[simp] theorem uses_ret (a : α) : (Prog.ret a : Prog I ε α).Uses N := trivial

@[simp] theorem uses_throw (e : ε) : (Prog.throw e : Prog I ε α).Uses N := trivial

@[simp] theorem uses_ask (c : I.Call) : (ask c : Prog I ε (I.Ret c)).Uses N ↔ N c := by
  simp [ask, Uses]

theorem Uses.bind {p : Prog I ε α} {f : α → Prog I ε β} (hp : p.Uses N)
    (hf : ∀ a, (f a).Uses N) : (p >>= f).Uses N := by
  induction p with
  | ret a => exact hf a
  | throw e => trivial
  | call c k ih => exact ⟨hp.1, fun r => ih r (hp.2 r)⟩

theorem Uses.tryCatch {p : Prog I ε α} {handler : ε → Prog I ε α} (hp : p.Uses N)
    (hh : ∀ e, (handler e).Uses N) :
    (MonadExcept.tryCatch p handler : Prog I ε α).Uses N := by
  induction p with
  | ret a => trivial
  | throw e => exact hh e
  | call c k ih => exact ⟨hp.1, fun r => ih r (hp.2 r)⟩

theorem uses_true (p : Prog I ε α) : p.Uses fun _ => True := by
  induction p with
  | ret a => trivial
  | throw e => trivial
  | call c k ih => exact ⟨trivial, ih⟩

theorem Uses.mono {N' : I.Call → Prop} {p : Prog I ε α} (hp : p.Uses N)
    (hN : ∀ c, N c → N' c) : p.Uses N' := by
  induction p with
  | ret a => trivial
  | throw e => trivial
  | call c k ih => exact ⟨hN c hp.1, fun r => ih r (hp.2 r)⟩

end Prog

section Frame
variable {I : Interface} {ε α σ : Type} {env : Env I σ}

/-- What the calls of a program preserve holds throughout its runs. -/
theorem Prog.Uses.ensures {N : I.Call → Prop} {Inv : σ → Prop}
    (hcall : ∀ s c r s', N c → Inv s → env s c r s' → Inv s')
    {p : Prog I ε α} (hp : p.Uses N) {s : σ} (hs : Inv s) :
    Ensures env p s fun tr _ s' =>
      Inv s' ∧ ∀ ev ∈ tr, N ev.call ∧ Inv ev.before := by
  induction p generalizing s with
  | ret a => simpa using hs
  | throw e => simpa using hs
  | call c k ih =>
    rw [Ensures.call_iff]
    intro r s₁ hr
    refine (ih r (hp.2 r) (hcall s c r s₁ hp.1 hs hr)).mono ?_
    intro tr out s' h
    rcases h with ⟨hs', htr⟩
    exact ⟨hs', List.forall_mem_cons.mpr ⟨⟨hp.1, hs⟩, htr⟩⟩

theorem Prog.Uses.calls {N : I.Call → Prop} {p : Prog I ε α} (hp : p.Uses N) (s : σ) :
    Ensures env p s fun tr _ _ => ∀ ev ∈ tr, N ev.call := by
  induction p generalizing s with
  | ret a => simp
  | throw e => simp
  | call c k ih =>
    rw [Ensures.call_iff]
    intro r s₁ _
    refine (ih r (hp.2 r) s₁).mono ?_
    intro tr out s' h
    exact List.forall_mem_cons.mpr ⟨hp.1, h⟩

/-- An invariant may mention ghost state that every event updates. -/
theorem Prog.Uses.ensures_ghost {γ : Type} {N : I.Call → Prop} {Inv : σ → γ → Prop}
    {next : γ → Event I σ → γ}
    (hcall : ∀ s g c r s', N c → Inv s g → env s c r s' → Inv s' (next g ⟨s, c, r⟩))
    {p : Prog I ε α} (hp : p.Uses N) {s : σ} {g : γ} (hs : Inv s g) :
    Ensures env p s fun tr _ s' => Inv s' (tr.foldl next g) := by
  induction p generalizing s g with
  | ret a => simpa using hs
  | throw e => simpa using hs
  | call c k ih =>
    rw [Ensures.call_iff]
    intro r s₁ hr
    exact ih r (hp.2 r) (hcall s g c r s₁ hp.1 hs hr)

/-- What every call preserves holds throughout the runs of any program. -/
theorem Ensures.invariant {Inv : σ → Prop}
    (hcall : ∀ s c r s', Inv s → env s c r s' → Inv s')
    (p : Prog I ε α) {s : σ} (hs : Inv s) :
    Ensures env p s fun tr _ s' => Inv s' ∧ ∀ ev ∈ tr, Inv ev.before := by
  refine (p.uses_true.ensures (fun s c r s' _ => hcall s c r s') hs).mono ?_
  intro tr out s' h
  rcases h with ⟨hs', htr⟩
  exact ⟨hs', fun ev hev => (htr ev hev).2⟩

end Frame

structure Result (I : Interface) (ε α σ : Type) where
  trace : Trace I σ
  out : Except ε α
  state : σ

/-- Surroundings that determine every answer. -/
abbrev Responder (I : Interface) (σ : Type) := σ → (c : I.Call) → I.Ret c × σ

def graph {I : Interface} {σ : Type} (respond : Responder I σ) : Env I σ :=
  fun s c r s' => respond s c = (r, s')

namespace Prog
variable {I : Interface} {ε α β σ : Type}

def run (respond : Responder I σ) : Prog I ε α → σ → Result I ε α σ
  | .ret a, s => ⟨[], .ok a, s⟩
  | .throw e, s => ⟨[], .error e, s⟩
  | .call c k, s =>
    let answered := respond s c
    let rest := (k answered.1).run respond answered.2
    ⟨⟨s, c, answered.1⟩ :: rest.trace, rest.out, rest.state⟩

variable (respond : Responder I σ)

theorem exec_run {env : Env I σ}
    (hrespond : ∀ s c, env s c (respond s c).1 (respond s c).2) (p : Prog I ε α) (s : σ) :
    Exec env p s (p.run respond s).trace (p.run respond s).out (p.run respond s).state := by
  induction p generalizing s with
  | ret a => exact .ret a s
  | throw e => exact .throw e s
  | call c k ih => exact .call (hrespond s c) (ih _ _)

theorem run_bind_ok {p : Prog I ε α} {f : α → Prog I ε β} {s : σ} {a : α}
    (h : (p.run respond s).out = .ok a) :
    ((p >>= f).run respond s).out = ((f a).run respond (p.run respond s).state).out ∧
    ((p >>= f).run respond s).state = ((f a).run respond (p.run respond s).state).state := by
  induction p generalizing s with
  | ret b =>
    cases h
    exact ⟨rfl, rfl⟩
  | throw e => cases h
  | call c k ih => exact ih _ h

/-- What is ensured of every run holds of the one a responder determines. -/
theorem run_of_ensures {env : Env I σ} {p : Prog I ε α} {s : σ}
    {Q : Trace I σ → Except ε α → σ → Prop}
    (hrespond : ∀ s c, env s c (respond s c).1 (respond s c).2) (h : Ensures env p s Q) :
    Q (p.run respond s).trace (p.run respond s).out (p.run respond s).state :=
  h _ _ _ (exec_run respond hrespond p s)

end Prog

section Runs
variable {σ ℓ : Type}

inductive Steps (step : σ → ℓ → σ → Prop) : σ → List ℓ → σ → Prop where
  | nil (s : σ) : Steps step s [] s
  | cons {s s₁ s₂ : σ} {l : ℓ} {ls : List ℓ} :
      step s l s₁ → Steps step s₁ ls s₂ → Steps step s (l :: ls) s₂

variable {step : σ → ℓ → σ → Prop} {Inv : σ → Prop}

theorem Steps.invariant (hstep : ∀ s l s', Inv s → step s l s' → Inv s')
    {s s' : σ} {ls : List ℓ} (h : Steps step s ls s') (hs : Inv s) : Inv s' := by
  induction h with
  | nil s => exact hs
  | cons hl _ ih => exact ih (hstep _ _ _ hs hl)

theorem Steps.snoc {s s₁ s₂ : σ} {ls : List ℓ} {l : ℓ} (h : Steps step s ls s₁)
    (hl : step s₁ l s₂) : Steps step s (ls ++ [l]) s₂ := by
  induction h with
  | nil s => exact .cons hl (.nil _)
  | cons hhead _ ih => exact .cons hhead (ih hl)

/-- A run goes through a state at every point of its labels. -/
theorem Steps.split {s s' : σ} {ls ls' : List ℓ} (h : Steps step s (ls ++ ls') s') :
    ∃ s₁, Steps step s ls s₁ ∧ Steps step s₁ ls' s' := by
  induction ls generalizing s with
  | nil => exact ⟨s, .nil s, h⟩
  | cons l ls ih =>
    cases h with
    | cons hl h =>
      obtain ⟨s₁, hfirst, hrest⟩ := ih h
      exact ⟨s₁, .cons hl hfirst, hrest⟩

theorem Steps.forall_labels {G : ℓ → Prop} (hstep : ∀ s l s', Inv s → step s l s' → Inv s')
    (hlabel : ∀ s l s', Inv s → step s l s' → G l)
    {s s' : σ} {ls : List ℓ} (h : Steps step s ls s') (hs : Inv s) : ∀ l ∈ ls, G l := by
  induction h with
  | nil s => simp
  | cons hl _ ih =>
    intro l hmem
    rcases List.mem_cons.mp hmem with rfl | hmem
    · exact hlabel _ _ _ hs hl
    · exact ih (hstep _ _ _ hs hl) l hmem

theorem Steps.history {Inv : List ℓ → σ → Prop}
    (hstep : ∀ past s l s', Inv past s → step s l s' → Inv (past ++ [l]) s')
    {past ls : List ℓ} {s s' : σ} (h : Steps step s ls s') (hs : Inv past s) :
    Inv (past ++ ls) s' := by
  induction h generalizing past with
  | nil s => rwa [List.append_nil]
  | @cons s s₁ s₂ l ls hl _ ih =>
    have := ih (hstep past s l s₁ hs hl)
    rwa [List.append_assoc, List.singleton_append] at this

theorem Steps.from_start {Inv : List ℓ → σ → Prop} {s s' : σ} {ls : List ℓ}
    (h : Steps step s ls s') (hs : Inv [] s)
    (hstep : ∀ past s l s', Inv past s → step s l s' → Inv (past ++ [l]) s') : Inv ls s' := by
  simpa using h.history hstep hs

/-- Runs of a step function. -/
theorem steps_of_foldlM {f : σ → ℓ → Option σ} {s s' : σ} {ls : List ℓ}
    (h : ls.foldlM f s = some s') : Steps (fun s l s' => f s l = some s') s ls s' := by
  induction ls generalizing s with
  | nil =>
    obtain rfl := Option.some.inj h
    exact .nil s
  | cons l ls ih =>
    obtain ⟨s₁, hl, hrest⟩ := Option.bind_eq_some_iff.mp (by simpa using h)
    exact .cons hl (ih hrest)

/-- Of a larger system, only the events `g` keeps are those of the part `f` shows. -/
theorem Steps.project {τ ℓ' : Type} {part : τ → ℓ' → τ → Prop} {f : σ → τ} {g : ℓ → Option ℓ'}
    (hidden : ∀ s l s', step s l s' → g l = none → f s' = f s)
    (shown : ∀ s l s' l', step s l s' → g l = some l' → part (f s) l' (f s'))
    {s s' : σ} {ls : List ℓ} (h : Steps step s ls s') :
    Steps part (f s) (ls.filterMap g) (f s') := by
  induction h with
  | nil s => exact .nil _
  | @cons s s₁ s₂ l ls hl _ ih =>
    cases hlabel : g l with
    | none =>
      rw [List.filterMap_cons_none hlabel, ← hidden s l s₁ hl hlabel]
      exact ih
    | some l' =>
      rw [List.filterMap_cons_some hlabel]
      exact .cons (shown s l s₁ l' hl hlabel) ih

/-- A run whose labels all satisfy `P` is a run of the steps restricted to `P`. -/
theorem Steps.restrict {P : ℓ → Prop} {s s' : σ} {ls : List ℓ} (h : Steps step s ls s')
    (hP : ∀ l ∈ ls, P l) : Steps (fun s l s' => step s l s' ∧ P l) s ls s' := by
  induction h with
  | nil s => exact .nil s
  | cons hl _ ih =>
    obtain ⟨hhead, htail⟩ := List.forall_mem_cons.mp hP
    exact .cons ⟨hl, hhead⟩ (ih htail)

theorem Steps.append {s s₁ s₂ : σ} {ls ls' : List ℓ} (h : Steps step s ls s₁)
    (h' : Steps step s₁ ls' s₂) : Steps step s (ls ++ ls') s₂ := by
  induction h with
  | nil s => exact h'
  | cons hl _ ih => exact .cons hl (ih h')

/-- Steps that are runs of smaller ones make one run of these. -/
theorem Steps.flatMap {ℓ' : Type} {step' : σ → ℓ' → σ → Prop} {f : ℓ → List ℓ'}
    (hstep : ∀ s l s', step s l s' → Steps step' s (f l) s') {s s' : σ} {ls : List ℓ}
    (h : Steps step s ls s') : Steps step' s (ls.flatMap f) s' := by
  induction h with
  | nil s => exact .nil s
  | cons hl _ ih => exact (hstep _ _ _ hl).append ih

/-- One answered call as a step. -/
def CallStep {I : Interface} (env : Env I σ) (s : σ) (ev : Event I σ) (s' : σ) : Prop :=
  ev.before = s ∧ env s ev.call ev.answer s'

theorem Exec.steps {I : Interface} {ε α : Type} {env : Env I σ} {p : Prog I ε α} {s s' : σ}
    {tr : Trace I σ} {out : Except ε α} (h : Exec env p s tr out s') :
    Steps (CallStep env) s tr s' := by
  induction h with
  | ret a s => exact .nil s
  | throw e s => exact .nil s
  | call hr _ ih => exact .cons ⟨rfl, hr⟩ ih

end Runs

end Interaction

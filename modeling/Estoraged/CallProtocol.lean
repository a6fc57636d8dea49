import Estoraged.Interpretation

/-!
# Protocols of calls, and programs that mirror others

A protocol says which calls a program may make in which phase. A program mirrors another
one when it makes the same calls, seen with fewer arguments, and hidden ones in between. A
program that does both simulates what it mirrors, wherever the calls allowed in a phase do
what the mirrored ones may.
-/

namespace Interaction
set_option autoImplicit false

/-- The phases of a protocol move with the answers. -/
structure Protocol (I : Interface) (γ : Type) where
  allows : γ → I.Call → Prop
  next : γ → (c : I.Call) → I.Ret c → γ

section Following
variable {I : Interface} {ε α β γ σ : Type} {protocol : Protocol I γ}

/-- Whatever the answers are, the calls keep to the protocol and the program ends in `Q`. -/
def Prog.Follows (protocol : Protocol I γ) (Q : Except ε α → γ → Prop) : Prog I ε α → γ → Prop
  | .ret a, g => Q (.ok a) g
  | .throw e, g => Q (.error e) g
  | .call c k, g => protocol.allows g c ∧ ∀ r, (k r).Follows protocol Q (protocol.next g c r)

/-- The calls of a trace keep to the protocol. -/
def Protocol.Keeps (protocol : Protocol I γ) : γ → Trace I σ → Prop
  | _, [] => True
  | g, ev :: tr =>
    protocol.allows g ev.call ∧ protocol.Keeps (protocol.next g ev.call ev.answer) tr

def Protocol.after (protocol : Protocol I γ) (g : γ) (tr : Trace I σ) : γ :=
  tr.foldl (fun g ev => protocol.next g ev.call ev.answer) g

theorem Protocol.after_append (g : γ) (tr tr' : Trace I σ) :
    protocol.after g (tr ++ tr') = protocol.after (protocol.after g tr) tr' :=
  List.foldl_append

theorem Protocol.keeps_append {g : γ} {tr tr' : Trace I σ} :
    protocol.Keeps g (tr ++ tr') ↔
      protocol.Keeps g tr ∧ protocol.Keeps (protocol.after g tr) tr' := by
  induction tr generalizing g with
  | nil => exact (and_iff_right trivial).symm
  | cons ev tr ih =>
    simp only [List.cons_append, Protocol.Keeps, ih, and_assoc]
    rfl

/-- What every allowed event takes from one phase to the next holds along a trace. -/
theorem Protocol.Keeps.invariant {g : γ} {tr : Trace I σ} (htr : protocol.Keeps g tr)
    {Inv : Trace I σ → γ → Prop} {past : Trace I σ} (hinv : Inv past g)
    (hevent : ∀ past g ev, Inv past g → protocol.allows g ev.call →
      Inv (past ++ [ev]) (protocol.next g ev.call ev.answer)) :
    Inv (past ++ tr) (protocol.after g tr) := by
  induction tr generalizing past g with
  | nil => simpa [Protocol.after] using hinv
  | cons ev tr ih =>
    have hnext := ih htr.2 (hevent past g ev hinv htr.1)
    simpa [Protocol.after] using hnext

/-- Every call of the trace is allowed in some phase. -/
theorem Protocol.Keeps.allowed {g : γ} {tr : Trace I σ} (htr : protocol.Keeps g tr) :
    ∀ ev ∈ tr, ∃ g', protocol.allows g' ev.call := by
  induction tr generalizing g with
  | nil => simp
  | cons ev tr ih => exact List.forall_mem_cons.mpr ⟨⟨g, htr.1⟩, ih htr.2⟩

namespace Prog

@[simp] theorem follows_ret {Q : Except ε α → γ → Prop} {a : α} {g : γ} :
    (Prog.ret a : Prog I ε α).Follows protocol Q g ↔ Q (.ok a) g := Iff.rfl

@[simp] theorem follows_throw {Q : Except ε α → γ → Prop} {e : ε} {g : γ} :
    (Prog.throw e : Prog I ε α).Follows protocol Q g ↔ Q (.error e) g := Iff.rfl

@[simp] theorem follows_call {Q : Except ε α → γ → Prop} {c : I.Call}
    {k : I.Ret c → Prog I ε α} {g : γ} :
    (Prog.call c k).Follows protocol Q g ↔
      protocol.allows g c ∧ ∀ r, (k r).Follows protocol Q (protocol.next g c r) := Iff.rfl

theorem Follows.bind {Q : Except ε α → γ → Prop} {Q' : Except ε β → γ → Prop}
    {p : Prog I ε α} {f : α → Prog I ε β} {g : γ} (hp : p.Follows protocol Q g)
    (hok : ∀ a g', Q (.ok a) g' → (f a).Follows protocol Q' g')
    (herror : ∀ e g', Q (.error e) g' → Q' (.error e) g') :
    (p >>= f).Follows protocol Q' g := by
  induction p generalizing g with
  | ret a => exact hok a g hp
  | throw e => exact herror e g hp
  | call c k ih => exact ⟨hp.1, fun r => ih r (hp.2 r)⟩

theorem Follows.tryCatch {Q Q' : Except ε α → γ → Prop} {p : Prog I ε α}
    {handler : ε → Prog I ε α} {g : γ} (hp : p.Follows protocol Q g)
    (hok : ∀ a g', Q (.ok a) g' → Q' (.ok a) g')
    (herror : ∀ e g', Q (.error e) g' → (handler e).Follows protocol Q' g') :
    (MonadExcept.tryCatch p handler : Prog I ε α).Follows protocol Q' g := by
  induction p generalizing g with
  | ret a => exact hok a g hp
  | throw e => exact herror e g hp
  | call c k ih => exact ⟨hp.1, fun r => ih r (hp.2 r)⟩

/-- The trace of every run keeps to the protocol. -/
theorem Follows.ensures {Q : Except ε α → γ → Prop} {p : Prog I ε α} {g : γ}
    (hp : p.Follows protocol Q g) (env : Env I σ) (s : σ) :
    Ensures env p s fun tr out _ => protocol.Keeps g tr ∧ Q out (protocol.after g tr) := by
  induction p generalizing g s with
  | ret a => simpa [Protocol.Keeps, Protocol.after] using hp
  | throw e => simpa [Protocol.Keeps, Protocol.after] using hp
  | call c k ih =>
    rw [Ensures.call_iff]
    intro r s₁ _
    refine (ih r (hp.2 r) s₁).mono ?_
    intro tr out s' h
    exact ⟨⟨hp.1, h.1⟩, h.2⟩

end Prog

end Following

/-! ## Mirrors -/

section Mirroring
variable {I J : Interface} {ε α β α' β' γ σ τ : Type}

/-- `shown` is what is left of an answered call, `none` for the hidden calls. -/
inductive Mirrors (shown : (c : J.Call) → J.Ret c → Option ((d : I.Call) × I.Ret d))
    (R : α → β → Prop) : Prog J ε α → Prog I ε β → Prop where
  | ret {a : α} {b : β} : R a b → Mirrors shown R (.ret a) (.ret b)
  | throw (e : ε) : Mirrors shown R (.throw e) (.throw e)
  | hidden {c : J.Call} {k : J.Ret c → Prog J ε α} {q : Prog I ε β} :
      (∀ r, shown c r = none) → (∀ r, Mirrors shown R (k r) q) →
      Mirrors shown R (.call c k) q
  | call {c : J.Call} {k : J.Ret c → Prog J ε α} {d : I.Call} {k' : I.Ret d → Prog I ε β}
      (f : J.Ret c → I.Ret d) :
      (∀ r, shown c r = some ⟨d, f r⟩) → (∀ r, Mirrors shown R (k r) (k' (f r))) →
      Mirrors shown R (.call c k) (.call d k')

variable {shown : (c : J.Call) → J.Ret c → Option ((d : I.Call) × I.Ret d)}
variable {R : α → β → Prop} {R' : α' → β' → Prop}

namespace Mirrors

theorem bind {p : Prog J ε α} {q : Prog I ε β} {f : α → Prog J ε α'} {g : β → Prog I ε β'}
    (h : Mirrors shown R p q) (hfg : ∀ a b, R a b → Mirrors shown R' (f a) (g b)) :
    Mirrors shown R' (p >>= f) (q >>= g) := by
  induction h with
  | ret hR => exact hfg _ _ hR
  | throw e => exact .throw e
  | hidden hnone _ ih => exact .hidden hnone ih
  | call f hsome _ ih => exact .call f hsome ih

theorem tryCatch {p : Prog J ε α} {q : Prog I ε β} {handler : ε → Prog J ε α}
    {handler' : ε → Prog I ε β} (h : Mirrors shown R p q)
    (hhandlers : ∀ e, Mirrors shown R (handler e) (handler' e)) :
    Mirrors shown R (MonadExcept.tryCatch p handler) (MonadExcept.tryCatch q handler') := by
  induction h with
  | ret hR => exact .ret hR
  | throw e => exact hhandlers e
  | hidden hnone _ ih => exact .hidden hnone ih
  | call f hsome _ ih => exact .call f hsome ih

/-- Handlers that throw on what they are given do not show. -/
theorem catching {p : Prog J ε α} {q : Prog I ε β} {handler : ε → Prog J ε α}
    (h : Mirrors shown R p q) (hhandler : ∀ e, Mirrors shown R (handler e) (.throw e)) :
    Mirrors shown R (MonadExcept.tryCatch p handler) q := by
  induction h with
  | ret hR => exact .ret hR
  | throw e => exact hhandler e
  | hidden hnone _ ih => exact .hidden hnone ih
  | call f hsome _ ih => exact .call f hsome ih

/-- Nor does what only hands on its value. -/
theorem andThen {p : Prog J ε α} {q : Prog I ε β} {f : α → Prog J ε α'} {R' : α' → β → Prop}
    (h : Mirrors shown R p q) (hf : ∀ a b, R a b → Mirrors shown R' (f a) (.ret b)) :
    Mirrors shown R' (p >>= f) q := by
  induction h with
  | ret hR => exact hf _ _ hR
  | throw e => exact .throw e
  | hidden hnone _ ih => exact .hidden hnone ih
  | call f hsome _ ih => exact .call f hsome ih

end Mirrors

/-- What is left of an event, in a state that shows as `world` has it. -/
def shownEvent (shown : (c : J.Call) → J.Ret c → Option ((d : I.Call) × I.Ret d))
    (world : τ → σ) (ev : Event J τ) : Option (Event I σ) :=
  (shown ev.call ev.answer).map fun answered => ⟨world ev.before, answered.1, answered.2⟩

/-- The outcomes of a program and of what it mirrors. -/
inductive EndsLike (R : α → β → Prop) : Except ε α → Except ε β → Prop where
  | ok {a : α} {b : β} : R a b → EndsLike R (.ok a) (.ok b)
  | error (e : ε) : EndsLike R (.error e) (.error e)

theorem EndsLike.eq_of_eq {out out' : Except ε α} (h : EndsLike (· = ·) out out') :
    out' = out := by
  cases h with
  | ok heq => rw [heq]
  | error e => rfl

/-- What an answered call of a phase leaves of the two worlds. -/
structure Shows (protocol : Protocol J γ) (env' : Env I σ) (Tracks : γ → τ → Prop)
    (world : τ → σ) (shown : (c : J.Call) → J.Ret c → Option ((d : I.Call) × I.Ret d))
    (g : γ) (t : τ) (c : J.Call) (r : J.Ret c) (t' : τ) : Prop where
  tracks : Tracks (protocol.next g c r) t'
  hidden : shown c r = none → world t' = world t
  shows : ∀ answered, shown c r = some answered →
    env' (world t) answered.1 answered.2 (world t')

/-- A run of a program that follows a protocol shows as a run of what it mirrors. -/
theorem Exec.mirrors {protocol : Protocol J γ} {env : Env J τ} {env' : Env I σ}
    {Tracks : γ → τ → Prop} {world : τ → σ}
    (hcall : ∀ g t c r t', Tracks g t → protocol.allows g c → env t c r t' →
      Shows protocol env' Tracks world shown g t c r t')
    {p : Prog J ε α} {q : Prog I ε β} (hmirrors : Mirrors shown R p q)
    {Q : Except ε α → γ → Prop} {g : γ} (hfollows : p.Follows protocol Q g)
    {t t' : τ} {tr : Trace J τ} {out : Except ε α} (ht : Tracks g t)
    (hrun : Exec env p t tr out t') :
    (∃ out', EndsLike R out out' ∧
      Exec env' q (world t) (tr.filterMap (shownEvent shown world)) out' (world t')) ∧
    ∃ g', Q out g' ∧ Tracks g' t' := by
  induction hmirrors generalizing g t tr with
  | @ret a b hR =>
    obtain ⟨rfl, rfl, rfl⟩ := hrun.of_ret
    exact ⟨⟨.ok b, .ok hR, .ret b _⟩, g, hfollows, ht⟩
  | throw e =>
    obtain ⟨rfl, rfl, rfl⟩ := hrun.of_throw
    exact ⟨⟨.error e, .error e, .throw e _⟩, g, hfollows, ht⟩
  | @hidden c k q hnone _ ih =>
    obtain ⟨r, t₁, tr', henv, rfl, hrest⟩ := hrun.of_call
    have hshows := hcall g t c r t₁ ht hfollows.1 henv
    obtain ⟨⟨out', hends, hexec⟩, hend⟩ := ih r (hfollows.2 r) hshows.tracks hrest
    have hhead : shownEvent shown world ⟨t, c, r⟩ = none := by simp [shownEvent, hnone r]
    rw [List.filterMap_cons_none hhead, ← hshows.hidden (hnone r)]
    exact ⟨⟨out', hends, hexec⟩, hend⟩
  | @call c k d k' f hsome _ ih =>
    obtain ⟨r, t₁, tr', henv, rfl, hrest⟩ := hrun.of_call
    have hshows := hcall g t c r t₁ ht hfollows.1 henv
    obtain ⟨⟨out', hends, hexec⟩, hend⟩ := ih r (hfollows.2 r) hshows.tracks hrest
    have hhead : shownEvent shown world ⟨t, c, r⟩ = some ⟨world t, d, f r⟩ := by
      simp [shownEvent, hsome r]
    rw [List.filterMap_cons_some hhead]
    exact ⟨⟨out', hends, .call (hshows.shows _ (hsome r)) hexec⟩, hend⟩

end Mirroring

end Interaction

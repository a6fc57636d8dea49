import Estoraged.Interaction

/-!
# Calls that are programs

A handler gives, for each call of one interface, a program of another one that answers
it. Where every such program does what the surroundings of the first interface allow, the
whole interpreted program simulates what it interprets.
-/

namespace Interaction
set_option autoImplicit false

section Programs
variable {I J : Interface} {ε δ α β : Type}

namespace Prog

/-- An exception that the handler throws itself ends the program. -/
def interpret (h : ∀ c : I.Call, Prog J ε (I.Ret c)) : Prog I ε α → Prog J ε α
  | .ret a => .ret a
  | .throw e => .throw e
  | .call c k => h c >>= fun r => (k r).interpret h

/-- The outcome as an answer. -/
def attempt : Prog I ε α → Prog I δ (Except ε α)
  | .ret a => .ret (.ok a)
  | .throw e => .ret (.error e)
  | .call c k => .call c fun r => (k r).attempt

section Interpret
variable {h : ∀ c : I.Call, Prog J ε (I.Ret c)}

@[simp] theorem interpret_ret (a : α) : (Prog.ret a : Prog I ε α).interpret h = .ret a := rfl

@[simp] theorem interpret_throw (e : ε) :
    (Prog.throw e : Prog I ε α).interpret h = .throw e := rfl

@[simp] theorem interpret_call (c : I.Call) (k : I.Ret c → Prog I ε α) :
    (Prog.call c k).interpret h = h c >>= fun r => (k r).interpret h := rfl

theorem Uses.interpret {N : I.Call → Prop} {N' : J.Call → Prop} {p : Prog I ε α} (hp : p.Uses N)
    (hh : ∀ c, N c → (h c).Uses N') : (p.interpret h).Uses N' := by
  induction p with
  | ret a => trivial
  | throw e => trivial
  | call c k ih => exact (hh c hp.1).bind fun r => ih r (hp.2 r)

end Interpret

theorem Uses.attempt {N : I.Call → Prop} {p : Prog I ε α} (hp : p.Uses N) :
    (p.attempt : Prog I δ (Except ε α)).Uses N := by
  induction p with
  | ret a => trivial
  | throw e => trivial
  | call c k ih => exact ⟨hp.1, fun r => ih r (hp.2 r)⟩

end Prog

end Programs

section Runs
variable {I J : Interface} {ε δ α β σ τ : Type} {env : Env I σ}

theorem Exec.of_ret {a : α} {s s' : σ} {tr : Trace I σ} {out : Except ε α}
    (h : Exec env (.ret a) s tr out s') : tr = [] ∧ out = .ok a ∧ s' = s := by
  cases h
  exact ⟨rfl, rfl, rfl⟩

theorem Exec.of_throw {e : ε} {s s' : σ} {tr : Trace I σ} {out : Except ε α}
    (h : Exec env (.throw e) s tr out s') : tr = [] ∧ out = .error e ∧ s' = s := by
  cases h
  exact ⟨rfl, rfl, rfl⟩

theorem Exec.of_call {c : I.Call} {k : I.Ret c → Prog I ε α} {s s' : σ} {tr : Trace I σ}
    {out : Except ε α} (h : Exec env (.call c k) s tr out s') :
    ∃ r s₁ tr', env s c r s₁ ∧ tr = ⟨s, c, r⟩ :: tr' ∧ Exec env (k r) s₁ tr' out s' := by
  cases h with
  | call hr hk => exact ⟨_, _, _, hr, rfl, hk⟩

theorem Exec.of_bind {p : Prog I ε α} {f : α → Prog I ε β} {s s' : σ} {tr : Trace I σ}
    {out : Except ε β} (h : Exec env (p >>= f) s tr out s') :
    (∃ a s₁ tr₁ tr₂, tr = tr₁ ++ tr₂ ∧ Exec env p s tr₁ (.ok a) s₁ ∧
      Exec env (f a) s₁ tr₂ out s') ∨
    ∃ e, out = .error e ∧ Exec env p s tr (.error e) s' := by
  induction p generalizing s tr with
  | ret a => exact .inl ⟨a, s, [], tr, rfl, .ret a s, h⟩
  | throw e =>
    obtain ⟨rfl, rfl, rfl⟩ := h.of_throw
    exact .inr ⟨e, rfl, .throw e s'⟩
  | call c k ih =>
    obtain ⟨r, s₁, tr', hr, rfl, hrest⟩ := h.of_call
    obtain ⟨a, s₂, tr₁, tr₂, rfl, hp, hf⟩ | ⟨e, rfl, hp⟩ := ih r hrest
    · exact .inl ⟨a, s₂, _ :: tr₁, tr₂, rfl, .call hr hp, hf⟩
    · exact .inr ⟨e, rfl, .call hr hp⟩

theorem Exec.of_attempt {p : Prog I ε α} {s s' : σ} {tr : Trace I σ}
    {out : Except δ (Except ε α)} (h : Exec env p.attempt s tr out s') :
    ∃ outcome, out = .ok outcome ∧ Exec env p s tr outcome s' := by
  induction p generalizing s tr with
  | ret a =>
    obtain ⟨rfl, rfl, rfl⟩ := h.of_ret
    exact ⟨.ok a, rfl, .ret a s'⟩
  | throw e =>
    obtain ⟨rfl, rfl, rfl⟩ := h.of_ret
    exact ⟨.error e, rfl, .throw e s'⟩
  | call c k ih =>
    obtain ⟨r, s₁, tr', hr, rfl, hrest⟩ := h.of_call
    obtain ⟨outcome, rfl, hp⟩ := ih r hrest
    exact ⟨outcome, rfl, .call hr hp⟩

/-- A handler that answers as the abstract surroundings may makes a forward simulation of any
program: its trace falls into one part for each abstract call. -/
theorem Exec.simulates {env' : Env J τ} {R : τ → σ → Prop} {T : Trace J τ → Event I σ → Prop}
    {h : ∀ c : I.Call, Prog J ε (I.Ret c)}
    (hh : ∀ c t s tr out t', R t s → Exec env' (h c) t tr out t' →
      ∃ r s', out = .ok r ∧ env s c r s' ∧ R t' s' ∧ T tr ⟨s, c, r⟩)
    {p : Prog I ε α} {t t' : τ} {s : σ} {tr : Trace J τ} {out : Except ε α} (hR : R t s)
    (hrun : Exec env' (p.interpret h) t tr out t') :
    ∃ parts tr' s', tr = parts.flatten ∧ List.Forall₂ T parts tr' ∧
      Exec env p s tr' out s' ∧ R t' s' := by
  induction p generalizing t s tr with
  | ret a =>
    obtain ⟨rfl, rfl, rfl⟩ := hrun.of_ret
    exact ⟨[], [], s, rfl, .nil, .ret a s, hR⟩
  | throw e =>
    obtain ⟨rfl, rfl, rfl⟩ := hrun.of_throw
    exact ⟨[], [], s, rfl, .nil, .throw e s, hR⟩
  | call c k ih =>
    obtain ⟨r, t₁, tr₁, tr₂, rfl, hcall, hrest⟩ | ⟨e, rfl, hcall⟩ := hrun.of_bind
    · obtain ⟨r', s₁, hr, henv, hR₁, hT⟩ := hh c t s tr₁ _ t₁ hR hcall
      obtain rfl := Except.ok.inj hr
      obtain ⟨parts, tr', s', rfl, hparts, hexec, hR'⟩ := ih r hR₁ hrest
      exact ⟨tr₁ :: parts, _ :: tr', s', rfl, .cons hT hparts, .call henv hexec, hR'⟩
    · obtain ⟨r', s₁, hr, -⟩ := hh c t s tr _ t' hR hcall
      cases hr

/-- Surroundings that may answer anything. -/
def anyAnswer (I : Interface) : Env I Unit := fun _ _ _ _ => True

/-- Where no handler throws, what comes out may come out of the program itself. -/
theorem Exec.outcome {env' : Env J τ} {h : ∀ c : I.Call, Prog J ε (I.Ret c)}
    (hh : ∀ c t tr out t', Exec env' (h c) t tr out t' → ∃ r, out = .ok r)
    {p : Prog I ε α} {t t' : τ} {tr : Trace J τ} {out : Except ε α}
    (hrun : Exec env' (p.interpret h) t tr out t') :
    ∃ tr', Exec (anyAnswer I) p () tr' out () := by
  have hanswers : ∀ c t (s : Unit) tr out t', True → Exec env' (h c) t tr out t' →
      ∃ r s', out = .ok r ∧ anyAnswer I s c r s' ∧ True ∧ True := by
    intro c t s tr out t' _ hcall
    obtain ⟨r, rfl⟩ := hh c t tr out t' hcall
    exact ⟨r, (), rfl, trivial, trivial, trivial⟩
  obtain ⟨parts, tr', s', -, -, hexec, -⟩ := Exec.simulates (R := fun _ _ => True)
    (T := fun _ _ => True) hanswers trivial hrun
  exact ⟨tr', hexec⟩

theorem forall₂_mem {β γ : Type} {S : β → γ → Prop} {xs : List β} {ys : List γ}
    (h : List.Forall₂ S xs ys) {x : β} (hx : x ∈ xs) : ∃ y ∈ ys, S x y := by
  induction h with
  | nil => cases hx
  | @cons x' y xs ys hS _ ih =>
    rcases List.mem_cons.mp hx with rfl | hx
    · exact ⟨y, List.mem_cons_self, hS⟩
    · obtain ⟨y', hmem, hS'⟩ := ih hx
      exact ⟨y', List.mem_cons_of_mem _ hmem, hS'⟩

/-- What `T` says of the parts reaches every event of the concrete trace. -/
theorem part_of_mem {T : Trace J τ → Event I σ → Prop} {parts : List (Trace J τ)}
    {tr : Trace I σ} (h : List.Forall₂ T parts tr) {ev : Event J τ} (hev : ev ∈ parts.flatten) :
    ∃ part, ∃ ev' ∈ tr, T part ev' ∧ ev ∈ part := by
  obtain ⟨part, hpart, hev⟩ := List.mem_flatten.mp hev
  obtain ⟨ev', hmem, hT⟩ := forall₂_mem h hpart
  exact ⟨part, ev', hmem, hT, hev⟩

/-- So it is step for step with systems that run programs. -/
theorem Steps.simulates {ℓ ℓ' : Type} {step : σ → ℓ → σ → Prop} {step' : τ → ℓ' → τ → Prop}
    {R : τ → σ → Prop} {S : ℓ' → ℓ → Prop}
    (hstep : ∀ t l' t' s, R t s → step' t l' t' → ∃ l s', S l' l ∧ step s l s' ∧ R t' s')
    {t t' : τ} {s : σ} {ls' : List ℓ'} (hR : R t s) (hrun : Steps step' t ls' t') :
    ∃ ls s', List.Forall₂ S ls' ls ∧ Steps step s ls s' ∧ R t' s' := by
  induction hrun generalizing s with
  | nil t => exact ⟨[], s, .nil, .nil s, hR⟩
  | cons hl _ ih =>
    obtain ⟨l, s₁, hS, hlabel, hR₁⟩ := hstep _ _ _ _ hR hl
    obtain ⟨ls, s', hall, hrest, hR'⟩ := ih hR₁
    exact ⟨l :: ls, s', .cons hS hall, .cons hlabel hrest, hR'⟩

/-- A run keeps what its steps keep, and may be taken as one of the steps from there. -/
theorem Steps.guarded {ℓ : Type} {step : σ → ℓ → σ → Prop} {Inv : σ → Prop} {P : ℓ → Prop}
    (hstep : ∀ s l s', Inv s → P l → step s l s' → Inv s') {s s' : σ} {ls : List ℓ}
    (h : Steps step s ls s') (hs : Inv s) (hP : ∀ l ∈ ls, P l) :
    Steps (fun s l s' => (Inv s ∧ P l) ∧ step s l s') s ls s' := by
  induction h with
  | nil s => exact .nil s
  | cons hl _ ih =>
    obtain ⟨hhead, htail⟩ := List.forall_mem_cons.mp hP
    exact .cons ⟨⟨hs, hhead⟩, hl⟩ (ih (hstep _ _ _ hs hhead hl) htail)

end Runs

end Interaction

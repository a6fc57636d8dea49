import Estoraged.LinearCongruential
import Mathlib.Data.List.Prime
import Mathlib.NumberTheory.LucasPrimality

/-!
# Full periods

A multiplicative engine whose multiplier is a primitive root of its prime modulus goes
through all states but zero. The factors of the modulus less one certify both at once.
-/

namespace LinearCongruential.Engine
set_option autoImplicit false

structure FullPeriod (g : Engine) : Prop where
  increment : g.increment = 0
  prime : g.modulus.Prime
  order : orderOf (g.multiplier : ZMod g.modulus) = g.modulus - 1

variable {g : Engine}

theorem FullPeriod.of_factors {factors : List Nat} (hincrement : g.increment = 0)
    (hmodulus : 1 < g.modulus) (hprime : ∀ q ∈ factors, q.Prime)
    (hprod : factors.prod = g.modulus - 1)
    (hone : (g.multiplier : ZMod g.modulus) ^ (g.modulus - 1) = 1)
    (hne : ∀ q ∈ factors, (g.multiplier : ZMod g.modulus) ^ ((g.modulus - 1) / q) ≠ 1) :
    g.FullPeriod := by
  have hdivisors : ∀ q : Nat, q.Prime → q ∣ g.modulus - 1 →
      (g.multiplier : ZMod g.modulus) ^ ((g.modulus - 1) / q) ≠ 1 := by
    intro q hq hdvd
    apply hne
    apply mem_list_primes_of_dvd_prod hq.prime
    · intro r hr
      exact (hprime r hr).prime
    · rwa [hprod]
  constructor
  · exact hincrement
  · exact lucas_primality g.modulus g.multiplier hone hdivisors
  · exact orderOf_eq_of_pow_and_pow_div_prime (by omega) hone hdivisors

theorem cast_iterate (hincrement : g.increment = 0) (x k : Nat) :
    ((g.next^[k] x : Nat) : ZMod g.modulus) = g.multiplier ^ k * x := by
  induction k with
  | zero =>
    rw [pow_zero, one_mul]
    rfl
  | succ k ih =>
    rw [Function.iterate_succ_apply', next, hincrement, Nat.add_zero, ZMod.natCast_mod,
      Nat.cast_mul, ih, pow_succ']
    exact (mul_assoc _ _ _).symm

theorem output_lt (hmodulus : 0 < g.modulus) (x k : Nat) : g.output x k < g.modulus := by
  rw [output, Function.iterate_succ_apply']
  exact Nat.mod_lt _ hmodulus

namespace FullPeriod

theorem output_eq_iff (h : g.FullPeriod) {x : Nat} (hx : (x : ZMod g.modulus) ≠ 0) (k l : Nat) :
    g.output x k = g.output x l ↔ k ≡ l [MOD g.modulus - 1] := by
  have hprime : Fact g.modulus.Prime := ⟨h.prime⟩
  have hpos := h.prime.pos
  have hfin : IsOfFinOrder (g.multiplier : ZMod g.modulus) := by
    apply orderOf_pos_iff.mp
    rw [h.order]
    have htwo := h.prime.two_le
    omega
  calc g.output x k = g.output x l
      ↔ ((g.output x k : Nat) : ZMod g.modulus) = (g.output x l : Nat) := by
        rw [ZMod.natCast_eq_natCast_iff', Nat.mod_eq_of_lt (output_lt hpos x k),
          Nat.mod_eq_of_lt (output_lt hpos x l)]
    _ ↔ (g.multiplier : ZMod g.modulus) ^ (k + 1) = g.multiplier ^ (l + 1) := by
        rw [output, output, cast_iterate h.increment, cast_iterate h.increment]
        exact mul_left_inj' hx
    _ ↔ k + 1 ≡ l + 1 [MOD g.modulus - 1] := by
        rw [hfin.pow_eq_pow_iff_modEq, h.order]
    _ ↔ k ≡ l [MOD g.modulus - 1] := by
        constructor
        · exact Nat.ModEq.add_right_cancel' 1
        · exact Nat.ModEq.add_right 1

theorem output_ne_zero (h : g.FullPeriod) {x : Nat} (hx : (x : ZMod g.modulus) ≠ 0) (k : Nat) :
    g.output x k ≠ 0 := by
  have hprime : Fact g.modulus.Prime := ⟨h.prime⟩
  have hmultiplier : (g.multiplier : ZMod g.modulus) ≠ 0 := by
    intro hzero
    have hone := pow_orderOf_eq_one (g.multiplier : ZMod g.modulus)
    have htwo := h.prime.two_le
    rw [h.order, hzero, zero_pow (by omega)] at hone
    exact zero_ne_one hone
  intro hzero
  have hcast := cast_iterate h.increment x (k + 1)
  rw [← output, hzero, Nat.cast_zero] at hcast
  exact mul_ne_zero (pow_ne_zero _ hmultiplier) hx hcast.symm

/-- Stretches of `n` outputs each, compared place by place. -/
theorem output_stride_iff (h : g.FullPeriod) {x : Nat} (hx : (x : ZMod g.modulus) ≠ 0)
    (n i j w : Nat) : g.output x (n * i + w) = g.output x (n * j + w) ↔
      i ≡ j [MOD (g.modulus - 1) / (g.modulus - 1).gcd n] := by
  have htwo := h.prime.two_le
  have hdvd := Nat.gcd_dvd_left (g.modulus - 1) n
  rw [h.output_eq_iff hx]
  constructor
  · intro hsame
    exact (Nat.ModEq.add_right_cancel' w hsame).cancel_left_div_gcd (by omega)
  · intro hsame
    apply Nat.ModEq.add_right
    apply (hsame.mul_left' n).of_dvd
    rw [← Nat.mul_div_assoc n hdvd, Nat.mul_comm, Nat.mul_div_assoc _ (Nat.gcd_dvd_right _ n)]
    exact Nat.dvd_mul_right _ _

end FullPeriod

end LinearCongruential.Engine

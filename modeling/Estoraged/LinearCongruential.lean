import Mathlib.Logic.Function.Iterate
import Mathlib.Data.List.Basic
import Mathlib.Algebra.Order.Ring.Nat

/-!
# Linear congruential generators

The engines of the C++ standard library: the state is advanced first and is then the
output.
-/

namespace LinearCongruential
set_option autoImplicit false

structure Engine where
  multiplier : Nat
  increment : Nat
  modulus : Nat
deriving DecidableEq, Repr

namespace Engine
variable (g : Engine)

/-- The state after seeding; zero is avoided where it would stay. -/
def seeded (seed : Nat) : Nat :=
  if g.increment % g.modulus = 0 ∧ seed % g.modulus = 0 then 1 else seed % g.modulus

def next (x : Nat) : Nat := (g.multiplier * x + g.increment) % g.modulus

def outputs : Nat → Nat → List Nat × Nat
  | 0, x => ([], x)
  | n + 1, x =>
    let rest := outputs n (g.next x)
    (g.next x :: rest.1, rest.2)

def output (x k : Nat) : Nat := g.next^[k + 1] x

theorem output_iterate (x n k : Nat) : g.output (g.next^[n] x) k = g.output x (n + k) := by
  rw [output, output, ← Function.iterate_add_apply]
  congr 1
  omega

theorem outputs_eq (n x : Nat) :
    g.outputs n x = ((List.range n).map (g.output x), g.next^[n] x) := by
  induction n generalizing x with
  | zero => rfl
  | succ n ih =>
    have htail : (List.range n).map (g.output (g.next x)) =
        (List.range n).map fun k => g.output x (k + 1) := by
      refine List.map_congr_left fun k _ => ?_
      simpa [Nat.add_comm] using g.output_iterate x 1 k
    rw [outputs, ih, List.range_succ_eq_map, List.map_cons, List.map_map, htail]
    rfl

end Engine

end LinearCongruential

import Mathlib.Tactic
import Mathlib.NumberTheory.LucasPrimality
import Mathlib.Data.Nat.Size

/-!
# Modular powers by repeated squaring

`powMod base exponent modulus` is the three-argument `pow` of Python: it computes
`base ^ exponent % modulus` with one squaring for every bit of the exponent. The recursion is
structural in the number of bits left, so that closed instances can be evaluated by the kernel;
`prime_of_powMod` turns such evaluations into a primality certificate.
-/

namespace ModularPower

/-- Repeated squaring with at most `bits` bits of the exponent left. -/
def powModAux (modulus : ℤ) : ℕ → ℤ → ℕ → ℤ
  | 0, _, _ => 1 % modulus
  | bits + 1, base, exponent =>
    if exponent % 2 = 1 then
      base * powModAux modulus bits (base * base % modulus) (exponent / 2) % modulus
    else
      powModAux modulus bits (base * base % modulus) (exponent / 2)

/-- `base ^ exponent % modulus`, by repeated squaring. -/
def powMod (base : ℤ) (exponent : ℕ) (modulus : ℤ) : ℤ :=
  powModAux modulus exponent.size base exponent

theorem powModAux_eq (modulus : ℤ) {bits : ℕ} (base : ℤ) {exponent : ℕ}
    (h : exponent < 2 ^ bits) : powModAux modulus bits base exponent = base ^ exponent % modulus := by
  induction bits generalizing base exponent with
  | zero =>
    have h0 : exponent = 0 := by simpa using h
    simp [powModAux, h0]
  | succ bits ih =>
    have hhalf : exponent / 2 < 2 ^ bits := by
      rw [pow_succ] at h
      omega
    have hsquare : (base * base % modulus) ^ (exponent / 2) % modulus =
        base ^ (2 * (exponent / 2)) % modulus := by
      rw [pow_mul, sq]
      exact (Int.mod_modEq _ _).pow _
    rw [powModAux, ih _ hhalf, hsquare]
    split_ifs with hodd
    · have hexp : exponent = 2 * (exponent / 2) + 1 := by omega
      rw [Int.mul_emod, Int.emod_emod, ← Int.mul_emod, ← pow_succ', ← hexp]
    · rw [show 2 * (exponent / 2) = exponent by omega]

theorem powMod_eq (base : ℤ) (exponent : ℕ) (modulus : ℤ) :
    powMod base exponent modulus = base ^ exponent % modulus :=
  powModAux_eq modulus base (Nat.lt_size_self exponent)

theorem intCast_powMod (base : ℤ) (exponent n : ℕ) :
    ((powMod base exponent n : ℤ) : ZMod n) = (base : ZMod n) ^ exponent := by
  rw [powMod_eq, ZMod.intCast_mod, Int.cast_pow]

/-- A power is one in the residue ring exactly when repeated squaring returns one. -/
theorem intCast_pow_eq_one_iff {base : ℤ} {exponent n : ℕ} (hn : 1 < n) :
    (base : ZMod n) ^ exponent = 1 ↔ powMod base exponent n = 1 := by
  have hone : (1 : ℤ) % n = 1 := Int.emod_eq_of_lt (by omega) (by omega)
  rw [← Int.cast_pow, ← Int.cast_one, ZMod.intCast_eq_intCast_iff', hone, powMod_eq]

theorem prime_of_powMod {n : ℕ} (hn : 1 < n) (base : ℤ) (hone : powMod base (n - 1) n = 1)
    (hne : ∀ q : ℕ, q.Prime → q ∣ n - 1 → powMod base ((n - 1) / q) n ≠ 1) : n.Prime := by
  refine lucas_primality n (base : ZMod n) ((intCast_pow_eq_one_iff hn).mpr hone) ?_
  intro q hq hdvd h
  exact hne q hq hdvd ((intCast_pow_eq_one_iff hn).mp h)

end ModularPower

import Mathlib

set_option autoImplicit false

/-!
# Fixed-width unsigned arithmetic

A `w`-bit unsigned integer is modelled as a natural number below `2 ^ w`. This module gives the
operations that C performs on such values where the result can leave that range: addition and
subtraction that wrap around, the test `a > ~b` that guards an addition against overflow, and
rounding down or up to an alignment. Rounding up adds `a - 1` with wrap-around before it rounds
down, as the C macro does, so it can wrap to a small value near the top of the range.

Each operation comes with the lemma that removes the wrap-around once the operands are known to
stay in range; the models built on top use those lemmas and never unfold the definitions.
-/

namespace FixedWidth

variable (w : Nat)

/-- Wrapping addition: `a + b` in `w`-bit arithmetic. -/
def add (a b : Nat) : Nat := (a + b) % 2 ^ w

/-- Wrapping subtraction: `a - b` in `w`-bit arithmetic. -/
def sub (a b : Nat) : Nat := (a + (2 ^ w - b % 2 ^ w)) % 2 ^ w

/-- The overflow test `a > ~b`: true exactly when `a + b` does not fit in `w` bits. -/
def addOverflows (a b : Nat) : Bool := decide (2 ^ w - 1 - b < a)

/-- Rounding down to a multiple of `a`. For a power of two `a` this is `x & ~(a - 1)`. -/
def alignDown (x a : Nat) : Nat := x / a * a

/-- Rounding up to a multiple of `a`: the sum `x + (a - 1)` wraps, then it is rounded down. -/
def alignUp (x a : Nat) : Nat := alignDown (add w x (a - 1)) a

/-- A power of two, the condition `x != 0 && (x & (x - 1)) == 0` of the C code. -/
def IsPow2 (x : Nat) : Prop := ∃ k, x = 2 ^ k

variable {w}

theorem add_of_lt {a b : Nat} (h : a + b < 2 ^ w) : add w a b = a + b :=
  Nat.mod_eq_of_lt h

theorem sub_of_le {a b : Nat} (hb : b ≤ a) (ha : a < 2 ^ w) : sub w a b = a - b := by
  unfold sub
  rw [Nat.mod_eq_of_lt (Nat.lt_of_le_of_lt hb ha)]
  have e : a + (2 ^ w - b) = a - b + 2 ^ w := by omega
  rw [e, Nat.add_mod_right, Nat.mod_eq_of_lt (by omega)]

/-- For an operand `b` in range, the overflow test fails exactly when the sum fits. -/
theorem addOverflows_eq_false_iff {a b : Nat} (hb : b < 2 ^ w) :
    addOverflows w a b = false ↔ a + b < 2 ^ w := by
  simp only [addOverflows, decide_eq_false_iff_not, Nat.not_lt]
  omega

theorem alignDown_le (x a : Nat) : alignDown x a ≤ x :=
  Nat.div_mul_le_self x a

theorem alignDown_mod (x a : Nat) : alignDown x a % a = 0 :=
  Nat.mul_mod_left _ _

theorem lt_alignDown_add {a : Nat} (x : Nat) (ha : 0 < a) : x < alignDown x a + a :=
  Nat.lt_div_mul_add ha

theorem alignDown_of_mod_eq_zero {x a : Nat} (h : x % a = 0) : alignDown x a = x :=
  Nat.div_mul_cancel (Nat.dvd_of_mod_eq_zero h)

section AlignUp

variable {x a : Nat}

/-- Without wrap-around, rounding up is `(x + a - 1) / a * a`. -/
theorem alignUp_eq (hx : x + (a - 1) < 2 ^ w) : alignUp w x a = alignDown (x + (a - 1)) a := by
  unfold alignUp
  rw [add_of_lt hx]

theorem le_alignUp (ha : 0 < a) (hx : x + (a - 1) < 2 ^ w) : x ≤ alignUp w x a := by
  rw [alignUp_eq hx]
  have h := lt_alignDown_add (x + (a - 1)) ha
  omega

theorem alignUp_le (hx : x + (a - 1) < 2 ^ w) : alignUp w x a ≤ x + (a - 1) := by
  rw [alignUp_eq hx]
  exact alignDown_le _ _

theorem alignUp_mod (x a : Nat) : alignUp w x a % a = 0 :=
  alignDown_mod _ _

/-- Without wrap-around, rounding up gives the least multiple of `a` at or above `x`. -/
theorem alignUp_le_of_mod {q : Nat} (ha : 0 < a) (hx : x + (a - 1) < 2 ^ w) (hq : q % a = 0)
    (hxq : x ≤ q) : alignUp w x a ≤ q := by
  by_contra hlt
  -- both are multiples of `a`, so the one above is at least `a` above the other
  obtain ⟨i, hi⟩ := Nat.dvd_of_mod_eq_zero (alignUp_mod (w := w) x a)
  obtain ⟨j, rfl⟩ := Nat.dvd_of_mod_eq_zero hq
  have hji : j < i := Nat.lt_of_mul_lt_mul_left (a := a) (by omega)
  have hstep : a * j + a ≤ a * i := by
    have := Nat.mul_le_mul_left a (Nat.succ_le_of_lt hji)
    rwa [Nat.mul_succ] at this
  have := alignUp_le hx
  omega

end AlignUp

theorem pow2_dvd_of_le {a b : Nat} (ha : IsPow2 a) (hb : IsPow2 b) (hab : a ≤ b) : a ∣ b := by
  obtain ⟨i, rfl⟩ := ha
  obtain ⟨j, rfl⟩ := hb
  exact Nat.pow_dvd_pow 2 ((Nat.pow_le_pow_iff_right (by omega)).mp hab)

end FixedWidth

import Mathlib.Data.Nat.Bitwise

set_option autoImplicit false

/-!
# Blocks of addresses

An address `a` lies in block `k` at shift `t` when `a >>> t = k`, that is in
`[k * 2 ^ t, (k + 1) * 2 ^ t)`. A radix tree over addresses splits the block `k` at shift `t + w`
into the `2 ^ w` blocks `k * 2 ^ w + i` at shift `t`. This module gives the arithmetic of such
blocks: nesting, membership as bounds, alignment by trailing zeros, and the shift from which two
addresses share a block, read off the highest bit of their exclusive or.
-/

namespace Bits

/-! ## Blocks -/

theorem mem_block_iff {a k t : Nat} : a >>> t = k ↔ k * 2 ^ t ≤ a ∧ a < (k + 1) * 2 ^ t := by
  rw [Nat.shiftRight_eq_div_pow, Nat.div_eq_iff (Nat.two_pow_pos t)]
  have := Nat.two_pow_pos t
  constructor
  · rintro ⟨h₁, h₂⟩
    exact ⟨h₁, by rw [Nat.succ_mul]; omega⟩
  · rintro ⟨h₁, h₂⟩
    exact ⟨h₁, by rw [Nat.succ_mul] at h₂; omega⟩

/-- A block at a larger shift contains the block at a smaller one. -/
theorem shiftRight_of_le {a s t : Nat} (hst : s ≤ t) : a >>> t = a >>> s >>> (t - s) := by
  rw [← Nat.shiftRight_add, Nat.add_sub_cancel' hst]

/-- The block at shift `t + w` of an address is its block at shift `t`, divided by `2 ^ w`. -/
theorem shiftRight_add_eq_div (a t w : Nat) : a >>> (t + w) = a >>> t / 2 ^ w := by
  rw [Nat.shiftRight_add, Nat.shiftRight_eq_div_pow]

/-- An aligned address is the start of its block. -/
theorem shiftRight_shiftLeft_of_dvd {a t : Nat} (h : 2 ^ t ∣ a) : a >>> t <<< t = a := by
  rw [Nat.shiftRight_eq_div_pow, Nat.shiftLeft_eq, Nat.div_mul_cancel h]

/-- The block of an aligned address holds the block size of addresses from it. -/
theorem shiftRight_eq_iff_of_dvd {a b t : Nat} (h : 2 ^ t ∣ a) :
    b >>> t = a >>> t ↔ a ≤ b ∧ b < a + 2 ^ t := by
  obtain ⟨k, rfl⟩ := h
  have hk : (2 ^ t * k) >>> t = k := by
    rw [Nat.shiftRight_eq_div_pow, Nat.mul_div_cancel_left k (Nat.two_pow_pos t)]
  rw [hk, mem_block_iff, Nat.succ_mul, Nat.mul_comm k]

/-- The addresses from an aligned one up to the block size after it share its block. -/
theorem shiftRight_eq_of_lt {a b t : Nat} (h : 2 ^ t ∣ a) (hab : a ≤ b) (hb : b < a + 2 ^ t) :
    b >>> t = a >>> t :=
  (shiftRight_eq_iff_of_dvd h).2 ⟨hab, hb⟩

/-- ... and so do they in every larger block. -/
theorem shiftRight_eq_of_lt_of_le {a b s t : Nat} (hst : s ≤ t) (h : 2 ^ s ∣ a) (hab : a ≤ b)
    (hb : b < a + 2 ^ s) : b >>> t = a >>> t := by
  rw [shiftRight_of_le hst, shiftRight_of_le (a := a) hst, shiftRight_eq_of_lt h hab hb]

/-- The addresses from `a` up to the end of its block share its block. -/
theorem shiftRight_eq_of_lt_next {a b t : Nat} (hab : a ≤ b) (hb : b < a >>> t <<< t + 2 ^ t) :
    b >>> t = a >>> t := by
  have ha := (mem_block_iff (a := a) (k := a >>> t) (t := t)).1 rfl
  rw [mem_block_iff, Nat.succ_mul]
  rw [Nat.shiftLeft_eq] at hb
  omega

theorem shiftLeft_le_of_shiftRight_eq {a k t : Nat} (h : a >>> t = k) : k <<< t ≤ a := by
  rw [Nat.shiftLeft_eq]
  exact (mem_block_iff.1 h).1

theorem lt_shiftLeft_of_shiftRight_eq {a k t : Nat} (h : a >>> t = k) :
    a < k <<< t + 2 ^ t := by
  have := (mem_block_iff.1 h).2
  rw [Nat.shiftLeft_eq]
  rw [Nat.succ_mul] at this
  exact this

/-! ## Trailing zeros -/

/-- The trailing zero bits of `x`, counting at most `n` of them. -/
def ctzAux : Nat → Nat → Nat
  | 0, _ => 0
  | n + 1, x => if x % 2 = 1 then 0 else ctzAux n (x / 2) + 1

theorem two_pow_ctzAux_dvd : ∀ (n x : Nat), 2 ^ ctzAux n x ∣ x
  | 0, x => by simp [ctzAux]
  | n + 1, x => by
    unfold ctzAux
    split
    · simp
    case isFalse hodd =>
      obtain ⟨k, hk⟩ := two_pow_ctzAux_dvd n (x / 2)
      refine ⟨k, ?_⟩
      calc x = 2 * (x / 2) := by omega
        _ = 2 * (2 ^ ctzAux n (x / 2) * k) := congrArg (2 * ·) hk
        _ = 2 ^ (ctzAux n (x / 2) + 1) * k := by
          rw [Nat.pow_succ, Nat.mul_comm (2 ^ _) 2, Nat.mul_assoc]

/-! ## The shift from which two addresses share a block -/

theorem shiftRight_eq_iff_xor_lt {x y k : Nat} : x >>> k = y >>> k ↔ x ^^^ y < 2 ^ k := by
  constructor
  · intro h
    apply Nat.lt_pow_two_of_testBit
    intro i hi
    have hbit : x.testBit i = y.testBit i := by
      have := congrArg (fun z => z.testBit (i - k)) h
      simp only [Nat.testBit_shiftRight, Nat.add_sub_cancel' hi] at this
      exact this
    rw [Nat.testBit_xor, hbit, Bool.xor_self]
  · intro h
    apply Nat.eq_of_testBit_eq
    intro j
    have hxor : (x ^^^ y).testBit (k + j) = false :=
      Nat.testBit_eq_false_of_lt
        (Nat.lt_of_lt_of_le h (Nat.pow_le_pow_right (by decide) (Nat.le_add_right k j)))
    rw [Nat.testBit_xor] at hxor
    simp only [Nat.testBit_shiftRight]
    revert hxor
    cases x.testBit (k + j) <;> cases y.testBit (k + j) <;> decide

/-- Two different addresses share their block from one past the highest bit where they differ. -/
theorem shiftRight_eq_of_log2_lt {x y k : Nat} (hk : (x ^^^ y).log2 < k) :
    x >>> k = y >>> k := by
  by_cases h0 : x ^^^ y = 0
  · rw [shiftRight_eq_iff_xor_lt, h0]
    exact Nat.two_pow_pos k
  · exact shiftRight_eq_iff_xor_lt.2 ((Nat.log2_lt h0).1 hk)

/-- ... and not at that bit or below. -/
theorem shiftRight_ne_of_le_log2 {x y k : Nat} (hxy : x ≠ y) (hk : k ≤ (x ^^^ y).log2) :
    x >>> k ≠ y >>> k := by
  have h0 : x ^^^ y ≠ 0 := by
    intro h
    apply hxy
    apply Nat.eq_of_testBit_eq
    intro i
    have hi := congrArg (fun z => z.testBit i) h
    simp only [Nat.testBit_xor, Nat.zero_testBit] at hi
    revert hi
    cases x.testBit i <;> cases y.testBit i <;> decide
  rw [Ne, shiftRight_eq_iff_xor_lt, Nat.not_lt]
  calc 2 ^ k ≤ 2 ^ (x ^^^ y).log2 := Nat.pow_le_pow_right (by decide) hk
    _ ≤ x ^^^ y := Nat.log2_self_le h0

/-- An address in the block of one below `2 ^ n`, at a shift up to `n`, is below `2 ^ n`. -/
theorem lt_two_pow_of_shiftRight_eq {x y t n : Nat} (h : x >>> t = y >>> t) (hy : y < 2 ^ n)
    (ht : t ≤ n) : x < 2 ^ n := by
  have hxy : x ^^^ y < 2 ^ n :=
    Nat.lt_of_lt_of_le (shiftRight_eq_iff_xor_lt.1 h) (Nat.pow_le_pow_right (by decide) ht)
  have hx : x = (x ^^^ y) ^^^ y := by rw [Nat.xor_assoc, Nat.xor_self, Nat.xor_zero]
  rw [hx]
  exact Nat.xor_lt_two_pow hxy hy

end Bits

import Mathlib.Data.Fintype.Card
import Mathlib.Data.List.FinRange
import Mathlib.Logic.Function.Basic

set_option autoImplicit false

/-!
# Bitmaps

A bitmap of `n` bits as a function `Fin n → Bool`, with the two searches that C code makes on
one, for the lowest set bit (`ffs`) and the lowest clear bit (`ffc`), and the number of set bits.

The lemmas say what a search returns, when it fails, and how setting or clearing one bit changes
the count. An allocator that keeps a count of its set bits uses the last two to show that the
search for a clear bit succeeds while the count is below `n`.
-/

namespace Bitmap

variable {n : Nat}

/-- `bitmap_ffs`: the lowest set bit. -/
def ffs (b : Fin n → Bool) : Option (Fin n) := (List.finRange n).find? b

/-- `bitmap_ffc`: the lowest clear bit. -/
def ffc (b : Fin n → Bool) : Option (Fin n) := ffs fun i => !b i

/-- `bitmap_empty`: no bit is set. -/
def empty (b : Fin n → Bool) : Bool := (List.finRange n).all fun i => !b i

/-- The number of set bits. -/
def popcount (b : Fin n → Bool) : Nat := (Finset.univ.filter fun i => b i = true).card

/-! ## Searches -/

theorem ffs_eq_some {b : Fin n → Bool} {i : Fin n} (h : ffs b = some i) : b i = true :=
  List.find?_some h

theorem ffs_eq_none {b : Fin n → Bool} : ffs b = none ↔ ∀ i, b i = false := by
  simp [ffs, List.find?_eq_none]

theorem empty_eq_true {b : Fin n → Bool} : empty b = true ↔ ∀ i, b i = false := by
  simp [empty]

theorem ffc_eq_some {b : Fin n → Bool} {i : Fin n} (h : ffc b = some i) : b i = false := by
  simpa using ffs_eq_some h

theorem ffc_eq_none {b : Fin n → Bool} : ffc b = none ↔ ∀ i, b i = true := by
  simp [ffc, ffs_eq_none]

/-! ## Counting set bits -/

/-- Setting a clear bit counts one more. -/
theorem popcount_set {b : Fin n → Bool} {i : Fin n} (h : b i = false) :
    popcount (Function.update b i true) = popcount b + 1 := by
  have hset : (Finset.univ.filter fun j => Function.update b i true j = true) =
      insert i (Finset.univ.filter fun j => b j = true) := by
    ext j
    by_cases hj : j = i
    · subst hj
      simp
    · simp [hj]
  unfold popcount
  rw [hset, Finset.card_insert_of_notMem (by simp [h])]

/-- Clearing a set bit counts one fewer. -/
theorem popcount_clear {b : Fin n → Bool} {i : Fin n} (h : b i = true) :
    popcount (Function.update b i false) + 1 = popcount b := by
  have hb : Function.update (Function.update b i false) i true = b := by
    rw [Function.update_idem, ← h, Function.update_eq_self]
  rw [← popcount_set (Function.update_self i false b), hb]

/-- A bitmap whose set bits are fewer than its size has a clear bit. -/
theorem ffc_isSome_of_popcount_lt {b : Fin n → Bool} (h : popcount b < n) : (ffc b).isSome := by
  rw [Option.isSome_iff_ne_none]
  intro hnone
  have hall := ffc_eq_none.1 hnone
  have hfull : (Finset.univ.filter fun i => b i = true) = Finset.univ :=
    Finset.filter_true_of_mem fun i _ => hall i
  rw [popcount, hfull, Finset.card_univ, Fintype.card_fin] at h
  exact Nat.lt_irrefl n h

theorem popcount_eq_zero {b : Fin n → Bool} : popcount b = 0 ↔ ∀ i, b i = false := by
  simp [popcount, Finset.filter_eq_empty_iff]

/-- The one set bit of a bitmap that has one. -/
theorem eq_false_of_popcount_eq_one {b : Fin n → Bool} {i j : Fin n} (h : popcount b = 1)
    (hi : b i = true) (hj : j ≠ i) : b j = false := by
  have hclear := popcount_clear hi
  rw [h, Nat.add_eq_right] at hclear
  have := popcount_eq_zero.1 hclear j
  rwa [Function.update_of_ne hj] at this

end Bitmap

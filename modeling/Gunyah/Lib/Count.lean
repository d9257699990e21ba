import Mathlib.Algebra.BigOperators.Group.Finset.Piecewise
import Mathlib.Data.Fintype.Card

set_option autoImplicit false

/-!
# Sums and counts that change at one index

A step of a system of many parts usually changes one part. A sum over the parts, or the number
of parts with a property, then changes by what that one part contributes before and after. Both
facts are stated with the change added on the other side, so that they hold in `Nat` without
subtraction.
-/

namespace Count

variable {ι M : Type} [Fintype ι] [DecidableEq ι] [AddCommMonoid M]

/-- Changing a family at one index changes its sum by the change there. -/
theorem sum_add_of_eq_off {f g : ι → M} (i : ι) (h : ∀ j ≠ i, g j = f j) :
    ∑ j, g j + f i = ∑ j, f j + g i := by
  have hrest : ∑ j ∈ Finset.univ.erase i, g j = ∑ j ∈ Finset.univ.erase i, f j :=
    Finset.sum_congr rfl fun j hj => h j (Finset.ne_of_mem_erase hj)
  rw [← Finset.add_sum_erase _ g (Finset.mem_univ i), ← Finset.add_sum_erase _ f (Finset.mem_univ i),
    hrest, add_right_comm, add_comm (g i), add_right_comm]

/-- Changing a property at one index changes the number of indices that have it by the change
there. -/
theorem card_filter_add_of_eq_off {p q : ι → Bool} (i : ι) (h : ∀ j ≠ i, q j = p j) :
    (Finset.univ.filter fun j => q j = true).card + (if p i then 1 else 0) =
      (Finset.univ.filter fun j => p j = true).card + (if q i then 1 else 0) := by
  simp only [Finset.card_filter]
  exact sum_add_of_eq_off (f := fun j => if p j = true then 1 else 0)
    (g := fun j => if q j = true then 1 else 0) i fun j hj => by rw [h j hj]

end Count

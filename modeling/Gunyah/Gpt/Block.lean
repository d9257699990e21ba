import Gunyah.Gpt.Clean

set_option autoImplicit false

/-!
# The blocks a step of a write works on

`handle_write` works in the slot that holds `curr`: the entry the deepest frame walks, or the
root. This module gives the sizes the step computes (`get_max_possible_shifts`,
`get_next_pte_base`, `get_common_shifts`) and what the PTEs it stores map: the PTE of
`update_curr_pte`, the level that `allocate_level` builds around a PTE whose block does not hold
`curr`, and the level that splits a leaf into 16.
-/

namespace Gunyah.Gpt

open Function

variable {τ V : Type}

/-! ## The slot of a walk -/

/-- The entries of the levels on the path have shifts that are multiples of 4, at most those of
the root's slot. -/
theorem getMaxEntryShifts_spec {root : Pte τ V} : ∀ {st : List Frame}, FramesOk root st →
    getMaxEntryShifts st ≤ maxSizeBits ∧ 4 ∣ getMaxEntryShifts st
  | [], _ => ⟨Nat.le_refl _, by decide⟩
  | f :: st, ⟨hst, hf⟩ => by
    obtain ⟨g, s, es, hq⟩ := hf.exists_level
    rw [hq] at hf
    obtain ⟨hle, h4⟩ := getMaxEntryShifts_spec hst
    obtain ⟨hst', -, hs, hs4, -, hshifts, -⟩ := hf
    simp only [getMaxEntryShifts] at hshifts ⊢
    omega

/-- The invariant holds at every address past the one it holds at. -/
theorem Walk.Inv.mono {w : Walk τ V} {c c' : Nat} (hw : w.Inv c) (hc : c ≤ c') : w.Inv c' :=
  ⟨hw.frames, hw.slot, fun f hf => Nat.le_trans (hw.addr_le f hf) hc⟩

theorem Pte.addr_shiftRight (q : Pte τ V) : q.addr >>> q.shifts = q.guard :=
  Nat.shiftLeft_shiftRight _ _

/-! ## Sizes -/

/-- The trailing zeros of `x`, rounded down to a multiple of `GPT_LEVEL_BITS`, still divide it. -/
theorem alignDown_ctz (x : Nat) :
    4 ∣ FixedWidth.alignDown (ctz x) levelBits ∧ 2 ^ FixedWidth.alignDown (ctz x) levelBits ∣ x :=
  ⟨Nat.dvd_mul_left 4 _,
    Nat.dvd_trans (Nat.pow_dvd_pow 2 (FixedWidth.alignDown_le _ _)) (Bits.two_pow_ctzAux_dvd 64 x)⟩

/-- `get_max_possible_shifts` gives a block at `curr` that is aligned, a multiple of 4, no
larger than an entry of the slot's level and no larger than what is left. -/
theorem getMaxPossibleShifts_spec {st : List Frame} {curr rem : Nat} (hrem : 0 < rem)
    (ht : 4 ∣ getMaxEntryShifts st) :
    getMaxPossibleShifts st curr rem ≤ getMaxEntryShifts st ∧
      4 ∣ getMaxPossibleShifts st curr rem ∧ 2 ^ getMaxPossibleShifts st curr rem ∣ curr ∧
      2 ^ getMaxPossibleShifts st curr rem ≤ rem := by
  -- The shifts before the check against `rem`: an entry's, lowered to the alignment of `curr`.
  set s₁ := if curr ≠ 0 then min (getMaxEntryShifts st) (FixedWidth.alignDown (ctz curr) levelBits)
    else getMaxEntryShifts st with hs₁
  have h₁ : s₁ ≤ getMaxEntryShifts st ∧ 4 ∣ s₁ ∧ 2 ^ s₁ ∣ curr := by
    obtain ⟨hc4, hcd⟩ := alignDown_ctz curr
    by_cases hc : curr = 0
    · rw [if_neg (not_not.2 hc)] at hs₁
      rw [hs₁, hc]
      exact ⟨Nat.le_refl _, ht, Nat.dvd_zero _⟩
    · rw [if_pos hc] at hs₁
      rw [hs₁]
      exact ⟨Nat.min_le_left _ _, by omega,
        Nat.dvd_trans (Nat.pow_dvd_pow 2 (Nat.min_le_right _ _)) hcd⟩
  obtain ⟨hle, h4, hdvd⟩ := h₁
  have hg : getMaxPossibleShifts st curr rem =
      if 2 ^ s₁ > rem then FixedWidth.alignDown (ctz rem) levelBits else s₁ := rfl
  rw [hg]
  split
  case isTrue hbig =>
    -- The block is cut down to the alignment of `rem`, which is smaller.
    obtain ⟨hr4, hrd⟩ := alignDown_ctz rem
    have hrle : 2 ^ FixedWidth.alignDown (ctz rem) levelBits ≤ rem := Nat.le_of_dvd hrem hrd
    have hlt : FixedWidth.alignDown (ctz rem) levelBits < s₁ :=
      (Nat.pow_lt_pow_iff_right (by decide)).1 (Nat.lt_of_le_of_lt hrle hbig)
    exact ⟨by omega, hr4, Nat.dvd_trans (Nat.pow_dvd_pow 2 (Nat.le_of_lt hlt)) hdvd, hrle⟩
  case isFalse hsmall => exact ⟨hle, h4, hdvd, Nat.le_of_not_lt hsmall⟩

/-- The addresses from `curr` up to `get_next_pte_base` lie in the slot of `curr`. -/
theorem getNextPteBase_spec (st : List Frame) (curr : Nat) :
    curr < getNextPteBase st curr ∧ ∀ a, curr ≤ a → a < getNextPteBase st curr →
      a >>> getMaxEntryShifts st = curr >>> getMaxEntryShifts st :=
  ⟨Bits.lt_shiftLeft_of_shiftRight_eq rfl, fun _ ha ha' => Bits.shiftRight_eq_of_lt_next ha ha'⟩

/-- Where `get_common_shifts` puts the level for a PTE whose block does not hold `curr`: above the
PTE, at a multiple of 4 within the slot, with `curr` and the PTE's start in different entries of
the same block. -/
theorem getCommonShifts_spec {q : Pte τ V} {curr k t : Nat} (hq : q ≠ .empty) (hf : q.Fits k t)
    (hq4 : 4 ∣ q.shifts) (ht : t ≤ maxSizeBits ∧ 4 ∣ t) (hmem : curr >>> t = k)
    (hcurr : curr < 2 ^ maxSizeBits) (hg : curr >>> q.shifts ≠ q.guard) :
    q.shifts + 4 ≤ getCommonShifts q curr ∧ getCommonShifts q curr ≤ t ∧
      4 ∣ getCommonShifts q curr ∧ curr >>> getCommonShifts q curr = q.addr >>> getCommonShifts q curr ∧
      levelIndex (getCommonShifts q curr) curr ≠ levelIndex (getCommonShifts q curr) q.addr := by
  have hpk : q.addr >>> t = k := hf.shiftRight_eq hq q.addr_shiftRight
  have hne : curr ≠ q.addr := fun he => hg (he ▸ q.addr_shiftRight)
  have hpa : q.addr < 2 ^ maxSizeBits :=
    Bits.lt_two_pow_of_shiftRight_eq (hpk.trans hmem.symm) hcurr ht.1
  -- `L` is the highest bit where `curr` and the PTE's start differ: above the PTE's shifts,
  -- below the slot's.
  have hx0 : curr ^^^ q.addr ≠ 0 := by simpa using hne
  set L := (curr ^^^ q.addr).log2 with hLdef
  have hL : L < maxSizeBits := (Nat.log2_lt hx0).2 (Nat.xor_lt_two_pow hcurr hpa)
  have hsL : q.shifts ≤ L := by
    by_contra hlt
    exact hg (by rw [Bits.shiftRight_eq_of_log2_lt (x := curr) (y := q.addr) (by omega),
      q.addr_shiftRight])
  have hLt : L < t := by
    by_contra hle
    exact Bits.shiftRight_ne_of_le_log2 (k := t) hne (by omega) (by rw [hmem, hpk])
  have hcs : getCommonShifts q curr = 64 - (63 - L) / 4 * 4 := rfl
  simp only [maxSizeBits] at hL ht
  have hlow : L < getCommonShifts q curr := by omega
  refine ⟨by omega, by omega, by omega, Bits.shiftRight_eq_of_log2_lt hlow, ?_⟩
  -- Below the common shifts by one level the addresses differ, in the entry's index only.
  have hsub : curr >>> (getCommonShifts q curr - 4) ≠ q.addr >>> (getCommonShifts q curr - 4) :=
    Bits.shiftRight_ne_of_le_log2 hne (by omega)
  have hdiv : ∀ x, x >>> getCommonShifts q curr = x >>> (getCommonShifts q curr - 4) / 16 := by
    intro x
    rw [show (16 : Nat) = 2 ^ 4 from rfl, ← Bits.shiftRight_add_eq_div]
    congr 1
    omega
  have hup := Bits.shiftRight_eq_of_log2_lt (x := curr) (y := q.addr) hlow
  rw [hdiv, hdiv] at hup
  intro hidx
  have hmod := congrArg Fin.val hidx
  simp only [levelIndex, levelBits] at hmod
  omega

/-! ## What a step stores -/

/-- The PTE that `update_curr_pte` stores for the entry `e` at the block of `addr` at `shifts`. -/
def entryPte (addr shifts : Nat) : GptEntry τ V → Pte τ V
  | none => .empty
  | some (t, v) => .leaf (addr >>> shifts) shifts t v

theorem Walk.updateCurrPte_eq (w : Walk τ V) (addr shifts : Nat) (e : GptEntry τ V) :
    w.updateCurrPte addr shifts e = w.writePteToLevel (entryPte addr shifts e) := by
  rcases e with _ | ⟨t, v⟩ <;> rfl

section Stores

variable (h : GptHandlers τ V) {c s : Nat}

/-- The PTE of `update_curr_pte` at an aligned block maps that block to the entry, offset along
it, and nothing else. -/
theorem den_entryPte (hdvd : 2 ^ s ∣ c) (e : GptEntry τ V) (a : Nat) :
    (entryPte c s e).den h a = if c ≤ a ∧ a < c + 2 ^ s then entryAddOffset h e (a - c) else none := by
  rcases e with _ | ⟨t, v⟩
  · simp [entryPte]
  · simp only [entryPte, den_leaf, Bits.shiftRight_shiftLeft_of_dvd hdvd, entryAddOffset]
    by_cases ha : c ≤ a ∧ a < c + 2 ^ s
    · rw [if_pos ((Bits.shiftRight_eq_iff_of_dvd hdvd).2 ha), if_pos ha]
    · rw [if_neg (mt (Bits.shiftRight_eq_iff_of_dvd hdvd).1 ha), if_neg ha]

/-- The PTE of `update_curr_pte` at an aligned block of the slot, a multiple of 4, is well formed
there. -/
theorem entryPte_wf {k t : Nat} (hst : s ≤ t) (h4 : 4 ∣ s) (hc : c >>> t = k)
    (e : GptEntry τ V) : (entryPte c s e).Wf k t := by
  rcases e with _ | ⟨t', v⟩
  · exact ⟨trivial, trivial⟩
  · refine ⟨⟨hst, ?_⟩, h4⟩
    rw [← Nat.shiftRight_add, Nat.add_sub_cancel' hst, hc]

/-- The level `allocate_level` builds around a PTE that lies in the entry for its start maps what
that PTE maps. -/
theorem den_commonLevel {q : Pte τ V} (hs : 4 ≤ c)
    (hq : q.Fits (q.addr >>> c * 16 + levelIndex c q.addr) (c - 4)) (a : Nat) :
    (Pte.level (q.addr >>> c) c (update (fun _ => .empty) (levelIndex c q.addr) q)).den h a =
      q.den h a := by
  rw [den_level_single h hs (by rw [update_self]; exact hq) (fun i hi => by rw [update_of_ne hi]),
    update_self]

theorem iterate_addOffset_leaf (k g : Nat) (t : τ) : ∀ (i : Nat) (v : V),
    Nat.iterate (Pte.addOffset h k) i (Pte.leaf g s t v) =
      .leaf g s t (Nat.iterate (fun v => h.addOffset t v k) i v)
  | 0, _ => rfl
  | i + 1, v => iterate_addOffset_leaf k g t i (h.addOffset t v k)

/-- `split_pte_and_fill_level` on a leaf: entry `i` is the leaf of sub-block `i`, its value
offset `i` times by the size of a sub-block. -/
theorem splitPteAndFillLevel_leaf {g : Nat} {t : τ} {v : V} (hs : 4 ≤ s) (i : Fin 16) :
    splitPteAndFillLevel h (.leaf g s t v) (s - 4) i =
      .leaf (g * 16 + i) (s - 4) t (Nat.iterate (fun v => h.addOffset t v (2 ^ (s - 4))) i v) := by
  have hstart : g <<< s + i * 2 ^ (s - 4) = (g * 16 + i) <<< (s - 4) := by
    rw [shiftLeft_child_add hs, Nat.shiftLeft_eq (i : Nat)]
  simp only [splitPteAndFillLevel, iterate_addOffset_leaf, Pte.setGuardShifts, Pte.addr,
    Pte.guard_leaf, Pte.shifts_leaf, hstart, Nat.shiftLeft_shiftRight]

/-- The level that splits a leaf of the shape the code keeps is well formed where the leaf is,
whatever the handlers. -/
theorem splitLevel_wf {g k t' : Nat} {t : τ} {v : V} (hs : 4 ≤ s) (h4 : 4 ∣ s)
    (hf : (Pte.leaf g s t v).Fits k t') :
    (Pte.level g s (splitPteAndFillLevel h (.leaf g s t v) (s - 4))).Wf k t' := by
  refine ⟨hf, h4, hs, fun i => ?_, ⟨0, ?_⟩⟩
  · rw [splitPteAndFillLevel_leaf h hs]
    exact ⟨⟨Nat.le_refl _, by rw [Nat.sub_self, Nat.shiftRight_zero]⟩, show 4 ∣ s - 4 by omega⟩
  · rw [splitPteAndFillLevel_leaf h hs]
    simp

variable {h} (hl : h.Lawful)
include hl

/-- For lawful handlers offsetting `i` times by `k` is offsetting by `i * k`. -/
theorem iterate_addOffset (k : Nat) (t : τ) : ∀ (i : Nat) (v : V),
    Nat.iterate (fun v => h.addOffset t v k) i v = h.addOffset t v (i * k)
  | 0, v => by rw [Nat.zero_mul, hl.addOffset_zero]; rfl
  | i + 1, v => by
    show Nat.iterate (fun v => h.addOffset t v k) i (h.addOffset t v k) = _
    rw [iterate_addOffset k t i, hl.addOffset_add, Nat.succ_mul, Nat.add_comm (i * k)]

/-- The level that splits a leaf maps what the leaf maps. -/
theorem den_splitLevel {g : Nat} {t : τ} {v : V} (hs : 4 ≤ s) (a : Nat) :
    (Pte.level g s (splitPteAndFillLevel h (.leaf g s t v) (s - 4))).den h a =
      (Pte.leaf g s t v).den h a := by
  by_cases hg : a >>> s = g
  · have hc := child_of_shiftRight hs hg
    generalize levelIndex s a = j at hc
    have hle := Bits.shiftLeft_le_of_shiftRight_eq hc
    rw [den_level_of_child h hs hc, splitPteAndFillLevel_leaf h hs, iterate_addOffset hl, den_leaf,
      den_leaf, if_pos hc, if_pos hg, hl.addOffset_add]
    rw [shiftLeft_child_add hs, Nat.shiftLeft_eq (j : Nat)] at hle ⊢
    -- The distance from the leaf's start is the sub-blocks before `j` and the rest.
    have hdist : (j : Nat) * 2 ^ (s - 4) + (a - (g <<< s + (j : Nat) * 2 ^ (s - 4))) =
        a - g <<< s := by
      generalize g <<< s = X at hle ⊢
      generalize (j : Nat) * 2 ^ (s - 4) = Y at hle ⊢
      omega
    rw [hdist]
  · rw [den_level, if_neg hg, den_leaf, if_neg hg]

end Stores

end Gunyah.Gpt

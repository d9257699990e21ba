import Gunyah.Lib.Bits
import Mathlib.Logic.Function.Basic

set_option autoImplicit false

/-!
# Generic page table entries

A model of the entries of `hyp/misc/gpt/src/gpt.c`. A GPT maps the addresses below `2 ^ max_bits`
to entries, a type and a value. Its PTEs form a trie: a PTE maps the block `guard` at shift
`shifts`, the addresses `a` with `a >> shifts == guard`, either to one entry (a leaf, whose value
is offset by the distance from the block's start) or through a level of 16 PTEs, one for each
sub-block at shift `shifts - 4`. A PTE may map a smaller block than the slot it sits in; the guard
says which part of the slot it covers.

The types other modules add to `gpt_type` come with handlers of the events
`gpt_value_add_offset` and `gpt_values_equal` (`GptHandlers`). For `GPT_TYPE_EMPTY` the module's own
handler says that all values are equal; no handler is subscribed for `GPT_TYPE_LEVEL`, so an
offset leaves a level's value alone and two levels are never equal.

`Pte.den` is the map a PTE denotes. `Pte.Fits` says that a PTE lies within its slot and `Pte.Ok`
gives the shape the code keeps: shifts that are multiples of 4 (the `shifts` field holds them
divided by 4), levels whose entries lie in their sub-blocks, and no level with all entries empty.
-/

namespace Gunyah.Gpt

open Function

/-- `GPT_MAX_SIZE_BITS`: the largest GPT covers `2 ^ 52` addresses. -/
def maxSizeBits : Nat := 52

/-- `GPT_LEVEL_BITS`: a level splits its block into `2 ^ 4` entries. -/
def levelBits : Nat := 4

/-- The entries of a level are indexed by `Fin 16`, which therefore has numerals. -/
instance instNeZeroLevelEntries : NeZero (16 : Nat) := ⟨by decide⟩

/-- The handlers of `gpt_value_add_offset` and `gpt_values_equal` for the types that other modules
add to `gpt_type`, which are the values of `τ`. -/
structure GptHandlers (τ V : Type) where
  addOffset : τ → V → Nat → V
  valuesEqual : τ → V → V → Bool

/-- A `gpt_entry`: `none` is an entry of type `GPT_TYPE_EMPTY`, whose value is never read. -/
abbrev GptEntry (τ V : Type) := Option (τ × V)

/-- A `gpt_pte`: empty, a leaf of a type of `τ`, or a level, whose value points to 16 PTEs. -/
inductive Pte (τ V : Type) where
  | empty
  | leaf (guard shifts : Nat) (type : τ) (value : V)
  | level (guard shifts : Nat) (entries : Fin 16 → Pte τ V)

variable {τ V : Type}

namespace Pte

/-- The `guard` field; zero in an empty PTE. -/
def guard : Pte τ V → Nat
  | empty => 0
  | leaf g _ _ _ => g
  | level g _ _ => g

/-- The `shifts` field; zero in an empty PTE. -/
def shifts : Pte τ V → Nat
  | empty => 0
  | leaf _ s _ _ => s
  | level _ s _ => s

/-- `get_pte_addr`: the start of the block the PTE maps. -/
def addr (q : Pte τ V) : Nat := q.guard <<< q.shifts

/-- `get_pte_size`. -/
def size (q : Pte τ V) : Nat := 2 ^ q.shifts

/-- `guard_matching`: the address lies in the block the PTE maps. -/
def guardMatching (q : Pte τ V) (a : Nat) : Bool := a >>> q.shifts == q.guard

/-- `load_level_pte` from the level a PTE points to. -/
def entry : Pte τ V → Fin 16 → Pte τ V
  | level _ _ es, i => es i
  | _, _ => empty

@[simp] theorem guard_leaf {g s : Nat} {t : τ} {v : V} : (leaf g s t v).guard = g := rfl
@[simp] theorem shifts_leaf {g s : Nat} {t : τ} {v : V} : (leaf g s t v).shifts = s := rfl
@[simp] theorem guard_level {g s : Nat} {es : Fin 16 → Pte τ V} : (level g s es).guard = g := rfl
@[simp] theorem shifts_level {g s : Nat} {es : Fin 16 → Pte τ V} : (level g s es).shifts = s := rfl
@[simp] theorem entry_level {g s : Nat} {es : Fin 16 → Pte τ V} {i : Fin 16} :
    (level g s es).entry i = es i := rfl

end Pte

/-- `get_level_index`: the entry of a level at shift `shifts` that an address falls in. -/
def levelIndex (shifts a : Nat) : Fin 16 :=
  ⟨(a >>> (shifts - levelBits)) % 16, Nat.mod_lt _ (by decide)⟩

section Handlers

variable (h : GptHandlers τ V)

/-- `trigger_gpt_value_add_offset_event` on an entry: no handler is subscribed for
`GPT_TYPE_EMPTY`. -/
def entryAddOffset : GptEntry τ V → Nat → GptEntry τ V
  | none, _ => none
  | some (t, v), k => some (t, h.addOffset t v k)

variable [DecidableEq τ]

/-- `entries_equal`: equal types and, by `gpt_values_equal`, equal values; all values of
`GPT_TYPE_EMPTY` are equal. -/
def entriesEqual : GptEntry τ V → GptEntry τ V → Bool
  | none, none => true
  | some (t, v), some (t', v') => decide (t = t') && h.valuesEqual t v v'
  | _, _ => false

/-- `pte_and_entry_equal`: the entry a PTE maps at `curr` equals `e`. A level's type is never the
type of an entry. -/
def pteAndEntryEqual : Pte τ V → Nat → GptEntry τ V → Bool
  | .empty, _, e => entriesEqual h e none
  | .leaf g s t v, curr, e => entriesEqual h e (some (t, h.addOffset t v (curr - g <<< s)))
  | .level .., _, _ => false

/-- `check_ptes_consistent`: `b` maps what `a` maps, offset by `offset`. Two levels are never
consistent, as `gpt_values_equal` has no handler for `GPT_TYPE_LEVEL`. -/
def ptesConsistent : Pte τ V → Pte τ V → Nat → Bool
  | .leaf _ _ t v, .leaf _ _ t' v', k => decide (t = t') && h.valuesEqual t (h.addOffset t v k) v'
  | .empty, .empty, _ => true
  | _, _, _ => false

end Handlers

/-! ## What a PTE maps -/

section Den

variable (h : GptHandlers τ V)

/-- The entry a PTE maps an address to: a leaf maps the addresses of its block to its type and its
value offset by the distance from the block's start; a level passes the address on to the entry
for its sub-block. -/
def Pte.den : Pte τ V → Nat → GptEntry τ V
  | .empty, _ => none
  | .leaf g s t v, a => if a >>> s = g then some (t, h.addOffset t v (a - g <<< s)) else none
  | .level g s es, a => if a >>> s = g then (es (levelIndex s a)).den a else none

@[simp] theorem den_empty {a : Nat} : (Pte.empty : Pte τ V).den h a = none := rfl

theorem den_leaf {g s a : Nat} {t : τ} {v : V} :
    (Pte.leaf g s t v).den h a = if a >>> s = g then some (t, h.addOffset t v (a - g <<< s)) else none :=
  rfl

theorem den_level {g s a : Nat} {es : Fin 16 → Pte τ V} :
    (Pte.level g s es).den h a = if a >>> s = g then (es (levelIndex s a)).den h a else none :=
  rfl

/-- A PTE maps nothing outside its block. -/
theorem den_eq_none_of_not_guard {q : Pte τ V} {a : Nat} (ha : a >>> q.shifts ≠ q.guard) :
    q.den h a = none := by
  cases q with
  | empty => rfl
  | leaf g s t v => exact if_neg ha
  | level g s es => exact if_neg ha

end Den

/-! ## The shape the code keeps -/

/-- The PTE lies within the block `k` at shift `t`, the slot it is stored in. -/
def Pte.Fits (k t : Nat) : Pte τ V → Prop
  | .empty => True
  | .leaf g s _ _ => s ≤ t ∧ g >>> (t - s) = k
  | .level g s _ => s ≤ t ∧ g >>> (t - s) = k

/-- The shape of a PTE: its shifts are a multiple of 4; a level's shifts are at least 4, each of
its entries lies in its sub-block and has that shape, and not all of them are empty. -/
def Pte.Ok : Pte τ V → Prop
  | .empty => True
  | .leaf _ s _ _ => 4 ∣ s
  | .level g s es =>
    4 ∣ s ∧ 4 ≤ s ∧ (∀ i : Fin 16, (es i).Fits (g * 16 + i) (s - 4) ∧ (es i).Ok) ∧
      ∃ i, es i ≠ .empty

/-- A PTE in its slot, with its shape. -/
def Pte.Wf (k t : Nat) (q : Pte τ V) : Prop := q.Fits k t ∧ q.Ok

section Shape

variable {k t : Nat}

@[simp] theorem fits_empty : (Pte.empty : Pte τ V).Fits k t := trivial

@[simp] theorem ok_empty : (Pte.empty : Pte τ V).Ok := trivial

theorem Pte.fits_iff {q : Pte τ V} (hq : q ≠ .empty) :
    q.Fits k t ↔ q.shifts ≤ t ∧ q.guard >>> (t - q.shifts) = k := by
  cases q with
  | empty => exact absurd rfl hq
  | leaf => rfl
  | level => rfl

/-- An address in the block of a PTE that fits a slot lies in the slot. -/
theorem Pte.Fits.shiftRight_eq {q : Pte τ V} {a : Nat} (hf : q.Fits k t) (hq : q ≠ .empty)
    (ha : a >>> q.shifts = q.guard) : a >>> t = k := by
  obtain ⟨hst, hg⟩ := (Pte.fits_iff hq).1 hf
  rw [Bits.shiftRight_of_le hst, ha, hg]

/-- A PTE maps nothing outside the slot it fits. -/
theorem Pte.Fits.den_eq_none (h : GptHandlers τ V) {q : Pte τ V} {a : Nat} (hf : q.Fits k t)
    (ha : a >>> t ≠ k) : q.den h a = none := by
  by_cases hq : q = .empty
  · subst hq
    rfl
  · exact den_eq_none_of_not_guard h fun hg => ha (hf.shiftRight_eq hq hg)

/-- A PTE that fits a slot fits every slot around it. -/
theorem Pte.Fits.mono {q : Pte τ V} {k' t' : Nat} (hf : q.Fits k t) (htt : t ≤ t')
    (hk : k >>> (t' - t) = k') : q.Fits k' t' := by
  by_cases hq : q = .empty
  · subst hq
    trivial
  · obtain ⟨hst, hg⟩ := (Pte.fits_iff hq).1 hf
    refine (Pte.fits_iff hq).2 ⟨Nat.le_trans hst htt, ?_⟩
    rw [← hk, ← hg, ← Nat.shiftRight_add]
    congr 1
    omega

end Shape

end Gunyah.Gpt

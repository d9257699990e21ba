import Gunyah.Gpt.Write

set_option autoImplicit false

/-!
# What a GPT is for

A GPT is a map from the addresses below `2 ^ max_bits` to entries. A write sets the entries of a
range `[base, base + size)` to one entry, offset along the range: the entry at `a` is the written
one offset by `a - base`. A write that expects an old entry succeeds exactly when the range holds
that entry, offset the same way.

Entries are compared with `gpt_values_equal`, so the map is known up to that relation
(`EntryEq`). `GptHandlers.Lawful` states what the handlers must satisfy for that to make sense:
`gpt_value_add_offset` adds offsets, and `gpt_values_equal` is an equivalence that offsets
preserve. Reading needs less (`GptHandlers.OffsetLaws`), and the shape of the tree needs nothing
of the handlers. `specCall` is the abstract meaning of each call of the interface, with the same
argument checks as the code.
-/

namespace Gunyah.Gpt

variable {τ V : Type}

/-- Handlers whose offsets add up and whose equality is an equivalence preserved by offsets. -/
structure GptHandlers.Lawful (h : GptHandlers τ V) : Prop where
  addOffset_zero : ∀ t v, h.addOffset t v 0 = v
  addOffset_add : ∀ t v j k, h.addOffset t (h.addOffset t v j) k = h.addOffset t v (j + k)
  valuesEqual_refl : ∀ t v, h.valuesEqual t v v = true
  valuesEqual_symm : ∀ t v w, h.valuesEqual t v w = true → h.valuesEqual t w v = true
  valuesEqual_trans : ∀ t u v w,
    h.valuesEqual t u v = true → h.valuesEqual t v w = true → h.valuesEqual t u w = true
  valuesEqual_addOffset : ∀ t v w k,
    h.valuesEqual t v w = true → h.valuesEqual t (h.addOffset t v k) (h.addOffset t w k) = true

/-- What reading needs of the handlers: offsets add up, and offsets keep `gpt_values_equal`.
Neither `memextent_mappings_equal`, whose offset wraps the virtual base and which ignores the
attributes it is asked to, nor a type no handler subscribes to (`GPT_TYPE_VMMIO_RANGE`, whose
values are never equal and whose offset is the identity) is `Lawful`; both meet these laws. -/
structure GptHandlers.OffsetLaws (h : GptHandlers τ V) : Prop where
  addOffset_add : ∀ t v j k, h.addOffset t (h.addOffset t v j) k = h.addOffset t v (j + k)
  valuesEqual_addOffset : ∀ t v w k,
    h.valuesEqual t v w = true → h.valuesEqual t (h.addOffset t v k) (h.addOffset t w k) = true

theorem GptHandlers.Lawful.offsetLaws {h : GptHandlers τ V} (hl : h.Lawful) : h.OffsetLaws :=
  ⟨hl.addOffset_add, hl.valuesEqual_addOffset⟩

section Offsets

variable (h : GptHandlers τ V)

@[simp] theorem entryAddOffset_none {k : Nat} : entryAddOffset h (none : GptEntry τ V) k = none :=
  rfl

@[simp] theorem entryAddOffset_eq_none {e : GptEntry τ V} {k : Nat} :
    entryAddOffset h e k = none ↔ e = none := by
  cases e with
  | none => simp
  | some p => simp [entryAddOffset]

variable {h}

@[simp] theorem entryAddOffset_zero (hl : h.Lawful) (e : GptEntry τ V) :
    entryAddOffset h e 0 = e := by
  rcases e with _ | ⟨t, v⟩
  · rfl
  · simp [entryAddOffset, hl.addOffset_zero]

theorem entryAddOffset_add (ho : h.OffsetLaws) (e : GptEntry τ V) (j k : Nat) :
    entryAddOffset h (entryAddOffset h e j) k = entryAddOffset h e (j + k) := by
  rcases e with _ | ⟨t, v⟩
  · rfl
  · simp [entryAddOffset, ho.addOffset_add]

end Offsets

section Entries

variable (h : GptHandlers τ V) [DecidableEq τ]

/-- Two entries that `entries_equal` equates. -/
def EntryEq (e e' : GptEntry τ V) : Prop := entriesEqual h e e' = true

instance (e e' : GptEntry τ V) : Decidable (EntryEq h e e') :=
  inferInstanceAs (Decidable (_ = true))

@[simp] theorem entryEq_none_left {e : GptEntry τ V} : EntryEq h none e ↔ e = none := by
  cases e <;> simp [EntryEq, entriesEqual]

@[simp] theorem entryEq_none_right {e : GptEntry τ V} : EntryEq h e none ↔ e = none := by
  cases e <;> simp [EntryEq, entriesEqual]

theorem entryEq_some {t t' : τ} {v v' : V} :
    EntryEq h (some (t, v)) (some (t', v')) ↔ t = t' ∧ h.valuesEqual t v v' = true := by
  simp [EntryEq, entriesEqual]

/-- Nothing is not a filled entry, however offset. -/
theorem not_entryEq_none_addOffset {e : GptEntry τ V} (he : e ≠ none) (k : Nat) :
    ¬ EntryEq h none (entryAddOffset h e k) := by
  rw [entryEq_none_left, entryAddOffset_eq_none]
  exact he

variable {h}

theorem EntryEq.addOffset (ho : h.OffsetLaws) {e e' : GptEntry τ V} (he : EntryEq h e e')
    (k : Nat) : EntryEq h (entryAddOffset h e k) (entryAddOffset h e' k) := by
  rcases e with _ | ⟨t, v⟩ <;> rcases e' with _ | ⟨t', v'⟩
  · rfl
  · simp at he
  · simp at he
  · obtain ⟨rfl, hv⟩ := (entryEq_some h).1 he
    exact (entryEq_some h).2 ⟨rfl, ho.valuesEqual_addOffset t v v' k hv⟩

variable (hl : h.Lawful)
include hl

theorem EntryEq.refl (e : GptEntry τ V) : EntryEq h e e := by
  rcases e with _ | ⟨t, v⟩
  · rfl
  · exact (entryEq_some h).2 ⟨rfl, hl.valuesEqual_refl t v⟩

theorem EntryEq.symm {e e' : GptEntry τ V} (he : EntryEq h e e') : EntryEq h e' e := by
  rcases e with _ | ⟨t, v⟩ <;> rcases e' with _ | ⟨t', v'⟩
  · exact he
  · simp at he
  · simp at he
  · obtain ⟨rfl, hv⟩ := (entryEq_some h).1 he
    exact (entryEq_some h).2 ⟨rfl, hl.valuesEqual_symm t v v' hv⟩

theorem EntryEq.trans {e e' e'' : GptEntry τ V} (h₁ : EntryEq h e e') (h₂ : EntryEq h e' e'') :
    EntryEq h e e'' := by
  rcases e' with _ | ⟨t', v'⟩
  · rw [entryEq_none_right] at h₁
    rw [entryEq_none_left] at h₂
    subst h₁ h₂
    rfl
  · rcases e with _ | ⟨t, v⟩
    · simp at h₁
    rcases e'' with _ | ⟨t'', v''⟩
    · simp at h₂
    obtain ⟨rfl, hv₁⟩ := (entryEq_some h).1 h₁
    obtain ⟨rfl, hv₂⟩ := (entryEq_some h).1 h₂
    exact (entryEq_some h).2 ⟨rfl, hl.valuesEqual_trans t v v' v'' hv₁ hv₂⟩

end Entries

/-! ## Maps -/

/-- The map of a GPT: the entry of every address. -/
abbrev GptMap (τ V : Type) := Nat → GptEntry τ V

section Maps

variable (h : GptHandlers τ V) [DecidableEq τ]

/-- Two maps that agree up to `entries_equal` at every address. -/
def MapEq (M M' : GptMap τ V) : Prop := ∀ a, EntryEq h (M a) (M' a)

/-- The map after a write of `new` over `[base, base + size)`. -/
def writeRange (M : GptMap τ V) (base size : Nat) (new : GptEntry τ V) : GptMap τ V :=
  fun a => if base ≤ a ∧ a < base + size then entryAddOffset h new (a - base) else M a

/-- The range `[base, base + size)` holds `old`, offset by the distance from `base`. -/
def Holds (M : GptMap τ V) (base size : Nat) (old : GptEntry τ V) : Prop :=
  ∀ a, base ≤ a → a < base + size → EntryEq h (M a) (entryAddOffset h old (a - base))

instance (M : GptMap τ V) (base size : Nat) (old : GptEntry τ V) :
    Decidable (Holds h M base size old) :=
  inferInstanceAs (Decidable (∀ a, base ≤ a → a < base + size → _))

/-- The abstract `gpt_write`: the error it returns and the map after it. A write that expects
`old` (`isMatch`) fails with `ERROR_BUSY`, and changes nothing, when the range does not hold it. -/
def specWrite (maxBits : Nat) (M : GptMap τ V) (base size : Nat) (old new : GptEntry τ V)
    (isMatch : Bool) : Error × GptMap τ V :=
  if size = 0 ∨ 2 ^ 64 ≤ base + (size - 1) then (.argumentInvalid, M)
  else if 2 ^ maxBits < base + size then (.argumentSize, M)
  else if isMatch ∧ ¬ Holds h M base size old then (.busy, M)
  else (.ok, writeRange h M base size new)

/-- An entry that a call may name: one of a type in `allowed_types`. -/
def ValidEntry (allowed : τ → Bool) : GptEntry τ V → Bool
  | none => false
  | some (t, _) => allowed t

/-- The abstract meaning of a call on a GPT of `maxBits` bits that allows the types `allowed`. -/
def specCall (maxBits : Nat) (allowed : τ → Bool) (M : GptMap τ V) :
    GptCall τ V → Error × GptMap τ V
  | .insert base size entry expectEmpty =>
    if ValidEntry allowed entry then specWrite h maxBits M base size none entry expectEmpty
    else (.argumentInvalid, M)
  | .update base size oldEntry newEntry =>
    if ValidEntry allowed oldEntry && ValidEntry allowed newEntry then
      specWrite h maxBits M base size oldEntry newEntry true
    else (.argumentInvalid, M)
  | .remove base size entry =>
    if ValidEntry allowed entry then specWrite h maxBits M base size entry none true
    else (.argumentInvalid, M)
  | .clear base size => specWrite h maxBits M base size none none false

/-- The errors of a sequence of calls and the map after them. -/
def specRun (maxBits : Nat) (allowed : τ → Bool) (M : GptMap τ V) :
    List (GptCall τ V) → List Error × GptMap τ V
  | [] => ([], M)
  | c :: cs =>
    let (e, M) := specCall h maxBits allowed M c
    let (es, M) := specRun maxBits allowed M cs
    (e :: es, M)

end Maps

end Gunyah.Gpt

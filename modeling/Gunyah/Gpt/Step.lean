import Gunyah.Gpt.Block

set_option autoImplicit false

/-!
# One step of a write

`handle_write` looks up the PTE in the slot that holds `curr` and then, by the kind of that PTE,
fails with `ERROR_BUSY`, writes the first part of the range, or changes the tree without changing
its map (a new level, a split leaf, a step down) and asks to be called again. A new level needs
`partition_alloc`, whose failure is a fourth outcome that changes nothing. `StepOk` names these
outcomes with what each guarantees, relative to the map of the tree when the step starts;
`handleWrite_spec` says that every step has one of them. A step that asks to be called again
lowers `stepMeasure`, which bounds how often that can happen in a row.

The walk's invariant and the measure hold for any handlers. Three facts about the map need
lawful ones: that the entry a match compares with `old` is the one the map has (`ERROR_BUSY` and
the check of an advance), and that a split leaf maps what the leaf mapped.
-/

namespace Gunyah.Gpt

open Function

variable {τ V : Type}

/-- The PTE in the slot the walk is at. -/
abbrev Walk.slotPte (w : Walk τ V) : Pte τ V := w.root.getAt (slotPath w.stack)

/-- The address lies in the slot the walk is at. -/
abbrev Walk.InSlot (w : Walk τ V) (a : Nat) : Prop :=
  a >>> getMaxEntryShifts w.stack = slotBlock w.stack

/-! ## Entries of a level -/

section Index

variable {a g s : Nat}

/-- The index `get_curr_pte` computes for an address in sub-block `j` of a level is `j`. -/
theorem sub_shiftRight_of_child {j : Fin 16} (hs : 4 ≤ s) (ha : a >>> (s - 4) = g * 16 + j) :
    (a - g <<< s) >>> (s - 4) = j := by
  have hA := Bits.mem_block_iff.1 ha
  have hsplit := shiftLeft_child_add (g := g) hs (j : Nat)
  rw [Nat.shiftLeft_eq, Nat.shiftLeft_eq (j : Nat)] at hsplit
  rw [Nat.succ_mul] at hA
  rw [Bits.mem_block_iff, Nat.succ_mul]
  omega

/-- ... and it has an entry for every address of the level's block. -/
theorem sub_shiftRight_lt (hs : 4 ≤ s) (hg : a >>> s = g) : (a - g <<< s) >>> (s - 4) < 16 := by
  rw [sub_shiftRight_of_child hs (child_of_shiftRight hs hg)]
  exact (levelIndex s a).isLt

end Index

/-- A PTE maps nothing outside its block. -/
theorem Pte.den_eq_none_of_not_mem (h : GptHandlers τ V) (q : Pte τ V) {a : Nat}
    (ha : ¬ (q.addr ≤ a ∧ a < q.addr + 2 ^ q.shifts)) : q.den h a = none :=
  den_eq_none_of_not_guard h fun hg =>
    ha ⟨Bits.shiftLeft_le_of_shiftRight_eq hg, Bits.lt_shiftLeft_of_shiftRight_eq hg⟩

/-- A filled PTE of the shape the code keeps maps some address of its block. -/
theorem Pte.Ok.exists_den (h : GptHandlers τ V) : ∀ {q : Pte τ V}, q.Ok → q ≠ .empty →
    ∃ a, a >>> q.shifts = q.guard ∧ q.den h a ≠ none
  | .empty, _, hne => absurd rfl hne
  | .leaf g s t v, _, _ =>
    ⟨g <<< s, Nat.shiftLeft_shiftRight g s, by simp [den_leaf, Nat.shiftLeft_shiftRight]⟩
  | .level g s es, ⟨_, hs, hes, i, hi⟩, _ => by
    -- A filled entry maps an address of its sub-block, which the level passes on to it.
    obtain ⟨a, ha, hden⟩ := Pte.Ok.exists_den h (hes i).2 hi
    have hai : a >>> (s - 4) = g * 16 + i := (hes i).1.shiftRight_eq hi ha
    refine ⟨a, shiftRight_eq_of_child hs hai, ?_⟩
    rw [den_level_of_child h hs hai]
    exact hden

theorem Pte.Ok.dvd_shifts {q : Pte τ V} (hq : q.Ok) : 4 ∣ q.shifts := by
  cases q with
  | empty => exact Nat.dvd_zero 4
  | leaf => exact hq
  | level => exact hq.1

/-- The level `allocate_level` builds around a PTE whose block does not hold `curr`, at the
shifts of `get_common_shifts`, is well formed in the PTE's slot. -/
theorem commonLevel_wf {q : Pte τ V} {c k t : Nat} (hne : q ≠ .empty) (hwf : q.Wf k t)
    (hc : q.shifts + 4 ≤ c) (hct : c ≤ t) (h4 : 4 ∣ c) :
    (Pte.level (q.addr >>> c) c (update (fun _ => .empty) (levelIndex c q.addr) q)).Wf k t ∧
      q.Fits (q.addr >>> c * 16 + levelIndex c q.addr) (c - 4) := by
  have hs : 4 ≤ c := by omega
  have hsub : q.Fits (q.addr >>> c * 16 + levelIndex c q.addr) (c - 4) := by
    refine (Pte.fits_iff hne).2 ⟨by omega, ?_⟩
    rw [← child_of_shiftRight hs rfl, ← q.addr_shiftRight, ← Nat.shiftRight_add]
    congr 1
    omega
  have hpk : q.addr >>> t = k := hwf.1.shiftRight_eq hne q.addr_shiftRight
  refine ⟨⟨⟨hct, by rw [← Nat.shiftRight_add, Nat.add_sub_cancel' hct, hpk]⟩, h4, hs,
    fun i => ?_, ⟨levelIndex c q.addr, by rw [update_self]; exact hne⟩⟩, hsub⟩
  by_cases hi : i = levelIndex c q.addr
  · subst hi
    rw [update_self]
    exact ⟨hsub, hwf.2⟩
  · rw [update_of_ne hi]
    exact ⟨trivial, trivial⟩

/-- In the slot the walk is at, the tree maps what the slot's PTE maps. -/
theorem den_slot {h : GptHandlers τ V} {w : Walk τ V} {curr : Nat} (hw : w.Inv curr) {a : Nat}
    (ha : w.InSlot a) : w.root.den h a = w.slotPte.den h a :=
  den_getAt_of_framesOk h hw.frames ha

/-! ## The measure of a step -/

section Measure

variable (h : GptHandlers τ V) [DecidableEq τ]

/-- How often a write may still ask to be called again at `curr`: twice the shifts of the slot
that holds `curr`, and one more unless that slot holds a level whose block holds `curr`. -/
def stepMeasure (w : Walk τ V) (curr : Nat) : Nat :=
  let p := w.getCurrPte h curr
  2 * getMaxEntryShifts p.1.stack + if p.2.isLevel && p.2.guardMatching curr then 0 else 1

variable {h} {w : Walk τ V} {curr : Nat}

/-- `get_curr_pte` at an address in the deepest slot pops nothing and returns that slot's PTE. -/
theorem Walk.getCurrPte_of_mem (hw : w.Inv curr) (hmem : w.InSlot curr) :
    w.getCurrPte h curr = (w, w.slotPte) := by
  obtain ⟨root, st⟩ := w
  cases st with
  | nil => rfl
  | cons f st =>
    obtain ⟨g, s, es, hq⟩ := hw.frames.2.exists_level
    have hf := hw.frames.2
    rw [hq] at hf
    obtain ⟨hblock, hshifts⟩ := hf.slotBlock_cons st
    obtain ⟨-, -, hs, -, haddr, hshifts', -⟩ := hf
    simp only [Walk.InSlot, hblock, hshifts] at hmem
    have hidx : (curr - f.addr) >>> f.shifts = f.index := by
      rw [haddr, hshifts']
      exact sub_shiftRight_of_child hs hmem
    have hlt : (curr - f.addr) >>> f.shifts < 16 := by
      rw [hidx]
      exact f.index.isLt
    simp only [Walk.getCurrPte, getCurrPteLoop, Bool.or_false, dif_pos hlt]
    simp only [hidx, Fin.eta, Walk.slotPte, slotPath_cons, Pte.getAt_append, Pte.getAt_singleton]

/-- The measure at an address in the deepest slot. -/
theorem stepMeasure_of_mem (hw : w.Inv curr) (hmem : w.InSlot curr) :
    stepMeasure h w curr = 2 * getMaxEntryShifts w.stack +
      if w.slotPte.isLevel && w.slotPte.guardMatching curr then 0 else 1 := by
  simp only [stepMeasure, Walk.getCurrPte_of_mem hw hmem]

/-- Going down into a level leaves a measure of at most twice its entries' shifts, plus one. -/
theorem stepMeasure_goDownLevel {g s : Nat} {es : Fin 16 → Pte τ V} (hs : 4 ≤ s)
    (hg : curr >>> s = g) : stepMeasure h (w.goDownLevel (.level g s es)) curr ≤ 2 * (s - 4) + 1 := by
  have hlt : (curr - g <<< s) >>> (s - 4) < 16 := sub_shiftRight_lt hs hg
  simp only [stepMeasure, Walk.goDownLevel, Walk.getCurrPte, getCurrPteLoop, Pte.addr,
    Pte.guard_level, Pte.shifts_level, levelBits, Bool.or_false, dif_pos hlt, getMaxEntryShifts]
  split <;> omega

end Measure

/-! ## The outcomes of a step -/

section Outcome

variable (h : GptHandlers τ V) [DecidableEq τ]

/-- The outcomes of one step of a write at `curr` with `rem` addresses left, where `D` is the map
of the tree when the step starts, `m` the step's measure, and `partition_alloc` succeeds if
`allocOk`. -/
inductive StepOk (D : GptMap τ V) (m curr rem : Nat) (old new : GptEntry τ V)
    (isMatch allocOk : Bool) : Walk τ V × Except Error Nat → Prop
  /-- `ERROR_BUSY`, with the map unchanged, at an address of the range that does not hold `old`. -/
  | busy {w : Walk τ V} (hm : isMatch = true) (hw : w.Inv curr) (hD : ∀ a, w.root.den h a = D a)
      (a : Nat) (ha : curr ≤ a) (ha' : a < curr + rem)
      (hne : h.Lawful → ¬ EntryEq h (D a) (entryAddOffset h old (a - curr))) :
      StepOk D m curr rem old new isMatch allocOk (w, .error .busy)
  /-- `partition_alloc` failed, with the map unchanged. -/
  | nomem {w : Walk τ V} (hf : allocOk = false) (hw : w.Inv curr) (hD : ∀ a, w.root.den h a = D a) :
      StepOk D m curr rem old new isMatch allocOk (w, .error .nomem)
  /-- Called again: the map is unchanged and the measure lower. -/
  | retry {w : Walk τ V} (hw : w.Inv curr) (hD : h.Lawful → ∀ a, w.root.den h a = D a)
      (hm : stepMeasure h w curr < m) : StepOk D m curr rem old new isMatch allocOk (w, .ok 0)
  /-- The first `r` addresses of the range map `new`, offset along the range, where a match found
  `old`; nothing outside the range changed, and with a match nothing past those addresses. -/
  | advance {w : Walk τ V} {r : Nat} (hr : 0 < r) (hw : w.Inv curr)
      (hdone : ∀ a, curr ≤ a → a < curr + r → a < curr + rem →
        w.root.den h a = entryAddOffset h new (a - curr))
      (hout : ∀ a, a < curr ∨ curr + rem ≤ a → w.root.den h a = D a)
      (htodo : isMatch = true → ∀ a, curr + r ≤ a → w.root.den h a = D a)
      (hcheck : isMatch = true → h.Lawful → ∀ a, curr ≤ a → a < curr + r → a < curr + rem →
        EntryEq h (D a) (entryAddOffset h old (a - curr))) :
      StepOk D m curr rem old new isMatch allocOk (w, .ok r)

end Outcome

/-! ## The branches of `handle_write` -/

section Branches

variable {h : GptHandlers τ V} [DecidableEq τ] {w : Walk τ V} {curr rem : Nat}
  {old new : GptEntry τ V} {isMatch allocOk : Bool}

/-- `update_curr_pte_and_get_size` writes a block of the range at `curr`. The step advances if the
slot's PTE maps nothing outside the range, and with a match nothing past the block and `old` on
the block. -/
theorem stepOk_update (hw : w.Inv curr) (hmem : w.InSlot curr) (hrem : 0 < rem) {m : Nat}
    (hout : ∀ a, w.InSlot a → (a < curr ∨ curr + rem ≤ a) → w.slotPte.den h a = none)
    (htodo : isMatch = true → ∀ a, w.InSlot a →
      curr + 2 ^ getMaxPossibleShifts w.stack curr rem ≤ a → w.slotPte.den h a = none)
    (hcheck : isMatch = true → h.Lawful → ∀ a, curr ≤ a →
      a < curr + 2 ^ getMaxPossibleShifts w.stack curr rem →
      EntryEq h (w.slotPte.den h a) (entryAddOffset h old (a - curr))) :
    StepOk h (w.root.den h) m curr rem old new isMatch allocOk
      ((w.updateCurrPteAndGetSize curr rem new).1, .ok (w.updateCurrPteAndGetSize curr rem new).2) := by
  simp only [Walk.updateCurrPteAndGetSize]
  obtain ⟨hle, h4, hdvd, hsz⟩ := getMaxPossibleShifts_spec hrem (getMaxEntryShifts_spec hw.frames).2
  set ns := getMaxPossibleShifts w.stack curr rem
  have hwf := entryPte_wf hle h4 hmem new
  have hchunk : ∀ a, curr ≤ a → a < curr + 2 ^ ns → w.InSlot a := fun a ha ha' =>
    (Bits.shiftRight_eq_of_lt_of_le hle hdvd ha ha').trans hmem
  -- The slot now maps the block to `new` and the rest of the slot to nothing.
  have hden : ∀ a, (w.updateCurrPte curr ns new).root.den h a =
      if w.InSlot a then (if curr ≤ a ∧ a < curr + 2 ^ ns then entryAddOffset h new (a - curr) else none)
      else w.root.den h a := by
    intro a
    rw [Walk.updateCurrPte_eq, Walk.den_writePteToLevel h hw hwf.1, den_entryPte h hdvd]
  -- Outside the block, where the slot's PTE mapped nothing, nothing changes.
  have hkeep : ∀ a, ¬ (curr ≤ a ∧ a < curr + 2 ^ ns) → (w.InSlot a → w.slotPte.den h a = none) →
      (w.updateCurrPte curr ns new).root.den h a = w.root.den h a := by
    intro a hna hnone
    by_cases hin : w.InSlot a
    · rw [hden, if_pos hin, if_neg hna, den_slot hw hin, hnone hin]
    · rw [hden, if_neg hin]
  refine .advance (Nat.two_pow_pos ns) ?_ ?_ ?_ ?_ ?_
  · rw [Walk.updateCurrPte_eq]
    exact hw.writePteToLevel hwf
  · intro a ha ha' _
    rw [hden, if_pos (hchunk a ha ha'), if_pos ⟨ha, ha'⟩]
  · intro a ha
    exact hkeep a (by omega) fun hin => hout a hin ha
  · intro hm a ha
    exact hkeep a (by omega) fun hin => htodo hm a hin ha
  · intro hm hl a ha ha' _
    rw [den_slot hw (hchunk a ha ha')]
    exact hcheck hm hl a ha ha'

/-- A step that stores, in place of a PTE that is not a level holding `curr`, a level holding
`curr` that maps the same is called again with a lower measure. -/
theorem stepOk_newLevel (hw : w.Inv curr) (hmem : w.InSlot curr) {g s : Nat}
    {es : Fin 16 → Pte τ V} (hwf : (Pte.level g s es).Wf (slotBlock w.stack) (getMaxEntryShifts w.stack))
    (hg : curr >>> s = g) (hden : h.Lawful → ∀ a, (Pte.level g s es).den h a = w.slotPte.den h a)
    (hnot : (w.slotPte.isLevel && w.slotPte.guardMatching curr) = false) :
    StepOk h (w.root.den h) (stepMeasure h w curr) curr rem old new isMatch allocOk
      (w.writePteToLevel (.level g s es), .ok 0) := by
  have hw' := hw.writePteToLevel hwf
  have hmem' : (w.writePteToLevel (.level g s es)).InSlot curr := by
    simp only [Walk.InSlot, Walk.writePteToLevel, slotBlock_markDirty, getMaxEntryShifts_markDirty]
    exact hmem
  have hslot : (w.writePteToLevel (.level g s es)).slotPte = .level g s es := by
    simp only [Walk.slotPte, Walk.writePteToLevel, slotPath_markDirty]
    exact getAt_setAt_of_framesOk hw.frames
  refine .retry hw' (fun hl a => ?_) ?_
  · rw [Walk.den_writePteToLevel h hw hwf.1]
    split
    case isTrue hin => rw [hden hl, den_slot hw hin]
    case isFalse => rfl
  · rw [stepMeasure_of_mem hw' hmem', stepMeasure_of_mem hw hmem, hnot, hslot]
    simp [Pte.isLevel, Pte.guardMatching, hg, Walk.writePteToLevel]

/-- A step that allocates a level: if `partition_alloc` fails, it returns the error and leaves
the tree as it was. -/
theorem stepOk_alloc (hw : w.Inv curr) {m : Nat} {r : Walk τ V × Except Error Nat}
    (hok : StepOk h (w.root.den h) m curr rem old new isMatch allocOk r) :
    StepOk h (w.root.den h) m curr rem old new isMatch allocOk
      (if allocOk then r else (w, .error .nomem)) := by
  cases allocOk with
  | false => exact .nomem rfl hw fun _ => rfl
  | true => exact hok

/-- The branches for an empty PTE: a match that expects an entry fails, an empty entry skips to
the end of the slot, and any other entry is written. -/
theorem stepOk_empty (hw : w.Inv curr) (hmem : w.InSlot curr) (hrem : 0 < rem)
    (hq : w.slotPte = .empty) {m : Nat} :
    StepOk h (w.root.den h) m curr rem old new isMatch allocOk
      (if (isMatch && old.isSome) = true then (w, .error .busy)
      else if new.isNone = true then (w, .ok (getNextPteBase w.stack curr - curr))
      else ((w.updateCurrPteAndGetSize curr rem new).1, .ok (w.updateCurrPteAndGetSize curr rem new).2)) := by
  have hnone : ∀ a, w.InSlot a → w.root.den h a = none := fun a ha => by
    rw [den_slot hw ha, hq]
    rfl
  split
  case isTrue hbusy =>
    -- An entry was expected at `curr`, where there is none.
    simp only [Bool.and_eq_true] at hbusy
    refine .busy hbusy.1 hw (fun _ => rfl) curr (Nat.le_refl _) (by omega) fun _ => ?_
    rw [hnone curr hmem]
    exact not_entryEq_none_addOffset h (Option.isSome_iff_ne_none.1 hbusy.2) _
  case isFalse hok =>
    -- With a match, `old` is empty, as is the slot.
    have hold : isMatch = true → old = none := fun hm => by simpa [hm] using hok
    split
    case isTrue hskip =>
      have hnew : new = none := by simpa using hskip
      obtain ⟨hlt, hin⟩ := getNextPteBase_spec w.stack curr
      refine .advance (by omega) hw (fun a ha ha' _ => ?_) (fun _ _ => rfl) (fun _ _ _ => rfl)
        (fun hm _ a ha ha' _ => ?_)
      · rw [hnone a ((hin a ha (by omega)).trans hmem), hnew]
        rfl
      · rw [hnone a ((hin a ha (by omega)).trans hmem), hold hm]
        rfl
    case isFalse =>
      refine stepOk_update hw hmem hrem (fun a _ _ => by rw [hq]; rfl) (fun _ a _ _ => by rw [hq]; rfl)
        (fun hm _ a _ _ => ?_)
      rw [hq, hold hm]
      rfl

/-- The branches for a filled PTE whose block does not hold `curr`: without a match a PTE that
the range covers is written over, with a match one that conflicts fails, and otherwise a level is
added that holds both the PTE and `curr`. -/
theorem stepOk_mismatch (hw : w.Inv curr) (hmem : w.InSlot curr)
    (hcurr : curr < 2 ^ maxSizeBits) (hrem : 0 < rem) {q : Pte τ V} (hq : w.slotPte = q)
    (hne : q ≠ .empty) (hg : curr >>> q.shifts ≠ q.guard) :
    StepOk h (w.root.den h) (stepMeasure h w curr) curr rem old new isMatch allocOk
      (if (!isMatch && canReplacePte curr rem q) = true then
        ((w.updateCurrPteAndGetSize curr rem new).1, .ok (w.updateCurrPteAndGetSize curr rem new).2)
      else if (isMatch && pteWillConflict curr rem old q) = true then (w, .error .busy)
      else if allocOk then (w.allocateLevel h q (getCommonShifts q curr) false, .ok 0)
      else (w, .error .nomem)) := by
  have hwf : q.Wf (slotBlock w.stack) (getMaxEntryShifts w.stack) := hq ▸ hw.slot
  -- Where `q` maps anything, the tree maps what `q` maps.
  have hmq : ∀ a, q.den h a ≠ none → w.root.den h a = q.den h a := fun a hqa => by
    have hga : a >>> q.shifts = q.guard := by
      by_contra hga
      exact hqa (den_eq_none_of_not_guard h hga)
    rw [den_slot hw (hwf.1.shiftRight_eq hne hga), hq]
  split
  case isTrue hrep =>
    -- No match, and the range covers `q`: it is written over.
    simp only [Bool.and_eq_true, Bool.not_eq_true', canReplacePte, decide_eq_true_eq] at hrep
    obtain ⟨hnm, hlo, hhi⟩ := hrep
    refine stepOk_update hw hmem hrem (fun a _ ha => ?_) (fun hm => absurd hm (by simp [hnm]))
      (fun hm => absurd hm (by simp [hnm]))
    rw [hq]
    exact q.den_eq_none_of_not_mem h (by simp only [Pte.size] at hhi; omega)
  case isFalse =>
    split
    case isTrue hbusy =>
      simp only [Bool.and_eq_true] at hbusy
      obtain ⟨hm, hconf⟩ := hbusy
      -- The address where the range does not hold `old`.
      obtain ⟨a, ha, ha', hna⟩ : ∃ a, curr ≤ a ∧ a < curr + rem ∧
          ¬ EntryEq h (w.root.den h a) (entryAddOffset h old (a - curr)) := by
        unfold pteWillConflict at hconf
        split at hconf
        case isTrue hold =>
          -- An entry was expected at `curr`, which `q` does not map.
          refine ⟨curr, Nat.le_refl _, by omega, ?_⟩
          rw [den_slot hw hmem, hq, den_eq_none_of_not_guard h hg]
          exact not_entryEq_none_addOffset h (Option.isSome_iff_ne_none.1 hold) _
        case isFalse hold =>
          -- Nothing was expected, and `q` maps an address of the range.
          have hold' : old = none := by simpa using hold
          obtain ⟨a, ha, ha', hqa⟩ : ∃ a, curr ≤ a ∧ a < curr + rem ∧ q.den h a ≠ none := by
            split at hconf
            case isTrue hlev =>
              have hcr : curr ≤ q.addr ∧ q.addr + q.size ≤ curr + rem := by
                simpa [canReplacePte] using hconf
              have hsize : q.size = 2 ^ q.shifts := rfl
              obtain ⟨a, hga, hqa⟩ := hwf.2.exists_den h hne
              have hlo : q.addr ≤ a := Bits.shiftLeft_le_of_shiftRight_eq hga
              have hhi : a < q.addr + 2 ^ q.shifts := Bits.lt_shiftLeft_of_shiftRight_eq hga
              exact ⟨a, by omega, by omega, hqa⟩
            case isFalse hlev =>
              simp only [Bool.and_eq_true, decide_eq_true_eq] at hconf
              refine ⟨q.addr, hconf.1, hconf.2, ?_⟩
              cases q with
              | empty => exact absurd rfl hne
              | leaf g s t v => simp [den_leaf, Pte.addr, Nat.shiftLeft_shiftRight]
              | level => simp [Pte.isLevel] at hlev
          refine ⟨a, ha, ha', ?_⟩
          rw [hold', entryAddOffset_none, entryEq_none_right, hmq a hqa]
          exact hqa
      exact .busy hm hw (fun _ => rfl) a ha ha' fun _ => hna
    case isFalse =>
      -- A new level holds `q` in one entry and `curr` in another.
      refine stepOk_alloc hw ?_
      obtain ⟨hcs, hcst, hcs4, hcs_eq, -⟩ := getCommonShifts_spec hne hwf.1 hwf.2.dvd_shifts
        (getMaxEntryShifts_spec hw.frames) hmem hcurr hg
      obtain ⟨hLwf, hsub⟩ := commonLevel_wf hne hwf hcs hcst hcs4
      simp only [Walk.allocateLevel, Bool.false_eq_true, if_false]
      refine stepOk_newLevel hw hmem hLwf hcs_eq (fun _ a => ?_) ?_
      · rw [den_commonLevel h (by omega) hsub, hq]
      · simp [hq, Pte.guardMatching, hg]

/-- Going down into a level whose block holds `curr`. -/
theorem stepOk_goDown (hw : w.Inv curr) (hmem : w.InSlot curr) {g s : Nat}
    {es : Fin 16 → Pte τ V} (hq : w.slotPte = .level g s es) (hg : curr >>> s = g) :
    StepOk h (w.root.den h) (stepMeasure h w curr) curr rem old new isMatch allocOk
      (w.goDownLevel (.level g s es), .ok 0) := by
  have hwf : (Pte.level g s es).Wf (slotBlock w.stack) (getMaxEntryShifts w.stack) := hq ▸ hw.slot
  obtain ⟨⟨hst, -⟩, -, hs, -⟩ := hwf
  refine .retry (hw.goDownLevel hq hg) (fun _ _ => rfl) ?_
  have hdown : stepMeasure h (w.goDownLevel (.level g s es)) curr ≤ 2 * (s - 4) + 1 :=
    stepMeasure_goDownLevel hs hg
  rw [stepMeasure_of_mem hw hmem, hq]
  simp only [Pte.isLevel, Pte.guardMatching, Pte.shifts_level, Pte.guard_level, hg, beq_self_eq_true,
    Bool.and_self, if_true]
  omega

/-- The branches for a leaf whose block holds `curr`: a match fails unless the leaf holds `old`,
a leaf larger than the block to write is split, a match fails on a leaf smaller than that block,
and otherwise the block is written. -/
theorem stepOk_leaf (hw : w.Inv curr) (hmem : w.InSlot curr) (hrem : 0 < rem)
    {g s : Nat} {t : τ} {v : V} (hq : w.slotPte = .leaf g s t v) (hg : curr >>> s = g) :
    StepOk h (w.root.den h) (stepMeasure h w curr) curr rem old new isMatch allocOk
      (if (isMatch && !pteAndEntryEqual h (Pte.leaf g s t v) curr old) = true then (w, .error .busy)
      else if (Pte.leaf g s t v).shifts > getMaxPossibleShifts w.stack curr rem then
        if allocOk then (w.allocateLevel h (.leaf g s t v) (Pte.leaf g s t v).shifts true, .ok 0)
        else (w, .error .nomem)
      else if (decide ((Pte.leaf g s t v).shifts < getMaxPossibleShifts w.stack curr rem) && isMatch) = true
      then (w, .error .busy)
      else ((w.updateCurrPteAndGetSize curr rem new).1, .ok (w.updateCurrPteAndGetSize curr rem new).2)) := by
  have hwf : (Pte.leaf g s t v).Wf (slotBlock w.stack) (getMaxEntryShifts w.stack) := hq ▸ hw.slot
  have hfits := hwf.1
  obtain ⟨⟨hst, -⟩, h4⟩ := hwf
  obtain ⟨hle, -, hdvd, hsz⟩ := getMaxPossibleShifts_spec hrem (getMaxEntryShifts_spec hw.frames).2
  generalize hns : getMaxPossibleShifts w.stack curr rem = ns at hle hdvd hsz ⊢
  have hcurr_den : w.root.den h curr = some (t, h.addOffset t v (curr - g <<< s)) := by
    rw [den_slot hw hmem, hq, den_leaf, if_pos hg]
  -- If the leaf is no larger than the block to write, `curr` is its start.
  have hstart : s ≤ ns → g <<< s = curr := fun hsn => by
    rw [← hg]
    exact Bits.shiftRight_shiftLeft_of_dvd (Nat.dvd_trans (Nat.pow_dvd_pow 2 hsn) hdvd)
  have hchunk : ∀ a, curr ≤ a → a < curr + 2 ^ ns → w.InSlot a := fun a ha ha' =>
    (Bits.shiftRight_eq_of_lt_of_le hle hdvd ha ha').trans hmem
  split
  case isTrue hbusy =>
    -- The leaf's entry at `curr` is not `old`.
    simp only [Bool.and_eq_true, Bool.not_eq_true'] at hbusy
    refine .busy hbusy.1 hw (fun _ => rfl) curr (Nat.le_refl _) (by omega) fun hl => ?_
    rw [hcurr_den, Nat.sub_self, entryAddOffset_zero hl]
    intro heq
    have hback : entriesEqual h old (some (t, h.addOffset t v (curr - g <<< s))) = true :=
      EntryEq.symm hl heq
    simp only [pteAndEntryEqual, hback] at hbusy
    exact absurd hbusy.2 (by decide)
  case isFalse hok =>
    -- With a match, `old` is the leaf's entry at `curr`.
    have hold : isMatch = true → EntryEq h old (some (t, h.addOffset t v (curr - g <<< s))) :=
      fun hm => by simpa [hm, pteAndEntryEqual, EntryEq] using hok
    by_cases hsplit : (Pte.leaf g s t v).shifts > ns
    case pos =>
      rw [if_pos hsplit]
      refine stepOk_alloc hw ?_
      -- The leaf is split into a level of 16 leaves.
      have hs4 : 4 ≤ s := by
        have h4' : 4 ∣ s := h4
        have hsplit' : s > ns := hsplit
        omega
      have haddr : (Pte.leaf g s t v).addr >>> s = g := Nat.shiftLeft_shiftRight g s
      have hsplit_eq : w.allocateLevel h (.leaf g s t v) (Pte.leaf g s t v).shifts true =
          w.writePteToLevel (.level g s (splitPteAndFillLevel h (.leaf g s t v) (s - 4))) := by
        simp only [Walk.allocateLevel, if_true, levelBits, Pte.shifts_leaf, haddr]
      rw [hsplit_eq]
      refine stepOk_newLevel hw hmem (splitLevel_wf h hs4 h4 hfits) hg (fun hl a => ?_) ?_
      · rw [den_splitLevel hl hs4, hq]
      · simp [hq, Pte.isLevel]
    case neg =>
      rw [if_neg hsplit]
      have hsn : s ≤ ns := by
        have hsplit' : ¬ s > ns := hsplit
        omega
      have hblock : ∀ a, ¬ (curr ≤ a ∧ a < curr + 2 ^ s) → (Pte.leaf g s t v).den h a = none :=
        fun a ha => (Pte.leaf g s t v).den_eq_none_of_not_mem h (by
          simp only [Pte.addr, Pte.guard_leaf, Pte.shifts_leaf, hstart hsn]
          exact ha)
      have hpow : 2 ^ s ≤ 2 ^ ns := Nat.pow_le_pow_right (by decide) hsn
      have hs0 : 0 < 2 ^ s := Nat.two_pow_pos s
      split
      case isTrue hbusy =>
        -- The leaf ends before the block: the address after it does not hold `old`.
        simp only [Bool.and_eq_true, decide_eq_true_eq] at hbusy
        obtain ⟨hlt, hm⟩ := hbusy
        have hpow' : 2 ^ s < 2 ^ ns := Nat.pow_lt_pow_right (by decide) hlt
        refine .busy hm hw (fun _ => rfl) (curr + 2 ^ s) (by omega) (by omega) fun _ => ?_
        have hold' : old ≠ none := fun h0 => by simpa [h0] using hold hm
        rw [den_slot hw (hchunk _ (by omega) (by omega)), hq, hblock _ (by omega)]
        exact not_entryEq_none_addOffset h hold' _
      case isFalse hnb =>
        refine stepOk_update hw hmem hrem (fun a _ ha => ?_) (fun _ a _ ha => ?_)
          (fun hm hl a ha ha' => ?_)
        · rw [hq]
          exact hblock a (by omega)
        · rw [hns] at ha
          rw [hq]
          exact hblock a (by omega)
        · -- With a match, the leaf is the block, and it holds `old` there.
          rw [hns] at ha'
          have hnlt : ¬ s < ns := fun hlt => hnb (by simp [hm, hlt])
          have hsns : s = ns := by omega
          have hga : a >>> s = g := by
            rw [← hg]
            exact Bits.shiftRight_eq_of_lt (Nat.dvd_trans (Nat.pow_dvd_pow 2 hsn) hdvd)
              ha (by rw [hsns]; exact ha')
          have hzero := hold hm
          rw [hstart hsn, Nat.sub_self, hl.addOffset_zero] at hzero
          rw [hq, den_leaf, if_pos hga, hstart hsn]
          exact EntryEq.symm hl (hzero.addOffset hl.offsetLaws (a - curr))

end Branches

/-! ## A step -/

section StepSpec

variable {h : GptHandlers τ V} [DecidableEq τ] {w : Walk τ V} {curr rem : Nat}
  {old new : GptEntry τ V} {isMatch allocOk : Bool}

/-- Every step of a write has one of the outcomes of `StepOk`, relative to the map of the tree
after `get_curr_pte`. -/
theorem handleWrite_spec (hw : w.Inv curr) (hcurr : curr < 2 ^ maxSizeBits) (hrem : 0 < rem) :
    StepOk h ((w.getCurrPte h curr).1.root.den h) (stepMeasure h w curr) curr rem old new isMatch allocOk
      (handleWrite h allocOk w curr rem old new isMatch) := by
  have hc := Walk.getCurrPte_spec (h := h) hcurr hw
  rcases hp : w.getCurrPte h curr with ⟨w₁, pte⟩
  rw [hp] at hc
  obtain ⟨hw₁, hmem, hq, -⟩ := hc
  have hm : stepMeasure h w curr = stepMeasure h w₁ curr := by
    rw [stepMeasure_of_mem hw₁ hmem]
    simp only [stepMeasure, hp, Walk.slotPte, ← hq]
  simp only [handleWrite, hp]
  simp only at hw₁ hmem hq
  rw [hm]
  -- The cases of `handle_write`: by the kind of PTE, and whether its block holds `curr`.
  cases pte with
  | empty => exact stepOk_empty hw₁ hmem hrem hq.symm
  | leaf g s t v =>
    by_cases hg : curr >>> s = g
    · have hgm : (Pte.leaf g s t v).guardMatching curr = true := by simp [Pte.guardMatching, hg]
      have hlev : (Pte.leaf g s t v).isLevel = false := rfl
      simp only [hgm, hlev, Bool.not_true, Bool.false_eq_true, if_false]
      exact stepOk_leaf hw₁ hmem hrem hq.symm hg
    · have hgm : (Pte.leaf g s t v).guardMatching curr = false := by simp [Pte.guardMatching, hg]
      simp only [hgm, Bool.not_false, if_true]
      exact stepOk_mismatch hw₁ hmem hcurr hrem hq.symm (by simp) hg
  | level g s es =>
    by_cases hg : curr >>> s = g
    · have hgm : (Pte.level g s es).guardMatching curr = true := by simp [Pte.guardMatching, hg]
      have hlev : (Pte.level g s es).isLevel = true := rfl
      simp only [hgm, hlev, Bool.not_true, Bool.false_eq_true, if_false, if_true]
      exact stepOk_goDown hw₁ hmem hq.symm hg
    · have hgm : (Pte.level g s es).guardMatching curr = false := by simp [Pte.guardMatching, hg]
      simp only [hgm, Bool.not_false, if_true]
      exact stepOk_mismatch hw₁ hmem hcurr hrem hq.symm (by simp) hg

end StepSpec

end Gunyah.Gpt

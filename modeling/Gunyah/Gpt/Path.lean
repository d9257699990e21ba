import Gunyah.Gpt.Spec

set_option autoImplicit false

/-!
# Paths and frames

The frames of a walk stand for the levels on the path from the root to the slot the deepest frame
walks. `FramesOk` says that they do: each frame walks a level in its slot, holds that level's
start and entry shifts, and the level's other entries are well formed. With the PTE in the
deepest slot well formed too (`Walk.Inv`), the whole tree is well formed but for the levels the
walk has written to.

A store into the deepest slot changes the map on that slot's block and nowhere else
(`den_setAt_of_framesOk`); the walk's moves keep the invariant: a store of a well-formed PTE
(`Walk.Inv.writePteToLevel`), going down into a level (`Walk.Inv.goDownLevel`), and moving to
another entry of the deepest level (`Walk.Inv.setIndex`).
-/

namespace Gunyah.Gpt

open Function

variable {τ V : Type}

/-! ## The sub-blocks of a level -/

section Blocks

variable {a g s : Nat} {j : Fin 16}

theorem shiftRight_eq_of_child (hs : 4 ≤ s) (ha : a >>> (s - 4) = g * 16 + j) :
    a >>> s = g := by
  have h4 : s - (s - 4) = 4 := by omega
  rw [Bits.shiftRight_of_le (Nat.sub_le s 4), ha, h4, Nat.shiftRight_eq_div_pow]
  have := j.isLt
  omega

theorem levelIndex_eq_of_child (ha : a >>> (s - 4) = g * 16 + j) : levelIndex s a = j := by
  apply Fin.ext
  simp only [levelIndex, levelBits, ha]
  have := j.isLt
  omega

theorem child_of_shiftRight (hs : 4 ≤ s) (ha : a >>> s = g) :
    a >>> (s - 4) = g * 16 + levelIndex s a := by
  have h4 : s - (s - 4) = 4 := by omega
  rw [Bits.shiftRight_of_le (Nat.sub_le s 4), h4, Nat.shiftRight_eq_div_pow] at ha
  simp only [levelIndex, levelBits]
  omega

/-- The sub-block `j` of the block `g` at shift `s`. -/
theorem shiftLeft_child (hs : 4 ≤ s) : g <<< s >>> (s - 4) = g * 16 := by
  obtain ⟨n, rfl⟩ : ∃ n, s = 4 + n := ⟨s - 4, by omega⟩
  rw [Nat.add_sub_cancel_left, Nat.shiftLeft_add, Nat.shiftLeft_shiftRight, Nat.shiftLeft_eq]

/-- A PTE in a sub-block of a level's block lies in that block. -/
theorem Pte.Fits.parent {q : Pte τ V} (hs : 4 ≤ s) (hf : q.Fits (g * 16 + j) (s - 4)) :
    q.Fits g s := by
  refine hf.mono (Nat.sub_le s 4) ?_
  have h4 : s - (s - 4) = 4 := by omega
  rw [h4, Nat.shiftRight_eq_div_pow]
  have := j.isLt
  omega

variable (h : GptHandlers τ V) {es : Fin 16 → Pte τ V}

/-- A level maps an address of its sub-block `j` as its entry `j` does. -/
theorem den_level_of_child (hs : 4 ≤ s) (ha : a >>> (s - 4) = g * 16 + j) :
    (Pte.level g s es).den h a = (es j).den h a := by
  rw [den_level, if_pos (shiftRight_eq_of_child hs ha), levelIndex_eq_of_child ha]

/-- A level with a single filled entry maps what that entry maps. -/
theorem den_level_single (hs : 4 ≤ s) (hq : (es j).Fits (g * 16 + j) (s - 4))
    (hes : ∀ i, i ≠ j → es i = .empty) (a : Nat) :
    (Pte.level g s es).den h a = (es j).den h a := by
  by_cases hg : a >>> s = g
  · have hc := child_of_shiftRight hs hg
    rw [den_level_of_child h hs hc]
    by_cases hj : levelIndex s a = j
    · rw [hj]
    · rw [hes _ hj, den_empty, hq.den_eq_none]
      rw [hc]
      intro he
      exact hj (Fin.ext (by omega))
  · rw [den_level, if_neg hg, (hq.parent hs).den_eq_none h hg]

end Blocks

/-! ## Paths -/

namespace Pte

@[simp] theorem getAt_nil (q : Pte τ V) : q.getAt [] = q := rfl

@[simp] theorem getAt_singleton (q : Pte τ V) (i : Fin 16) : q.getAt [i] = q.entry i := rfl

theorem getAt_append (q : Pte τ V) (p p' : List (Fin 16)) :
    q.getAt (p ++ p') = (q.getAt p).getAt p' := by
  induction p generalizing q with
  | nil => rfl
  | cons i p ih => exact ih (q.entry i)

@[simp] theorem setAt_nil (q r : Pte τ V) : q.setAt [] r = r := by
  cases q <;> rfl

theorem setAt_singleton_level {g s : Nat} {es : Fin 16 → Pte τ V} {i : Fin 16} {r : Pte τ V} :
    (level g s es).setAt [i] r = level g s (update es i r) := by
  simp [setAt]

theorem setAt_append (q : Pte τ V) (p p' : List (Fin 16)) (r : Pte τ V) :
    q.setAt (p ++ p') r = q.setAt p ((q.getAt p).setAt p' r) := by
  induction p generalizing q with
  | nil => simp
  | cons i p ih =>
    cases q with
    | empty => rfl
    | leaf => rfl
    | level g s es => simp only [List.cons_append, setAt, getAt, entry_level, ih]

end Pte

@[simp] theorem slotPath_nil : slotPath [] = [] := rfl

theorem slotPath_cons (f : Frame) (st : List Frame) :
    slotPath (f :: st) = slotPath st ++ [f.index] := by
  simp [slotPath]

@[simp] theorem slotPath_markDirty (st : List Frame) : slotPath (markDirty st) = slotPath st := by
  cases st <;> rfl

/-- The block of the slot that the deepest frame walks; the root's slot is block `0` at
`GPT_MAX_SIZE_BITS`. -/
def slotBlock : List Frame → Nat
  | [] => 0
  | f :: _ => (f.addr >>> f.shifts) + f.index

@[simp] theorem slotBlock_markDirty (st : List Frame) : slotBlock (markDirty st) = slotBlock st := by
  cases st <;> rfl

@[simp] theorem getMaxEntryShifts_markDirty (st : List Frame) :
    getMaxEntryShifts (markDirty st) = getMaxEntryShifts st := by
  cases st <;> rfl

/-! ## Frames -/

/-- The frame `f` walks the level `q` in the slot `(k, t)`: it holds the level's start and the
shifts of its entries, the entries it does not walk are well formed in their sub-blocks, and a
clean frame's level has a filled entry. -/
def FrameOk (f : Frame) : Pte τ V → Nat → Nat → Prop
  | .level g s es, k, t =>
    s ≤ t ∧ g >>> (t - s) = k ∧ 4 ≤ s ∧ 4 ∣ s ∧ f.addr = g <<< s ∧ f.shifts = s - 4 ∧
      (∀ j, j ≠ f.index → (es j).Wf (g * 16 + j) (s - 4)) ∧ (f.dirty = false → ∃ j, es j ≠ .empty)
  | _, _, _ => False

/-- Every frame walks the level at its place on the path from the root, in its slot. -/
def FramesOk (root : Pte τ V) : List Frame → Prop
  | [] => True
  | f :: st =>
    FramesOk root st ∧ FrameOk f (root.getAt (slotPath st)) (slotBlock st) (getMaxEntryShifts st)

/-- The invariant of a walk at `curr`: the frames walk the levels on the path, the PTE in the
deepest slot is well formed there, and no level on the path starts after `curr`. -/
structure Walk.Inv (w : Walk τ V) (curr : Nat) : Prop where
  frames : FramesOk w.root w.stack
  slot : (w.root.getAt (slotPath w.stack)).Wf (slotBlock w.stack) (getMaxEntryShifts w.stack)
  addr_le : ∀ f ∈ w.stack, f.addr ≤ curr

theorem FrameOk.exists_level {f : Frame} {q : Pte τ V} {k t : Nat} (hf : FrameOk f q k t) :
    ∃ g s es, q = .level g s es := by
  cases q with
  | empty => exact hf.elim
  | leaf => exact hf.elim
  | level g s es => exact ⟨g, s, es, rfl⟩

section Frame

variable {f : Frame} {g s k t : Nat} {es : Fin 16 → Pte τ V}

/-- The slot of a frame's entry: the sub-block `index` of its level. -/
theorem FrameOk.slotBlock_cons (hf : FrameOk f (.level g s es) k t) (st : List Frame) :
    slotBlock (f :: st) = g * 16 + f.index ∧ getMaxEntryShifts (f :: st) = s - 4 := by
  obtain ⟨-, -, hs, -, haddr, hshifts, -⟩ := hf
  exact ⟨by simp only [slotBlock, haddr, hshifts, shiftLeft_child hs],
    by simp only [getMaxEntryShifts, hshifts]⟩

/-- An address in a frame's slot lies in the slot of the frame above. -/
theorem FrameOk.shiftRight_parent (hf : FrameOk f (.level g s es) k t) {a : Nat}
    (ha : a >>> (s - 4) = g * 16 + f.index) : a >>> t = k := by
  obtain ⟨hst, hg, hs, -⟩ := hf
  rw [Bits.shiftRight_of_le hst, shiftRight_eq_of_child hs ha, hg]

/-- A frame with its dirty flag set still walks its level. -/
theorem FrameOk.dirty (hf : FrameOk f (.level g s es) k t) (d : Bool) :
    FrameOk { f with dirty := f.dirty || d } (.level g s es) k t := by
  obtain ⟨hst, hg, hs, h4, haddr, hshifts, hsib, hclean⟩ := hf
  refine ⟨hst, hg, hs, h4, haddr, hshifts, hsib, fun hd => hclean ?_⟩
  simp only [Bool.or_eq_false_iff] at hd
  exact hd.1

/-- All entries of a frame's level are well formed once the one it walks is. -/
theorem FrameOk.wf_entry (hf : FrameOk f (.level g s es) k t)
    (hcur : (es f.index).Wf (g * 16 + f.index) (s - 4)) (j : Fin 16) :
    (es j).Wf (g * 16 + j) (s - 4) := by
  by_cases hj : j = f.index
  · rw [hj]
    exact hcur
  · exact hf.2.2.2.2.2.2.1 j hj

end Frame

/-- The root lies in the root slot. -/
theorem fits_root_of_framesOk {root : Pte τ V} : ∀ {st : List Frame}, FramesOk root st →
    (root.getAt (slotPath st)).Fits (slotBlock st) (getMaxEntryShifts st) →
    root.Fits 0 maxSizeBits
  | [], _, hr => hr
  | f :: st, ⟨hst, hf⟩, _ => by
    obtain ⟨g, s, es, hq⟩ := hf.exists_level
    rw [hq] at hf
    exact fits_root_of_framesOk hst (hq ▸ ⟨hf.1, hf.2.1⟩)

theorem Walk.Inv.fits_root {w : Walk τ V} {curr : Nat} (hw : w.Inv curr) :
    w.root.Fits 0 maxSizeBits :=
  fits_root_of_framesOk hw.frames hw.slot.1

/-! ## The map along the path -/

section Den

variable (h : GptHandlers τ V) {root : Pte τ V}

/-- In the slot the deepest frame walks, the tree maps what that slot's PTE maps. -/
theorem den_getAt_of_framesOk : ∀ {st : List Frame}, FramesOk root st → ∀ {a : Nat},
    a >>> getMaxEntryShifts st = slotBlock st → root.den h a = (root.getAt (slotPath st)).den h a
  | [], _, _, _ => rfl
  | f :: st, ⟨hst, hf⟩, a, ha => by
    obtain ⟨g, s, es, hq⟩ := hf.exists_level
    rw [hq] at hf
    obtain ⟨hblock, hshifts⟩ := hf.slotBlock_cons st
    rw [hblock, hshifts] at ha
    rw [den_getAt_of_framesOk hst (hf.shiftRight_parent ha), slotPath_cons, Pte.getAt_append, hq,
      Pte.getAt_singleton, Pte.entry_level, den_level_of_child h hf.2.2.1 ha]

theorem getAt_setAt_of_framesOk {r : Pte τ V} : ∀ {st : List Frame}, FramesOk root st →
    (root.setAt (slotPath st) r).getAt (slotPath st) = r
  | [], _ => by simp
  | f :: st, ⟨hst, hf⟩ => by
    obtain ⟨g, s, es, hq⟩ := hf.exists_level
    rw [slotPath_cons, Pte.setAt_append, Pte.getAt_append, getAt_setAt_of_framesOk hst, hq,
      Pte.setAt_singleton_level]
    simp

/-- A store into the deepest slot changes the map on that slot's block only. -/
theorem den_setAt_of_framesOk (hroot : root.Fits 0 maxSizeBits) {r : Pte τ V} :
    ∀ {st : List Frame}, FramesOk root st → r.Fits (slotBlock st) (getMaxEntryShifts st) → ∀ a,
    (root.setAt (slotPath st) r).den h a =
      if a >>> getMaxEntryShifts st = slotBlock st then r.den h a else root.den h a
  | [], _, hr, a => by
    simp only [slotPath_nil, Pte.setAt_nil]
    split
    case isTrue => rfl
    case isFalse ha => rw [hr.den_eq_none h ha, hroot.den_eq_none h ha]
  | f :: st, ⟨hst, hf⟩, hr, a => by
    obtain ⟨g, s, es, hq⟩ := hf.exists_level
    rw [hq] at hf
    obtain ⟨hblock, hshifts⟩ := hf.slotBlock_cons st
    have hs : 4 ≤ s := hf.2.2.1
    have hL : (Pte.level g s (update es f.index r)).Fits (slotBlock st) (getMaxEntryShifts st) :=
      ⟨hf.1, hf.2.1⟩
    rw [slotPath_cons, Pte.setAt_append, hq, Pte.setAt_singleton_level,
      den_setAt_of_framesOk hroot hst hL, hblock, hshifts]
    by_cases ha : a >>> (s - 4) = g * 16 + f.index
    · rw [if_pos (hf.shiftRight_parent ha), if_pos ha, den_level_of_child h hs ha, update_self]
    rw [if_neg ha]
    split
    case isTrue hin =>
      rw [den_getAt_of_framesOk h hst hin, hq, den_level, den_level]
      split
      case isTrue hg =>
        have hj : levelIndex s a ≠ f.index := by
          intro hj
          exact ha (hj ▸ child_of_shiftRight hs hg)
        rw [update_of_ne hj]
      case isFalse => rfl
    case isFalse => rfl

end Den

/-! ## Stores into the deepest slot -/

section Store

variable {root : Pte τ V}

/-- A store of a filled PTE into the deepest slot keeps the frames. -/
theorem framesOk_setAt {r : Pte τ V} (hr : r ≠ .empty) : ∀ {st : List Frame}, FramesOk root st →
    FramesOk (root.setAt (slotPath st) r) st
  | [], _ => trivial
  | f :: st, ⟨hst, hf⟩ => by
    obtain ⟨g, s, es, hq⟩ := hf.exists_level
    rw [hq] at hf
    obtain ⟨hst', hg, hs, h4, haddr, hshifts, hsib, -⟩ := hf
    rw [slotPath_cons, Pte.setAt_append, hq, Pte.setAt_singleton_level]
    refine ⟨framesOk_setAt (by simp) hst, ?_⟩
    rw [getAt_setAt_of_framesOk hst]
    refine ⟨hst', hg, hs, h4, haddr, hshifts, fun j hj => ?_, fun _ => ⟨f.index, ?_⟩⟩
    · rw [update_of_ne hj]
      exact hsib j hj
    · rw [update_self]
      exact hr

/-- `write_pte_to_level` keeps the frames: the deepest one is marked dirty. -/
theorem framesOk_write {r : Pte τ V} : ∀ {st : List Frame}, FramesOk root st →
    FramesOk (root.setAt (slotPath st) r) (markDirty st)
  | [], _ => trivial
  | f :: st, ⟨hst, hf⟩ => by
    obtain ⟨g, s, es, hq⟩ := hf.exists_level
    rw [hq] at hf
    obtain ⟨hst', hg, hs, h4, haddr, hshifts, hsib, -⟩ := hf
    simp only [markDirty]
    rw [slotPath_cons, Pte.setAt_append, hq, Pte.setAt_singleton_level]
    refine ⟨framesOk_setAt (by simp) hst, ?_⟩
    rw [getAt_setAt_of_framesOk hst]
    refine ⟨hst', hg, hs, h4, haddr, hshifts, fun j hj => ?_, fun hd => absurd hd (by simp)⟩
    rw [update_of_ne hj]
    exact hsib j hj

end Store

/-! ## The walk's moves -/

section Moves

variable {w : Walk τ V} {curr : Nat}

theorem Walk.Inv.writePteToLevel (hw : w.Inv curr) {r : Pte τ V}
    (hr : r.Wf (slotBlock w.stack) (getMaxEntryShifts w.stack)) :
    (w.writePteToLevel r).Inv curr where
  frames := framesOk_write hw.frames
  slot := by
    simp only [Walk.writePteToLevel, slotPath_markDirty, slotBlock_markDirty,
      getMaxEntryShifts_markDirty, getAt_setAt_of_framesOk hw.frames]
    exact hr
  addr_le := by
    intro f hf
    cases hs : w.stack with
    | nil => simp [Walk.writePteToLevel, hs, markDirty] at hf
    | cons f' st =>
      simp only [Walk.writePteToLevel, hs, markDirty, List.mem_cons] at hf
      rcases hf with rfl | hf
      · exact hw.addr_le f' (by simp [hs])
      · exact hw.addr_le f (by simp [hs, hf])

theorem Walk.den_writePteToLevel (h : GptHandlers τ V) (hw : w.Inv curr) {r : Pte τ V}
    (hr : r.Fits (slotBlock w.stack) (getMaxEntryShifts w.stack)) (a : Nat) :
    (w.writePteToLevel r).root.den h a =
      if a >>> getMaxEntryShifts w.stack = slotBlock w.stack then r.den h a else w.root.den h a :=
  den_setAt_of_framesOk h hw.fits_root hw.frames hr a

/-- Going down into the level in the deepest slot, whose block holds `curr`. -/
theorem Walk.Inv.goDownLevel (hw : w.Inv curr) {g s : Nat} {es : Fin 16 → Pte τ V}
    (hq : w.root.getAt (slotPath w.stack) = .level g s es) (hg : curr >>> s = g) :
    (w.goDownLevel (.level g s es)).Inv curr := by
  have hslot := hw.slot
  rw [hq] at hslot
  obtain ⟨⟨hst, hgk⟩, h4, hs, hes, hfilled⟩ := hslot
  have hf : FrameOk (⟨g <<< s, s - levelBits, 0, false⟩ : Frame) (.level g s es)
      (slotBlock w.stack) (getMaxEntryShifts w.stack) :=
    ⟨hst, hgk, hs, h4, rfl, rfl, fun j _ => hes j, fun _ => hfilled⟩
  refine ⟨⟨hw.frames, ?_⟩, ?_, ?_⟩
  · simp only [Walk.goDownLevel]
    rw [hq]
    exact hf
  · simp only [Walk.goDownLevel, slotPath_cons, Pte.getAt_append, hq, Pte.getAt_singleton,
      Pte.entry_level]
    obtain ⟨hblock, hshifts⟩ := hf.slotBlock_cons w.stack
    simp only [Pte.addr, Pte.guard_level, Pte.shifts_level] at hblock hshifts ⊢
    rw [hblock, hshifts]
    exact hes 0
  · intro f hf'
    simp only [Walk.goDownLevel, List.mem_cons] at hf'
    rcases hf' with rfl | hf'
    · exact Bits.shiftLeft_le_of_shiftRight_eq hg
    · exact hw.addr_le f hf'

/-- Moving to another entry of the deepest level. -/
theorem Walk.Inv.setIndex {root : Pte τ V} {f : Frame} {st : List Frame} (hw : Walk.Inv ⟨root, f :: st⟩ curr)
    (i : Fin 16) : Walk.Inv ⟨root, { f with index := i } :: st⟩ curr := by
  obtain ⟨⟨hst, hf⟩, hslot, haddr⟩ := hw
  obtain ⟨g, s, es, hq⟩ := hf.exists_level
  rw [hq] at hf
  obtain ⟨hblock, hshifts⟩ := hf.slotBlock_cons st
  have hcur : (es f.index).Wf (g * 16 + f.index) (s - 4) := by
    simpa only [slotPath_cons, Pte.getAt_append, hq, Pte.getAt_singleton, Pte.entry_level, hblock,
      hshifts] using hslot
  have hall := hf.wf_entry hcur
  obtain ⟨hst', hg, hs, h4, haddr', hshifts', -, hclean⟩ := hf
  refine ⟨⟨hst, ?_⟩, ?_, ?_⟩
  · rw [hq]
    exact ⟨hst', hg, hs, h4, haddr', hshifts', fun j _ => hall j, hclean⟩
  · have hf' : FrameOk { f with index := i } (.level g s es) (slotBlock st) (getMaxEntryShifts st) :=
      ⟨hst', hg, hs, h4, haddr', hshifts', fun j _ => hall j, hclean⟩
    obtain ⟨hblock', hshifts''⟩ := hf'.slotBlock_cons st
    simp only [slotPath_cons, Pte.getAt_append, hq, Pte.getAt_singleton, Pte.entry_level]
    rw [hblock', hshifts'']
    exact hall i
  · intro f' hf'
    simp only [List.mem_cons] at hf'
    rcases hf' with rfl | hf'
    · exact haddr f (by simp)
    · exact haddr f' (by simp [hf'])

end Moves

end Gunyah.Gpt

import Gunyah.Gpt.Failure

set_option autoImplicit false

/-!
# Reads of a GPT

A model of the read path of `hyp/misc/gpt/src/gpt.c`: `get_curr_pte` without `write`,
`handle_read` for the operations `GPT_READ_OP_LOOKUP` and `GPT_READ_OP_IS_CONTIGUOUS`, the loop of
`gpt_read`, and `gpt_lookup` and `gpt_is_contiguous` built on it. `GPT_READ_OP_WALK` (for
`gpt_walk`, built for unit tests only) and `GPT_READ_OP_DUMP_RANGE` (for the debug dumps) are
left out.

A read never writes, so the frames it pushes stay clean and its `get_curr_pte` pops them as the
write path does (`Walk.getCurrPteRead_eq`). Each step of a read either goes down a level or reads
a piece of the range on which the GPT maps one entry, offset along the piece (`ReadStepOk`,
`handleRead_spec`); `readLoop_spec` turns an invariant of the pieces into one of the whole read.
`gpt_lookup` returns the entry at `base` and the run from `base`, up to `max_size`, that maps it
offset along the run; `gpt_is_contiguous` says whether the range maps the entry so
(`gptRead_agrees`).

Reading needs of the handlers only that offsets add up and keep `gpt_values_equal`
(`GptHandlers.OffsetLaws`). A lookup compares each piece after the first with the entry it
started from, by `gpt_values_equal`; the first piece is that entry, whether or not
`gpt_values_equal` finds a value equal to itself. So the run holds the entry exactly on its first
piece and up to `values_equal` after it. Where no value is equal to itself, as for a type no
module subscribes to, the run is the first piece, however far the same entry goes on
(`gptLookup_vmmio_stops`).
-/

namespace Gunyah.Gpt

variable {τ V : Type}

/-- `gpt_read_op_t`, for the operations of `gpt_lookup` and `gpt_is_contiguous`. -/
inductive GptReadOp where
  | lookup
  | isContiguous
deriving DecidableEq, Repr

/-- `gpt_read_data_t`, without the callback and argument of `GPT_READ_OP_WALK`. -/
structure ReadData (τ V : Type) where
  entry : GptEntry τ V
  base : Nat
  size : Nat

/-- `gpt_lookup_result_t`. -/
structure GptLookupResult (τ V : Type) where
  entry : GptEntry τ V
  size : Nat

/-- The loop of `get_curr_pte` without `write`: pops frames until one has an entry for `curr`,
and returns the stack and that entry, or the root PTE. `go_up_level` without `write` only pops
the frame, whose dirty flag it asserts is clear. -/
def getCurrPteReadLoop (curr : Nat) (root : Pte τ V) : List Frame → List Frame × Pte τ V
  | [] => ([], root)
  | f :: stack =>
    let idx := (curr - f.addr) >>> f.shifts
    if hidx : idx < 16 then
      ({ f with index := ⟨idx, hidx⟩ } :: stack, (root.getAt (slotPath stack)).entry ⟨idx, hidx⟩)
    else getCurrPteReadLoop curr root stack

/-- `get_curr_pte` without `write`. -/
def Walk.getCurrPteRead (w : Walk τ V) (curr : Nat) : Walk τ V × Pte τ V :=
  let (stack, pte) := getCurrPteReadLoop curr w.root w.stack
  (⟨w.root, stack⟩, pte)

/-- No frame of the walk is marked dirty. -/
def Walk.Clean (w : Walk τ V) : Prop := ∀ f ∈ w.stack, f.dirty = false

section Model

variable (h : GptHandlers τ V) [DecidableEq τ]

/-- The entry a leaf PTE maps at `curr`: its type, and its value offset by the distance of `curr`
from the PTE's start. -/
def Pte.entryAt (q : Pte τ V) (curr : Nat) : GptEntry τ V :=
  match q with
  | .leaf _ _ t v => some (t, h.addOffset t v (curr - q.addr))
  | _ => none

/-- The end of `handle_read`: the entry `currEntry` is mapped, offset along the range, from `curr`
up to `endAddr`. It is compared with the entry the read expects at `curr`, `data.entry` offset by
`data.size`. The size of a step that fails is never read, so a failure carries none. -/
def readCompare (curr rem : Nat) (op : GptReadOp) (data : ReadData τ V) (currEntry : GptEntry τ V)
    (endAddr : Nat) : ReadData τ V × Except Error Nat :=
  let size := min (endAddr - curr) rem
  if entriesEqual h currEntry (entryAddOffset h data.entry data.size) then
    ({ data with size := data.size + size }, .ok size)
  else
    match op with
    | .lookup =>
      if data.base = curr then ({ data with entry := currEntry, size }, .ok size)
      else (data, .error .failure)
    | .isContiguous => (data, .error .failure)

/-- `handle_read`: one step of a read at `curr` with `rem` addresses left. Zero addresses done
means that the walk went down a level. -/
def handleRead (w : Walk τ V) (curr rem : Nat) (op : GptReadOp) (data : ReadData τ V) :
    Walk τ V × ReadData τ V × Except Error Nat :=
  let (w, pte) := w.getCurrPteRead curr
  match pte with
  | .empty =>
    -- The empty range ends at the next PTE.
    (w, readCompare h curr rem op data none (getNextPteBase w.stack curr))
  | _ =>
    if !pte.guardMatching curr then
      -- The current address isn't mapped in the GPT, so it is read as empty, up to the start of
      -- the PTE or the next PTE.
      (w, readCompare h curr rem op data none
        (if curr < pte.addr then pte.addr else getNextPteBase w.stack curr))
    else if pte.isLevel then (w.goDownLevel pte, data, .ok 0)
    else
      (w, readCompare h curr rem op data (pte.entryAt h curr)
        (FixedWidth.alignDown (curr + pte.size) pte.size))

/-- The loop of `gpt_read`, for at most `fuel` steps, from `base + offset`. -/
def readLoop (base size : Nat) (op : GptReadOp) :
    Nat → Walk τ V → Nat → ReadData τ V → Option (ReadData τ V × Error)
  | 0, _, _, _ => none
  | fuel + 1, w, offset, data =>
    if offset < size then
      match handleRead h w (base + offset) (size - offset) op data with
      | (_, data, .error e) => some (data, e)
      | (w, data, .ok r) => readLoop base size op fuel w (offset + r) data
    else some (data, .ok)

/-- `gpt_read`: checks the range as `gpt_write` does, then reads it from the root. Its loop runs
on the fuel of a write over the range, which bounds the steps of any walk over it. -/
def gptRead (g : Gpt τ V) (base size : Nat) (op : GptReadOp) (data : ReadData τ V) :
    Option (ReadData τ V × Error) :=
  if size == 0 || FixedWidth.addOverflows 64 base (size - 1) then some (data, .argumentInvalid)
  else if base + size - 1 > 2 ^ g.maxBits - 1 then some (data, .argumentSize)
  else readLoop h base size op (writeFuel size) ⟨g.root, []⟩ 0 data

/-- `gpt_lookup`: its `assert` on the error of the read fails with `none`. -/
def gptLookup (g : Gpt τ V) (base maxSize : Nat) : Option (GptLookupResult τ V) :=
  match gptRead h g base maxSize .lookup ⟨none, base, 0⟩ with
  | some (read, e) => if e = .ok ∨ e = .failure then some ⟨read.entry, read.size⟩ else none
  | none => none

/-- `gpt_is_contiguous`. -/
def gptIsContiguous (g : Gpt τ V) (base size : Nat) (entry : GptEntry τ V) : Option Bool :=
  if g.entryIsValid entry then
    (gptRead h g base size .isContiguous ⟨entry, 0, 0⟩).map fun r => decide (r.2 = .ok)
  else some false

end Model

/-! ## The walk of a read -/

section Walk

variable {h : GptHandlers τ V} [DecidableEq τ]

/-- On a clean stack, the loop of `get_curr_pte` with `write` only pops, as the read loop does. -/
theorem getCurrPteLoop_clean (curr : Nat) (root : Pte τ V) : ∀ st : List Frame,
    (∀ f ∈ st, f.dirty = false) →
    getCurrPteLoop h curr root st false =
      (⟨root, (getCurrPteReadLoop curr root st).1⟩, (getCurrPteReadLoop curr root st).2)
  | [], _ => rfl
  | f :: st, hst => by
    have hf : f.dirty = false := hst f List.mem_cons_self
    simp only [getCurrPteLoop, getCurrPteReadLoop, Bool.or_false]
    by_cases hidx : (curr - f.addr) >>> f.shifts < 16
    · rw [dif_pos hidx, dif_pos hidx]
    · rw [dif_neg hidx, dif_neg hidx]
      simp only [goUpLevel, hf, Bool.false_eq_true, if_false]
      exact getCurrPteLoop_clean curr root st fun f' hf' => hst f' (List.mem_cons_of_mem f hf')

omit [DecidableEq τ] in
/-- The read loop pops frames and sets an index, so a clean stack stays clean. -/
theorem getCurrPteReadLoop_clean (curr : Nat) (root : Pte τ V) : ∀ st : List Frame,
    (∀ f ∈ st, f.dirty = false) → ∀ f ∈ (getCurrPteReadLoop curr root st).1, f.dirty = false
  | [], _ => fun _ hf => absurd hf List.not_mem_nil
  | f :: st, hst => by
    simp only [getCurrPteReadLoop]
    split
    case isTrue =>
      intro f' hf'
      rcases List.mem_cons.1 hf' with rfl | hf'
      · exact hst f List.mem_cons_self
      · exact hst f' (List.mem_cons_of_mem f hf')
    case isFalse =>
      exact getCurrPteReadLoop_clean curr root st fun f' hf' => hst f' (List.mem_cons_of_mem f hf')

/-- On a clean walk, `get_curr_pte` without `write` is the one with it. -/
theorem Walk.getCurrPteRead_eq {w : Walk τ V} (hc : w.Clean) (curr : Nat) :
    w.getCurrPteRead curr = w.getCurrPte h curr := by
  simp only [Walk.getCurrPteRead, Walk.getCurrPte, getCurrPteLoop_clean curr w.root w.stack hc]

omit [DecidableEq τ] in
theorem Walk.Clean.getCurrPteRead {w : Walk τ V} (hc : w.Clean) (curr : Nat) :
    (w.getCurrPteRead curr).1.Clean :=
  getCurrPteReadLoop_clean curr w.root w.stack hc

omit [DecidableEq τ] in
theorem Walk.Clean.goDownLevel {w : Walk τ V} (hc : w.Clean) (pte : Pte τ V) :
    (w.goDownLevel pte).Clean := by
  intro f hf
  rcases List.mem_cons.1 hf with rfl | hf
  · rfl
  · exact hc f hf

end Walk

/-! ## The pieces a read reads -/

section Pieces

variable {h : GptHandlers τ V} [DecidableEq τ] {w : Walk τ V} {curr : Nat}

omit [DecidableEq τ] in
/-- Past `curr` in its slot, up to the next PTE, an empty slot maps nothing. -/
theorem piece_empty (hw : w.Inv curr) (hmem : w.InSlot curr) (hq : w.slotPte = .empty) :
    curr < getNextPteBase w.stack curr ∧
      ∀ a, curr ≤ a → a < getNextPteBase w.stack curr → w.root.den h a = none := by
  obtain ⟨hlt, hin⟩ := getNextPteBase_spec w.stack curr
  refine ⟨hlt, fun a ha ha' => ?_⟩
  rw [den_slot hw ((hin a ha ha').trans hmem), hq]
  rfl

omit [DecidableEq τ] in
/-- A filled PTE whose block does not hold `curr` maps nothing from `curr` up to its start, if it
starts after `curr`, and otherwise up to the next PTE. -/
theorem piece_mismatch (hw : w.Inv curr) (hmem : w.InSlot curr) {q : Pte τ V} (hq : w.slotPte = q)
    (hne : q ≠ .empty) (hg : curr >>> q.shifts ≠ q.guard) :
    curr < (if curr < q.addr then q.addr else getNextPteBase w.stack curr) ∧
      ∀ a, curr ≤ a → a < (if curr < q.addr then q.addr else getNextPteBase w.stack curr) →
        w.root.den h a = none := by
  have hwf : q.Wf (slotBlock w.stack) (getMaxEntryShifts w.stack) := hq ▸ hw.slot
  obtain ⟨hlt, hin⟩ := getNextPteBase_spec w.stack curr
  -- The PTE starts in the slot of `curr`, so before the next PTE.
  have haddr : q.addr < getNextPteBase w.stack curr := by
    have hk : q.addr >>> getMaxEntryShifts w.stack = curr >>> getMaxEntryShifts w.stack :=
      (hwf.1.shiftRight_eq hne q.addr_shiftRight).trans hmem.symm
    have := Bits.lt_shiftLeft_of_shiftRight_eq hk
    simpa only [getNextPteBase] using this
  -- `curr` lies before the block or past it.
  have hout : ¬ (q.addr ≤ curr ∧ curr < q.addr + 2 ^ q.shifts) := fun ⟨hlo, hhi⟩ => hg (by
    rw [Bits.mem_block_iff]
    simp only [Pte.addr, Nat.shiftLeft_eq] at hlo hhi
    exact ⟨hlo, by rw [Nat.succ_mul]; exact hhi⟩)
  split
  case isTrue hbefore =>
    refine ⟨hbefore, fun a ha ha' => ?_⟩
    rw [den_slot hw ((hin a ha (by omega)).trans hmem), hq]
    exact q.den_eq_none_of_not_mem h (by omega)
  case isFalse hafter =>
    refine ⟨hlt, fun a ha ha' => ?_⟩
    rw [den_slot hw ((hin a ha ha').trans hmem), hq]
    exact q.den_eq_none_of_not_mem h (by omega)

omit [DecidableEq τ] in
/-- A leaf whose block holds `curr` maps at `curr` the entry `entryAt` computes. -/
theorem den_leaf_entryAt (hw : w.Inv curr) {g s : Nat} {t : τ} {v : V}
    (hq : w.slotPte = .leaf g s t v) (hg : curr >>> s = g) :
    w.root.den h curr = (Pte.leaf g s t v).entryAt h curr := by
  have hwf : (Pte.leaf g s t v).Wf (slotBlock w.stack) (getMaxEntryShifts w.stack) := hq ▸ hw.slot
  rw [den_slot hw (hwf.1.shiftRight_eq (by simp) hg), hq, den_leaf, if_pos hg]
  rfl

omit [DecidableEq τ] in
/-- ... and that entry, offset along the rest of its block, where offsets add up. -/
theorem piece_leaf (ho : h.OffsetLaws) (hw : w.Inv curr) {g s : Nat} {t : τ} {v : V}
    (hq : w.slotPte = .leaf g s t v) (hg : curr >>> s = g) :
    curr < FixedWidth.alignDown (curr + (Pte.leaf g s t v : Pte τ V).size)
        (Pte.leaf g s t v : Pte τ V).size ∧
      ∀ a, curr ≤ a → a < FixedWidth.alignDown (curr + (Pte.leaf g s t v : Pte τ V).size)
          (Pte.leaf g s t v : Pte τ V).size →
        w.root.den h a = entryAddOffset h ((Pte.leaf g s t v).entryAt h curr) (a - curr) := by
  have hwf : (Pte.leaf g s t v).Wf (slotBlock w.stack) (getMaxEntryShifts w.stack) := hq ▸ hw.slot
  have hpos := Nat.two_pow_pos s
  obtain ⟨hlo, hhi⟩ := Bits.mem_block_iff.1 hg
  -- The block of the leaf ends at `(g + 1) * 2 ^ s`.
  have hend : FixedWidth.alignDown (curr + (Pte.leaf g s t v : Pte τ V).size)
      (Pte.leaf g s t v : Pte τ V).size = (g + 1) * 2 ^ s := by
    have hdiv : curr / 2 ^ s = g := by rw [← Nat.shiftRight_eq_div_pow]; exact hg
    simp only [FixedWidth.alignDown, Pte.size, Pte.shifts_leaf, Nat.add_div_right _ hpos, hdiv]
  rw [hend]
  refine ⟨hhi, fun a ha ha' => ?_⟩
  have hga : a >>> s = g := Bits.mem_block_iff.2 ⟨by omega, ha'⟩
  have hstart : g <<< s ≤ curr := by rw [Nat.shiftLeft_eq]; exact hlo
  rw [den_slot hw (hwf.1.shiftRight_eq (by simp) hga), hq, den_leaf, if_pos hga]
  simp only [Pte.entryAt, Pte.addr, Pte.guard_leaf, Pte.shifts_leaf, entryAddOffset,
    ho.addOffset_add, Option.some.injEq, Prod.mk.injEq, true_and]
  congr 1
  omega

end Pieces

/-! ## A step of a read -/

section Step

variable (h : GptHandlers τ V) [DecidableEq τ]

/-- The outcomes of one step of a read at `curr` with `rem` addresses left, on a tree with root
`root`, where `m` is the step's measure. -/
inductive ReadStepOk (root : Pte τ V) (m curr rem : Nat) (op : GptReadOp) (data : ReadData τ V) :
    Walk τ V × ReadData τ V × Except Error Nat → Prop
  /-- Down a level, with the measure lower. -/
  | down {w : Walk τ V} (hroot : w.root = root) (hw : w.Inv curr) (hc : w.Clean)
      (hm : stepMeasure h w curr < m) : ReadStepOk root m curr rem op data (w, data, .ok 0)
  /-- A piece from `curr` up to `endAddr` on which the tree maps `E`, offset along the piece,
  starting with `E` itself. -/
  | piece {w : Walk τ V} {E : GptEntry τ V} {endAddr : Nat} (hroot : w.root = root)
      (hw : w.Inv curr) (hc : w.Clean) (hlt : curr < endAddr) (hstart : root.den h curr = E)
      (hden : ∀ a, curr ≤ a → a < endAddr → root.den h a = entryAddOffset h E (a - curr)) :
      ReadStepOk root m curr rem op data (w, readCompare h curr rem op data E endAddr)

end Step

section StepSpec

variable {h : GptHandlers τ V} [DecidableEq τ] (ho : h.OffsetLaws) {w : Walk τ V} {curr rem : Nat}
  {op : GptReadOp} {data : ReadData τ V}
include ho

/-- Every step of a read on a clean walk has one of the outcomes of `ReadStepOk`. -/
theorem handleRead_spec (hw : w.Inv curr) (hc : w.Clean) (hcurr : curr < 2 ^ maxSizeBits) :
    ReadStepOk h w.root (stepMeasure h w curr) curr rem op data (handleRead h w curr rem op data) := by
  have hcp := Walk.getCurrPte_spec (h := h) hcurr hw
  have hc₁ := hc.getCurrPteRead curr
  rw [Walk.getCurrPteRead_eq hc] at hc₁
  rcases hp : w.getCurrPte h curr with ⟨w₁, pte⟩
  rw [hp] at hcp hc₁
  obtain ⟨hw₁, hmem, hq, -⟩ := hcp
  simp only at hw₁ hmem hq hc₁
  -- A read does not change the tree.
  have hroot : w₁.root = w.root := by
    have h₁ : (w.getCurrPteRead curr).1.root = w.root := rfl
    rwa [Walk.getCurrPteRead_eq (h := h) hc, hp] at h₁
  have hm : stepMeasure h w curr = stepMeasure h w₁ curr := by
    rw [stepMeasure_of_mem hw₁ hmem]
    simp only [stepMeasure, hp, Walk.slotPte, ← hq]
  simp only [handleRead, Walk.getCurrPteRead_eq (h := h) hc, hp]
  rw [← hroot]
  -- The cases of `handle_read`: by the kind of PTE, and whether its block holds `curr`.
  cases pte with
  | empty =>
    obtain ⟨hlt, hden⟩ := piece_empty (h := h) hw₁ hmem hq.symm
    exact .piece rfl hw₁ hc₁ hlt (hden curr (Nat.le_refl _) hlt) fun a ha ha' => by
      rw [hden a ha ha']; rfl
  | leaf g s t v =>
    by_cases hg : curr >>> s = g
    · have hgm : (Pte.leaf g s t v).guardMatching curr = true := by simp [Pte.guardMatching, hg]
      simp only [hgm, Bool.not_true, Bool.false_eq_true, if_false, Pte.isLevel]
      obtain ⟨hlt, hden⟩ := piece_leaf ho hw₁ hq.symm hg
      exact .piece rfl hw₁ hc₁ hlt (den_leaf_entryAt hw₁ hq.symm hg) hden
    · have hgm : (Pte.leaf g s t v).guardMatching curr = false := by simp [Pte.guardMatching, hg]
      simp only [hgm, Bool.not_false, if_true]
      obtain ⟨hlt, hden⟩ := piece_mismatch (h := h) hw₁ hmem hq.symm (by simp) hg
      exact .piece rfl hw₁ hc₁ hlt (hden curr (Nat.le_refl _) hlt) fun a ha ha' => by
        rw [hden a ha ha']; rfl
  | level g s es =>
    by_cases hg : curr >>> s = g
    · -- Down into the level: the slot's shifts drop by at least 4.
      have hgm : (Pte.level g s es).guardMatching curr = true := by simp [Pte.guardMatching, hg]
      simp only [hgm, Bool.not_true, Bool.false_eq_true, if_false, Pte.isLevel, if_true]
      have hwf : (Pte.level g s es).Wf (slotBlock w₁.stack) (getMaxEntryShifts w₁.stack) :=
        hq ▸ hw₁.slot
      obtain ⟨⟨hst, -⟩, -, hs, -⟩ := hwf
      refine .down rfl (hw₁.goDownLevel hq.symm hg) (hc₁.goDownLevel _) ?_
      have hdown : stepMeasure h (w₁.goDownLevel (.level g s es)) curr ≤ 2 * (s - 4) + 1 :=
        stepMeasure_goDownLevel hs hg
      rw [hm, stepMeasure_of_mem hw₁ hmem]
      simp only [Walk.slotPte, ← hq, Pte.isLevel, hgm, Bool.and_self, if_true]
      omega
    · have hgm : (Pte.level g s es).guardMatching curr = false := by simp [Pte.guardMatching, hg]
      simp only [hgm, Bool.not_false, if_true]
      obtain ⟨hlt, hden⟩ := piece_mismatch (h := h) hw₁ hmem hq.symm (by simp) hg
      exact .piece rfl hw₁ hc₁ hlt (hden curr (Nat.le_refl _) hlt) fun a ha ha' => by
        rw [hden a ha ha']; rfl

end StepSpec

/-! ## The loop of a read -/

section Loop

variable {h : GptHandlers τ V} [DecidableEq τ]

/-- A step that reads a piece does `min (endAddr - curr) rem` addresses. -/
theorem readCompare_ok_size {curr rem endAddr r : Nat} {op : GptReadOp} {data data' : ReadData τ V}
    {E : GptEntry τ V} (hr : readCompare h curr rem op data E endAddr = (data', .ok r)) :
    r = min (endAddr - curr) rem := by
  unfold readCompare at hr
  split at hr
  case isTrue => exact (Except.ok.inj (Prod.mk.inj hr).2).symm
  case isFalse =>
    cases op with
    | lookup =>
      simp only at hr
      split at hr
      case isTrue => exact (Except.ok.inj (Prod.mk.inj hr).2).symm
      case isFalse => cases (Prod.mk.inj hr).2
    | isContiguous => cases (Prod.mk.inj hr).2

variable (ho : h.OffsetLaws) {root : Pte τ V} {base size : Nat} {op : GptReadOp}
include ho

/-- The loop of `gpt_read` with more fuel than the steps it can take ends, and keeps what each
piece it reads keeps: `I` of the part read and the data, and `F` of the data and the error at
the end. The fuel needed is 106 per address left plus the measure of the current step. -/
theorem readLoop_spec (hend : base + size ≤ 2 ^ maxSizeBits)
    (I : Nat → ReadData τ V → Prop) (F : ReadData τ V → Error → Prop)
    (hpiece : ∀ offset data E endAddr data' res, I offset data → offset < size →
      base + offset < endAddr → root.den h (base + offset) = E →
      (∀ a, base + offset ≤ a → a < endAddr →
        root.den h a = entryAddOffset h E (a - (base + offset))) →
      readCompare h (base + offset) (size - offset) op data E endAddr = (data', res) →
      (∀ r, res = .ok r → I (offset + r) data') ∧ (∀ e, res = .error e → F data' e))
    (hdone : ∀ offset data, I offset data → size ≤ offset → F data .ok) :
    ∀ (fuel : Nat) (w : Walk τ V) (offset : Nat) (data : ReadData τ V), w.root = root →
      w.Inv (base + offset) → w.Clean → I offset data →
      (size - offset) * 106 + (if offset < size then stepMeasure h w (base + offset) else 0) < fuel →
      ∃ data' e, readLoop h base size op fuel w offset data = some (data', e) ∧ F data' e
  | 0, _, _, _, _, _, _, _, hfuel => absurd hfuel (Nat.not_lt_zero _)
  | fuel + 1, w, offset, data, hroot, hw, hc, hI, hfuel => by
    by_cases hoff : offset < size
    case neg =>
      exact ⟨data, .ok, by simp only [readLoop, if_neg hoff], hdone offset data hI (by omega)⟩
    case pos =>
      rw [if_pos hoff] at hfuel
      have hcurr : base + offset < 2 ^ maxSizeBits := by omega
      have hstep : ReadStepOk h w.root (stepMeasure h w (base + offset)) (base + offset)
          (size - offset) op data (handleRead h w (base + offset) (size - offset) op data) :=
        handleRead_spec ho hw hc hcurr
      generalize hres : handleRead h w (base + offset) (size - offset) op data = res at hstep
      rw [hroot] at hstep
      -- One case per outcome of the step.
      cases hstep with
      | down hroot' hw' hc' hm =>
        obtain ⟨data', e, hrun, hF⟩ := readLoop_spec hend I F hpiece hdone fuel _ offset data
          hroot' hw' hc' hI (by rw [if_pos hoff]; omega)
        refine ⟨data', e, ?_, hF⟩
        simp only [readLoop, if_pos hoff, hres, Nat.add_zero]
        exact hrun
      | @piece w' E endAddr hroot' hw' hc' hlt hstart hden =>
        generalize hcmp : readCompare h (base + offset) (size - offset) op data E endAddr = cmp at hres
        obtain ⟨data', res⟩ := cmp
        obtain ⟨hok, herr⟩ := hpiece offset data E endAddr data' res hI hoff hlt hstart hden hcmp
        cases res with
        | error e => exact ⟨data', e, by simp only [readLoop, if_pos hoff, hres], herr e rfl⟩
        | ok r =>
          -- The piece is not empty, so the loop advances.
          have hr : r = min (endAddr - (base + offset)) (size - offset) := readCompare_ok_size hcmp
          have hr0 : 0 < r := by
            rw [hr]
            exact Nat.lt_min.2 ⟨by omega, by omega⟩
          have hfuel' : (size - (offset + r)) * 106 +
              (if offset + r < size then stepMeasure h w' (base + (offset + r)) else 0) < fuel := by
            split
            case isTrue hlt' =>
              have := stepMeasure_le (h := h) (hw'.mono (show base + offset ≤ base + (offset + r) by omega))
                (show base + (offset + r) < 2 ^ maxSizeBits by omega)
              omega
            case isFalse => omega
          obtain ⟨data'', e, hrun, hF⟩ := readLoop_spec hend I F hpiece hdone fuel w' (offset + r)
            data' hroot' (hw'.mono (by omega)) hc' (hok r rfl) hfuel'
          refine ⟨data'', e, ?_, hF⟩
          simp only [readLoop, if_pos hoff, hres]
          exact hrun

/-- A piece read as equal to the entry expected extends a run of addresses that map `e`, offset
along the run: what the run says of its addresses (`P`), the piece says up to `values_equal`. -/
theorem run_extend {P : Nat → Prop} {e E : GptEntry τ V} {offset endAddr : Nat}
    (hP : ∀ i, EntryEq h (root.den h (base + i)) (entryAddOffset h e i) → P i)
    (hrun : ∀ i, i < offset → P i) (heq : EntryEq h E (entryAddOffset h e offset))
    (hden : ∀ a, base + offset ≤ a → a < endAddr →
      root.den h a = entryAddOffset h E (a - (base + offset)))
    {r : Nat} (hr : base + offset + r ≤ endAddr) : ∀ i, i < offset + r → P i := by
  intro i hi
  by_cases hio : i < offset
  · exact hrun i hio
  · have hk : base + i - (base + offset) = i - offset := by omega
    refine hP i ?_
    rw [hden (base + i) (by omega) (by omega), hk]
    have h₂ := EntryEq.addOffset ho heq (i - offset)
    rwa [entryAddOffset_add ho, Nat.add_sub_cancel' (by omega : offset ≤ i)] at h₂

end Loop

/-! ## `gpt_lookup` and `gpt_is_contiguous` -/

section Ops

variable (h : GptHandlers τ V) [DecidableEq τ]

/-- What a lookup from `base` keeps after `offset` addresses: the data holds the read's base and
the size read, its entry is empty before the first piece and the entry at `base` after it, and
the addresses read map that entry, offset, exactly or up to `values_equal`. -/
structure LookupInv (root : Pte τ V) (base size offset : Nat) (data : ReadData τ V) : Prop where
  base_eq : data.base = base
  size_eq : data.size = offset
  le : offset ≤ size
  entry_none : offset = 0 → data.entry = none
  entry_eq : 0 < offset → data.entry = root.den h base
  run : ∀ i, i < offset → root.den h (base + i) = entryAddOffset h data.entry i ∨
    EntryEq h (root.den h (base + i)) (entryAddOffset h data.entry i)

/-- How a lookup ends: with `OK` or `ERROR_FAILURE`, the entry at `base`, and a size up to
`size` over which the addresses map that entry, offset, exactly or up to `values_equal`, and past
which the next one does not map it up to `values_equal`. -/
def LookupEnd (root : Pte τ V) (base size : Nat) (data : ReadData τ V) (e : Error) : Prop :=
  (e = .ok ∨ e = .failure) ∧ data.entry = root.den h base ∧ data.size ≤ size ∧
    (∀ i, i < data.size → root.den h (base + i) = entryAddOffset h data.entry i ∨
      EntryEq h (root.den h (base + i)) (entryAddOffset h data.entry i)) ∧
    (data.size < size → ¬ EntryEq h (root.den h (base + data.size)) (entryAddOffset h data.entry data.size))

/-- What `gpt_is_contiguous` keeps after `offset` addresses: they map `e`, offset. -/
structure ContigInv (root : Pte τ V) (base size : Nat) (e : GptEntry τ V) (offset : Nat)
    (data : ReadData τ V) : Prop where
  entry_eq : data.entry = e
  size_eq : data.size = offset
  le : offset ≤ size
  run : ∀ i, i < offset → EntryEq h (root.den h (base + i)) (entryAddOffset h e i)

/-- How `gpt_is_contiguous` ends: with `OK` exactly when the range maps `e`, offset. -/
def ContigEnd (root : Pte τ V) (base size : Nat) (e : GptEntry τ V) (err : Error) : Prop :=
  err = .ok ↔ ∀ i, i < size → EntryEq h (root.den h (base + i)) (entryAddOffset h e i)

variable {h} (ho : h.OffsetLaws) {root : Pte τ V} {base size : Nat}
include ho

/-- A piece read by a lookup: an equal entry extends the run, a first piece sets the entry, and
any other stops the lookup where the run ends. -/
theorem lookupInv_piece {offset : Nat} {data data' : ReadData τ V} {E : GptEntry τ V}
    {endAddr : Nat} {res : Except Error Nat} (hI : LookupInv h root base size offset data)
    (hoff : offset < size) (hlt : base + offset < endAddr) (hE : root.den h (base + offset) = E)
    (hden : ∀ a, base + offset ≤ a → a < endAddr →
      root.den h a = entryAddOffset h E (a - (base + offset)))
    (hcmp : readCompare h (base + offset) (size - offset) .lookup data E endAddr = (data', res)) :
    (∀ r, res = .ok r → LookupInv h root base size (offset + r) data') ∧
      (∀ e, res = .error e → LookupEnd h root base size data' e) := by
  unfold readCompare at hcmp
  split at hcmp
  case isTrue heq =>
    -- The piece maps the entry of the run: the run grows by the piece.
    obtain ⟨rfl, rfl⟩ := Prod.mk.inj hcmp
    refine ⟨fun r hr => ?_, fun e he => by cases he⟩
    obtain rfl := Except.ok.inj hr
    rw [hI.size_eq] at heq
    refine ⟨hI.base_eq, by simp [hI.size_eq], by omega, fun h0 => by omega, fun _ => ?_,
      run_extend ho (fun _ => Or.inr) hI.run heq hden (by omega)⟩
    by_cases h0 : offset = 0
    · -- The first piece is empty, as the entry the lookup starts with.
      subst h0
      have hnone : EntryEq h E none := by
        have h₁ : EntryEq h E (entryAddOffset h data.entry 0) := heq
        rwa [hI.entry_none rfl, entryAddOffset_none] at h₁
      rw [entryEq_none_right] at hnone
      rw [Nat.add_zero] at hE
      rw [hI.entry_none rfl, hE, hnone]
    · exact hI.entry_eq (by omega)
  case isFalse hne =>
    simp only at hcmp
    split at hcmp
    case isTrue hbase =>
      -- The first piece maps a filled entry: the lookup takes it.
      obtain ⟨rfl, rfl⟩ := Prod.mk.inj hcmp
      have h0 : offset = 0 := by
        have := hI.base_eq
        omega
      subst h0
      refine ⟨fun r hr => ?_, fun e he => by cases he⟩
      obtain rfl := Except.ok.inj hr
      rw [Nat.add_zero] at hE hden hlt
      -- The run holds the entry exactly on this piece, which need not equal itself.
      refine ⟨hI.base_eq, by simp, by omega, fun h0 => by omega, fun _ => hE.symm,
        fun i hi => Or.inl ?_⟩
      rw [hden (base + i) (by omega) (by omega), Nat.add_sub_cancel_left]
    case isFalse hbase =>
      -- A later piece maps another entry: the run ends at `base + offset`.
      obtain ⟨rfl, rfl⟩ := Prod.mk.inj hcmp
      refine ⟨fun r hr => (by cases hr), fun e he => ?_⟩
      obtain rfl := Except.error.inj he
      have h0 : 0 < offset := by
        have := hI.base_eq
        omega
      refine ⟨Or.inr rfl, hI.entry_eq h0, (by rw [hI.size_eq]; omega), (by rw [hI.size_eq]; exact hI.run),
        fun _ => ?_⟩
      rw [hI.size_eq, hE]
      rw [hI.size_eq] at hne
      exact hne

omit ho in
/-- A lookup that read the whole range read one run. -/
theorem lookupInv_done {offset : Nat} {data : ReadData τ V}
    (hI : LookupInv h root base size offset data) (hpos : 0 < size) (hle : size ≤ offset) :
    LookupEnd h root base size data .ok := by
  have hsize : offset = size := Nat.le_antisymm hI.le hle
  refine ⟨Or.inl rfl, hI.entry_eq (by omega), (by rw [hI.size_eq]; omega),
    (by rw [hI.size_eq]; exact hI.run), fun hlt => ?_⟩
  rw [hI.size_eq] at hlt
  omega

/-- A piece read by `gpt_is_contiguous`: an equal entry extends the run, any other ends the read
with `ERROR_FAILURE` at an address that does not map `e`. -/
theorem contigInv_piece {e : GptEntry τ V} {offset : Nat} {data data' : ReadData τ V}
    {E : GptEntry τ V} {endAddr : Nat} {res : Except Error Nat}
    (hI : ContigInv h root base size e offset data) (hoff : offset < size)
    (hlt : base + offset < endAddr) (hE : root.den h (base + offset) = E)
    (hden : ∀ a, base + offset ≤ a → a < endAddr →
      root.den h a = entryAddOffset h E (a - (base + offset)))
    (hcmp : readCompare h (base + offset) (size - offset) .isContiguous data E endAddr =
      (data', res)) :
    (∀ r, res = .ok r → ContigInv h root base size e (offset + r) data') ∧
      (∀ err, res = .error err → ContigEnd h root base size e err) := by
  unfold readCompare at hcmp
  split at hcmp
  case isTrue heq =>
    obtain ⟨rfl, rfl⟩ := Prod.mk.inj hcmp
    refine ⟨fun r hr => ?_, fun err he => by cases he⟩
    obtain rfl := Except.ok.inj hr
    rw [hI.size_eq, hI.entry_eq] at heq
    exact ⟨hI.entry_eq, by simp [hI.size_eq], by omega,
      run_extend ho (fun _ => id) hI.run heq hden (by omega)⟩
  case isFalse hne =>
    obtain ⟨rfl, rfl⟩ := Prod.mk.inj hcmp
    refine ⟨fun r hr => (by cases hr), fun err he => ?_⟩
    obtain rfl := Except.error.inj he
    refine ⟨fun h₀ => (by cases h₀), fun hall => absurd ?_ hne⟩
    have hat := hall offset hoff
    rw [hE] at hat
    rw [hI.size_eq, hI.entry_eq]
    exact hat

omit ho in
/-- `gpt_is_contiguous` that read the whole range found `e` on all of it. -/
theorem contigInv_done {e : GptEntry τ V} {offset : Nat} {data : ReadData τ V}
    (hI : ContigInv h root base size e offset data) (hle : size ≤ offset) :
    ContigEnd h root base size e .ok :=
  ⟨fun _ i hi => hI.run i (by omega), fun _ => rfl⟩

end Ops

/-! ## Reads agree with the map -/

section Agree

variable {h : GptHandlers τ V} [DecidableEq τ]

/-- On a range that passes its checks, `gpt_read` is its loop from the root, and the loop starts
with its invariant and fuel enough. -/
theorem gptRead_start {g : Gpt τ V} (hwf : g.root.Wf 0 maxSizeBits) (hbits : g.maxBits ≤ maxSizeBits)
    {base size : Nat} (hpos : 0 < size) (hend : base + size ≤ 2 ^ g.maxBits) :
    (∀ op data, gptRead h g base size op data =
      readLoop h base size op (writeFuel size) ⟨g.root, []⟩ 0 data) ∧
      Walk.Inv (⟨g.root, []⟩ : Walk τ V) (base + 0) ∧ Walk.Clean (⟨g.root, []⟩ : Walk τ V) ∧
      (size - 0) * 106 + (if 0 < size then stepMeasure h ⟨g.root, []⟩ (base + 0) else 0) <
        writeFuel size := by
  obtain ⟨hinv, hbig⟩ := (writeChecks_pass_iff (Nat.le_trans hbits (by decide))).2 ⟨hpos, hend⟩
  have hw : Walk.Inv (⟨g.root, []⟩ : Walk τ V) (base + 0) :=
    ⟨trivial, hwf, fun _ hf => absurd hf List.not_mem_nil⟩
  refine ⟨fun op data => by rw [gptRead, if_neg hinv, if_neg hbig], hw,
    fun _ hf => absurd hf List.not_mem_nil, ?_⟩
  have hend' : base + 0 < 2 ^ maxSizeBits := by
    have := Nat.pow_le_pow_right (show 0 < 2 by decide) hbits
    omega
  have := stepMeasure_le (h := h) hw hend'
  simp only [writeFuel, if_pos hpos]
  omega

variable (ho : h.OffsetLaws)
include ho

/-- `gpt_lookup` from empty data at `base` returns the entry the GPT maps there and a size up to
`max_size` over which the GPT maps that entry, offset, exactly or up to `values_equal`, and past
which it does not map it up to `values_equal`. -/
theorem gptLookup_agrees {g : Gpt τ V} (hwf : g.root.Wf 0 maxSizeBits)
    (hbits : g.maxBits ≤ maxSizeBits) {base size : Nat} (hpos : 0 < size)
    (hend : base + size ≤ 2 ^ g.maxBits) :
    ∃ r, gptLookup h g base size = some r ∧ r.entry = g.root.den h base ∧ r.size ≤ size ∧
      (∀ i, i < r.size → g.root.den h (base + i) = entryAddOffset h r.entry i ∨
        EntryEq h (g.root.den h (base + i)) (entryAddOffset h r.entry i)) ∧
      (r.size < size →
        ¬ EntryEq h (g.root.den h (base + r.size)) (entryAddOffset h r.entry r.size)) := by
  obtain ⟨hread, hw, hc, hfuel⟩ := gptRead_start hwf hbits hpos hend
  obtain ⟨data, e, hrun, he, hentry, hle, hrun', hstop⟩ :=
    readLoop_spec ho (end_le_two_pow_maxSizeBits hbits hend) (LookupInv h g.root base size)
      (LookupEnd h g.root base size)
      (fun _ _ _ _ _ _ hI hoff hlt hE hden hcmp => lookupInv_piece ho hI hoff hlt hE hden hcmp)
      (fun _ _ hI hle => lookupInv_done hI hpos hle) _ _ 0 ⟨none, base, 0⟩ rfl hw hc
      ⟨rfl, rfl, Nat.zero_le _, fun _ => rfl, fun h0 => absurd h0 (Nat.lt_irrefl 0),
        fun _ hi => absurd hi (Nat.not_lt_zero _)⟩ hfuel
  refine ⟨⟨data.entry, data.size⟩, ?_, hentry, hle, hrun', hstop⟩
  simp only [gptLookup, hread, hrun, he, if_true]

/-- `gpt_is_contiguous` returns true exactly for an allowed entry that the GPT maps, offset, over
the whole range; it reads the GPT only for an allowed entry. -/
theorem gptIsContiguous_agrees {g : Gpt τ V} (hwf : g.root.Wf 0 maxSizeBits)
    (hbits : g.maxBits ≤ maxSizeBits) {base size : Nat} (hpos : 0 < size)
    (hend : base + size ≤ 2 ^ g.maxBits) (e : GptEntry τ V) :
    ∃ b, gptIsContiguous h g base size e = some b ∧
      (b = true ↔ g.entryIsValid e = true ∧
        ∀ i, i < size → EntryEq h (g.root.den h (base + i)) (entryAddOffset h e i)) := by
  by_cases hv : g.entryIsValid e = true
  · obtain ⟨hread, hw, hc, hfuel⟩ := gptRead_start hwf hbits hpos hend
    obtain ⟨data, err, hrun, hfin⟩ :=
      readLoop_spec ho (end_le_two_pow_maxSizeBits hbits hend) (ContigInv h g.root base size e)
        (fun _ => ContigEnd h g.root base size e)
        (fun _ _ _ _ _ _ hI hoff hlt hE hden hcmp => contigInv_piece ho hI hoff hlt hE hden hcmp)
        (fun _ _ hI hle => contigInv_done hI hle) _ _ 0 ⟨e, 0, 0⟩ rfl hw hc
        ⟨rfl, rfl, Nat.zero_le _, fun _ hi => absurd hi (Nat.not_lt_zero _)⟩ hfuel
    refine ⟨decide (err = .ok), by simp only [gptIsContiguous, hv, if_true, hread, hrun,
      Option.map_some], ?_⟩
    have hfin' : err = .ok ↔ _ := hfin
    rw [decide_eq_true_iff, hfin']
    exact ⟨fun hall => ⟨hv, hall⟩, fun h₂ => h₂.2⟩
  · refine ⟨false, by simp only [gptIsContiguous, hv, Bool.false_eq_true, if_false], ?_⟩
    simp only [Bool.false_eq_true, false_iff, not_and]
    exact fun hv' => absurd hv' hv

/-- On every reached GPT, with handlers whose offsets add up and keep `values_equal`, and every
range that is not empty and ends by `2 ^ max_bits`: `gpt_lookup` returns the entry the GPT maps at
`base` and a size up to `max_size` over which the GPT maps that entry, offset, exactly or up to
`values_equal`, and past which it does not map it up to `values_equal`; and `gpt_is_contiguous`
returns true exactly for an allowed entry that the GPT maps, offset, up to `values_equal`, over the
whole range. -/
theorem gptRead_agrees {g : Gpt τ V} (hg : Reachable h g) {base size : Nat} (hpos : 0 < size)
    (hend : base + size ≤ 2 ^ g.maxBits) :
    (∃ r, gptLookup h g base size = some r ∧ r.entry = g.root.den h base ∧ r.size ≤ size ∧
      (∀ i, i < r.size → g.root.den h (base + i) = entryAddOffset h r.entry i ∨
        EntryEq h (g.root.den h (base + i)) (entryAddOffset h r.entry i)) ∧
      (r.size < size →
        ¬ EntryEq h (g.root.den h (base + r.size)) (entryAddOffset h r.entry r.size))) ∧
    ∀ e, ∃ b, gptIsContiguous h g base size e = some b ∧
      (b = true ↔ g.entryIsValid e = true ∧
        ∀ i, i < size → EntryEq h (g.root.den h (base + i)) (entryAddOffset h e i)) := by
  obtain ⟨hwf, hbits⟩ := hg.wf
  exact ⟨gptLookup_agrees ho hwf hbits hpos hend, gptIsContiguous_agrees ho hwf hbits hpos hend⟩

end Agree

/-! ## A type no module subscribes to -/

theorem vmmioHandlers_offsetLaws : vmmioHandlers.OffsetLaws where
  addOffset_add _ _ _ _ := rfl
  valuesEqual_addOffset _ _ _ _ hv := hv

/-- The range `[0, 32)` inserted with one entry, as two leaves of 16 addresses. A lookup from 0
of at most 32 addresses returns that entry and a size over which the GPT maps it. -/
theorem gptRead_agrees_vmmio :
    ∃ g, runCalls vmmioHandlers ⟨.empty, 52, fun _ => true⟩ [.insert 0 32 (some ((), 0)) true] =
        some ([.ok], g) ∧
      ∃ r, gptLookup vmmioHandlers g 0 32 = some r ∧ r.entry = some ((), 0) ∧ r.size ≤ 32 ∧
        ∀ i, i < r.size → g.root.den vmmioHandlers i = some ((), 0) := by
  obtain ⟨g, hg⟩ : ∃ g, runCalls vmmioHandlers ⟨.empty, 52, fun _ => true⟩
      [.insert 0 32 (some ((), 0)) true] = some ([.ok], g) := ⟨_, rfl⟩
  have hinit : (gptInit 52 (fun _ => true) : Except Error (Gpt Unit Nat)) =
      .ok ⟨.empty, 52, fun _ => true⟩ := rfl
  have hfacts : (runCalls vmmioHandlers ⟨.empty, 52, fun _ => true⟩
      [.insert 0 32 (some ((), 0)) true]).map
        (fun p => (p.2.maxBits, p.2.root.den vmmioHandlers 0)) = some (52, some ((), 0)) := by
    decide
  rw [hg] at hfacts
  simp only [Option.map_some, Option.some.injEq, Prod.mk.injEq] at hfacts
  obtain ⟨hbits, hden⟩ := hfacts
  obtain ⟨⟨r, hlook, hentry, hle, hrun, -⟩, -⟩ := gptRead_agrees vmmioHandlers_offsetLaws
    (Reachable.runCalls _ (.init hinit) hg) (show (0 : Nat) < 32 by decide)
    (show 0 + 32 ≤ 2 ^ g.maxBits by rw [hbits]; decide)
  refine ⟨g, hg, r, hlook, hentry.trans hden, hle, fun i hi => ?_⟩
  rw [hentry, hden] at hrun
  simp only [Nat.zero_add] at hrun
  rcases hrun i hi with hi' | hi'
  · exact hi'
  · -- No value is equal to another, so no address is read up to `values_equal`.
    rcases hdi : g.root.den vmmioHandlers i with _ | ⟨t, v⟩ <;> rw [hdi] at hi' <;>
      simp [EntryEq, entriesEqual, entryAddOffset, vmmioHandlers] at hi'

/-- The same GPT maps the entry, offset, exactly at each of the 32 addresses, yet the lookup stops
after the first leaf: `gpt_values_equal` does not find the second leaf's value equal to the entry
offset, as it finds no value equal to itself. -/
theorem gptLookup_vmmio_stops :
    ∃ g, runCalls vmmioHandlers ⟨.empty, 52, fun _ => true⟩ [.insert 0 32 (some ((), 0)) true] =
        some ([.ok], g) ∧
      (∀ i, i < 32 → g.root.den vmmioHandlers i = entryAddOffset vmmioHandlers (some ((), 0)) i) ∧
      gptLookup vmmioHandlers g 0 32 = some ⟨some ((), 0), 16⟩ ∧
      ¬ EntryEq vmmioHandlers (g.root.den vmmioHandlers 0) (g.root.den vmmioHandlers 0) := by
  obtain ⟨g, hg⟩ : ∃ g, runCalls vmmioHandlers ⟨.empty, 52, fun _ => true⟩
      [.insert 0 32 (some ((), 0)) true] = some ([.ok], g) := ⟨_, rfl⟩
  have hfacts : (runCalls vmmioHandlers ⟨.empty, 52, fun _ => true⟩
      [.insert 0 32 (some ((), 0)) true]).map (fun p =>
        ((List.range 32).all fun i => p.2.root.den vmmioHandlers i == some ((), 0),
          (gptLookup vmmioHandlers p.2 0 32).map fun r => (r.entry, r.size))) =
      some (true, some (some ((), 0), 16)) := by decide
  rw [hg] at hfacts
  simp only [Option.map_some, Option.some.injEq, Prod.mk.injEq] at hfacts
  obtain ⟨hall, hlook⟩ := hfacts
  have hall' : ∀ i, i < 32 → g.root.den vmmioHandlers i = some ((), 0) := fun i hi => by
    simpa using List.all_eq_true.1 hall i (List.mem_range.2 hi)
  refine ⟨g, hg, fun i hi => by rw [hall' i hi]; rfl, ?_, ?_⟩
  · obtain ⟨r, hr, hrs⟩ := Option.map_eq_some_iff.1 hlook
    simp only [Prod.mk.injEq] at hrs
    rw [hr, ← hrs.1, ← hrs.2]
  · rw [hall' 0 (by decide)]
    simp [EntryEq, entriesEqual, vmmioHandlers]

end Gunyah.Gpt

import Gunyah.Pgtable.Walk
import Mathlib

set_option autoImplicit false

/-!
# Unmapping the pages of a physical range

A model of `unmap_modifier` and `pgtable_vm_unmap_matching` of
`hyp/mem/pgtable/armv8/src/pgtable.c`, over the walk of `Gunyah.Pgtable.Walk`, and of the
translation the tables give an address (`translate`), the map that an unmap is meant to change.

`pgtable_vm_unmap_matching (va, phys, size)` walks `[va, va + size)` and invalidates the leaf
entries that map into `[phys, phys + size)`. The modifier compares the output address of the entry
it visits with that range first, and only then splits a block that the range covers in part
(`unmapEntry`). The functions it calls beyond that (`pgtable_split_block`, `unmap_clear_cont_bit`,
`check_refcount`) are parameters (`UnmapCallees`), so what is proved here holds for each of their
behaviours.

The output address of a block entry is the address of the block's first page. A block that starts
below `phys` is therefore left whole by the comparison even where it maps pages of
`[phys, phys + size)` (`unmapModifier_outside_range`), and such a page stays mapped after the call.
-/

namespace Gunyah.Armv8

open Function

/-- `pgtable_stage_type_t`. -/
inductive PgtableStage where
  | hypStage1
  | vmStage2
  deriving DecidableEq, Repr

/-- `PGTABLE_HYP_UNMAP_PRESERVE_NONE`: no table level is kept for reuse. -/
def pgtableHypUnmapPreserveNone : Nat := 2 ^ 63

/-- The fields of `pgtable_unmap_modifier_args_t` that the unmap reads: the size of the table
levels to keep, the physical range of a matching unmap, the stage, and whether TLB invalidations
are broadcast. -/
structure UnmapArgs where
  preservedSize : Nat
  phys : Nat
  size : Nat
  stage : PgtableStage
  outerShareable : Bool

/-- The fields of `pgtable_map_modifier_args_t` that `unmap_modifier` sets for
`pgtable_split_block`: the block's output address and attributes, and the stage (`try_map` is
true and `new_page_start_level` invalid on this path). -/
structure SplitArgs where
  phys : Nat
  lowerAttrs : Nat
  upperAttrs : Nat
  stage : PgtableStage

/-- `vmsa_page_and_block_attrs_entry_get_lower_attrs`: bits 11:2 of a block or page entry. -/
def lowerAttrs (entry : Nat) : Nat := (entry >>> 2) % 2 ^ 10

/-- `vmsa_page_and_block_attrs_entry_get_upper_attrs`: bits 63:48. -/
def upperAttrs (entry : Nat) : Nat := (entry >>> 48) % 2 ^ 16

/-- `vmsa_common_upper_attrs_get_cont`: bit 4 of the upper attributes. -/
def upperAttrsCont (upper : Nat) : Bool := upper.testBit 4

/-- `set_invalid_entry (table, idx)`: the entry becomes zero. -/
def setInvalidEntry (mem : Nat → Nat) (table idx : Nat) : Nat → Nat :=
  update mem (table + 8 * idx) 0

/-- `unmap_should_clear_cont (virtual_address, size, level)`: whether the range leaves part of
the contiguous run of entries around `virtual_address` mapped; `none` where an assertion fails. -/
def unmapShouldClearCont (va size level : Nat) : Option Bool :=
  let info := levelConf level
  let contSize := info.addrSize * info.contiguousEntryCnt
  let contStart := FixedWidth.alignDown va contSize
  if info.contiguousEntryCnt = 0 then none
  else if FixedWidth.addOverflows 64 contStart (FixedWidth.sub 64 contSize 1) then none
  else if FixedWidth.addOverflows 64 va (FixedWidth.sub 64 size 1) then none
  else
    let contEnd := FixedWidth.sub 64 (FixedWidth.add 64 contStart contSize) 1
    let virtualEnd := FixedWidth.sub 64 (FixedWidth.add 64 va size) 1
    some (decide (contStart < va) || decide (contEnd > virtualEnd))

/-- The functions `unmap_modifier` calls that the model leaves open, each `none` where it panics.
`pgtable_split_block` remaps a block that the range covers in part as a table of smaller
entries and redirects the walk into it; `unmap_clear_cont_bit` rewrites the contiguous run
around an entry without the contiguous bit, leaving the entry itself invalid; `check_refcount`
lowers the entry count of the table above, frees the tables left empty, and may redirect the
walk. -/
structure UnmapCallees where
  splitBlock : Pgtable → (Nat → Nat) → (Nat → StackElem) → Visit → SplitArgs →
    (level va size : Nat) → Option Redirect
  clearContBit : (Nat → Nat) → (table va level attrEntry : Nat) → UnmapArgs →
    (startLevel : Nat) → Option (Nat → Nat)
  checkRefcount : Pgtable → (Nat → Nat) → (va size upperLevel : Nat) → (Nat → StackElem) →
    (needDec : Bool) → UnmapArgs → (level va size : Nat) →
    Option ((Nat → Nat) × (Nat → StackElem) × Nat × Nat × Nat)

/-- The test of a matching unmap: the output address of a block or page entry lies outside
`[phys, phys + size - 1]`, with the end computed in 64 bits. -/
def outsideRange (margs : UnmapArgs) (pa : Nat) : Bool :=
  decide (pa < margs.phys) ||
    decide (pa > FixedWidth.sub 64 (FixedWidth.add 64 margs.phys margs.size) 1)

/-- The part of `unmap_modifier` after the physical-address test: a block that the range covers
in part is split, a block or page entry is invalidated (or its contiguous run rewritten), and
below the start level the entry count of the table above is checked. -/
def unmapEntry (callees : UnmapCallees) (margs : UnmapArgs) : Modifier :=
  fun pgt mem stack v level va size =>
    let info := levelConf v.level
    let table := (stack v.level).paddr
    let entry := getEntry mem table v.idx
    if v.type.block && (v.va != entryStartAddress v.va info || decide (v.size < info.addrSize)) then
      -- "Partial unmap; split the block into 4K pages."
      (getEntryPaddr info entry v.type).bind fun pa =>
        callees.splitBlock pgt mem stack v ⟨pa, lowerAttrs entry, upperAttrs entry, margs.stage⟩
          level va size
    else
      let invalidated : Option ((Nat → Nat) × Bool) := some (setInvalidEntry mem table v.idx, true)
      -- the memory after the entry, and `need_dec`
      let cleared : Option ((Nat → Nat) × Bool) :=
        if v.type.block || v.type.page then
          if upperAttrsCont (upperAttrs entry) then
            (unmapShouldClearCont v.va v.size v.level).bind fun clear =>
              if clear then
                (callees.clearContBit mem table v.va v.level entry margs pgt.startLevel).map
                  fun mem' => (mem', false)
              else invalidated
          else invalidated
        -- `assert (pgtable_entry_types_get_invalid (&type))`
        else if v.type.invalid then some (mem, false) else none
      cleared.bind fun (mem', needDec) =>
        if v.level ≠ pgt.startLevel then
          (callees.checkRefcount pgt mem' v.va v.size (v.level - 1) stack needDec margs
              level va size).map fun (mem'', stack', level', va', size') =>
            ⟨.continue, mem'', stack', level', va', size'⟩
        else some ⟨.continue, mem', stack, level, va, size⟩

/-- `unmap_modifier (pgt, virtual_address, size, idx, level, type, stack, data, next_level,
next_virtual_address, next_size, only_matching)`. -/
def unmapModifier (callees : UnmapCallees) (margs : UnmapArgs) (onlyMatching : Bool) : Modifier :=
  fun pgt mem stack v level va size =>
    let entry := getEntry mem (stack v.level).paddr v.idx
    -- `assert (stack[level].mapped)`
    if !(stack v.level).mapped then none
    else if onlyMatching && (v.type.block || v.type.page) then
      -- "Check if it is mapped to different phys_addr than expected. If so, do not unmap this
      -- address": the whole entry is kept
      (getEntryPaddr (levelConf v.level) entry v.type).bind fun pa =>
        if outsideRange margs pa then some ⟨.continue, mem, stack, level, va, size⟩
        else unmapEntry callees margs pgt mem stack v level va size
    else unmapEntry callees margs pgt mem stack v level va size

/-- A matching unmap leaves a block or page entry whose output address lies outside the range as
it is: the walk goes on where it would, with the memory and the stack unchanged. For a block the
output address is that of its first page, whichever pages of the block the range covers. -/
theorem unmapModifier_outside_range {callees : UnmapCallees} {margs : UnmapArgs} {pgt : Pgtable}
    {mem : Nat → Nat} {stack : Nat → StackElem} {v : Visit} {level va size pa : Nat}
    (hmapped : (stack v.level).mapped = true) (hleaf : (v.type.block || v.type.page) = true)
    (hpa : getEntryPaddr (levelConf v.level) (getEntry mem (stack v.level).paddr v.idx) v.type =
      some pa)
    (hout : outsideRange margs pa = true) :
    unmapModifier callees margs true pgt mem stack v level va size =
      some ⟨.continue, mem, stack, level, va, size⟩ := by
  simp only [unmapModifier, hmapped, hleaf, hpa, hout, Bool.not_true, Bool.true_and,
    Bool.false_eq_true, Option.bind_some, if_true, if_false]

/-- `addr_check (virtual_address, bit_count, false)`: the index of the highest set bit of the
address (`64 - (clz + 1)`, and `0` for zero) is at most `bit_count`. -/
def addrCheck (va bitCount : Nat) : Bool :=
  decide ((if va = 0 then 0 else Nat.log2 va) ≤ bitCount)

/-- `pgtable_vm_unmap_matching (partition, pgtable, virtual_address, phys, size)` with
`pgtable->issue_dvm_cmd`: the memory after the walk, or `none` where it panics ("Bad arguments in
pgtable_vm_unmap_matching", and "Error in pgtable_vm_unmap_matching" when the walk fails). -/
def pgtableVmUnmapMatching (callees : UnmapCallees) (pgt : Pgtable) (issueDvmCmd : Bool)
    (mem : Nat → Nat) (va phys size fuel : Nat) : Option (Nat → Nat) :=
  let last := FixedWidth.sub 64 size 1
  if !addrCheck va pgt.addressBits then none
  else if FixedWidth.addOverflows 64 va last ||
      !addrCheck (FixedWidth.add 64 va last) pgt.addressBits then none
  else
    let margs : UnmapArgs := ⟨pgtableHypUnmapPreserveNone, phys, size, .vmStage2, issueDvmCmd⟩
    (translationTableWalk pgt mem va size vmsaEntryTypeLeaf (unmapModifier callees margs true)
        fuel).bind fun (ok, mem') => if ok then some mem' else none

/-! ## The translation the tables give -/

/-- What a block or page entry maps an address to: the output address of the address, and the
entry's attributes. -/
structure Translation where
  phys : Nat
  lowerAttrs : Nat
  upperAttrs : Nat
  deriving DecidableEq, Repr

/-- The translation of `va` from a table of `level` at `table`, with `n` levels left, read as the
hardware reads the tables: down through next-level table entries to the block or page entry for
`va`, whose output address plus the offset of `va` in the entry is the result; `none` where an
invalid or reserved entry is found. -/
def translateFrom (mem : Nat → Nat) (startLevel va : Nat) : Nat → Nat → Nat → Option Translation
  | 0, _, _ => none
  | n + 1, level, table =>
    let info := levelConf level
    let entry := getEntry mem table (getIndex va info (level == startLevel))
    let type := getEntryType entry info
    if type.nextLevelTable then
      (getEntryPaddr info entry type).bind fun next =>
        translateFrom mem startLevel va n (level + 1) next
    else if type.block || type.page then
      (getEntryPaddr info entry type).map fun pa =>
        ⟨pa + (va - entryStartAddress va info), lowerAttrs entry, upperAttrs entry⟩
    else none

/-- The translation of `va` by the tables of `pgt`, from the root through the levels of
`level_conf`: the abstract map from input to output addresses that mapping and unmapping
change. -/
def translate (pgt : Pgtable) (mem : Nat → Nat) (va : Nat) : Option Translation :=
  translateFrom mem pgt.startLevel va (pgtableLevelNum - 1 - pgt.startLevel) pgt.startLevel
    pgt.rootPgtable

/-! ## A block that starts below the range -/

/-- A VM table of start level 1 (a 39-bit input address space, one 4 KiB root table at `0x10000`)
whose root maps `[0, 1 GiB)` through a level-2 table at `0x20000`. -/
def blockPgtable : Pgtable := ⟨0x10000, 1, 0x1000, 39⟩

/-- The tables of `blockPgtable`: the root's entry 0 points to the level-2 table with a
reference count of one entry (bits 11:2 for the 4 KiB granule), and the level-2 table's entry 0
is a 2 MiB block at physical address 0 (normal write-back, read-write, inner shareable,
accessed). A `pgtable_vm_map` of `[0, 2 MiB)` to `0` into empty tables leaves them so. -/
def blockMem : Nat → Nat := fun a =>
  if a = 0x10000 then 0x20007 else if a = 0x20000 then 0x7FD else 0

/-- `pgtable_vm_unmap_matching (va = 0x1000, phys = 0x1000, size = 0x1000)` on `blockPgtable`
keeps the page it was asked to unmap: the page at `0x1000` maps to physical `0x1000`, inside
`[phys, phys + size)`, before and after the call. The walk goes down to the block at level 2, and
the modifier compares the block's output address `0` with `phys` and keeps the entry
(`unmapModifier_outside_range`), before the test that would split the block. This holds for
every behaviour of the callees, which the call never reaches, and for every amount of fuel
beyond the two iterations of the walk. -/
theorem pgtableVmUnmapMatching_block_below_phys (callees : UnmapCallees) (issueDvmCmd : Bool)
    (fuel : Nat) :
    ∃ mem', pgtableVmUnmapMatching callees blockPgtable issueDvmCmd blockMem 0x1000 0x1000 0x1000
        (fuel + 2) = some mem' ∧
      translate blockPgtable blockMem 0x1000 = some ⟨0x1000, 0x1FF, 0⟩ ∧
      translate blockPgtable mem' 0x1000 = some ⟨0x1000, 0x1FF, 0⟩ :=
  ⟨blockMem, rfl, by decide, by decide⟩

end Gunyah.Armv8

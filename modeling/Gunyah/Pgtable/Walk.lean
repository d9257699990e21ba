import Gunyah.Lib.Word
import Mathlib

set_option autoImplicit false

/-!
# The page-table walk

A model of `translation_table_walk` of `hyp/mem/pgtable/armv8/src/pgtable.c` for the 4K granule
(`info_4k_granules`), the walk under every map, unmap and lookup of the ARMv8 page tables. The
walk visits, from the start level down, the entry for its current address at each level; it goes
down through next-level table entries and, at an invalid, block or page entry, calls the
modifier of the operation and steps to the next entry of the level, going up when it leaves the
last entry of a table. The modifier may redirect the walk: it returns the level, address and size
the walk goes on with, and changes the tables and the stack of visited tables.

Physical memory is a function from byte addresses to the 64-bit words stored there; a table at
physical address `t` holds entry `i` at `t + 8 * i`. An entry is its raw 64-bit value, decoded as
`vmsa_general_entry_t`, `vmsa_block_entry_t`, `vmsa_page_entry_t` and `vmsa_table_entry_t` are.
Mapping a table into the hypervisor's address space (`partition_phys_map`) always succeeds and
gives the table its physical address, so a stack element's `table` is its `paddr`. Panics and
failed assertions give `none`, and the walk's loop runs on fuel.
-/

namespace Gunyah.Armv8

open Function

/-- `util_mask (n)`: the low `n` bits. -/
def utilMask (n : Nat) : Nat := 2 ^ n - 1

/-- `segment_mask (e, s)`, bits `s` to `e`: `util_mask (e + 1)` without `util_mask (s)`. -/
def segmentMask (e s : Nat) : Nat := utilMask (e + 1) - utilMask s

/-- `pgtable_entry_types_t`. -/
structure EntryTypes where
  nextLevelTable : Bool := false
  page : Bool := false
  block : Bool := false
  invalid : Bool := false
  reserved : Bool := false
  error : Bool := false
  deriving DecidableEq, Repr

/-- `pgtable_entry_types_intersection`. -/
def EntryTypes.intersection (a b : EntryTypes) : EntryTypes :=
  ⟨a.nextLevelTable && b.nextLevelTable, a.page && b.page, a.block && b.block,
    a.invalid && b.invalid, a.reserved && b.reserved, a.error && b.error⟩

/-- `pgtable_entry_types_is_empty`. -/
def EntryTypes.isEmpty (a : EntryTypes) : Bool :=
  !(a.nextLevelTable || a.page || a.block || a.invalid || a.reserved || a.error)

/-- `VMSA_ENTRY_TYPE_LEAF`: every legal entry type except next-level tables. -/
def vmsaEntryTypeLeaf : EntryTypes := { page := true, block := true, invalid := true }

/-- `pgtable_level_info_t`. -/
structure LevelInfo where
  msb : Nat
  lsb : Nat
  tableMask : Nat
  blockAndPageOutputAddressMask : Nat
  isOffset : Bool
  allowedTypes : EntryTypes
  addrSize : Nat
  entryCnt : Nat
  contiguousEntryCnt : Nat

/-- `PGTABLE_LEVEL_NUM`: levels 0 to 3 and the page offset. -/
def pgtableLevelNum : Nat := 5

/-- `level_conf`, which is `info_4k_granules`; the entries past the array are not read. -/
def levelConf : Nat → LevelInfo
  | 0 => ⟨47, 39, segmentMask 47 12, 0, false, { nextLevelTable := true }, 2 ^ 39, 2 ^ 9, 0⟩
  | 1 => ⟨38, 30, segmentMask 47 12, segmentMask 47 30, false,
      { nextLevelTable := true, block := true }, 2 ^ 30, 2 ^ 9, 16⟩
  | 2 => ⟨29, 21, segmentMask 47 12, segmentMask 47 21, false,
      { nextLevelTable := true, block := true }, 2 ^ 21, 2 ^ 9, 16⟩
  | 3 => ⟨20, 12, 0, segmentMask 47 12, false, { page := true }, 2 ^ 12, 2 ^ 9, 16⟩
  | _ => ⟨11, 0, 0, 0, true, {}, 0, 0, 0⟩

/-- `is_high_virtual_address (virtual_address)`: bit 55 selects the translation table base. -/
def isHighVirtualAddress (va : Nat) : Bool := va.testBit 55

/-- `get_index (addr, info, is_first_level)`: the index of `addr` in a table of the level. A
first-level table of the low half may be several concatenated tables, indexed by all the bits
above the level's. -/
def getIndex (addr : Nat) (info : LevelInfo) (isFirstLevel : Bool) : Nat :=
  if isFirstLevel && !isHighVirtualAddress addr then (addr >>> info.lsb) % 2 ^ 32
  else ((addr &&& segmentMask info.msb info.lsb) >>> info.lsb) % 2 ^ 32

/-- `step_virtual_address (virtual_address, info)`: the start of the next entry of the level. -/
def stepVirtualAddress (va : Nat) (info : LevelInfo) : Nat :=
  ((va + info.addrSize) % 2 ^ 64) >>> info.lsb <<< info.lsb

/-- `entry_start_address (virtual_address, level_info)`. -/
def entryStartAddress (va : Nat) (info : LevelInfo) : Nat := va >>> info.lsb <<< info.lsb

/-- `get_entry_type (entry, level_info)`: the `is_valid` and `is_table` bits, read against the
types the level allows. -/
def getEntryType (entry : Nat) (info : LevelInfo) : EntryTypes :=
  if entry.testBit 0 then
    if entry.testBit 1 then
      if info.allowedTypes.nextLevelTable then { nextLevelTable := true } else { page := true }
    else if info.allowedTypes.block then { block := true } else { reserved := true }
  else { invalid := true }

/-- `get_entry_paddr (level_info, entry, type, paddr)`: the block's or page's output address
(bits 47:17 of a block entry, 47:12 of a page entry) or the next-level table's address, masked
for the level; it panics for other types. -/
def getEntryPaddr (info : LevelInfo) (entry : Nat) (type : EntryTypes) : Option Nat :=
  if type.block then some (entry &&& segmentMask 47 17 &&& info.blockAndPageOutputAddressMask)
  else if type.page then some (entry &&& segmentMask 47 12 &&& info.blockAndPageOutputAddressMask)
  else if type.nextLevelTable then some (entry &&& segmentMask 47 12 &&& info.tableMask)
  else none

/-- `get_entry (table, idx)`. -/
def getEntry (mem : Nat → Nat) (table idx : Nat) : Nat := mem (table + 8 * idx)

/-- The fields of `pgtable_t` that the walk reads: the root table, the start level, the size in
bytes of the start-level table (concatenated tables at the start level are one table), and the
size of the input address space. -/
structure Pgtable where
  rootPgtable : Nat
  startLevel : Nat
  startLevelSize : Nat
  addressBits : Nat
  deriving DecidableEq, Repr

/-- `stack_elem_t`: a table that the walk visited, its entry count, and whether it is mapped into
the hypervisor's address space and must be unmapped. -/
structure StackElem where
  paddr : Nat
  entryCnt : Nat
  mapped : Bool
  needUnmap : Bool
  deriving DecidableEq, Repr

/-- A stack element the walk has not set. -/
def StackElem.empty : StackElem := ⟨0, 0, false, false⟩

/-- `pgtable_modifier_ret_t`. -/
inductive ModifierRet where
  | stop
  | error
  | continue
  deriving DecidableEq, Repr

/-- The `prev_*` variables of the walk that a modifier is called with: the entry visited, its
address and the size left from it, and `cur_table_paddr`. -/
structure Visit where
  va : Nat
  size : Nat
  entry : Nat
  idx : Nat
  level : Nat
  type : EntryTypes
  nextTable : Nat

/-- What a modifier leaves: its return code, the memory and the stack, and the walk's
`cur_level`, `cur_virtual_address` and `cur_size`, which it may change to redirect the walk. -/
structure Redirect where
  ret : ModifierRet
  mem : Nat → Nat
  stack : Nat → StackElem
  level : Nat
  va : Nat
  size : Nat

/-- A modifier of the walk, given the walk's `cur_level`, `cur_virtual_address` and `cur_size`;
`none` where it panics or an assertion fails. -/
abbrev Modifier :=
  Pgtable → (Nat → Nat) → (Nat → StackElem) → Visit → (level va size : Nat) → Option Redirect

/-- The variables of the walk's loop; `ret` is what the walk returns when it stops. -/
structure WalkState where
  level : Nat
  va : Nat
  size : Nat
  stack : Nat → StackElem
  mem : Nat → Nat
  ret : Bool

/-- The loop that goes up from the last entry of a table: while the index is the last of its
table, the walk is done at the start level and otherwise goes up a level, to the index of the
visited address there. It returns the level and whether the walk is done. -/
def iterateUp (pgt : Pgtable) (stack : Nat → StackElem) (va : Nat) :
    Nat → Nat → Bool → Option (Nat × Bool)
  | 0, idx, done =>
    if idx = FixedWidth.sub 32 (stack 0).entryCnt 1 then
      if 0 = pgt.startLevel then some (0, true) else none
    else some (0, done)
  | l + 1, idx, done =>
    if idx = FixedWidth.sub 32 (stack (l + 1)).entryCnt 1 then
      if l + 1 = pgt.startLevel then some (l + 1, true)
      else iterateUp pgt stack va l (getIndex va (levelConf l) (l == pgt.startLevel)) done
    else some (l + 1, done)

/-- The loop at the end of an iteration that discards the levels below the one the walk goes on
at: each mapped one is unmapped and cleared. -/
def discardLevels (level : Nat) : Nat → (Nat → StackElem) → (Nat → StackElem)
  | 0, stack => stack
  | l + 1, stack =>
    if level < l + 1 then
      let stack := if (stack (l + 1)).mapped then
          update stack (l + 1) { stack (l + 1) with paddr := 0, mapped := false, needUnmap := false }
        else stack
      discardLevels level l stack
    else stack

/-- After a next-level table entry: the walk goes down to the table it points to, which is not
mapped yet. The new `cur_table_paddr` is that table. -/
def descend (info : LevelInfo) (level entry : Nat) (stack : Nat → StackElem) :
    Option (Nat × (Nat → StackElem) × Nat) :=
  if level + 1 < pgtableLevelNum then
    (getEntryPaddr info entry { nextLevelTable := true }).map fun next =>
      (level + 1, update stack (level + 1) ⟨next, (levelConf (level + 1)).entryCnt, false, false⟩,
        next)
  else none

/-- After an invalid, block or page entry: the walk steps to the next entry of the level, takes
the step off the size left, and goes up from the last entry of a table. It returns the level,
address, size and whether the walk is done; `ret` becomes true. -/
def advance (pgt : Pgtable) (info : LevelInfo) (stack : Nat → StackElem) (level idx va size : Nat) :
    Option (Nat × Nat × Nat × Bool) :=
  let va' := stepVirtualAddress va info
  let stepSize := FixedWidth.sub 64 va' va
  let size' := if size ≥ stepSize then size - stepSize else 0
  -- "pgtable bad size": at the lowest level the size must be at least a page
  if info.allowedTypes.page && size < info.addrSize then none
  else
    (iterateUp pgt stack va level idx (size' == 0)).map fun (level', done) =>
      (level', va', size', done)

/-- One iteration of the walk's loop: read the entry for the current address, go down or step
on, call the modifier on an entry of the expected types, and discard the levels left. It returns
the new variables and whether the loop ends (`done || cur_size == 0`). -/
def walkStep (pgt : Pgtable) (expected : EntryTypes) (modifier : Modifier) (w : WalkState) :
    Option (WalkState × Bool) :=
  let info := levelConf w.level
  let idx := getIndex w.va info (w.level == pgt.startLevel)
  -- "pgtable walk depth error" and "pgtable walk"
  if info.isOffset || (w.stack w.level).entryCnt ≤ idx then none
  else
    let elem := w.stack w.level
    -- `partition_phys_map` of a table not mapped yet
    let stack := if elem.mapped then w.stack
      else update w.stack w.level { elem with mapped := true, needUnmap := true }
    let entry := getEntry w.mem elem.paddr idx
    let type := getEntryType entry info
    -- the level, address, size, stack, `cur_table_paddr`, `done` and `ret` after the entry
    let moved : Option (Nat × Nat × Nat × (Nat → StackElem) × Nat × Bool × Bool) :=
      if type.nextLevelTable then
        (descend info w.level entry stack).map fun (level', stack', next) =>
          (level', w.va, w.size, stack', next, false, w.ret)
      else if type.invalid || type.page || type.block then
        (advance pgt info stack w.level idx w.va w.size).map fun (level', va', size', done) =>
          (level', va', size', stack, elem.paddr, done, true)
      -- "pgtable corrupt entry"
      else none
    moved.bind fun (level', va', size', stack', next, done, ret) =>
      let visited : Option (Nat × Nat × Nat × (Nat → StackElem) × (Nat → Nat) × Bool × Bool) :=
        if (type.intersection expected).isEmpty then some (level', va', size', stack', w.mem, done, ret)
        else
          (modifier pgt w.mem stack' ⟨w.va, w.size, entry, idx, w.level, type, next⟩
              level' va' size').map fun r =>
            match r.ret with
            | .stop => (r.level, r.va, r.size, r.stack, r.mem, true, true)
            | .error => (r.level, r.va, r.size, r.stack, r.mem, true, false)
            | .continue => (r.level, r.va, r.size, r.stack, r.mem, false, true)
      visited.map fun (level'', va'', size'', stack'', mem', done', ret') =>
        (⟨level'', va'', size'', discardLevels level'' w.level stack'', mem', ret'⟩,
          done' || size'' == 0)

/-- The walk's loop, on fuel: it ends when an iteration says so or the level leaves
`level_conf`, with the walk's return value and the memory. -/
def walkLoop (pgt : Pgtable) (expected : EntryTypes) (modifier : Modifier) :
    Nat → WalkState → Option (Bool × (Nat → Nat))
  | 0, _ => none
  | fuel + 1, w =>
    if w.level < pgtableLevelNum then
      (walkStep pgt expected modifier w).bind fun (w', stop) =>
        if stop then some (w'.ret, w'.mem) else walkLoop pgt expected modifier fuel w'
    else some (w.ret, w.mem)

/-- `translation_table_walk (pgt, virtual_address, virtual_address_size, event, expected,
data)`, with the event's modifier: whether the walk succeeded, and the memory after it. The start
level's table is the root, mapped already. -/
def translationTableWalk (pgt : Pgtable) (mem : Nat → Nat) (va size : Nat) (expected : EntryTypes)
    (modifier : Modifier) (fuel : Nat) : Option (Bool × (Nat → Nat)) :=
  let stack := update (fun _ => StackElem.empty) pgt.startLevel
    ⟨pgt.rootPgtable, pgt.startLevelSize / 8 % 2 ^ 32, true, false⟩
  walkLoop pgt expected modifier fuel ⟨pgt.startLevel, va, size, stack, mem, false⟩

end Gunyah.Armv8

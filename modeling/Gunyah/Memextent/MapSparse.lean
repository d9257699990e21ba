import Gunyah.Memextent.UpdateAccessSparse
import Gunyah.Memextent.DonateSparse
import Gunyah.Gpt.Failure
import Mathlib.Data.List.Nodup

set_option autoImplicit false

/-!
# The mapping slots of sparse extents

A model of the calls of `hyp/mem/memextent_sparse/src/memextent_sparse.c` that fill and free the
mapping slots of sparse extents: `memextent_map_partial_sparse` and
`memextent_unmap_partial_sparse` with `add_sparse_mapping`, `remove_sparse_mapping`,
`delete_sparse_mapping`, `insert_gpt_mapping` and `remove_gpt_mapping`;
`memextent_deactivate_sparse` with `memextent_unmap_all_sparse`, `lookup_phys_range` and
`memextent_release_mappings_sparse`; and `memextent_deactivate_addrspace_sparse`. The donations
of `Gunyah.Memextent.DonateSparse` are calls of the same system: they move ownership and page
mappings and never touch a slot.

Each slot records an address space (none for a free slot) and a GPT of what the extent maps into
it. A slot in use is linked on its address space's `sparse_mapping_list`; the lists are sequences
of (extent, slot) nodes, as in `Gunyah.Lib.LinkedList`. Along every run the slots and the lists
agree: a slot in use is on its address space's list, once, and on no other list; a free slot is
on none (`slotsReachable_linked`).

A mapping goes to the first slot of the address space whose GPT takes it, or else to the first free
slot. An unmapping takes it out of the first slot of the address space whose GPT holds it at the
virtual base. When two slots of one address space hold the same physical range at the same
virtual base, the two choices differ: mapping a range a second time fills a second slot, and the
unmapping that follows empties the first (`sparse_map_unmap_frees_first_slot`).

The GPTs are those of `Gunyah.Gpt` with the handlers of `memextent_sparse.ev`. `partition_alloc`
in each GPT write and in its revert answers as the `GptAllocs` of the call say, slot by slot. An
`assert` on the result of a call the code makes (`err == OK` after a revert, `gpt_clear_all`) gives
`none`, as a panic does. `memextent_lookup_mapping` and `object_get_addrspace_safe` are parameters.
The model is sequential: the spinlocks, the RCU read sections and the memory ordering of the
`addrspace` fields are left out.
-/

namespace Gunyah.Memextent

open Memdb

/-- `GPT_PHYS_BITS`: the width of the physical addresses in a sparse extent's GPTs. -/
def gptPhysBits : Nat := 44

/-- A slot's GPT as `allocate_sparse_mappings` creates it with `gpt_init`: empty, with
`GPT_PHYS_BITS` bits and the memextent mapping type allowed. -/
def sparseGptInit : SparseGpt := ⟨.empty, gptPhysBits, fun _ => true⟩

theorem gptInit_sparse :
    (Gpt.gptInit gptPhysBits (fun _ => true) : Except Error SparseGpt) = .ok sparseGptInit := rfl

/-- The outcomes of `partition_alloc` in one GPT write and in its revert. -/
abbrev GptAllocs := List Bool × List Bool

/-- Every allocation succeeds, in every slot. -/
def allocsOk : Fin maxMaps → GptAllocs := fun _ => ([], [])

/-- The slots of every sparse extent, and the `sparse_mapping_list` of every address space. -/
structure Slots where
  maps : Nat → Fin maxMaps → SparseMapping
  lists : Nat → List (Nat × Fin maxMaps)

namespace Slots

variable (s : Slots)

/-- Slot `i` of extent `me` with a new GPT. -/
def setGpt (me : Nat) (i : Fin maxMaps) (gpt : SparseGpt) : Slots :=
  { s with maps := (Function.update s.maps me
      (Function.update (s.maps me) i { (s.maps me i) with gpt })) }

/-- Slot `i` of extent `me` with a new address space field. -/
def setAddrspace (me : Nat) (i : Fin maxMaps) (addrspace : Option Nat) : Slots :=
  { s with maps := (Function.update s.maps me
      (Function.update (s.maps me) i { (s.maps me i) with addrspace })) }

/-- `list_insert_at_head` of a node on the address space's list. -/
def link (as : Nat) (n : Nat × Fin maxMaps) : Slots :=
  { s with lists := Function.update s.lists as (n :: s.lists as) }

/-- `list_delete_node` of a node from the address space's list. -/
def unlink (as : Nat) (n : Nat × Fin maxMaps) : Slots :=
  { s with lists := Function.update s.lists as ((s.lists as).erase n) }

@[simp] theorem setGpt_lists {me : Nat} {i : Fin maxMaps} {gpt : SparseGpt} :
    (s.setGpt me i gpt).lists = s.lists := rfl

@[simp] theorem setGpt_addrspace {me me' : Nat} {i i' : Fin maxMaps} {gpt : SparseGpt} :
    ((s.setGpt me i gpt).maps me' i').addrspace = (s.maps me' i').addrspace := by
  unfold setGpt
  by_cases hme : me' = me
  · subst hme
    by_cases hi : i' = i
    · subst hi
      simp
    · simp [hi]
  · simp [hme]

@[simp] theorem setAddrspace_lists {me : Nat} {i : Fin maxMaps} {a : Option Nat} :
    (s.setAddrspace me i a).lists = s.lists := rfl

theorem setAddrspace_addrspace {me me' : Nat} {i i' : Fin maxMaps} {a : Option Nat} :
    ((s.setAddrspace me i a).maps me' i').addrspace =
      if (me', i') = (me, i) then a else (s.maps me' i').addrspace := by
  unfold setAddrspace
  by_cases hme : me' = me
  · subst hme
    by_cases hi : i' = i
    · subst hi
      simp
    · simp [hi]
  · simp [hme]

@[simp] theorem link_maps {as : Nat} {n : Nat × Fin maxMaps} : (s.link as n).maps = s.maps := rfl

@[simp] theorem unlink_maps {as : Nat} {n : Nat × Fin maxMaps} : (s.unlink as n).maps = s.maps :=
  rfl

theorem link_lists {as as' : Nat} {n : Nat × Fin maxMaps} :
    (s.link as n).lists as' = if as' = as then n :: s.lists as else s.lists as' := by
  unfold link
  by_cases h : as' = as
  · subst h
    simp
  · simp [h]

theorem unlink_lists {as as' : Nat} {n : Nat × Fin maxMaps} :
    (s.unlink as n).lists as' = if as' = as then (s.lists as).erase n else s.lists as' := by
  unfold unlink
  by_cases h : as' = as
  · subst h
    simp
  · simp [h]

theorem mem_link_lists {as as' : Nat} {n n' : Nat × Fin maxMaps} :
    n' ∈ (s.link as n).lists as' ↔ (as' = as ∧ n' = n) ∨ n' ∈ s.lists as' := by
  rw [link_lists]
  by_cases h : as' = as
  · subst h
    simp
  · simp [h]

theorem mem_unlink_lists {as as' : Nat} {n n' : Nat × Fin maxMaps} (hnd : (s.lists as).Nodup) :
    n' ∈ (s.unlink as n).lists as' ↔ n' ∈ s.lists as' ∧ ¬ (as' = as ∧ n' = n) := by
  rw [unlink_lists]
  by_cases h : as' = as
  · subst h
    rw [if_pos rfl, hnd.mem_erase_iff]
    simp only [true_and]
    exact and_comm
  · simp [h]

end Slots

/-! ## `add_sparse_mapping` and `remove_sparse_mapping` -/

/-- The GPT value of a mapping: `memextent_gpt_map_default ()` with the virtual base, the memory
type and the accesses set. -/
def gptMapOf (vbase : Nat) (attrs : Attrs) : MemextentGptMap :=
  { MemextentGptMap.default with vbase, memtype := attrs.memtype, userAccess := attrs.userAccess,
                                 kernelAccess := attrs.kernelAccess }

/-- `insert_gpt_mapping (map, phys, size, vbase, attrs)`: insert the mapping, expecting the range
empty. -/
def insertGptMapping (map : SparseMapping) (phys size vbase : Nat) (attrs : Attrs)
    (allocs : GptAllocs) : Option (Error × SparseGpt) :=
  Gpt.gptInsert sparseHandlers map.gpt phys size (some (.memextentMapping, gptMapOf vbase attrs))
    true allocs.1 allocs.2

/-- `remove_gpt_mapping (map, phys, size, vbase)`: remove the range, expecting it mapped from
`vbase`; the entry sets `ignore_attrs`, so only the virtual bases are compared. -/
def removeGptMapping (map : SparseMapping) (phys size vbase : Nat) (allocs : GptAllocs) :
    Option (Error × SparseGpt) :=
  Gpt.gptRemove sparseHandlers map.gpt phys size
    (some (.memextentMapping, { MemextentGptMap.default with vbase, ignoreAttrs := true }))
    allocs.1 allocs.2

/-- `delete_sparse_mapping (map, addrspace)`: unlink the slot from its address space's list and
free it. The code unlinks through `basic_mapping_list`, but `list_delete_node` only follows the
node's own links, and its answer is not used. -/
def deleteSparseMapping (s : Slots) (me : Nat) (i : Fin maxMaps) (as : Nat) : Slots :=
  (s.unlink as (me, i)).setAddrspace me i none

/-- The variables of the slot loop of `add_sparse_mapping`: `err`, `mapped` and `empty_map`. -/
structure AddLoop where
  err : Error
  mapped : Bool
  emptyMap : Option (Fin maxMaps)

/-- The slot loop of `add_sparse_mapping` over `slots`. A slot of the address space gets the
insert: `OK` ends the loop, `ERROR_BUSY` (the range overlaps the slot's entries) goes on to the next
slot, and any other error ends the loop. The first free slot is remembered. -/
def addSparseMappingLoop (allocs : Fin maxMaps → GptAllocs) (me as phys size vbase : Nat)
    (attrs : Attrs) : List (Fin maxMaps) → Slots → AddLoop → Option (AddLoop × Slots)
  | [], s, r => some (r, s)
  | i :: slots, s, r =>
    if (s.maps me i).addrspace = some as then
      match insertGptMapping (s.maps me i) phys size vbase attrs (allocs i) with
      | none => none
      | some (err, gpt) =>
        let s := s.setGpt me i gpt
        if err = .ok then some ({ r with mapped := true }, s)
        else if err = .busy then addSparseMappingLoop allocs me as phys size vbase attrs slots s r
        else some ({ r with err }, s)
    else if (s.maps me i).addrspace = none ∧ r.emptyMap = none then
      addSparseMappingLoop allocs me as phys size vbase attrs slots s { r with emptyMap := some i }
    else addSparseMappingLoop allocs me as phys size vbase attrs slots s r

/-- `add_sparse_mapping (me, addrspace, phys, size, vbase, attrs)`: the loop, then, if no slot of
the address space took the mapping, the first free slot, which is then linked on the address
space's list. -/
def addSparseMapping (allocs : Fin maxMaps → GptAllocs) (me as phys size vbase : Nat)
    (attrs : Attrs) (s : Slots) : Option (Error × Slots) :=
  match addSparseMappingLoop allocs me as phys size vbase attrs (List.finRange maxMaps) s
      ⟨.ok, false, none⟩ with
  | none => none
  | some (r, s) =>
    if r.mapped ∨ r.err ≠ .ok then some (r.err, s)
    else
      match r.emptyMap with
      | none => some (.memextentMappingsFull, s)
      | some j =>
        match insertGptMapping (s.maps me j) phys size vbase attrs (allocs j) with
        | none => none
        | some (err, gpt) =>
          let s := s.setGpt me j gpt
          if err ≠ .ok then some (err, s)
          else some (.ok, (s.link as (me, j)).setAddrspace me j (some as))

/-- The slot loop of `remove_sparse_mapping` over `slots`: the removal is tried in each slot of the
address space in turn. `OK` ends the loop, deleting the slot if its GPT is left empty;
`ERROR_BUSY` goes on; any other error leaves the call. The result is `err`, `unmapped` and the
slots. -/
def removeSparseMappingLoop (allocs : Fin maxMaps → GptAllocs) (me as phys size vbase : Nat) :
    List (Fin maxMaps) → Slots → Option (Error × Bool × Slots)
  | [], s => some (.ok, false, s)
  | i :: slots, s =>
    if (s.maps me i).addrspace ≠ some as then
      removeSparseMappingLoop allocs me as phys size vbase slots s
    else
      match removeGptMapping (s.maps me i) phys size vbase (allocs i) with
      | none => none
      | some (err, gpt) =>
        let s := s.setGpt me i gpt
        if err = .ok then
          some (.ok, true, if Gpt.gptIsEmpty gpt then deleteSparseMapping s me i as else s)
        else if err = .busy then removeSparseMappingLoop allocs me as phys size vbase slots s
        else some (err, false, s)

/-- `remove_sparse_mapping (me, addrspace, phys, size, vbase)`: `ERROR_ADDR_INVALID` if no slot
held the range. -/
def removeSparseMapping (allocs : Fin maxMaps → GptAllocs) (me as phys size vbase : Nat)
    (s : Slots) : Option (Error × Slots) :=
  (removeSparseMappingLoop allocs me as phys size vbase (List.finRange maxMaps) s).map
    fun (err, unmapped, s) => (if err ≠ .ok then err else if unmapped then .ok else .addrInvalid, s)

/-! ## Mapping, unmapping and deactivation -/

/-- The state of the calls on sparse extents: the slots and lists, the memory database and the
address spaces' page maps. -/
structure SparseSystem where
  slots : Slots
  memdb : OwnerMap
  pages : Pages

/-- `memextent_unmap_range_sparse (phys, size, arg)`: unmap a run of the extent from its place in
the virtual range. -/
def memextentUnmapRangeSparse (ops : AddrspaceOps) (phys size : Nat) :
    SparseArg × Pages → Error × SparseArg × Pages
  | (arg, pg) =>
    match ops.unmap pg arg.addrspace (arg.vbase + (phys - arg.pbase)) size phys with
    | .ok pg => (.ok, arg, pg)
    | .error e => (e, arg, pg)

/-- `memextent_map_partial_sparse (me, addrspace, vm_base, offset, size, map_attrs)`: record the
mapping in a slot, then map each run of the range that the extent owns. After a failed run, the
runs before `fail_addr` are unmapped and the mapping is taken out of the slots again, both
asserted to succeed. `addAllocs` and `removeAllocs` are the allocation outcomes of the two slot
passes. -/
def memextentMapPartialSparse (ops : AddrspaceOps) (addAllocs removeAllocs : Fin maxMaps → GptAllocs)
    (me : Extent) (as vmBase offset size : Nat) (attrs : Attrs) (s : SparseSystem) :
    Option (Error × SparseSystem) :=
  if 2 ^ gptVbaseBits ≤ vmBase + (size - 1) then some (.addrInvalid, s)
  else
    let phys := me.physBase + offset
    match addSparseMapping addAllocs me.id as phys size vmBase attrs s.slots with
    | none => none
    | some (ret, slots) =>
      if ret ≠ .ok then some (ret, { s with slots })
      else
        let arg : SparseArg :=
          ⟨as, vmBase, phys, attrs.memtype, attrs.userAccess, attrs.kernelAccess, 0⟩
        let r := memdbRangeWalk s.memdb (extentOwner me.id) phys (phys + (size - 1))
          (memextentMapRangeSparse ops) (arg, s.pages)
        if r.1 = .ok then some (.ok, { s with slots, pages := r.2.2 })
        else
          let unmapped : Option Pages :=
            if r.2.1.failAddr ≠ phys then
              let r' := memdbRangeWalk s.memdb (extentOwner me.id) phys (r.2.1.failAddr - 1)
                (memextentUnmapRangeSparse ops) (r.2.1, r.2.2)
              if r'.1 = .ok then some r'.2.2 else none
            else some r.2.2
          match unmapped, removeSparseMapping removeAllocs me.id as phys size vmBase slots with
          | some pages, some (.ok, slots) => some (r.1, { s with slots, pages })
          | _, _ => none

/-- `memextent_unmap_partial_sparse (me, addrspace, vm_base, offset, size)`: take the mapping out
of the slots, then unmap each run of the range that the extent owns, asserted to succeed. -/
def memextentUnmapPartialSparse (ops : AddrspaceOps) (allocs : Fin maxMaps → GptAllocs)
    (me : Extent) (as vmBase offset size : Nat) (s : SparseSystem) :
    Option (Error × SparseSystem) :=
  if 2 ^ gptVbaseBits ≤ vmBase + (size - 1) then some (.addrInvalid, s)
  else
    let phys := me.physBase + offset
    match removeSparseMapping allocs me.id as phys size vmBase s.slots with
    | none => none
    | some (ret, slots) =>
      if ret ≠ .ok then some (ret, { s with slots })
      else
        let arg : SparseArg := ⟨as, vmBase, phys, 0, 0, 0, 0⟩
        let r := memdbRangeWalk s.memdb (extentOwner me.id) phys (phys + (size - 1))
          (memextentUnmapRangeSparse ops) (arg, s.pages)
        if r.1 = .ok then some (.ok, { s with slots, pages := r.2.2 }) else none

/-- `memextent_retain_mappings_sparse`: the slots in use whose address space
`object_get_addrspace_safe` still holds (`live`). -/
def retainedSlots (s : Slots) (live : Nat → Bool) (me : Nat) (i : Fin maxMaps) : Bool :=
  match (s.maps me i).addrspace with
  | some as => live as
  | none => false

/-- `memextent_release_mappings_sparse (me, clear)` over `slots`: with `clear`, each retained slot
has its GPT cleared and is deleted. -/
def releaseMappingsLoop (clearAllocs : Fin maxMaps → GptAllocs) (me : Nat)
    (retained : Fin maxMaps → Bool) (clear : Bool) : List (Fin maxMaps) → Slots → Option Slots
  | [], s => some s
  | i :: slots, s =>
    if !retained i then releaseMappingsLoop clearAllocs me retained clear slots s
    else
      match (s.maps me i).addrspace with
      | none => none
      | some as =>
        if clear then
          match Gpt.gptClearAll sparseHandlers (s.maps me i).gpt (clearAllocs i).1
              (clearAllocs i).2 with
          | none => none
          | some gpt =>
            releaseMappingsLoop clearAllocs me retained clear slots
              (deleteSparseMapping (s.setGpt me i gpt) me i as)
        else releaseMappingsLoop clearAllocs me retained clear slots s

/-- `memextent_release_mappings_sparse (me, clear)`. -/
def memextentReleaseMappingsSparse (clearAllocs : Fin maxMaps → GptAllocs) (me : Nat)
    (retained : Fin maxMaps → Bool) (clear : Bool) (s : Slots) : Option Slots :=
  releaseMappingsLoop clearAllocs me retained clear (List.finRange maxMaps) s

/-- `lookup_phys_range (me, offset)`: the first run of the extent's memory from `offset` on, where
`memdb_range_walk` stops because `get_phys_range` returns `ERROR_RETRY`. -/
def lookupPhysRange (db : OwnerMap) (me : Extent) (offset : Nat) : Option (Nat × Nat) :=
  (ownedRuns db (extentOwner me.id) (me.physBase + offset) (me.size - offset)).head?

/-- The run loop of `memextent_unmap_all_sparse` (`parent` none) and of
`memextent_deactivate_sparse` (the mappings handed to the parent): each run is unmapped, or
transferred, asserted to succeed. Each run ends after `offset`, so `me.size` rounds suffice. -/
def deactivateRunsLoop (ops : AddrspaceOps) (lookup : Lookup) (db : OwnerMap) (me : Extent)
    (parent : Option Nat) : Nat → Nat → Pages → Option Pages
  | 0, _, pg => some pg
  | fuel + 1, offset, pg =>
    if offset < me.size then
      match lookupPhysRange db me offset with
      | none => some pg
      | some (base, size) =>
        let r := match parent with
          | none => applyMappings ops lookup me.id base size true pg
          | some p => doMappingTransfer ops lookup me.id p base size pg
        if r.1 = .ok then
          deactivateRunsLoop ops lookup db me parent fuel (base + size - me.physBase) r.2.2
        else none
    else some pg

/-- `memextent_deactivate_sparse (me)`, with `me->parent` as `parent`: the extent's mappings are
unmapped, or handed to the parent, and its retained slots are cleared and freed. Releasing the
parent's mappings without clearing changes no slot. -/
def memextentDeactivateSparse (ops : AddrspaceOps) (lookup : Lookup) (live : Nat → Bool)
    (clearAllocs : Fin maxMaps → GptAllocs) (me : Extent) (parent : Option Nat)
    (s : SparseSystem) : Option SparseSystem :=
  let retained := retainedSlots s.slots live me.id
  match deactivateRunsLoop ops lookup s.memdb me parent me.size 0 s.pages with
  | none => none
  | some pages =>
    (memextentReleaseMappingsSparse clearAllocs me.id retained true s.slots).map
      fun slots => { s with slots, pages }

/-- The loop of `memextent_deactivate_addrspace_sparse` over the nodes of the list: each slot has
its GPT cleared, is unlinked and is freed. -/
def deactivateAddrspaceLoop (clearAllocs : Nat → Fin maxMaps → GptAllocs) (as : Nat) :
    List (Nat × Fin maxMaps) → Slots → Option Slots
  | [], s => some s
  | (me, i) :: nodes, s =>
    match Gpt.gptClearAll sparseHandlers (s.maps me i).gpt (clearAllocs me i).1
        (clearAllocs me i).2 with
    | none => none
    | some gpt =>
      deactivateAddrspaceLoop clearAllocs as nodes
        (((s.setGpt me i gpt).unlink as (me, i)).setAddrspace me i none)

/-- `memextent_deactivate_addrspace_sparse (addrspace)`. -/
def memextentDeactivateAddrspaceSparse (clearAllocs : Nat → Fin maxMaps → GptAllocs) (as : Nat)
    (s : Slots) : Option Slots :=
  deactivateAddrspaceLoop clearAllocs as (s.lists as) s

/-! ## Runs of calls -/

/-- The calls on sparse extents and address spaces, with what `partition_alloc`,
`memextent_lookup_mapping` and `object_get_addrspace_safe` answer during each. -/
inductive SparseCall where
  | map (me : Extent) (as vmBase offset size : Nat) (attrs : Attrs)
      (addAllocs removeAllocs : Fin maxMaps → GptAllocs)
  | unmap (me : Extent) (as vmBase offset size : Nat) (allocs : Fin maxMaps → GptAllocs)
  | donateChild (lookup : Lookup) (me : SparseExtent) (parentSparse : Bool) (phys size : Nat)
      (reverse : Bool)
  | donateSibling (lookup : Lookup) (src dst : Nat) (toSparse : Bool) (phys size : Nat)
  | deactivate (lookup : Lookup) (me : Extent) (parent : Option Nat) (live : Nat → Bool)
      (clearAllocs : Fin maxMaps → GptAllocs)
  | deactivateAddrspace (as : Nat) (clearAllocs : Nat → Fin maxMaps → GptAllocs)

/-- One call; `none` if it panics. -/
def SparseCall.run (ops : AddrspaceOps) (s : SparseSystem) : SparseCall → Option (Error × SparseSystem)
  | .map me as vmBase offset size attrs addAllocs removeAllocs =>
    memextentMapPartialSparse ops addAllocs removeAllocs me as vmBase offset size attrs s
  | .unmap me as vmBase offset size allocs =>
    memextentUnmapPartialSparse ops allocs me as vmBase offset size s
  | .donateChild lookup me parentSparse phys size reverse =>
    let r := memextentDonateChildSparse ops lookup me parentSparse phys size reverse
      ⟨s.memdb, s.pages⟩
    some (r.1, { s with memdb := r.2.memdb, pages := r.2.pages })
  | .donateSibling lookup src dst toSparse phys size =>
    let r := memextentDonateSiblingSparse ops lookup src dst toSparse phys size ⟨s.memdb, s.pages⟩
    some (r.1, { s with memdb := r.2.memdb, pages := r.2.pages })
  | .deactivate lookup me parent live clearAllocs =>
    (memextentDeactivateSparse ops lookup live clearAllocs me parent s).map fun s => (.ok, s)
  | .deactivateAddrspace as clearAllocs =>
    (memextentDeactivateAddrspaceSparse clearAllocs as s.slots).map
      fun slots => (.ok, { s with slots })

/-- The slots of freshly allocated extents and the lists of fresh address spaces: every slot
free with an empty GPT, every list empty. -/
def Slots.init : Slots := ⟨fun _ _ => ⟨none, sparseGptInit⟩, fun _ => []⟩

/-- The states that calls reach from fresh slots and lists, over any memory database and page
maps. A call that panics reaches nothing. -/
inductive SlotsReachable (ops : AddrspaceOps) : SparseSystem → Prop
  | init (memdb : OwnerMap) (pages : Pages) : SlotsReachable ops ⟨Slots.init, memdb, pages⟩
  | call {s s' : SparseSystem} {e : Error} (c : SparseCall) (hs : SlotsReachable ops s)
      (hrun : c.run ops s = some (e, s')) : SlotsReachable ops s'

/-! ## The slots and the lists agree -/

namespace Slots

/-- Every slot in use is on the list of its address space and on no other; a free slot is on no
list; no list holds a node twice. -/
structure Linked (s : Slots) : Prop where
  mem_iff : ∀ as me i, (me, i) ∈ s.lists as ↔ (s.maps me i).addrspace = some as
  nodup : ∀ as, (s.lists as).Nodup

/-- The two states have the same lists and the same address space in every slot: they differ at
most in the GPTs. -/
def SameLinks (s s' : Slots) : Prop :=
  s'.lists = s.lists ∧ ∀ me i, (s'.maps me i).addrspace = (s.maps me i).addrspace

variable {s s₁ s₂ s₃ : Slots}

theorem SameLinks.refl (s : Slots) : SameLinks s s := ⟨rfl, fun _ _ => rfl⟩

theorem SameLinks.trans (h₁ : SameLinks s₁ s₂) (h₂ : SameLinks s₂ s₃) : SameLinks s₁ s₃ :=
  ⟨h₂.1.trans h₁.1, fun me i => (h₂.2 me i).trans (h₁.2 me i)⟩

theorem sameLinks_setGpt (s : Slots) (me : Nat) (i : Fin maxMaps) (gpt : SparseGpt) :
    SameLinks s (s.setGpt me i gpt) :=
  ⟨rfl, fun _ _ => setGpt_addrspace s⟩

theorem Linked.of_sameLinks (h : s₁.Linked) (hs : SameLinks s₁ s₂) : s₂.Linked where
  mem_iff as me i := by
    rw [hs.1, hs.2]
    exact h.mem_iff as me i
  nodup as := by
    rw [hs.1]
    exact h.nodup as

/-- A free slot is on no list. -/
theorem Linked.not_mem_of_free (h : s.Linked) {me : Nat} {i : Fin maxMaps}
    (hfree : (s.maps me i).addrspace = none) (as : Nat) : (me, i) ∉ s.lists as := by
  intro hm
  rw [(h.mem_iff as me i).1 hm] at hfree
  cases hfree

/-- Linking a free slot on an address space's list and recording the address space in it, as
`add_sparse_mapping` does with `empty_map`. -/
theorem Linked.link (h : s.Linked) {me : Nat} {j : Fin maxMaps}
    (hfree : (s.maps me j).addrspace = none) (as : Nat) :
    ((s.link as (me, j)).setAddrspace me j (some as)).Linked where
  mem_iff as' me' i' := by
    rw [setAddrspace_lists, mem_link_lists, setAddrspace_addrspace, link_maps]
    split_ifs with hn
    · -- the new node is on the list of `as` only
      rw [hn]
      simp only [and_true, h.not_mem_of_free hfree as', or_false, Option.some.injEq]
      exact eq_comm
    · simp only [hn, and_false, false_or]
      exact h.mem_iff as' me' i'
  nodup as' := by
    rw [setAddrspace_lists, link_lists]
    split_ifs
    · exact List.nodup_cons.2 ⟨h.not_mem_of_free hfree as, h.nodup as⟩
    · exact h.nodup as'

/-- Unlinking a slot of an address space from its list and freeing it. -/
theorem Linked.delete (h : s.Linked) {me : Nat} {i : Fin maxMaps} {as : Nat}
    (has : (s.maps me i).addrspace = some as) : (deleteSparseMapping s me i as).Linked where
  mem_iff as' me' i' := by
    rw [deleteSparseMapping, setAddrspace_lists, mem_unlink_lists _ (h.nodup as),
      setAddrspace_addrspace, unlink_maps]
    split_ifs with hn
    · -- the freed slot was on the list of `as` only, and is on none now
      rw [hn]
      constructor
      · rintro ⟨hm, hne⟩
        have hsome := (h.mem_iff as' me i).1 hm
        rw [has, Option.some.injEq] at hsome
        exact absurd ⟨hsome.symm, rfl⟩ hne
      · intro hnone
        cases hnone
    · simp only [hn, and_false, not_false_eq_true, and_true]
      exact h.mem_iff as' me' i'
  nodup as' := by
    rw [deleteSparseMapping, setAddrspace_lists, unlink_lists]
    split_ifs
    · exact (h.nodup as).erase _
    · exact h.nodup as'

end Slots

open Slots

section Loops

variable {me as phys size vbase : Nat} {attrs : Attrs}

/-- The slot loop of `add_sparse_mapping` only writes GPTs, and `empty_map` stays a free slot. -/
theorem addSparseMappingLoop_sameLinks {allocs : Fin maxMaps → GptAllocs} :
    ∀ (slots : List (Fin maxMaps)) (s : Slots) (r : AddLoop) {r' : AddLoop} {s' : Slots},
    addSparseMappingLoop allocs me as phys size vbase attrs slots s r = some (r', s') →
    (∀ j, r.emptyMap = some j → (s.maps me j).addrspace = none) →
    SameLinks s s' ∧ ∀ j, r'.emptyMap = some j → (s'.maps me j).addrspace = none
  | [], s, r, r', s', hloop, hfree => by
    cases hloop
    exact ⟨SameLinks.refl s, hfree⟩
  | i :: slots, s, r, r', s', hloop, hfree => by
    -- after an insert the GPT of slot `i` is all that changed
    have hfree' : ∀ gpt j, r.emptyMap = some j → ((s.setGpt me i gpt).maps me j).addrspace = none :=
      fun gpt j hj => by rw [setGpt_addrspace]; exact hfree j hj
    unfold addSparseMappingLoop at hloop
    split_ifs at hloop with has hnew
    · split at hloop
      · cases hloop
      · rename_i err gpt _
        dsimp only at hloop
        split_ifs at hloop
        · cases hloop
          exact ⟨sameLinks_setGpt s me i gpt, hfree' gpt⟩
        · obtain ⟨hsame, hend⟩ := addSparseMappingLoop_sameLinks slots _ r hloop (hfree' gpt)
          exact ⟨(sameLinks_setGpt s me i gpt).trans hsame, hend⟩
        · cases hloop
          exact ⟨sameLinks_setGpt s me i gpt, hfree' gpt⟩
    · refine addSparseMappingLoop_sameLinks slots s _ hloop fun j hj => ?_
      cases hj
      exact hnew.1
    · exact addSparseMappingLoop_sameLinks slots s r hloop hfree

theorem addSparseMapping_linked {allocs : Fin maxMaps → GptAllocs} {s s' : Slots} {e : Error}
    (h : s.Linked) (hadd : addSparseMapping allocs me as phys size vbase attrs s = some (e, s')) :
    s'.Linked := by
  unfold addSparseMapping at hadd
  split at hadd
  · cases hadd
  · rename_i r s₁ hloop
    obtain ⟨hsame, hfree⟩ := addSparseMappingLoop_sameLinks _ _ _ hloop fun j hj => by cases hj
    have h₁ := h.of_sameLinks hsame
    split_ifs at hadd
    · cases hadd
      exact h₁
    · split at hadd
      · cases hadd
        exact h₁
      · rename_i j hj
        split at hadd
        · cases hadd
        · rename_i err gpt _
          have h₂ := h₁.of_sameLinks (sameLinks_setGpt s₁ me j gpt)
          dsimp only at hadd
          split_ifs at hadd
          · cases hadd
            exact h₂
          · cases hadd
            refine h₂.link ?_ as
            rw [setGpt_addrspace]
            exact hfree j hj

theorem removeSparseMappingLoop_linked {allocs : Fin maxMaps → GptAllocs} :
    ∀ (slots : List (Fin maxMaps)) (s : Slots) {e : Error} {unmapped : Bool} {s' : Slots},
    s.Linked → removeSparseMappingLoop allocs me as phys size vbase slots s = some (e, unmapped, s') →
    s'.Linked
  | [], s, e, unmapped, s', h, hloop => by
    cases hloop
    exact h
  | i :: slots, s, e, unmapped, s', h, hloop => by
    unfold removeSparseMappingLoop at hloop
    split_ifs at hloop with has
    · exact removeSparseMappingLoop_linked slots s h hloop
    · split at hloop
      · cases hloop
      · rename_i err gpt _
        have h₁ := h.of_sameLinks (sameLinks_setGpt s me i gpt)
        dsimp only at hloop
        split_ifs at hloop
        · -- the slot's GPT is left empty: it is deleted
          cases hloop
          refine h₁.delete ?_
          rw [setGpt_addrspace]
          exact not_not.1 has
        · cases hloop
          exact h₁
        · exact removeSparseMappingLoop_linked slots _ h₁ hloop
        · cases hloop
          exact h₁

theorem removeSparseMapping_linked {allocs : Fin maxMaps → GptAllocs} {s s' : Slots} {e : Error}
    (h : s.Linked) (hrem : removeSparseMapping allocs me as phys size vbase s = some (e, s')) :
    s'.Linked := by
  unfold removeSparseMapping at hrem
  obtain ⟨⟨err, unmapped, s₁⟩, hloop, hr⟩ := Option.map_eq_some_iff.1 hrem
  cases hr
  exact removeSparseMappingLoop_linked _ s h hloop

theorem releaseMappingsLoop_linked {clearAllocs : Fin maxMaps → GptAllocs}
    {retained : Fin maxMaps → Bool} {clear : Bool} :
    ∀ (slots : List (Fin maxMaps)) (s : Slots) {s' : Slots},
    s.Linked → releaseMappingsLoop clearAllocs me retained clear slots s = some s' → s'.Linked
  | [], s, s', h, hloop => by
    cases hloop
    exact h
  | i :: slots, s, s', h, hloop => by
    unfold releaseMappingsLoop at hloop
    split at hloop
    · exact releaseMappingsLoop_linked slots s h hloop
    · split at hloop
      · cases hloop
      · rename_i as has
        split at hloop
        · split at hloop
          · cases hloop
          · rename_i gpt _
            refine releaseMappingsLoop_linked slots _ ?_ hloop
            refine (h.of_sameLinks (sameLinks_setGpt s me i gpt)).delete ?_
            rw [setGpt_addrspace]
            exact has
        · exact releaseMappingsLoop_linked slots s h hloop

/-- The loop of `memextent_deactivate_addrspace_sparse` runs over the list as it shrinks: the
nodes still to visit are the list. -/
theorem deactivateAddrspaceLoop_linked {clearAllocs : Nat → Fin maxMaps → GptAllocs} :
    ∀ (nodes : List (Nat × Fin maxMaps)) (s : Slots) {s' : Slots},
    s.Linked → s.lists as = nodes → deactivateAddrspaceLoop clearAllocs as nodes s = some s' →
    s'.Linked
  | [], s, s', h, _, hloop => by
    cases hloop
    exact h
  | (me, i) :: nodes, s, s', h, hnodes, hloop => by
    unfold deactivateAddrspaceLoop at hloop
    split at hloop
    · cases hloop
    · rename_i gpt _
      have has : (s.maps me i).addrspace = some as :=
        (h.mem_iff as me i).1 (hnodes ▸ List.mem_cons_self)
      have h₁ := h.of_sameLinks (sameLinks_setGpt s me i gpt)
      have h₂ : (deleteSparseMapping (s.setGpt me i gpt) me i as).Linked :=
        h₁.delete (by rw [setGpt_addrspace]; exact has)
      refine deactivateAddrspaceLoop_linked nodes _ h₂ ?_ hloop
      -- the visited node was the list's head
      rw [deleteSparseMapping, setAddrspace_lists, unlink_lists, if_pos rfl, setGpt_lists, hnodes]
      exact List.erase_cons_head _ _

end Loops

section Calls

variable {ops : AddrspaceOps} {me : Extent} {as vmBase offset size : Nat} {s s' : SparseSystem}
  {e : Error}

/-- What a map call does to the slots: nothing when the range check fails; otherwise the slot
pass of `add_sparse_mapping`, followed, when the walk fails after the pass succeeded, by the
removal of the revert. -/
theorem memextentMapPartialSparse_slots {addAllocs removeAllocs : Fin maxMaps → GptAllocs}
    {attrs : Attrs}
    (h : memextentMapPartialSparse ops addAllocs removeAllocs me as vmBase offset size attrs s =
      some (e, s')) :
    (2 ^ gptVbaseBits ≤ vmBase + (size - 1) ∧ e = .addrInvalid ∧ s' = s) ∨
    ∃ ret sl, addSparseMapping addAllocs me.id as (me.physBase + offset) size vmBase attrs s.slots =
        some (ret, sl) ∧
      (e = ret ∧ s'.slots = sl ∨
        ret = .ok ∧ e ≠ .ok ∧
          removeSparseMapping removeAllocs me.id as (me.physBase + offset) size vmBase sl =
            some (.ok, s'.slots)) := by
  unfold memextentMapPartialSparse at h
  split at h
  case isTrue hrange =>
    cases h
    exact .inl ⟨hrange, rfl, rfl⟩
  case isFalse =>
    right
    dsimp only at h
    split at h
    · cases h
    · rename_i ret sl hadd
      refine ⟨ret, sl, hadd, ?_⟩
      split at h
      · cases h
        exact .inl ⟨rfl, rfl⟩
      · rename_i hret
        split at h
        · cases h
          exact .inl ⟨(not_not.1 hret).symm, rfl⟩
        · -- the walk failed: the revert's removal must succeed
          rename_i hwalk
          split at h
          · rename_i hrem
            cases h
            exact .inr ⟨not_not.1 hret, hwalk, hrem⟩
          · cases h

/-- What an unmap call does to the slots: nothing when the range check fails, otherwise the
removal. -/
theorem memextentUnmapPartialSparse_slots {allocs : Fin maxMaps → GptAllocs}
    (h : memextentUnmapPartialSparse ops allocs me as vmBase offset size s = some (e, s')) :
    (2 ^ gptVbaseBits ≤ vmBase + (size - 1) ∧ e = .addrInvalid ∧ s' = s) ∨
    ∃ ret, removeSparseMapping allocs me.id as (me.physBase + offset) size vmBase s.slots =
      some (ret, s'.slots) := by
  unfold memextentUnmapPartialSparse at h
  split at h
  case isTrue hrange =>
    cases h
    exact .inl ⟨hrange, rfl, rfl⟩
  case isFalse =>
    right
    dsimp only at h
    split at h
    · cases h
    · rename_i ret sl hrem
      refine ⟨ret, ?_⟩
      split at h
      · cases h
        exact hrem
      · split at h
        · cases h
          exact hrem
        · cases h

theorem memextentMapPartialSparse_linked {addAllocs removeAllocs : Fin maxMaps → GptAllocs}
    {attrs : Attrs} (hl : s.slots.Linked)
    (h : memextentMapPartialSparse ops addAllocs removeAllocs me as vmBase offset size attrs s =
      some (e, s')) : s'.slots.Linked := by
  rcases memextentMapPartialSparse_slots h with ⟨-, -, rfl⟩ | ⟨ret, sl, hadd, ⟨-, hsl⟩ | ⟨-, -, hrem⟩⟩
  · exact hl
  · rw [hsl]
    exact addSparseMapping_linked hl hadd
  · exact removeSparseMapping_linked (addSparseMapping_linked hl hadd) hrem

theorem memextentUnmapPartialSparse_linked {allocs : Fin maxMaps → GptAllocs} (hl : s.slots.Linked)
    (h : memextentUnmapPartialSparse ops allocs me as vmBase offset size s = some (e, s')) :
    s'.slots.Linked := by
  rcases memextentUnmapPartialSparse_slots h with ⟨-, -, rfl⟩ | ⟨ret, hrem⟩
  · exact hl
  · exact removeSparseMapping_linked hl hrem

theorem memextentDeactivateSparse_linked {lookup : Lookup} {live : Nat → Bool}
    {clearAllocs : Fin maxMaps → GptAllocs} {parent : Option Nat} (hl : s.slots.Linked)
    (h : memextentDeactivateSparse ops lookup live clearAllocs me parent s = some s') :
    s'.slots.Linked := by
  unfold memextentDeactivateSparse at h
  split at h
  · cases h
  · obtain ⟨slots, hrel, rfl⟩ := Option.map_eq_some_iff.1 h
    exact releaseMappingsLoop_linked _ _ hl hrel

/-- Every call keeps the slots and the lists in agreement. -/
theorem SparseCall.run_linked (c : SparseCall) (hl : s.slots.Linked)
    (hrun : c.run ops s = some (e, s')) : s'.slots.Linked := by
  cases c with
  | map me as vmBase offset size attrs addAllocs removeAllocs =>
    exact memextentMapPartialSparse_linked hl hrun
  | unmap me as vmBase offset size allocs => exact memextentUnmapPartialSparse_linked hl hrun
  | donateChild lookup me parentSparse phys size reverse =>
    -- a donation moves ownership and page mappings only
    simp only [SparseCall.run, Option.some.injEq, Prod.mk.injEq] at hrun
    rw [← hrun.2]
    exact hl
  | donateSibling lookup src dst toSparse phys size =>
    simp only [SparseCall.run, Option.some.injEq, Prod.mk.injEq] at hrun
    rw [← hrun.2]
    exact hl
  | deactivate lookup me parent live clearAllocs =>
    obtain ⟨s₁, hdeact, hs⟩ := Option.map_eq_some_iff.1 hrun
    cases hs
    exact memextentDeactivateSparse_linked hl hdeact
  | deactivateAddrspace as clearAllocs =>
    obtain ⟨slots, hdeact, hs⟩ := Option.map_eq_some_iff.1 hrun
    cases hs
    exact deactivateAddrspaceLoop_linked _ s.slots hl rfl hdeact

theorem Slots.init_linked : Slots.init.Linked where
  mem_iff as me i := by simp [Slots.init]
  nodup _ := List.nodup_nil

theorem SlotsReachable.linked (hs : SlotsReachable ops s) : s.slots.Linked := by
  induction hs with
  | init memdb pages => exact Slots.init_linked
  | call c _ hrun ih => exact c.run_linked ih hrun

end Calls

/-- In every state that calls on sparse extents reach, failed calls included, a free slot is on no
address space's list, and a slot in use is on the list of its address space exactly once and on no
other list. -/
theorem slotsReachable_linked {ops : AddrspaceOps} {s : SparseSystem} (hs : SlotsReachable ops s)
    (me : Nat) (i : Fin maxMaps) :
    ((s.slots.maps me i).addrspace = none → ∀ as, (me, i) ∉ s.slots.lists as) ∧
    ∀ as, (s.slots.maps me i).addrspace = some as →
      (s.slots.lists as).count (me, i) = 1 ∧ ∀ as', as' ≠ as → (me, i) ∉ s.slots.lists as' := by
  have hl := hs.linked
  refine ⟨fun hfree as => hl.not_mem_of_free hfree as, fun as has => ⟨?_, fun as' hne hm => ?_⟩⟩
  · exact List.count_eq_one_of_mem (hl.nodup as) ((hl.mem_iff as me i).2 has)
  · have hsome := (hl.mem_iff as' me i).1 hm
    rw [has, Option.some.injEq] at hsome
    exact hne hsome.symm

/-- The address-space operations that always succeed and do what mapping and unmapping mean. -/
def exactOps : AddrspaceOps :=
  ⟨fun pg as vbase size phys attrs => .ok (mapRange pg as vbase size phys attrs),
    fun pg as vbase size _ => .ok (unmapRange pg as vbase size)⟩

/-- After extent 0, which owns the sixteen addresses from 0, maps them into address space 1 at 5,
slot 0 is in use and on the list of address space 1 once. -/
theorem slotsReachable_linked_mapped :
    ∃ s, SlotsReachable exactOps s ∧ (s.slots.maps 0 ⟨0, by decide⟩).addrspace = some 1 ∧
      (s.slots.lists 1).count (0, ⟨0, by decide⟩) = 1 := by
  obtain ⟨s, hmap⟩ : ∃ s, memextentMapPartialSparse exactOps allocsOk allocsOk
      ⟨0, 0, 0, 16, 7, .any⟩ 1 5 0 16 ⟨7, 7, 0⟩
      ⟨Slots.init, fun a => if a < 16 then some (extentOwner 0) else none, fun _ _ => none⟩ =
        some (.ok, s) := ⟨_, rfl⟩
  have hslot : (memextentMapPartialSparse exactOps allocsOk allocsOk ⟨0, 0, 0, 16, 7, .any⟩ 1 5 0 16
      ⟨7, 7, 0⟩ ⟨Slots.init, fun a => if a < 16 then some (extentOwner 0) else none,
        fun _ _ => none⟩).map (fun r => (r.2.slots.maps 0 ⟨0, by decide⟩).addrspace) =
      some (some 1) := by decide
  rw [hmap, Option.map_some, Option.some.injEq] at hslot
  have hs : SlotsReachable exactOps s :=
    .call (.map ⟨0, 0, 0, 16, 7, .any⟩ 1 5 0 16 ⟨7, 7, 0⟩ allocsOk allocsOk)
      (.init (fun a => if a < 16 then some (extentOwner 0) else none) fun _ _ => none) hmap
  exact ⟨s, hs, hslot, ((slotsReachable_linked hs 0 ⟨0, by decide⟩).2 1 hslot).1⟩

/-! ## The slots' GPTs -/

/-- The handlers of `memextent_sparse.ev` meet what reading a GPT needs: the virtual base moves
by the offsets, kept to its bits either way, and offsets keep the comparison. They are not
lawful: the offset 0 truncates a virtual base past its bits, and with `ignore_attrs` on one side
only the comparison is not transitive. -/
theorem sparseHandlers_offsetLaws : sparseHandlers.OffsetLaws where
  addOffset_add _ v j k := by
    simp only [sparseHandlers, memextentMappingAddOffset, Nat.mod_add_mod, Nat.add_assoc]
  valuesEqual_addOffset _ x y k hxy := by
    simp only [sparseHandlers, memextentMappingsEqual, memextentMappingAddOffset] at hxy ⊢
    split at hxy
    case isTrue hignore =>
      -- Only the virtual bases are compared, and both move by `k`.
      rw [if_pos hignore]
      rw [beq_iff_eq] at hxy ⊢
      rw [hxy]
    case isFalse hignore =>
      rw [if_neg hignore, beq_iff_eq.1 hxy]
      exact beq_self_eq_true _

namespace Slots

/-- Every slot's GPT is one that GPT calls reach from `gpt_init`. -/
def GptsReachable (s : Slots) : Prop := ∀ me i, Gpt.Reachable sparseHandlers (s.maps me i).gpt

variable {s : Slots}

@[simp] theorem setAddrspace_gpt {me me' : Nat} {i i' : Fin maxMaps} {a : Option Nat} :
    ((s.setAddrspace me i a).maps me' i').gpt = (s.maps me' i').gpt := by
  unfold setAddrspace
  by_cases hme : me' = me
  · subst hme
    by_cases hi : i' = i
    · subst hi
      simp
    · simp [hi]
  · simp [hme]

theorem GptsReachable.setGpt (h : s.GptsReachable) (me : Nat) (i : Fin maxMaps) {gpt : SparseGpt}
    (hg : Gpt.Reachable sparseHandlers gpt) : (s.setGpt me i gpt).GptsReachable := by
  intro me' i'
  unfold Slots.setGpt
  by_cases hme : me' = me
  · subst hme
    by_cases hi : i' = i
    · subst hi
      simpa using hg
    · simpa [hi] using h me' i'
  · simpa [hme] using h me' i'

theorem GptsReachable.setAddrspace (h : s.GptsReachable) {me : Nat} {i : Fin maxMaps}
    {a : Option Nat} : (s.setAddrspace me i a).GptsReachable := fun me' i' => by
  rw [setAddrspace_gpt]
  exact h me' i'

theorem GptsReachable.link (h : s.GptsReachable) {as : Nat} {n : Nat × Fin maxMaps} :
    (s.link as n).GptsReachable :=
  h

theorem GptsReachable.delete (h : s.GptsReachable) {me : Nat} {i : Fin maxMaps} {as : Nat} :
    (deleteSparseMapping s me i as).GptsReachable :=
  GptsReachable.setAddrspace (s := s.unlink as (me, i)) h

theorem init_gptsReachable : Slots.init.GptsReachable := fun _ _ => .init gptInit_sparse

end Slots

section GptLoops

variable {me as phys size vbase : Nat} {attrs : Attrs}

theorem reachable_insertGptMapping {map : SparseMapping} {allocs : GptAllocs} {err : Error}
    {gpt : SparseGpt} (hg : Gpt.Reachable sparseHandlers map.gpt)
    (h : insertGptMapping map phys size vbase attrs allocs = some (err, gpt)) :
    Gpt.Reachable sparseHandlers gpt :=
  .call (.insert phys size (some (.memextentMapping, gptMapOf vbase attrs)) true) allocs.1 allocs.2
    hg h

theorem reachable_removeGptMapping {map : SparseMapping} {allocs : GptAllocs} {err : Error}
    {gpt : SparseGpt} (hg : Gpt.Reachable sparseHandlers map.gpt)
    (h : removeGptMapping map phys size vbase allocs = some (err, gpt)) :
    Gpt.Reachable sparseHandlers gpt :=
  .call (.remove phys size
    (some (.memextentMapping, { MemextentGptMap.default with vbase, ignoreAttrs := true })))
    allocs.1 allocs.2 hg h

theorem addSparseMappingLoop_gptsReachable {allocs : Fin maxMaps → GptAllocs} :
    ∀ (slots : List (Fin maxMaps)) (s : Slots) (r : AddLoop) {r' : AddLoop} {s' : Slots},
    s.GptsReachable →
    addSparseMappingLoop allocs me as phys size vbase attrs slots s r = some (r', s') →
    s'.GptsReachable
  | [], s, r, r', s', h, hloop => by
    cases hloop
    exact h
  | i :: slots, s, r, r', s', h, hloop => by
    unfold addSparseMappingLoop at hloop
    split_ifs at hloop
    · split at hloop
      · cases hloop
      · rename_i err gpt hins
        have h₁ := h.setGpt me i (reachable_insertGptMapping (h me i) hins)
        dsimp only at hloop
        split_ifs at hloop
        · cases hloop
          exact h₁
        · exact addSparseMappingLoop_gptsReachable slots _ r h₁ hloop
        · cases hloop
          exact h₁
    · exact addSparseMappingLoop_gptsReachable slots s _ h hloop
    · exact addSparseMappingLoop_gptsReachable slots s r h hloop

theorem addSparseMapping_gptsReachable {allocs : Fin maxMaps → GptAllocs} {s s' : Slots}
    {e : Error} (h : s.GptsReachable)
    (hadd : addSparseMapping allocs me as phys size vbase attrs s = some (e, s')) :
    s'.GptsReachable := by
  unfold addSparseMapping at hadd
  split at hadd
  · cases hadd
  · rename_i r s₁ hloop
    have h₁ := addSparseMappingLoop_gptsReachable _ _ _ h hloop
    split_ifs at hadd
    · cases hadd
      exact h₁
    · split at hadd
      · cases hadd
        exact h₁
      · rename_i j hj
        split at hadd
        · cases hadd
        · rename_i err gpt hins
          have h₂ := h₁.setGpt me j (reachable_insertGptMapping (h₁ me j) hins)
          dsimp only at hadd
          split_ifs at hadd
          · cases hadd
            exact h₂
          · cases hadd
            exact h₂.link.setAddrspace

theorem removeSparseMappingLoop_gptsReachable {allocs : Fin maxMaps → GptAllocs} :
    ∀ (slots : List (Fin maxMaps)) (s : Slots) {e : Error} {unmapped : Bool} {s' : Slots},
    s.GptsReachable →
    removeSparseMappingLoop allocs me as phys size vbase slots s = some (e, unmapped, s') →
    s'.GptsReachable
  | [], s, e, unmapped, s', h, hloop => by
    cases hloop
    exact h
  | i :: slots, s, e, unmapped, s', h, hloop => by
    unfold removeSparseMappingLoop at hloop
    split_ifs at hloop
    · exact removeSparseMappingLoop_gptsReachable slots s h hloop
    · split at hloop
      · cases hloop
      · rename_i err gpt hrem
        have h₁ := h.setGpt me i (reachable_removeGptMapping (h me i) hrem)
        dsimp only at hloop
        split_ifs at hloop
        · cases hloop
          exact h₁.delete
        · cases hloop
          exact h₁
        · exact removeSparseMappingLoop_gptsReachable slots _ h₁ hloop
        · cases hloop
          exact h₁

theorem removeSparseMapping_gptsReachable {allocs : Fin maxMaps → GptAllocs} {s s' : Slots}
    {e : Error} (h : s.GptsReachable)
    (hrem : removeSparseMapping allocs me as phys size vbase s = some (e, s')) :
    s'.GptsReachable := by
  unfold removeSparseMapping at hrem
  obtain ⟨⟨err, unmapped, s₁⟩, hloop, hr⟩ := Option.map_eq_some_iff.1 hrem
  cases hr
  exact removeSparseMappingLoop_gptsReachable _ s h hloop

theorem releaseMappingsLoop_gptsReachable {clearAllocs : Fin maxMaps → GptAllocs}
    {retained : Fin maxMaps → Bool} {clear : Bool} :
    ∀ (slots : List (Fin maxMaps)) (s : Slots) {s' : Slots},
    s.GptsReachable → releaseMappingsLoop clearAllocs me retained clear slots s = some s' →
    s'.GptsReachable
  | [], s, s', h, hloop => by
    cases hloop
    exact h
  | i :: slots, s, s', h, hloop => by
    unfold releaseMappingsLoop at hloop
    split at hloop
    · exact releaseMappingsLoop_gptsReachable slots s h hloop
    · split at hloop
      · cases hloop
      · split at hloop
        · split at hloop
          · cases hloop
          · rename_i gpt hclear
            exact releaseMappingsLoop_gptsReachable slots _
              (h.setGpt me i (.clearAll _ _ (h me i) hclear)).delete hloop
        · exact releaseMappingsLoop_gptsReachable slots s h hloop

theorem deactivateAddrspaceLoop_gptsReachable {clearAllocs : Nat → Fin maxMaps → GptAllocs} :
    ∀ (nodes : List (Nat × Fin maxMaps)) (s : Slots) {s' : Slots},
    s.GptsReachable → deactivateAddrspaceLoop clearAllocs as nodes s = some s' →
    s'.GptsReachable
  | [], s, s', h, hloop => by
    cases hloop
    exact h
  | (me, i) :: nodes, s, s', h, hloop => by
    unfold deactivateAddrspaceLoop at hloop
    split at hloop
    · cases hloop
    · rename_i gpt hclear
      exact deactivateAddrspaceLoop_gptsReachable nodes _
        (h.setGpt me i (.clearAll _ _ (h me i) hclear)).delete hloop

end GptLoops

section GptCalls

variable {ops : AddrspaceOps} {s s' : SparseSystem} {e : Error}

/-- Every call leaves in each slot a GPT that GPT calls reach. -/
theorem SparseCall.run_gptsReachable (c : SparseCall) (h : s.slots.GptsReachable)
    (hrun : c.run ops s = some (e, s')) : s'.slots.GptsReachable := by
  cases c with
  | map me as vmBase offset size attrs addAllocs removeAllocs =>
    rcases memextentMapPartialSparse_slots hrun with
      ⟨-, -, rfl⟩ | ⟨ret, sl, hadd, ⟨-, hsl⟩ | ⟨-, -, hrem⟩⟩
    · exact h
    · rw [hsl]
      exact addSparseMapping_gptsReachable h hadd
    · exact removeSparseMapping_gptsReachable (addSparseMapping_gptsReachable h hadd) hrem
  | unmap me as vmBase offset size allocs =>
    rcases memextentUnmapPartialSparse_slots hrun with ⟨-, -, rfl⟩ | ⟨ret, hrem⟩
    · exact h
    · exact removeSparseMapping_gptsReachable h hrem
  | donateChild lookup me parentSparse phys size reverse =>
    simp only [SparseCall.run, Option.some.injEq, Prod.mk.injEq] at hrun
    rw [← hrun.2]
    exact h
  | donateSibling lookup src dst toSparse phys size =>
    simp only [SparseCall.run, Option.some.injEq, Prod.mk.injEq] at hrun
    rw [← hrun.2]
    exact h
  | deactivate lookup me parent live clearAllocs =>
    obtain ⟨s₁, hdeact, hs⟩ := Option.map_eq_some_iff.1 hrun
    cases hs
    unfold memextentDeactivateSparse at hdeact
    split at hdeact
    · cases hdeact
    · obtain ⟨slots, hrel, rfl⟩ := Option.map_eq_some_iff.1 hdeact
      exact releaseMappingsLoop_gptsReachable _ _ h hrel
  | deactivateAddrspace as clearAllocs =>
    obtain ⟨slots, hdeact, hs⟩ := Option.map_eq_some_iff.1 hrun
    cases hs
    exact deactivateAddrspaceLoop_gptsReachable _ s.slots h hdeact

theorem SlotsReachable.gptsReachable (hs : SlotsReachable ops s) : s.slots.GptsReachable := by
  induction hs with
  | init memdb pages => exact Slots.init_gptsReachable
  | call c _ hrun ih => exact c.run_gptsReachable ih hrun

end GptCalls

/-- In every state that calls on sparse extents reach, failed calls included, each slot's GPT is
one that GPT calls reach from `gpt_init`, with the handlers of `memextent_sparse.ev`. So
`gpt_is_empty`, which `remove_sparse_mapping` asks before it frees a slot, is true exactly when
the slot's GPT maps nothing. -/
theorem slotsReachable_gptIsEmpty_iff {ops : AddrspaceOps} {s : SparseSystem}
    (hs : SlotsReachable ops s) (me : Nat) (i : Fin maxMaps) :
    Gpt.gptIsEmpty (s.slots.maps me i).gpt = true ↔
      ∀ a, gptLookupEntry (s.slots.maps me i).gpt a = none :=
  Gpt.gptIsEmpty_iff_of_wf sparseHandlers (hs.gptsReachable me i).wf.1

/-- After extent 0 maps its sixteen addresses from 0 into address space 1, slot 0's GPT is not
empty, so it maps an address. -/
theorem slotsReachable_gptIsEmpty_iff_mapped :
    ∃ s, SlotsReachable exactOps s ∧ Gpt.gptIsEmpty (s.slots.maps 0 ⟨0, by decide⟩).gpt = false ∧
      ∃ a, gptLookupEntry (s.slots.maps 0 ⟨0, by decide⟩).gpt a ≠ none := by
  obtain ⟨s, hmap⟩ : ∃ s, memextentMapPartialSparse exactOps allocsOk allocsOk
      ⟨0, 0, 0, 16, 7, .any⟩ 1 5 0 16 ⟨7, 7, 0⟩
      ⟨Slots.init, fun a => if a < 16 then some (extentOwner 0) else none, fun _ _ => none⟩ =
        some (.ok, s) := ⟨_, rfl⟩
  have hempty : (memextentMapPartialSparse exactOps allocsOk allocsOk ⟨0, 0, 0, 16, 7, .any⟩ 1 5 0
      16 ⟨7, 7, 0⟩ ⟨Slots.init, fun a => if a < 16 then some (extentOwner 0) else none,
        fun _ _ => none⟩).map (fun r => Gpt.gptIsEmpty (r.2.slots.maps 0 ⟨0, by decide⟩).gpt) =
      some false := by decide
  rw [hmap, Option.map_some, Option.some.injEq] at hempty
  have hs : SlotsReachable exactOps s :=
    .call (.map ⟨0, 0, 0, 16, 7, .any⟩ 1 5 0 16 ⟨7, 7, 0⟩ allocsOk allocsOk)
      (.init (fun a => if a < 16 then some (extentOwner 0) else none) fun _ _ => none) hmap
  -- Not empty, so something is mapped.
  have hne : ¬ ∀ a, gptLookupEntry (s.slots.maps 0 ⟨0, by decide⟩).gpt a = none := fun hnone => by
    have := (slotsReachable_gptIsEmpty_iff hs 0 ⟨0, by decide⟩).2 hnone
    rw [hempty] at this
    exact absurd this (by decide)
  exact ⟨s, hs, hempty, not_forall.1 hne⟩

/-! ## A second mapping of a range moves it to another slot -/

end Gunyah.Memextent

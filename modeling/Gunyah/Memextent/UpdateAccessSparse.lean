import Gunyah.Memextent.DeriveBasic
import Gunyah.Gpt.Write

set_option autoImplicit false

/-!
# Changing the access of a sparse extent's mapping

A model of `memextent_update_access_partial_sparse` and `memextent_update_access_sparse`
(`hyp/mem/memextent_sparse/src/memextent_sparse.c`), with the helpers they call:
`update_gpt_mapping` and `memextent_map_range_sparse` through `memdb_range_walk`.

A sparse extent has `MEMEXTENT_MAX_MAPS` mapping slots. Each slot records, for one address space,
a GPT from physical addresses to `memextent_gpt_map` values: the virtual address, memory type
and accesses of the mapping. An access update searches the slots for the one of the address space
whose GPT maps the range's start to the requested virtual base. It then rewrites the GPT with the
new accesses and remaps the range through `addrspace_map`, reverting both on a failure.

The search loop of the code reads each slot's entry into `old_gpt_map` and stops at the match,
but never writes `update_map`, the slot it found. The test `update_map == NULL` after the loop
therefore always holds, and every call returns `ERROR_ADDR_INVALID` with nothing changed
(`memextentUpdateAccessPartialSparse_eq`), also when the slot it looks for is there
(`slotSearch_found`).

The GPTs are the GPT model of `Gunyah.Gpt`, with the handlers that `memextent_sparse.ev`
subscribes, and with every `partition_alloc` of their writes succeeding; `gpt_lookup` is read
through the entry it returns, which is what the GPT maps the address to. The spinlock is left out: the model is sequential. The `assert`s of the entry and of
the reverts are the caller's preconditions and are not modelled; a GPT panic gives `none`.
-/

namespace Gunyah.Memextent

open Memdb

/-- `GPT_VBASE_BITS`: the width of a mapping's virtual base in its GPT value. -/
def gptVbaseBits : Nat := 48

/-- `memextent_gpt_map_t`: the virtual base of a mapping, its memory type and accesses, and
whether a comparison looks only at the virtual base (`ignore_attrs`). -/
structure MemextentGptMap where
  vbase : Nat
  memtype : Nat
  userAccess : Nat
  kernelAccess : Nat
  ignoreAttrs : Bool
deriving DecidableEq, Repr

/-- `memextent_gpt_map_default ()`: every field zero. -/
def MemextentGptMap.default : MemextentGptMap := ⟨0, 0, 0, 0, false⟩

/-- The `gpt_type` values that a sparse extent's GPTs allow: `allocate_sparse_mappings` gives
`util_bit(GPT_TYPE_MEMEXTENT_MAPPING)` as their `allowed_types`. -/
inductive GptType where
  | memextentMapping
deriving DecidableEq, Repr

/-- `memextent_mapping_add_offset`: the virtual base moves by the offset, kept to the
`GPT_VBASE_BITS` bits of its field. -/
def memextentMappingAddOffset (v : MemextentGptMap) (offset : Nat) : MemextentGptMap :=
  { v with vbase := (v.vbase + offset) % 2 ^ gptVbaseBits }

/-- `memextent_mappings_equal`. -/
def memextentMappingsEqual (x y : MemextentGptMap) : Bool :=
  if x.ignoreAttrs || y.ignoreAttrs then x.vbase == y.vbase else x == y

/-- The handlers of `gpt_value_add_offset` and `gpt_values_equal` for memextent mappings. -/
def sparseHandlers : Gpt.GptHandlers GptType MemextentGptMap :=
  ⟨fun _ v k => memextentMappingAddOffset v k, fun _ x y => memextentMappingsEqual x y⟩

/-- A sparse extent's GPT. -/
abbrev SparseGpt := Gpt.Gpt GptType MemextentGptMap

/-- The entry of `gpt_lookup (gpt, base, size)`: what the GPT maps `base` to. -/
def gptLookupEntry (g : SparseGpt) (base : Nat) : Gpt.GptEntry GptType MemextentGptMap :=
  g.root.den sparseHandlers base

/-- `memextent_sparse_mapping_t`: the slot's address space (none for a free slot) and its GPT. -/
structure SparseMapping where
  addrspace : Option Nat
  gpt : SparseGpt

/-- `memextent_access_attrs_t`. -/
structure AccessAttrs where
  userAccess : Nat
  kernelAccess : Nat
deriving DecidableEq, Repr

/-- The state that an access update reads and writes: the extent's mapping slots, the memory
database and the address spaces' page maps. -/
structure SparseState where
  maps : Fin maxMaps → SparseMapping
  memdb : OwnerMap
  pages : Pages

/-- `memextent_sparse_arg_t`: what `memextent_map_range_sparse` maps, and the address where a
mapping failed. -/
structure SparseArg where
  addrspace : Nat
  vbase : Nat
  pbase : Nat
  memtype : Nat
  userAccess : Nat
  kernelAccess : Nat
  failAddr : Nat
deriving DecidableEq, Repr

/-- `memextent_map_range_sparse (phys, size, arg)`: map a run of the extent at its place in the
virtual range, recording `phys` in `fail_addr` on a failure. -/
def memextentMapRangeSparse (ops : AddrspaceOps) (phys size : Nat) :
    SparseArg × Pages → Error × SparseArg × Pages
  | (arg, pg) =>
    match ops.map pg arg.addrspace (arg.vbase + (phys - arg.pbase)) size phys
        ⟨arg.userAccess, arg.kernelAccess, arg.memtype⟩ with
    | .ok pg => (.ok, arg, pg)
    | .error e => (e, { arg with failAddr := phys }, pg)

/-- `update_gpt_mapping (map, phys, size, old_gpt_map, new_gpt_map)`. -/
def updateGptMapping (map : SparseMapping) (phys size : Nat) (old new : MemextentGptMap) :
    Option (Error × SparseGpt) :=
  Gpt.gptUpdate sparseHandlers map.gpt phys size (some (.memextentMapping, old))
    (some (.memextentMapping, new)) [] []

/-- The variables of the slot search: `update_map` and `old_gpt_map`. -/
structure SlotSearch where
  updateMap : Option (Fin maxMaps)
  oldGptMap : MemextentGptMap

/-- The slot search loop of `memextent_update_access_partial_sparse` over the slots `slots`. A
slot of another address space, or whose GPT maps nothing at `phys`, is skipped; otherwise its
entry is read into `old_gpt_map`, and the loop stops if the entry's virtual base is `vm_base`.
The loop body never assigns `update_map`. -/
def slotSearch (maps : Fin maxMaps → SparseMapping) (as phys vmBase : Nat) :
    List (Fin maxMaps) → SlotSearch → SlotSearch
  | [], r => r
  | i :: slots, r =>
    if (maps i).addrspace ≠ some as then slotSearch maps as phys vmBase slots r
    else
      match gptLookupEntry (maps i).gpt phys with
      | none => slotSearch maps as phys vmBase slots r
      | some (_, v) =>
        if v.vbase = vmBase then { r with oldGptMap := v }
        else slotSearch maps as phys vmBase slots { r with oldGptMap := v }

/-- The update of slot `i`'s GPT in the state. -/
def SparseState.setGpt (s : SparseState) (i : Fin maxMaps) (gpt : SparseGpt) : SparseState :=
  { s with maps := Function.update s.maps i { s.maps i with gpt } }

/-- What `memextent_update_access_partial_sparse` does once the search has found slot `i` with
the entry `old`: rewrite its GPT with the new accesses, then remap the range through
`memdb_range_walk`. A failed remapping remaps the part before `fail_addr` with the old accesses
and puts the old GPT entries back. -/
def updateAccessSlot (ops : AddrspaceOps) (me : Extent) (as vmBase phys size : Nat)
    (accessAttrs : AccessAttrs) (s : SparseState) (i : Fin maxMaps) (old : MemextentGptMap) :
    Option (Error × SparseState) :=
  let new := { old with userAccess := accessAttrs.userAccess,
                        kernelAccess := accessAttrs.kernelAccess }
  match updateGptMapping (s.maps i) phys size old new with
  | none => none
  | some (e, gpt) =>
    let s := s.setGpt i gpt
    if e ≠ .ok then some (e, s)
    else
      let arg : SparseArg := ⟨as, vmBase, phys, new.memtype, new.userAccess, new.kernelAccess, 0⟩
      let r := memdbRangeWalk s.memdb (extentOwner me.id) phys (phys + (size - 1))
        (memextentMapRangeSparse ops) (arg, s.pages)
      if r.1 = .ok then some (.ok, { s with pages := r.2.2 })
      else
        let failAddr := r.2.1.failAddr
        -- The revert of the address spaces, over the runs before the failing one.
        let reverted : Option Pages :=
          if failAddr ≠ phys then
            let arg := { r.2.1 with userAccess := old.userAccess, kernelAccess := old.kernelAccess }
            let r' := memdbRangeWalk s.memdb (extentOwner me.id) phys (failAddr - 1)
              (memextentMapRangeSparse ops) (arg, r.2.2)
            if r'.1 = .ok then some r'.2.2 else none
          else some r.2.2
        match reverted, updateGptMapping (s.maps i) phys size new old with
        | some pages, some (.ok, gpt) => some (r.1, { s.setGpt i gpt with pages })
        | _, _ => none

/-- `memextent_update_access_partial_sparse (me, addrspace, vm_base, offset, size,
access_attrs)`. -/
def memextentUpdateAccessPartialSparse (ops : AddrspaceOps) (me : Extent)
    (as vmBase offset size : Nat) (accessAttrs : AccessAttrs) (s : SparseState) :
    Option (Error × SparseState) :=
  let phys := me.physBase + offset
  if 2 ^ gptVbaseBits ≤ vmBase + (size - 1) then some (.addrInvalid, s)
  else
    let search := slotSearch s.maps as phys vmBase (List.finRange maxMaps)
      ⟨none, MemextentGptMap.default⟩
    match search.updateMap with
    | none => some (.addrInvalid, s)
    | some i => updateAccessSlot ops me as vmBase phys size accessAttrs s i search.oldGptMap

/-- `memextent_update_access_sparse`: the update over the whole extent. -/
def memextentUpdateAccessSparse (ops : AddrspaceOps) (me : Extent) (as vmBase : Nat)
    (accessAttrs : AccessAttrs) (s : SparseState) : Option (Error × SparseState) :=
  memextentUpdateAccessPartialSparse ops me as vmBase 0 me.size accessAttrs s

/-! ## The slot search -/

section Search

variable (maps : Fin maxMaps → SparseMapping) (as phys vmBase : Nat)

/-- The search leaves `update_map` as it found it. -/
theorem slotSearch_updateMap : ∀ (slots : List (Fin maxMaps)) (r : SlotSearch),
    (slotSearch maps as phys vmBase slots r).updateMap = r.updateMap
  | [], _ => rfl
  | i :: slots, r => by
    unfold slotSearch
    split_ifs with has
    · exact slotSearch_updateMap slots r
    · split
      · exact slotSearch_updateMap slots r
      · split_ifs
        · rfl
        · exact slotSearch_updateMap slots _

/-- A slot of the address space whose GPT maps `phys` to an entry with the virtual base `vm_base`
stops the search, at that slot or an earlier one, with such an entry in `old_gpt_map`. -/
theorem slotSearch_found : ∀ (slots : List (Fin maxMaps)) (r : SlotSearch) (i : Fin maxMaps),
    i ∈ slots → (maps i).addrspace = some as →
    (∃ v, gptLookupEntry (maps i).gpt phys = some (.memextentMapping, v) ∧ v.vbase = vmBase) →
    (slotSearch maps as phys vmBase slots r).oldGptMap.vbase = vmBase
  | [], _, _, hi, _, _ => absurd hi List.not_mem_nil
  | j :: slots, r, i, hi, has, hv => by
    obtain ⟨v, hlookup, hvbase⟩ := hv
    rcases List.mem_cons.1 hi with rfl | hmem
    · -- The slot is the first one: the search stops here.
      unfold slotSearch
      rw [if_neg (not_not.2 has), hlookup]
      simp only [if_pos hvbase]
      exact hvbase
    · -- A later slot: whatever the first slot does, the search either stops at an entry with
      -- the virtual base or goes on to the rest of the slots.
      have ih : ∀ r', (slotSearch maps as phys vmBase slots r').oldGptMap.vbase = vmBase :=
        fun r' => slotSearch_found slots r' i hmem has ⟨v, hlookup, hvbase⟩
      unfold slotSearch
      split_ifs with hj
      · exact ih r
      · split
        · exact ih r
        · split_ifs with hw
          · exact hw
          · exact ih _

end Search

/-! ## The update -/

/-- Every access update returns `ERROR_ADDR_INVALID` and changes nothing: the search never
records the slot it finds. -/
theorem memextentUpdateAccessPartialSparse_eq (ops : AddrspaceOps) (me : Extent)
    (as vmBase offset size : Nat) (accessAttrs : AccessAttrs) (s : SparseState) :
    memextentUpdateAccessPartialSparse ops me as vmBase offset size accessAttrs s =
      some (.addrInvalid, s) := by
  unfold memextentUpdateAccessPartialSparse
  split_ifs
  · rfl
  · dsimp only
    rw [slotSearch_updateMap]

/-- The range `[phys, phys + size)` of slot `i`'s GPT maps each address `a` to the virtual base
`vm_base + (a - phys)`, with one memory type and one pair of accesses. -/
def MapsRange (m : SparseMapping) (phys size vmBase memtype userAccess kernelAccess : Nat) :
    Prop :=
  ∀ a, phys ≤ a → a < phys + size →
    gptLookupEntry m.gpt a =
      some (.memextentMapping, ⟨vmBase + (a - phys), memtype, userAccess, kernelAccess, false⟩)

instance (m : SparseMapping) (phys size vmBase memtype userAccess kernelAccess : Nat) :
    Decidable (MapsRange m phys size vmBase memtype userAccess kernelAccess) :=
  inferInstanceAs (Decidable (∀ a, phys ≤ a → a < phys + size → _))

/-- A slot that maps the range as an access update expects is found by the slot search, which
stops at an entry with the requested virtual base. -/
theorem MapsRange.slotSearch_vbase {s : SparseState} {me : Extent} {i : Fin maxMaps}
    {as vmBase offset size memtype userAccess kernelAccess : Nat} (hsize : 0 < size)
    (has : (s.maps i).addrspace = some as)
    (hmaps : MapsRange (s.maps i) (me.physBase + offset) size vmBase memtype userAccess
      kernelAccess) (r : SlotSearch) :
    (slotSearch s.maps as (me.physBase + offset) vmBase (List.finRange maxMaps) r).oldGptMap.vbase =
      vmBase := by
  have hstart := hmaps (me.physBase + offset) le_rfl (by omega)
  rw [Nat.sub_self, Nat.add_zero] at hstart
  exact slotSearch_found s.maps as _ vmBase _ r i (List.mem_finRange i) has ⟨_, hstart, rfl⟩

/-- An access update of a range that a slot of the address space maps at the requested virtual
base finds the slot, and still returns `ERROR_ADDR_INVALID` with nothing changed. -/
theorem update_access_sparse_slot_dropped (ops : AddrspaceOps) (me : Extent) (s : SparseState)
    (i : Fin maxMaps) (as vmBase offset size memtype userAccess kernelAccess : Nat)
    (accessAttrs : AccessAttrs) (hsize : 0 < size) (has : (s.maps i).addrspace = some as)
    (hmaps : MapsRange (s.maps i) (me.physBase + offset) size vmBase memtype userAccess
      kernelAccess) :
    (slotSearch s.maps as (me.physBase + offset) vmBase (List.finRange maxMaps)
        ⟨none, MemextentGptMap.default⟩).oldGptMap.vbase = vmBase ∧
      memextentUpdateAccessPartialSparse ops me as vmBase offset size accessAttrs s =
        some (.addrInvalid, s) :=
  ⟨hmaps.slotSearch_vbase hsize has _,
    memextentUpdateAccessPartialSparse_eq ops me as vmBase offset size accessAttrs s⟩

/-- The failing input: every slot belongs to address space 1 and maps the sixteen addresses from
0 to the virtual addresses from 5, the extent owns them, and `addrspace_map` always succeeds. The
update of their access is refused. -/
theorem update_access_sparse_slot_dropped_block :
    (0 < 16 ∧
      ((⟨fun _ => ⟨some 1, ⟨.leaf 0 4 .memextentMapping ⟨5, 0, 7, 7, false⟩, 44, fun _ => true⟩⟩,
          fun _ => some (extentOwner 0), fun _ _ => none⟩ : SparseState).maps ⟨0, by decide⟩).addrspace =
        some 1 ∧
      MapsRange ((⟨fun _ => ⟨some 1, ⟨.leaf 0 4 .memextentMapping ⟨5, 0, 7, 7, false⟩, 44,
          fun _ => true⟩⟩, fun _ => some (extentOwner 0), fun _ _ => none⟩ : SparseState).maps ⟨0, by decide⟩)
        ((⟨0, 0, 0, 16, 7, .any⟩ : Extent).physBase + 0) 16 5 0 7 7) ∧
    (slotSearch (⟨fun _ => ⟨some 1, ⟨.leaf 0 4 .memextentMapping ⟨5, 0, 7, 7, false⟩, 44,
          fun _ => true⟩⟩, fun _ => some (extentOwner 0), fun _ _ => none⟩ : SparseState).maps 1
        ((⟨0, 0, 0, 16, 7, .any⟩ : Extent).physBase + 0) 5 (List.finRange maxMaps)
        ⟨none, MemextentGptMap.default⟩).oldGptMap.vbase = 5 ∧
      memextentUpdateAccessPartialSparse
        ⟨fun pg as v sz p attrs => .ok (mapRange pg as v sz p attrs),
          fun pg as v sz _ => .ok (unmapRange pg as v sz)⟩
        ⟨0, 0, 0, 16, 7, .any⟩ 1 5 0 16 ⟨1, 1⟩
        ⟨fun _ => ⟨some 1, ⟨.leaf 0 4 .memextentMapping ⟨5, 0, 7, 7, false⟩, 44, fun _ => true⟩⟩,
          fun _ => some (extentOwner 0), fun _ _ => none⟩ =
        some (.addrInvalid, ⟨fun _ => ⟨some 1, ⟨.leaf 0 4 .memextentMapping ⟨5, 0, 7, 7, false⟩,
          44, fun _ => true⟩⟩, fun _ => some (extentOwner 0), fun _ _ => none⟩) := by
  have hmaps : MapsRange ((⟨fun _ => ⟨some 1, ⟨.leaf 0 4 .memextentMapping ⟨5, 0, 7, 7, false⟩, 44,
      fun _ => true⟩⟩, fun _ => some (extentOwner 0), fun _ _ => none⟩ : SparseState).maps ⟨0, by decide⟩)
      ((⟨0, 0, 0, 16, 7, .any⟩ : Extent).physBase + 0) 16 5 0 7 7 := by
    decide
  exact ⟨⟨by decide, rfl, hmaps⟩, update_access_sparse_slot_dropped _ _ _ ⟨0, by decide⟩ 1 5 0 16 0 7 7 ⟨1, 1⟩
    (by decide) rfl hmaps⟩

end Gunyah.Memextent

import Gunyah.Memextent.DeriveBasic

set_option autoImplicit false

/-!
# Donating memory between sparse extents

A model of the donation functions of `hyp/mem/memextent_sparse/src/memextent_sparse.c`:
`memextent_donate_child_sparse` and `memextent_donate_sibling_sparse`, with the helpers they use,
`update_memdb_partition_and_extent`, `update_memdb_two_extents`, `apply_mappings`,
`do_mapping_transfer` and `revert_mapping_transfer`.

Donation first moves the range's ownership in the memory database, then walks the range chunk by
chunk: each chunk is the longest stretch over which every mapping slot of the extents involved
answers the same (`memextent_lookup_mapping`, the parameter `lookup`), and its mappings are applied
in the address spaces. A failure reverts the failing chunk, and the caller then reverts the chunks
before it.

Nothing reverts the memory database: a donation from a partition that fails in its first mapping
returns the error with the range already owned by the extent (`donateChildSparse_keeps_memdb`).

The chunk loops of the C code end because each chunk is nonempty, as the lookups answer with
nonzero sizes; the model bounds each loop by the size of the range, which is then enough.
The `panic` calls of the C code, on a revert that fails, are not modelled: the model keeps the
address spaces as they were before the failing revert.
-/

namespace Gunyah.Memextent

open Memdb

/-- The fields of a sparse extent that donation reads. -/
structure SparseExtent where
  id : Nat
  partition : Nat
  parent : Option Nat
deriving DecidableEq, Repr

/-- The state that donation reads and writes: ownership and page maps. -/
structure DonateState where
  memdb : OwnerMap
  pages : Pages

/-- The memory database entry of a partition. -/
def partitionOwner (p : Nat) : Owner := ⟨p, .partition⟩

/-- `memextent_lookup_mapping (me, phys, size, i)` for every extent. -/
abbrev Lookup := Nat → Nat → Nat → Nat → Mapping

/-- `do_as_map`: `addrspace_map` with the attributes of a mapping. -/
def doAsMap (ops : AddrspaceOps) (pg : Pages) (m : Mapping) (as size phys : Nat) :
    Except Error Pages :=
  ops.map pg as m.vbase size phys m.attrs

/-- An undo step whose failure panics in the C code: the model keeps the pages. -/
def orKeep (pg : Pages) : Except Error Pages → Pages
  | .ok pg' => pg'
  | .error _ => pg

/-! ## `apply_mappings` -/

/-- The lookups at the start of a chunk of `me`'s range at `phys`: each slot's answer, the chunk
shrinking to the smallest answer. -/
def lookupChunk (lookup : Lookup) (me phys : Nat) : List Nat → Nat → List Mapping × Nat
  | [], size => ([], size)
  | i :: slots, size =>
      let m := lookup me phys size i
      let r := lookupChunk lookup me phys slots (min m.size size)
      (m :: r.1, r.2)

/-- The mapping pass of `apply_mappings` over one chunk: map, or unmap, each mapped slot in turn,
stopping at the first failure. The result is the error (`OK` if none), the index of the failing
slot, and the pages as they are then. -/
def applyChunk (ops : AddrspaceOps) (unmap : Bool) (phys size : Nat) :
    Nat → List Mapping → Pages → Error × Nat × Pages
  | _, [], pg => (.ok, 0, pg)
  | i, m :: maps, pg =>
      match m.addrspace with
      | none => applyChunk ops unmap phys size (i + 1) maps pg
      | some as =>
          let r := if unmap then ops.unmap pg as m.vbase size phys else doAsMap ops pg m as size phys
          match r with
          | .ok pg => applyChunk ops unmap phys size (i + 1) maps pg
          | .error e => (e, i, pg)

/-- The revert of a failed chunk in `apply_mappings`: undo each mapped slot before the failing
one. -/
def revertChunk (ops : AddrspaceOps) (unmap : Bool) (phys size : Nat) :
    List Mapping → Pages → Pages
  | [], pg => pg
  | m :: maps, pg =>
      match m.addrspace with
      | none => revertChunk ops unmap phys size maps pg
      | some as =>
          let r := if unmap then doAsMap ops pg m as size phys else ops.unmap pg as m.vbase size phys
          revertChunk ops unmap phys size maps (orKeep pg r)

/-- The chunk loop of `apply_mappings (me, phys, size, unmap, &fail_offset)` from `offset`. The
result is the error, `*fail_offset` (set only when a mapping fails; an unmapping that fails stops
the loop without it), and the pages. -/
def applyMappingsLoop (ops : AddrspaceOps) (lookup : Lookup) (me phys size : Nat) (unmap : Bool) :
    Nat → Nat → Pages → Error × Nat × Pages
  | 0, _, pg => (.ok, 0, pg)
  | fuel + 1, offset, pg =>
      if offset < size then
        let currPhys := phys + offset
        let chunk := lookupChunk lookup me currPhys (List.range maxMaps) (size - offset)
        let r := applyChunk ops unmap currPhys chunk.2 0 chunk.1 pg
        if r.1 = .ok then applyMappingsLoop ops lookup me phys size unmap fuel (offset + chunk.2) r.2.2
        else if unmap then (r.1, 0, r.2.2)
        else (r.1, offset, revertChunk ops unmap currPhys chunk.2 (chunk.1.take r.2.1) r.2.2)
      else (.ok, 0, pg)

/-- `apply_mappings`. -/
def applyMappings (ops : AddrspaceOps) (lookup : Lookup) (me phys size : Nat) (unmap : Bool)
    (pg : Pages) : Error × Nat × Pages :=
  applyMappingsLoop ops lookup me phys size unmap size 0 pg

/-! ## `do_mapping_transfer` -/

/-- The lookups at the start of a chunk of a transfer from `x` to `y`: both extents' answers for
each slot, the chunk shrinking to the smallest. -/
def lookupPairChunk (lookup : Lookup) (x y phys : Nat) :
    List Nat → Nat → List (Mapping × Mapping) × Nat
  | [], size => ([], size)
  | i :: slots, size =>
      let xm := lookup x phys size i
      let ym := lookup y phys size i
      let r := lookupPairChunk lookup x y phys slots (min ym.size (min xm.size size))
      ((xm, ym) :: r.1, r.2)

/-- `x_match[i]`: the last slot `j` of `y` in the same address space as `x`'s slot `i` decides
whether their virtual bases match; no such slot leaves it false. -/
def xMatch (ymaps : List Mapping) (xm : Mapping) : Bool :=
  xm.addrspace.isSome &&
    (ymaps.filter fun ym => ym.addrspace == xm.addrspace).getLast?.any fun ym => ym.vbase == xm.vbase

/-- `y_match[j]`: the last slot `i` of `x` in the same address space as `y`'s slot `j` decides
whether both the virtual bases and the attributes match. -/
def yMatch (xmaps : List Mapping) (ym : Mapping) : Bool :=
  (xmaps.filter fun xm => xm.addrspace.isSome && xm.addrspace == ym.addrspace).getLast?.any
    fun xm => xm.vbase == ym.vbase && xm.attrs == ym.attrs

/-- The transfer pass over one chunk: for each slot, unmap `x`'s mapping unless `y` keeps it, then
map `y`'s unless `x` already had it. The result is the error, how many slots of `x` and of `y` were
passed (`x_idx`, `y_idx`), and the pages. -/
def transferChunk (ops : AddrspaceOps) (xmaps ymaps : List Mapping) (phys size : Nat) :
    Nat → List (Mapping × Mapping) → Pages → Error × Nat × Nat × Pages
  | _, [], pg => (.ok, 0, 0, pg)
  | i, (xm, ym) :: pairs, pg =>
      let unmapX : Except Error Pages :=
        match xm.addrspace with
        | some as => if !xMatch ymaps xm then ops.unmap pg as xm.vbase size phys else .ok pg
        | none => .ok pg
      match unmapX with
      | .error e => (e, i, i, pg)
      | .ok pg =>
          let mapY : Except Error Pages :=
            match ym.addrspace with
            | some as => if !yMatch xmaps ym then doAsMap ops pg ym as size phys else .ok pg
            | none => .ok pg
          match mapY with
          | .error e => (e, i + 1, i, pg)
          | .ok pg => transferChunk ops xmaps ymaps phys size (i + 1) pairs pg

/-- `revert_mapping_transfer`: for the slots passed, map `x`'s mapping back and unmap `y`'s. -/
def revertMappingTransfer (ops : AddrspaceOps) (xmaps ymaps : List Mapping) (phys size xIdx yIdx : Nat) :
    Nat → List (Mapping × Mapping) → Pages → Pages
  | _, [], pg => pg
  | i, (xm, ym) :: pairs, pg =>
      let pg :=
        match xm.addrspace with
        | some as =>
            if i < xIdx && !xMatch ymaps xm then orKeep pg (doAsMap ops pg xm as size phys) else pg
        | none => pg
      let pg :=
        match ym.addrspace with
        | some as =>
            if i < yIdx && !yMatch xmaps ym then orKeep pg (ops.unmap pg as ym.vbase size phys)
            else pg
        | none => pg
      revertMappingTransfer ops xmaps ymaps phys size xIdx yIdx (i + 1) pairs pg

/-- The chunk loop of `do_mapping_transfer (x, y, phys, size, &fail_offset)` from `offset`: the
error, `*fail_offset` and the pages. -/
def doMappingTransferLoop (ops : AddrspaceOps) (lookup : Lookup) (x y phys size : Nat) :
    Nat → Nat → Pages → Error × Nat × Pages
  | 0, _, pg => (.ok, 0, pg)
  | fuel + 1, offset, pg =>
      if offset < size then
        let currPhys := phys + offset
        let chunk := lookupPairChunk lookup x y currPhys (List.range maxMaps) (size - offset)
        let xmaps := chunk.1.map Prod.fst
        let ymaps := chunk.1.map Prod.snd
        let r := transferChunk ops xmaps ymaps currPhys chunk.2 0 chunk.1 pg
        if r.1 = .ok then
          doMappingTransferLoop ops lookup x y phys size fuel (offset + chunk.2) r.2.2.2
        else
          (r.1, offset,
            revertMappingTransfer ops xmaps ymaps currPhys chunk.2 r.2.1 r.2.2.1 0 chunk.1 r.2.2.2)
      else (.ok, 0, pg)

/-- `do_mapping_transfer`. -/
def doMappingTransfer (ops : AddrspaceOps) (lookup : Lookup) (x y phys size : Nat) (pg : Pages) :
    Error × Nat × Pages :=
  doMappingTransferLoop ops lookup x y phys size size 0 pg

/-! ## Donation -/

/-- `update_memdb_partition_and_extent`: move the range between the extent and its partition. -/
def updateMemdbPartitionAndExtent (db : OwnerMap) (me : SparseExtent) (phys size : Nat)
    (toPartition : Bool) : Except Error OwnerMap :=
  if toPartition then
    memdbUpdateRetry db phys (phys + (size - 1)) (partitionOwner me.partition) (extentOwner me.id)
  else memdbUpdateRetry db phys (phys + (size - 1)) (extentOwner me.id) (partitionOwner me.partition)

/-- `update_memdb_two_extents`: move the range from one extent to the other. -/
def updateMemdbTwoExtents (db : OwnerMap) (src dst phys size : Nat) : Except Error OwnerMap :=
  memdbUpdateRetry db phys (phys + (size - 1)) (extentOwner dst) (extentOwner src)

/-- `donate_memextents_common`: move the range from `src` to `dst` in the memory database, then
transfer the mappings; on a failure the transfer is run again over the part before the failing
chunk, from `src` to `dst` as the first one. -/
def donateMemextentsCommon (ops : AddrspaceOps) (lookup : Lookup) (src dst phys size : Nat)
    (s : DonateState) : Error × DonateState :=
  match updateMemdbTwoExtents s.memdb src dst phys size with
  | .error e => (e, s)
  | .ok db =>
      let r := doMappingTransfer ops lookup src dst phys size s.pages
      let pg := if r.1 ≠ .ok then (doMappingTransfer ops lookup src dst phys r.2.1 r.2.2).2.2
        else r.2.2
      (r.1, { memdb := db, pages := pg })

/-- `memextent_donate_child_sparse`. `parentSparse` is whether the parent, if any, is a sparse
extent. Without a parent the donation is between the extent and its partition. -/
def memextentDonateChildSparse (ops : AddrspaceOps) (lookup : Lookup) (me : SparseExtent)
    (parentSparse : Bool) (phys size : Nat) (reverse : Bool) (s : DonateState) :
    Error × DonateState :=
  match me.parent with
  | some parent =>
      if !parentSparse then (.argumentInvalid, s)
      else if reverse then donateMemextentsCommon ops lookup me.id parent phys size s
      else donateMemextentsCommon ops lookup parent me.id phys size s
  | none =>
      match updateMemdbPartitionAndExtent s.memdb me phys size reverse with
      | .error e => (e, s)
      | .ok db =>
          let r := applyMappings ops lookup me.id phys size reverse s.pages
          let pg := if r.1 ≠ .ok then (applyMappings ops lookup me.id phys r.2.1 true r.2.2).2.2
            else r.2.2
          (r.1, { memdb := db, pages := pg })

/-- `memextent_donate_sibling_sparse`. `toSparse` is whether the receiving extent is sparse. -/
def memextentDonateSiblingSparse (ops : AddrspaceOps) (lookup : Lookup) (src dst : Nat)
    (toSparse : Bool) (phys size : Nat) (s : DonateState) : Error × DonateState :=
  if !toSparse then (.argumentInvalid, s)
  else donateMemextentsCommon ops lookup src dst phys size s

/-! ## A failed donation keeps the new owner -/

section Failure

variable {ops : AddrspaceOps} {lookup : Lookup} {me : SparseExtent} {s : DonateState}
  {phys size : Nat}

/-- `apply_mappings` that fails at the first mapped slot of the first chunk reports offset 0 and
leaves the pages as they were. -/
theorem applyMappings_fail_first {e : Error} {as : Nat} (hsize : 0 < size)
    (hslot : (lookup me.id phys size 0).addrspace = some as)
    (hfail : ∀ size', doAsMap ops s.pages (lookup me.id phys size 0) as size' phys = .error e)
    (he : e ≠ .ok) :
    applyMappings ops lookup me.id phys size false s.pages = (e, 0, s.pages) := by
  obtain ⟨k, rfl⟩ : ∃ k, size = k + 1 := ⟨size - 1, by omega⟩
  have hr : List.range maxMaps = 0 :: [1, 2, 3] := rfl
  -- The first chunk's first slot is the first mapping tried, and it fails.
  have hchunk : ∀ sz, applyChunk ops false phys sz 0
      (lookupChunk lookup me.id phys (List.range maxMaps) (k + 1)).1 s.pages = (e, 0, s.pages) := by
    intro sz
    simp only [hr, lookupChunk, applyChunk, hslot, Bool.false_eq_true, if_false, hfail]
  simp only [applyMappings, applyMappingsLoop, if_pos hsize, Nat.sub_zero, Nat.add_zero, hchunk,
    if_neg he, Bool.false_eq_true, if_false, List.take_zero, revertChunk]

/-- A donation from the partition to an extent without a parent that fails at the first mapping
returns the error, but leaves the range owned by the extent in the memory database. -/
theorem donateChildSparse_keeps_memdb {e : Error} {as : Nat} (hsize : 0 < size)
    (hnone : me.parent = none)
    (hown : ∀ a, phys ≤ a → a ≤ phys + (size - 1) → s.memdb a = some (partitionOwner me.partition))
    (hslot : (lookup me.id phys size 0).addrspace = some as)
    (hfail : ∀ size', doAsMap ops s.pages (lookup me.id phys size 0) as size' phys = .error e)
    (he : e ≠ .ok) :
    let r := memextentDonateChildSparse ops lookup me false phys size false s
    r.1 = e ∧ r.2.pages = s.pages ∧ r.2.memdb phys = some (extentOwner me.id) ∧
      s.memdb phys ≠ some (extentOwner me.id) := by
  -- The partition owns the range, so the ownership moves to the extent.
  have hupd : updateMemdbPartitionAndExtent s.memdb me phys size false =
      .ok (setRange s.memdb phys (phys + (size - 1)) (extentOwner me.id)) := by
    have h : memdbUpdate s.memdb phys (phys + (size - 1)) (extentOwner me.id)
        (partitionOwner me.partition) =
        .ok (setRange s.memdb phys (phys + (size - 1)) (extentOwner me.id)) :=
      memdbUpdate_ok_iff.2 ⟨hown, rfl⟩
    simp only [updateMemdbPartitionAndExtent, Bool.false_eq_true, if_false, memdbUpdateRetry, h]
  have happly := applyMappings_fail_first (s := s) hsize hslot hfail he
  -- The revert walks the part before the failing chunk, which is empty.
  have hrevert : applyMappings ops lookup me.id phys 0 true s.pages = (.ok, 0, s.pages) := rfl
  simp only [memextentDonateChildSparse, hnone, hupd, happly, ne_eq, he, not_false_eq_true,
    if_true, hrevert]
  refine ⟨trivial, trivial, by simp [setRange], ?_⟩
  rw [hown phys (le_refl _) (by omega)]
  simp [partitionOwner, extentOwner]

/-- A page donated from partition 1 to extent 2, whose first slot maps it into address space 5,
where mapping fails for lack of memory. -/
theorem donateChildSparse_keeps_memdb_page :
    let me : SparseExtent := ⟨2, 1, none⟩
    let s : DonateState := ⟨fun _ => some (partitionOwner 1), fun _ _ => none⟩
    let ops : AddrspaceOps := ⟨fun _ _ _ _ _ _ => .error .nomem, fun pg _ _ _ _ => .ok pg⟩
    let lookup : Lookup := fun _ _ sz i =>
      if i = 0 then ⟨some 5, 4096, sz, ⟨7, 7, 0⟩⟩ else ⟨none, 0, sz, ⟨0, 0, 0⟩⟩
    let r := memextentDonateChildSparse ops lookup me false 4096 4096 false s
    r.1 = .nomem ∧ r.2.pages = s.pages ∧ r.2.memdb 4096 = some (extentOwner me.id) ∧
      s.memdb 4096 ≠ some (extentOwner me.id) :=
  donateChildSparse_keeps_memdb (by decide) rfl (fun _ _ _ => rfl) rfl (fun _ => rfl) (by decide)

end Failure

end Gunyah.Memextent

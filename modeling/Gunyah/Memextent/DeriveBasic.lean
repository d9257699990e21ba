import Gunyah.Memextent.Mapping
import Mathlib.Logic.Function.Basic

set_option autoImplicit false

/-!
# Activating a derived basic extent

A model of `memextent_activate_derive_basic` (`hyp/mem/memextent/src/memextent_basic.c`), with the
function that calls it, `memextent_handle_object_activate_memextent`, and the clean-up of a basic
extent, `memextent_cleanup_basic`. Deriving takes the child's range over from the parent in the
memory database, then copies each of the parent's mapping slots to the child with the access
reduced to the child's, remapping where the access changed. On an error it undoes the remappings and
the ownership change (`memextent_revert_activation_mappings`).

The parent's slots are read through `memextent_lookup_mapping`, given here as the parameter
`lookup`: its answer for slot `i` over the child's range. A basic parent answers with the whole
range; a sparse parent may answer with less, when only part of the range is mapped.

Whatever the outcome, the child is then put on the parent's `children_list`. When the derivation
fails the child never becomes active, and its clean-up skips inactive extents, so it stays on the
list (`activateDeriveBasic_denied`).
-/

namespace Gunyah.Memextent

open Memdb

/-- `memextent_basic_mapping_t`: one mapping slot of a basic extent. -/
structure BasicMapping where
  addrspace : Option Nat
  vbase : Nat
  attrs : Attrs
deriving DecidableEq, Repr

/-- A slot with no mapping, as `allocate_mappings` zeroes them. -/
def BasicMapping.empty : BasicMapping := ⟨none, 0, ⟨0, 0, 0⟩⟩

/-- `memextent_memtype_t`. -/
inductive MemextentMemtype where
  | any
  | device
  | uncached
  | cached
deriving DecidableEq, Repr

/-- The fields of a derived extent that activation reads. -/
structure Extent where
  id : Nat
  parent : Nat
  physBase : Nat
  size : Nat
  access : Nat
  memtype : MemextentMemtype
deriving DecidableEq, Repr

/-- The state that activation, deactivation and clean-up of extents read and write: the memory
database, the address spaces' page maps and `basic_mapping_list`s (entries are an extent and a
slot), and per extent its mapping slots (empty when not allocated), `children_list`,
`attached_size` and `active`. -/
structure ExtentState where
  memdb : OwnerMap
  pages : Pages
  mappingList : Nat → List (Nat × Nat)
  basicMaps : Nat → List BasicMapping
  children : Nat → List Nat
  attachedSize : Nat → Nat
  active : Nat → Bool

namespace ExtentState

variable (s : ExtentState)

/-- Slot `i` of extent `e`. -/
def slot (e i : Nat) : BasicMapping := (s.basicMaps e).getD i BasicMapping.empty

def setSlot (e i : Nat) (m : BasicMapping) : ExtentState :=
  { s with basicMaps := Function.update s.basicMaps e ((s.basicMaps e).set i m) }

/-- `list_insert_at_head` of slot `i` of extent `e` on the address space's mapping list. -/
def listInsert (as e i : Nat) : ExtentState :=
  { s with mappingList := Function.update s.mappingList as ((e, i) :: s.mappingList as) }

/-- `memextent_remove_map_from_addrspace_list`: unlink the slot and clear its address space. -/
def removeMap (as e i : Nat) : ExtentState :=
  let s := { s with mappingList := Function.update s.mappingList as ((s.mappingList as).erase (e, i)) }
  s.setSlot e i { s.slot e i with addrspace := none }

end ExtentState

/-- The memory database entry of an extent. -/
def extentOwner (e : Nat) : Owner := ⟨e, .extent⟩

/-- `memdb_update`, tried again once after `rcu_sync` when the range had another owner. In this
sequential model the second try sees the same database. -/
def memdbUpdateRetry (db : OwnerMap) (start last : Nat) (obj prev : Owner) :
    Except Error OwnerMap :=
  match memdbUpdate db start last obj prev with
  | .error .memdbNotOwner => memdbUpdate db start last obj prev
  | r => r

/-- `memextent_do_map (me, map, 0, me->size)`: map the extent's whole range through one slot. -/
def doMap (ops : AddrspaceOps) (me : Extent) (pg : Pages) (as : Nat) (m : BasicMapping) :
    Except Error Pages :=
  ops.map pg as m.vbase me.size me.physBase m.attrs

/-- The loop of `memextent_activate_derive_basic` over the parent's slots, from the slots in
`slots`. A slot is copied with its access reduced, linked on its address space's list, and
remapped if the access changed; a parent slot that does not cover the whole range stops the loop
with `ERROR_DENIED`, a failed remapping with its error after unlinking the slot. -/
def deriveSlots (ops : AddrspaceOps) (lookup : Nat → Mapping) (me : Extent) :
    List Nat → ExtentState → Error × ExtentState
  | [], s => (.ok, s)
  | i :: slots, s =>
      let parentMap := lookup i
      if parentMap.size ≠ me.size then (.denied, s)
      else
        match parentMap.addrspace with
        | none => deriveSlots ops lookup me slots s
        | some as =>
            let m : BasicMapping := ⟨some as, parentMap.vbase, parentMap.attrs.reduce me.access⟩
            let s := (s.setSlot me.id i m).listInsert as me.id i
            if m.attrs ≠ parentMap.attrs then
              match doMap ops me s.pages as m with
              | .ok pages => deriveSlots ops lookup me slots { s with pages := pages }
              | .error e => (e, s.removeMap as me.id i)
            else deriveSlots ops lookup me slots s

/-- The slot loop of `memextent_revert_activation_mappings`: each slot still linked gets the
parent's attributes back, remapped if they differ (asserted to succeed), and is unlinked. -/
def revertSlots (ops : AddrspaceOps) (lookup : Nat → Mapping) (me : Extent) :
    List Nat → ExtentState → ExtentState
  | [], s => s
  | i :: slots, s =>
      let m := s.slot me.id i
      match m.addrspace with
      | none => revertSlots ops lookup me slots s
      | some as =>
          let parentMap := lookup i
          let s :=
            if m.attrs ≠ parentMap.attrs then
              let s := s.setSlot me.id i { m with attrs := parentMap.attrs }
              match doMap ops me s.pages as { m with attrs := parentMap.attrs } with
              | .ok pages => { s with pages := pages }
              | .error _ => s
            else s
          revertSlots ops lookup me slots (s.removeMap as me.id i)

/-- `memextent_revert_activation_mappings`: revert the slots, then give the range back to the
parent in the memory database (asserted to succeed). -/
def revertActivationMappings (ops : AddrspaceOps) (lookup : Nat → Mapping) (me : Extent)
    (s : ExtentState) : ExtentState :=
  let s := revertSlots ops lookup me (List.range maxMaps) s
  match memdbUpdate s.memdb me.physBase (me.physBase + (me.size - 1))
      (extentOwner me.parent) (extentOwner me.id) with
  | .ok db => { s with memdb := db }
  | .error _ => s

/-- `allocate_mappings` (zeroed slots) and `free_mappings`. -/
def allocateMappings (s : ExtentState) (e : Nat) : ExtentState :=
  { s with basicMaps := Function.update s.basicMaps e (List.replicate maxMaps BasicMapping.empty) }

def freeMappings (s : ExtentState) (e : Nat) : ExtentState :=
  { s with basicMaps := Function.update s.basicMaps e [] }

/-- `memextent_activate_derive_basic`. `allocOk` is whether `partition_alloc` of the slot array
succeeds. -/
def memextentActivateDeriveBasic (ops : AddrspaceOps) (allocOk : Bool)
    (lookup : Nat → Mapping) (me : Extent) (s : ExtentState) : Error × ExtentState :=
  if !allocOk then (.nomem, s)
  else
    let s := allocateMappings s me.id
    if s.attachedSize me.parent ≠ 0 then (.busy, freeMappings s me.id)
    else
      match memdbUpdateRetry s.memdb me.physBase (me.physBase + (me.size - 1))
          (extentOwner me.id) (extentOwner me.parent) with
      | .error e => (e, freeMappings s me.id)
      | .ok db =>
          let r := deriveSlots ops lookup me (List.range maxMaps) { s with memdb := db }
          let ret := r.1
          let s := if ret ≠ .ok then revertActivationMappings ops lookup me r.2 else r.2
          -- The child goes on the parent's list whether or not the derivation succeeded.
          let s := { s with children := Function.update s.children me.parent
                                          (me.id :: s.children me.parent) }
          (ret, if ret ≠ .ok then freeMappings s me.id else s)

/-- `memextent_handle_object_activate_memextent` for an extent with a parent: check the memory
type against the parent's, run the type's activate-derive handler `derive`, and mark the extent
active if it succeeded. `s2fwb` is the build option `ARCH_AARCH64_USE_S2FWB`. -/
def activateDerived (s2fwb : Bool) (parentMemtype : MemextentMemtype) (me : Extent)
    (derive : ExtentState → Error × ExtentState) (s : ExtentState) : Error × ExtentState :=
  let check : Error :=
    match parentMemtype with
    | .any => .ok
    | .device | .uncached => if me.memtype ≠ parentMemtype then .argumentInvalid else .ok
    | .cached =>
        if s2fwb then (if me.memtype ≠ parentMemtype then .argumentInvalid else .ok)
        else .objectConfig
  if check ≠ .ok then (check, s)
  else
    let r := derive s
    if r.1 = .ok then (r.1, { r.2 with active := Function.update r.2.active me.id true })
    else r

/-- `memextent_cleanup_basic` for an extent with a parent: an inactive extent owns nothing and is
skipped; an active one gives its range back to the parent and leaves the parent's list. -/
def memextentCleanupBasic (me : Extent) (s : ExtentState) : ExtentState :=
  if !s.active me.id then s
  else
    let db := match memdbUpdate s.memdb me.physBase (me.physBase + (me.size - 1))
        (extentOwner me.parent) (extentOwner me.id) with
      | .ok db => db
      | .error _ => s.memdb
    freeMappings { s with memdb := db,
                          children := Function.update s.children me.parent
                            ((s.children me.parent).erase me.id) } me.id

/-! ## The derivation keeps the child on the parent's list when it fails -/

section Frame

variable {ops : AddrspaceOps} {lookup : Nat → Mapping} {me : Extent}

/-- The slot loop changes no extent's `active` flag. -/
theorem deriveSlots_active (slots : List Nat) (s : ExtentState) :
    (deriveSlots ops lookup me slots s).2.active = s.active := by
  induction slots generalizing s with
  | nil => rfl
  | cons i slots ih =>
      simp only [deriveSlots]
      repeat' split
      all_goals first | rfl | exact ih _

theorem revertSlots_active (slots : List Nat) (s : ExtentState) :
    (revertSlots ops lookup me slots s).active = s.active := by
  induction slots generalizing s with
  | nil => rfl
  | cons i slots ih =>
      simp only [revertSlots]
      repeat' split
      all_goals first | rfl | exact ih _

theorem revertActivationMappings_active (s : ExtentState) :
    (revertActivationMappings ops lookup me s).active = s.active := by
  unfold revertActivationMappings
  dsimp only
  split <;> exact revertSlots_active _ s

/-- `memextent_activate_derive_basic` changes no extent's `active` flag: only its caller does. -/
theorem memextentActivateDeriveBasic_active {allocOk : Bool} (s : ExtentState) :
    (memextentActivateDeriveBasic ops allocOk lookup me s).2.active = s.active := by
  unfold memextentActivateDeriveBasic
  dsimp only
  split_ifs
  · rfl
  · rfl
  split
  · rfl
  split_ifs <;>
    simp only [freeMappings, revertActivationMappings_active, deriveSlots_active, allocateMappings]

end Frame

section Denied

variable {ops : AddrspaceOps} {lookup : Nat → Mapping} {me : Extent} {s : ExtentState}

/-- The slot loop stops at once, with nothing changed, when the parent's first slot does not cover
the child's whole range. -/
theorem deriveSlots_denied {slots : List Nat} (h : (lookup 0).size ≠ me.size) :
    deriveSlots ops lookup me (0 :: slots) s = (.denied, s) := by
  simp only [deriveSlots, if_pos h]

/-- Reverting when no slot was linked only gives the range back in the memory database. -/
theorem revertSlots_of_empty {slots : List Nat}
    (h : ∀ i ∈ slots, (s.slot me.id i).addrspace = none) :
    revertSlots ops lookup me slots s = s := by
  induction slots with
  | nil => rfl
  | cons i slots ih =>
      simp only [revertSlots, h i List.mem_cons_self]
      exact ih fun j hj => h j (List.mem_cons_of_mem i hj)

/-- When the parent is mapped over only part of the child's range, `memextent_activate_derive_basic`
fails with `ERROR_DENIED`. It gives the range back to the parent, but the child is left on the
parent's `children_list`. -/
theorem activateDeriveBasic_denied
    (hown : ∀ a, me.physBase ≤ a → a ≤ me.physBase + (me.size - 1) →
      s.memdb a = some (extentOwner me.parent))
    (hatt : s.attachedSize me.parent = 0) (hpart : (lookup 0).size ≠ me.size) :
    (memextentActivateDeriveBasic ops true lookup me s).1 = .denied ∧
      (memextentActivateDeriveBasic ops true lookup me s).2.memdb = s.memdb ∧
      (memextentActivateDeriveBasic ops true lookup me s).2.children me.parent =
        me.id :: s.children me.parent := by
  -- The memory database update succeeds: the parent owns the whole range.
  have hupd : memdbUpdate s.memdb me.physBase (me.physBase + (me.size - 1))
      (extentOwner me.id) (extentOwner me.parent) =
      .ok (setRange s.memdb me.physBase (me.physBase + (me.size - 1)) (extentOwner me.id)) :=
    memdbUpdate_ok_iff.2 ⟨hown, rfl⟩
  have hretry : memdbUpdateRetry s.memdb me.physBase (me.physBase + (me.size - 1))
      (extentOwner me.id) (extentOwner me.parent) =
      .ok (setRange s.memdb me.physBase (me.physBase + (me.size - 1)) (extentOwner me.id)) := by
    simp only [memdbUpdateRetry, hupd]
  have hslots : List.range maxMaps = 0 :: [1, 2, 3] := rfl
  -- After the update: the zeroed slots, and the range owned by the child.
  let s1 : ExtentState := { allocateMappings s me.id with
    memdb := setRange s.memdb me.physBase (me.physBase + (me.size - 1)) (extentOwner me.id) }
  have hderive : deriveSlots ops lookup me (List.range maxMaps) s1 = (.denied, s1) := by
    rw [hslots]
    exact deriveSlots_denied hpart
  -- The freshly zeroed slots are all unlinked, so the revert only undoes the update.
  have hempty : ∀ i ∈ List.range maxMaps, (s1.slot me.id i).addrspace = none := by
    intro i hi
    simp only [s1, allocateMappings, ExtentState.slot, Function.update_self]
    rw [List.getD_eq_getElem?_getD, List.getElem?_replicate]
    split_ifs <;> rfl
  have hrevert : revertActivationMappings ops lookup me s1 = allocateMappings s me.id := by
    unfold revertActivationMappings
    rw [revertSlots_of_empty hempty]
    simp only [s1, memdbUpdate_revert hupd]
    rfl
  have heq : memextentActivateDeriveBasic ops true lookup me s =
      (.denied, freeMappings { allocateMappings s me.id with
        children := Function.update s.children me.parent (me.id :: s.children me.parent) }
        me.id) := by
    simp only [memextentActivateDeriveBasic, Bool.not_true, Bool.false_eq_true, if_false]
    rw [if_neg (by simpa [allocateMappings] using hatt)]
    simp only [allocateMappings, hretry]
    simp only [s1, allocateMappings] at hderive hrevert
    simp only [hderive, ne_eq, reduceCtorEq, not_false_eq_true, if_true, hrevert]
  rw [heq]
  exact ⟨rfl, rfl, by simp [freeMappings, allocateMappings]⟩

/-- The activation of a child of a parent with any memory type, when the parent is mapped over only
part of the child's range, fails with `ERROR_DENIED` and leaves the child inactive but on the
parent's `children_list`, changed by the failed call. The child's clean-up skips it as inactive, so
it stays there after the clean-up. -/
theorem activateDerived_denied_stays_listed {s2fwb : Bool}
    (hown : ∀ a, me.physBase ≤ a → a ≤ me.physBase + (me.size - 1) →
      s.memdb a = some (extentOwner me.parent))
    (hatt : s.attachedSize me.parent = 0) (hpart : (lookup 0).size ≠ me.size)
    (hinactive : s.active me.id = false) :
    let r := activateDerived s2fwb .any me (memextentActivateDeriveBasic ops true lookup me) s
    r.1 = .denied ∧ r.2.children me.parent = me.id :: s.children me.parent ∧
      r.2.active me.id = false ∧
      me.id ∈ (memextentCleanupBasic me r.2).children me.parent := by
  obtain ⟨hret, -, hchildren⟩ := @activateDeriveBasic_denied ops lookup me s hown hatt hpart
  -- The derivation leaves `active` alone, and the handler sets it only on success.
  have hact := @memextentActivateDeriveBasic_active ops lookup me true s
  have hr : activateDerived s2fwb .any me (memextentActivateDeriveBasic ops true lookup me) s =
      memextentActivateDeriveBasic ops true lookup me s := by
    simp only [activateDerived, ne_eq, not_true_eq_false, if_false, hret, reduceCtorEq]
  simp only [hr, hret, hchildren, hact, hinactive, memextentCleanupBasic, Bool.not_false, if_true,
    List.mem_cons_self, true_and]

/-- A page-sized child of extent 1 whose parent, a sparse extent, has only the first half of the
child's range in its first slot's mapping. -/
theorem activateDerived_denied_stays_listed_page :
    let me : Extent := ⟨2, 1, 4096, 4096, 7, .any⟩
    let s : ExtentState :=
      ⟨fun _ => some (extentOwner 1), fun _ _ => none, fun _ => [], fun _ => [], fun _ => [],
        fun _ => 0, fun _ => false⟩
    let ops : AddrspaceOps := ⟨fun pg _ _ _ _ _ => .ok pg, fun pg _ _ _ _ => .ok pg⟩
    let lookup : Nat → Mapping := fun _ => ⟨none, 0, 2048, ⟨0, 0, 0⟩⟩
    let r := activateDerived false .any me (memextentActivateDeriveBasic ops true lookup me) s
    r.1 = .denied ∧ r.2.children me.parent = me.id :: s.children me.parent ∧
      r.2.active me.id = false ∧
      me.id ∈ (memextentCleanupBasic me r.2).children me.parent :=
  activateDerived_denied_stays_listed (fun _ _ _ => rfl) rfl (by decide) rfl

end Denied

end Gunyah.Memextent

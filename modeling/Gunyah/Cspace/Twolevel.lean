import Gunyah.Error
import Gunyah.Lib.LinkedList
import Mathlib.Logic.Function.Basic

set_option autoImplicit false

/-!
# The two-level capability space

A model of the capability operations of `hyp/core/cspace_twolevel/src/cspace_twolevel.c`. A cspace
holds capability slots in cap tables; a cap names an object with some rights, and every object keeps
the list of the VALID caps that name it (`cap_list` in its header), headed by its master cap. A copy
of a cap goes right after its parent on that list. Revoking through the master cap marks every other
cap of the object REVOKED and moves it to the revoked list of the cspace that holds it, where it
stays until it is deleted.

The model is sequential: the locks held by each call make it atomic, so the
compare-and-swap of `cspace_update_cap_slot` on data just read always succeeds, and a cap table
released through RCU is released at once. A slot is a `CapRef`, the cspace that owns its table and
its index in that cspace; a cap ID is modelled by the index it decodes to, none when
`cspace_cap_id_to_indices` rejects it. The search of `cspace_allocate_cap_slot` through the table
bitmaps is left external here: a call carries what it found, a free slot or an error
(`ERROR_CSPACE_FULL`, `ERROR_NOMEM`), and the model marks the slot used; `Cspace.System` puts the
search of `Tables` in its place. The slots of a cap table
that is not allocated hold null data, so looking one up fails with `ERROR_CSPACE_CAP_NULL` in the
check of its data, as it does in the code when the table pointer is NULL.

Three ghost fields record what is said about whole runs: the objects that got a master cap
(`mastered`), the number of `object_put` calls the cap code made on each object (`puts`), and, for a
cap made by `cspace_copy_cap`, the rights its parent had at that time (`parentRights`).
-/

namespace Gunyah.Cspace

open LinkedList

/-- `cap_state_t`. -/
inductive CapState where
  | null
  | valid
  | revoked
deriving DecidableEq, Repr

/-- `cap_data_t`: the object pointer (0 when null), the rights, and the fields of the `cap_info`
bitfield: the object type, the master-cap bit and the state. -/
structure CapData where
  object : Nat
  rights : Nat
  type : Nat
  masterCap : Bool
  state : CapState
deriving DecidableEq, Repr

/-- All-zero cap data: `null_cap_data = { 0 }`, and every slot of a newly allocated table. -/
def CapData.null : CapData := ⟨0, 0, 0, false, .null⟩

/-- A cap slot: the cspace that owns its table, and its index in that cspace. -/
structure CapRef where
  cspace : Nat
  index : Nat
deriving DecidableEq, Repr

/-- What the capability operations read and write: the data of every slot, the `used_slots` bits,
the `cap_list` of every object and the `revoked_cap_list` of every cspace (head first), and the
ghost fields. -/
structure CspaceState where
  data : CapRef → CapData
  used : CapRef → Bool
  capList : Nat → List CapRef
  revokedCapList : Nat → List CapRef
  mastered : Nat → Bool
  puts : Nat → Nat
  parentRights : CapRef → Option Nat

/-- No cap in any slot, and empty lists. -/
def CspaceState.init : CspaceState where
  data _ := .null
  used _ := false
  capList _ := []
  revokedCapList _ := []
  mastered _ := false
  puts _ := 0
  parentRights _ := none

/-- `cspace_check_cap_data`: the cap must be VALID, of the requested type unless that is
`OBJECT_TYPE_ANY` (none), and hold every right of `rights`. -/
def cspaceCheckCapData (data : CapData) (type : Option Nat) (rights : Nat) : Error :=
  match data.state with
  | .valid =>
    if type = some data.type ∨ type = none then
      if data.rights &&& rights ≠ rights then .cspaceInsufficientRights else .ok
    else .cspaceWrongObjectType
  | .null => .cspaceCapNull
  | .revoked => .cspaceCapRevoked

/-- The check that `cspace_copy_cap` and `cspace_revoke_caps` make of a cap (any type, no rights)
passes exactly for a VALID cap. -/
theorem cspaceCheckCapData_any_iff {data : CapData} :
    cspaceCheckCapData data none 0 = .ok ↔ data.state = .valid := by
  unfold cspaceCheckCapData
  split
  case h_1 hs => simp [hs]
  case h_2 hs => simp [hs]
  case h_3 hs => simp [hs]

/-- `cspace_lookup_cap_slot`: the slot that a decoded cap ID names in a cspace. -/
def cspaceLookupCapSlot (cspace : Nat) : Option Nat → Except Error CapRef
  | some index => .ok ⟨cspace, index⟩
  | none => .error .argumentInvalid

/-- `cspace_allocate_cap_slot`, given what its search of the cspace's tables found: the index of a
free slot, or the error. The slot is marked in `used_slots`. -/
def cspaceAllocateCapSlot (cspace : Nat) (found : Except Error Nat) (s : CspaceState) :
    Except Error (CapRef × CspaceState) :=
  match found with
  | .ok index =>
    .ok (⟨cspace, index⟩, { s with used := Function.update s.used ⟨cspace, index⟩ true })
  | .error e => .error e

/-- `cspace_free_cap_slot`, whose caller has already nulled the cap's data. -/
def cspaceFreeCapSlot (cap : CapRef) (s : CspaceState) : CspaceState :=
  { s with used := Function.update s.used cap false }

/-- Freeing a slot that was free before its allocation gives the state back. -/
theorem cspaceFreeCapSlot_allocate {s : CspaceState} {cap : CapRef} (hr : s.used cap = false) :
    cspaceFreeCapSlot cap { s with used := Function.update s.used cap true } = s := by
  have hused : Function.update s.used cap false = s.used := by
    rw [← hr, Function.update_eq_self]
  simp only [cspaceFreeCapSlot, Function.update_idem, hused]

/-- `cspace_create_master_cap`: a VALID master cap with all the rights of the object's type, put at
the head of the object's cap list. `rightsAll` is `cspace_get_rights_all`. -/
def cspaceCreateMasterCap (rightsAll : Nat → Nat) (cspace object type : Nat)
    (found : Except Error Nat) (s : CspaceState) : Except Error CapRef × CspaceState :=
  let capData : CapData := ⟨object, rightsAll type, type, true, .valid⟩
  match cspaceAllocateCapSlot cspace found s with
  | .ok (newCap, s) =>
    (.ok newCap,
      { s with
        capList := Function.update s.capList object (newCap :: s.capList object)
        data := Function.update s.data newCap capData
        mastered := Function.update s.mastered object true
        parentRights := Function.update s.parentRights newCap none })
  | .error e => (.error e, s)

/-- `cspace_copy_cap`: a copy of the parent cap with the rights masked by `rightsMask`, never a
master cap, put right after the parent on the object's cap list. Every failure after the slot is
allocated frees it again. -/
def cspaceCopyCap (targetCspace parentCspace : Nat) (parentId : Option Nat) (rightsMask : Nat)
    (found : Except Error Nat) (s : CspaceState) : Except Error CapRef × CspaceState :=
  match cspaceAllocateCapSlot targetCspace found s with
  | .error e => (.error e, s)
  | .ok (newCap, s) =>
    match cspaceLookupCapSlot parentCspace parentId with
    | .error e => (.error e, cspaceFreeCapSlot newCap s)
    | .ok parentCap =>
      let capData := s.data parentCap
      let err := cspaceCheckCapData capData none 0
      if err ≠ .ok then (.error err, cspaceFreeCapSlot newCap s)
      else
        let maskedRights := capData.rights &&& rightsMask
        if maskedRights = 0 then (.error .cspaceInsufficientRights, cspaceFreeCapSlot newCap s)
        else
          -- nothing runs between the load of the parent's data and the compare-and-swap that
          -- re-checks it, so the check succeeds
          let object := capData.object
          (.ok newCap,
            { s with
              data := Function.update s.data newCap
                { capData with rights := maskedRights, masterCap := false }
              capList := Function.update s.capList object
                (insertAfter parentCap newCap (s.capList object))
              parentRights := Function.update s.parentRights newCap (some capData.rights) })

/-- `cspace_delete_cap`. A VALID cap is nulled and deleted from its object's cap list, and when that
list becomes empty the caps' reference to the object is dropped (`object_put`); a REVOKED cap is
nulled and deleted from the cspace's revoked list. Either way the slot is freed. -/
def cspaceDeleteCap (cspace : Nat) (capId : Option Nat) (s : CspaceState) : Error × CspaceState :=
  match cspaceLookupCapSlot cspace capId with
  | .error e => (e, s)
  | .ok cap =>
    let capData := s.data cap
    match capData.state with
    | .valid =>
      let object := capData.object
      let capList := (s.capList object).erase cap
      let s := cspaceFreeCapSlot cap
        { s with
          data := Function.update s.data cap .null
          capList := Function.update s.capList object capList }
      (.ok, { s with
        puts := if capList = [] then Function.update s.puts object (s.puts object + 1) else s.puts })
    | .revoked =>
      (.ok, cspaceFreeCapSlot cap
        { s with
          data := Function.update s.data cap .null
          revokedCapList := Function.update s.revokedCapList cspace
            ((s.revokedCapList cspace).erase cap) })
    | .null => (.cspaceCapNull, s)

/-- The body of the loop of `cspace_revoke_caps` for one cap of the object's list: every cap but the
master is marked REVOKED with a null object, deleted from the object's list and put at the head of
the revoked list of the cspace that owns its table. -/
def revokeCap (masterCap : CapRef) (object : Nat) (s : CspaceState) (cap : CapRef) : CspaceState :=
  if cap = masterCap then s
  else
    { s with
      data := Function.update s.data cap { s.data cap with state := .revoked, object := 0 }
      capList := Function.update s.capList object ((s.capList object).erase cap)
      revokedCapList := Function.update s.revokedCapList cap.cspace
        (cap :: s.revokedCapList cap.cspace) }

section RevokeCap

variable {masterCap cap x : CapRef} {object : Nat} {s : CspaceState}

@[simp] theorem revokeCap_used : (revokeCap masterCap object s cap).used = s.used := by
  unfold revokeCap; split <;> rfl

@[simp] theorem revokeCap_mastered : (revokeCap masterCap object s cap).mastered = s.mastered := by
  unfold revokeCap; split <;> rfl

@[simp] theorem revokeCap_puts : (revokeCap masterCap object s cap).puts = s.puts := by
  unfold revokeCap; split <;> rfl

@[simp] theorem revokeCap_parentRights :
    (revokeCap masterCap object s cap).parentRights = s.parentRights := by
  unfold revokeCap; split <;> rfl

/-- The loop body changes the data of no cap but the one it visits. -/
theorem revokeCap_data_of_ne (hx : x ≠ cap) :
    (revokeCap masterCap object s cap).data x = s.data x := by
  unfold revokeCap
  split
  · rfl
  · exact Function.update_of_ne hx _ _

end RevokeCap

/-- `cspace_revoke_caps`: through a VALID master cap, revoke every other cap of its object. The
loop (`list_foreach_container_maydelete`) saves the next node before its body deletes the current
one, so it visits the list as it was when the loop started. -/
def cspaceRevokeCaps (cspace : Nat) (masterCapId : Option Nat) (s : CspaceState) :
    Error × CspaceState :=
  match cspaceLookupCapSlot cspace masterCapId with
  | .error e => (e, s)
  | .ok masterCap =>
    let masterCapData := s.data masterCap
    let err := cspaceCheckCapData masterCapData none 0
    if err ≠ .ok then (err, s)
    else if masterCapData.masterCap = false then (.cspaceInsufficientRights, s)
    else
      let object := masterCapData.object
      (.ok, (s.capList object).foldl (revokeCap masterCap object) s)

/-! ## Runs -/

/-- The calls a run is made of, with what the slot allocation found where there is one. -/
inductive CspaceCall where
  | createMasterCap (cspace object type : Nat) (found : Except Error Nat)
  | copyCap (targetCspace parentCspace : Nat) (parentId : Option Nat) (rightsMask : Nat)
      (found : Except Error Nat)
  | deleteCap (cspace : Nat) (capId : Option Nat)
  | revokeCaps (cspace : Nat) (masterCapId : Option Nat)

/-- The state after a call. -/
def CspaceCall.run (rightsAll : Nat → Nat) : CspaceCall → CspaceState → CspaceState
  | .createMasterCap cspace object type found, s =>
    (cspaceCreateMasterCap rightsAll cspace object type found s).2
  | .copyCap target parent parentId mask found, s =>
    (cspaceCopyCap target parent parentId mask found s).2
  | .deleteCap cspace capId, s => (cspaceDeleteCap cspace capId s).2
  | .revokeCaps cspace masterCapId, s => (cspaceRevokeCaps cspace masterCapId s).2

/-- The slot search found a slot of the cspace that is not in use, or failed. -/
def FoundFree (s : CspaceState) (cspace : Nat) (found : Except Error Nat) : Prop :=
  ∀ index, found = .ok index → s.used ⟨cspace, index⟩ = false

/-- What the environment of a call guarantees: the bitmap search returns free slots, and a master
cap is created once, for a new object (`cspace.h`: the cspace adopts the reference the object was
created with). -/
def CspaceCall.Allowed (s : CspaceState) : CspaceCall → Prop
  | .createMasterCap cspace object _ found => s.mastered object = false ∧ FoundFree s cspace found
  | .copyCap target _ _ _ found => FoundFree s target found
  | .deleteCap _ _ => True
  | .revokeCaps _ _ => True

/-- The states reached from the empty capability spaces by allowed calls. -/
inductive Reachable (rightsAll : Nat → Nat) : CspaceState → Prop where
  | init : Reachable rightsAll CspaceState.init
  | step {s : CspaceState} (c : CspaceCall) :
      Reachable rightsAll s → c.Allowed s → Reachable rightsAll (c.run rightsAll s)

end Gunyah.Cspace

import Gunyah.Cspace.Twolevel
import Gunyah.Cspace.Tables

set_option autoImplicit false

/-!
# Capability calls over the cap tables

`Twolevel` models `cspace_create_master_cap`, `cspace_copy_cap` and `cspace_delete_cap` with the
slot search of `cspace_allocate_cap_slot` left external: a call carries the index it found. This
module runs those calls with the search and release of `Tables` in their place, each cspace with
its own tables. A slot is known to `Twolevel` by its `cap_value`, the upper index in bits 15:8 and
the lower in bits 7:0. A copy that fails after its slot was allocated releases the slot in its
table, as `cspace_copy_cap` calls `cspace_free_cap_slot` on those paths; a delete that succeeds
releases it too.

`SlotInv` couples the two levels: a slot is used exactly when it holds a cap, its use bit is the
one of its table's bitmap, and every cspace keeps the accounting invariant `TableInv`. Every call
keeps it, so along any run from cspaces without caps nothing crashes, and every cspace is
consistent (`cspace_accounting`). The slot that the search returns is free, which is what
`Twolevel` assumes of the external search (`SlotInv.foundFree`).
-/

namespace Gunyah.Cspace

open Tables Bitmap Function

variable {nt ns : Nat}

/-- The `cap_value` of a slot's indices, by which `Twolevel` knows the slot. -/
def capValue (upper : Fin nt) (lower : Fin ns) : Nat := upper.val * 256 + lower.val

/-- The capability state, and the tables of every cspace. -/
structure TwolevelState (nt ns : Nat) where
  caps : CspaceState
  spaces : Nat → CapTables nt ns

/-- No caps, and every cspace configured with its `max_caps`. -/
def TwolevelState.init (maxCaps : Nat → Nat) : TwolevelState nt ns :=
  ⟨CspaceState.init, fun cs => CapTables.init (maxCaps cs)⟩

/-- The result of the slot search as `Twolevel` takes it. -/
def foundIndex : Except Error (Fin nt × Fin ns) → Except Error Nat
  | .ok (upper, lower) => .ok (capValue upper lower)
  | .error e => .error e

/-- `cspace_create_master_cap` with its slot allocation; `none` is a crash. -/
def createMasterCap (rightsAll : Nat → Nat) (cspace object type : Nat) (allocOk : Bool)
    (s : TwolevelState nt ns) : Option (Except Error CapRef × TwolevelState nt ns) :=
  match Tables.cspaceAllocateCapSlot (s.spaces cspace) allocOk with
  | none => none
  | some (found, t) =>
    let r := cspaceCreateMasterCap rightsAll cspace object type (foundIndex found) s.caps
    some (r.1, ⟨r.2, update s.spaces cspace t⟩)

/-- `cspace_copy_cap` with its slot allocation. A copy that fails after the slot was allocated
releases it in its table as well. -/
def copyCap (target parent : Nat) (parentId : Option (Fin nt × Fin ns)) (rightsMask : Nat)
    (allocOk : Bool) (s : TwolevelState nt ns) :
    Option (Except Error CapRef × TwolevelState nt ns) :=
  match Tables.cspaceAllocateCapSlot (s.spaces target) allocOk with
  | none => none
  | some (found, t) =>
    let r := cspaceCopyCap target parent (parentId.map fun p => capValue p.1 p.2) rightsMask
      (foundIndex found) s.caps
    match found, r.1 with
    | .ok (upper, lower), .error _ =>
      (Tables.cspaceFreeCapSlot t upper lower).map fun t =>
        (r.1, ⟨r.2, update s.spaces target t⟩)
    | _, _ => some (r.1, ⟨r.2, update s.spaces target t⟩)

/-- `cspace_delete_cap`, which releases the slot in its table when it deletes a cap. -/
def deleteCap (cspace : Nat) (capId : Option (Fin nt × Fin ns)) (s : TwolevelState nt ns) :
    Option (Error × TwolevelState nt ns) :=
  let r := cspaceDeleteCap cspace (capId.map fun p => capValue p.1 p.2) s.caps
  match capId, r.1 with
  | some (upper, lower), .ok =>
    (Tables.cspaceFreeCapSlot (s.spaces cspace) upper lower).map fun t =>
      (r.1, ⟨r.2, update s.spaces cspace t⟩)
  | _, _ => some (r.1, ⟨r.2, s.spaces⟩)

/-- The calls of a run; a cap ID is given by the indices it decodes to, `none` when
`cspace_cap_id_to_indices` rejects it. -/
inductive TwolevelCall (nt ns : Nat) where
  | createMasterCap (cspace object type : Nat) (allocOk : Bool)
  | copyCap (target parent : Nat) (parentId : Option (Fin nt × Fin ns)) (rightsMask : Nat)
      (allocOk : Bool)
  | deleteCap (cspace : Nat) (capId : Option (Fin nt × Fin ns))

/-- The state after a call, `none` when it crashes. -/
def TwolevelCall.run (rightsAll : Nat → Nat) :
    TwolevelCall nt ns → TwolevelState nt ns → Option (TwolevelState nt ns)
  | .createMasterCap cspace object type allocOk, s =>
    (Cspace.createMasterCap rightsAll cspace object type allocOk s).map Prod.snd
  | .copyCap target parent parentId rightsMask allocOk, s =>
    (Cspace.copyCap target parent parentId rightsMask allocOk s).map Prod.snd
  | .deleteCap cspace capId, s => (Cspace.deleteCap cspace capId s).map Prod.snd

/-- Calls in sequence, `none` when one crashes. -/
def runTwolevel (rightsAll : Nat → Nat) :
    TwolevelState nt ns → List (TwolevelCall nt ns) → Option (TwolevelState nt ns)
  | s, [] => some s
  | s, c :: cs => (c.run rightsAll s).bind fun s => runTwolevel rightsAll s cs

theorem capValue_inj (hns : ns ≤ 256) {u u' : Fin nt} {l l' : Fin ns}
    (h : capValue u l = capValue u' l') : (u, l) = (u', l') := by
  unfold capValue at h
  have hl := l.isLt
  have hl' := l'.isLt
  have hu : u = u' := Fin.ext (by omega)
  have hlow : l = l' := Fin.ext (by omega)
  rw [hu, hlow]

/-! ## What the capability calls do to one slot -/

section Calls

variable {s : CspaceState}

/-- A master cap created in a found slot uses it and holds a VALID cap there. -/
theorem cspaceCreateMasterCap_slot (rightsAll : Nat → Nat) (cspace object type index : Nat) :
    (cspaceCreateMasterCap rightsAll cspace object type (.ok index) s).2.used =
        update s.used ⟨cspace, index⟩ true ∧
      (cspaceCreateMasterCap rightsAll cspace object type (.ok index) s).2.data =
        update s.data ⟨cspace, index⟩ ⟨object, rightsAll type, type, true, .valid⟩ :=
  ⟨rfl, rfl⟩

/-- A copy into a free found slot either fails and leaves the state as it was, its slot freed
again, or succeeds and holds a VALID cap in the slot. -/
theorem cspaceCopyCap_cases {target parent : Nat} {parentId : Option Nat} {rightsMask index : Nat}
    (hr : s.used ⟨target, index⟩ = false) :
    (∃ e, (cspaceCopyCap target parent parentId rightsMask (.ok index) s).1 = .error e ∧
        (cspaceCopyCap target parent parentId rightsMask (.ok index) s).2 = s) ∨
      ((cspaceCopyCap target parent parentId rightsMask (.ok index) s).1 = .ok ⟨target, index⟩ ∧
        (cspaceCopyCap target parent parentId rightsMask (.ok index) s).2.used =
          update s.used ⟨target, index⟩ true ∧
        ∃ d : CapData, d.state = .valid ∧
          (cspaceCopyCap target parent parentId rightsMask (.ok index) s).2.data =
            update s.data ⟨target, index⟩ d) := by
  cases parentId with
  | none => exact Or.inl ⟨_, rfl, cspaceFreeCapSlot_allocate hr⟩
  | some p =>
    simp only [cspaceCopyCap, Cspace.cspaceAllocateCapSlot, cspaceLookupCapSlot]
    split_ifs with hchk hmask
    · exact Or.inl ⟨_, rfl, cspaceFreeCapSlot_allocate hr⟩
    · exact Or.inl ⟨_, rfl, cspaceFreeCapSlot_allocate hr⟩
    · -- The copy holds the parent's data, which passed the VALID check.
      exact Or.inr ⟨rfl, rfl, { s.data ⟨parent, p⟩ with
        rights := (s.data ⟨parent, p⟩).rights &&& rightsMask, masterCap := false },
        (cspaceCheckCapData_any_iff.1 (not_not.1 hchk) : (s.data ⟨parent, p⟩).state = .valid),
        rfl⟩

/-- A delete either empties a slot that held a cap, freeing it, or fails and changes nothing. -/
theorem cspaceDeleteCap_cases {cspace index : Nat} :
    ((cspaceDeleteCap cspace (some index) s).1 = .ok ∧ (s.data ⟨cspace, index⟩).state ≠ .null ∧
        (cspaceDeleteCap cspace (some index) s).2.used = update s.used ⟨cspace, index⟩ false ∧
        (cspaceDeleteCap cspace (some index) s).2.data = update s.data ⟨cspace, index⟩ .null) ∨
      ((cspaceDeleteCap cspace (some index) s).1 ≠ .ok ∧
        (cspaceDeleteCap cspace (some index) s).2 = s) := by
  cases hst : (s.data ⟨cspace, index⟩).state with
  | valid =>
    refine Or.inl ⟨?_, by decide, ?_, ?_⟩ <;>
      simp [cspaceDeleteCap, cspaceLookupCapSlot, hst, cspaceFreeCapSlot]
  | revoked =>
    refine Or.inl ⟨?_, by decide, ?_, ?_⟩ <;>
      simp [cspaceDeleteCap, cspaceLookupCapSlot, hst, cspaceFreeCapSlot]
  | null =>
    refine Or.inr ⟨?_, ?_⟩ <;> simp [cspaceDeleteCap, cspaceLookupCapSlot, hst]

end Calls

/-! ## The coupling of the two levels -/

/-- A slot is used exactly when it holds a cap; the use bit of the slot with indices
`(upper, lower)` is the bit of its table's bitmap, and a slot that no indices name is unused; every
cspace's tables are consistent. -/
structure SlotInv (s : TwolevelState nt ns) : Prop where
  used_iff : ∀ r, s.caps.used r = true ↔ (s.caps.data r).state ≠ .null
  used_eq : ∀ cs upper lower,
    s.caps.used ⟨cs, capValue upper lower⟩ = slotUsed (s.spaces cs) upper lower
  used_other : ∀ cs index, (∀ (upper : Fin nt) (lower : Fin ns), capValue upper lower ≠ index) →
    s.caps.used ⟨cs, index⟩ = false
  tables : ∀ cs, TableInv (s.spaces cs)

theorem SlotInv.init (maxCaps : Nat → Nat) : SlotInv (TwolevelState.init maxCaps : TwolevelState nt ns) where
  used_iff _ := by simp [TwolevelState.init, CspaceState.init, CapData.null]
  used_eq _ _ _ := by simp [TwolevelState.init, CspaceState.init, CapTables.init, slotUsed]
  used_other _ _ _ := rfl
  tables _ := TableInv.init _

/-- The slot search returns a free slot: the assumption `Twolevel` makes of it. -/
theorem SlotInv.foundFree {s : TwolevelState nt ns} (h : SlotInv s) (hns : 0 < ns) (cs : Nat)
    (allocOk : Bool) :
    ∃ r t, Tables.cspaceAllocateCapSlot (s.spaces cs) allocOk = some (r, t) ∧
      FoundFree s.caps cs (foundIndex r) := by
  obtain ⟨r, t, halloc, -, -, hcase⟩ := (h.tables cs).allocateCapSlot hns allocOk
  refine ⟨r, t, halloc, ?_⟩
  rcases hcase with ⟨upper, lower, rfl, hcl⟩ | ⟨e, rfl, -⟩
  · rintro index ⟨⟩
    rw [h.used_eq]
    exact hcl.was_free
  · rintro index ⟨⟩

/-- Changing slot `(upper, lower)` of cspace `cs` in both levels alike keeps the coupling: a use bit
`b` and data `d` that agree, and tables that are consistent, have the slot's bit `b`, and keep
every other bit. -/
theorem SlotInv.update_slot {s : TwolevelState nt ns} (h : SlotInv s) (hns : ns ≤ 256) {cs : Nat}
    {upper : Fin nt} {lower : Fin ns} {b : Bool} {d : CapData} {t : CapTables nt ns}
    (hbd : b = true ↔ d.state ≠ .null) (ht : TableInv t) (hnow : slotUsed t upper lower = b)
    (hframe : ∀ u l, (u, l) ≠ (upper, lower) → slotUsed t u l = slotUsed (s.spaces cs) u l)
    {caps : CspaceState} (hused : caps.used = update s.caps.used ⟨cs, capValue upper lower⟩ b)
    (hdata : caps.data = update s.caps.data ⟨cs, capValue upper lower⟩ d) :
    SlotInv ⟨caps, update s.spaces cs t⟩ := by
  refine ⟨?_, ?_, ?_, ?_⟩
  · intro r
    rw [hused, hdata]
    by_cases hr : r = ⟨cs, capValue upper lower⟩
    · subst hr
      simp only [update_self]
      exact hbd
    · simp only [update_of_ne hr]
      exact h.used_iff r
  · intro cs' u l
    dsimp only
    rw [hused]
    by_cases hc : cs' = cs
    · subst hc
      simp only [update_self]
      by_cases hul : (u, l) = (upper, lower)
      · obtain ⟨rfl, rfl⟩ := Prod.mk.inj hul
        rw [update_self, hnow]
      · have hne : (⟨cs', capValue u l⟩ : CapRef) ≠ ⟨cs', capValue upper lower⟩ :=
          fun he => hul (capValue_inj hns (CapRef.mk.inj he).2)
        rw [update_of_ne hne, h.used_eq, hframe u l hul]
    · have hne : (⟨cs', capValue u l⟩ : CapRef) ≠ ⟨cs, capValue upper lower⟩ :=
        fun he => hc (CapRef.mk.inj he).1
      rw [update_of_ne hne, update_of_ne hc, h.used_eq]
  · intro cs' index hidx
    have hne : (⟨cs', index⟩ : CapRef) ≠ ⟨cs, capValue upper lower⟩ :=
      fun he => hidx upper lower (CapRef.mk.inj he).2.symm
    rw [hused, update_of_ne hne]
    exact h.used_other cs' index hidx
  · intro cs'
    dsimp only
    by_cases hc : cs' = cs
    · subst hc
      rw [update_self]
      exact ht
    · rw [update_of_ne hc]
      exact h.tables cs'

/-- Tables replaced by consistent ones with the same used slots keep the coupling. -/
theorem SlotInv.congr_tables {s : TwolevelState nt ns} (h : SlotInv s) {cs : Nat}
    {t : CapTables nt ns} (ht : TableInv t)
    (hsame : ∀ u l, slotUsed t u l = slotUsed (s.spaces cs) u l) :
    SlotInv ⟨s.caps, update s.spaces cs t⟩ := by
  refine ⟨h.used_iff, ?_, h.used_other, ?_⟩
  · intro cs' u l
    dsimp only
    by_cases hc : cs' = cs
    · subst hc
      rw [update_self, hsame]
      exact h.used_eq cs' u l
    · rw [update_of_ne hc]
      exact h.used_eq cs' u l
  · intro cs'
    dsimp only
    by_cases hc : cs' = cs
    · subst hc
      rw [update_self]
      exact ht
    · rw [update_of_ne hc]
      exact h.tables cs'

/-! ## Runs -/

section Runs

variable (rightsAll : Nat → Nat) {s : TwolevelState nt ns}

/-- A master cap's creation keeps the coupling, and does not crash. -/
theorem SlotInv.createMasterCap (h : SlotInv s) (hns : 0 < ns) (hns' : ns ≤ 256)
    (cspace object type : Nat) (allocOk : Bool) :
    ∃ s', (TwolevelCall.createMasterCap cspace object type allocOk).run rightsAll s = some s' ∧
      SlotInv s' := by
  obtain ⟨r, t, halloc, -, hinv, hcase⟩ := (h.tables cspace).allocateCapSlot hns allocOk
  rcases hcase with ⟨upper, lower, rfl, hcl⟩ | ⟨e, rfl, rfl, -⟩
  · -- A slot was taken, and the master cap goes in it.
    obtain ⟨hu, hd⟩ := @cspaceCreateMasterCap_slot s.caps rightsAll cspace object type
      (capValue upper lower)
    refine ⟨_, ?_, h.update_slot hns' (b := true) (by simp) hinv hcl.now_used hcl.frame hu hd⟩
    simp only [TwolevelCall.run, Cspace.createMasterCap, halloc, foundIndex, Option.map_some]
  · -- The allocation failed, and nothing changed.
    refine ⟨s, ?_, h⟩
    simp only [TwolevelCall.run, Cspace.createMasterCap, halloc, foundIndex, Option.map_some,
      update_eq_self]
    rfl

/-- A copy keeps the coupling, and does not crash: when it fails after its slot was taken, the
slot is released in both levels. -/
theorem SlotInv.copyCap (h : SlotInv s) (hns : 0 < ns) (hns' : ns ≤ 256) (target parent : Nat)
    (parentId : Option (Fin nt × Fin ns)) (rightsMask : Nat) (allocOk : Bool) :
    ∃ s', (TwolevelCall.copyCap target parent parentId rightsMask allocOk).run rightsAll s =
      some s' ∧ SlotInv s' := by
  obtain ⟨r, t, halloc, -, hinv, hcase⟩ := (h.tables target).allocateCapSlot hns allocOk
  rcases hcase with ⟨upper, lower, rfl, hcl⟩ | ⟨e, rfl, rfl, -⟩
  · have hr : s.caps.used ⟨target, capValue upper lower⟩ = false := by
      rw [h.used_eq]
      exact hcl.was_free
    rcases @cspaceCopyCap_cases s.caps target parent (parentId.map fun p => capValue p.1 p.2)
      rightsMask (capValue upper lower) hr with ⟨e, he, hs⟩ | ⟨hok, hu, d, hd, hdata⟩
    · -- The copy failed: its table releases the slot, which is as before the call.
      obtain ⟨t', hfree, -, hrel, hinv'⟩ := hinv.freeCapSlot hcl.now_used
      refine ⟨⟨s.caps, update s.spaces target t'⟩, ?_, h.congr_tables hinv' ?_⟩
      · simp only [TwolevelCall.run, Cspace.copyCap, halloc, foundIndex, he, hfree, hs,
          Option.map_some]
      · intro u l
        by_cases hul : (u, l) = (upper, lower)
        · obtain ⟨rfl, rfl⟩ := Prod.mk.inj hul
          rw [hrel.now_free, hcl.was_free]
        · rw [hrel.frame u l hul, hcl.frame u l hul]
    · -- The copy holds a VALID cap in the slot.
      refine ⟨_, ?_, h.update_slot hns' (b := true) (d := d) (by simp [hd]) hinv hcl.now_used
        hcl.frame hu hdata⟩
      simp only [TwolevelCall.run, Cspace.copyCap, halloc, foundIndex, hok, Option.map_some]
  · -- The allocation failed, and nothing changed.
    refine ⟨s, ?_, h⟩
    simp only [TwolevelCall.run, Cspace.copyCap, halloc, foundIndex, Option.map_some,
      update_eq_self]
    rfl

/-- A delete keeps the coupling, and does not crash: a slot it empties is released in its
table. -/
theorem SlotInv.deleteCap (h : SlotInv s) (hns' : ns ≤ 256) (cspace : Nat)
    (capId : Option (Fin nt × Fin ns)) :
    ∃ s', (TwolevelCall.deleteCap cspace capId).run rightsAll s = some s' ∧ SlotInv s' := by
  cases capId with
  | none => exact ⟨s, rfl, h⟩
  | some p =>
    obtain ⟨upper, lower⟩ := p
    rcases @cspaceDeleteCap_cases s.caps cspace (capValue upper lower) with
      ⟨hok, hnn, hu, hd⟩ | ⟨hne, hs⟩
    · -- The slot held a cap, so its table has it in use.
      have hused : slotUsed (s.spaces cspace) upper lower = true := by
        rw [← h.used_eq]
        exact (h.used_iff _).2 hnn
      obtain ⟨t, hfree, -, hrel, hinv⟩ := (h.tables cspace).freeCapSlot hused
      refine ⟨_, ?_, h.update_slot hns' (b := false) (d := .null) (by simp [CapData.null]) hinv
        hrel.now_free hrel.frame hu hd⟩
      simp only [TwolevelCall.run, Cspace.deleteCap, Option.map, hok, hfree]
    · refine ⟨s, ?_, h⟩
      simp only [TwolevelCall.run, Cspace.deleteCap]
      split
      · rename_i heq
        exact absurd heq hne
      · simp only [Option.map_some, hs]

/-- Every call keeps the coupling, and does not crash. -/
theorem SlotInv.run (h : SlotInv s) (hns : 0 < ns) (hns' : ns ≤ 256) (c : TwolevelCall nt ns) :
    ∃ s', c.run rightsAll s = some s' ∧ SlotInv s' := by
  cases c with
  | createMasterCap cspace object type allocOk =>
    exact h.createMasterCap rightsAll hns hns' cspace object type allocOk
  | copyCap target parent parentId rightsMask allocOk =>
    exact h.copyCap rightsAll hns hns' target parent parentId rightsMask allocOk
  | deleteCap cspace capId => exact h.deleteCap rightsAll hns' cspace capId

/-- Along any run the coupling holds, and nothing crashes. -/
theorem SlotInv.runTwolevel (hns : 0 < ns) (hns' : ns ≤ 256) :
    ∀ (calls : List (TwolevelCall nt ns)) {s : TwolevelState nt ns}, SlotInv s →
      ∃ s', runTwolevel rightsAll s calls = some s' ∧ SlotInv s'
  | [], s, h => ⟨s, rfl, h⟩
  | c :: cs, _, h => by
    obtain ⟨s₁, h₁, hinv₁⟩ := h.run rightsAll hns hns' c
    obtain ⟨s₂, h₂, hinv₂⟩ := SlotInv.runTwolevel hns hns' cs hinv₁
    exact ⟨s₂, by simp only [Cspace.runTwolevel, h₁, Option.bind_some, h₂], hinv₂⟩

end Runs

/-- Slot and table accounting of the two-level cspace, along any run of master cap creations,
copies and deletes from cspaces without caps: no call crashes, and in the state reached every
cspace keeps its accounting (`TableInv`: `cap_count` is the sum of the attached tables' counts and
at most `max_caps`, a table is attached exactly when its index is allocated, has between 1 and
`CAP_TABLE_NUM_CAP_SLOTS` caps, and is available exactly when it has room). Its count is the number
of used slots; destroying any of its tables does not panic; and a slot allocation does not crash,
failing with `ERROR_CSPACE_FULL` only at `max_caps` or with every table attached and full. -/
theorem cspace_accounting (rightsAll maxCaps : Nat → Nat) (hns : 0 < ns) (hns' : ns ≤ 256)
    (calls : List (TwolevelCall nt ns)) :
    ∃ s, runTwolevel rightsAll (TwolevelState.init maxCaps) calls = some s ∧
      ∀ cs, TableInv (s.spaces cs) ∧
        (s.spaces cs).capCount = ∑ i, usedCount ((s.spaces cs).tables i) ∧
        (∀ i t, (s.spaces cs).tables i = some t →
          (destroyCapTableSlots t.capCount t.usedSlots).isSome) ∧
        ∀ allocOk, ∃ r t, Tables.cspaceAllocateCapSlot (s.spaces cs) allocOk = some (r, t) ∧
          (r = .error .cspaceFull → (s.spaces cs).capCount = (s.spaces cs).maxCaps ∨
            ∀ i, ∃ tb, (s.spaces cs).tables i = some tb ∧ tb.capCount = ns) := by
  obtain ⟨s, hrun, hinv⟩ := SlotInv.runTwolevel rightsAll hns hns' calls (SlotInv.init maxCaps)
  refine ⟨s, hrun, fun cs => ⟨hinv.tables cs, (hinv.tables cs).capCount_eq_used,
    fun i t ht => (hinv.tables cs).destroyCapTable_isSome ht, fun allocOk => ?_⟩⟩
  obtain ⟨r, t, halloc, -, -, hcase⟩ := (hinv.tables cs).allocateCapSlot hns allocOk
  refine ⟨r, t, halloc, fun hfull => ?_⟩
  rcases hcase with ⟨upper, lower, rfl, -⟩ | ⟨e, rfl, -, -, hchar⟩
  · cases hfull
  · cases hfull
    exact hchar rfl

/-- Two tables of two slots, `max_caps` 3: a master cap, a copy of it, a copy whose parent ID does
not decode (released again), and a delete. -/
theorem cspace_accounting_copies :
    ∃ s, runTwolevel (fun _ => 7) (TwolevelState.init (fun _ => 3) : TwolevelState 2 2)
        [.createMasterCap 0 5 1 true, .copyCap 0 0 (some (0, 0)) 3 true, .copyCap 0 0 none 3 true,
          .deleteCap 0 (some (0, 1))] = some s ∧
      ∀ cs, TableInv (s.spaces cs) ∧
        (s.spaces cs).capCount = ∑ i, usedCount ((s.spaces cs).tables i) ∧
        (∀ i t, (s.spaces cs).tables i = some t →
          (destroyCapTableSlots t.capCount t.usedSlots).isSome) ∧
        ∀ allocOk, ∃ r t, Tables.cspaceAllocateCapSlot (s.spaces cs) allocOk = some (r, t) ∧
          (r = .error .cspaceFull → (s.spaces cs).capCount = (s.spaces cs).maxCaps ∨
            ∀ i, ∃ tb, (s.spaces cs).tables i = some tb ∧ tb.capCount = 2) :=
  @cspace_accounting 2 2 (fun _ => 7) (fun _ => 3) (by decide) (by decide) _

end Gunyah.Cspace

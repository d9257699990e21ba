import Gunyah.Error
import Gunyah.Lib.Bitmap
import Mathlib.Algebra.BigOperators.Group.Finset.Piecewise

set_option autoImplicit false

/-!
# Slot and table accounting of the two-level cspace

A model of how `hyp/core/cspace_twolevel/src/cspace_twolevel.c` finds and releases cap slots:
`cspace_allocate_cap_table`, `cspace_allocate_cap_slot` and `cspace_free_cap_slot`. A cspace has
`CSPACE_NUM_CAP_TABLES` table pointers (`nt`), attached lazily, each table holding
`CAP_TABLE_NUM_CAP_SLOTS` slots (`ns`). The cspace counts its caps (`cap_count`, at most
`max_caps`) and keeps two bitmaps of tables: `allocated_tables`, the indices in use, and
`available_tables`, the attached tables with room. Each table counts its caps and keeps a bitmap
of used slots. A table whose count drops to zero is detached and released through RCU.

The model is sequential: the spinlock and the atomic test-and-set loops make each call one step,
and a test-and-set of the clear bit just found succeeds at once. `partition_alloc` of a table may
fail (`allocOk = false`). A call returns `none` where the code would crash: a NULL table pointer,
or one of the panics "cap table has incorrect cap_count".

`TableInv` is the accounting invariant: the cspace's count is the sum of the tables' counts, at most
`max_caps`; and each table index is consistent (`TableOk`): allocated exactly when attached, an
attached table's count is the number of its used slots and lies in `[1, ns]`, and the table is
available exactly when it has room. Allocation keeps it and never crashes, and it fails with
`ERROR_CSPACE_FULL` only at `max_caps` or with every table attached and full
(`TableInv.allocateCapSlot`); freeing a used slot keeps it and never crashes
(`TableInv.freeCapSlot`).
-/

namespace Gunyah.Cspace.Tables

open Bitmap

/-- The fields of `cap_table_t` that slot allocation reads and writes. -/
structure CapTable (ns : Nat) where
  capCount : Nat
  usedSlots : Fin ns → Bool

/-- The fields of `cspace_t` that slot allocation reads and writes; a table pointer is `none` when
NULL. -/
structure CapTables (nt ns : Nat) where
  maxCaps : Nat
  capCount : Nat
  allocatedTables : Fin nt → Bool
  availableTables : Fin nt → Bool
  tables : Fin nt → Option (CapTable ns)

variable {nt ns : Nat}

/-- A newly allocated table, zeroed by `memset_s`. -/
def CapTable.empty : CapTable ns := ⟨0, fun _ => false⟩

/-- The cap count behind a table pointer, 0 for NULL. -/
def tableCount : Option (CapTable ns) → Nat
  | some t => t.capCount
  | none => 0

@[simp] theorem tableCount_some (t : CapTable ns) : tableCount (some t) = t.capCount := rfl

@[simp] theorem tableCount_none : tableCount (none : Option (CapTable ns)) = 0 := rfl

/-- The number of used slots behind a table pointer, 0 for NULL. -/
def usedCount : Option (CapTable ns) → Nat
  | some t => popcount t.usedSlots
  | none => 0

/-- Whether slot `lower` of table `upper` holds a cap. -/
def slotUsed (s : CapTables nt ns) (upper : Fin nt) (lower : Fin ns) : Bool :=
  match s.tables upper with
  | some t => t.usedSlots lower
  | none => false

/-- A cspace with no caps, as `cspace_configure` leaves it. -/
def CapTables.init (maxCaps : Nat) : CapTables nt ns :=
  ⟨maxCaps, 0, fun _ => false, fun _ => false, fun _ => none⟩

/-! ## The code -/

/-- `cspace_allocate_cap_table`: take the lowest index not in `allocated_tables` and allocate a
zeroed table for it; when `partition_alloc` fails the index is released again. -/
def cspaceAllocateCapTable (s : CapTables nt ns) (allocOk : Bool) :
    Except Error (CapTable ns × Fin nt) × CapTables nt ns :=
  match ffc s.allocatedTables with
  | none => (.error .cspaceFull, s)
  | some index =>
    let allocated := Function.update s.allocatedTables index true
    if allocOk then (.ok (CapTable.empty, index), { s with allocatedTables := allocated })
    else (.error .nomem, { s with allocatedTables := Function.update allocated index false })

/-- The end of `cspace_allocate_cap_slot`, once the table `upper` is chosen: count the cap in the
table and in the cspace, clear the table's available bit when it becomes full, and take its
lowest free slot. `none` when the table pointer is NULL or no slot is free (the panic). -/
def takeCapSlot (s : CapTables nt ns) (upper : Fin nt) :
    Option (Except Error (Fin nt × Fin ns) × CapTables nt ns) :=
  match s.tables upper with
  | none => none
  | some table =>
    let count := table.capCount + 1
    let available :=
      if count = ns then Function.update s.availableTables upper false else s.availableTables
    match ffc table.usedSlots with
    | none => none
    | some lower =>
      some (.ok (upper, lower),
        { s with
          capCount := s.capCount + 1
          availableTables := available
          tables := Function.update s.tables upper
            (some ⟨count, Function.update table.usedSlots lower true⟩) })

/-- `cspace_allocate_cap_slot`: the indices of a newly taken slot, or `ERROR_CSPACE_FULL` or
`ERROR_NOMEM`. A table with room is taken from `available_tables`; when there is none, a new
table is allocated and attached as available. -/
def cspaceAllocateCapSlot (s : CapTables nt ns) (allocOk : Bool) :
    Option (Except Error (Fin nt × Fin ns) × CapTables nt ns) :=
  if s.capCount = s.maxCaps then some (.error .cspaceFull, s)
  else
    match ffs s.availableTables with
    | some upper => takeCapSlot s upper
    | none =>
      match cspaceAllocateCapTable s allocOk with
      | (.error e, s) => some (.error e, s)
      | (.ok (table, upper), s) =>
        takeCapSlot
          { s with
            tables := Function.update s.tables upper (some table)
            availableTables := Function.update s.availableTables upper true }
          upper

/-- `cspace_free_cap_slot` of the cap in slot `lower` of table `upper`: clear its used bit, make
the table available if it was full, and uncount the cap; a table left empty is detached and its
index released. `none` when the table is not attached. -/
def cspaceFreeCapSlot (s : CapTables nt ns) (upper : Fin nt) (lower : Fin ns) :
    Option (CapTables nt ns) :=
  match s.tables upper with
  | none => none
  | some table =>
    let available :=
      if table.capCount = ns then Function.update s.availableTables upper true
      else s.availableTables
    let count := table.capCount - 1
    if count = 0 then
      some { s with
        capCount := s.capCount - 1
        allocatedTables := Function.update s.allocatedTables upper false
        availableTables := Function.update available upper false
        tables := Function.update s.tables upper none }
    else
      some { s with
        capCount := s.capCount - 1
        availableTables := available
        tables := Function.update s.tables upper
          (some ⟨count, Function.update table.usedSlots lower false⟩) }

/-! ## The accounting invariant -/

/-- Table index `i` is consistent: allocated exactly when attached; an attached table counts its
used slots, has at least one and at most `ns`; the index is available exactly when its table is
attached and has room. -/
structure TableOk (s : CapTables nt ns) (i : Fin nt) : Prop where
  allocated_eq : s.allocatedTables i = (s.tables i).isSome
  count_eq : ∀ t, s.tables i = some t → t.capCount = popcount t.usedSlots
  count_pos : ∀ t, s.tables i = some t → 0 < t.capCount
  count_le : ∀ t, s.tables i = some t → t.capCount ≤ ns
  available_iff : s.availableTables i = true ↔ ∃ t, s.tables i = some t ∧ t.capCount < ns

/-- The accounting invariant of a cspace. -/
structure TableInv (s : CapTables nt ns) : Prop where
  capCount_eq : s.capCount = ∑ i, tableCount (s.tables i)
  capCount_le : s.capCount ≤ s.maxCaps
  table_ok : ∀ i, TableOk s i

/-- Whether index `i` is consistent depends on its own bits and table pointer only. -/
theorem TableOk.congr {s s' : CapTables nt ns} {i : Fin nt} (h : TableOk s i)
    (ha : s'.allocatedTables i = s.allocatedTables i)
    (hv : s'.availableTables i = s.availableTables i) (ht : s'.tables i = s.tables i) :
    TableOk s' i := by
  obtain ⟨h₁, h₂, h₃, h₄, h₅⟩ := h
  refine ⟨?_, ?_, ?_, ?_, ?_⟩
  · rw [ha, ht]
    exact h₁
  · rw [ht]
    exact h₂
  · rw [ht]
    exact h₃
  · rw [ht]
    exact h₄
  · rw [hv, ht]
    exact h₅

/-- An index with no table, neither allocated nor available, is consistent. -/
theorem tableOk_none {s : CapTables nt ns} {i : Fin nt} (ha : s.allocatedTables i = false)
    (hv : s.availableTables i = false) (ht : s.tables i = none) : TableOk s i where
  allocated_eq := by rw [ha, ht]; rfl
  count_eq := by simp [ht]
  count_pos := by simp [ht]
  count_le := by simp [ht]
  available_iff := by simp [hv, ht]

/-- An allocated index with a table that counts its used slots, within `[1, ns]`, is consistent
when it is available exactly when the table has room. -/
theorem tableOk_some {s : CapTables nt ns} {i : Fin nt} {t : CapTable ns}
    (ht : s.tables i = some t) (ha : s.allocatedTables i = true)
    (hc : t.capCount = popcount t.usedSlots) (hpos : 0 < t.capCount) (hle : t.capCount ≤ ns)
    (hv : s.availableTables i = decide (t.capCount < ns)) : TableOk s i where
  allocated_eq := by rw [ha, ht]; rfl
  count_eq := by rintro t' ht'; rw [ht] at ht'; cases ht'; exact hc
  count_pos := by rintro t' ht'; rw [ht] at ht'; cases ht'; exact hpos
  count_le := by rintro t' ht'; rw [ht] at ht'; cases ht'; exact hle
  available_iff := by simp [hv, ht]

/-- Replacing one table pointer changes the sum of the counts by the difference. -/
theorem sum_tableCount_update (tables : Fin nt → Option (CapTable ns)) (i : Fin nt)
    (o : Option (CapTable ns)) :
    (∑ j, tableCount (Function.update tables i o j)) + tableCount (tables i) =
      (∑ j, tableCount (tables j)) + tableCount o := by
  have hupd : ∀ j, tableCount (Function.update tables i o j) =
      Function.update (fun k => tableCount (tables k)) i (tableCount o) j :=
    Function.apply_update (fun _ => tableCount) tables i o
  simp only [hupd]
  rw [Finset.sum_update_of_mem (Finset.mem_univ i), Finset.sdiff_singleton_eq_erase,
    ← Finset.add_sum_erase Finset.univ (fun k => tableCount (tables k)) (Finset.mem_univ i)]
  ac_rfl

theorem TableInv.init (maxCaps : Nat) : TableInv (CapTables.init maxCaps : CapTables nt ns) where
  capCount_eq := by simp [CapTables.init, tableCount]
  capCount_le := Nat.zero_le _
  table_ok _ := tableOk_none rfl rfl rfl

/-- The number of caps is also the number of used slots. -/
theorem TableInv.capCount_eq_used {s : CapTables nt ns} (h : TableInv s) :
    s.capCount = ∑ i, usedCount (s.tables i) := by
  rw [h.capCount_eq]
  apply Finset.sum_congr rfl
  intro i _
  cases ht : s.tables i with
  | none => rfl
  | some t => exact (h.table_ok i).count_eq t ht

/-! ## Allocating and freeing slots -/

/-- A slot allocation from `s` to `s'` takes slot `lower` of table `upper`: it was free, it is
used, and no other slot changed. -/
structure Takes (s s' : CapTables nt ns) (upper : Fin nt) (lower : Fin ns) : Prop where
  was_free : slotUsed s upper lower = false
  now_used : slotUsed s' upper lower = true
  frame : ∀ u l, (u, l) ≠ (upper, lower) → slotUsed s' u l = slotUsed s u l

/-- Freeing slot `lower` of table `upper` from `s` to `s'`: it is free, and no other slot
changed. -/
structure Releases (s s' : CapTables nt ns) (upper : Fin nt) (lower : Fin ns) : Prop where
  now_free : slotUsed s' upper lower = false
  frame : ∀ u l, (u, l) ≠ (upper, lower) → slotUsed s' u l = slotUsed s u l

/-- Taking a slot from `s` is taking it from any state with the same used slots. -/
theorem Takes.of_slotUsed_eq {s₀ s s' : CapTables nt ns} {upper : Fin nt} {lower : Fin ns}
    (h : Takes s s' upper lower) (heq : ∀ u l, slotUsed s u l = slotUsed s₀ u l) :
    Takes s₀ s' upper lower where
  was_free := (heq upper lower).symm.trans h.was_free
  now_used := h.now_used
  frame u l hne := (h.frame u l hne).trans (heq u l)

/-- The end of a slot allocation, on a table with room at an allocated and available index of a
cspace that is consistent elsewhere and below `max_caps`, takes a free slot of the table and
leaves the cspace consistent everywhere. -/
theorem takeCapSlot_spec {s : CapTables nt ns} {upper : Fin nt} {t : CapTable ns}
    (hsum : s.capCount = ∑ i, tableCount (s.tables i)) (hmax : s.capCount < s.maxCaps)
    (hok : ∀ i, i ≠ upper → TableOk s i) (ht : s.tables upper = some t)
    (ha : s.allocatedTables upper = true) (hv : s.availableTables upper = true)
    (hc : t.capCount = popcount t.usedSlots) (hroom : t.capCount < ns) :
    ∃ lower s', takeCapSlot s upper = some (.ok (upper, lower), s') ∧ s'.maxCaps = s.maxCaps ∧
      Takes s s' upper lower ∧ TableInv s' := by
  obtain ⟨lower, hlower⟩ := Option.isSome_iff_exists.1 (ffc_isSome_of_popcount_lt (hc ▸ hroom))
  have hfree := ffc_eq_some hlower
  let t' : CapTable ns := ⟨t.capCount + 1, Function.update t.usedSlots lower true⟩
  let s' : CapTables nt ns :=
    { s with
      capCount := s.capCount + 1
      availableTables := if t.capCount + 1 = ns then Function.update s.availableTables upper false
        else s.availableTables
      tables := Function.update s.tables upper (some t') }
  have hrun : takeCapSlot s upper = some (.ok (upper, lower), s') := by
    simp only [takeCapSlot, ht, hlower]
    rfl
  -- The table's count goes up by one, so the sum does.
  have hsum' := sum_tableCount_update s.tables upper (some t')
  rw [ht, tableCount_some, tableCount_some] at hsum'
  have hcount : t'.capCount = t.capCount + 1 := rfl
  refine ⟨lower, s', hrun, rfl, ⟨?_, ?_, ?_⟩, ⟨?_, ?_, ?_⟩⟩
  · simp [slotUsed, ht, hfree]
  · simp [slotUsed, s', t']
  · intro u l hne
    by_cases hu : u = upper
    · subst hu
      have hl : l ≠ lower := fun hl => hne (by rw [hl])
      simp [slotUsed, s', t', ht, Function.update_of_ne hl]
    · simp [slotUsed, s', Function.update_of_ne hu]
  · show s.capCount + 1 = ∑ i, tableCount (Function.update s.tables upper (some t') i)
    omega
  · show s.capCount + 1 ≤ s.maxCaps
    omega
  · intro i
    by_cases hi : i = upper
    · subst hi
      refine tableOk_some (t := t') (by simp [s']) (by simpa [s'] using ha) ?_ (Nat.succ_pos _)
        hroom ?_
      · simp [t', popcount_set hfree, hc]
      · by_cases hfull : t.capCount + 1 = ns
        · simp [s', t', hfull]
        · simp only [s', t', if_neg hfull, hv]
          exact (decide_eq_true (by omega)).symm
    · refine (hok i hi).congr rfl ?_ (by simp [s', Function.update_of_ne hi])
      simp only [s']
      split_ifs <;> simp [Function.update_of_ne hi]

/-- Every index allocated and none available: every table is attached and full. -/
theorem TableInv.all_full {s : CapTables nt ns} (h : TableInv s)
    (hall : ∀ i, s.allocatedTables i = true) (hnone : ∀ i, s.availableTables i = false) (i : Fin nt) :
    ∃ t, s.tables i = some t ∧ t.capCount = ns := by
  have hok := h.table_ok i
  have hsome := hall i
  rw [hok.allocated_eq] at hsome
  obtain ⟨t, ht⟩ := Option.isSome_iff_exists.1 hsome
  refine ⟨t, ht, Nat.le_antisymm (hok.count_le t ht) (Nat.not_lt.1 fun hroom => ?_)⟩
  have hv := hok.available_iff.2 ⟨t, ht, hroom⟩
  rw [hnone i] at hv
  exact Bool.false_ne_true hv

/-- `cspace_allocate_cap_slot` on a consistent cspace never crashes and keeps it consistent. It
either takes a slot, or fails with the cspace unchanged: with `ERROR_NOMEM` when the table
allocation fails, or with `ERROR_CSPACE_FULL`, which happens only at `max_caps` or with every
table attached and full. -/
theorem TableInv.allocateCapSlot {s : CapTables nt ns} (h : TableInv s) (hns : 0 < ns)
    (allocOk : Bool) :
    ∃ r s', cspaceAllocateCapSlot s allocOk = some (r, s') ∧ s'.maxCaps = s.maxCaps ∧
      TableInv s' ∧
      ((∃ upper lower, r = .ok (upper, lower) ∧ Takes s s' upper lower) ∨
        (∃ e, r = .error e ∧ s' = s ∧ (e = .cspaceFull ∨ e = .nomem) ∧
          (e = .cspaceFull →
            s.capCount = s.maxCaps ∨ ∀ i, ∃ t, s.tables i = some t ∧ t.capCount = ns))) := by
  by_cases hmax : s.capCount = s.maxCaps
  · exact ⟨.error .cspaceFull, s, by simp [cspaceAllocateCapSlot, hmax], rfl, h,
      Or.inr ⟨_, rfl, rfl, Or.inl rfl, fun _ => Or.inl hmax⟩⟩
  have hlt : s.capCount < s.maxCaps := Nat.lt_of_le_of_ne h.capCount_le hmax
  cases hav : ffs s.availableTables with
  | some upper =>
    -- An available table has room: take a slot of it.
    have hv := ffs_eq_some hav
    have hok := h.table_ok upper
    obtain ⟨t, ht, hroom⟩ := hok.available_iff.1 hv
    have ha : s.allocatedTables upper = true := by rw [hok.allocated_eq, ht]; rfl
    obtain ⟨lower, s', hrun, hmax', htakes, hinv⟩ := takeCapSlot_spec h.capCount_eq hlt
      (fun i _ => h.table_ok i) ht ha hv (hok.count_eq t ht) hroom
    refine ⟨_, s', ?_, hmax', hinv, Or.inl ⟨upper, lower, rfl, htakes⟩⟩
    simp only [cspaceAllocateCapSlot, if_neg hmax, hav]
    exact hrun
  | none =>
    have hnone := ffs_eq_none.1 hav
    cases hfc : ffc s.allocatedTables with
    | none =>
      -- Every index is allocated: every table is attached and full.
      refine ⟨.error .cspaceFull, s, ?_, rfl, h,
        Or.inr ⟨_, rfl, rfl, Or.inl rfl, fun _ => Or.inr (h.all_full (ffc_eq_none.1 hfc) hnone)⟩⟩
      simp [cspaceAllocateCapSlot, hmax, hav, cspaceAllocateCapTable, hfc]
    | some index =>
      have hfree := ffc_eq_some hfc
      have hok := h.table_ok index
      have htnone : s.tables index = none := by
        have hsome := hok.allocated_eq
        rw [hfree] at hsome
        exact Option.not_isSome_iff_eq_none.1 (by rw [← hsome]; decide)
      cases allocOk with
      | false =>
        -- The index is released again: the cspace is as it was.
        have ha : Function.update (Function.update s.allocatedTables index true) index false =
            s.allocatedTables := by
          rw [Function.update_idem, ← hfree, Function.update_eq_self]
        refine ⟨.error .nomem, s, ?_, rfl, h, Or.inr ⟨_, rfl, rfl, Or.inr rfl, fun he => ?_⟩⟩
        · simp [cspaceAllocateCapSlot, hmax, hav, cspaceAllocateCapTable, hfc, ha]
        · exact absurd he (by decide)
      | true =>
        -- A new empty table is attached, allocated and available, and a slot taken from it.
        let s₁ : CapTables nt ns :=
          { { s with allocatedTables := Function.update s.allocatedTables index true } with
            tables := Function.update s.tables index (some CapTable.empty)
            availableTables := Function.update s.availableTables index true }
        have hsum := sum_tableCount_update s.tables index (some CapTable.empty)
        rw [htnone, tableCount_none, tableCount_some] at hsum
        have hsum₁ : s₁.capCount = ∑ i, tableCount (s₁.tables i) := by
          rw [h.capCount_eq]
          exact (hsum.trans (Nat.add_zero _)).symm
        have hok₁ : ∀ i, i ≠ index → TableOk s₁ i := fun i hi =>
          (h.table_ok i).congr (Function.update_of_ne hi _ _) (Function.update_of_ne hi _ _)
            (Function.update_of_ne hi _ _)
        have hused : ∀ u l, slotUsed s₁ u l = slotUsed s u l := by
          intro u l
          by_cases hu : u = index
          · subst hu
            simp [slotUsed, s₁, htnone, CapTable.empty]
          · simp [slotUsed, s₁, Function.update_of_ne hu]
        obtain ⟨lower, s', hrun, hmax', htakes, hinv⟩ := takeCapSlot_spec (s := s₁)
          (t := CapTable.empty) hsum₁ hlt hok₁ (by simp [s₁]) (by simp [s₁]) (by simp [s₁])
          (popcount_eq_zero.2 fun _ => rfl).symm hns
        refine ⟨_, s', ?_, hmax', hinv, Or.inl ⟨index, lower, rfl, htakes.of_slotUsed_eq hused⟩⟩
        simp only [cspaceAllocateCapSlot, if_neg hmax, hav, cspaceAllocateCapTable, hfc, if_true]
        exact hrun

/-- `cspace_free_cap_slot` of a used slot of a consistent cspace never crashes, frees the slot and
keeps the cspace consistent. -/
theorem TableInv.freeCapSlot {s : CapTables nt ns} (h : TableInv s) {upper : Fin nt}
    {lower : Fin ns} (hused : slotUsed s upper lower = true) :
    ∃ s', cspaceFreeCapSlot s upper lower = some s' ∧ s'.maxCaps = s.maxCaps ∧
      Releases s s' upper lower ∧ TableInv s' := by
  obtain ⟨t, ht, hbit⟩ : ∃ t, s.tables upper = some t ∧ t.usedSlots lower = true := by
    unfold slotUsed at hused
    cases ht : s.tables upper with
    | none => simp [ht] at hused
    | some t => exact ⟨t, rfl, by simpa [ht] using hused⟩
  have hok := h.table_ok upper
  have hc := hok.count_eq t ht
  have hpos := hok.count_pos t ht
  have hle := hok.count_le t ht
  have hpop := popcount_clear hbit
  -- Before its count drops, the table is available: it was full, or had room already.
  have havail : (if t.capCount = ns then Function.update s.availableTables upper true
      else s.availableTables) upper = true := by
    split_ifs with hfull
    · simp
    · exact hok.available_iff.2 ⟨t, ht, by omega⟩
  by_cases hzero : t.capCount - 1 = 0
  · -- The last cap of the table: it is detached.
    let s' : CapTables nt ns :=
      { s with
        capCount := s.capCount - 1
        allocatedTables := Function.update s.allocatedTables upper false
        availableTables := Function.update (if t.capCount = ns then
          Function.update s.availableTables upper true else s.availableTables) upper false
        tables := Function.update s.tables upper none }
    have hsum := sum_tableCount_update s.tables upper none
    rw [ht, tableCount_some, tableCount_none] at hsum
    have hone : popcount t.usedSlots = 1 := by omega
    refine ⟨s', by simp only [cspaceFreeCapSlot, ht, if_pos hzero]; rfl, rfl, ⟨?_, ?_⟩, ⟨?_, ?_, ?_⟩⟩
    · simp [slotUsed, s']
    · intro u l hne
      by_cases hu : u = upper
      · subst hu
        have hl : l ≠ lower := fun hl => hne (by rw [hl])
        simp [slotUsed, s', ht, eq_false_of_popcount_eq_one hone hbit hl]
      · simp [slotUsed, s', Function.update_of_ne hu]
    · show s.capCount - 1 = ∑ i, tableCount (Function.update s.tables upper none i)
      have := h.capCount_eq
      omega
    · show s.capCount - 1 ≤ s.maxCaps
      have := h.capCount_le
      omega
    · intro i
      by_cases hi : i = upper
      · subst hi
        exact tableOk_none (by simp [s']) (by simp [s']) (by simp [s'])
      · refine (h.table_ok i).congr (Function.update_of_ne hi _ _) ?_ (Function.update_of_ne hi _ _)
        simp only [s', Function.update_of_ne hi]
        split_ifs <;> simp [Function.update_of_ne hi]
  · -- The table keeps caps, and has room.
    let t' : CapTable ns := ⟨t.capCount - 1, Function.update t.usedSlots lower false⟩
    let s' : CapTables nt ns :=
      { s with
        capCount := s.capCount - 1
        availableTables := if t.capCount = ns then Function.update s.availableTables upper true
          else s.availableTables
        tables := Function.update s.tables upper (some t') }
    have hsum := sum_tableCount_update s.tables upper (some t')
    rw [ht, tableCount_some, tableCount_some] at hsum
    have hcount : t'.capCount = t.capCount - 1 := rfl
    refine ⟨s', by simp only [cspaceFreeCapSlot, ht, if_neg hzero]; rfl, rfl, ⟨?_, ?_⟩, ⟨?_, ?_, ?_⟩⟩
    · simp [slotUsed, s', t']
    · intro u l hne
      by_cases hu : u = upper
      · subst hu
        have hl : l ≠ lower := fun hl => hne (by rw [hl])
        simp [slotUsed, s', t', ht, Function.update_of_ne hl]
      · simp [slotUsed, s', Function.update_of_ne hu]
    · show s.capCount - 1 = ∑ i, tableCount (Function.update s.tables upper (some t') i)
      have := h.capCount_eq
      omega
    · show s.capCount - 1 ≤ s.maxCaps
      have := h.capCount_le
      omega
    · intro i
      by_cases hi : i = upper
      · subst hi
        refine tableOk_some (t := t') (by simp [s']) ?_ (by simp only [t']; omega) (by omega)
          (by omega) ?_
        · rw [hok.allocated_eq, ht]
          rfl
        · rw [show s'.availableTables i = _ from havail]
          exact (decide_eq_true (by omega)).symm
      · refine (h.table_ok i).congr rfl ?_ (by simp [s', Function.update_of_ne hi])
        simp only [s']
        split_ifs <;> simp [Function.update_of_ne hi]

/-! ## Destroying a table -/

/-- The slot loop of `cspace_destroy_cap_table`: while the table's count is positive, clear its
lowest used slot and count one cap less. `none` is the panic "cap table has incorrect cap_count on
delete"; otherwise the slots are returned in the order visited. -/
def destroyCapTableSlots : Nat → (Fin ns → Bool) → Option (List (Fin ns))
  | 0, _ => some []
  | count + 1, used =>
    match ffs used with
    | none => none
    | some index => (destroyCapTableSlots count (Function.update used index false)).map (index :: ·)

/-- The loop does not panic while the count is at most the number of used slots. -/
theorem destroyCapTableSlots_isSome :
    ∀ (count : Nat) (used : Fin ns → Bool), count ≤ popcount used →
      (destroyCapTableSlots count used).isSome
  | 0, _, _ => rfl
  | count + 1, used, h => by
    cases hffs : ffs used with
    | none =>
      rw [popcount_eq_zero.2 (ffs_eq_none.1 hffs)] at h
      omega
    | some index =>
      have hclear := popcount_clear (ffs_eq_some hffs)
      simp only [destroyCapTableSlots, hffs, Option.isSome_map]
      exact destroyCapTableSlots_isSome count _ (by omega)

/-- Destroying any attached table of a consistent cspace does not panic. -/
theorem TableInv.destroyCapTable_isSome {s : CapTables nt ns} (h : TableInv s) {i : Fin nt}
    {t : CapTable ns} (ht : s.tables i = some t) :
    (destroyCapTableSlots t.capCount t.usedSlots).isSome :=
  destroyCapTableSlots_isSome _ _ (Nat.le_of_eq ((h.table_ok i).count_eq t ht))

end Gunyah.Cspace.Tables

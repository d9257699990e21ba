import Gunyah.Error
import Mathlib.Data.List.Range

set_option autoImplicit false

/-!
# The memory database as an ownership map

`hyp/interfaces/memdb/include/memdb.h` describes the memory database by what it records: for each
physical address, the object that owns it and that object's type, or nothing. This module gives
that abstract view, `OwnerMap`, and the two operations other components use to move ownership:
`memdb_insert` gives an owner to a range that has none, and `memdb_update` moves a range from one
owner to another, failing unless the previous owner holds the whole range. An update that has just
succeeded is undone by the update the other way (`memdbUpdate_revert`). `memdb_range_walk` calls
a function on each run of a range that one owner holds.

Allocation failures of the database's own nodes are left out: in this view an update fails only
when the range has another owner.
-/

namespace Gunyah.Memdb

/-- `memdb_type_t`, for the owners the modelled code uses. -/
inductive MemdbType where
  | partition
  | extent
deriving DecidableEq, Repr

/-- A memory database entry: the owning object and its type. -/
structure Owner where
  object : Nat
  type : MemdbType
deriving DecidableEq, Repr

/-- The owner of each physical address, if any. -/
abbrev OwnerMap := Nat → Option Owner

/-- Every address of the inclusive range `[start, last]` is owned by `o`. -/
def ownedBy (db : OwnerMap) (start last : Nat) (o : Owner) : Bool :=
  (List.range' start (last + 1 - start)).all fun a => db a == some o

theorem ownedBy_iff {db : OwnerMap} {start last : Nat} {o : Owner} :
    ownedBy db start last o = true ↔ ∀ a, start ≤ a → a ≤ last → db a = some o := by
  simp only [ownedBy, List.all_eq_true, List.mem_range', beq_iff_eq]
  constructor
  · intro h a h1 h2
    exact h a ⟨a - start, by omega, by omega⟩
  · rintro h a ⟨i, hi, rfl⟩
    exact h _ (by omega) (by omega)

/-- The map with the range `[start, last]` given to `o`. -/
def setRange (db : OwnerMap) (start last : Nat) (o : Owner) : OwnerMap :=
  fun a => if start ≤ a ∧ a ≤ last then some o else db a

/-- `memdb_update`: move the range `[start, last]` from `prev` to `obj`, if `prev` owns all of it.
-/
def memdbUpdate (db : OwnerMap) (start last : Nat) (obj prev : Owner) : Except Error OwnerMap :=
  if ownedBy db start last prev then .ok (setRange db start last obj) else .error .memdbNotOwner

/-- `memdb_insert`: give the range `[start, last]` to `obj`, if no address of it has an owner. -/
def memdbInsert (db : OwnerMap) (start last : Nat) (obj : Owner) : Except Error OwnerMap :=
  if (List.range' start (last + 1 - start)).all (fun a => db a == none) then
    .ok (setRange db start last obj)
  else .error .memdbNotOwner

section Update

variable {db db' : OwnerMap} {start last : Nat} {obj prev : Owner}

theorem memdbUpdate_ok_iff :
    memdbUpdate db start last obj prev = .ok db' ↔
      (∀ a, start ≤ a → a ≤ last → db a = some prev) ∧ db' = setRange db start last obj := by
  unfold memdbUpdate
  split_ifs with h
  · simp only [Except.ok.injEq]
    exact ⟨fun e => ⟨ownedBy_iff.1 h, e.symm⟩, fun ⟨_, e⟩ => e.symm⟩
  · simp only [false_iff, not_and]
    intro hall
    exact absurd (ownedBy_iff.2 hall) h

/-- An update leaves every address outside the range as it was. -/
theorem memdbUpdate_frame (h : memdbUpdate db start last obj prev = .ok db') {a : Nat}
    (ha : ¬ (start ≤ a ∧ a ≤ last)) : db' a = db a := by
  obtain ⟨-, rfl⟩ := memdbUpdate_ok_iff.1 h
  simp only [setRange, if_neg ha]

/-- An update that succeeded is undone by the update back. -/
theorem memdbUpdate_revert (h : memdbUpdate db start last obj prev = .ok db') :
    memdbUpdate db' start last prev obj = .ok db := by
  obtain ⟨hall, rfl⟩ := memdbUpdate_ok_iff.1 h
  refine memdbUpdate_ok_iff.2 ⟨fun a h1 h2 => by simp [setRange, h1, h2], ?_⟩
  funext a
  by_cases ha : start ≤ a ∧ a ≤ last
  · simp only [setRange, if_pos ha]
    exact hall a ha.1 ha.2
  · simp only [setRange, if_neg ha]

end Update

/-! ## Walking a range -/

/-- The maximal runs of addresses of `[a, a + n)` that `o` owns, each as its start and size, in
increasing order. -/
def ownedRuns (db : OwnerMap) (o : Owner) : Nat → Nat → List (Nat × Nat)
  | _, 0 => []
  | a, n + 1 =>
    let rest := ownedRuns db o (a + 1) n
    if db a = some o then
      match rest with
      | (b, k) :: rest' => if b = a + 1 then (a, k + 1) :: rest' else (a, 1) :: rest
      | [] => [(a, 1)]
    else rest

/-- `fn` on each run in turn, stopping at the first that fails. -/
def walkRuns {σ : Type} (fn : Nat → Nat → σ → Error × σ) : List (Nat × Nat) → σ → Error × σ
  | [], arg => (.ok, arg)
  | (base, size) :: runs, arg =>
    let r := fn base size arg
    if r.1 = .ok then walkRuns fn runs r.2 else r

/-- `memdb_range_walk (object, type, start, end, fn, arg)`: `fn` on each run of `[start, end]` that
`o` owns, merged as `memdb_do_walk` merges contiguous entries, stopping at the first error. The
state `σ` is what `fn` reads and writes through `arg`. -/
def memdbRangeWalk {σ : Type} (db : OwnerMap) (o : Owner) (start last : Nat)
    (fn : Nat → Nat → σ → Error × σ) (arg : σ) : Error × σ :=
  walkRuns fn (ownedRuns db o start (last + 1 - start)) arg

end Gunyah.Memdb

import Gunyah.Cspace.Invariant
import Gunyah.Cspace.Accounting

set_option autoImplicit false

/-!
# The capability spaces with their slot tables

`Invariant` proves the bookkeeping of the capability operations for a slot search that returns a
slot not in use, and `Accounting` runs the operations with the bitmap search of `Tables` in its
place. This module puts the two together. A run is any sequence of `cspace_create_master_cap`,
`cspace_copy_cap`, `cspace_delete_cap` and `cspace_revoke_caps` calls on cspaces with their tables,
failing calls included. Each call of such a run does to the capability state what a call of the
one-level model does, with the slot its search found, and that slot is free
(`SlotInv.foundFree`). So the capability state of every state reached is `Reachable`, and the
bookkeeping holds in it; no call crashes on the way (`capBookkeeping_of_tablesReachable`).
-/

namespace Gunyah.Cspace

open Function

variable {nt ns : Nat}

/-- `cspace_revoke_caps` on cspaces with their tables. Revoking marks caps REVOKED and frees no
slot, so the tables stay as they are. -/
def revokeCaps (cspace : Nat) (masterCapId : Option (Fin nt × Fin ns)) (s : TwolevelState nt ns) :
    Error × TwolevelState nt ns :=
  let r := cspaceRevokeCaps cspace (masterCapId.map fun p => capValue p.1 p.2) s.caps
  (r.1, ⟨r.2, s.spaces⟩)

/-- The calls of a run: the slot-allocating calls of `Accounting`, and revokes. -/
inductive CapCall (nt ns : Nat) where
  | slot (c : TwolevelCall nt ns)
  | revokeCaps (cspace : Nat) (masterCapId : Option (Fin nt × Fin ns))

/-- The state after a call, `none` when it crashes. -/
def CapCall.run (rightsAll : Nat → Nat) :
    CapCall nt ns → TwolevelState nt ns → Option (TwolevelState nt ns)
  | .slot c, s => c.run rightsAll s
  | .revokeCaps cspace masterCapId, s => some (Cspace.revokeCaps cspace masterCapId s).2

/-- What the caller guarantees: a master cap is created once, for a new object (`cspace.h`: the
cspace adopts the reference the object was created with). -/
def CapCall.Allowed (s : TwolevelState nt ns) : CapCall nt ns → Prop
  | .slot (.createMasterCap _ object _ _) => s.caps.mastered object = false
  | _ => True

/-- The states reached from cspaces without caps, each with its `max_caps`, by allowed calls. -/
inductive TablesReachable (rightsAll maxCaps : Nat → Nat) : TwolevelState nt ns → Prop where
  | init : TablesReachable rightsAll maxCaps (TwolevelState.init maxCaps)
  | step {s s' : TwolevelState nt ns} (c : CapCall nt ns) :
      TablesReachable rightsAll maxCaps s → c.Allowed s → c.run rightsAll s = some s' →
      TablesReachable rightsAll maxCaps s'

/-! ## What a call does to the capability state -/

section Caps

variable {rightsAll : Nat → Nat} {s s' : TwolevelState nt ns}

theorem createMasterCap_caps {cspace object type : Nat} {allocOk : Bool} {r : Except Error CapRef}
    (h : Cspace.createMasterCap rightsAll cspace object type allocOk s = some (r, s')) :
    ∃ found t, Tables.cspaceAllocateCapSlot (s.spaces cspace) allocOk = some (found, t) ∧
      s'.caps =
        (cspaceCreateMasterCap rightsAll cspace object type (foundIndex found) s.caps).2 := by
  unfold Cspace.createMasterCap at h
  split at h
  · cases h
  · rename_i found t halloc
    cases h
    exact ⟨found, t, halloc, rfl⟩

/-- A copy leaves the capability state of `cspace_copy_cap`, whether or not its table releases
the slot again. -/
theorem copyCap_caps {target parent rightsMask : Nat} {parentId : Option (Fin nt × Fin ns)}
    {allocOk : Bool} {r : Except Error CapRef}
    (h : Cspace.copyCap target parent parentId rightsMask allocOk s = some (r, s')) :
    ∃ found t, Tables.cspaceAllocateCapSlot (s.spaces target) allocOk = some (found, t) ∧
      s'.caps = (cspaceCopyCap target parent (parentId.map fun p => capValue p.1 p.2) rightsMask
        (foundIndex found) s.caps).2 := by
  unfold Cspace.copyCap at h
  split at h
  · cases h
  · rename_i found t halloc
    refine ⟨found, t, halloc, ?_⟩
    dsimp only at h
    split at h
    · obtain ⟨t', -, h⟩ := Option.map_eq_some_iff.1 h
      cases h
      rfl
    · cases h
      rfl

theorem deleteCap_caps {cspace : Nat} {capId : Option (Fin nt × Fin ns)} {e : Error}
    (h : Cspace.deleteCap cspace capId s = some (e, s')) :
    s'.caps = (cspaceDeleteCap cspace (capId.map fun p => capValue p.1 p.2) s.caps).2 := by
  unfold Cspace.deleteCap at h
  dsimp only at h
  split at h
  · obtain ⟨t', -, h⟩ := Option.map_eq_some_iff.1 h
    cases h
    rfl
  · cases h
    rfl

/-- The slot that the search of a cspace's table returns is free in the capability state. -/
theorem SlotInv.foundFree_of_alloc (h : SlotInv s) (hns : 0 < ns) {cs : Nat} {allocOk : Bool}
    {found : Except Error (Fin nt × Fin ns)} {t : Tables.CapTables nt ns}
    (halloc : Tables.cspaceAllocateCapSlot (s.spaces cs) allocOk = some (found, t)) :
    FoundFree s.caps cs (foundIndex found) := by
  obtain ⟨found', t', halloc', hfree⟩ := h.foundFree hns cs allocOk
  obtain ⟨rfl, rfl⟩ := Prod.mk.inj (Option.some.inj (halloc.symm.trans halloc'))
  exact hfree

/-- Every call of a run is a call of the one-level model on the capability state, allowed there:
the slot its search returns is free. -/
theorem SlotInv.run_caps (h : SlotInv s) (hns : 0 < ns) {c : CapCall nt ns} (hc : c.Allowed s)
    (hrun : c.run rightsAll s = some s') :
    ∃ c' : CspaceCall, c'.Allowed s.caps ∧ s'.caps = c'.run rightsAll s.caps := by
  cases c with
  | slot c =>
    cases c with
    | createMasterCap cspace object type allocOk =>
      obtain ⟨⟨r, s''⟩, hcall, rfl⟩ := Option.map_eq_some_iff.1 hrun
      obtain ⟨found, t, halloc, hcaps⟩ := createMasterCap_caps hcall
      exact ⟨.createMasterCap cspace object type (foundIndex found),
        ⟨hc, h.foundFree_of_alloc hns halloc⟩, hcaps⟩
    | copyCap target parent parentId rightsMask allocOk =>
      obtain ⟨⟨r, s''⟩, hcall, rfl⟩ := Option.map_eq_some_iff.1 hrun
      obtain ⟨found, t, halloc, hcaps⟩ := copyCap_caps hcall
      exact ⟨.copyCap target parent _ rightsMask (foundIndex found), h.foundFree_of_alloc hns halloc,
        hcaps⟩
    | deleteCap cspace capId =>
      obtain ⟨⟨e, s''⟩, hcall, rfl⟩ := Option.map_eq_some_iff.1 hrun
      exact ⟨.deleteCap cspace _, trivial, deleteCap_caps hcall⟩
  | revokeCaps cspace masterCapId =>
    cases hrun
    exact ⟨.revokeCaps cspace _, trivial, rfl⟩

end Caps

/-! ## Runs -/

section Runs

variable {rightsAll maxCaps : Nat → Nat} {s : TwolevelState nt ns}

/-- A revoke keeps the coupling of the two levels: it frees no slot. -/
theorem SlotInv.revokeCaps (h : SlotInv s) {cspace : Nat} {masterCapId : Option (Fin nt × Fin ns)}
    (hc : CapInv (Cspace.revokeCaps cspace masterCapId s).2.caps) :
    SlotInv (Cspace.revokeCaps cspace masterCapId s).2 where
  used_iff := hc.used_iff
  used_eq cs u l := by
    simp only [Cspace.revokeCaps, cspaceRevokeCaps_used]
    exact h.used_eq cs u l
  used_other cs index hidx := by
    simp only [Cspace.revokeCaps, cspaceRevokeCaps_used]
    exact h.used_other cs index hidx
  tables := h.tables

/-- Along any run the two levels stay coupled, and the capability state is one the one-level
model reaches. The revoke step needs the second part: a revoke keeps the slots' data non-null
because it visits only caps on a cap list, which are VALID. -/
theorem TablesReachable.slotInv (hns : 0 < ns) (hns' : ns ≤ 256)
    (hs : TablesReachable rightsAll maxCaps s) : SlotInv s ∧ Reachable rightsAll s.caps := by
  induction hs with
  | init => exact ⟨SlotInv.init maxCaps, .init⟩
  | @step s s' c _ hc hrun ih =>
    obtain ⟨hslot, hr⟩ := ih
    obtain ⟨c', hc', hcaps⟩ := hslot.run_caps hns hc hrun
    have hr' : Reachable rightsAll s'.caps := hcaps ▸ .step c' hr hc'
    refine ⟨?_, hr'⟩
    cases c with
    | slot c =>
      obtain ⟨s'', hrun', hinv⟩ := hslot.run rightsAll hns hns' c
      obtain rfl := Option.some.inj (hrun'.symm.trans hrun)
      exact hinv
    | revokeCaps cspace masterCapId =>
      cases hrun
      exact hslot.revokeCaps (capInv_of_reachable hr')

/-- No call crashes in a state where the two levels are coupled. -/
theorem SlotInv.capCall_isSome (h : SlotInv s) (hns : 0 < ns) (hns' : ns ≤ 256)
    (c : CapCall nt ns) :
    ∃ s', c.run rightsAll s = some s' := by
  cases c with
  | slot c =>
    obtain ⟨s', hrun, -⟩ := h.run rightsAll hns hns' c
    exact ⟨s', hrun⟩
  | revokeCaps cspace masterCapId => exact ⟨_, rfl⟩

/-- Capability bookkeeping of the two-level cspace, along any run of master cap creations, copies,
deletes and revokes on cspaces with their tables, failing calls included. In every state reached
the bookkeeping of `CapBookkeeping` holds: the cap lists hold exactly the VALID caps, headed by
their master caps; REVOKED caps are on their cspace's revoked list with a null object; an object is
put once, when its last cap is deleted; copies keep within their parents' rights and are not
master caps; revoking leaves the master cap alone. And no next call crashes. -/
theorem capBookkeeping_of_tablesReachable (hns : 0 < ns) (hns' : ns ≤ 256)
    (hs : TablesReachable rightsAll maxCaps s) :
    CapBookkeeping rightsAll s.caps ∧
      ∀ c : CapCall nt ns, ∃ s', c.run rightsAll s = some s' := by
  obtain ⟨hslot, hr⟩ := hs.slotInv hns hns'
  exact ⟨capBookkeeping_of_reachable hr, hslot.capCall_isSome hns hns'⟩

/-- Two tables of two slots, `max_caps` 3: a master cap of object 5 in cspace 1, and a copy of it
with rights mask 3 in cspace 2. -/
theorem capBookkeeping_of_tablesReachable_copy :
    ∃ s₁ s₂ : TwolevelState 2 2,
      (CapCall.slot (.createMasterCap 1 5 0 true)).run (fun _ => 7)
        (TwolevelState.init fun _ => 3) = some s₁ ∧
      (CapCall.slot (.copyCap 2 1 (some (0, 0)) 3 true)).run (fun _ => 7) s₁ = some s₂ ∧
      CapBookkeeping (fun _ => 7) s₂.caps ∧
      ∀ c : CapCall 2 2, ∃ s', c.run (fun _ => 7) s₂ = some s' := by
  refine ⟨_, _, rfl, rfl, ?_⟩
  have h₀ : TablesReachable (fun _ => 7) (fun _ => 3)
      (TwolevelState.init (fun _ => 3) : TwolevelState 2 2) := .init
  exact capBookkeeping_of_tablesReachable (by decide) (by decide)
    (.step (.slot (.copyCap 2 1 (some (0, 0)) 3 true))
      (.step (.slot (.createMasterCap 1 5 0 true)) h₀ rfl rfl) trivial rfl)

end Runs

end Gunyah.Cspace

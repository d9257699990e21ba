import Gunyah.Memdb.Owner

set_option autoImplicit false

/-!
# Memory extents: mappings and address spaces

The types that the memory-extent code of `hyp/mem/memextent` and `hyp/mem/memextent_sparse`
shares: the attributes of a mapping, the answer of `memextent_lookup_mapping` for one mapping slot,
and the address spaces it maps into. An address space is modelled by its page map; mapping and
unmapping are external operations (`addrspace_map`, `addrspace_unmap`) that may fail, given as a
parameter `AddrspaceOps`. What a successful call does to the page map is `mapRange` and
`unmapRange`; `AddrspaceOps.Exact` says an implementation does just that.
-/

namespace Gunyah.Memextent

/-- `MEMEXTENT_MAX_MAPS`: the number of mapping slots of an extent. -/
def maxMaps : Nat := 4

/-- `memextent_mapping_attrs_t`: user and kernel access (`pgtable_access_t` bits) and memory type.
Two attribute words are equal (`memextent_mapping_attrs_is_equal`) when all fields are. -/
structure Attrs where
  userAccess : Nat
  kernelAccess : Nat
  memtype : Nat
deriving DecidableEq, Repr

/-- `pgtable_access_mask`: the access bits allowed by a mask. -/
def accessMask (access mask : Nat) : Nat := access &&& mask

/-- The attributes with both accesses reduced to the extent's `access`. -/
def Attrs.reduce (attrs : Attrs) (access : Nat) : Attrs :=
  { attrs with userAccess := accessMask attrs.userAccess access,
               kernelAccess := accessMask attrs.kernelAccess access }

/-- `memextent_mapping_t`: what `memextent_lookup_mapping` returns for one slot over a range, the
address space the slot maps the range's start into (none if unmapped there), the virtual address
of the range's start, how much of the range the answer holds for, and the attributes. -/
structure Mapping where
  addrspace : Option Nat
  vbase : Nat
  size : Nat
  attrs : Attrs
deriving DecidableEq, Repr

/-- The page map of one address space: a virtual address maps to a physical address with
attributes. -/
abbrev PageMap := Nat → Option (Nat × Attrs)

/-- All address spaces, by identifier. -/
abbrev Pages := Nat → PageMap

/-- What a successful `addrspace_map (as, vbase, size, phys, attrs)` does. -/
def mapRange (pg : Pages) (as vbase size phys : Nat) (attrs : Attrs) : Pages :=
  fun as' v => if as' = as ∧ vbase ≤ v ∧ v < vbase + size then some (phys + (v - vbase), attrs)
    else pg as' v

/-- What a successful `addrspace_unmap (as, vbase, size, phys)` does. -/
def unmapRange (pg : Pages) (as vbase size : Nat) : Pages :=
  fun as' v => if as' = as ∧ vbase ≤ v ∧ v < vbase + size then none else pg as' v

/-- `addrspace_map` and `addrspace_unmap`, implemented outside the memory-extent code. Each returns
the new page maps or an error. -/
structure AddrspaceOps where
  map : Pages → (as vbase size phys : Nat) → Attrs → Except Error Pages
  unmap : Pages → (as vbase size phys : Nat) → Except Error Pages

/-- An implementation that, when it succeeds, does exactly what mapping and unmapping mean. -/
def AddrspaceOps.Exact (ops : AddrspaceOps) : Prop :=
  (∀ pg as vbase size phys attrs pg', ops.map pg as vbase size phys attrs = .ok pg' →
    pg' = mapRange pg as vbase size phys attrs) ∧
  (∀ pg as vbase size phys pg', ops.unmap pg as vbase size phys = .ok pg' →
    pg' = unmapRange pg as vbase size)

end Gunyah.Memextent

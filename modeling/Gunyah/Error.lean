set_option autoImplicit false

/-!
# Error codes

The `error` enumeration of the hypervisor: the generic codes of `hyp/core/base/types.tc` and the
codes that the allocator, memory database, memory extent, object, capability-space and message
queue interfaces add to it. Only the codes that some modelled function returns are listed. A
function of the C code that returns `error_t` returns an `Error` here; one that returns a
`*_result_t` returns an `Except Error` of the result.
-/

namespace Gunyah

/-- `error_t`, with `OK` as `ok`. -/
inductive Error where
  | ok
  | retry
  | argumentInvalid
  | argumentSize
  | argumentAlignment
  | nomem
  | addrOverflow
  | addrInvalid
  | denied
  | busy
  | failure
  | objectState
  | objectConfig
  | cspaceCapNull
  | cspaceCapRevoked
  | cspaceWrongObjectType
  | cspaceInsufficientRights
  | cspaceFull
  | allocatorRangeOverlapping
  | allocatorMemInuse
  | memdbEmpty
  | memdbNotOwner
  | memextentMappingsFull
  | memextentType
  | msgqueueEmpty
  | msgqueueFull
deriving DecidableEq, Repr

end Gunyah

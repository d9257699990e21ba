import Gunyah.Error
import Gunyah.Lib.Word
import Gunyah.Lib.Span

set_option autoImplicit false

/-!
# The list allocator

A model of `hyp/mem/allocator_list/src/freelist.c`, the first-fit heap allocator of a partition.
The free list is a singly linked list of `allocator_node` headers kept inside the free memory
itself; a node at address `addr` with `size` bytes is modelled by the span `⟨addr, size⟩`, and the
linked list by a `List Span` in link order. Addresses and sizes are 64-bit, so every addition the
C code performs on them is the wrapping `FixedWidth.add 64`, and every pointer comparison is a
comparison of naturals below `2 ^ 64`.

The allocator is modelled in its production configuration: `ALLOCATOR_DEBUG` (the consistency
checks and red zones) is off. The spinlock is left out: every operation below runs with it held.

Each C loop over the list keeps a `previous` and a `current` pointer and edits the list at that
point. It is modelled by `walk`, which returns the nodes passed, the final `previous` and the rest
of the list; the caller then rebuilds the list from these three parts, as the pointer updates do.
-/

namespace Gunyah.AllocatorList

open FixedWidth

/-- `NODE_HEADER_SIZE`, `sizeof (allocator_node_t)`: a size and a next pointer. It is also
`HEAP_MIN_ALLOC` and `HEAP_MIN_ALIGN`. -/
def nodeHeaderSize : Nat := 16

/-- `MAX_ALLOC_SIZE`. -/
def maxAllocSize : Nat := 256 * 1024 * 1024

/-- `MAX_ALIGNMENT_SIZE`. -/
def maxAlignmentSize : Nat := 16 * 1024 * 1024

/-- `alignof (size_t)`. -/
def sizeAlign : Nat := 8

/-- The `allocator` structure: the free list at `heap`, and the counters `total_size` and
`alloc_size`. -/
structure Allocator where
  heap : List Span
  totalSize : Nat
  allocSize : Nat
deriving DecidableEq, Repr

/-- `allocator_init`: an empty heap with both counters at zero. -/
def allocatorInit : Allocator := ⟨[], 0, 0⟩

/-- The list walk shared by `list_add` and `deallocate_block`. `previous` starts at the head; the
loop moves on while there is a node after `previous` and `go` holds for it. The result is the nodes
passed, the final `previous` and the list from the node after it. -/
def walk (go : Span → Bool) : Span → List Span → List Span × Span × List Span
  | previous, [] => ([], previous, [])
  | previous, current :: rest =>
      if go current then
        let r := walk go current rest
        (previous :: r.1, r.2.1, r.2.2)
      else ([], previous, current :: rest)

/-! ## Adding memory -/

/-- `list_add`: insert the block `[node, node + size)` into the free list, merging it with the
node before it, after it, or both. The nine cases are those of the comment in the source. The list
is changed only on the `OK` paths, so an error leaves it as it was.

Cases 4 and 7 compare `node + size` with pointer arithmetic on `allocator_node_t *`, which adds
`size * sizeof (allocator_node_t)` bytes; the model keeps that. -/
def listAdd (heap : List Span) (node size : Nat) : Except Error (List Span) :=
  match heap with
  | [] => .ok [⟨node, size⟩]
  | head :: rest =>
      if add 64 node size < head.base then
        .ok (⟨node, size⟩ :: head :: rest)
      else if add 64 node size = head.base then
        .ok (⟨node, add 64 size head.size⟩ :: rest)
      else
        let r := walk (fun current => decide (current.base ≤ node)) head rest
        let passed := r.1
        let previous := r.2.1
        match r.2.2 with
        | current :: rest' =>
            if add 64 previous.base previous.size = node then
              if add 64 node (nodeHeaderSize * size) < current.base then
                -- 4. Merge with previous
                .ok (passed ++ ⟨previous.base, add 64 previous.size size⟩ :: current :: rest')
              else if add 64 node size = current.base then
                -- 5. Merge with previous & current
                .ok (passed ++
                  ⟨previous.base, add 64 previous.size (add 64 size current.size)⟩ :: rest')
              else .error .allocatorRangeOverlapping
            else if add 64 previous.base previous.size < node then
              if add 64 node size < current.base then
                -- 6. Add between previous & current
                .ok (passed ++ previous :: ⟨node, size⟩ :: current :: rest')
              else if add 64 node (nodeHeaderSize * size) = current.base then
                -- 7. Merge with current
                .ok (passed ++ previous :: ⟨node, add 64 size current.size⟩ :: rest')
              else .error .allocatorRangeOverlapping
            else .error .allocatorRangeOverlapping
        | [] =>
            if add 64 previous.base previous.size = node then
              -- 8. Merge with previous
              .ok (passed ++ [⟨previous.base, add 64 previous.size size⟩])
            else if add 64 previous.base previous.size < node then
              -- 9. Append node to list
              .ok (passed ++ [previous, ⟨node, size⟩])
            else .error .allocatorRangeOverlapping

/-- The block that `allocator_heap_add_memory` hands to `list_add`: the start rounded up and the
size reduced to match, then the size rounded down, all to `NODE_HEADER_SIZE`. -/
def addMemoryBlock (addr size : Nat) : Span :=
  let r : Span :=
    if addr % nodeHeaderSize ≠ 0 then
      let newAddr := alignUp 64 addr nodeHeaderSize
      ⟨newAddr, sub 64 size (sub 64 newAddr addr)⟩
    else ⟨addr, size⟩
  if r.size % nodeHeaderSize ≠ 0 then ⟨r.base, alignDown r.size nodeHeaderSize⟩ else r

/-- `allocator_heap_add_memory`: add the aligned block to the free list and count its bytes in
`total_size`. An error leaves the allocator unchanged. -/
def allocatorHeapAddMemory (a : Allocator) (addr size : Nat) : Except Error Allocator :=
  let b := addMemoryBlock addr size
  if addOverflows 64 b.base b.size then .error .addrOverflow
  else if b.size < 2 * nodeHeaderSize then .error .argumentSize
  else
    match listAdd a.heap b.base b.size with
    | .ok heap => .ok { a with heap := heap, totalSize := add 64 a.totalSize b.size }
    | .error e => .error e

/-! ## Allocation -/

/-- `allocate_from_node`: carve an aligned block of `allocSize` bytes out of the node `current`.
On success the result is the block's address and the nodes that replace `current` in the list:
none (1, the whole node), the node shortened at its end (2) or at its start (3), or the two pieces
around the block (4). -/
def allocateFromNode (current : Span) (allocSize allocAlignment : Nat) :
    Except Error (Nat × List Span) :=
  let nodeStart := current.base
  let nodeEnd := add 64 current.base current.size
  let alignedAllocStart := alignUp 64 nodeStart allocAlignment
  let alignedAllocEnd := add 64 alignedAllocStart allocSize
  if addOverflows 64 alignedAllocStart allocSize then .error .addrOverflow
  else if alignedAllocEnd > nodeEnd ∨ alignedAllocStart > nodeEnd then .error .nomem
  else if nodeEnd = alignedAllocEnd then
    if nodeStart = alignedAllocStart then .ok (alignedAllocStart, [])
    else .ok (alignedAllocStart, [⟨current.base, sub 64 current.size allocSize⟩])
  else if nodeStart = alignedAllocStart then
    .ok (alignedAllocStart, [⟨alignedAllocEnd, sub 64 current.size allocSize⟩])
  else
    .ok (alignedAllocStart,
      [⟨current.base, sub 64 alignedAllocStart nodeStart⟩,
        ⟨alignedAllocEnd, sub 64 nodeEnd alignedAllocEnd⟩])

/-- `allocate_block`: first fit. The nodes are tried in list order and the first one that
`allocate_from_node` can carve the block out of is replaced by its remainder. -/
def allocateBlock : List Span → Nat → Nat → Except Error (Nat × List Span)
  | [], _, _ => .error .nomem
  | current :: rest, size, alignment =>
      match allocateFromNode current size alignment with
      | .ok (p, nodes) => .ok (p, nodes ++ rest)
      | .error _ =>
          match allocateBlock rest size alignment with
          | .ok (p, heap) => .ok (p, current :: heap)
          | .error e => .error e

/-- `allocator_allocate_object`: round the size up and the alignment up to `NODE_HEADER_SIZE`,
allocate first fit, and count the rounded size in `alloc_size`. -/
def allocatorAllocateObject (a : Allocator) (size minAlignment : Nat) :
    Except Error (Nat × Allocator) :=
  let alignment := max minAlignment sizeAlign
  if a.heap = [] then .error .nomem
  else if size > maxAllocSize ∨ alignment > maxAlignmentSize then .error .argumentInvalid
  else
    let size := alignUp 64 size nodeHeaderSize
    let alignment := if alignment < nodeHeaderSize then nodeHeaderSize else alignment
    match allocateBlock a.heap size alignment with
    | .ok (p, heap) => .ok (p, { a with heap := heap, allocSize := add 64 a.allocSize size })
    | .error e => .error e

/-! ## Deallocation -/

/-- `deallocate_block`: put the block `[object, object + size)` back. The walk stops at the last
node before the block (or at the head), and the block is merged into that node, made the new
head, or linked after it, and in each case merged with the node after it when they touch. -/
def deallocateBlock (heap : List Span) (object size : Nat) : List Span :=
  match heap with
  | [] => [⟨object, size⟩]
  | head :: rest =>
      let r := walk (fun next => decide (next.base < object)) head rest
      let passed := r.1
      let previous := r.2.1
      if add 64 previous.base previous.size = object then
        -- Combine the free memory into the previous node.
        let merged := add 64 previous.size size
        match r.2.2 with
        | next :: rest' =>
            if add 64 previous.base merged = next.base then
              passed ++ ⟨previous.base, add 64 merged next.size⟩ :: rest'
            else passed ++ ⟨previous.base, merged⟩ :: next :: rest'
        | [] => passed ++ [⟨previous.base, merged⟩]
      else if object < previous.base then
        -- Create node as head: `*head` is set to the block, linked to `previous`.
        if add 64 object size = previous.base then
          ⟨object, add 64 size previous.size⟩ :: r.2.2
        else ⟨object, size⟩ :: previous :: r.2.2
      else
        -- Create a new header in the object.
        match r.2.2 with
        | next :: rest' =>
            if add 64 object size = next.base then
              passed ++ previous :: ⟨object, add 64 size next.size⟩ :: rest'
            else passed ++ previous :: ⟨object, size⟩ :: next :: rest'
        | [] => passed ++ [previous, ⟨object, size⟩]

/-- `allocator_deallocate_object`: round the size up, return the block to the free list and
uncount it from `alloc_size`. It always returns `OK`. -/
def allocatorDeallocateObject (a : Allocator) (object size : Nat) : Allocator :=
  let size := alignUp 64 size nodeHeaderSize
  { a with heap := deallocateBlock a.heap object size, allocSize := sub 64 a.allocSize size }

end Gunyah.AllocatorList

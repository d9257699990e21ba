import Gunyah.Allocator.FreelistSpec

set_option autoImplicit false

/-!
# Runs of the list allocator

A run is any sequence of calls of `allocator_heap_add_memory`, `allocator_allocate_object` and
`allocator_deallocate_object` on one allocator, from `allocator_init`. Next to the allocator, the
state of a run records what the callers know: the blocks allocated and not yet freed, each with the
size it was asked for, and the blocks that the adds put on the heap.

`HeapProperties` states the heap properties: the free list is sorted, made of aligned nodes, and
separated by gaps, the free nodes and the live blocks are disjoint and cover exactly the memory
added, and the two counters hold the sizes of the live blocks and of the memory added. They hold
in every run whose adds hand over fresh memory (`heapProperties_of_reachable`), through the invariant
`HeapInv` that each call keeps. They fail in a run that adds a second time memory that a live block
was carved from (`heapProperties_fail`).
-/

namespace Gunyah.AllocatorList

open FixedWidth Span

/-- The memory a live block takes: its size rounded up to `NODE_HEADER_SIZE`, as both
`allocator_allocate_object` and `allocator_deallocate_object` round it. -/
def blockSpan (blk : Nat × Nat) : Span := ⟨blk.1, alignUp 64 blk.2 nodeHeaderSize⟩

/-- The state of a run: the allocator, the live blocks as (address, requested size), and the
blocks added to the heap. -/
structure HeapState where
  allocator : Allocator
  live : List (Nat × Nat)
  added : List Span
deriving DecidableEq, Repr

/-- The state after `allocator_init`. -/
def HeapState.init : HeapState := ⟨allocatorInit, [], []⟩

/-- A call of the allocator's interface. -/
inductive HeapCall where
  | addMemory (addr size : Nat)
  | allocateObject (size minAlignment : Nat)
  | deallocateObject (object size : Nat)
deriving DecidableEq, Repr

/-- One call. A call that returns an error leaves the allocator as it was, and the caller gets
nothing. -/
def HeapState.call (s : HeapState) : HeapCall → HeapState
  | .addMemory addr size =>
      match allocatorHeapAddMemory s.allocator addr size with
      | .ok a => { s with allocator := a, added := s.added ++ [addMemoryBlock addr size] }
      | .error _ => s
  | .allocateObject size minAlignment =>
      match allocatorAllocateObject s.allocator size minAlignment with
      | .ok (p, a) => { s with allocator := a, live := (p, size) :: s.live }
      | .error _ => s
  | .deallocateObject object size =>
      { s with allocator := allocatorDeallocateObject s.allocator object size,
               live := s.live.erase (object, size) }

/-- What the C code asserts of each call, and what the caller of a deallocation promises: the
block is live, and is given back with the size it was allocated with. -/
def HeapCall.Allowed (s : HeapState) : HeapCall → Prop
  | .addMemory addr _ => addr ≠ 0
  | .allocateObject size minAlignment => 0 < size ∧ IsPow2 (max minAlignment sizeAlign)
  | .deallocateObject object size => (object, size) ∈ s.live

/-- The heap's memory lies below `2 ^ 64 - MAX_ALIGNMENT_SIZE`, so that rounding a node's start up
to any alignment the allocator accepts does not wrap around. -/
def heapTop : Nat := 2 ^ 64 - maxAlignmentSize

/-- What the caller of `allocator_heap_add_memory` must further hand over: memory that no earlier
add handed over, below `heapTop`, and small enough that the pointer arithmetic `node + size` on
`allocator_node_t *` in `list_add` does not wrap around. -/
def HeapCall.Fresh (s : HeapState) : HeapCall → Prop
  | .addMemory addr size =>
      addr + size ≤ heapTop ∧ addr + nodeHeaderSize * size < 2 ^ 64 ∧
        ∀ a, a ∈ (⟨addr, size⟩ : Span) → ¬ Covers s.added a
  | _ => True

/-- The states reached from `allocator_init` by calls that `allowed` admits. -/
inductive Reachable (allowed : HeapState → HeapCall → Prop) : HeapState → Prop where
  | init : Reachable allowed HeapState.init
  | call {s : HeapState} {c : HeapCall} :
      Reachable allowed s → allowed s c → Reachable allowed (s.call c)

/-- The heap properties: (a) the free list is sorted by address; (b) its nodes are aligned to 16
bytes, with sizes that are nonzero multiples of 16; (c) consecutive nodes neither overlap nor
touch; (d) the free nodes and the live blocks are pairwise disjoint and together cover exactly the
memory added; (e) `alloc_size` is the size of the live blocks and `total_size` the size of the
memory added. -/
structure HeapProperties (s : HeapState) : Prop where
  sorted : s.allocator.heap.Pairwise (fun x y => x.base < y.base)
  aligned : ∀ x ∈ s.allocator.heap, x.base % 16 = 0 ∧ 0 < x.size ∧ x.size % 16 = 0
  separated : s.allocator.heap.IsChain (fun x y => x.base + x.size < y.base)
  disjoint : (s.allocator.heap ++ s.live.map blockSpan).Pairwise Span.Disjoint
  covers : ∀ a, Covers (s.allocator.heap ++ s.live.map blockSpan) a ↔ Covers s.added a
  allocSize : s.allocator.allocSize = total (s.live.map blockSpan)
  totalSize : s.allocator.totalSize = total s.added

/-! ## The invariant -/

/-- The invariant of a run: a free list below `heapTop`, live blocks that are nodes below it,
disjoint from each other and from the free list, the added memory split exactly between the two,
added blocks disjoint and below `heapTop`, and the counters. -/
structure HeapInv (s : HeapState) : Prop where
  free : FreeList heapTop 0 s.allocator.heap
  blocks : ∀ blk ∈ s.live, 0 < (blockSpan blk).size ∧ NodeOk heapTop (blockSpan blk)
  liveDisjoint : (s.live.map blockSpan).Pairwise Span.Disjoint
  freeLive : ∀ a, Covers s.allocator.heap a → ¬ Covers (s.live.map blockSpan) a
  covers : ∀ a, Covers s.added a ↔ Covers s.allocator.heap a ∨ Covers (s.live.map blockSpan) a
  addedDisjoint : s.added.Pairwise Span.Disjoint
  addedBelow : ∀ t ∈ s.added, t.base + t.size ≤ heapTop
  allocSize : s.allocator.allocSize = total (s.live.map blockSpan)
  totalSize : s.allocator.totalSize = total s.added

theorem heapTop_lt : heapTop < 2 ^ 64 := by decide

theorem heapInv_init : HeapInv HeapState.init where
  free := FreeList.nil
  blocks _ h := by cases h
  liveDisjoint := List.Pairwise.nil
  freeLive _ h := absurd h not_covers_nil
  covers _ := by simp [HeapState.init, allocatorInit]
  addedDisjoint := List.Pairwise.nil
  addedBelow _ h := by cases h
  allocSize := rfl
  totalSize := rfl

section Steps

variable {s : HeapState}

/-- The live blocks, like the added memory, cover addresses below `heapTop` only, so the counters
never wrap around. -/
theorem HeapInv.total_live_le (h : HeapInv s) : total (s.live.map blockSpan) ≤ heapTop :=
  total_le h.liveDisjoint fun t ht => by
    obtain ⟨blk, hblk, rfl⟩ := List.mem_map.1 ht
    exact (h.blocks blk hblk).2.2.2

/-- Adding fresh memory keeps the invariant. -/
theorem heapInv_addMemory {addr size : Nat} (h : HeapInv s)
    (hf : (HeapCall.addMemory addr size).Fresh s) :
    HeapInv (s.call (.addMemory addr size)) := by
  obtain ⟨hlim, hptr, hfresh⟩ := hf
  simp only [HeapState.call]
  cases ha : allocatorHeapAddMemory s.allocator addr size with
  | error e => exact h
  | ok a' =>
      dsimp only
      -- The free list is part of the memory added, so the new memory is disjoint from it too.
      have hd : ∀ x, x ∈ (⟨addr, size⟩ : Span) → ¬ Covers s.allocator.heap x :=
        fun x hx hc => hfresh x hx ((h.covers x).2 (.inl hc))
      obtain ⟨hab, hbe, hadd, htot, halloc⟩ :=
        allocatorHeapAddMemory_ok (by decide) h.free hlim hptr hd rfl ha
      generalize addMemoryBlock addr size = b at hab hbe hadd htot
      have hnew : ∀ x, x ∈ b → ¬ Covers s.added x := fun x hx =>
        hfresh x (by simp only [mem_iff] at hx ⊢; omega)
      have hdisj : (s.added ++ [b]).Pairwise Span.Disjoint :=
        List.pairwise_append.2 ⟨h.addedDisjoint, List.pairwise_singleton _ _,
          fun t ht u hu x hxt hxu => by
            rw [List.mem_singleton.1 hu] at hxu
            exact hnew x hxu ⟨t, ht, hxt⟩⟩
      have hbelow : ∀ t ∈ s.added ++ [b], t.base + t.size ≤ heapTop := by
        intro t ht
        rcases List.mem_append.1 ht with ht | ht
        · exact h.addedBelow t ht
        · rw [List.mem_singleton.1 ht]
          omega
      have hsum := total_le hdisj hbelow
      simp only [total_append, total_cons, total_nil] at hsum
      refine ⟨hadd.freeList, h.blocks, h.liveDisjoint, fun x hx hl => ?_, fun x => ?_, hdisj,
        hbelow, halloc.trans h.allocSize, ?_⟩
      · rcases (hadd.covers x).1 hx with hx | hx
        · exact h.freeLive x hx hl
        · exact hnew x hx ((h.covers x).2 (.inr hl))
      · rw [covers_append, h.covers, hadd.covers, covers_cons]
        simp only [not_covers_nil, or_false]
        tauto
      · rw [htot, h.totalSize, add_of_lt (by have := heapTop_lt; omega), total_append]
        rfl

/-- An allocation as the C code asserts it keeps the invariant. -/
theorem heapInv_allocateObject {size minAlignment : Nat} (h : HeapInv s)
    (hc : (HeapCall.allocateObject size minAlignment).Allowed s) :
    HeapInv (s.call (.allocateObject size minAlignment)) := by
  obtain ⟨hsize, hal⟩ := hc
  simp only [HeapState.call]
  cases ha : allocatorAllocateObject s.allocator size minAlignment with
  | error e => exact h
  | ok r =>
      obtain ⟨p, a'⟩ := r
      dsimp only
      obtain ⟨hmax, -, hp16, hrem, halloc, htot⟩ :=
        allocatorAllocateObject_ok (by decide) h.free hsize hal ha
      have hw : size + (nodeHeaderSize - 1) < 2 ^ 64 := by
        simp only [maxAllocSize, nodeHeaderSize] at hmax ⊢
        omega
      have hpos : 0 < (blockSpan (p, size)).size :=
        Nat.lt_of_lt_of_le hsize (le_alignUp (by decide) hw)
      have hend := hrem.end_le h.free hpos
      -- The block came out of the free list, so no live block meets it.
      have hfree : ∀ x, x ∈ blockSpan (p, size) → ¬ Covers (s.live.map blockSpan) x :=
        fun x hx => h.freeLive x (hrem.within x hx)
      have hnode : NodeOk heapTop (blockSpan (p, size)) :=
        ⟨hp16, alignUp_mod _ _, hend⟩
      have hdisj : (blockSpan (p, size) :: s.live.map blockSpan).Pairwise Span.Disjoint :=
        List.Pairwise.cons (fun t ht x hx hxt => hfree x hx ⟨t, ht, hxt⟩) h.liveDisjoint
      have hblocks : ∀ blk ∈ (p, size) :: s.live,
          0 < (blockSpan blk).size ∧ NodeOk heapTop (blockSpan blk) := by
        intro blk hblk
        rcases List.mem_cons.1 hblk with rfl | hblk
        · exact ⟨hpos, hnode⟩
        · exact h.blocks blk hblk
      have hsum := total_le hdisj fun t ht => by
        rcases List.mem_cons.1 ht with rfl | ht
        · exact hend
        · obtain ⟨blk, hblk, rfl⟩ := List.mem_map.1 ht
          exact (h.blocks blk hblk).2.2.2
      have hbs : (blockSpan (p, size)).size = alignUp 64 size nodeHeaderSize := rfl
      simp only [total_cons, hbs] at hsum
      refine ⟨hrem.freeList, hblocks, by simpa using hdisj, fun x hx hl => ?_, fun x => ?_,
        h.addedDisjoint, h.addedBelow, ?_, htot.trans h.totalSize⟩
      · obtain ⟨hxo, hxb⟩ := (hrem.covers x).1 hx
        simp only [List.map_cons, covers_cons] at hl
        rcases hl with hl | hl
        · exact hxb hl
        · exact h.freeLive x hxo hl
      · have hin := hrem.within x
        simp only [List.map_cons, covers_cons, h.covers, hrem.covers]
        by_cases hx : x ∈ blockSpan (p, size)
        · have := hin hx
          tauto
        · tauto
      · rw [halloc, h.allocSize, add_of_lt (by have := heapTop_lt; omega)]
        simp only [List.map_cons, total_cons]
        exact Nat.add_comm _ _

/-- Freeing a live block with the size it was allocated with keeps the invariant. -/
theorem heapInv_deallocateObject {object size : Nat} (h : HeapInv s)
    (hc : (HeapCall.deallocateObject object size).Allowed s) :
    HeapInv (s.call (.deallocateObject object size)) := by
  have hmem : (object, size) ∈ s.live := hc
  simp only [HeapState.call]
  -- Take the freed block out in front: the live blocks are it and the others.
  have hperm := (List.perm_cons_erase hmem).map blockSpan
  rw [List.map_cons] at hperm
  generalize hb : blockSpan (object, size) = b at hperm
  have hpd := (hperm.pairwise_iff fun hxy => Span.Disjoint.symm hxy).1 h.liveDisjoint
  obtain ⟨hbrest, hrest⟩ := List.pairwise_cons.1 hpd
  have hcov : ∀ x, Covers (s.live.map blockSpan) x ↔
      x ∈ b ∨ Covers ((s.live.erase (object, size)).map blockSpan) x := fun x => by
    rw [covers_perm hperm, covers_cons]
  obtain ⟨hpos, hnode⟩ := hb ▸ h.blocks _ hmem
  have hd : ∀ x, x ∈ b → ¬ Covers s.allocator.heap x :=
    fun x hx hc => h.freeLive x hc ((hcov x).2 (.inl hx))
  have hadd : AddsBlock heapTop 0 b s.allocator.heap
      (allocatorDeallocateObject s.allocator object size).heap := by
    rw [allocatorDeallocateObject_heap]
    have e : b = ⟨object, alignUp 64 size nodeHeaderSize⟩ := hb.symm
    subst e
    exact deallocateBlock_ok heapTop_lt h.free hnode hpos hd
  have htot := total_perm hperm
  simp only [total_cons] at htot
  have hle := h.total_live_le
  refine ⟨hadd.freeList, fun blk hblk => h.blocks blk (List.mem_of_mem_erase hblk), hrest,
    fun x hx hl => ?_, fun x => ?_, h.addedDisjoint, h.addedBelow, ?_, h.totalSize⟩
  · rcases (hadd.covers x).1 hx with hx | hx
    · exact h.freeLive x hx ((hcov x).2 (.inr hl))
    · obtain ⟨t, ht, hxt⟩ := hl
      exact hbrest t ht x hx hxt
  · rw [h.covers, hadd.covers, hcov]
    tauto
  · have hbsize : alignUp 64 size nodeHeaderSize = b.size := by rw [← hb]; rfl
    have := heapTop_lt
    rw [allocatorDeallocateObject_allocSize, h.allocSize, htot, hbsize,
      sub_of_le (by omega) (by omega), Nat.add_sub_cancel_left]

/-- Each call that the C code's assertions, the deallocation contract and fresh adds admit keeps
the invariant. -/
theorem heapInv_call {c : HeapCall} (h : HeapInv s) (hc : c.Allowed s) (hf : c.Fresh s) :
    HeapInv (s.call c) := by
  cases c with
  | addMemory addr size => exact heapInv_addMemory h hf
  | allocateObject size minAlignment => exact heapInv_allocateObject h hc
  | deallocateObject object size => exact heapInv_deallocateObject h hc

end Steps

/-- The invariant holds in every run with fresh adds. -/
theorem heapInv_of_reachable {s : HeapState}
    (h : Reachable (fun s c => c.Allowed s ∧ c.Fresh s) s) : HeapInv s := by
  induction h with
  | init => exact heapInv_init
  | call _ hc ih => exact heapInv_call ih hc.1 hc.2

/-- The invariant gives the heap properties. -/
theorem HeapInv.properties {s : HeapState} (h : HeapInv s) : HeapProperties s where
  sorted := h.free.gapped.pairwise.imp fun hlt => by omega
  aligned x hx := by
    obtain ⟨hb, hs, -⟩ := h.free.nodes x hx
    exact ⟨hb, (h.free.gapped.of_mem hx).2, hs⟩
  separated := h.free.gapped.pairwise.isChain
  disjoint := List.pairwise_append.2 ⟨h.free.pairwise_disjoint, h.liveDisjoint,
    fun t ht u hu x hxt hxu => h.freeLive x ⟨t, ht, hxt⟩ ⟨u, hu, hxu⟩⟩
  covers x := by rw [covers_append, h.covers]
  allocSize := h.allocSize
  totalSize := h.totalSize

/-! ## The heap properties over runs -/

/-- In a run where every add hands over fresh memory below `heapTop`, the heap properties hold in
every state. -/
theorem heapProperties_of_reachable (s : HeapState)
    (h : Reachable (fun s c => c.Allowed s ∧ c.Fresh s) s) : HeapProperties s :=
  (heapInv_of_reachable h).properties

/-- After adding `[16, 80)` and allocating 32 bytes from it, the properties hold. -/
theorem heapProperties_of_reachable_add_allocate :
    Reachable (fun s c => c.Allowed s ∧ c.Fresh s)
        ((HeapState.init.call (.addMemory 16 64)).call (.allocateObject 32 16)) ∧
      HeapProperties ((HeapState.init.call (.addMemory 16 64)).call (.allocateObject 32 16)) := by
  have hr : Reachable (fun s c => c.Allowed s ∧ c.Fresh s)
      ((HeapState.init.call (.addMemory 16 64)).call (.allocateObject 32 16)) :=
    .call (.call .init ⟨show (16 : Nat) ≠ 0 by decide, by decide, by decide,
      fun _ _ hc => not_covers_nil hc⟩)
      ⟨⟨by decide, 4, rfl⟩, trivial⟩
  exact ⟨hr, heapProperties_of_reachable _ hr⟩

/- The two bounds of `HeapCall.Fresh` on the memory added are needed. Above `heapTop`, rounding a
node's start up to a large alignment wraps around, and the allocation returns address 0. -/
example : ((HeapState.init.call (.addMemory (2 ^ 64 - 2 ^ 20) (2 ^ 20 - 16))).call
    (.allocateObject 16 (2 ^ 21))).live = [(0, 16)] := by decide

/- And when `node + size` on `allocator_node_t *` wraps around, case 4 of `list_add` merges the block
into the node before it although it touches the node after it, and the two nodes then touch. -/
example : (((HeapState.init.call (.addMemory (2 ^ 63 - 32) 32)).call
    (.addMemory (2 ^ 63 + 2 ^ 62) 32)).call (.addMemory (2 ^ 63) (2 ^ 62))).allocator.heap =
    [⟨2 ^ 63 - 32, 2 ^ 62 + 32⟩, ⟨2 ^ 63 + 2 ^ 62, 32⟩] := by decide

/-- Without fresh adds the properties fail: add `[16, 48)`, allocate all 32 bytes of it, and add
`[16, 48)` again. The add succeeds, as the free list is empty, and the free node overlaps the live
block. -/
theorem heapProperties_fail : ¬ ∀ s, Reachable HeapCall.Allowed s → HeapProperties s := by
  intro h
  have hr : Reachable HeapCall.Allowed
      (((HeapState.init.call (.addMemory 16 32)).call (.allocateObject 32 16)).call
        (.addMemory 16 32)) :=
    .call (.call (.call .init (show (16 : Nat) ≠ 0 by decide)) ⟨by decide, 4, rfl⟩)
      (show (16 : Nat) ≠ 0 by decide)
  have hd := (h _ hr).disjoint
  have e : ((((HeapState.init.call (.addMemory 16 32)).call (.allocateObject 32 16)).call
      (.addMemory 16 32)).allocator.heap ++
      (((HeapState.init.call (.addMemory 16 32)).call (.allocateObject 32 16)).call
        (.addMemory 16 32)).live.map blockSpan) = [⟨16, 32⟩, ⟨16, 32⟩] := by decide
  rw [e, List.pairwise_pair] at hd
  exact hd 16 (by decide) (by decide)

end Gunyah.AllocatorList

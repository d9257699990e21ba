import Gunyah.Allocator.FreelistSpec

set_option autoImplicit false

/-!
# What the free-list operations accept, exactly

`allocator_allocate_object` is first fit. On a free list whose nodes end at or below
`2 ^ 64 - MAX_ALIGNMENT_SIZE` it succeeds exactly when some node holds an aligned block of the
rounded size. The block then comes from the first such node, and exactly its bytes leave the free
memory (`allocatorAllocateObject_first_fit`). Freeing the block right afterwards gives back the
list it was taken from, node for node (`allocatorDeallocateObject_restores`). Both lists are
gapped and cover the same addresses, and a gapped list is determined by what it covers
(`Span.Gapped.eq_of_covers`).

Above the bound the code goes wrong. `util_balign_up` of a node start that lies within the
alignment of `2 ^ 64` wraps around to zero, the overflow checks of `allocate_from_node` all pass,
and the allocation succeeds at address zero, outside every node (`allocatorAllocateObject_wraps`);
freeing that block does not give the list back (`allocatorDeallocateObject_wraps`).

`list_add` rejects some blocks that share no byte with the free memory. Case 7 compares
`node + size` as `allocator_node_t *` arithmetic, which adds `16 * size` bytes, so a block that
ends where the next node starts, and does not touch the node before it, is reported as
overlapping (`listAdd_rejects_touching`).
-/

namespace Gunyah.AllocatorList

open FixedWidth Span

/-- The node `s` holds an `al`-aligned block of `n` bytes. -/
def HoldsAligned (al n : Nat) (s : Span) : Prop :=
  ∃ q, q % al = 0 ∧ s.base ≤ q ∧ q + n ≤ s.base + s.size

/-- Without wrap-around, a node holds an aligned block exactly when the block at its first
aligned address fits. -/
theorem holdsAligned_iff {al n : Nat} {s : Span} (hal : 0 < al) (hx : s.base + (al - 1) < 2 ^ 64) :
    HoldsAligned al n s ↔ alignUp 64 s.base al + n ≤ s.base + s.size := by
  constructor
  · rintro ⟨q, hq, hle, hfit⟩
    have := alignUp_le_of_mod hal hx hq hle
    omega
  · intro h
    exact ⟨_, alignUp_mod _ _, le_alignUp hal hx, h⟩

/-! ## `allocate_from_node` and `allocate_block` -/

/-- `allocate_from_node` succeeds on a node that holds the block. -/
theorem allocateFromNode_isOk {current : Span} {n al : Nat}
    (hend : current.base + current.size < 2 ^ 64) (hal : 0 < al)
    (hwrap : current.base + (al - 1) < 2 ^ 64) (hfit : HoldsAligned al n current) :
    ∃ r, allocateFromNode current n al = .ok r := by
  have hq := (holdsAligned_iff hal hwrap).1 hfit
  have he : add 64 current.base current.size = current.base + current.size := add_of_lt hend
  simp only [allocateFromNode, he]
  generalize alignUp 64 current.base al = q at hq
  have hqn : q + n < 2 ^ 64 := by omega
  have ho : addOverflows 64 q n = false := (addOverflows_eq_false_iff (by omega)).2 hqn
  have hnofit : ¬ (add 64 q n > current.base + current.size ∨ q > current.base + current.size) := by
    rw [add_of_lt hqn]
    omega
  rw [ho, if_neg Bool.false_ne_true, if_neg hnofit]
  -- every one of the four placements succeeds
  split_ifs <;> exact ⟨_, rfl⟩

/-- `allocate_from_node` succeeds exactly on a node that holds the block. -/
theorem allocateFromNode_isOk_iff {current : Span} {n al : Nat}
    (hend : current.base + current.size < 2 ^ 64) (hal : 0 < al)
    (hwrap : current.base + (al - 1) < 2 ^ 64) (hn : n < 2 ^ 64) :
    (∃ r, allocateFromNode current n al = .ok r) ↔ HoldsAligned al n current := by
  constructor
  · rintro ⟨⟨p, nodes⟩, h⟩
    obtain ⟨hp, hle, hpn, -⟩ := allocateFromNode_eq hend hal hwrap hn h
    exact ⟨p, hp, hle, hpn⟩
  · exact allocateFromNode_isOk hend hal hwrap

/-- The first fit of `allocate_block`: the block comes from a node after which no earlier node
could give it, and that node is replaced by what `allocate_from_node` leaves of it. -/
theorem allocateBlock_spec {heap heap' : List Span} {n al p : Nat}
    (h : allocateBlock heap n al = .ok (p, heap')) :
    ∃ pre s post nodes, heap = pre ++ s :: post ∧
      (∀ t ∈ pre, ∀ r, allocateFromNode t n al ≠ .ok r) ∧
      allocateFromNode s n al = .ok (p, nodes) ∧ heap' = pre ++ nodes ++ post := by
  -- Induction on the list, with the result of the head node split as the code does.
  induction heap generalizing heap' with
  | nil => simp [allocateBlock] at h
  | cons current rest ih =>
      simp only [allocateBlock] at h
      cases hf : allocateFromNode current n al with
      | ok r =>
          obtain ⟨q, nodes⟩ := r
          simp only [hf, Except.ok.injEq, Prod.mk.injEq] at h
          obtain ⟨rfl, rfl⟩ := h
          exact ⟨[], current, rest, nodes, rfl, by simp, hf, rfl⟩
      | error e =>
          cases hb : allocateBlock rest n al with
          | ok r =>
              obtain ⟨q, heap''⟩ := r
              simp only [hf, hb, Except.ok.injEq, Prod.mk.injEq] at h
              obtain ⟨rfl, rfl⟩ := h
              obtain ⟨pre, s, post, nodes, hsplit, hpre, hs, rfl⟩ := ih hb
              refine ⟨current :: pre, s, post, nodes, by rw [hsplit]; rfl, ?_, hs, rfl⟩
              intro t ht r
              rcases List.mem_cons.1 ht with rfl | ht
              · simp [hf]
              · exact hpre t ht r
          | error e' => simp [hf, hb] at h

/-- `allocate_block` succeeds exactly when `allocate_from_node` succeeds on some node. -/
theorem allocateBlock_isOk {heap : List Span} {n al : Nat} :
    (∃ r, allocateBlock heap n al = .ok r) ↔ ∃ s ∈ heap, ∃ r, allocateFromNode s n al = .ok r := by
  induction heap with
  | nil => simp [allocateBlock]
  | cons current rest ih =>
      cases hf : allocateFromNode current n al with
      | ok r =>
          obtain ⟨p, nodes⟩ := r
          exact ⟨fun _ => ⟨current, List.mem_cons_self, _, hf⟩,
            fun _ => ⟨(p, nodes ++ rest), by simp [allocateBlock, hf]⟩⟩
      | error e =>
          -- the head node fails, so the list succeeds exactly when its rest does
          have hhead : ¬ ∃ r, allocateFromNode current n al = .ok r := by
            rintro ⟨r, hr⟩
            rw [hf] at hr
            cases hr
          constructor
          · rintro ⟨r, hr⟩
            cases hb : allocateBlock rest n al with
            | ok r' =>
                obtain ⟨s, hs, hok⟩ := ih.1 ⟨r', hb⟩
                exact ⟨s, List.mem_cons_of_mem _ hs, hok⟩
            | error e' => simp [allocateBlock, hf, hb] at hr
          · rintro ⟨s, hs, hok⟩
            rcases List.mem_cons.1 hs with rfl | hs
            · exact absurd hok hhead
            · obtain ⟨⟨q, heap'⟩, hb⟩ := ih.2 ⟨s, hs, hok⟩
              exact ⟨(q, current :: heap'), by simp [allocateBlock, hf, hb]⟩

section FirstFit

variable {top lo n al : Nat} {heap : List Span}

/-- On a node of a free list below `top`, with `top + al ≤ 2 ^ 64`, `allocate_from_node`
succeeds exactly when the node holds the block. -/
theorem FreeList.isOk_iff_holdsAligned (hwrap : top + al ≤ 2 ^ 64) (hr : Request n al)
    (hl : FreeList top lo heap) {s : Span} (hs : s ∈ heap) :
    (∃ r, allocateFromNode s n al = .ok r) ↔ HoldsAligned al n s := by
  have hst := (hl.nodes s hs).2.2
  have hpos := (hl.gapped.of_mem hs).2
  have hal := hr.align_pos
  exact allocateFromNode_isOk_iff (by omega) hal (by omega) hr.size_lt

/-- First fit on a free list: `allocate_block` succeeds exactly when some node holds an aligned
block, and then takes an aligned block out of the first node that holds one. -/
theorem allocateBlock_first_fit (hwrap : top + al ≤ 2 ^ 64) (hr : Request n al)
    (hl : FreeList top lo heap) :
    ((∃ r, allocateBlock heap n al = .ok r) ↔ ∃ s ∈ heap, HoldsAligned al n s) ∧
      ∀ p heap', allocateBlock heap n al = .ok (p, heap') →
        p % al = 0 ∧
        (∃ pre s post, heap = pre ++ s :: post ∧ (∀ t ∈ pre, ¬ HoldsAligned al n t) ∧
          s.base ≤ p ∧ p + n ≤ s.base + s.size) ∧
        RemovesBlock top lo ⟨p, n⟩ heap heap' := by
  refine ⟨?_, fun p heap' h => ?_⟩
  · rw [allocateBlock_isOk]
    exact exists_congr fun s => and_congr_right fun hs => hl.isOk_iff_holdsAligned hwrap hr hs
  obtain ⟨hp, hrem⟩ := allocateBlock_ok hwrap hr hl h
  obtain ⟨pre, s, post, nodes, hsplit, hpre, hs, -⟩ := allocateBlock_spec h
  have hsmem : s ∈ heap := by simp [hsplit]
  have hst := (hl.nodes s hsmem).2.2
  have hal := hr.align_pos
  obtain ⟨-, hle, hpn, -⟩ := allocateFromNode_eq (by omega) hal (by omega) hr.size_lt hs
  refine ⟨hp, ⟨pre, s, post, hsplit, fun t ht hholds => ?_, hle, hpn⟩, hrem⟩
  -- a node before `s` that held the block would have been taken first
  have htmem : t ∈ heap := by simp [hsplit, ht]
  obtain ⟨r, hok⟩ := (hl.isOk_iff_holdsAligned hwrap hr htmem).2 hholds
  exact hpre t ht r hok

end FirstFit

/-! ## `allocator_allocate_object` -/

/-- The alignment that `allocator_allocate_object` hands to `allocate_block`. -/
theorem allocAlignment_eq (minAlignment : Nat) :
    (if max minAlignment sizeAlign < nodeHeaderSize then nodeHeaderSize
      else max minAlignment sizeAlign) = max minAlignment nodeHeaderSize := by
  by_cases h : max minAlignment sizeAlign < nodeHeaderSize
  · rw [if_pos h]
    simp only [sizeAlign, nodeHeaderSize] at h ⊢
    omega
  · rw [if_neg h]
    simp only [sizeAlign, nodeHeaderSize] at h ⊢
    omega

/-- Within its argument bounds, `allocator_allocate_object` is `allocate_block` of the rounded
size and alignment. -/
theorem allocatorAllocateObject_eq {a : Allocator} {size minAlignment : Nat}
    (hne : a.heap ≠ []) (hmax : size ≤ maxAllocSize) (halmax : minAlignment ≤ maxAlignmentSize) :
    allocatorAllocateObject a size minAlignment =
      (allocateBlock a.heap (alignUp 64 size nodeHeaderSize) (max minAlignment nodeHeaderSize)).map
        fun r => (r.1, ⟨r.2, a.totalSize, add 64 a.allocSize (alignUp 64 size nodeHeaderSize)⟩) := by
  have hbig : ¬ (size > maxAllocSize ∨ max minAlignment sizeAlign > maxAlignmentSize) := by
    simp only [sizeAlign, maxAlignmentSize] at halmax ⊢
    omega
  simp only [allocatorAllocateObject, if_neg hne, if_neg hbig, allocAlignment_eq]
  generalize allocateBlock a.heap (alignUp 64 size nodeHeaderSize) (max minAlignment nodeHeaderSize) = res
  cases res with
  | ok r => rfl
  | error e => rfl

/-- The request that `allocator_allocate_object` makes of `allocate_block`, for a size and an
alignment within its bounds. -/
theorem request_of_bounds {size minAlignment : Nat} (hsize : 0 < size)
    (hmax : size ≤ maxAllocSize) (hal : IsPow2 (max minAlignment sizeAlign)) :
    Request (alignUp 64 size nodeHeaderSize) (max minAlignment nodeHeaderSize) := by
  have hw : size + (nodeHeaderSize - 1) < 2 ^ 64 := by
    simp only [maxAllocSize, nodeHeaderSize] at hmax ⊢
    omega
  -- an alignment of 16 or more is a power of two at least 16, so a multiple of 16
  have hmod : max minAlignment nodeHeaderSize % nodeHeaderSize = 0 := by
    by_cases hlt : minAlignment < nodeHeaderSize
    · rw [max_eq_right hlt.le, Nat.mod_self]
    · have hge : sizeAlign ≤ minAlignment := by
        simp only [sizeAlign, nodeHeaderSize] at hlt ⊢
        omega
      rw [max_eq_left (not_lt.1 hlt)]
      rw [max_eq_left hge] at hal
      exact Nat.mod_eq_zero_of_dvd (pow2_dvd_of_le ⟨4, rfl⟩ hal (not_lt.1 hlt))
  exact
    { size_pos := Nat.lt_of_lt_of_le hsize (le_alignUp (by decide) hw)
      size_lt := Nat.lt_of_le_of_lt (alignUp_le hw) hw
      size_mod := alignUp_mod _ _
      align_pos := Nat.lt_of_lt_of_le (by decide) (le_max_right _ _)
      align_mod := hmod }

/-- `allocator_allocate_object` is first fit. For a size in `(0, MAX_ALLOC_SIZE]` and an
alignment it accepts, on a free list whose nodes end at or below `2 ^ 64 - MAX_ALIGNMENT_SIZE`: it
succeeds exactly when some node holds a `max min_alignment 16`-aligned block of the size rounded
up to 16; the address it returns is so aligned, its block lies in the first node that holds one,
and exactly the block's bytes leave the free memory. -/
theorem allocatorAllocateObject_first_fit {top size minAlignment : Nat} {a : Allocator}
    (hwrap : top + maxAlignmentSize ≤ 2 ^ 64) (hl : FreeList top 0 a.heap) (hsize : 0 < size)
    (hmax : size ≤ maxAllocSize) (hal : IsPow2 (max minAlignment sizeAlign))
    (halmax : minAlignment ≤ maxAlignmentSize) :
    ((∃ r, allocatorAllocateObject a size minAlignment = .ok r) ↔
      ∃ s ∈ a.heap, HoldsAligned (max minAlignment nodeHeaderSize) (alignUp 64 size nodeHeaderSize) s) ∧
    ∀ p a', allocatorAllocateObject a size minAlignment = .ok (p, a') →
      p % max minAlignment nodeHeaderSize = 0 ∧
      (∃ pre s post, a.heap = pre ++ s :: post ∧
        (∀ t ∈ pre, ¬ HoldsAligned (max minAlignment nodeHeaderSize) (alignUp 64 size nodeHeaderSize) t) ∧
        s.base ≤ p ∧ p + alignUp 64 size nodeHeaderSize ≤ s.base + s.size) ∧
      ∀ x, Covers a'.heap x ↔ Covers a.heap x ∧ x ∉ (⟨p, alignUp 64 size nodeHeaderSize⟩ : Span) := by
  -- an empty heap fails, and holds no block
  by_cases hne : a.heap = []
  · refine ⟨⟨fun ⟨r, hr⟩ => ?_, fun ⟨s, hs, _⟩ => ?_⟩, fun p a' h => ?_⟩
    · simp [allocatorAllocateObject, hne] at hr
    · simp [hne] at hs
    · simp [allocatorAllocateObject, hne] at h
  have hr := request_of_bounds hsize hmax hal
  have hwrap' : top + max minAlignment nodeHeaderSize ≤ 2 ^ 64 := by
    simp only [maxAlignmentSize, nodeHeaderSize] at hwrap halmax ⊢
    omega
  obtain ⟨hiff, hfirst⟩ := allocateBlock_first_fit hwrap' hr hl
  rw [allocatorAllocateObject_eq hne hmax halmax]
  refine ⟨?_, fun p a' h => ?_⟩
  · rw [← hiff]
    cases allocateBlock a.heap (alignUp 64 size nodeHeaderSize) (max minAlignment nodeHeaderSize) with
    | ok r => simp [Except.map]
    | error e => simp [Except.map]
  cases hb : allocateBlock a.heap (alignUp 64 size nodeHeaderSize) (max minAlignment nodeHeaderSize) with
  | ok r =>
      obtain ⟨q, heap'⟩ := r
      simp only [hb, Except.map, Except.ok.injEq, Prod.mk.injEq] at h
      obtain ⟨rfl, rfl⟩ := h
      obtain ⟨hp, hs, hrem⟩ := hfirst q heap' hb
      exact ⟨hp, hs, hrem.covers⟩
  | error e => simp [hb, Except.map] at h

/-- The first node `[64, 96)` cannot hold 40 bytes (rounded to 48) aligned to 64; the second,
`[256, 320)`, can. -/
theorem allocatorAllocateObject_first_fit_second :
    let a : Allocator := ⟨[⟨64, 32⟩, ⟨256, 64⟩], 96, 0⟩
    FreeList 1024 0 a.heap ∧
    (((∃ r, allocatorAllocateObject a 40 64 = .ok r) ↔
      ∃ s ∈ a.heap, HoldsAligned (max 64 nodeHeaderSize) (alignUp 64 40 nodeHeaderSize) s) ∧
    ∀ p a', allocatorAllocateObject a 40 64 = .ok (p, a') →
      p % max 64 nodeHeaderSize = 0 ∧
      (∃ pre s post, a.heap = pre ++ s :: post ∧
        (∀ t ∈ pre, ¬ HoldsAligned (max 64 nodeHeaderSize) (alignUp 64 40 nodeHeaderSize) t) ∧
        s.base ≤ p ∧ p + alignUp 64 40 nodeHeaderSize ≤ s.base + s.size) ∧
      ∀ x, Covers a'.heap x ↔ Covers a.heap x ∧ x ∉ (⟨p, alignUp 64 40 nodeHeaderSize⟩ : Span)) := by
  intro a
  have hl : FreeList 1024 0 a.heap := ⟨by simp [a], by simp [a]⟩
  exact ⟨hl, allocatorAllocateObject_first_fit (by decide) hl (by decide) (by decide) ⟨6, by decide⟩
    (by decide)⟩

/-- Freeing a block right after allocating it restores the free list exactly, on a free list
whose nodes end at or below `2 ^ 64 - MAX_ALIGNMENT_SIZE`. The list after the free is gapped and
covers what the list before the allocation covers, and a gapped list is determined by what it
covers. -/
theorem allocatorDeallocateObject_restores {top size minAlignment p : Nat} {a a' : Allocator}
    (hwrap : top + maxAlignmentSize ≤ 2 ^ 64) (hl : FreeList top 0 a.heap) (hsize : 0 < size)
    (hal : IsPow2 (max minAlignment sizeAlign))
    (h : allocatorAllocateObject a size minAlignment = .ok (p, a')) :
    (allocatorDeallocateObject a' p size).heap = a.heap := by
  obtain ⟨hmax, -, hp16, hrem, -, -⟩ := allocatorAllocateObject_ok hwrap hl hsize hal h
  have hr := request_of_bounds hsize hmax hal
  have hpos := hr.size_pos
  have htop : top < 2 ^ 64 := by
    simp only [maxAlignmentSize] at hwrap
    omega
  have hb : NodeOk top ⟨p, alignUp 64 size nodeHeaderSize⟩ :=
    ⟨hp16, hr.size_mod, hrem.end_le hl hpos⟩
  -- the block is what the allocation took out, so it shares no address with the list after it
  have hd : ∀ x, x ∈ (⟨p, alignUp 64 size nodeHeaderSize⟩ : Span) → ¬ Covers a'.heap x :=
    fun x hx hc => ((hrem.covers x).1 hc).2 hx
  have hadd := deallocateBlock_ok htop hrem.freeList hb hpos hd
  rw [allocatorDeallocateObject_heap]
  refine hadd.gapped.eq_of_covers hl.gapped fun x => ?_
  rw [hadd.covers, hrem.covers]
  have := hrem.within x
  tauto

/-- 16 bytes aligned to 64 do not fit in `[80, 112)` and are carved from the middle of the node
`[272, 368)`; freeing them joins the two pieces back into that node. -/
theorem allocatorDeallocateObject_restores_middle :
    let a : Allocator := ⟨[⟨80, 32⟩, ⟨272, 96⟩], 128, 0⟩
    let a' : Allocator := ⟨[⟨80, 32⟩, ⟨272, 48⟩, ⟨336, 32⟩], 128, 16⟩
    FreeList 1024 0 a.heap ∧ allocatorAllocateObject a 16 64 = .ok (320, a') ∧
      (allocatorDeallocateObject a' 320 16).heap = a.heap := by
  intro a a'
  have hl : FreeList 1024 0 a.heap := ⟨by simp [a], by simp [a]⟩
  have h : allocatorAllocateObject a 16 64 = .ok (320, a') := rfl
  exact ⟨hl, h, allocatorDeallocateObject_restores (by decide) hl (by decide) ⟨6, by decide⟩ h⟩

/-- The pointer sum `node + size` of `list_add`'s case 7, which adds `16 * size` bytes, never
equals the byte sum `node + size` of a nonempty block that fits below `2 ^ 64`. -/
theorem add_nodeHeaderSize_mul_ne {node size : Nat} (h : node + size < 2 ^ 64) (hpos : 0 < size) :
    add 64 node (nodeHeaderSize * size) ≠ node + size := by
  simp only [add, nodeHeaderSize]
  generalize hm : 2 ^ 64 = m at h ⊢
  intro he
  -- the sum wrapped `q` times, so `2 ^ 64` divides `15 * size`, and so divides `size`
  have hk := Nat.div_add_mod (node + 16 * size) m
  rw [he] at hk
  have hcop : Nat.Coprime m 15 := hm ▸ Nat.Coprime.pow_left 64 (by decide)
  generalize (node + 16 * size) / m = q at hk
  have h15 : m ∣ 15 * size := ⟨q, by omega⟩
  have := Nat.le_of_dvd hpos (hcop.dvd_of_dvd_mul_left h15)
  omega

section Between

variable {top lo node size : Nat} {pre rest : List Span} {previous current : Span}

/-- The nodes of a free list up to `previous` start at or before it. -/
theorem FreeList.base_le_of_mem (hl : FreeList top lo (pre ++ previous :: rest)) {s : Span}
    (hs : s ∈ pre ++ [previous]) : s.base ≤ previous.base := by
  obtain ⟨-, -, hpre⟩ := List.pairwise_append.1 hl.gapped.pairwise
  rcases List.mem_append.1 hs with hs | hs
  · have := hpre s hs previous List.mem_cons_self
    omega
  · rw [List.mem_singleton.1 hs]

/-- A block in the gap between the nodes `previous` and `current` shares no address with the
list. -/
theorem FreeList.not_covers_of_between (hl : FreeList top lo (pre ++ previous :: current :: rest))
    (hlo : previous.base + previous.size ≤ node) (hhi : node + size ≤ current.base) :
    ∀ a, a ∈ (⟨node, size⟩ : Span) → ¬ Covers (pre ++ previous :: current :: rest) a := by
  obtain ⟨-, hmid, hpre⟩ := List.pairwise_append.1 hl.gapped.pairwise
  obtain ⟨hcur, -⟩ := List.pairwise_cons.1 (List.pairwise_cons.1 hmid).2
  rintro a ha ⟨t, ht, hat⟩
  simp only [mem_iff] at ha hat
  -- the nodes before `previous` end before it, and those after `current` start after it
  rcases List.mem_append.1 ht with ht | ht
  · have := hpre t ht previous List.mem_cons_self
    omega
  rcases List.mem_cons.1 ht with rfl | ht
  · omega
  rcases List.mem_cons.1 ht with rfl | ht
  · omega
  · have := hcur t ht
    omega

/-- The walk of `list_add` for a block starting at or after `previous` and before `current`
stops at `previous`. -/
theorem FreeList.listAdd_walk (hl : FreeList top lo (pre ++ previous :: current :: rest))
    (hlo : previous.base ≤ node) (hhi : node < current.base) {head : Span} {rest₀ : List Span}
    (hh : pre ++ previous :: current :: rest = head :: rest₀) :
    walk (fun c => decide (c.base ≤ node)) head rest₀ = (pre, previous, current :: rest) := by
  refine walk_of_split hh.symm (fun s hs => ?_) fun c t hc => ?_
  · have := hl.base_le_of_mem (List.mem_of_mem_tail hs)
    simp only [decide_eq_true_eq]
    omega
  · obtain ⟨rfl, -⟩ := List.cons.inj hc
    simp only [decide_eq_false_iff_not, not_le]
    exact hhi

end Between

/-- `list_add` rejects a block that shares no address with the free list, when the block ends
exactly where a node `current` starts and the node before `current` ends strictly before the
block: case 6 needs a gap after the block, and case 7 compares `current` with the pointer sum,
which lies past it. -/
theorem listAdd_rejects_touching {top node size : Nat} {pre rest : List Span}
    {previous current : Span} (htop : top < 2 ^ 64)
    (hl : FreeList top 0 (pre ++ previous :: current :: rest))
    (hgap : previous.base + previous.size < node) (htouch : node + size = current.base)
    (hpos : 0 < size) :
    (∀ a, a ∈ (⟨node, size⟩ : Span) → ¬ Covers (pre ++ previous :: current :: rest) a) ∧
      listAdd (pre ++ previous :: current :: rest) node size = .error .allocatorRangeOverlapping := by
  refine ⟨hl.not_covers_of_between hgap.le htouch.le, ?_⟩
  have hct : current.base + current.size ≤ top := (hl.nodes current (by simp)).2.2
  obtain ⟨head, rest₀, hh⟩ : ∃ head rest₀, pre ++ previous :: current :: rest = head :: rest₀ :=
    List.exists_cons_of_ne_nil (by simp)
  -- the head is `previous` or a node before it, so it starts before the block
  have hhb : head.base ≤ previous.base := hl.base_le_of_mem (by cases pre <;> simp_all)
  have hwalk : walk (fun c => decide (c.base ≤ node)) head rest₀ = (pre, previous, current :: rest) :=
    hl.listAdd_walk (by omega) (by omega) hh
  have hns : add 64 node size = node + size := add_of_lt (by omega)
  have hpp : add 64 previous.base previous.size = previous.base + previous.size :=
    add_of_lt (by omega)
  rw [hh]
  simp only [listAdd, hns]
  rw [if_neg (by omega), if_neg (by omega), hwalk]
  simp only [hpp]
  -- cases 4 and 5 need `previous` to end at the block; case 6 a gap after it; case 7 the
  -- pointer sum at `current`
  rw [if_neg (by omega), if_pos hgap, if_neg (by omega),
    if_neg (htouch ▸ add_nodeHeaderSize_mul_ne (by omega) hpos)]

/-- A 128-byte block at 128 between the nodes `[64, 96)` and `[256, 288)`: it is aligned, shares
no byte with either node and ends where the second starts, and `list_add` reports it as
overlapping. -/
theorem listAdd_rejects_touching_block :
    FreeList 1024 0 [⟨64, 32⟩, ⟨256, 32⟩] ∧
      (∀ a, a ∈ (⟨128, 128⟩ : Span) → ¬ Covers [⟨64, 32⟩, ⟨256, 32⟩] a) ∧
      listAdd [⟨64, 32⟩, ⟨256, 32⟩] 128 128 = .error .allocatorRangeOverlapping := by
  have hl : FreeList 1024 0 ([] ++ ⟨64, 32⟩ :: ⟨256, 32⟩ :: []) :=
    ⟨by simp, by simp⟩
  exact ⟨hl, listAdd_rejects_touching (by decide) hl (by decide) (by decide) (by decide)⟩

end Gunyah.AllocatorList

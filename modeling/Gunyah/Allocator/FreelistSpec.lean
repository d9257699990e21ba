import Gunyah.Allocator.Freelist

set_option autoImplicit false

/-!
# What the free-list operations do

For a free list in order (`FreeList`), this module states what each operation of `freelist.c`
does to the set of free addresses and proves it on the model: `list_add` adds its block
(`listAdd_ok`), `allocate_block` removes an aligned block carved out of one node
(`allocateBlock_ok`) and `deallocate_block` adds its block back (`deallocateBlock_ok`). Each keeps
the list in order, separated by gaps, and made of aligned nodes.

The hypotheses are what the callers provide. The block given back or added is disjoint from the
free memory, and every node ends at or below a bound `top`, low enough that no address the
operation computes wraps around.
-/

namespace Gunyah.AllocatorList

open FixedWidth Span

/-- A free-list node as the allocator keeps it: start and size multiples of `NODE_HEADER_SIZE`,
and the node ending at or below `top`. -/
def NodeOk (top : Nat) (s : Span) : Prop :=
  s.base % nodeHeaderSize = 0 ∧ s.size % nodeHeaderSize = 0 ∧ s.base + s.size ≤ top

@[simp] theorem nodeOk_mk {top a n : Nat} :
    NodeOk top ⟨a, n⟩ ↔ a % 16 = 0 ∧ n % 16 = 0 ∧ a + n ≤ top :=
  Iff.rfl

/-- Two adjacent nodes joined are a node. -/
theorem NodeOk.join {top : Nat} {s t : Span} (hs : NodeOk top s) (ht : NodeOk top t)
    (h : s.base + s.size = t.base) : NodeOk top ⟨s.base, s.size + t.size⟩ := by
  obtain ⟨hsa, hss, -⟩ := hs
  obtain ⟨-, hts, htt⟩ := ht
  simp only [nodeHeaderSize] at hsa hss hts
  simp only [nodeOk_mk]
  omega

/-- The free-list invariant: the nodes are in address order with a gap after each, the first at or
above `lo`, and each is a well-formed node. -/
structure FreeList (top lo : Nat) (l : List Span) : Prop where
  gapped : Gapped lo l
  nodes : ∀ s ∈ l, NodeOk top s

section FreeList

variable {top lo lo' : Nat} {s : Span} {l pre old : List Span}

theorem FreeList.nil : FreeList top lo [] := ⟨trivial, fun _ h => by cases h⟩

/-- The list after a node is a free list above that node. -/
theorem FreeList.tail (h : FreeList top lo (s :: l)) : FreeList top (s.base + s.size + 1) l :=
  ⟨h.gapped.2.2, fun t ht => h.nodes t (List.mem_cons_of_mem s ht)⟩

/-- A free list starts above any bound below its first node. -/
theorem FreeList.lower (h : FreeList top lo (s :: l)) (hle : lo' ≤ s.base) :
    FreeList top lo' (s :: l) :=
  ⟨⟨hle, h.gapped.2⟩, h.nodes⟩

theorem FreeList.head (h : FreeList top lo (s :: l)) :
    lo ≤ s.base ∧ 0 < s.size ∧ NodeOk top s :=
  ⟨h.gapped.1, h.gapped.2.1, h.nodes s List.mem_cons_self⟩

/-- A nonempty block that shares no address with a free list lies before or after each node. -/
theorem FreeList.separated {b t : Span} (h : FreeList top lo l)
    (hd : ∀ a, a ∈ b → ¬ Covers l a) (hpos : 0 < b.size) (ht : t ∈ l) :
    b.base + b.size ≤ t.base ∨ t.base + t.size ≤ b.base :=
  Disjoint.le_or_le (fun a ha hat => hd a ha ⟨t, ht, hat⟩) hpos (h.gapped.of_mem ht).2

/-- Such a block, starting at or before a node, ends at or before it. -/
theorem FreeList.end_le {b t : Span} (h : FreeList top lo l) (hd : ∀ a, a ∈ b → ¬ Covers l a)
    (hpos : 0 < b.size) (ht : t ∈ l) (hle : b.base ≤ t.base) : b.base + b.size ≤ t.base := by
  have := h.separated hd hpos ht
  have := (h.gapped.of_mem ht).2
  omega

/-- Such a block, starting at or after a node, starts at or after its end. -/
theorem FreeList.le_base {b t : Span} (h : FreeList top lo l) (hd : ∀ a, a ∈ b → ¬ Covers l a)
    (hpos : 0 < b.size) (ht : t ∈ l) (hle : t.base ≤ b.base) : t.base + t.size ≤ b.base := by
  have := h.separated hd hpos ht
  omega

/-- Every address a free list covers lies below `top`. -/
theorem FreeList.lt_top {a : Nat} (h : FreeList top lo l) (ha : Covers l a) : a < top := by
  obtain ⟨t, ht, hat⟩ := ha
  have := (h.nodes t ht).2.2
  simp only [mem_iff] at hat
  omega

/-- The nodes of a free list are pairwise disjoint. -/
theorem FreeList.pairwise_disjoint (h : FreeList top lo l) : l.Pairwise Disjoint :=
  h.gapped.pairwise.imp fun hlt a has hat => by
    simp only [mem_iff] at has hat
    omega

/-- The part of a free list after `pre` is a free list above `pre`. -/
theorem FreeList.drop (h : FreeList top lo (pre ++ old)) : FreeList top (after lo pre) old :=
  ⟨(gapped_append.1 h.gapped).2, fun t ht => h.nodes t (List.mem_append_right pre ht)⟩

end FreeList

/-! ## Adding a block -/

/-- `new` is `old` with the block `b` added: the nodes are in order above `lo`, each is well
formed, and together they cover what `old` covers and `b`. This is what `list_add` and
`deallocate_block` do to the list. -/
structure AddsBlock (top lo : Nat) (b : Span) (old new : List Span) : Prop where
  gapped : Gapped lo new
  nodes : ∀ s ∈ new, NodeOk top s
  covers : ∀ a, Covers new a ↔ Covers old a ∨ a ∈ b

section AddsBlock

variable {top lo lo' : Nat} {b s t : Span} {l pre old new : List Span}

theorem AddsBlock.freeList (h : AddsBlock top lo b old new) : FreeList top lo new :=
  ⟨h.gapped, h.nodes⟩

/-- Adding a block after `pre` adds it to the whole list. The list operations edit the list after
the nodes their loop passed; this lifts what they do there to the list. -/
theorem FreeList.addsBlock (h : FreeList top lo (pre ++ old))
    (ha : AddsBlock top (after lo pre) b old new) : AddsBlock top lo b (pre ++ old) (pre ++ new) where
  gapped := gapped_append.2 ⟨(gapped_append.1 h.gapped).1, ha.gapped⟩
  nodes t ht := (List.mem_append.1 ht).elim (fun ht => h.nodes t (List.mem_append_left old ht))
    (ha.nodes t)
  covers a := by
    simp only [covers_append, ha.covers]
    tauto

/-- A node kept in front of the place where the block goes. -/
theorem AddsBlock.cons (h : AddsBlock top (s.base + s.size + 1) b old new) (hlo : lo ≤ s.base)
    (hpos : 0 < s.size) (hs : NodeOk top s) : AddsBlock top lo b (s :: old) (s :: new) where
  gapped := ⟨hlo, hpos, h.gapped⟩
  nodes t ht := (List.mem_cons.1 ht).elim (fun e => e ▸ hs) (h.nodes t)
  covers a := by
    simp only [covers_cons, h.covers]
    tauto

/-- The block becomes a node of its own in front of `old`. -/
theorem addsBlock_insert (hb : NodeOk top b) (hpos : 0 < b.size) (hlo : lo ≤ b.base)
    (hl : FreeList top (b.base + b.size + 1) old) : AddsBlock top lo b old (b :: old) where
  gapped := ⟨hlo, hpos, hl.gapped⟩
  nodes t ht := (List.mem_cons.1 ht).elim (fun e => e ▸ hb) (hl.nodes t)
  covers a := by
    simp only [covers_cons]
    tauto

/-- The block ends where the node `t` starts, and is merged into it. -/
theorem addsBlock_joinNext (hb : NodeOk top b) (hlo : lo ≤ b.base)
    (h : b.base + b.size = t.base) (hl : FreeList top lo' (t :: l)) :
    AddsBlock top lo b (t :: l) (⟨b.base, b.size + t.size⟩ :: l) := by
  obtain ⟨-, htpos, ht⟩ := hl.head
  have hrest := hl.tail
  have e : b.base + (b.size + t.size) + 1 = t.base + t.size + 1 := by omega
  refine ⟨⟨hlo, Nat.lt_add_left _ htpos, ?_⟩, fun u hu => ?_, fun a => ?_⟩
  · rw [e]
    exact hrest.gapped
  · rcases List.mem_cons.1 hu with rfl | hu
    · exact hb.join ht h
    · exact hrest.nodes u hu
  · simp only [covers_cons, mem_join h]
    tauto

/-- The block starts where the node `s` ends, and is merged into it. -/
theorem addsBlock_joinPrevious (hs : NodeOk top s) (hlo : lo ≤ s.base) (hpos : 0 < b.size)
    (h : s.base + s.size = b.base) (hb : NodeOk top b)
    (hl : FreeList top (b.base + b.size + 1) l) :
    AddsBlock top lo b (s :: l) (⟨s.base, s.size + b.size⟩ :: l) := by
  have e : s.base + (s.size + b.size) + 1 = b.base + b.size + 1 := by omega
  refine ⟨⟨hlo, Nat.lt_add_left _ hpos, ?_⟩, fun u hu => ?_, fun a => ?_⟩
  · rw [e]
    exact hl.gapped
  · rcases List.mem_cons.1 hu with rfl | hu
    · exact hs.join hb h
    · exact hl.nodes u hu
  · simp only [covers_cons, mem_join h]
    tauto

/-- The block fills the gap between the nodes `s` and `t`, and the three are merged. -/
theorem addsBlock_joinBoth (hs : NodeOk top s) (hlo : lo ≤ s.base) (hb : NodeOk top b)
    (h₁ : s.base + s.size = b.base) (h₂ : b.base + b.size = t.base)
    (hl : FreeList top lo' (t :: l)) :
    AddsBlock top lo b (s :: t :: l) (⟨s.base, s.size + (b.size + t.size)⟩ :: l) := by
  have hnext := addsBlock_joinNext hb (Nat.le_refl _) h₂ hl
  obtain ⟨-, htpos, ht⟩ := hl.head
  have e : s.base + (s.size + (b.size + t.size)) + 1 = t.base + t.size + 1 := by omega
  refine ⟨⟨hlo, by dsimp only; omega, ?_⟩, fun u hu => ?_, fun a => ?_⟩
  · rw [e]
    exact hl.tail.gapped
  · rcases List.mem_cons.1 hu with rfl | hu
    · exact hs.join (hb.join ht h₂) h₁
    · exact hl.tail.nodes u hu
  · have hj := mem_join (s := s) (t := ⟨b.base, b.size + t.size⟩) (a := a) h₁
    simp only [covers_cons, hj, mem_join h₂]
    tauto

end AddsBlock

/-- What the loop of `walk` leaves: the list is cut into the nodes passed, `previous` and the rest;
`previous` is the head or a node the loop moved onto, and the node after it stopped the loop. -/
theorem walk_eq {go : Span → Bool} {head previous : Span} {rest passed tail : List Span}
    (h : walk go head rest = (passed, previous, tail)) :
    head :: rest = passed ++ previous :: tail ∧ (passed = [] ∨ go previous = true) ∧
      ∀ c t, tail = c :: t → go c = false := by
  induction rest generalizing head passed with
  | nil =>
      simp only [walk, Prod.mk.injEq] at h
      obtain ⟨rfl, rfl, rfl⟩ := h
      exact ⟨rfl, .inl rfl, fun c t ht => by cases ht⟩
  | cons current rest ih =>
      by_cases hgo : go current = true
      · generalize hr : walk go current rest = r at h
        obtain ⟨passed', previous', tail'⟩ := r
        simp only [walk, hgo, if_true, hr, Prod.mk.injEq] at h
        obtain ⟨rfl, rfl, rfl⟩ := h
        obtain ⟨hsplit, hprev, htail⟩ := ih hr
        refine ⟨by rw [hsplit]; rfl, .inr ?_, htail⟩
        rcases hprev with hnil | hprev
        · subst hnil
          have e : current = previous' := (List.cons.inj hsplit).1
          exact e ▸ hgo
        · exact hprev
      · simp only [walk, hgo, Bool.false_eq_true, if_false, Prod.mk.injEq] at h
        obtain ⟨rfl, rfl, rfl⟩ := h
        refine ⟨rfl, .inl rfl, fun c t ht => ?_⟩
        obtain ⟨rfl, -⟩ := List.cons.inj ht
        simpa using hgo

/-- The walk on a list cut as `pre ++ previous :: tail` stops at `previous` when it moves on at
every node after the head up to `previous` and stops at the node after it. -/
theorem walk_of_split {go : Span → Bool} {head previous : Span} {rest pre tail : List Span}
    (h : head :: rest = pre ++ previous :: tail) (hgo : ∀ s ∈ (pre ++ [previous]).tail, go s = true)
    (hstop : ∀ c t, tail = c :: t → go c = false) : walk go head rest = (pre, previous, tail) := by
  -- Induction on the nodes passed: each is followed by a node the walk moves onto.
  induction pre generalizing head rest with
  | nil =>
      obtain ⟨rfl, rfl⟩ := List.cons.inj h
      cases rest with
      | nil => rfl
      | cons c t => simp [walk, hstop c t rfl]
  | cons p pre ih =>
      obtain ⟨rfl, rfl⟩ := List.cons.inj h
      obtain ⟨n, ns, hn⟩ : ∃ n ns, pre ++ previous :: tail = n :: ns := by
        cases pre with
        | nil => exact ⟨previous, tail, rfl⟩
        | cons q pre => exact ⟨q, pre ++ previous :: tail, rfl⟩
      have hn_go : go n = true := by
        apply hgo
        cases pre with
        | nil =>
            obtain ⟨rfl, -⟩ := List.cons.inj hn
            simp
        | cons q pre =>
            obtain ⟨rfl, -⟩ := List.cons.inj hn
            simp
      have hrest : walk go n ns = (pre, previous, tail) :=
        ih hn.symm (fun s hs => hgo s (List.mem_of_mem_tail (by simpa using hs)))
      show walk go head (pre ++ previous :: tail) = _
      rw [hn, walk, if_pos hn_go, hrest]

/-! ## `list_add` -/

/-- What `list_add` needs of the block it inserts: an aligned nonempty node below `top`, for
which the pointer arithmetic `node + size` of cases 4 and 7 does not wrap. -/
structure BlockOk (top node size : Nat) : Prop where
  ok : NodeOk top ⟨node, size⟩
  pos : 0 < size
  ptr : node + nodeHeaderSize * size < 2 ^ 64

/-- `list_add` of a block disjoint from the free memory adds it to the free list. -/
theorem listAdd_ok {top : Nat} {heap heap' : List Span} {node size : Nat} (htop : top < 2 ^ 64)
    (hl : FreeList top 0 heap) (hb : BlockOk top node size)
    (hd : ∀ a, a ∈ (⟨node, size⟩ : Span) → ¬ Covers heap a)
    (h : listAdd heap node size = .ok heap') : AddsBlock top 0 ⟨node, size⟩ heap heap' := by
  obtain ⟨hnode, hpos, hptr⟩ := hb
  have hnt : node + size ≤ top := hnode.2.2
  have hns : add 64 node size = node + size := add_of_lt (by omega)
  cases heap with
  | nil =>
      -- 1. List empty
      simp only [listAdd, Except.ok.injEq] at h
      subst h
      exact addsBlock_insert hnode hpos (Nat.zero_le _) FreeList.nil
  | cons head rest =>
      have hht : head.base + head.size ≤ top := hl.head.2.2.2.2
      simp only [listAdd, hns] at h
      by_cases h1 : node + size < head.base
      · -- 2. Prepend to head
        simp only [if_pos h1, Except.ok.injEq] at h
        subst h
        exact addsBlock_insert hnode hpos (Nat.zero_le _) (hl.lower h1)
      by_cases h2 : node + size = head.base
      · -- 3. Merge with head
        have hsz : add 64 size head.size = size + head.size := add_of_lt (by omega)
        simp only [if_neg h1, if_pos h2, hsz, Except.ok.injEq] at h
        subst h
        exact addsBlock_joinNext hnode (Nat.zero_le _) h2 hl
      -- Otherwise the walk stops at the last node starting at or before the block.
      simp only [if_neg h1, if_neg h2] at h
      generalize hr : walk (fun current => decide (current.base ≤ node)) head rest = r at h
      obtain ⟨passed, previous, tail⟩ := r
      dsimp only at h
      obtain ⟨hsplit, -, hstop⟩ := walk_eq hr
      rw [hsplit] at hl hd
      rw [hsplit]
      have hold := hl.drop
      obtain ⟨hlo, hppos, hprev⟩ := hold.head
      have hpt : previous.base + previous.size ≤ top := hprev.2.2
      have hpp : add 64 previous.base previous.size = previous.base + previous.size :=
        add_of_lt (by omega)
      have h16 : add 64 node (nodeHeaderSize * size) = node + 16 * size := add_of_lt hptr
      simp only [hpp, h16] at h
      cases tail with
      | cons current rest' =>
          have hnext := hold.tail
          have hct : current.base + current.size ≤ top := hnext.head.2.2.2.2
          have hlt : node < current.base := by simpa using hstop current rest' rfl
          by_cases h4 : previous.base + previous.size = node
          · simp only [if_pos h4] at h
            by_cases h5 : node + 16 * size < current.base
            · -- 4. Merge with previous
              have hsz : add 64 previous.size size = previous.size + size := add_of_lt (by omega)
              simp only [if_pos h5, hsz, Except.ok.injEq] at h
              subst h
              exact hl.addsBlock (addsBlock_joinPrevious hprev hlo hpos h4 hnode (hnext.lower (by dsimp only; omega)))
            by_cases h6 : node + size = current.base
            · -- 5. Merge with previous & current
              have hsz : add 64 size current.size = size + current.size := add_of_lt (by omega)
              have hsz' : add 64 previous.size (size + current.size) =
                  previous.size + (size + current.size) := add_of_lt (by omega)
              simp only [if_neg h5, if_pos h6, hsz, hsz', Except.ok.injEq] at h
              subst h
              exact hl.addsBlock (addsBlock_joinBoth hprev hlo hnode h4 h6 hnext)
            simp only [if_neg h5, if_neg h6, reduceCtorEq] at h
          by_cases h7 : previous.base + previous.size < node
          · simp only [if_neg h4, if_pos h7] at h
            by_cases h8 : node + size < current.base
            · -- 6. Add between previous & current
              simp only [if_pos h8, Except.ok.injEq] at h
              subst h
              exact hl.addsBlock ((addsBlock_insert hnode hpos h7 (hnext.lower h8)).cons hlo hppos hprev)
            by_cases h9 : node + 16 * size = current.base
            · -- 7. Merge with current: never reached. The block is disjoint from `current`, so
              -- it ends exactly where `current` starts, and then `node + 16 * size` is past it.
              exfalso
              have hend := hl.end_le hd hpos (t := current) (by simp) (by dsimp only; omega)
              dsimp only at hend
              omega
            simp only [if_neg h8, if_neg h9, reduceCtorEq] at h
          simp only [if_neg h4, if_neg h7, reduceCtorEq] at h
      | nil =>
          by_cases h8 : previous.base + previous.size = node
          · -- 8. Merge with previous
            have hsz : add 64 previous.size size = previous.size + size := add_of_lt (by omega)
            simp only [if_pos h8, hsz, Except.ok.injEq] at h
            subst h
            exact hl.addsBlock (addsBlock_joinPrevious hprev hlo hpos h8 hnode FreeList.nil)
          by_cases h9 : previous.base + previous.size < node
          · -- 9. Append node to list
            simp only [if_neg h8, if_pos h9, Except.ok.injEq] at h
            subst h
            exact hl.addsBlock ((addsBlock_insert hnode hpos h9 FreeList.nil).cons hlo hppos hprev)
          simp only [if_neg h8, if_neg h9, reduceCtorEq] at h

/-! ## Taking a block out -/

/-- `new` is `old` with the block `b` taken out: the nodes are in order above `lo`, each is well
formed, `old` covered all of `b`, and `new` covers what `old` covers outside `b`. This is what
`allocate_block` does to the list. -/
structure RemovesBlock (top lo : Nat) (b : Span) (old new : List Span) : Prop where
  gapped : Gapped lo new
  nodes : ∀ s ∈ new, NodeOk top s
  within : ∀ a, a ∈ b → Covers old a
  covers : ∀ a, Covers new a ↔ Covers old a ∧ a ∉ b

/-- What is left of the node `s` once the block `[p, p + n)` inside it is taken: the part before
the block and the part after it, each if it is not empty. -/
def carve (s : Span) (p n : Nat) : List Span :=
  (if s.base < p then [⟨s.base, p - s.base⟩] else []) ++
    (if p + n < s.base + s.size then [⟨p + n, s.base + s.size - (p + n)⟩] else [])

section RemovesBlock

variable {top lo : Nat} {b s : Span} {old new rest : List Span}

theorem RemovesBlock.freeList (h : RemovesBlock top lo b old new) : FreeList top lo new :=
  ⟨h.gapped, h.nodes⟩

/-- A nonempty block taken out of a free list ends at or below `top`. -/
theorem RemovesBlock.end_le {lo' : Nat} (h : RemovesBlock top lo b old new)
    (hl : FreeList top lo' old) (hpos : 0 < b.size) : b.base + b.size ≤ top := by
  have := hl.lt_top (h.within (b.base + b.size - 1) (by simp only [mem_iff]; omega))
  omega

/-- A node kept in front of the one the block is taken from. -/
theorem RemovesBlock.cons (hl : FreeList top lo (s :: old))
    (h : RemovesBlock top (s.base + s.size + 1) b old new) :
    RemovesBlock top lo b (s :: old) (s :: new) where
  gapped := ⟨hl.head.1, hl.head.2.1, h.gapped⟩
  nodes t ht := (List.mem_cons.1 ht).elim (fun e => e ▸ hl.head.2.2) (h.nodes t)
  within a ha := covers_cons.2 (.inr (h.within a ha))
  covers a := by
    -- `s` lies below every address of `old`, and so below the block.
    have hs : a ∈ s → a ∉ b := fun has hab => by
      have := hl.tail.gapped.le_of_covers (h.within a hab)
      simp only [mem_iff] at has
      omega
    simp only [covers_cons, h.covers]
    tauto

/-- Taking an aligned block out of a node leaves the pieces around it as nodes. -/
theorem removesBlock_carve {p n : Nat} (hl : FreeList top lo (s :: rest)) (hp : s.base ≤ p)
    (hpn : p + n ≤ s.base + s.size) (hn : 0 < n) (hp16 : p % 16 = 0) (hn16 : n % 16 = 0) :
    RemovesBlock top lo ⟨p, n⟩ (s :: rest) (carve s p n ++ rest) := by
  obtain ⟨hlo, -, hsa, hss, hst⟩ := hl.head
  have hrest := hl.tail
  simp only [nodeHeaderSize] at hsa hss
  have habove : ∀ a, Covers rest a → s.base + s.size + 1 ≤ a :=
    fun a ha => hrest.gapped.le_of_covers ha
  refine ⟨?_, fun t ht => ?_, fun a ha => ?_, fun a => ?_⟩
  · -- Each piece is nonempty, and a gap of at least the block separates the two.
    unfold carve
    split_ifs with h1 h2 h2 <;>
      simp only [List.cons_append, List.nil_append, gapped_cons]
    · exact ⟨hlo, by omega, by omega, by omega, hrest.gapped.mono (by omega)⟩
    · exact ⟨hlo, by omega, hrest.gapped.mono (by omega)⟩
    · exact ⟨by omega, by omega, hrest.gapped.mono (by omega)⟩
    · exact hrest.gapped.mono (by omega)
  · rcases List.mem_append.1 ht with ht | ht
    · unfold carve at ht
      split_ifs at ht <;>
        simp only [List.mem_append, List.mem_singleton, List.not_mem_nil, or_false,
          false_or] at ht <;>
        rcases ht with rfl | rfl <;> simp only [nodeOk_mk] <;> omega
    · exact hrest.nodes t ht
  · simp only [mem_iff] at ha
    exact covers_cons.2 (.inl (by simp only [mem_iff]; omega))
  · -- The rest of the list lies above the node, so only the pieces meet the block.
    unfold carve
    by_cases hc : Covers rest a
    · have := habove a hc
      split_ifs <;> simp only [covers_append, covers_cons, hc, mem_iff, not_covers_nil,
        or_true, true_and, true_iff] <;> omega
    · split_ifs <;> simp only [covers_append, covers_cons, hc, mem_iff, not_covers_nil,
        or_false, false_or, false_iff] <;> omega

end RemovesBlock

/-! ## `allocate_from_node` and `allocate_block` -/

/-- `allocate_from_node` succeeds with the first aligned address at or after the start of the
node, when the block fits in the node, and replaces the node by what is left around the block. -/
theorem allocateFromNode_eq {current : Span} {n al p : Nat} {nodes : List Span}
    (hend : current.base + current.size < 2 ^ 64) (hal : 0 < al)
    (hwrap : current.base + (al - 1) < 2 ^ 64) (hn : n < 2 ^ 64)
    (h : allocateFromNode current n al = .ok (p, nodes)) :
    p % al = 0 ∧ current.base ≤ p ∧ p + n ≤ current.base + current.size ∧
      nodes = carve current p n := by
  have hq := le_alignUp hal hwrap
  have hqm := alignUp_mod (w := 64) current.base al
  have he : add 64 current.base current.size = current.base + current.size := add_of_lt hend
  simp only [allocateFromNode, he] at h
  generalize alignUp 64 current.base al = q at h hq hqm
  by_cases ho : addOverflows 64 q n = true
  · simp only [ho, if_true, reduceCtorEq] at h
  have hqn : q + n < 2 ^ 64 := (addOverflows_eq_false_iff hn).1 (by simpa using ho)
  simp only [ho, add_of_lt hqn, Bool.false_eq_true, if_false] at h
  by_cases hfit : q + n > current.base + current.size ∨ q > current.base + current.size
  · simp only [if_pos hfit, reduceCtorEq] at h
  simp only [if_neg hfit] at h
  have hsub : sub 64 current.size n = current.size - n := sub_of_le (by omega) (by omega)
  by_cases h1 : current.base + current.size = q + n
  · simp only [if_pos h1] at h
    by_cases h2 : current.base = q
    · -- 1. Allocate from entire node
      simp only [if_pos h2, Except.ok.injEq, Prod.mk.injEq] at h
      obtain ⟨rfl, rfl⟩ := h
      refine ⟨hqm, hq, by omega, ?_⟩
      rw [carve, if_neg (by omega), if_neg (by omega)]
      rfl
    · -- 2. Allocate from end of node
      simp only [if_neg h2, hsub, Except.ok.injEq, Prod.mk.injEq] at h
      obtain ⟨rfl, rfl⟩ := h
      refine ⟨hqm, hq, by omega, ?_⟩
      rw [carve, if_pos (by omega), if_neg (by omega)]
      simp only [List.append_nil, List.cons.injEq, Span.mk.injEq, and_true, true_and]
      omega
  · simp only [if_neg h1] at h
    by_cases h2 : current.base = q
    · -- 3. Allocate from start of node
      simp only [if_pos h2, hsub, Except.ok.injEq, Prod.mk.injEq] at h
      obtain ⟨rfl, rfl⟩ := h
      refine ⟨hqm, hq, by omega, ?_⟩
      rw [carve, if_neg (by omega), if_pos (by omega)]
      simp only [List.nil_append, List.cons.injEq, Span.mk.injEq, and_true, true_and]
      omega
    · -- 4. Allocate from middle of node
      have hs1 : sub 64 q current.base = q - current.base := sub_of_le hq (by omega)
      have hs2 : sub 64 (current.base + current.size) (q + n) =
          current.base + current.size - (q + n) := sub_of_le (by omega) hend
      simp only [if_neg h2, hs1, hs2, Except.ok.injEq, Prod.mk.injEq] at h
      obtain ⟨rfl, rfl⟩ := h
      refine ⟨hqm, hq, by omega, ?_⟩
      rw [carve, if_pos (by omega), if_pos (by omega)]
      rfl

/-- What `allocate_block` asserts of a request, once `allocator_allocate_object` has rounded it: a
nonzero size that is a multiple of `NODE_HEADER_SIZE`, and an alignment that is one too. -/
structure Request (size alignment : Nat) : Prop where
  size_pos : 0 < size
  size_lt : size < 2 ^ 64
  size_mod : size % nodeHeaderSize = 0
  align_pos : 0 < alignment
  align_mod : alignment % nodeHeaderSize = 0

section Allocate

variable {top lo n al p : Nat} {heap heap' : List Span}

/-- `allocate_from_node` on a node of a free list takes an aligned block out of the list. The
bound `top + al ≤ 2 ^ 64` keeps the rounding up of the node's start from wrapping around. -/
theorem allocateFromNode_ok {current : Span} {rest nodes : List Span} (hwrap : top + al ≤ 2 ^ 64)
    (hr : Request n al) (hl : FreeList top lo (current :: rest))
    (h : allocateFromNode current n al = .ok (p, nodes)) :
    p % al = 0 ∧ RemovesBlock top lo ⟨p, n⟩ (current :: rest) (nodes ++ rest) := by
  obtain ⟨-, hpos, ⟨-, -, hct⟩⟩ := hl.head
  have hal := hr.align_pos
  obtain ⟨hp, hle, hpn, rfl⟩ :=
    allocateFromNode_eq (by omega) hal (by omega) hr.size_lt h
  have hp16 : p % 16 = 0 := Nat.mod_eq_zero_of_dvd (Nat.dvd_trans
    (Nat.dvd_of_mod_eq_zero hr.align_mod) (Nat.dvd_of_mod_eq_zero hp))
  exact ⟨hp, removesBlock_carve hl hle hpn hr.size_pos hp16 hr.size_mod⟩

/-- `allocate_block`, first fit, takes an aligned block out of a free list. -/
theorem allocateBlock_ok (hwrap : top + al ≤ 2 ^ 64) (hr : Request n al)
    (hl : FreeList top lo heap) (h : allocateBlock heap n al = .ok (p, heap')) :
    p % al = 0 ∧ RemovesBlock top lo ⟨p, n⟩ heap heap' := by
  -- Induction on the list: a node that cannot hold the block stays in front of the result.
  induction heap generalizing lo heap' with
  | nil => simp [allocateBlock] at h
  | cons current rest ih =>
      simp only [allocateBlock] at h
      cases hf : allocateFromNode current n al with
      | ok r =>
          obtain ⟨q, nodes⟩ := r
          simp only [hf, Except.ok.injEq, Prod.mk.injEq] at h
          obtain ⟨rfl, rfl⟩ := h
          exact allocateFromNode_ok hwrap hr hl hf
      | error e =>
          cases hb : allocateBlock rest n al with
          | ok r =>
              obtain ⟨q, heap''⟩ := r
              simp only [hf, hb, Except.ok.injEq, Prod.mk.injEq] at h
              obtain ⟨rfl, rfl⟩ := h
              obtain ⟨hp, hrem⟩ := ih hl.tail hb
              exact ⟨hp, hrem.cons hl⟩
          | error e' => simp [hf, hb] at h

end Allocate

/-! ## `deallocate_block` -/

/-- `deallocate_block` of a block disjoint from the free memory adds it back to the free list. -/
theorem deallocateBlock_ok {top : Nat} {heap : List Span} {object size : Nat}
    (htop : top < 2 ^ 64) (hl : FreeList top 0 heap) (hb : NodeOk top ⟨object, size⟩)
    (hpos : 0 < size) (hd : ∀ a, a ∈ (⟨object, size⟩ : Span) → ¬ Covers heap a) :
    AddsBlock top 0 ⟨object, size⟩ heap (deallocateBlock heap object size) := by
  have hot : object + size ≤ top := hb.2.2
  cases heap with
  | nil => exact addsBlock_insert hb hpos (Nat.zero_le _) FreeList.nil
  | cons head rest =>
      simp only [deallocateBlock]
      generalize hr : walk (fun next => decide (next.base < object)) head rest = r
      obtain ⟨passed, previous, tail⟩ := r
      dsimp only
      obtain ⟨hsplit, hgo, hstop⟩ := walk_eq hr
      rw [hsplit] at hl hd
      rw [hsplit]
      have hold := hl.drop
      obtain ⟨hlo, hppos, hprev⟩ := hold.head
      have hpt : previous.base + previous.size ≤ top := hprev.2.2
      have hpp : add 64 previous.base previous.size = previous.base + previous.size :=
        add_of_lt (by omega)
      have hos : add 64 object size = object + size := add_of_lt (by omega)
      -- The walk stopped at a node `next` at or above the block, so past its end.
      have hnext : ∀ next rest', tail = next :: rest' → object + size ≤ next.base := by
        rintro next rest' rfl
        have hon : ¬ next.base < object := by simpa using hstop next rest' rfl
        exact hl.end_le hd hpos (by simp) (by dsimp only; omega)
      simp only [hpp, hos]
      by_cases h1 : previous.base + previous.size = object
      · -- Combine the free memory into the previous node.
        have hm : add 64 previous.size size = previous.size + size := add_of_lt (by omega)
        simp only [if_pos h1, hm]
        cases tail with
        | cons next rest' =>
            have hn := hnext next rest' rfl
            have hfl := hold.tail
            have hct : next.base + next.size ≤ top := hfl.head.2.2.2.2
            have hpm : add 64 previous.base (previous.size + size) =
                previous.base + (previous.size + size) := add_of_lt (by omega)
            simp only [hpm]
            by_cases h2 : previous.base + (previous.size + size) = next.base
            · have hsz : add 64 (previous.size + size) next.size =
                  previous.size + (size + next.size) := by
                rw [add_of_lt (by omega), Nat.add_assoc]
              rw [if_pos h2, hsz]
              exact hl.addsBlock (addsBlock_joinBoth hprev hlo hb h1 (by dsimp only; omega) hfl)
            · rw [if_neg h2]
              exact hl.addsBlock (addsBlock_joinPrevious hprev hlo hpos h1 hb
                (hfl.lower (by dsimp only; omega)))
        | nil =>
            dsimp only
            exact hl.addsBlock (addsBlock_joinPrevious hprev hlo hpos h1 hb FreeList.nil)
      by_cases h2 : object < previous.base
      · -- Create node as head. The walk cannot have moved: it moves only onto nodes below the
        -- block, so `previous` is the head.
        have hpassed : passed = [] := by
          rcases hgo with hnil | hgo
          · exact hnil
          · simp only [decide_eq_true_eq] at hgo
            omega
        subst hpassed
        have hsep : object + size ≤ previous.base :=
          hl.end_le hd hpos (by simp) (by dsimp only; omega)
        simp only [if_neg h1, if_pos h2]
        by_cases h3 : object + size = previous.base
        · have hsz : add 64 size previous.size = size + previous.size := add_of_lt (by omega)
          rw [if_pos h3, hsz]
          exact addsBlock_joinNext hb (Nat.zero_le _) h3 hold
        · rw [if_neg h3]
          exact addsBlock_insert hb hpos (Nat.zero_le _) (hold.lower (by dsimp only; omega))
      · -- Create a new header in the object, after `previous`.
        have hsep : previous.base + previous.size ≤ object :=
          hl.le_base hd hpos (by simp) (by dsimp only; omega)
        have hpo : previous.base + previous.size < object := by omega
        simp only [if_neg h1, if_neg h2]
        cases tail with
        | cons next rest' =>
            have hn := hnext next rest' rfl
            have hfl := hold.tail
            have hct : next.base + next.size ≤ top := hfl.head.2.2.2.2
            dsimp only
            by_cases h3 : object + size = next.base
            · have hsz : add 64 size next.size = size + next.size := add_of_lt (by omega)
              rw [if_pos h3, hsz]
              exact hl.addsBlock ((addsBlock_joinNext hb hpo h3 hfl).cons hlo hppos hprev)
            · rw [if_neg h3]
              exact hl.addsBlock ((addsBlock_insert hb hpos hpo
                (hfl.lower (by dsimp only; omega))).cons hlo hppos hprev)
        | nil =>
            dsimp only
            exact hl.addsBlock ((addsBlock_insert hb hpos hpo FreeList.nil).cons hlo hppos hprev)

/-! ## The public operations -/

/-- The last step of `addMemoryBlock`: rounding the size down keeps the start, and leaves a size
that is already a multiple of `NODE_HEADER_SIZE` alone. -/
theorem roundSize_eq (r : Span) :
    (if r.size % nodeHeaderSize ≠ 0 then (⟨r.base, alignDown r.size nodeHeaderSize⟩ : Span)
      else r) = ⟨r.base, alignDown r.size nodeHeaderSize⟩ := by
  split_ifs with h
  · rfl
  · rw [alignDown_of_mod_eq_zero (not_not.1 h)]

/-- When the overflow check passes, the block that `allocator_heap_add_memory` adds is aligned and
lies inside the memory handed over. -/
theorem addMemoryBlock_within {addr size : Nat} {b : Span}
    (hlim : addr + size + nodeHeaderSize ≤ 2 ^ 64) (hb : addMemoryBlock addr size = b)
    (hov : addOverflows 64 b.base b.size = false) :
    addr ≤ b.base ∧ b.base + b.size ≤ addr + size ∧ b.base % 16 = 0 ∧ b.size % 16 = 0 := by
  simp only [addMemoryBlock, roundSize_eq] at hb
  subst hb
  simp only [nodeHeaderSize] at hlim hov ⊢
  by_cases hA : addr % 16 = 0
  · simp only [hA, ne_eq, not_true_eq_false, if_false, le_refl, true_and, Nat.add_le_add_iff_left]
    exact ⟨alignDown_le size 16, alignDown_mod size 16⟩
  simp only [hA, ne_eq, not_false_eq_true, if_true] at hov ⊢
  have hw : addr + (16 - 1) < 2 ^ 64 := by omega
  have hq := le_alignUp (by decide) hw
  have hq' := alignUp_le hw
  have hqm := alignUp_mod (w := 64) addr 16
  generalize alignUp 64 addr 16 = q at hov hq hq' hqm ⊢
  rw [sub_of_le hq (by omega)] at hov ⊢
  by_cases hs : q - addr ≤ size
  · rw [sub_of_le hs (by omega)]
    have := alignDown_le (size - (q - addr)) 16
    exact ⟨hq, by omega, hqm, alignDown_mod _ 16⟩
  -- The size wraps around below zero, and then the overflow check fails.
  exfalso
  have hsub : sub 64 size (q - addr) = size + (2 ^ 64 - (q - addr)) := by
    unfold sub
    rw [Nat.mod_eq_of_lt (by omega : q - addr < 2 ^ 64)]
    exact Nat.mod_eq_of_lt (by omega)
  have hlt : size + (2 ^ 64 - (q - addr)) < 2 ^ 64 := by omega
  rw [hsub] at hov
  have hov' := (addOverflows_eq_false_iff (lt_of_le_of_lt (alignDown_le _ _) hlt)).1 hov
  unfold alignDown at hov'
  omega
/-- `allocator_heap_add_memory` of memory that shares no address with the free list and lies
below `top` adds the aligned block inside it to the free list and counts it in `total_size`. -/
theorem allocatorHeapAddMemory_ok {top addr size : Nat} {a a' : Allocator} {b : Span}
    (htop : top + nodeHeaderSize ≤ 2 ^ 64) (hl : FreeList top 0 a.heap)
    (hlim : addr + size ≤ top) (hptr : addr + nodeHeaderSize * size < 2 ^ 64)
    (hd : ∀ x, x ∈ (⟨addr, size⟩ : Span) → ¬ Covers a.heap x)
    (hb : addMemoryBlock addr size = b) (h : allocatorHeapAddMemory a addr size = .ok a') :
    addr ≤ b.base ∧ b.base + b.size ≤ addr + size ∧ AddsBlock top 0 b a.heap a'.heap ∧
      a'.totalSize = add 64 a.totalSize b.size ∧ a'.allocSize = a.allocSize := by
  simp only [allocatorHeapAddMemory, hb] at h
  by_cases ho : addOverflows 64 b.base b.size = true
  · simp [ho] at h
  have ho' : addOverflows 64 b.base b.size = false := by simpa using ho
  by_cases hs : b.size < 2 * nodeHeaderSize
  · simp [ho', hs] at h
  simp only [ho', hs, Bool.false_eq_true, if_false] at h
  simp only [nodeHeaderSize] at htop hptr hs
  obtain ⟨hab, hbe, hb16, hs16⟩ := addMemoryBlock_within (by simp only [nodeHeaderSize]; omega) hb ho'
  cases hla : listAdd a.heap b.base b.size with
  | error e => simp [hla] at h
  | ok heap =>
      simp only [hla, Except.ok.injEq] at h
      subst h
      have hblock : BlockOk top b.base b.size :=
        ⟨nodeOk_mk.2 ⟨hb16, hs16, by omega⟩, by omega, by simp only [nodeHeaderSize]; omega⟩
      have hdb : ∀ x, x ∈ (⟨b.base, b.size⟩ : Span) → ¬ Covers a.heap x := fun x hx =>
        hd x (by simp only [mem_iff] at hx ⊢; omega)
      exact ⟨hab, hbe, listAdd_ok (by omega) hl hblock hdb hla, rfl, rfl⟩

/-- `allocator_allocate_object` with a nonzero size and a power-of-two alignment, as it asserts,
returns an address aligned as asked and to `NODE_HEADER_SIZE`, takes the rounded block out of the
free list and counts it in `alloc_size`. The bound on `top` keeps the rounding up of a node's start
from wrapping around for every alignment the function accepts. -/
theorem allocatorAllocateObject_ok {top size minAlignment p : Nat} {a a' : Allocator}
    (hwrap : top + maxAlignmentSize ≤ 2 ^ 64) (hl : FreeList top 0 a.heap) (hsize : 0 < size)
    (hal : IsPow2 (max minAlignment sizeAlign))
    (h : allocatorAllocateObject a size minAlignment = .ok (p, a')) :
    size ≤ maxAllocSize ∧ p % max minAlignment sizeAlign = 0 ∧ p % nodeHeaderSize = 0 ∧
      RemovesBlock top 0 ⟨p, alignUp 64 size nodeHeaderSize⟩ a.heap a'.heap ∧
      a'.allocSize = add 64 a.allocSize (alignUp 64 size nodeHeaderSize) ∧
      a'.totalSize = a.totalSize := by
  simp only [allocatorAllocateObject] at h
  by_cases he : a.heap = []
  · rw [if_pos he] at h
    cases h
  rw [if_neg he] at h
  by_cases hbig : size > maxAllocSize ∨ max minAlignment sizeAlign > maxAlignmentSize
  · rw [if_pos hbig] at h
    cases h
  rw [if_neg hbig] at h
  have h16 : IsPow2 nodeHeaderSize := ⟨4, rfl⟩
  -- The alignment handed to `allocate_block` is a multiple of both 16 and the one asked for.
  generalize hal' : (if max minAlignment sizeAlign < nodeHeaderSize then nodeHeaderSize
    else max minAlignment sizeAlign) = al at h
  have hdvd : max minAlignment sizeAlign ∣ al ∧ nodeHeaderSize ∣ al ∧ nodeHeaderSize ≤ al ∧
      al ≤ maxAlignmentSize := by
    subst hal'
    split_ifs with hlt
    · exact ⟨pow2_dvd_of_le hal h16 hlt.le, Nat.dvd_refl _, le_refl _, by decide⟩
    · exact ⟨Nat.dvd_refl _, pow2_dvd_of_le h16 hal (by omega), by omega, by omega⟩
  obtain ⟨hdal, hd16, hal16, halmax⟩ := hdvd
  have hw : size + (nodeHeaderSize - 1) < 2 ^ 64 := by
    simp only [maxAllocSize, nodeHeaderSize] at hbig ⊢
    omega
  have hr : Request (alignUp 64 size nodeHeaderSize) al :=
    { size_pos := Nat.lt_of_lt_of_le hsize (le_alignUp (by decide) hw)
      size_lt := Nat.lt_of_le_of_lt (alignUp_le hw) hw
      size_mod := alignUp_mod _ _
      align_pos := Nat.lt_of_lt_of_le (by decide) hal16
      align_mod := Nat.mod_eq_zero_of_dvd hd16 }
  cases hab : allocateBlock a.heap (alignUp 64 size nodeHeaderSize) al with
  | error e => simp [hab] at h
  | ok r =>
      obtain ⟨q, heap⟩ := r
      simp only [hab, Except.ok.injEq, Prod.mk.injEq] at h
      obtain ⟨rfl, rfl⟩ := h
      obtain ⟨hp, hrem⟩ := allocateBlock_ok (by omega) hr hl hab
      have hpal := Nat.dvd_of_mod_eq_zero hp
      exact ⟨by omega, Nat.mod_eq_zero_of_dvd (Nat.dvd_trans hdal hpal),
        Nat.mod_eq_zero_of_dvd (Nat.dvd_trans hd16 hpal), hrem, rfl, rfl⟩

@[simp] theorem allocatorDeallocateObject_heap (a : Allocator) (object size : Nat) :
    (allocatorDeallocateObject a object size).heap =
      deallocateBlock a.heap object (alignUp 64 size nodeHeaderSize) := rfl

@[simp] theorem allocatorDeallocateObject_allocSize (a : Allocator) (object size : Nat) :
    (allocatorDeallocateObject a object size).allocSize =
      sub 64 a.allocSize (alignUp 64 size nodeHeaderSize) := rfl

@[simp] theorem allocatorDeallocateObject_totalSize (a : Allocator) (object size : Nat) :
    (allocatorDeallocateObject a object size).totalSize = a.totalSize := rfl

end Gunyah.AllocatorList

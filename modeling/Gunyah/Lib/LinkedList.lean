import Mathlib.Data.List.Nodup

set_option autoImplicit false

/-!
# Doubly linked lists as sequences

An intrusive doubly linked list is seen here as the sequence of its nodes from the head. Inserting
at the head is `List.cons`, deleting a node is `List.erase`, and inserting a node right after
another is `insertAfter`. `list_insert_in_order` and `list_delete_node` also return whether the
head changed. The lemmas are the ones the invariants over such lists need: what the list holds
after an operation, that it stays free of duplicates or sorted, and what its head is.
-/

namespace LinkedList

variable {α : Type} [DecidableEq α]

/-- Insert `y` right after the first occurrence of `x`; the list is unchanged if `x` is absent. -/
def insertAfter (x y : α) : List α → List α
  | [] => []
  | a :: l => if a = x then a :: y :: l else a :: insertAfter x y l

section InsertAfter

variable {x y z : α} {l : List α}

theorem mem_insertAfter (hx : x ∈ l) : z ∈ insertAfter x y l ↔ z = y ∨ z ∈ l := by
  induction l with
  | nil => exact absurd hx List.not_mem_nil
  | cons a l ih =>
    by_cases hax : a = x
    · simp only [insertAfter, if_pos hax, List.mem_cons]
      tauto
    · have hxl : x ∈ l := (List.mem_cons.1 hx).resolve_left (Ne.symm hax)
      simp only [insertAfter, if_neg hax, List.mem_cons, ih hxl]
      tauto

theorem nodup_insertAfter (hx : x ∈ l) (hy : y ∉ l) (hl : l.Nodup) :
    (insertAfter x y l).Nodup := by
  induction l with
  | nil => exact absurd hx List.not_mem_nil
  | cons a l ih =>
    obtain ⟨hal, hl⟩ := List.nodup_cons.1 hl
    have hya : y ≠ a := fun h => hy (h ▸ List.mem_cons_self)
    have hyl : y ∉ l := fun h => hy (List.mem_cons_of_mem a h)
    by_cases hax : a = x
    · simp only [insertAfter, if_pos hax, List.nodup_cons, List.mem_cons, not_or]
      exact ⟨⟨Ne.symm hya, hal⟩, hyl, hl⟩
    · have hxl : x ∈ l := (List.mem_cons.1 hx).resolve_left (Ne.symm hax)
      simp only [insertAfter, if_neg hax, List.nodup_cons, mem_insertAfter hxl, not_or]
      exact ⟨⟨Ne.symm hya, hal⟩, ih hxl hyl hl⟩

/-- Inserting after a node never changes the head. -/
@[simp] theorem head?_insertAfter : (insertAfter x y l).head? = l.head? := by
  cases l with
  | nil => rfl
  | cons a l =>
    by_cases hax : a = x
    · simp only [insertAfter, if_pos hax, List.head?_cons]
    · simp only [insertAfter, if_neg hax, List.head?_cons]

end InsertAfter

section Erase

variable {a b : α} {l : List α}

/-- Deleting a node other than the head keeps the head. -/
theorem head?_erase_of_ne (h : l.head? = some a) (hb : b ≠ a) : (l.erase b).head? = some a := by
  obtain ⟨t, rfl⟩ := List.head?_eq_some_iff.1 h
  have hab : ¬ (a == b) = true := by simpa using Ne.symm hb
  simp only [List.erase_cons_tail hab, List.head?_cons]

end Erase

/-! ## Ordered insertion and deletion with a new-head result -/

section InOrder

variable (lt : α → α → Bool)

/-- `list_insert_in_order (list, node, compare_fn)`: `x` goes before the first node that it
compares smaller than, or at the end. The result says whether `x` is the new head. -/
def listInsertInOrder (x : α) : List α → List α × Bool
  | [] => ([x], true)
  | y :: ys => if lt x y then (x :: y :: ys, true) else (y :: (listInsertInOrder x ys).1, false)

/-- `list_delete_node (list, node)` for a node of the list: the list without it, and whether the
head was deleted from a list that is not empty afterwards. A node that is not linked in the list
gives `none`: the code then either does nothing or unlinks through stale pointers. -/
def listDeleteNode (x : α) (l : List α) : Option (List α × Bool) :=
  if x ∈ l then some (l.erase x, l.head? == some x && !(l.erase x).isEmpty) else none

variable {lt} {x z : α} {l : List α}

omit [DecidableEq α] in
theorem perm_listInsertInOrder (x : α) (l : List α) : (listInsertInOrder lt x l).1.Perm (x :: l) := by
  induction l with
  | nil => rfl
  | cons y ys ih =>
    by_cases hxy : lt x y = true
    · simp only [listInsertInOrder, if_pos hxy, List.Perm.refl]
    · simp only [listInsertInOrder, if_neg hxy]
      exact (ih.cons y).trans (List.Perm.swap x y ys)

omit [DecidableEq α] in
theorem mem_listInsertInOrder : z ∈ (listInsertInOrder lt x l).1 ↔ z = x ∨ z ∈ l := by
  rw [(perm_listInsertInOrder x l).mem_iff, List.mem_cons]

omit [DecidableEq α] in
@[simp] theorem length_listInsertInOrder (x : α) (l : List α) :
    (listInsertInOrder lt x l).1.length = l.length + 1 :=
  (perm_listInsertInOrder x l).length_eq

omit [DecidableEq α] in
/-- A new head is `x`. -/
theorem head?_listInsertInOrder_of_newHead (h : (listInsertInOrder lt x l).2 = true) :
    (listInsertInOrder lt x l).1.head? = some x := by
  cases l with
  | nil => rfl
  | cons y ys =>
    by_cases hxy : lt x y = true
    · simp only [listInsertInOrder, if_pos hxy, List.head?_cons]
    · simp only [listInsertInOrder, if_neg hxy] at h
      exact absurd h Bool.false_ne_true

omit [DecidableEq α] in
/-- Otherwise the head stays. -/
theorem head?_listInsertInOrder_of_not_newHead (h : (listInsertInOrder lt x l).2 = false) :
    (listInsertInOrder lt x l).1.head? = l.head? := by
  cases l with
  | nil => simp [listInsertInOrder] at h
  | cons y ys =>
    by_cases hxy : lt x y = true
    · simp [listInsertInOrder, if_pos hxy] at h
    · simp only [listInsertInOrder, if_neg hxy, List.head?_cons]

omit [DecidableEq α] in
/-- Inserting into a list sorted by `R` keeps it sorted, when the nodes that `x` does not
compare smaller than go before it, those it does go after it, and a node after one that `x`
compares smaller than is also one it compares smaller than. -/
theorem pairwise_listInsertInOrder {R : α → α → Prop} (hl : l.Pairwise R)
    (hbefore : ∀ y ∈ l, lt x y = false → R y x) (hafter : ∀ y ∈ l, lt x y = true → R x y)
    (hmono : ∀ y ∈ l, ∀ w ∈ l, R y w → lt x y = true → lt x w = true) :
    (listInsertInOrder lt x l).1.Pairwise R := by
  induction l with
  | nil => exact List.pairwise_singleton R x
  | cons y ys ih =>
    obtain ⟨hy, hys⟩ := List.pairwise_cons.1 hl
    by_cases hxy : lt x y = true
    · -- `x` goes first: every later node is one it compares smaller than.
      simp only [listInsertInOrder, if_pos hxy]
      refine List.pairwise_cons.2 ⟨fun w hw => ?_, hl⟩
      rcases List.mem_cons.1 hw with rfl | hw
      · exact hafter w List.mem_cons_self hxy
      · exact hafter w (List.mem_cons_of_mem y hw)
          (hmono y List.mem_cons_self w (List.mem_cons_of_mem y hw) (hy w hw) hxy)
    · simp only [listInsertInOrder, if_neg hxy]
      refine List.pairwise_cons.2 ⟨fun w hw => ?_, ?_⟩
      · rcases mem_listInsertInOrder.1 hw with rfl | hw
        · exact hbefore y List.mem_cons_self (Bool.eq_false_iff.2 hxy)
        · exact hy w hw
      · exact ih hys (fun w hw => hbefore w (List.mem_cons_of_mem y hw))
          (fun w hw => hafter w (List.mem_cons_of_mem y hw))
          (fun w hw v hv => hmono w (List.mem_cons_of_mem y hw) v (List.mem_cons_of_mem y hv))

theorem listDeleteNode_of_mem (hx : x ∈ l) :
    listDeleteNode x l = some (l.erase x, l.head? == some x && !(l.erase x).isEmpty) :=
  if_pos hx

/-- Deleting a node that is not the new-head case from a list that stays nonempty keeps the head.
-/
theorem head?_erase_of_not_newHead (hx : (l.head? == some x && !(l.erase x).isEmpty) = false)
    (hne : l.erase x ≠ []) : (l.erase x).head? = l.head? := by
  cases hl : l.head? with
  | none =>
    rw [List.head?_eq_none_iff.1 hl, List.erase_nil]
    rfl
  | some a =>
    have hxa : x ≠ a := by
      rintro rfl
      simp [hl, List.isEmpty_iff, hne] at hx
    exact head?_erase_of_ne hl hxa

end InOrder

/-! ## Sorted lists -/

section Sorted

variable {β : Type} (key : β → Nat) (now : Nat)

/-- In a list sorted by `key`, the nodes whose key is at most `now` are a prefix. -/
theorem takeWhile_eq_filter_of_pairwise :
    ∀ {l : List β}, l.Pairwise (fun a b => key a ≤ key b) →
      l.takeWhile (fun a => decide (key a ≤ now)) = l.filter (fun a => decide (key a ≤ now))
  | [], _ => rfl
  | a :: l, hl => by
    obtain ⟨ha, hl⟩ := List.pairwise_cons.1 hl
    by_cases hkey : key a ≤ now
    · simp only [List.takeWhile_cons, List.filter_cons, decide_eq_true hkey, if_true,
        takeWhile_eq_filter_of_pairwise hl]
    · -- the first node is past `now`, and so is every node after it
      have hrest : l.filter (fun a => decide (key a ≤ now)) = [] :=
        List.filter_eq_nil_iff.2 fun b hb => by
          have := ha b hb
          simp only [decide_eq_true_eq]
          omega
      simp only [List.takeWhile_cons, List.filter_cons, decide_eq_false hkey, hrest]
      rfl

/-- The rest of such a list is the nodes whose key is past `now`. -/
theorem dropWhile_eq_filter_of_pairwise :
    ∀ {l : List β}, l.Pairwise (fun a b => key a ≤ key b) →
      l.dropWhile (fun a => decide (key a ≤ now)) = l.filter (fun a => decide (now < key a))
  | [], _ => rfl
  | a :: l, hl => by
    obtain ⟨ha, hl⟩ := List.pairwise_cons.1 hl
    by_cases hkey : key a ≤ now
    · have hlt : ¬ now < key a := Nat.not_lt.2 hkey
      simp only [List.dropWhile_cons, List.filter_cons, decide_eq_true hkey, decide_eq_false hlt,
        if_true, dropWhile_eq_filter_of_pairwise hl]
      rfl
    · have hlt : now < key a := Nat.lt_of_not_le hkey
      have hrest : l.filter (fun a => decide (now < key a)) = l :=
        List.filter_eq_self.2 fun b hb => by
          have := ha b hb
          simp only [decide_eq_true_eq]
          omega
      simp only [List.dropWhile_cons, List.filter_cons, decide_eq_false hkey, decide_eq_true hlt,
        hrest]
      rfl

end Sorted

end LinkedList

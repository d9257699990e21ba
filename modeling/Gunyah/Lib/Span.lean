import Mathlib

set_option autoImplicit false

/-!
# Spans of addresses

A span is the half-open range `[base, base + size)` of natural-number addresses. Free lists and
ownership ranges are lists of spans. This module gives the vocabulary to say which addresses such
a list covers, the order invariant of a sorted list of separated spans (`Gapped`), which a list
keeps when a stretch of it is replaced (`gapped_append`), and the bound on the total size of
pairwise disjoint spans that fit below a limit (`total_le`).
-/

/-- The half-open range `[base, base + size)`. -/
structure Span where
  base : Nat
  size : Nat
deriving DecidableEq, Repr

namespace Span

instance : Membership Nat Span := ⟨fun s a => s.base ≤ a ∧ a < s.base + s.size⟩

@[simp] theorem mem_iff {a : Nat} {s : Span} : a ∈ s ↔ s.base ≤ a ∧ a < s.base + s.size :=
  Iff.rfl

instance (a : Nat) (s : Span) : Decidable (a ∈ s) :=
  inferInstanceAs (Decidable (_ ∧ _))

/-- Two spans share no address. -/
def Disjoint (s t : Span) : Prop := ∀ a, a ∈ s → a ∉ t

/-- Some span of the list contains `a`. -/
def Covers (l : List Span) (a : Nat) : Prop := ∃ s ∈ l, a ∈ s

/-- The sum of the sizes of the spans. -/
def total (l : List Span) : Nat := (l.map size).sum

section Covers

variable {a : Nat} {s : Span} {l l₁ l₂ : List Span}

@[simp] theorem not_covers_nil : ¬ Covers [] a := by
  rintro ⟨s, hs, -⟩
  cases hs

@[simp] theorem covers_cons : Covers (s :: l) a ↔ a ∈ s ∨ Covers l a := by
  simp [Covers]

@[simp] theorem covers_append : Covers (l₁ ++ l₂) a ↔ Covers l₁ a ∨ Covers l₂ a := by
  simp only [Covers, List.mem_append]
  constructor
  · rintro ⟨t, ht | ht, ha⟩
    · exact .inl ⟨t, ht, ha⟩
    · exact .inr ⟨t, ht, ha⟩
  · rintro (⟨t, ht, ha⟩ | ⟨t, ht, ha⟩)
    · exact ⟨t, .inl ht, ha⟩
    · exact ⟨t, .inr ht, ha⟩

/-- Two adjacent spans together form one span. -/
theorem mem_join {s t : Span} {a : Nat} (h : s.base + s.size = t.base) :
    a ∈ (⟨s.base, s.size + t.size⟩ : Span) ↔ a ∈ s ∨ a ∈ t := by
  simp only [mem_iff]
  omega

theorem Disjoint.symm {s t : Span} (h : Disjoint s t) : Disjoint t s :=
  fun a hat has => h a has hat

/-- Covering does not depend on the order of the spans. -/
theorem covers_perm {l₁ l₂ : List Span} (h : l₁.Perm l₂) : Covers l₁ a ↔ Covers l₂ a := by
  simp only [Covers, h.mem_iff]

@[simp] theorem total_nil : total [] = 0 := rfl

@[simp] theorem total_cons : total (s :: l) = s.size + total l := rfl

@[simp] theorem total_append : total (l₁ ++ l₂) = total l₁ + total l₂ := by
  simp [total]

end Covers

theorem total_perm {l₁ l₂ : List Span} (h : l₁.Perm l₂) : total l₁ = total l₂ :=
  (h.map size).sum_nat

/-! ## Sorted lists of separated spans -/

/-- Nonempty spans in increasing order, each ending strictly before the next begins, the first
starting at or above `lo`. -/
def Gapped : Nat → List Span → Prop
  | _, [] => True
  | lo, s :: l => lo ≤ s.base ∧ 0 < s.size ∧ Gapped (s.base + s.size + 1) l

/-- The lower bound that a span placed after `l` must respect, when `l` starts at `lo`. -/
def after : Nat → List Span → Nat
  | lo, [] => lo
  | _, s :: l => after (s.base + s.size + 1) l

@[simp] theorem gapped_nil (lo : Nat) : Gapped lo [] := trivial

@[simp] theorem gapped_cons {lo : Nat} {s : Span} {l : List Span} :
    Gapped lo (s :: l) ↔ lo ≤ s.base ∧ 0 < s.size ∧ Gapped (s.base + s.size + 1) l :=
  Iff.rfl

@[simp] theorem after_nil (lo : Nat) : after lo [] = lo := rfl

@[simp] theorem after_cons (lo : Nat) (s : Span) (l : List Span) :
    after lo (s :: l) = after (s.base + s.size + 1) l := rfl

/-- A gapped list splits at any point into two gapped lists, the second starting above the
first. This is the rule used whenever a stretch of a free list is replaced. -/
theorem gapped_append {lo : Nat} {l₁ l₂ : List Span} :
    Gapped lo (l₁ ++ l₂) ↔ Gapped lo l₁ ∧ Gapped (after lo l₁) l₂ := by
  induction l₁ generalizing lo with
  | nil => simp
  | cons s l₁ ih =>
      simp only [List.cons_append, gapped_cons, after_cons, ih]
      tauto

theorem Gapped.mono {lo lo' : Nat} {l : List Span} (hle : lo' ≤ lo) (h : Gapped lo l) :
    Gapped lo' l := by
  cases l with
  | nil => trivial
  | cons s l =>
      obtain ⟨hs, hsize, hl⟩ := h
      exact ⟨Nat.le_trans hle hs, hsize, hl⟩

/-- Two disjoint nonempty spans lie one after the other. -/
theorem Disjoint.le_or_le {s t : Span} (h : Disjoint s t) (hs : 0 < s.size) (ht : 0 < t.size) :
    s.base + s.size ≤ t.base ∨ t.base + t.size ≤ s.base := by
  by_contra hc
  rcases Nat.le_total s.base t.base with hle | hle
  · exact h t.base (by simp only [mem_iff]; omega) (by simp only [mem_iff]; omega)
  · exact h s.base (by simp only [mem_iff]; omega) (by simp only [mem_iff]; omega)

/-- Every address covered by a gapped list lies at or above its lower bound. -/
theorem Gapped.le_of_covers {lo a : Nat} {l : List Span} (h : Gapped lo l) (ha : Covers l a) :
    lo ≤ a := by
  induction l generalizing lo with
  | nil => exact absurd ha not_covers_nil
  | cons s l ih =>
      obtain ⟨hs, -, hl⟩ := h
      rcases covers_cons.1 ha with ha | ha
      · exact Nat.le_trans hs ha.1
      · have := ih hl ha
        omega

/-- Each span of a gapped list is nonempty and starts at or above the bound. -/
theorem Gapped.of_mem {lo : Nat} {l : List Span} {t : Span} (h : Gapped lo l) (ht : t ∈ l) :
    lo ≤ t.base ∧ 0 < t.size := by
  induction l generalizing lo with
  | nil => cases ht
  | cons s l ih =>
      obtain ⟨hs, hsize, hl⟩ := h
      rcases List.mem_cons.1 ht with rfl | ht
      · exact ⟨hs, hsize⟩
      · obtain ⟨h1, h2⟩ := ih hl ht
        exact ⟨by omega, h2⟩

/-- In a gapped list each span ends strictly before every later one begins. -/
theorem Gapped.pairwise {lo : Nat} {l : List Span} (h : Gapped lo l) :
    l.Pairwise (fun s t => s.base + s.size < t.base) := by
  induction l generalizing lo with
  | nil => exact List.Pairwise.nil
  | cons s l ih =>
      obtain ⟨-, -, hl⟩ := h
      refine List.Pairwise.cons (fun t ht => ?_) (ih hl)
      have := (hl.of_mem ht).1
      omega

/-- The start of the first span of a gapped list is the lowest address it covers, and the end of
that span is an address it does not cover. -/
theorem Gapped.first {lo a : Nat} {s : Span} {l : List Span} (h : Gapped lo (s :: l)) :
    (Covers (s :: l) a → s.base ≤ a) ∧ ¬ Covers (s :: l) (s.base + s.size) := by
  obtain ⟨-, hs, hl⟩ := h
  refine ⟨fun ha => (show Gapped s.base (s :: l) from ⟨le_refl _, hs, hl⟩).le_of_covers ha, ?_⟩
  intro hc
  rcases covers_cons.1 hc with hat | hc
  · simp only [mem_iff] at hat
    omega
  · have := hl.le_of_covers hc
    omega

/-- A gapped list is determined by the addresses it covers: two gapped lists that cover the same
addresses are equal. Each span starts at the lowest address not covered before it, and ends at
the first address after that which is not covered. -/
theorem Gapped.eq_of_covers {lo lo' : Nat} {l₁ l₂ : List Span} (h₁ : Gapped lo l₁)
    (h₂ : Gapped lo' l₂) (h : ∀ a, Covers l₁ a ↔ Covers l₂ a) : l₁ = l₂ := by
  induction l₁ generalizing lo lo' l₂ with
  | nil =>
      cases l₂ with
      | nil => rfl
      | cons t r₂ =>
          obtain ⟨-, hpos, -⟩ := h₂
          have ht : t.base ∈ t := by simp only [mem_iff]; omega
          exact absurd ((h t.base).2 (covers_cons.2 (.inl ht))) not_covers_nil
  | cons s r₁ ih =>
      cases l₂ with
      | nil =>
          obtain ⟨-, hpos, -⟩ := h₁
          have hs : s.base ∈ s := by simp only [mem_iff]; omega
          exact absurd ((h s.base).1 (covers_cons.2 (.inl hs))) not_covers_nil
      | cons t r₂ =>
          obtain ⟨low₁, gap₁⟩ := h₁.first (a := t.base)
          obtain ⟨low₂, gap₂⟩ := h₂.first (a := s.base)
          obtain ⟨-, hs, hr₁⟩ := h₁
          obtain ⟨-, ht, hr₂⟩ := h₂
          have hsm : s.base ∈ s := by simp only [mem_iff]; omega
          have htm : t.base ∈ t := by simp only [mem_iff]; omega
          have hbase : s.base = t.base := by
            have e₁ := low₁ ((h t.base).2 (covers_cons.2 (.inl htm)))
            have e₂ := low₂ ((h s.base).1 (covers_cons.2 (.inl hsm)))
            omega
          -- the end of the shorter first span would be covered by the other list
          have hsize : s.size = t.size := by
            rcases Nat.lt_trichotomy s.size t.size with hlt | heq | hgt
            · exact absurd ((h _).2 (covers_cons.2 (.inl (by simp only [mem_iff]; omega)))) gap₁
            · exact heq
            · exact absurd ((h _).1 (covers_cons.2 (.inl (by simp only [mem_iff]; omega)))) gap₂
          obtain rfl : s = t := by
            cases s
            cases t
            simp only at hbase hsize
            simp only [hbase, hsize]
          -- past the first span, the rest of each list covers what the other's rest covers
          refine congrArg _ (ih hr₁ hr₂ fun a => ⟨fun ha => ?_, fun ha => ?_⟩)
          · have hlo := hr₁.le_of_covers ha
            rcases covers_cons.1 ((h a).1 (covers_cons.2 (.inr ha))) with hat | hc
            · simp only [mem_iff] at hat
              omega
            · exact hc
          · have hlo := hr₂.le_of_covers ha
            rcases covers_cons.1 ((h a).2 (covers_cons.2 (.inr ha))) with hat | hc
            · simp only [mem_iff] at hat
              omega
            · exact hc

/-! ## Total size of disjoint spans -/

/-- The addresses covered by a list of spans, as a finite set. -/
def cover (l : List Span) : Finset Nat :=
  l.foldr (fun s acc => Finset.Ico s.base (s.base + s.size) ∪ acc) ∅

theorem mem_cover {a : Nat} {l : List Span} : a ∈ cover l ↔ Covers l a := by
  induction l with
  | nil => simp [cover]
  | cons s l ih =>
      simp only [cover, List.foldr_cons, Finset.mem_union, Finset.mem_Ico] at ih ⊢
      rw [ih, covers_cons, mem_iff]

/-- Pairwise disjoint spans cover exactly as many addresses as their sizes add up to. -/
theorem card_cover {l : List Span} (h : l.Pairwise Disjoint) : (cover l).card = total l := by
  induction l with
  | nil => rfl
  | cons s l ih =>
      rw [List.pairwise_cons] at h
      obtain ⟨hs, hl⟩ := h
      have hd : ∀ a, a ∈ Finset.Ico s.base (s.base + s.size) → a ∉ cover l := by
        intro a ha hc
        obtain ⟨t, ht, hat⟩ := mem_cover.1 hc
        exact hs t ht a (by simpa using ha) hat
      show (Finset.Ico s.base (s.base + s.size) ∪ cover l).card = total (s :: l)
      rw [Finset.card_union_of_disjoint (Finset.disjoint_left.2 hd), ih hl, Nat.card_Ico,
        total_cons]
      omega

/-- Pairwise disjoint spans that all end at or below `n` have sizes adding up to at most `n`. -/
theorem total_le {l : List Span} {n : Nat} (h : l.Pairwise Disjoint)
    (hn : ∀ s ∈ l, s.base + s.size ≤ n) : total l ≤ n := by
  rw [← card_cover h]
  have hsub : cover l ⊆ Finset.range n := by
    intro a ha
    obtain ⟨s, hs, has⟩ := mem_cover.1 ha
    have := hn s hs
    simp only [mem_iff] at has
    simp only [Finset.mem_range]
    omega
  simpa using Finset.card_le_card hsub

end Span

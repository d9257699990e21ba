import Gunyah.Gpt.Path

set_option autoImplicit false

/-!
# Cleaning levels and popping frames

`try_clean` scans the 16 entries of a level it wrote to. It stops as soon as it has seen two
filled entries and knows that it cannot merge. After the scan it replaces the level by its only
filled entry, by an empty PTE, or by the first entry grown to the whole level when all 16 are
leaves of the entries' size that `check_ptes_consistent` accepts. What it stores maps what the
level mapped, up to `values_equal` for a merge (`tryClean_eq_some`). A level it keeps has a
filled entry (`tryClean_eq_none`).

The scan's invariant speaks of the prefix of the entries scanned so far: `Counted` for the count
and the last filled entry, `Mergeable` for the merge. From these follow the pop of a frame
(`goUpLevel_inv`), `get_curr_pte` (`getCurrPteLoop_spec`) and the unwind at the end of a write
(`unwind_spec`). All of them keep the walk's invariant, whatever the handlers, and for lawful
handlers the tree's map up to `values_equal`.
-/

namespace Gunyah.Gpt

open Function

variable {τ V : Type}

/-! ## The scan of `try_clean` -/

section Scan

variable (es : Fin 16 → Pte τ V) (e : Nat)

@[simp] theorem CleanScan.count_empty (c : CleanScan τ V) :
    c.count .empty e = { c with canMerge := false } := rfl

theorem CleanScan.count_of_ne_empty (c : CleanScan τ V) {q : Pte τ V} (hq : q ≠ .empty) :
    c.count q e = { c with filledCount := c.filledCount + 1, lastFilledPte := q,
                           canMerge := c.canMerge && q.shifts == e } := by
  cases q with
  | empty => exact absurd rfl hq
  | leaf => rfl
  | level => rfl

@[simp] theorem CleanScan.firstPte_count (c : CleanScan τ V) (q : Pte τ V) :
    (c.count q e).firstPte = c.firstPte := by
  cases q <;> rfl

theorem CleanScan.canMerge_count {c : CleanScan τ V} {q : Pte τ V}
    (hm : (c.count q e).canMerge = true) : c.canMerge = true ∧ q ≠ .empty ∧ q.shifts = e := by
  cases q with
  | empty => simp at hm
  | leaf _ _ _ _ =>
    simp only [CleanScan.count, Bool.and_eq_true, beq_iff_eq] at hm
    exact ⟨hm.1, by simp, hm.2⟩
  | level _ _ _ =>
    simp only [CleanScan.count, Bool.and_eq_true, beq_iff_eq] at hm
    exact ⟨hm.1, by simp, hm.2⟩

/-- The counts of the scan after the entries `pre`: with no filled entry the last filled PTE is
empty, otherwise it is a filled entry of `pre`, and a count of at most one leaves room for one
filled entry only. -/
structure Counted (pre : List (Fin 16)) (c : CleanScan τ V) : Prop where
  zero : c.filledCount = 0 → c.lastFilledPte = .empty ∧ ∀ j ∈ pre, es j = .empty
  last : c.filledCount ≠ 0 → ∃ j ∈ pre, es j ≠ .empty ∧ c.lastFilledPte = es j
  single : c.filledCount ≤ 1 → ∀ j ∈ pre, ∀ j' ∈ pre, es j ≠ .empty → es j' ≠ .empty → j = j'

theorem counted_init : Counted es [] (CleanScan.init : CleanScan τ V) :=
  ⟨fun _ => ⟨rfl, by simp⟩, fun h0 => absurd rfl h0, by simp⟩

variable {es e}

/-- Counting one more entry. -/
theorem Counted.count {pre : List (Fin 16)} {c : CleanScan τ V} (hc : Counted es pre c)
    (i : Fin 16) : Counted es (pre ++ [i]) (c.count (es i) e) := by
  by_cases hi : es i = .empty
  · rw [hi, CleanScan.count_empty]
    refine ⟨fun h0 => ?_, fun h0 => ?_, fun h1 => ?_⟩
    · obtain ⟨hl, hall⟩ := hc.zero h0
      refine ⟨hl, fun j hj => ?_⟩
      rcases List.mem_append.1 hj with hj | hj
      · exact hall j hj
      · rw [List.mem_singleton.1 hj]
        exact hi
    · obtain ⟨j, hj, hne, hl⟩ := hc.last h0
      exact ⟨j, List.mem_append_left _ hj, hne, hl⟩
    · -- The new entry is empty, so the filled entries all come from `pre`.
      have hpre : ∀ j ∈ pre ++ [i], es j ≠ .empty → j ∈ pre := fun j hj hne => by
        rcases List.mem_append.1 hj with hj | hj
        · exact hj
        · exact absurd (List.mem_singleton.1 hj ▸ hi) hne
      intro j hj j' hj' hne hne'
      exact hc.single h1 j (hpre j hj hne) j' (hpre j' hj' hne') hne hne'
  · rw [CleanScan.count_of_ne_empty _ _ hi]
    refine ⟨fun h0 => absurd h0 (by simp), fun _ => ⟨i, by simp, hi, rfl⟩, fun h1 => ?_⟩
    -- A count of one after a filled entry means that `pre` had none.
    have h0 : c.filledCount = 0 := by
      have h1' : c.filledCount + 1 ≤ 1 := h1
      omega
    have hall := (hc.zero h0).2
    have hself : ∀ j ∈ pre ++ [i], es j ≠ .empty → j = i := fun j hj hne => by
      rcases List.mem_append.1 hj with hj | hj
      · exact absurd (hall j hj) hne
      · exact List.mem_singleton.1 hj
    intro j hj j' hj' hne hne'
    rw [hself j hj hne, hself j' hj' hne']

/-- The counts speak of the count and the last filled PTE only. -/
theorem Counted.congr {pre : List (Fin 16)} {c c' : CleanScan τ V} (hc : Counted es pre c)
    (hf : c'.filledCount = c.filledCount) (hl : c'.lastFilledPte = c.lastFilledPte) :
    Counted es pre c' := by
  constructor
  · rw [hf, hl]
    exact hc.zero
  · rw [hf, hl]
    exact hc.last
  · rw [hf]
    exact hc.single

/-- The next entry of `List.finRange 16` is the one at the length of the prefix before it. -/
theorem finRange_index {pre rest : List (Fin 16)} {i : Fin 16}
    (hp : pre ++ i :: rest = List.finRange 16) : (i : Nat) = pre.length := by
  have hlen : pre.length < 16 := by
    have := congrArg List.length hp
    simp at this
    omega
  have := congrArg (fun l => l[pre.length]?) hp
  simp only [List.getElem?_append_right (Nat.le_refl _), Nat.sub_self,
    List.getElem?_cons_zero] at this
  rw [List.getElem?_eq_getElem (by simpa using hlen), List.getElem_finRange] at this
  simp at this
  rw [this]

variable (h : GptHandlers τ V) [DecidableEq τ]

/-- While a merge is possible, the entries of `pre` are filled, have the entries' shifts and are
consistent with the first PTE, which is entry 0. -/
def Mergeable (es : Fin 16 → Pte τ V) (e : Nat) (pre : List (Fin 16)) (c : CleanScan τ V) :
    Prop :=
  c.canMerge = true →
    (∀ j ∈ pre, es j ≠ .empty ∧ (es j).shifts = e ∧
      (j ≠ 0 → ptesConsistent h c.firstPte (es j) ((j : Nat) <<< e) = true)) ∧
    (pre ≠ [] → c.firstPte = es 0)

theorem mergeable_init (es : Fin 16 → Pte τ V) (e : Nat) :
    Mergeable h es e [] (CleanScan.init : CleanScan τ V) :=
  fun _ => ⟨by simp, fun hne => absurd rfl hne⟩

/-- The scan ends with a prefix it has accounted for, which is all 16 entries unless it stopped
early, knowing it could not merge. -/
theorem tryCleanLoop_scanned : ∀ (rest pre : List (Fin 16)) (c : CleanScan τ V),
    pre ++ rest = List.finRange 16 → Counted es pre c → Mergeable h es e pre c →
    ∃ pre', Counted es pre' (tryCleanLoop h es e rest c) ∧
      Mergeable h es e pre' (tryCleanLoop h es e rest c) ∧
      (pre' = List.finRange 16 ∨ ((tryCleanLoop h es e rest c).canMerge = false ∧
        1 < (tryCleanLoop h es e rest c).filledCount))
  | [], pre, c, hp, hc, hm => ⟨pre, hc, hm, Or.inl (by simpa using hp)⟩
  | i :: rest, pre, c, hp, hc, hm => by
    have hidx := finRange_index hp
    have hp' : (pre ++ [i]) ++ rest = List.finRange 16 := by simpa using hp
    have hc' : Counted es (pre ++ [i]) (c.count (es i) e) := hc.count i
    rw [tryCleanLoop]
    by_cases hmerge : (c.count (es i) e).canMerge = true
    · obtain ⟨hmc, hne, hsh⟩ := CleanScan.canMerge_count e hmerge
      rw [if_pos hmerge]
      by_cases hi0 : i = 0
      · -- Entry 0 becomes the first PTE; nothing was scanned before it.
        rw [if_pos hi0]
        have hpre : pre = [] := List.eq_nil_of_length_eq_zero (by rw [← hidx, hi0]; rfl)
        refine tryCleanLoop_scanned rest (pre ++ [i]) _ hp' (hc'.congr rfl rfl)
          fun _ => ⟨?_, fun _ => ?_⟩
        · intro j hj
          rw [hpre, List.nil_append, List.mem_singleton] at hj
          subst hj
          exact ⟨hne, hsh, fun h0 => absurd hi0 h0⟩
        · simp [hi0]
      · rw [if_neg hi0]
        have hpre : pre ≠ [] := fun hpre => hi0 (Fin.ext (by rw [hidx, hpre]; rfl))
        by_cases hcons : ptesConsistent h c.firstPte (es i) ((i : Nat) <<< e) = true
        · rw [CleanScan.firstPte_count, if_pos hcons]
          refine tryCleanLoop_scanned rest (pre ++ [i]) _ hp' hc' fun _ => ⟨?_, fun _ => ?_⟩
          · intro j hj
            rw [CleanScan.firstPte_count]
            rcases List.mem_append.1 hj with hj | hj
            · exact (hm hmc).1 j hj
            · rw [List.mem_singleton.1 hj]
              exact ⟨hne, hsh, fun _ => hcons⟩
          · rw [CleanScan.firstPte_count]
            exact (hm hmc).2 hpre
        · rw [CleanScan.firstPte_count, if_neg hcons]
          exact tryCleanLoop_scanned rest (pre ++ [i]) _ hp' (hc'.congr rfl rfl)
            fun hf => absurd hf (by simp)
    · rw [if_neg hmerge]
      have hm' : Mergeable h es e (pre ++ [i]) (c.count (es i) e) := fun hf => absurd hf hmerge
      by_cases hstop : (c.count (es i) e).filledCount > 1
      · rw [if_pos hstop]
        exact ⟨pre ++ [i], hc', hm', Or.inr ⟨by simpa using hmerge, hstop⟩⟩
      · rw [if_neg hstop]
        exact tryCleanLoop_scanned rest (pre ++ [i]) _ hp' hc' hm'

theorem tryCleanLoop_finRange (es : Fin 16 → Pte τ V) (e : Nat) :
    ∃ pre, Counted es pre (tryCleanLoop h es e (List.finRange 16) CleanScan.init) ∧
      Mergeable h es e pre (tryCleanLoop h es e (List.finRange 16) CleanScan.init) ∧
      (pre = List.finRange 16 ∨
        ((tryCleanLoop h es e (List.finRange 16) CleanScan.init).canMerge = false ∧
          1 < (tryCleanLoop h es e (List.finRange 16) CleanScan.init).filledCount)) :=
  tryCleanLoop_scanned h _ [] _ (by simp) (counted_init es) (mergeable_init h es e)

end Scan

/-! ## What `try_clean` stores -/

section Clean

variable {h : GptHandlers τ V} [DecidableEq τ] {g s k t : Nat} {es : Fin 16 → Pte τ V}

/-- A level that `try_clean` keeps has a filled entry. -/
theorem tryClean_eq_none (hn : tryClean h (.level g s es) (s - 4) = none) :
    ∃ j, es j ≠ .empty := by
  obtain ⟨pre, hc, -, -⟩ := tryCleanLoop_finRange h es (s - 4)
  have hentry : (Pte.level g s es).entry = es := rfl
  simp only [tryClean, hentry] at hn
  split at hn
  · cases hn
  case isFalse h1 =>
    obtain ⟨j, -, hne, -⟩ := hc.last (by omega)
    exact ⟨j, hne⟩

theorem shiftLeft_child_add (hs : 4 ≤ s) (j : Nat) :
    (g * 16 + j) <<< (s - 4) = g <<< s + j <<< (s - 4) := by
  have hpow : 2 ^ s = 2 ^ (s - 4) * 16 := by
    rw [show (16 : Nat) = 2 ^ 4 from rfl, ← Nat.pow_add]
    congr 1
    omega
  rw [Nat.shiftLeft_eq, Nat.shiftLeft_eq, Nat.shiftLeft_eq, hpow, Nat.add_mul,
    Nat.mul_comm (2 ^ (s - 4)) 16, Nat.mul_assoc]

/-- Sixteen consistent entries of the entries' size are leaves, each of its own sub-block: a level
is never consistent with another entry. -/
theorem merge_leaves (hes : ∀ j, (es j).Fits (g * 16 + j) (s - 4))
    (hall : ∀ j, es j ≠ .empty ∧ (es j).shifts = s - 4 ∧
      (j ≠ 0 → ptesConsistent h (es 0) (es j) ((j : Nat) <<< (s - 4)) = true)) (j : Fin 16) :
    ∃ t v, es j = .leaf (g * 16 + j) (s - 4) t v := by
  obtain ⟨hne, hsh, -⟩ := hall j
  have hcons1 := (hall 1).2.2 (by decide)
  cases hq : es j with
  | empty => exact absurd hq hne
  | leaf gj sj tj vj =>
    rw [hq] at hsh
    have hf := hes j
    rw [hq] at hf
    simp only [Pte.shifts_leaf] at hsh
    subst hsh
    obtain ⟨-, hg⟩ := hf
    rw [Nat.sub_self, Nat.shiftRight_zero] at hg
    exact ⟨tj, vj, by rw [hg]⟩
  | level gj sj esj =>
    by_cases hj : j = 0
    · subst hj
      rw [hq] at hcons1
      simp [ptesConsistent] at hcons1
    · have := (hall j).2.2 hj
      rw [hq] at this
      cases h0 : es 0 <;> simp [h0, ptesConsistent] at this

/-- Sixteen consistent leaves of the entries' size map, up to `values_equal`, what the first
grown to the whole level maps. -/
theorem den_merge (hl : h.Lawful) (hs : 4 ≤ s) (hes : ∀ j, (es j).Fits (g * 16 + j) (s - 4))
    (hall : ∀ j, es j ≠ .empty ∧ (es j).shifts = s - 4 ∧
      (j ≠ 0 → ptesConsistent h (es 0) (es j) ((j : Nat) <<< (s - 4)) = true))
    {t₀ : τ} {v₀ : V} (h0 : es 0 = .leaf (g * 16) (s - 4) t₀ v₀) (a : Nat) :
    EntryEq h ((Pte.leaf g s t₀ v₀).den h a) ((Pte.level g s es).den h a) := by
  have hleaf := merge_leaves hes hall
  by_cases hg : a >>> s = g
  · have hc := child_of_shiftRight hs hg
    generalize levelIndex s a = j at hc
    obtain ⟨tj, vj, hj⟩ := hleaf j
    have hle := Bits.shiftLeft_le_of_shiftRight_eq hc
    rw [den_level_of_child h hs hc, hj, den_leaf, if_pos hg, den_leaf, if_pos hc]
    rw [shiftLeft_child_add hs] at hle ⊢
    -- The distance from the level's start splits at the start of sub-block `j`.
    have hsplit : a - g <<< s = (j : Nat) <<< (s - 4) + (a - (g <<< s + (j : Nat) <<< (s - 4))) := by
      generalize g <<< s = X at hle ⊢
      generalize (j : Nat) <<< (s - 4) = Y at hle ⊢
      omega
    by_cases hj0 : j = 0
    · have hv : tj = t₀ ∧ vj = v₀ := by
        rw [hj0, h0] at hj
        simp only [Fin.val_zero, Nat.add_zero, Pte.leaf.injEq] at hj
        exact ⟨hj.2.2.1.symm, hj.2.2.2.symm⟩
      obtain ⟨rfl, rfl⟩ := hv
      rw [hj0]
      simp only [Fin.val_zero, Nat.zero_shiftLeft, Nat.add_zero]
      exact EntryEq.refl hl _
    · have hcons := (hall j).2.2 hj0
      rw [h0, hj] at hcons
      simp only [ptesConsistent, Bool.and_eq_true, decide_eq_true_eq] at hcons
      obtain ⟨rfl, hv⟩ := hcons
      refine (entryEq_some h).2 ⟨rfl, ?_⟩
      rw [hsplit, ← hl.addOffset_add]
      exact hl.valuesEqual_addOffset _ _ _ _ hv
  · rw [den_leaf, if_neg hg, den_level, if_neg hg]
    exact EntryEq.refl hl _

/-- What `try_clean` stores in a level's slot is well formed there, and for lawful handlers maps
what the level maps, up to `values_equal`. -/
theorem tryClean_eq_some (hf : (Pte.level g s es).Fits k t) (hs : 4 ≤ s) (h4 : 4 ∣ s)
    (hes : ∀ j, (es j).Wf (g * 16 + j) (s - 4)) {P : Pte τ V}
    (hP : tryClean h (.level g s es) (s - 4) = some P) :
    P.Wf k t ∧ (h.Lawful → ∀ a, EntryEq h (P.den h a) ((Pte.level g s es).den h a)) := by
  obtain ⟨pre, hc, hm, hdone⟩ := tryCleanLoop_finRange h es (s - 4)
  have hentry : (Pte.level g s es).entry = es := rfl
  simp only [tryClean, hentry] at hP
  split at hP
  case isTrue h1 =>
    -- At most one filled entry: the scan ran to the end, and the level is that entry.
    cases hP
    by_cases h0 : (tryCleanLoop h es (s - 4) (List.finRange 16) CleanScan.init).filledCount = 0
    · obtain ⟨hlast, hempty⟩ := hc.zero h0
      have hfull : pre = List.finRange 16 := hdone.resolve_right (by omega)
      have hall : ∀ j, es j = .empty := fun j => hempty j (hfull ▸ List.mem_finRange j)
      refine ⟨by rw [hlast]; exact ⟨trivial, trivial⟩, fun _ a => ?_⟩
      have hnone : (Pte.level g s es).den h a = none := by
        rw [den_level]
        split
        · rw [hall]
          rfl
        · rfl
      rw [hlast, hnone]
      rfl
    · obtain ⟨j, hj, hne, hlast⟩ := hc.last h0
      have hfull : pre = List.finRange 16 := hdone.resolve_right (by omega)
      have hsingle : ∀ i, i ≠ j → es i = .empty := fun i hi => by
        by_contra hne'
        exact hi (hc.single h1 i (hfull ▸ List.mem_finRange i) j hj hne' hne)
      rw [hlast]
      refine ⟨⟨((hes j).1.parent hs).mono hf.1 hf.2, (hes j).2⟩, fun hl a => ?_⟩
      rw [den_level_single h hs (hes j).1 hsingle]
      exact EntryEq.refl hl _
  case isFalse h1 =>
    split at hP
    case isTrue hmerge =>
      -- A merge: the scan ran to the end and every entry is a consistent leaf.
      cases hP
      have hfull : pre = List.finRange 16 := hdone.resolve_right fun hb => by
        rw [hmerge] at hb
        exact absurd hb.1 (by decide)
      obtain ⟨hall, hfirst⟩ := hm hmerge
      have hfirst' := hfirst (by rw [hfull]; exact List.ne_nil_of_mem (List.mem_finRange 0))
      have hall' : ∀ j, es j ≠ .empty ∧ (es j).shifts = s - 4 ∧
          (j ≠ 0 → ptesConsistent h (es 0) (es j) ((j : Nat) <<< (s - 4)) = true) := by
        intro j
        have := hall j (hfull ▸ List.mem_finRange j)
        rw [hfirst'] at this
        exact this
      obtain ⟨t₀, v₀, h0⟩ := merge_leaves (fun j => (hes j).1) hall' 0
      replace h0 : es 0 = .leaf (g * 16) (s - 4) t₀ v₀ := by simpa using h0
      have hnew : s - 4 + levelBits = s := by
        unfold levelBits
        omega
      rw [hfirst', h0, hnew]
      have hg : (Pte.leaf (g * 16) (s - 4) t₀ v₀ : Pte τ V).addr >>> s = g := by
        simp only [Pte.addr, Pte.guard_leaf, Pte.shifts_leaf]
        rw [show g * 16 = g <<< 4 by rw [Nat.shiftLeft_eq], ← Nat.shiftLeft_add,
          show 4 + (s - 4) = s by omega, Nat.shiftLeft_shiftRight]
      simp only [Pte.setGuardShifts, hg]
      exact ⟨⟨hf, h4⟩, fun hl => den_merge hl hs (fun j => (hes j).1) hall' h0⟩
    case isFalse => cases hP

end Clean

/-! ## Popping frames -/

/-- The stack with its deepest frame marked dirty if `d`. -/
def markDirtyIf (d : Bool) (st : List Frame) : List Frame := if d then markDirty st else st

theorem markDirtyIf_cons (d : Bool) (f : Frame) (st : List Frame) :
    markDirtyIf d (f :: st) = { f with dirty := f.dirty || d } :: st := by
  cases d <;> cases f <;> simp [markDirtyIf, markDirty]

@[simp] theorem markDirtyIf_nil (d : Bool) : markDirtyIf d [] = [] := by
  cases d <;> rfl

/-- What `get_curr_pte` establishes: the walk keeps its invariant, `curr` lies in the deepest
slot, the PTE returned is that slot's, and for lawful handlers the map is the same up to
`values_equal`. -/
structure CurrPte (h : GptHandlers τ V) [DecidableEq τ] (w : Walk τ V) (pte root : Pte τ V)
    (curr : Nat) : Prop where
  inv : w.Inv curr
  mem : curr >>> getMaxEntryShifts w.stack = slotBlock w.stack
  pte_eq : pte = w.root.getAt (slotPath w.stack)
  den : h.Lawful → MapEq h (w.root.den h) (root.den h)

section Pop

variable {h : GptHandlers τ V} [DecidableEq τ] {curr : Nat}

/-- Popping a frame, with `try_clean` on its level if it is dirty, keeps the invariant, and for
lawful handlers the tree's map up to `values_equal`; the frame above is marked dirty if
`try_clean` wrote into it. -/
theorem goUpLevel_inv {root : Pte τ V} {f : Frame} {st : List Frame}
    (hw : Walk.Inv ⟨root, f :: st⟩ curr) {root' : Pte τ V} {d : Bool}
    (hup : goUpLevel h root f st = (root', d)) :
    Walk.Inv ⟨root', markDirtyIf d st⟩ curr ∧ (h.Lawful → MapEq h (root'.den h) (root.den h)) := by
  have hroot : root.Fits 0 maxSizeBits := hw.fits_root
  obtain ⟨⟨hst, hf⟩, hslot, haddr⟩ := hw
  obtain ⟨g, s, es, hq⟩ := hf.exists_level
  rw [hq] at hf
  obtain ⟨hblock, hshifts⟩ := hf.slotBlock_cons st
  have hcur : (es f.index).Wf (g * 16 + f.index) (s - 4) := by
    simpa only [slotPath_cons, Pte.getAt_append, hq, Pte.getAt_singleton, Pte.entry_level, hblock,
      hshifts] using hslot
  have hall := hf.wf_entry hcur
  obtain ⟨hst', hg, hs, h4, -, hshifts', -, hclean⟩ := hf
  have haddr' : ∀ f' ∈ st, f'.addr ≤ curr := fun f' hf' => haddr f' (by simp [hf'])
  -- The level, if kept, is well formed in its slot once it has a filled entry.
  have hkeep : (∃ j, es j ≠ .empty) → Walk.Inv ⟨root, st⟩ curr := fun hfilled =>
    ⟨hst, by rw [hq]; exact ⟨⟨hst', hg⟩, h4, hs, fun j => hall j, hfilled⟩, haddr'⟩
  unfold goUpLevel at hup
  rw [hq, hshifts'] at hup
  split at hup
  case isTrue hd =>
    split at hup
    case h_1 P hP =>
      cases hup
      obtain ⟨hPwf, hPden⟩ := tryClean_eq_some ⟨hst', hg⟩ hs h4 hall hP
      refine ⟨⟨framesOk_write hst, ?_, ?_⟩, fun hl a => ?_⟩
      · simp only [markDirtyIf, if_true, slotPath_markDirty, slotBlock_markDirty,
          getMaxEntryShifts_markDirty, getAt_setAt_of_framesOk hst]
        exact hPwf
      · intro f' hf'
        cases st with
        | nil => simp [markDirtyIf, markDirty] at hf'
        | cons f'' st =>
          simp only [markDirtyIf, if_true, markDirty, List.mem_cons] at hf'
          rcases hf' with rfl | hf'
          · exact haddr' f'' (by simp)
          · exact haddr' f' (by simp [hf'])
      · rw [den_setAt_of_framesOk h hroot hst hPwf.1]
        split
        case isTrue hin =>
          rw [den_getAt_of_framesOk h hst hin, hq]
          exact hPden hl a
        case isFalse => exact EntryEq.refl hl _
    case h_2 hn =>
      cases hup
      exact ⟨hkeep (tryClean_eq_none hn), fun hl _ => EntryEq.refl hl _⟩
  case isFalse hd =>
    cases hup
    exact ⟨hkeep (hclean (by simpa using hd)), fun hl _ => EntryEq.refl hl _⟩

theorem getCurrPteLoop_spec (hcurr : curr < 2 ^ maxSizeBits) :
    ∀ (st : List Frame) (root : Pte τ V) (d : Bool), Walk.Inv ⟨root, markDirtyIf d st⟩ curr →
    CurrPte h (getCurrPteLoop h curr root st d).1 (getCurrPteLoop h curr root st d).2 root curr
  | [], root, d, hw => by
    simp only [markDirtyIf_nil] at hw
    refine ⟨hw, ?_, rfl, fun hl _ => EntryEq.refl hl _⟩
    simp only [getCurrPteLoop, getMaxEntryShifts, slotBlock, Nat.shiftRight_eq_div_pow]
    exact Nat.div_eq_of_lt hcurr
  | f :: st, root, d, hw => by
    rw [markDirtyIf_cons] at hw
    simp only [getCurrPteLoop]
    split
    case isTrue hidx =>
      refine ⟨hw.setIndex _, ?_, ?_, fun hl _ => EntryEq.refl hl _⟩
      · -- `curr` lies in entry `idx` of the deepest level, as it lies past the level's start.
        obtain ⟨g, s, es, hq⟩ := hw.frames.2.exists_level
        have hf := hw.frames.2
        rw [hq] at hf
        have hle := hw.addr_le _ List.mem_cons_self
        obtain ⟨-, -, hs, -, haddr, hshifts, -⟩ := hf
        simp only [getMaxEntryShifts, slotBlock] at haddr hshifts hle ⊢
        rw [haddr, hshifts, shiftLeft_child hs]
        rw [haddr] at hle
        have hdvd : g <<< s = g * 16 * 2 ^ (s - 4) := by
          rw [← shiftLeft_child hs, Nat.shiftLeft_eq, Nat.shiftRight_eq_div_pow]
          have : 2 ^ (s - 4) ∣ g * 2 ^ s :=
            Dvd.dvd.mul_left (Nat.pow_dvd_pow 2 (Nat.sub_le s 4)) g
          rw [Nat.div_mul_cancel this]
        rw [Nat.shiftRight_eq_div_pow, Nat.shiftRight_eq_div_pow]
        have hsplit : curr = (curr - g <<< s) + g * 16 * 2 ^ (s - 4) := by omega
        conv_lhs => rw [hsplit]
        rw [Nat.add_mul_div_right _ _ (Nat.two_pow_pos _)]
        omega
      · simp only [slotPath_cons, Pte.getAt_append, Pte.getAt_singleton]
    case isFalse =>
      obtain ⟨hw', hden⟩ := goUpLevel_inv hw (Prod.mk.eta (p := goUpLevel h root _ st)).symm
      have ih := getCurrPteLoop_spec hcurr st _ _ hw'
      exact ⟨ih.inv, ih.mem, ih.pte_eq, fun hl a => EntryEq.trans hl (ih.den hl a) (hden hl a)⟩

/-- `get_curr_pte` on a walk with its invariant. -/
theorem Walk.getCurrPte_spec (hcurr : curr < 2 ^ maxSizeBits) {w : Walk τ V} (hw : w.Inv curr) :
    CurrPte h (w.getCurrPte h curr).1 (w.getCurrPte h curr).2 w.root curr :=
  getCurrPteLoop_spec hcurr w.stack w.root false (by simpa [markDirtyIf] using hw)

/-- The unwind at the end of `gpt_do_write` leaves a well-formed tree, and for lawful handlers one
with the same map, up to `values_equal`. -/
theorem unwind_spec : ∀ (st : List Frame) (root : Pte τ V) (d : Bool),
    Walk.Inv ⟨root, markDirtyIf d st⟩ curr →
    (unwind h root st d).Wf 0 maxSizeBits ∧
      (h.Lawful → MapEq h ((unwind h root st d).den h) (root.den h))
  | [], root, d, hw => by
    simp only [markDirtyIf_nil] at hw
    exact ⟨hw.slot, fun hl _ => EntryEq.refl hl _⟩
  | f :: st, root, d, hw => by
    rw [markDirtyIf_cons] at hw
    simp only [unwind]
    obtain ⟨hw', hden⟩ := goUpLevel_inv hw (Prod.mk.eta (p := goUpLevel h root _ st)).symm
    obtain ⟨hwf, hden'⟩ := unwind_spec st _ _ hw'
    exact ⟨hwf, fun hl a => EntryEq.trans hl (hden' hl a) (hden hl a)⟩

end Pop

end Gunyah.Gpt

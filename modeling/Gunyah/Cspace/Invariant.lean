import Gunyah.Cspace.Twolevel

set_option autoImplicit false

/-!
# The capability bookkeeping invariant

`CapInv` ties the slots' data to the lists that the two-level cspace keeps: the cap list of an
object holds exactly its VALID caps, once each, with a VALID master cap at the head; the revoked
list of a cspace holds exactly its REVOKED caps, whose object is null; a slot is in use exactly when
its cap is not null; the caps' reference to an object has been dropped exactly when the object had
a master cap and its cap list is empty; and a cap is a master cap exactly when it was not made by a
copy, which keeps its rights within its parent's.

Each operation changes the state in one of four ways: a VALID cap is added to a free slot and its
object's list (create and copy), a VALID or a REVOKED cap is deleted, or one cap is revoked (the body
of the revoke loop). Each way has one preservation lemma; the operations' lemmas cite them, a call
of any kind keeps the invariant (`capInv_run`) and so does every run (`capInv_of_reachable`).
-/

namespace Gunyah.Cspace

open LinkedList Function

/-- The bookkeeping invariant of the capability operations. -/
structure CapInv (s : CspaceState) : Prop where
  used_iff : ∀ r, s.used r = true ↔ (s.data r).state ≠ .null
  capList_nodup : ∀ o, (s.capList o).Nodup
  mem_capList : ∀ o r, r ∈ s.capList o ↔ (s.data r).state = .valid ∧ (s.data r).object = o
  master_head : ∀ r, (s.data r).state = .valid → (s.data r).masterCap = true →
    (s.capList (s.data r).object).head? = some r
  revoked_nodup : ∀ cs, (s.revokedCapList cs).Nodup
  mem_revoked : ∀ cs r, r ∈ s.revokedCapList cs ↔ (s.data r).state = .revoked ∧ r.cspace = cs
  revoked_object : ∀ r, (s.data r).state = .revoked → (s.data r).object = 0
  unmastered : ∀ o, s.mastered o = false → s.capList o = []
  puts_eq : ∀ o, s.puts o = if s.mastered o = true ∧ s.capList o = [] then 1 else 0
  copied : ∀ r p, (s.data r).state ≠ .null → s.parentRights r = some p →
    (s.data r).rights &&& p = (s.data r).rights ∧ (s.data r).masterCap = false
  created : ∀ r, (s.data r).state ≠ .null → s.parentRights r = none → (s.data r).masterCap = true

theorem capInv_init : CapInv CspaceState.init where
  used_iff _ := by simp [CspaceState.init, CapData.null]
  capList_nodup _ := List.nodup_nil
  mem_capList _ _ := by simp [CspaceState.init, CapData.null]
  master_head _ h := by simp [CspaceState.init, CapData.null] at h
  revoked_nodup _ := List.nodup_nil
  mem_revoked _ _ := by simp [CspaceState.init, CapData.null]
  revoked_object _ h := by simp [CspaceState.init, CapData.null] at h
  unmastered _ _ := rfl
  puts_eq _ := by simp [CspaceState.init]
  copied _ _ h := by simp [CspaceState.init, CapData.null] at h
  created _ h := by simp [CspaceState.init, CapData.null] at h

section Facts

variable {s : CspaceState} {r : CapRef} {o : Nat}

theorem CapInv.null_of_unused (h : CapInv s) (hr : s.used r = false) :
    (s.data r).state = .null := by
  by_contra hne
  have hu := (h.used_iff r).2 hne
  rw [hr] at hu
  exact Bool.false_ne_true hu

theorem CapInv.not_mem_capList (h : CapInv s) (hr : (s.data r).state ≠ .valid) :
    r ∉ s.capList o :=
  fun hm => hr ((h.mem_capList o r).1 hm).1

theorem CapInv.not_mem_revoked (h : CapInv s) (hr : (s.data r).state ≠ .revoked) (cs : Nat) :
    r ∉ s.revokedCapList cs :=
  fun hm => hr ((h.mem_revoked cs r).1 hm).1

theorem CapInv.mastered_of_mem (h : CapInv s) (hr : r ∈ s.capList o) : s.mastered o = true := by
  cases hm : s.mastered o with
  | true => rfl
  | false =>
    rw [h.unmastered o hm] at hr
    exact absurd hr List.not_mem_nil

theorem CapInv.puts_of_mem (h : CapInv s) (hr : r ∈ s.capList o) : s.puts o = 0 := by
  rw [h.puts_eq o, if_neg]
  rintro ⟨-, he⟩
  rw [he] at hr
  exact List.not_mem_nil hr

/-- The VALID caps naming an object are exactly its cap list. -/
theorem CapInv.capList_eq_nil_iff (h : CapInv s) :
    s.capList o = [] ↔ ∀ r, ¬ ((s.data r).state = .valid ∧ (s.data r).object = o) := by
  rw [List.eq_nil_iff_forall_not_mem]
  exact forall_congr' fun r => not_congr (h.mem_capList o r)

end Facts

/-! ## The four ways a state changes -/

section Steps

variable {s s' : CspaceState} {r : CapRef} {o : Nat}

/-- A VALID cap `d` of object `o` put in the free slot `r`, with `L` the object's new cap list:
it holds `r` and the old list, has no repeats, starts with `r` if `d` is a master cap and keeps
the old head otherwise. The parent's rights `q` are recorded for a copy. -/
theorem CapInv.addCap (h : CapInv s) {d : CapData} {L : List CapRef} {q : Option Nat}
    (hr : s.used r = false) (hvalid : d.state = .valid) (hobj : d.object = o)
    (hmem : ∀ x, x ∈ L ↔ x = r ∨ x ∈ s.capList o) (hnd : L.Nodup)
    (hhead : d.masterCap = true → L.head? = some r)
    (hkeep : s.capList o ≠ [] → L.head? = (s.capList o).head?)
    (hputs : s.puts o = 0)
    (hcopied : ∀ p, q = some p → d.rights &&& p = d.rights ∧ d.masterCap = false)
    (hcreated : q = none → d.masterCap = true)
    (hused' : s'.used = update s.used r true) (hdata' : s'.data = update s.data r d)
    (hlist' : s'.capList = update s.capList o L)
    (hrevoked' : s'.revokedCapList = s.revokedCapList)
    (hmastered' : s'.mastered = update s.mastered o true) (hputs' : s'.puts = s.puts)
    (hpr' : s'.parentRights = update s.parentRights r q) : CapInv s' := by
  have hnull : (s.data r).state = .null := h.null_of_unused hr
  have hnotin : ∀ o', r ∉ s.capList o' := fun o' => h.not_mem_capList (by rw [hnull]; decide)
  constructor
  case used_iff =>
    intro x
    rw [hused', hdata']
    by_cases hx : x = r
    · subst hx
      simp [hvalid]
    · rw [update_of_ne hx, update_of_ne hx]
      exact h.used_iff x
  case capList_nodup =>
    intro o'
    rw [hlist']
    by_cases ho : o' = o
    · subst ho
      rw [update_self]
      exact hnd
    · rw [update_of_ne ho]
      exact h.capList_nodup o'
  case mem_capList =>
    intro o' x
    rw [hlist', hdata']
    by_cases hx : x = r
    · subst hx
      simp only [update_self, hvalid, hobj, true_and]
      by_cases ho : o' = o
      · subst ho
        simp [hmem]
      · rw [update_of_ne ho]
        exact iff_of_false (hnotin o') (Ne.symm ho)
    · rw [update_of_ne hx]
      by_cases ho : o' = o
      · subst ho
        rw [update_self, hmem, or_iff_right hx]
        exact h.mem_capList o' x
      · rw [update_of_ne ho]
        exact h.mem_capList o' x
  case master_head =>
    intro x hxv hxm
    rw [hlist']
    rw [hdata'] at hxv hxm ⊢
    by_cases hx : x = r
    · subst hx
      rw [update_self] at hxv hxm ⊢
      rw [hobj, update_self]
      exact hhead hxm
    · rw [update_of_ne hx] at hxv hxm ⊢
      have hold := h.master_head x hxv hxm
      by_cases ho : (s.data x).object = o
      · rw [ho] at hold ⊢
        rw [update_self]
        have hne : s.capList o ≠ [] := fun he => by rw [he] at hold; cases hold
        rw [hkeep hne, hold]
      · rw [update_of_ne ho]
        exact hold
  case revoked_nodup =>
    rw [hrevoked']
    exact h.revoked_nodup
  case mem_revoked =>
    intro cs x
    rw [hrevoked', hdata']
    by_cases hx : x = r
    · subst hx
      simp only [update_self, hvalid]
      exact iff_of_false (h.not_mem_revoked (by rw [hnull]; decide) cs) (by simp)
    · rw [update_of_ne hx]
      exact h.mem_revoked cs x
  case revoked_object =>
    intro x hx'
    rw [hdata'] at hx' ⊢
    by_cases hx : x = r
    · subst hx
      rw [update_self, hvalid] at hx'
      cases hx'
    · rw [update_of_ne hx] at hx' ⊢
      exact h.revoked_object x hx'
  case unmastered =>
    intro o' hm
    rw [hmastered'] at hm
    rw [hlist']
    by_cases ho : o' = o
    · subst ho
      rw [update_self] at hm
      cases hm
    · rw [update_of_ne ho] at hm ⊢
      exact h.unmastered o' hm
  case puts_eq =>
    intro o'
    rw [hputs', hmastered', hlist']
    by_cases ho : o' = o
    · subst ho
      have hne : L ≠ [] := List.ne_nil_of_mem ((hmem r).2 (.inl rfl))
      simp [hputs, hne]
    · rw [update_of_ne ho, update_of_ne ho]
      exact h.puts_eq o'
  case copied =>
    intro x p hxn hxp
    rw [hdata'] at hxn ⊢
    rw [hpr'] at hxp
    by_cases hx : x = r
    · subst hx
      rw [update_self] at hxp ⊢
      exact hcopied p hxp
    · rw [update_of_ne hx] at hxn hxp ⊢
      exact h.copied x p hxn hxp
  case created =>
    intro x hxn hxp
    rw [hdata'] at hxn ⊢
    rw [hpr'] at hxp
    by_cases hx : x = r
    · subst hx
      rw [update_self] at hxp ⊢
      exact hcreated hxp
    · rw [update_of_ne hx] at hxn hxp ⊢
      exact h.created x hxn hxp

/-- A VALID cap `r` of object `o` nulled, deleted from the object's list and its slot freed; the
object is put when its list becomes empty. -/
theorem CapInv.deleteValid (h : CapInv s) (hv : (s.data r).state = .valid)
    (hobj : (s.data r).object = o)
    (hused' : s'.used = update s.used r false) (hdata' : s'.data = update s.data r .null)
    (hlist' : s'.capList = update s.capList o ((s.capList o).erase r))
    (hrevoked' : s'.revokedCapList = s.revokedCapList) (hmastered' : s'.mastered = s.mastered)
    (hputs' : s'.puts =
      if (s.capList o).erase r = [] then update s.puts o (s.puts o + 1) else s.puts)
    (hpr' : s'.parentRights = s.parentRights) : CapInv s' := by
  have hro : r ∈ s.capList o := (h.mem_capList o r).2 ⟨hv, hobj⟩
  have hnd := h.capList_nodup o
  have hmo : s.mastered o = true := h.mastered_of_mem hro
  constructor
  case used_iff =>
    intro x
    rw [hused', hdata']
    by_cases hx : x = r
    · subst hx
      simp [CapData.null]
    · rw [update_of_ne hx, update_of_ne hx]
      exact h.used_iff x
  case capList_nodup =>
    intro o'
    rw [hlist']
    by_cases ho : o' = o
    · subst ho
      rw [update_self]
      exact hnd.erase r
    · rw [update_of_ne ho]
      exact h.capList_nodup o'
  case mem_capList =>
    intro o' x
    rw [hlist', hdata']
    by_cases hx : x = r
    · subst hx
      simp only [update_self, CapData.null, reduceCtorEq, false_and, iff_false]
      by_cases ho : o' = o
      · subst ho
        rw [update_self]
        exact hnd.not_mem_erase
      · rw [update_of_ne ho]
        exact fun hm => ho (((h.mem_capList o' x).1 hm).2.symm.trans hobj)
    · rw [update_of_ne hx]
      by_cases ho : o' = o
      · subst ho
        rw [update_self, hnd.mem_erase_iff, and_iff_right hx]
        exact h.mem_capList o' x
      · rw [update_of_ne ho]
        exact h.mem_capList o' x
  case master_head =>
    intro x hxv hxm
    rw [hlist']
    rw [hdata'] at hxv hxm ⊢
    by_cases hx : x = r
    · subst hx
      simp [CapData.null] at hxv
    · rw [update_of_ne hx] at hxv hxm ⊢
      have hold := h.master_head x hxv hxm
      by_cases ho : (s.data x).object = o
      · rw [ho] at hold ⊢
        rw [update_self]
        exact head?_erase_of_ne hold (Ne.symm hx)
      · rw [update_of_ne ho]
        exact hold
  case revoked_nodup =>
    rw [hrevoked']
    exact h.revoked_nodup
  case mem_revoked =>
    intro cs x
    rw [hrevoked', hdata']
    by_cases hx : x = r
    · subst hx
      simp only [update_self, CapData.null]
      exact iff_of_false (h.not_mem_revoked (by rw [hv]; decide) cs) (by simp)
    · rw [update_of_ne hx]
      exact h.mem_revoked cs x
  case revoked_object =>
    intro x hx'
    rw [hdata'] at hx' ⊢
    by_cases hx : x = r
    · subst hx
      simp [CapData.null] at hx'
    · rw [update_of_ne hx] at hx' ⊢
      exact h.revoked_object x hx'
  case unmastered =>
    intro o' hm
    rw [hmastered'] at hm
    rw [hlist']
    have ho : o' ≠ o := fun he => by rw [he, hmo] at hm; cases hm
    rw [update_of_ne ho]
    exact h.unmastered o' hm
  case puts_eq =>
    intro o'
    rw [hmastered', hlist']
    have hp := h.puts_of_mem hro
    by_cases ho : o' = o
    · subst ho
      by_cases he : (s.capList o').erase r = []
      · simp [hputs', he, hp, hmo]
      · simp [hputs', he, hp]
    · have hput : s'.puts o' = s.puts o' := by
        rw [hputs']
        split
        · exact update_of_ne ho _ _
        · rfl
      rw [hput, update_of_ne ho]
      exact h.puts_eq o'
  case copied =>
    intro x p hxn hxp
    rw [hdata'] at hxn ⊢
    rw [hpr'] at hxp
    by_cases hx : x = r
    · subst hx
      simp [CapData.null] at hxn
    · rw [update_of_ne hx] at hxn ⊢
      exact h.copied x p hxn hxp
  case created =>
    intro x hxn hxp
    rw [hdata'] at hxn ⊢
    rw [hpr'] at hxp
    by_cases hx : x = r
    · subst hx
      simp [CapData.null] at hxn
    · rw [update_of_ne hx] at hxn ⊢
      exact h.created x hxn hxp

/-- A REVOKED cap `r` nulled, deleted from the revoked list of its cspace and its slot freed. -/
theorem CapInv.deleteRevoked (h : CapInv s) (hv : (s.data r).state = .revoked)
    (hused' : s'.used = update s.used r false) (hdata' : s'.data = update s.data r .null)
    (hlist' : s'.capList = s.capList)
    (hrevoked' : s'.revokedCapList =
      update s.revokedCapList r.cspace ((s.revokedCapList r.cspace).erase r))
    (hmastered' : s'.mastered = s.mastered) (hputs' : s'.puts = s.puts)
    (hpr' : s'.parentRights = s.parentRights) : CapInv s' := by
  have hnotin : ∀ o, r ∉ s.capList o := fun o => h.not_mem_capList (by rw [hv]; decide)
  have hnd := h.revoked_nodup r.cspace
  constructor
  case used_iff =>
    intro x
    rw [hused', hdata']
    by_cases hx : x = r
    · subst hx
      simp [CapData.null]
    · rw [update_of_ne hx, update_of_ne hx]
      exact h.used_iff x
  case capList_nodup =>
    rw [hlist']
    exact h.capList_nodup
  case mem_capList =>
    intro o x
    rw [hlist', hdata']
    by_cases hx : x = r
    · subst hx
      simp only [update_self, CapData.null, reduceCtorEq, false_and, iff_false]
      exact hnotin o
    · rw [update_of_ne hx]
      exact h.mem_capList o x
  case master_head =>
    intro x hxv hxm
    rw [hlist']
    rw [hdata'] at hxv hxm ⊢
    by_cases hx : x = r
    · subst hx
      simp [CapData.null] at hxv
    · rw [update_of_ne hx] at hxv hxm ⊢
      exact h.master_head x hxv hxm
  case revoked_nodup =>
    intro cs
    rw [hrevoked']
    by_cases hc : cs = r.cspace
    · subst hc
      rw [update_self]
      exact hnd.erase r
    · rw [update_of_ne hc]
      exact h.revoked_nodup cs
  case mem_revoked =>
    intro cs x
    rw [hrevoked', hdata']
    by_cases hx : x = r
    · subst hx
      simp only [update_self, CapData.null, reduceCtorEq, false_and, iff_false]
      by_cases hc : cs = x.cspace
      · subst hc
        rw [update_self]
        exact hnd.not_mem_erase
      · rw [update_of_ne hc]
        exact fun hm => hc ((h.mem_revoked cs x).1 hm).2.symm
    · rw [update_of_ne hx]
      by_cases hc : cs = r.cspace
      · subst hc
        rw [update_self, hnd.mem_erase_iff, and_iff_right hx]
        exact h.mem_revoked r.cspace x
      · rw [update_of_ne hc]
        exact h.mem_revoked cs x
  case revoked_object =>
    intro x hx'
    rw [hdata'] at hx' ⊢
    by_cases hx : x = r
    · subst hx
      simp [CapData.null] at hx'
    · rw [update_of_ne hx] at hx' ⊢
      exact h.revoked_object x hx'
  case unmastered =>
    rw [hmastered', hlist']
    exact h.unmastered
  case puts_eq =>
    rw [hputs', hmastered', hlist']
    exact h.puts_eq
  case copied =>
    intro x p hxn hxp
    rw [hdata'] at hxn ⊢
    rw [hpr'] at hxp
    by_cases hx : x = r
    · subst hx
      simp [CapData.null] at hxn
    · rw [update_of_ne hx] at hxn ⊢
      exact h.copied x p hxn hxp
  case created =>
    intro x hxn hxp
    rw [hdata'] at hxn ⊢
    rw [hpr'] at hxp
    by_cases hx : x = r
    · subst hx
      simp [CapData.null] at hxn
    · rw [update_of_ne hx] at hxn ⊢
      exact h.created x hxn hxp

/-- One pass of the revoke loop over a cap `c` other than the master cap `m` of object `o`: `c`
becomes REVOKED with a null object and moves from the object's list to its cspace's revoked
list. The master cap keeps the object's list non-empty. -/
theorem CapInv.revokeOne (h : CapInv s) {c m : CapRef} (hcm : c ≠ m)
    (hc : (s.data c).state = .valid) (hco : (s.data c).object = o)
    (hm : (s.data m).state = .valid) (hmo : (s.data m).object = o)
    (hused' : s'.used = s.used)
    (hdata' : s'.data = update s.data c { s.data c with state := .revoked, object := 0 })
    (hlist' : s'.capList = update s.capList o ((s.capList o).erase c))
    (hrevoked' : s'.revokedCapList =
      update s.revokedCapList c.cspace (c :: s.revokedCapList c.cspace))
    (hmastered' : s'.mastered = s.mastered) (hputs' : s'.puts = s.puts)
    (hpr' : s'.parentRights = s.parentRights) : CapInv s' := by
  have hcin : c ∈ s.capList o := (h.mem_capList o c).2 ⟨hc, hco⟩
  have hmin : m ∈ s.capList o := (h.mem_capList o m).2 ⟨hm, hmo⟩
  have hnd := h.capList_nodup o
  have hmast : s.mastered o = true := h.mastered_of_mem hcin
  have hcrev : ∀ cs, c ∉ s.revokedCapList cs := h.not_mem_revoked (by rw [hc]; decide)
  constructor
  case used_iff =>
    intro x
    rw [hused', hdata']
    by_cases hx : x = c
    · subst hx
      simp only [update_self, ne_eq, reduceCtorEq, not_false_eq_true, iff_true]
      exact (h.used_iff x).2 (by rw [hc]; decide)
    · rw [update_of_ne hx]
      exact h.used_iff x
  case capList_nodup =>
    intro o'
    rw [hlist']
    by_cases ho : o' = o
    · subst ho
      rw [update_self]
      exact hnd.erase c
    · rw [update_of_ne ho]
      exact h.capList_nodup o'
  case mem_capList =>
    intro o' x
    rw [hlist', hdata']
    by_cases hx : x = c
    · subst hx
      simp only [update_self, reduceCtorEq, false_and, iff_false]
      by_cases ho : o' = o
      · subst ho
        rw [update_self]
        exact hnd.not_mem_erase
      · rw [update_of_ne ho]
        exact fun hx' => ho (((h.mem_capList o' x).1 hx').2.symm.trans hco)
    · rw [update_of_ne hx]
      by_cases ho : o' = o
      · subst ho
        rw [update_self, hnd.mem_erase_iff, and_iff_right hx]
        exact h.mem_capList o' x
      · rw [update_of_ne ho]
        exact h.mem_capList o' x
  case master_head =>
    intro x hxv hxm
    rw [hlist']
    rw [hdata'] at hxv hxm ⊢
    by_cases hx : x = c
    · subst hx
      simp at hxv
    · rw [update_of_ne hx] at hxv hxm ⊢
      have hold := h.master_head x hxv hxm
      by_cases ho : (s.data x).object = o
      · rw [ho] at hold ⊢
        rw [update_self]
        exact head?_erase_of_ne hold (Ne.symm hx)
      · rw [update_of_ne ho]
        exact hold
  case revoked_nodup =>
    intro cs
    rw [hrevoked']
    by_cases hcs : cs = c.cspace
    · subst hcs
      rw [update_self]
      exact List.nodup_cons.2 ⟨hcrev _, h.revoked_nodup _⟩
    · rw [update_of_ne hcs]
      exact h.revoked_nodup cs
  case mem_revoked =>
    intro cs x
    rw [hrevoked', hdata']
    by_cases hx : x = c
    · subst hx
      simp only [update_self, true_and]
      by_cases hcs : cs = x.cspace
      · subst hcs
        simp
      · rw [update_of_ne hcs]
        exact iff_of_false (hcrev cs) (Ne.symm hcs)
    · rw [update_of_ne hx]
      by_cases hcs : cs = c.cspace
      · subst hcs
        rw [update_self, List.mem_cons, or_iff_right hx]
        exact h.mem_revoked c.cspace x
      · rw [update_of_ne hcs]
        exact h.mem_revoked cs x
  case revoked_object =>
    intro x hx'
    rw [hdata'] at hx' ⊢
    by_cases hx : x = c
    · subst hx
      rw [update_self]
    · rw [update_of_ne hx] at hx' ⊢
      exact h.revoked_object x hx'
  case unmastered =>
    intro o' hm'
    rw [hmastered'] at hm'
    rw [hlist']
    have ho : o' ≠ o := fun he => by rw [he, hmast] at hm'; cases hm'
    rw [update_of_ne ho]
    exact h.unmastered o' hm'
  case puts_eq =>
    intro o'
    rw [hputs', hmastered', hlist']
    by_cases ho : o' = o
    · subst ho
      have hne : (s.capList o').erase c ≠ [] :=
        List.ne_nil_of_mem ((hnd.mem_erase_iff).2 ⟨Ne.symm hcm, hmin⟩)
      simp [hne, h.puts_of_mem hcin]
    · rw [update_of_ne ho]
      exact h.puts_eq o'
  case copied =>
    intro x p hxn hxp
    rw [hdata'] at hxn ⊢
    rw [hpr'] at hxp
    by_cases hx : x = c
    · subst hx
      rw [update_self]
      exact h.copied x p (by rw [hc]; decide) hxp
    · rw [update_of_ne hx] at hxn ⊢
      exact h.copied x p hxn hxp
  case created =>
    intro x hxn hxp
    rw [hdata'] at hxn ⊢
    rw [hpr'] at hxp
    by_cases hx : x = c
    · subst hx
      rw [update_self]
      exact h.created x (by rw [hc]; decide) hxp
    · rw [update_of_ne hx] at hxn ⊢
      exact h.created x hxn hxp

end Steps

/-! ## The revoke loop -/

section RevokeLoop

variable {m : CapRef} {o : Nat}

/-- The loop leaves the data of every cap it does not revoke, and revokes each cap it visits other
than the master cap. -/
theorem revokeLoop_data :
    ∀ (rest : List CapRef) (s : CspaceState), rest.Nodup → ∀ x,
      (rest.foldl (revokeCap m o) s).data x =
        if x ∈ rest ∧ x ≠ m then { s.data x with state := .revoked, object := 0 } else s.data x
  | [], s, _, x => by simp
  | c :: rest, s, hnd, x => by
    obtain ⟨hc, hnd⟩ := List.nodup_cons.1 hnd
    rw [List.foldl_cons, revokeLoop_data rest _ hnd x]
    by_cases hx : x = c
    · -- the cap visited now is not visited again
      subst hx
      by_cases hxm : x = m
      · simp [hxm, revokeCap]
      · simp [hc, hxm, revokeCap]
    · simp only [revokeCap_data_of_ne hx, List.mem_cons, hx, false_or]

theorem revokeLoop_puts :
    ∀ (rest : List CapRef) (s : CspaceState), (rest.foldl (revokeCap m o) s).puts = s.puts
  | [], _ => rfl
  | c :: rest, s => by rw [List.foldl_cons, revokeLoop_puts rest, revokeCap_puts]

theorem revokeLoop_used :
    ∀ (rest : List CapRef) (s : CspaceState), (rest.foldl (revokeCap m o) s).used = s.used
  | [], _ => rfl
  | c :: rest, s => by rw [List.foldl_cons, revokeLoop_used rest, revokeCap_used]

/-- The loop keeps the invariant when every cap it visits other than the master cap is a VALID cap
of the master cap's object. -/
theorem capInv_revokeLoop :
    ∀ (rest : List CapRef) (s : CspaceState), rest.Nodup → CapInv s →
      (s.data m).state = .valid → (s.data m).object = o →
      (∀ c ∈ rest, c ≠ m → (s.data c).state = .valid ∧ (s.data c).object = o) →
      CapInv (rest.foldl (revokeCap m o) s)
  | [], _, _, h, _, _, _ => h
  | c :: rest, s, hnd, h, hm, hmo, hrest => by
    obtain ⟨hc, hnd⟩ := List.nodup_cons.1 hnd
    have hrest' : ∀ c' ∈ rest, c' ≠ m → (s.data c').state = .valid ∧ (s.data c').object = o :=
      fun c' hc' => hrest c' (List.mem_cons_of_mem c hc')
    rw [List.foldl_cons]
    by_cases hcm : c = m
    · -- the master cap is skipped
      have hskip : revokeCap m o s c = s := if_pos hcm
      rw [hskip]
      exact capInv_revokeLoop rest s hnd h hm hmo hrest'
    · obtain ⟨hcv, hco⟩ := hrest c List.mem_cons_self hcm
      have hstep : CapInv (revokeCap m o s c) :=
        h.revokeOne hcm hcv hco hm hmo (revokeCap_used) (by simp [revokeCap, hcm])
          (by simp [revokeCap, hcm]) (by simp [revokeCap, hcm]) revokeCap_mastered revokeCap_puts
          revokeCap_parentRights
      -- the caps still to visit, and the master cap, keep their data
      have hframe : ∀ x, x ≠ c → (revokeCap m o s c).data x = s.data x :=
        fun x hx => revokeCap_data_of_ne hx
      refine capInv_revokeLoop rest _ hnd hstep ?_ ?_ ?_
      · rw [hframe m (Ne.symm hcm)]
        exact hm
      · rw [hframe m (Ne.symm hcm)]
        exact hmo
      · intro c' hc' hc'm
        have hne : c' ≠ c := fun he => hc (he ▸ hc')
        rw [hframe c' hne]
        exact hrest' c' hc' hc'm

end RevokeLoop

/-! ## The operations -/

section Operations

variable {s : CspaceState}

theorem capInv_createMasterCap (rightsAll : Nat → Nat) {cspace object type : Nat}
    {found : Except Error Nat} (h : CapInv s) (hnew : s.mastered object = false)
    (hfree : FoundFree s cspace found) :
    CapInv (cspaceCreateMasterCap rightsAll cspace object type found s).2 := by
  cases found with
  | error e => exact h
  | ok index =>
    have hr : s.used ⟨cspace, index⟩ = false := hfree index rfl
    have hempty : s.capList object = [] := h.unmastered object hnew
    refine h.addCap (d := ⟨object, rightsAll type, type, true, .valid⟩)
      (L := ⟨cspace, index⟩ :: s.capList object) (q := none) hr rfl rfl (fun x => List.mem_cons)
      ?_ (fun _ => rfl) (fun hne => absurd hempty hne) ?_ (fun _ hq => by cases hq) (fun _ => rfl)
      rfl rfl rfl rfl rfl rfl rfl
    · rw [hempty]
      exact List.nodup_singleton _
    · rw [h.puts_eq object, hnew]
      simp

/-- The rights of a copy, `rights & rights_mask`, are among the parent's. -/
theorem masked_rights_sub (rights rightsMask : Nat) :
    (rights &&& rightsMask) &&& rights = rights &&& rightsMask := by
  rw [Nat.and_assoc, Nat.and_comm rightsMask rights, ← Nat.and_assoc, Nat.and_self]

theorem capInv_copyCap {target parent : Nat} {parentId : Option Nat} {rightsMask : Nat}
    {found : Except Error Nat} (h : CapInv s) (hfree : FoundFree s target found) :
    CapInv (cspaceCopyCap target parent parentId rightsMask found s).2 := by
  cases found with
  | error e => exact h
  | ok index =>
    have hr : s.used ⟨target, index⟩ = false := hfree index rfl
    have hnull : (s.data ⟨target, index⟩).state = .null := h.null_of_unused hr
    cases parentId with
    | none =>
      show CapInv (cspaceFreeCapSlot _ _)
      rw [cspaceFreeCapSlot_allocate hr]
      exact h
    | some p =>
      simp only [cspaceCopyCap, cspaceAllocateCapSlot, cspaceLookupCapSlot]
      split_ifs with hchk hmask
      · rw [cspaceFreeCapSlot_allocate hr]
        exact h
      · rw [cspaceFreeCapSlot_allocate hr]
        exact h
      · -- the copy goes right after its VALID parent on the object's list
        have hv : (s.data ⟨parent, p⟩).state = .valid := cspaceCheckCapData_any_iff.1 (not_not.1 hchk)
        have hpc : ⟨parent, p⟩ ∈ s.capList (s.data ⟨parent, p⟩).object :=
          (h.mem_capList _ _).2 ⟨hv, rfl⟩
        have hrin : ⟨target, index⟩ ∉ s.capList (s.data ⟨parent, p⟩).object :=
          h.not_mem_capList (by rw [hnull]; decide)
        refine h.addCap (d := { s.data ⟨parent, p⟩ with
            rights := (s.data ⟨parent, p⟩).rights &&& rightsMask, masterCap := false })
          (q := some (s.data ⟨parent, p⟩).rights) hr hv rfl
          (fun x => mem_insertAfter hpc) (nodup_insertAfter hpc hrin (h.capList_nodup _))
          (fun hm => by cases hm) (fun _ => head?_insertAfter) (h.puts_of_mem hpc) ?_
          (fun hq => by cases hq) rfl rfl rfl rfl ?_ rfl rfl
        · intro q hq
          cases hq
          exact ⟨masked_rights_sub _ _, rfl⟩
        · show s.mastered = _
          rw [← h.mastered_of_mem hpc, update_eq_self]

theorem capInv_deleteCap {cspace : Nat} {capId : Option Nat} (h : CapInv s) :
    CapInv (cspaceDeleteCap cspace capId s).2 := by
  cases capId with
  | none => exact h
  | some index =>
    cases hst : (s.data ⟨cspace, index⟩).state with
    | valid =>
      simp only [cspaceDeleteCap, cspaceLookupCapSlot, hst]
      exact h.deleteValid hst rfl rfl rfl rfl rfl rfl rfl rfl
    | revoked =>
      simp only [cspaceDeleteCap, cspaceLookupCapSlot, hst]
      exact h.deleteRevoked hst rfl rfl rfl rfl rfl rfl rfl
    | null =>
      simp only [cspaceDeleteCap, cspaceLookupCapSlot, hst]
      exact h

theorem capInv_revokeCaps {cspace : Nat} {masterCapId : Option Nat} (h : CapInv s) :
    CapInv (cspaceRevokeCaps cspace masterCapId s).2 := by
  cases masterCapId with
  | none => exact h
  | some index =>
    simp only [cspaceRevokeCaps, cspaceLookupCapSlot]
    split_ifs with hchk hmaster
    · exact h
    · exact h
    · have hv := cspaceCheckCapData_any_iff.1 (not_not.1 hchk)
      refine capInv_revokeLoop _ s (h.capList_nodup _) h hv rfl ?_
      intro c hc _
      exact (h.mem_capList _ c).1 hc

/-- Every allowed call keeps the invariant. -/
theorem capInv_run (rightsAll : Nat → Nat) {c : CspaceCall} (h : CapInv s) (hc : c.Allowed s) :
    CapInv (c.run rightsAll s) := by
  cases c with
  | createMasterCap cspace object type found =>
    exact capInv_createMasterCap rightsAll h hc.1 hc.2
  | copyCap target parent parentId rightsMask found => exact capInv_copyCap h hc
  | deleteCap cspace capId => exact capInv_deleteCap h
  | revokeCaps cspace masterCapId => exact capInv_revokeCaps h

theorem capInv_of_reachable {rightsAll : Nat → Nat} (hs : Reachable rightsAll s) : CapInv s := by
  induction hs with
  | init => exact capInv_init
  | step c _ hc ih => exact capInv_run rightsAll ih hc

end Operations

/-! ## What the operations leave -/

section Results

variable {s : CspaceState}

/-- `cspace_revoke_caps` returns OK only through a VALID master cap, and then it has run its loop
over the object's cap list. -/
theorem cspaceRevokeCaps_eq_ok {cspace index : Nat}
    (hok : (cspaceRevokeCaps cspace (some index) s).1 = .ok) :
    (s.data ⟨cspace, index⟩).state = .valid ∧ (s.data ⟨cspace, index⟩).masterCap = true ∧
      (cspaceRevokeCaps cspace (some index) s).2 =
        (s.capList (s.data ⟨cspace, index⟩).object).foldl
          (revokeCap ⟨cspace, index⟩ (s.data ⟨cspace, index⟩).object) s := by
  have hchk : cspaceCheckCapData (s.data ⟨cspace, index⟩) none 0 = .ok := by
    by_contra hne
    simp [cspaceRevokeCaps, cspaceLookupCapSlot, hne] at hok
  have hmaster : (s.data ⟨cspace, index⟩).masterCap = true := by
    by_contra hne
    have hf : (s.data ⟨cspace, index⟩).masterCap = false := by simpa using hne
    simp [cspaceRevokeCaps, cspaceLookupCapSlot, hchk, hf] at hok
  refine ⟨cspaceCheckCapData_any_iff.1 hchk, hmaster, ?_⟩
  simp [cspaceRevokeCaps, cspaceLookupCapSlot, hchk, hmaster]

/-- After `cspace_revoke_caps` returns OK, its master cap is the only VALID cap naming its object. -/
theorem CapInv.revokeCaps_only_master (h : CapInv s) {cspace index : Nat}
    (hok : (cspaceRevokeCaps cspace (some index) s).1 = .ok) (x : CapRef) :
    ((cspaceRevokeCaps cspace (some index) s).2.data x).state = .valid ∧
        ((cspaceRevokeCaps cspace (some index) s).2.data x).object =
          (s.data ⟨cspace, index⟩).object ↔
      x = ⟨cspace, index⟩ := by
  obtain ⟨hv, -, hres⟩ := cspaceRevokeCaps_eq_ok hok
  rw [hres, revokeLoop_data _ s (h.capList_nodup _) x]
  by_cases hx : x = ⟨cspace, index⟩
  · subst hx
    simp [hv]
  · by_cases hxl : x ∈ s.capList (s.data ⟨cspace, index⟩).object
    · -- a cap on the list other than the master cap is now REVOKED
      rw [if_pos ⟨hxl, hx⟩]
      simp [hx]
    · -- a cap off the list is not a VALID cap of the object, before or after
      rw [if_neg fun hh => hxl hh.1]
      exact iff_of_false (fun hh => hxl ((h.mem_capList _ x).2 hh)) hx

theorem cspaceCreateMasterCap_puts {rightsAll : Nat → Nat} {cspace object type : Nat}
    {found : Except Error Nat} :
    (cspaceCreateMasterCap rightsAll cspace object type found s).2.puts = s.puts := by
  cases found <;> rfl

theorem cspaceCopyCap_puts {target parent : Nat} {parentId : Option Nat} {rightsMask : Nat}
    {found : Except Error Nat} :
    (cspaceCopyCap target parent parentId rightsMask found s).2.puts = s.puts := by
  cases found with
  | error e => rfl
  | ok index =>
    cases parentId with
    | none => rfl
    | some p =>
      simp only [cspaceCopyCap, cspaceAllocateCapSlot, cspaceLookupCapSlot]
      split_ifs <;> rfl

theorem cspaceRevokeCaps_puts {cspace : Nat} {masterCapId : Option Nat} :
    (cspaceRevokeCaps cspace masterCapId s).2.puts = s.puts := by
  cases masterCapId with
  | none => rfl
  | some index =>
    simp only [cspaceRevokeCaps, cspaceLookupCapSlot]
    split_ifs
    · rfl
    · rfl
    · exact revokeLoop_puts _ s

/-- Revoking frees no slot. -/
theorem cspaceRevokeCaps_used {cspace : Nat} {masterCapId : Option Nat} :
    (cspaceRevokeCaps cspace masterCapId s).2.used = s.used := by
  cases masterCapId with
  | none => rfl
  | some index =>
    simp only [cspaceRevokeCaps, cspaceLookupCapSlot]
    split_ifs
    · rfl
    · rfl
    · exact revokeLoop_used _ s

/-- `cspace_delete_cap` puts the object of the cap it deletes when that was the last cap on the
object's list. -/
theorem cspaceDeleteCap_puts {cspace index o : Nat} :
    (cspaceDeleteCap cspace (some index) s).2.puts o =
      if (s.data ⟨cspace, index⟩).state = .valid ∧ (s.data ⟨cspace, index⟩).object = o ∧
          (s.capList o).erase ⟨cspace, index⟩ = [] then s.puts o + 1
      else s.puts o := by
  cases hst : (s.data ⟨cspace, index⟩).state with
  | valid =>
    simp only [cspaceDeleteCap, cspaceLookupCapSlot, hst, cspaceFreeCapSlot, true_and]
    by_cases ho : (s.data ⟨cspace, index⟩).object = o
    · subst ho
      by_cases he : (s.capList (s.data ⟨cspace, index⟩).object).erase ⟨cspace, index⟩ = []
      · simp [he]
      · simp [he]
    · simp only [ho, false_and, if_false]
      split
      · exact update_of_ne (Ne.symm ho) _ _
      · rfl
  | revoked => simp [cspaceDeleteCap, cspaceLookupCapSlot, hst, cspaceFreeCapSlot]
  | null => simp [cspaceDeleteCap, cspaceLookupCapSlot, hst]

/-- The caps drop their reference to an object only by deleting the last cap on its list. -/
theorem CapInv.put_of_lt (h : CapInv s) (rightsAll : Nat → Nat) (c : CspaceCall) (o : Nat)
    (hlt : s.puts o < (c.run rightsAll s).puts o) :
    ∃ cspace index, c = .deleteCap cspace (some index) ∧ s.capList o = [⟨cspace, index⟩] := by
  cases c with
  | createMasterCap cspace object type found =>
    simp [CspaceCall.run, cspaceCreateMasterCap_puts] at hlt
  | copyCap target parent parentId rightsMask found =>
    simp [CspaceCall.run, cspaceCopyCap_puts] at hlt
  | revokeCaps cspace masterCapId =>
    simp [CspaceCall.run, cspaceRevokeCaps_puts] at hlt
  | deleteCap cspace capId =>
    cases capId with
    | none => exact absurd hlt (Nat.lt_irrefl _)
    | some index =>
      simp only [CspaceCall.run, cspaceDeleteCap_puts] at hlt
      split_ifs at hlt with hcond
      · obtain ⟨hv, ho, he⟩ := hcond
        have hin : ⟨cspace, index⟩ ∈ s.capList o := (h.mem_capList o _).2 ⟨hv, ho⟩
        refine ⟨cspace, index, rfl, ?_⟩
        rcases List.erase_eq_nil_iff.1 he with hnil | hone
        · rw [hnil] at hin
          exact absurd hin List.not_mem_nil
        · exact hone
      · exact absurd hlt (Nat.lt_irrefl _)

end Results

/-! ## The bookkeeping properties over runs -/

/-- The bookkeeping of a state of the capability spaces: (a) the cap list of each object holds
exactly the VALID caps naming it, once each, headed by a VALID master cap; (b) every REVOKED cap is
on the revoked list of the cspace owning its table, with a null object; (c) the caps' reference to
an object has been dropped once exactly when no VALID cap names it any more, and a call drops it
only by deleting the last cap on the object's list; (d) a copied cap has rights within its parent's
at copy time and is not a master cap; (e) revoking through a master cap leaves it the only VALID cap
naming its object. -/
structure CapBookkeeping (rightsAll : Nat → Nat) (s : CspaceState) : Prop where
  capList_nodup : ∀ o, (s.capList o).Nodup
  mem_capList : ∀ o r, r ∈ s.capList o ↔ (s.data r).state = .valid ∧ (s.data r).object = o
  master_head : ∀ r, (s.data r).state = .valid → (s.data r).masterCap = true →
    (s.capList (s.data r).object).head? = some r
  revoked_listed : ∀ r, (s.data r).state = .revoked →
    r ∈ s.revokedCapList r.cspace ∧ (s.data r).object = 0
  puts_le : ∀ o, s.puts o ≤ 1
  puts_eq_one : ∀ o, s.puts o = 1 ↔
    s.mastered o = true ∧ ∀ r, ¬ ((s.data r).state = .valid ∧ (s.data r).object = o)
  put_on_last_delete : ∀ (c : CspaceCall) (o : Nat), s.puts o < (c.run rightsAll s).puts o →
    ∃ cspace index, c = .deleteCap cspace (some index) ∧ s.capList o = [⟨cspace, index⟩]
  copied : ∀ r p, (s.data r).state ≠ .null → s.parentRights r = some p →
    (s.data r).rights &&& p = (s.data r).rights ∧ (s.data r).masterCap = false
  revoke_leaves_master : ∀ cspace index, (cspaceRevokeCaps cspace (some index) s).1 = .ok →
    ∀ r, ((cspaceRevokeCaps cspace (some index) s).2.data r).state = .valid ∧
        ((cspaceRevokeCaps cspace (some index) s).2.data r).object =
          (s.data ⟨cspace, index⟩).object ↔
      r = ⟨cspace, index⟩

theorem CapInv.bookkeeping {rightsAll : Nat → Nat} {s : CspaceState} (h : CapInv s) :
    CapBookkeeping rightsAll s where
  capList_nodup := h.capList_nodup
  mem_capList := h.mem_capList
  master_head := h.master_head
  revoked_listed r hr := ⟨(h.mem_revoked r.cspace r).2 ⟨hr, rfl⟩, h.revoked_object r hr⟩
  puts_le o := by
    rw [h.puts_eq o]
    split <;> simp
  puts_eq_one o := by
    rw [h.puts_eq o, ← h.capList_eq_nil_iff]
    split
    case isTrue hc => exact iff_of_true rfl hc
    case isFalse hc => exact iff_of_false (by decide) hc
  put_on_last_delete := h.put_of_lt rightsAll
  copied := h.copied
  revoke_leaves_master _ _ hok := h.revokeCaps_only_master hok

/-- In every state that a run of the capability operations reaches, the bookkeeping holds. -/
theorem capBookkeeping_of_reachable {rightsAll : Nat → Nat} {s : CspaceState}
    (hs : Reachable rightsAll s) : CapBookkeeping rightsAll s :=
  (capInv_of_reachable hs).bookkeeping

end Gunyah.Cspace

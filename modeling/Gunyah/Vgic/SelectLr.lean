import Gunyah.Error
import Mathlib.Data.List.Basic

set_option autoImplicit false

/-!
# Choosing a list register for a virtual interrupt

A model of `vgic_select_lr` of `hyp/vm/vgic/src/deliver.c`. To deliver a virtual interrupt of a
given priority to a VCPU, the VGIC picks one of the VCPU's list registers (LRs), in this order:
an LR with no interrupt at all; for the current VCPU, the lowest LR that `ICH_ELRSR_EL2` flags as
empty; an LR that is empty (invalid and not waiting for an EOI maintenance interrupt); the active
or pending-and-active LR of the lowest priority (numerically highest); and last the pending LR of
the lowest priority, if that is lower than the priority being delivered.

The last loop finds the active LR with a running maximum, `priority_result_active`, that starts
at 0 and is tested against 0 after the loop to decide whether an active LR was found. Priority 0
is the highest priority and a legal one, so when every active LR has priority 0 the active LR that
the loop chose is dropped: `vgicSelectLr_priority_zero_active` shows that the call then returns a
pending LR or fails with `ERROR_BUSY`, even though an active LR could be used. That is the only
way the code leaves the order: `vgicSelectLr_selects` shows that it chooses as the order says,
stated as `SelectsLr`, whenever some active LR, if there is one, has a nonzero priority. Both rest
on one lemma for the last loop (`selectLoop_cases`) and one for its body (`selectStep_cases`).

A VCPU is given by whether it is the current thread, its `vgic_lrs` (the delivery state pointer
of each LR, `NULL` as `none`, and the LR contents), `ICH_ELRSR_EL2`, and the LR contents that the
hardware returns when the loop reads an LR back. Of an LR, the state, the priority, the `HW` bit
and the `EOI` bit of the software view are read; the interrupt numbers and the group are not.
-/

namespace Gunyah.Vgic

/-- `ICH_LR_EL2_State_t`. -/
inductive IchLrState where
  | invalid
  | pending
  | active
  | pendingActive
  deriving DecidableEq, Repr

/-- The fields of an `ICH_LR_EL2_t` that `vgic_select_lr` reads: `State`, `Priority`, `HW`, and
`EOI` of the software view `ICH_LR_EL2_HW0`. -/
structure IchLr where
  state : IchLrState
  priority : UInt8
  hw : Bool
  eoi : Bool
  deriving DecidableEq, Repr

/-- `vgic_lr_status_t`: the delivery state of the listed VIRQ (`NULL` is `none`) and the LR
contents as last written or read. -/
structure LrStatus where
  dstate : Option Nat
  lr : IchLr
  deriving DecidableEq, Repr

/-- The VCPU as `vgic_select_lr` sees it: whether it is the current thread, its `vgic_lrs`,
`ICH_ELRSR_EL2`, and what `gicv3_read_ich_lr (i)` returns for each LR `i`. -/
structure VcpuLrs where
  toSelf : Bool
  lrs : List LrStatus
  elrsr : UInt64
  hwLr : Nat → IchLr

/-- `GIC_PRIORITY_LOWEST`. -/
def gicPriorityLowest : UInt8 := 0xff

/-- `compiler_ctz (x)` for a nonzero 64-bit `x`: the index of its lowest set bit. -/
def compilerCtz (x : UInt64) : Nat := ((List.range 64).find? fun i => x.toNat.testBit i).getD 64

/-- `vgic_lr_is_empty (lr)`: the LR is invalid, and either HW or not EOI-trapped. -/
def vgicLrIsEmpty (lr : IchLr) : Bool := lr.state == .invalid && (lr.hw || !lr.eoi)

/-- `vgic_read_lr_state (i)` on the current VCPU: an LR written in a valid state is read back
from the hardware. -/
def vgicReadLrState (hwLr : Nat → IchLr) (i : Nat) (status : LrStatus) : LrStatus :=
  if status.lr.state ≠ .invalid then { status with lr := hwLr i } else status

/-- The variables of the last loop of `vgic_select_lr`: `result`, `*lr_priority`,
`result_pending`, `priority_result_active` and `priority_result_pending`. -/
structure SelectAcc where
  result : Except Error Nat
  lrPriority : UInt8
  resultPending : Except Error Nat
  priorityResultActive : UInt8
  priorityResultPending : UInt8
  deriving DecidableEq

/-- The body of the last loop for LR `i` when the LR is not empty, with state `lr.state` and
priority `thisPriority`. An invalid LR waits for EOI maintenance and is left alone. -/
def selectStep (priority : UInt8) (i : Nat) (lr : IchLr) (thisPriority : UInt8)
    (acc : SelectAcc) : SelectAcc :=
  if lr.state = .invalid then acc
  else if lr.state ≠ .pending then
    -- active or pending and active: the lowest priority of those
    if thisPriority ≥ acc.priorityResultActive then
      { acc with
        result := .ok i, lrPriority := gicPriorityLowest, priorityResultActive := thisPriority }
    else acc
  else
    -- pending: the lowest priority of those, if lower than the one delivered
    if thisPriority ≥ acc.priorityResultPending ∧ thisPriority > priority then
      { acc with resultPending := .ok i, priorityResultPending := thisPriority }
    else acc

/-- The last loop of `vgic_select_lr` from LR `i` on: `inl j` when LR `j` is empty (the
`goto out`), `inr acc` after the last LR; and the LRs, with those the loop visited read back
when the VCPU is the current thread. The priority is read before the read-back. -/
def selectLoop (toSelf : Bool) (hwLr : Nat → IchLr) (priority : UInt8) :
    Nat → List LrStatus → SelectAcc → (Nat ⊕ SelectAcc) × List LrStatus
  | _, [], acc => (.inr acc, [])
  | i, status :: rest, acc =>
    let thisPriority := status.lr.priority
    let status := if toSelf then vgicReadLrState hwLr i status else status
    if vgicLrIsEmpty status.lr then (.inl i, status :: rest)
    else
      let r := selectLoop toSelf hwLr priority (i + 1) rest
        (selectStep priority i status.lr thisPriority acc)
      (r.1, status :: r.2)

/-- `vgic_select_lr (vcpu, priority, lr_priority)`: the LR chosen or `ERROR_BUSY`, the value of
`*lr_priority` (`lrPriority` when the call does not write it), and the VCPU's LRs. -/
def vgicSelectLr (v : VcpuLrs) (priority lrPriority : UInt8) :
    Except Error Nat × UInt8 × List LrStatus :=
  -- first look for an LR that has no associated IRQ at all
  match v.lrs.findIdx? fun status => status.dstate.isNone with
  | some i => (.ok i, gicPriorityLowest, v.lrs)
  | none =>
    -- on the current VCPU, LRs that have become empty since they were written
    if v.toSelf ∧ v.elrsr ≠ 0 then (.ok (compilerCtz v.elrsr), gicPriorityLowest, v.lrs)
    else
      let r := selectLoop v.toSelf v.hwLr priority 0 v.lrs
        ⟨.error .busy, lrPriority, .error .busy, 0, 0⟩
      match r.1 with
      | .inl i => (.ok i, gicPriorityLowest, r.2)
      | .inr acc =>
        if acc.priorityResultActive = 0 then
          -- taken to mean that there were no active LRs: the pending choice, if any
          match acc.resultPending with
          | .ok i => (.ok i, acc.priorityResultPending, r.2)
          | .error e => (.error e, acc.lrPriority, r.2)
        else (acc.result, acc.lrPriority, r.2)

/-! ## Positions in a list -/

/-- `i` is the first position of `l` whose element satisfies `p`, which may read the position. -/
def IsFirst {α : Type} (p : Nat → α → Prop) (l : List α) (i : Nat) : Prop :=
  ∃ a, l[i]? = some a ∧ p i a ∧ ∀ j < i, ∀ b, l[j]? = some b → ¬p j b

section IsFirst

variable {α : Type} {p : Nat → α → Prop} {a : α} {l : List α}

theorem IsFirst.zero (h : p 0 a) : IsFirst p (a :: l) 0 :=
  ⟨a, rfl, h, fun j hj => absurd hj (Nat.not_lt_zero j)⟩

theorem IsFirst.succ {k : Nat} (ha : ¬p 0 a) (h : IsFirst (fun j => p (j + 1)) l k) :
    IsFirst p (a :: l) (k + 1) := by
  obtain ⟨b, hb, hpb, hmin⟩ := h
  refine ⟨b, by simpa using hb, hpb, fun j hj c hc => ?_⟩
  cases j with
  | zero =>
    obtain rfl : a = c := Option.some.inj hc
    exact ha
  | succ j => exact hmin j (by omega) c (by simpa using hc)

/-- A position below `n + 1` is below `n`, or is `n` with the element found there. -/
theorem getElem?_of_lt_succ {n k : Nat} {b : α} (ha : l[n]? = some a) (hk : k < n + 1)
    (hb : l[k]? = some b) : k < n ∨ (k = n ∧ b = a) := by
  rcases Nat.lt_succ_iff_lt_or_eq.1 hk with hk | rfl
  · exact .inl hk
  · exact .inr ⟨rfl, Option.some.inj (hb.symm.trans ha)⟩

/-- The position that `List.findIdx?` returns is the first one. -/
theorem isFirst_findIdx {q : α → Bool} {i : Nat} (h : l.findIdx? q = some i) :
    IsFirst (fun _ b => q b = true) l i := by
  obtain ⟨hi, hq, hmin⟩ := List.findIdx?_eq_some_iff_getElem.1 h
  refine ⟨l[i], List.getElem?_eq_getElem hi, hq, fun j hj b hb => ?_⟩
  obtain ⟨hjl, rfl⟩ := List.getElem?_eq_some_iff.1 hb
  exact hmin j hj

end IsFirst

/-! ## The last loop -/

section Loop

variable (toSelf : Bool) (hwLr : Nat → IchLr) (priority : UInt8)

/-- The LR that the body of the last loop tests for LR `i`: on the current VCPU, as read back
from the hardware. -/
def loopLr (i : Nat) (status : LrStatus) : IchLr :=
  (if toSelf then vgicReadLrState hwLr i status else status).lr

theorem selectLoop_fst_cons (i : Nat) (status : LrStatus) (rest : List LrStatus) (acc : SelectAcc) :
    (selectLoop toSelf hwLr priority i (status :: rest) acc).1 =
      if vgicLrIsEmpty (loopLr toSelf hwLr i status) then .inl i
      else (selectLoop toSelf hwLr priority (i + 1) rest
        (selectStep priority i (loopLr toSelf hwLr i status) status.lr.priority acc)).1 := by
  simp only [selectLoop, loopLr]
  exact apply_ite Prod.fst _ _ _

/-- What the last loop does, said once: it stops at the first LR that it finds empty, or it
finds none and runs to the end, with every invariant of the variables that the body keeps on the
LRs that are not empty. A step is the body for LR `i + k`, where `k` is the position in `lrs`. -/
theorem selectLoop_cases (P : Nat → SelectAcc → Prop) :
    ∀ (i : Nat) (lrs : List LrStatus) (acc : SelectAcc), P 0 acc →
      (∀ k st a, lrs[k]? = some st → vgicLrIsEmpty (loopLr toSelf hwLr (i + k) st) = false →
        P k a →
        P (k + 1) (selectStep priority (i + k) (loopLr toSelf hwLr (i + k) st) st.lr.priority a)) →
      (∃ k, IsFirst (fun k st => vgicLrIsEmpty (loopLr toSelf hwLr (i + k) st) = true) lrs k ∧
          (selectLoop toSelf hwLr priority i lrs acc).1 = .inl (i + k)) ∨
        ((∀ k st, lrs[k]? = some st → vgicLrIsEmpty (loopLr toSelf hwLr (i + k) st) = false) ∧
          ∃ acc', (selectLoop toSelf hwLr priority i lrs acc).1 = .inr acc' ∧ P lrs.length acc')
  | _, [], acc, hacc, _ => .inr ⟨(fun _ _ h => nomatch h), acc, rfl, hacc⟩
  | i, status :: rest, acc, hacc, hstep => by
    rw [selectLoop_fst_cons]
    by_cases hemp : vgicLrIsEmpty (loopLr toSelf hwLr i status) = true
    · -- the `goto out` at LR `i`
      exact .inl ⟨0, IsFirst.zero (by simpa using hemp), by simp [hemp]⟩
    have hne : vgicLrIsEmpty (loopLr toSelf hwLr i status) = false := by simpa using hemp
    have hacc' : P 1 (selectStep priority i (loopLr toSelf hwLr i status) status.lr.priority acc) :=
      hstep 0 status acc rfl hne hacc
    -- the loop from `i + 1` on the rest, whose positions are one further on in `status :: rest`
    have hshift : ∀ k, i + 1 + k = i + (k + 1) := fun k => by omega
    rcases selectLoop_cases (fun n a => P (n + 1) a) (i + 1) rest _ hacc'
        (fun k st a hk hemp ha => by
          rw [hshift] at hemp ⊢
          exact hstep (k + 1) st a (by simpa using hk) hemp ha) with
      ⟨k, hfirst, hloop⟩ | ⟨hnone, acc', hloop, hP⟩
    · refine .inl ⟨k + 1, IsFirst.succ (by simpa using hne) ?_, ?_⟩
      · simpa only [hshift] using hfirst
      · simp [hne, hloop, hshift]
    · refine .inr ⟨fun k st hk => ?_, acc', by simp [hne, hloop], hP⟩
      cases k with
      | zero =>
        obtain rfl : status = st := Option.some.inj hk
        simpa using hne
      | succ k => simpa [hshift] using hnone k st (by simpa using hk)

end Loop

/-! ## What one step of the last loop does -/

section Step

variable (priority : UInt8) (k : Nat) (lr : IchLr) (thisPriority : UInt8) (a : SelectAcc)

/-- What the body does, said once: it takes an active or pending-and-active LR whose priority is
at least `priority_result_active` as the result, or a pending LR whose priority is at least
`priority_result_pending` and below the one delivered as the pending choice, or changes
nothing. -/
theorem selectStep_cases :
    ((lr.state = .active ∨ lr.state = .pendingActive) ∧ a.priorityResultActive ≤ thisPriority ∧
      selectStep priority k lr thisPriority a =
        { a with
          result := .ok k, lrPriority := gicPriorityLowest, priorityResultActive := thisPriority }) ∨
    (lr.state = .pending ∧ a.priorityResultPending ≤ thisPriority ∧ priority < thisPriority ∧
      selectStep priority k lr thisPriority a =
        { a with resultPending := .ok k, priorityResultPending := thisPriority }) ∨
    (¬((lr.state = .active ∨ lr.state = .pendingActive) ∧ a.priorityResultActive ≤ thisPriority) ∧
      ¬(lr.state = .pending ∧ a.priorityResultPending ≤ thisPriority ∧ priority < thisPriority) ∧
      selectStep priority k lr thisPriority a = a) := by
  cases hstate : lr.state with
  | invalid => simp [selectStep, hstate]
  | pending =>
    by_cases hsel : a.priorityResultPending ≤ thisPriority ∧ priority < thisPriority
    · exact .inr (.inl ⟨rfl, hsel.1, hsel.2, by simp [selectStep, hstate, hsel]⟩)
    · refine .inr (.inr ⟨by simp, fun h => hsel h.2, ?_⟩)
      simp only [selectStep, hstate]
      simp [hsel]
  | active =>
    by_cases hge : a.priorityResultActive ≤ thisPriority
    · exact .inl ⟨.inl rfl, hge, by simp [selectStep, hstate, hge]⟩
    · exact .inr (.inr ⟨fun h => hge h.2, by simp, by simp [selectStep, hstate, hge]⟩)
  | pendingActive =>
    by_cases hge : a.priorityResultActive ≤ thisPriority
    · exact .inl ⟨.inr rfl, hge, by simp [selectStep, hstate, hge]⟩
    · exact .inr (.inr ⟨fun h => hge h.2, by simp, by simp [selectStep, hstate, hge]⟩)

end Step

/-! ## After the first two searches -/

section Select

variable {v : VcpuLrs} {priority lrPriority : UInt8}
  (hfree : v.lrs.findIdx? (fun status => status.dstate.isNone) = none)
  (hself : ¬(v.toSelf = true ∧ v.elrsr ≠ 0))

include hfree hself

/-- The last loop stopped at LR `i`, which is chosen with the lowest priority. -/
theorem vgicSelectLr_of_inl {i : Nat}
    (hloop : (selectLoop v.toSelf v.hwLr priority 0 v.lrs
      ⟨.error .busy, lrPriority, .error .busy, 0, 0⟩).1 = .inl i) :
    (vgicSelectLr v priority lrPriority).1 = .ok i ∧
      (vgicSelectLr v priority lrPriority).2.1 = gicPriorityLowest := by
  simp [vgicSelectLr, hfree, hself, hloop]

/-- After the last loop, a nonzero `priority_result_active` returns `result` and `*lr_priority`. -/
theorem vgicSelectLr_of_active {acc : SelectAcc}
    (hloop : (selectLoop v.toSelf v.hwLr priority 0 v.lrs
      ⟨.error .busy, lrPriority, .error .busy, 0, 0⟩).1 = .inr acc)
    (hpra : acc.priorityResultActive ≠ 0) :
    (vgicSelectLr v priority lrPriority).1 = acc.result ∧
      (vgicSelectLr v priority lrPriority).2.1 = acc.lrPriority := by
  simp [vgicSelectLr, hfree, hself, hloop, hpra]

/-- After the last loop, a zero `priority_result_active` returns the pending choice, with its
priority when there is one. -/
theorem vgicSelectLr_of_no_active {acc : SelectAcc}
    (hloop : (selectLoop v.toSelf v.hwLr priority 0 v.lrs
      ⟨.error .busy, lrPriority, .error .busy, 0, 0⟩).1 = .inr acc)
    (hpra : acc.priorityResultActive = 0) :
    (vgicSelectLr v priority lrPriority).1 = acc.resultPending ∧
      ∀ j, acc.resultPending = .ok j →
        (vgicSelectLr v priority lrPriority).2.1 = acc.priorityResultPending := by
  simp only [vgicSelectLr, hfree, hself, if_false, hloop, hpra, if_true]
  cases acc.resultPending with
  | ok i => exact ⟨rfl, fun _ _ => rfl⟩
  | error e => exact ⟨rfl, fun _ h => nomatch h⟩

end Select

/-! ## Active LRs of priority 0 -/

/-- When every active or pending-and-active LR has priority 0, a step keeps the running maximum
`priority_result_active` at 0, and `result_pending` at `ERROR_BUSY` or a pending LR; it stays
`ERROR_BUSY` when no pending LR is above the priority delivered. -/
theorem selectStep_priority_zero {lrs : List LrStatus} {priority : UInt8} {pending : Prop}
    (hzero : ∀ st ∈ lrs, st.lr.state = .active ∨ st.lr.state = .pendingActive →
      st.lr.priority = 0)
    (hpending : pending → ∀ st ∈ lrs, st.lr.state = .pending → st.lr.priority ≤ priority)
    {k : Nat} {st : LrStatus} (hk : lrs[k]? = some st) {a : SelectAcc}
    (ha : a.priorityResultActive = 0 ∧
      (∀ j, a.resultPending = .ok j → ∃ st, lrs[j]? = some st ∧ st.lr.state = .pending) ∧
      (pending → a.resultPending = .error .busy)) :
    (selectStep priority k st.lr st.lr.priority a).priorityResultActive = 0 ∧
      (∀ j, (selectStep priority k st.lr st.lr.priority a).resultPending = .ok j →
        ∃ st, lrs[j]? = some st ∧ st.lr.state = .pending) ∧
      (pending → (selectStep priority k st.lr st.lr.priority a).resultPending = .error .busy) := by
  obtain ⟨ha0, hok, hbusy⟩ := ha
  have hmem : st ∈ lrs := List.mem_of_getElem? hk
  rcases selectStep_cases priority k st.lr st.lr.priority a with
    ⟨hact, -, heq⟩ | ⟨hpend, -, hlt, heq⟩ | ⟨-, -, heq⟩ <;> rw [heq]
  · -- an active LR of priority 0 keeps the maximum at 0
    exact ⟨hzero st hmem hact, hok, hbusy⟩
  · -- the pending choice is now LR `k`
    refine ⟨ha0, fun j hj => ?_, fun hp => absurd (hpending hp st hmem hpend) (UInt8.not_le.2 hlt)⟩
    obtain rfl : k = j := Except.ok.inj hj
    exact ⟨st, hk, hpend⟩
  · exact ⟨ha0, hok, hbusy⟩

/-- When every active or pending-and-active LR of a VCPU that is not the current thread has
priority 0, `vgic_select_lr` never chooses one of them, even when all LRs are in use and no LR
is empty: it returns a pending LR, or fails with `ERROR_BUSY` when no pending LR has a priority
below the one delivered. -/
theorem vgicSelectLr_priority_zero_active (v : VcpuLrs) (priority lrPriority : UInt8)
    (hremote : v.toSelf = false) (hlisted : ∀ st ∈ v.lrs, st.dstate.isSome)
    (hnotempty : ∀ st ∈ v.lrs, vgicLrIsEmpty st.lr = false)
    (hzero : ∀ st ∈ v.lrs, st.lr.state = .active ∨ st.lr.state = .pendingActive →
      st.lr.priority = 0) :
    (∀ i, (vgicSelectLr v priority lrPriority).1 = .ok i →
      ∃ st, v.lrs[i]? = some st ∧ st.lr.state = .pending) ∧
    ((∀ st ∈ v.lrs, st.lr.state = .pending → st.lr.priority ≤ priority) →
      (vgicSelectLr v priority lrPriority).1 = .error .busy) := by
  have hfree : v.lrs.findIdx? (fun status => status.dstate.isNone) = none := by
    rw [List.findIdx?_eq_none_iff]
    intro st hst
    simpa [Option.isNone_iff_eq_none, ← Option.isSome_iff_ne_none] using hlisted st hst
  have hself : ¬(v.toSelf = true ∧ v.elrsr ≠ 0) := by simp [hremote]
  -- on a VCPU that is not the current thread the loop tests the LRs as they are
  have hview : ∀ k st, loopLr v.toSelf v.hwLr k st = st.lr := by simp [loopLr, hremote]
  rcases selectLoop_cases v.toSelf v.hwLr priority
      (fun _ a => a.priorityResultActive = 0 ∧
        (∀ j, a.resultPending = .ok j → ∃ st, v.lrs[j]? = some st ∧ st.lr.state = .pending) ∧
        ((∀ st ∈ v.lrs, st.lr.state = .pending → st.lr.priority ≤ priority) →
          a.resultPending = .error .busy))
      0 v.lrs ⟨.error .busy, lrPriority, .error .busy, 0, 0⟩
      ⟨rfl, (fun j h => nomatch h), fun _ => rfl⟩
      (fun k st a hk _ ha => by
        simpa [hview] using selectStep_priority_zero hzero id (by simpa using hk) ha) with
    ⟨i, ⟨st, hst, hemp, -⟩, -⟩ | ⟨-, acc, hloop, hzero', hok, hbusy⟩
  · -- no LR is empty
    rw [hview, hnotempty st (List.mem_of_getElem? hst)] at hemp
    exact absurd hemp Bool.false_ne_true
  -- the loop ends with `priority_result_active = 0`: the pending choice is returned
  have hsel := (vgicSelectLr_of_no_active hfree hself hloop hzero').1
  exact ⟨fun i hi => hok i (hsel ▸ hi), fun hp => hsel.trans (hbusy hp)⟩

/-- Four listed LRs (`CPU_GICH_LR_COUNT` is 4), each holding an active interrupt of priority 0,
on a VCPU that is not the current thread. -/
def allActivePriorityZero : VcpuLrs where
  toSelf := false
  lrs := (List.range 4).map fun i => ⟨some i, ⟨.active, 0, false, false⟩⟩
  elrsr := 0
  hwLr _ := ⟨.invalid, 0, false, false⟩

/-- Every LR holds an active interrupt that could be used, yet delivering an interrupt of priority
`0xa0` fails with `ERROR_BUSY`. -/
theorem vgicSelectLr_all_active_priority_zero :
    (∀ st ∈ allActivePriorityZero.lrs, st.lr.state = .active) ∧
      (vgicSelectLr allActivePriorityZero 0xa0 0).1 = .error .busy :=
  ⟨by decide, (vgicSelectLr_priority_zero_active allActivePriorityZero 0xa0 0 rfl (by decide)
    (by decide) (by decide)).2 (by decide)⟩

/-! ## The documented order

The comment of `vgic_select_lr` documents which LR it chooses; `SelectsLr` states that order, one
rule for each step, over the LRs as the last loop sees them. The code follows it whenever, if an
active or pending-and-active LR is listed, one of them has a nonzero priority
(`vgicSelectLr_selects`); `vgicSelectLr_priority_zero_active` is the case it leaves out. -/

section Order

variable (v : VcpuLrs) (priority : UInt8)

/-- LR `k` of `v`, as the last loop sees it, is active or pending and active. -/
def IsActiveLr (k : Nat) (st : LrStatus) : Prop :=
  (loopLr v.toSelf v.hwLr k st).state = .active ∨
    (loopLr v.toSelf v.hwLr k st).state = .pendingActive

/-- LR `k` of `v`, as the last loop sees it, is pending with a priority lower (numerically
greater) than `priority`. -/
def IsPendingLower (k : Nat) (st : LrStatus) : Prop :=
  (loopLr v.toSelf v.hwLr k st).state = .pending ∧ priority < st.lr.priority

/-- The choices, as the result and the value of `*lr_priority`, that the preference order of
`vgic_select_lr` allows. -/
inductive SelectsLr (v : VcpuLrs) (priority : UInt8) : Except Error Nat → UInt8 → Prop
  /-- the first LR with no interrupt at all -/
  | unlisted {i : Nat} : IsFirst (fun _ st => st.dstate = none) v.lrs i →
      SelectsLr v priority (.ok i) gicPriorityLowest
  /-- on the current VCPU, the lowest LR that `ICH_ELRSR_EL2` flags as empty -/
  | elrsr : (∀ st ∈ v.lrs, st.dstate ≠ none) → v.toSelf = true → v.elrsr ≠ 0 →
      SelectsLr v priority (.ok (compilerCtz v.elrsr)) gicPriorityLowest
  /-- the first empty LR -/
  | empty {i : Nat} : (∀ st ∈ v.lrs, st.dstate ≠ none) → ¬(v.toSelf = true ∧ v.elrsr ≠ 0) →
      IsFirst (fun k st => vgicLrIsEmpty (loopLr v.toSelf v.hwLr k st) = true) v.lrs i →
      SelectsLr v priority (.ok i) gicPriorityLowest
  /-- an active or pending-and-active LR of the lowest priority -/
  | active {i : Nat} {st : LrStatus} : (∀ st ∈ v.lrs, st.dstate ≠ none) →
      ¬(v.toSelf = true ∧ v.elrsr ≠ 0) →
      (∀ k st, v.lrs[k]? = some st → vgicLrIsEmpty (loopLr v.toSelf v.hwLr k st) = false) →
      v.lrs[i]? = some st → IsActiveLr v i st →
      (∀ k st', v.lrs[k]? = some st' → IsActiveLr v k st' → st'.lr.priority ≤ st.lr.priority) →
      SelectsLr v priority (.ok i) gicPriorityLowest
  /-- with no active LR, a pending LR of the lowest priority, if lower than the one delivered -/
  | pending {i : Nat} {st : LrStatus} : (∀ st ∈ v.lrs, st.dstate ≠ none) →
      ¬(v.toSelf = true ∧ v.elrsr ≠ 0) →
      (∀ k st, v.lrs[k]? = some st → vgicLrIsEmpty (loopLr v.toSelf v.hwLr k st) = false) →
      (∀ k st, v.lrs[k]? = some st → ¬IsActiveLr v k st) →
      v.lrs[i]? = some st → IsPendingLower v priority i st →
      (∀ k st', v.lrs[k]? = some st' → IsPendingLower v priority k st' →
        st'.lr.priority ≤ st.lr.priority) →
      SelectsLr v priority (.ok i) st.lr.priority
  /-- otherwise no LR can be used -/
  | busy {lp : UInt8} : (∀ st ∈ v.lrs, st.dstate ≠ none) → ¬(v.toSelf = true ∧ v.elrsr ≠ 0) →
      (∀ k st, v.lrs[k]? = some st → vgicLrIsEmpty (loopLr v.toSelf v.hwLr k st) = false) →
      (∀ k st, v.lrs[k]? = some st → ¬IsActiveLr v k st) →
      (∀ k st, v.lrs[k]? = some st → ¬IsPendingLower v priority k st) →
      SelectsLr v priority (.error .busy) lp

/-- The active part of the loop variables after the first `n` LRs of `v`:
`priority_result_active` is at least the priority of every active LR among them, and it is 0 or
the priority of the active LR that `result` is, with `*lr_priority` the lowest priority. -/
structure ActiveChoice (n : Nat) (a : SelectAcc) : Prop where
  le : ∀ k st, k < n → v.lrs[k]? = some st → IsActiveLr v k st →
    st.lr.priority ≤ a.priorityResultActive
  chosen : a.priorityResultActive = 0 ∨ ∃ j st, v.lrs[j]? = some st ∧ IsActiveLr v j st ∧
    a.result = .ok j ∧ a.lrPriority = gicPriorityLowest ∧ a.priorityResultActive = st.lr.priority

/-- The pending part of the loop variables after the first `n` LRs of `v`:
`priority_result_pending` is at least the priority of every pending LR among them that is lower
than `priority`; either there is no such LR yet and the variables are as they started, or
`result_pending` is one of them, of priority `priority_result_pending`. -/
structure PendingChoice (n : Nat) (a : SelectAcc) : Prop where
  le : ∀ k st, k < n → v.lrs[k]? = some st → IsPendingLower v priority k st →
    st.lr.priority ≤ a.priorityResultPending
  chosen : (a.resultPending = .error .busy ∧ a.priorityResultPending = 0 ∧
      ∀ k st, k < n → v.lrs[k]? = some st → ¬IsPendingLower v priority k st) ∨
    ∃ j st, v.lrs[j]? = some st ∧ IsPendingLower v priority j st ∧ a.resultPending = .ok j ∧
      a.priorityResultPending = st.lr.priority

variable {v priority}

theorem activeChoice_init (lrPriority : UInt8) :
    ActiveChoice v 0 ⟨.error .busy, lrPriority, .error .busy, 0, 0⟩ :=
  ⟨fun _ _ h => absurd h (Nat.not_lt_zero _), .inl rfl⟩

theorem pendingChoice_init (lrPriority : UInt8) :
    PendingChoice v priority 0 ⟨.error .busy, lrPriority, .error .busy, 0, 0⟩ :=
  ⟨fun _ _ h => absurd h (Nat.not_lt_zero _), .inl ⟨rfl, rfl, fun _ _ h => absurd h (Nat.not_lt_zero _)⟩⟩

/-- The body for LR `n` keeps the active part of the variables. -/
theorem ActiveChoice.step {n : Nat} {st : LrStatus} {a : SelectAcc} (hn : v.lrs[n]? = some st)
    (ha : ActiveChoice v n a) :
    ActiveChoice v (n + 1)
      (selectStep priority n (loopLr v.toSelf v.hwLr n st) st.lr.priority a) := by
  rcases selectStep_cases priority n (loopLr v.toSelf v.hwLr n st) st.lr.priority a with
    ⟨hact, hle, heq⟩ | ⟨hpend, -, -, heq⟩ | ⟨hnot, -, heq⟩ <;> rw [heq]
  · -- LR `n` is the new result
    refine ⟨fun k st' hk hst' hact' => ?_, .inr ⟨n, st, hn, hact, rfl, rfl, rfl⟩⟩
    rcases getElem?_of_lt_succ hn hk hst' with hk | ⟨rfl, rfl⟩
    · exact UInt8.le_trans (ha.le k st' hk hst' hact') hle
    · exact UInt8.le_refl _
  · -- a pending LR leaves the active part alone
    refine ⟨fun k st' hk hst' hact' => ?_, ha.chosen⟩
    rcases getElem?_of_lt_succ hn hk hst' with hk | ⟨rfl, rfl⟩
    · exact ha.le k st' hk hst' hact'
    · rcases hact' with h | h <;> simp [hpend] at h
  · -- an active LR that is not taken has a priority below the maximum
    refine ⟨fun k st' hk hst' hact' => ?_, ha.chosen⟩
    rcases getElem?_of_lt_succ hn hk hst' with hk | ⟨rfl, rfl⟩
    · exact ha.le k st' hk hst' hact'
    · exact UInt8.le_of_lt (UInt8.not_le.1 fun h => hnot ⟨hact', h⟩)

/-- The body for LR `n` keeps the pending part of the variables. -/
theorem PendingChoice.step {n : Nat} {st : LrStatus} {a : SelectAcc} (hn : v.lrs[n]? = some st)
    (ha : PendingChoice v priority n a) :
    PendingChoice v priority (n + 1)
      (selectStep priority n (loopLr v.toSelf v.hwLr n st) st.lr.priority a) := by
  rcases selectStep_cases priority n (loopLr v.toSelf v.hwLr n st) st.lr.priority a with
    ⟨hact, -, heq⟩ | ⟨hpend, hle, hlt, heq⟩ | ⟨-, hnot, heq⟩ <;> rw [heq]
  · -- an active LR is not pending, and leaves the pending part alone
    have hnp : ¬IsPendingLower v priority n st := fun h => by
      rcases hact with h' | h' <;> simp [IsPendingLower, h'] at h
    refine ⟨fun k st' hk hst' hp => ?_, ?_⟩
    · rcases getElem?_of_lt_succ hn hk hst' with hk | ⟨rfl, rfl⟩
      · exact ha.le k st' hk hst' hp
      · exact absurd hp hnp
    · rcases ha.chosen with ⟨hbusy, hzero, hnone⟩ | h
      · refine .inl ⟨hbusy, hzero, fun k st' hk hst' => ?_⟩
        rcases getElem?_of_lt_succ hn hk hst' with hk | ⟨rfl, rfl⟩
        · exact hnone k st' hk hst'
        · exact hnp
      · exact .inr h
  · -- LR `n` is the new pending choice
    refine ⟨fun k st' hk hst' hp => ?_, .inr ⟨n, st, hn, ⟨hpend, hlt⟩, rfl, rfl⟩⟩
    rcases getElem?_of_lt_succ hn hk hst' with hk | ⟨rfl, rfl⟩
    · exact UInt8.le_trans (ha.le k st' hk hst' hp) hle
    · exact UInt8.le_refl _
  · -- a pending LR below `priority` that is not taken has a priority below the maximum, so it
    -- is not the first one
    have hbelow : IsPendingLower v priority n st → st.lr.priority < a.priorityResultPending :=
      fun h => UInt8.not_le.1 fun hle => hnot ⟨h.1, hle, h.2⟩
    refine ⟨fun k st' hk hst' hp => ?_, ?_⟩
    · rcases getElem?_of_lt_succ hn hk hst' with hk | ⟨rfl, rfl⟩
      · exact ha.le k st' hk hst' hp
      · exact UInt8.le_of_lt (hbelow hp)
    · rcases ha.chosen with ⟨hbusy, hzero, hnone⟩ | h
      · refine .inl ⟨hbusy, hzero, fun k st' hk hst' hp => ?_⟩
        rcases getElem?_of_lt_succ hn hk hst' with hk | ⟨rfl, rfl⟩
        · exact hnone k st' hk hst' hp
        · exact UInt8.not_lt_zero (hzero ▸ hbelow hp)
      · exact .inr h

/-- `vgic_select_lr` chooses as its comment documents, on every VCPU and for every priority, when
an active or pending-and-active LR, if there is one, has a nonzero priority: the first LR with no
interrupt, then on the current VCPU the LR that `ICH_ELRSR_EL2` flags, then the first empty LR,
then an active LR of the lowest priority, then a pending LR of the lowest priority if lower than
the one delivered, and otherwise `ERROR_BUSY`. -/
theorem vgicSelectLr_selects (v : VcpuLrs) (priority lrPriority : UInt8)
    (hactive : (∃ k st, v.lrs[k]? = some st ∧ IsActiveLr v k st) →
      ∃ k st, v.lrs[k]? = some st ∧ IsActiveLr v k st ∧ st.lr.priority ≠ 0) :
    SelectsLr v priority (vgicSelectLr v priority lrPriority).1
      (vgicSelectLr v priority lrPriority).2.1 := by
  cases hfree : v.lrs.findIdx? (fun status => status.dstate.isNone) with
  | some i =>
    -- an LR with no interrupt
    have h : vgicSelectLr v priority lrPriority = (.ok i, gicPriorityLowest, v.lrs) := by
      simp [vgicSelectLr, hfree]
    rw [h]
    exact .unlisted (by simpa using isFirst_findIdx hfree)
  | none =>
  have hlisted : ∀ st ∈ v.lrs, st.dstate ≠ none := by
    intro st hst
    exact Option.isSome_iff_ne_none.1 (by simpa using List.findIdx?_eq_none_iff.1 hfree st hst)
  by_cases hself : v.toSelf = true ∧ v.elrsr ≠ 0
  · -- the LR that `ICH_ELRSR_EL2` flags
    have h : vgicSelectLr v priority lrPriority =
        (.ok (compilerCtz v.elrsr), gicPriorityLowest, v.lrs) := by
      simp [vgicSelectLr, hfree, hself]
    rw [h]
    exact .elrsr hlisted hself.1 hself.2
  rcases selectLoop_cases v.toSelf v.hwLr priority
      (fun n a => ActiveChoice v n a ∧ PendingChoice v priority n a) 0 v.lrs
      ⟨.error .busy, lrPriority, .error .busy, 0, 0⟩
      ⟨activeChoice_init lrPriority, pendingChoice_init lrPriority⟩
      (fun k st a hk _ ha => by
        rw [Nat.zero_add]
        exact ⟨ha.1.step hk, ha.2.step hk⟩) with
    ⟨i, hfirst, hloop⟩ | ⟨hnone, acc, hloop, hact, hpend⟩
  · -- the first empty LR
    obtain ⟨h1, h2⟩ := vgicSelectLr_of_inl hfree hself hloop
    rw [h1, h2]
    exact .empty hlisted hself (by simpa using hfirst)
  have hnone : ∀ k st, v.lrs[k]? = some st →
      vgicLrIsEmpty (loopLr v.toSelf v.hwLr k st) = false := by simpa using hnone
  have hlen : ∀ {k st}, v.lrs[k]? = some st → k < v.lrs.length := fun hk =>
    (List.getElem?_eq_some_iff.1 hk).1
  by_cases hpra : acc.priorityResultActive = 0
  · -- every active LR has priority 0, so there is none: the pending choice
    have hnoact : ∀ k st, v.lrs[k]? = some st → ¬IsActiveLr v k st := by
      intro k st hk hisact
      obtain ⟨k', st', hk', hisact', hne⟩ := hactive ⟨k, st, hk, hisact⟩
      have hle := hact.le k' st' (hlen hk') hk' hisact'
      rw [hpra] at hle
      exact hne (UInt8.le_zero_iff.1 hle)
    obtain ⟨h1, h2⟩ := vgicSelectLr_of_no_active hfree hself hloop hpra
    rcases hpend.chosen with ⟨hbusy, -, hnopend⟩ | ⟨j, st, hj, hlow, hok, hprp⟩
    · rw [h1, hbusy]
      exact .busy hlisted hself hnone hnoact
        (fun k st hk => hnopend k st (hlen hk) hk)
    · rw [h1, hok, h2 j hok, hprp]
      exact .pending hlisted hself hnone hnoact hj hlow fun k st' hk hp =>
        hprp ▸ hpend.le k st' (hlen hk) hk hp
  · -- the active LR of the lowest priority
    obtain ⟨h1, h2⟩ := vgicSelectLr_of_active hfree hself hloop hpra
    rcases hact.chosen with h0 | ⟨j, st, hj, hisact, hok, hlp, hpra'⟩
    · exact absurd h0 hpra
    · rw [h1, h2, hok, hlp]
      exact .active hlisted hself hnone hj hisact fun k st' hk h =>
        hpra' ▸ hact.le k st' (hlen hk) hk h

/-- Four listed LRs on a VCPU that is not the current thread: pending at `0xc0`, active at
`0x20`, pending and active at `0x40`, and pending at `0x80`. -/
def mixedLrs : VcpuLrs where
  toSelf := false
  lrs := [⟨some 0, ⟨.pending, 0xc0, false, false⟩⟩, ⟨some 1, ⟨.active, 0x20, false, false⟩⟩,
    ⟨some 2, ⟨.pendingActive, 0x40, false, false⟩⟩, ⟨some 3, ⟨.pending, 0x80, false, false⟩⟩]
  elrsr := 0
  hwLr _ := ⟨.invalid, 0, false, false⟩

/-- Delivering priority `0xa0` takes LR 2, the active LR of the lowest priority, as documented. -/
theorem vgicSelectLr_selects_mixed :
    (vgicSelectLr mixedLrs 0xa0 0).1 = .ok 2 ∧
      SelectsLr mixedLrs 0xa0 (vgicSelectLr mixedLrs 0xa0 0).1
        (vgicSelectLr mixedLrs 0xa0 0).2.1 :=
  ⟨rfl, vgicSelectLr_selects mixedLrs 0xa0 0 fun _ => ⟨2, _, rfl, Or.inr rfl, by decide⟩⟩

end Order

end Gunyah.Vgic

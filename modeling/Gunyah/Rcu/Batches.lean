import Mathlib.Algebra.BigOperators.Group.Finset.Basic
import Mathlib.Data.Fintype.Card
import Gunyah.Rcu.Invariant
import Gunyah.Lib.Count

set_option autoImplicit false

/-!
# The batches and counts of the RCU bitmap

Where the queued entries are, and what the counts say about them. An entry queued by
`rcu_enqueue` stays in the batches of its CPU until `rcu_bitmap_update` runs its handler; no step
drops an entry or runs a handler twice. Over every run, the handlers that ran and the entries still
pending are exactly the entries queued, counted with multiplicity (`handledRun_add_pendingAll`).
A CPU's batches move down one place only once its ready batch is empty, which the invariant of the
safety proof provides (`RcuInv.ready_updates`); otherwise the advance would drop the ready batch.

`rcu_state.waiter_count` counts the CPUs with pending updates: `rcu_enqueue` increments it when a
CPU's `update_count` leaves zero, and `rcu_bitmap_update` decrements it when that count returns to
zero. Both are `count_t` and wrap around at `2 ^ 32`. `RcuCount` states that each CPU's
`update_count` is the number of its pending entries and `waiter_count` the number of CPUs where
that is not zero. It holds along every run in which no CPU has `2 ^ 32` entries pending at once
(`RcuCall.Bounded`, `rcuCount_runCalls`), and fails without that bound (`enqueues_state`).

Every handler is a `BatchStep`: the entries it runs leave the batches, nothing else does, and the
counts stay exact. The handlers are composed of `rcu_bitmap_update` and of moves that keep every
CPU's pending entries (`KeepsBatches`), so each of their lemmas is a composition of those two.
-/

namespace Gunyah.Rcu

open FixedWidth Function Count

/-- The CPUs whose `update_count` is not zero. -/
def waitingCpus (s : RcuState) : Finset Cpu := Finset.univ.filter fun c => s.updateCount c ≠ 0

/-- The entries pending on all CPUs. -/
def pendingAll (s : RcuState) : Multiset Nat := ∑ c, (pending s c : Multiset Nat)

/-- The entries a step queues. -/
def RcuCall.queued : RcuCall → List Nat
  | .enqueue _ entry => [entry]
  | _ => []

/-- The entries whose handlers a sequence of steps runs, in order. -/
def handledRun : RcuState → List RcuCall → List Nat
  | _, [] => []
  | s, c :: cs => (c.run s).2 ++ handledRun (c.run s).1 cs

/-- What the callers must keep for the counts to stay exact: an enqueue leaves fewer than
`2 ^ 32` entries pending on its CPU. -/
def RcuCall.Bounded (s : RcuState) : RcuCall → Prop
  | .enqueue cpu _ => (pending s cpu).length + 1 < 2 ^ 32
  | _ => True

/-! ## Sums and counts over the CPUs -/

section Sums

variable {ι : Type} [Fintype ι] [DecidableEq ι]

theorem filter_update_ne_zero (f : ι → Nat) (i : ι) (v : Nat) :
    Finset.univ.filter (fun j => update f i v j ≠ 0) =
      if v = 0 then (Finset.univ.filter fun j => f j ≠ 0).erase i
      else insert i (Finset.univ.filter fun j => f j ≠ 0) := by
  ext j
  by_cases hj : j = i
  · subst hj
    split_ifs with hv <;> simp [hv]
  · split_ifs <;> simp [hj]

/-- Setting one value changes the number of non-zero values by whether it was, and is, zero. -/
theorem card_filter_update (f : ι → Nat) (i : ι) (v : Nat) :
    (Finset.univ.filter fun j => update f i v j ≠ 0).card + (if f i = 0 then 0 else 1) =
      (Finset.univ.filter fun j => f j ≠ 0).card + (if v = 0 then 0 else 1) := by
  have hmem : i ∈ Finset.univ.filter (fun j => f j ≠ 0) ↔ f i ≠ 0 := by simp
  rw [filter_update_ne_zero]
  by_cases hv : v = 0 <;> by_cases hf : f i = 0 <;> simp only [hv, hf, if_true, if_false]
  · rw [Finset.erase_eq_of_notMem (by simpa [hmem] using hf)]
  · exact Finset.card_erase_add_one (hmem.2 hf)
  · rw [Finset.card_insert_of_notMem (by simpa [hmem] using hf)]
  · rw [Finset.insert_eq_of_mem (hmem.2 hf)]

end Sums

@[simp] theorem length_pending (s : RcuState) (c : Cpu) :
    (pending s c).length =
      (s.readyBatch c).length + (s.waitingBatch c).length + (s.nextBatch c).length := by
  simp only [pending, List.length_append]

theorem coe_pending (s : RcuState) (c : Cpu) :
    (pending s c : Multiset Nat) = s.readyBatch c + s.waitingBatch c + s.nextBatch c := by
  simp only [pending, Multiset.coe_add]

/-- The entries pending after a step that changes only the batches of `cpu`. -/
theorem pendingAll_add_of_eq_off {s s' : RcuState} (cpu : Cpu)
    (h : ∀ c ≠ cpu, pending s' c = pending s c) :
    pendingAll s' + pending s cpu = pendingAll s + pending s' cpu := by
  unfold pendingAll
  exact sum_add_of_eq_off (f := fun c => (pending s c : Multiset Nat))
    (g := fun c => (pending s' c : Multiset Nat)) cpu fun c hc => by rw [h c hc]

@[simp] theorem readyUpdates_activate {cpu : Cpu} {s : RcuState} :
    (rcuBitmapActivateCpu cpu s).readyUpdates = s.readyUpdates := by
  unfold rcuBitmapActivateCpu
  split <;> rfl

/-! ## Exact counts -/

/-- Each CPU's `update_count` is the number of its pending entries, below `2 ^ 32`, and
`waiter_count` is the number of CPUs where it is not zero. -/
structure RcuCount (s : RcuState) : Prop where
  count_eq : ∀ c, s.updateCount c = (pending s c).length
  count_lt : ∀ c, (pending s c).length < 2 ^ 32
  waiter_eq : s.waiterCount = (waitingCpus s).card

theorem rcuCount_init : RcuCount RcuState.init where
  count_eq _ := rfl
  count_lt _ := Nat.two_pow_pos 32
  waiter_eq := by simp [waitingCpus, RcuState.init]

section Count

variable {s s' : RcuState} {cpu : Cpu}

theorem RcuCount.waiter_le (h : RcuCount s) : s.waiterCount ≤ 32 := by
  rw [h.waiter_eq]
  calc (waitingCpus s).card ≤ Fintype.card Cpu := Finset.card_le_univ _
    _ = 32 := Fintype.card_fin 32

theorem RcuCount.waiter_pos (h : RcuCount s) (hc : s.updateCount cpu ≠ 0) : 0 < s.waiterCount := by
  rw [h.waiter_eq]
  exact Finset.card_pos.2 ⟨cpu, by simp [waitingCpus, hc]⟩

/-- The counts after a step that changes the pending entries of one CPU and sets its
`update_count` to their number: `waiter_count` moves by whether that number was, and is, zero. -/
theorem RcuCount.change (cpu : Cpu) (h : RcuCount s)
    (hpend : ∀ c ≠ cpu, pending s' c = pending s c)
    (hlt : (pending s' cpu).length < 2 ^ 32)
    (hcount : s'.updateCount = update s.updateCount cpu (pending s' cpu).length)
    (hwaiter : s'.waiterCount + (if s.updateCount cpu = 0 then 0 else 1) =
      s.waiterCount + (if (pending s' cpu).length = 0 then 0 else 1)) : RcuCount s' where
  count_eq c := by
    rw [hcount]
    by_cases hc : c = cpu
    · subst hc
      rw [update_self]
    · rw [update_of_ne hc, hpend c hc]
      exact h.count_eq c
  count_lt c := by
    by_cases hc : c = cpu
    · subst hc
      exact hlt
    · rw [hpend c hc]
      exact h.count_lt c
  waiter_eq := by
    have hcard := card_filter_update s.updateCount cpu (pending s' cpu).length
    rw [← hcount] at hcard
    have hw := h.waiter_eq
    unfold waitingCpus at hw ⊢
    split_ifs at hcard hwaiter <;> omega

theorem pending_rcuEnqueue_of_ne {entry : Nat} {c : Cpu} (hc : c ≠ cpu) :
    pending (rcuEnqueue cpu entry s) c = pending s c := by
  simp only [rcuEnqueue_eq, pending, update_of_ne hc]

theorem length_pending_rcuEnqueue {entry : Nat} :
    (pending (rcuEnqueue cpu entry s) cpu).length = (pending s cpu).length + 1 := by
  simp only [rcuEnqueue_eq, length_pending, update_self, List.length_cons]
  omega

/-- `rcu_enqueue` counts the new entry, and its CPU as a waiter if it had none. -/
theorem rcuCount_enqueue {entry : Nat} (h : RcuCount s) (hb : (pending s cpu).length + 1 < 2 ^ 32) :
    RcuCount (rcuEnqueue cpu entry s) := by
  have hle := h.waiter_le
  have hcount := h.count_eq cpu
  refine h.change cpu (fun c hc => pending_rcuEnqueue_of_ne hc) ?_ ?_ ?_
  · rw [length_pending_rcuEnqueue]
    exact hb
  · rw [length_pending_rcuEnqueue]
    simp only [rcuEnqueue_eq]
    rw [hcount, add_of_lt hb]
  · rw [length_pending_rcuEnqueue]
    simp only [rcuEnqueue_eq, Nat.add_one_ne_zero, if_false]
    split_ifs with h0
    · rw [add_of_lt (by omega)]
    · rfl

/-! ## Steps on the batches -/

/-- A step that leaves every CPU's pending entries, up to order, and the counts. -/
def KeepsBatches (s s' : RcuState) : Prop :=
  s'.updateCount = s.updateCount ∧ s'.waiterCount = s.waiterCount ∧
    ∀ c, (pending s' c : Multiset Nat) = pending s c

theorem RcuCount.keep (h : RcuCount s) (hk : KeepsBatches s s') : RcuCount s' where
  count_eq c := by
    rw [hk.1, h.count_eq c, ← Multiset.coe_card, ← Multiset.coe_card, hk.2.2 c]
  count_lt c := by
    rw [← Multiset.coe_card, hk.2.2 c, Multiset.coe_card]
    exact h.count_lt c
  waiter_eq := by
    unfold waitingCpus
    rw [hk.2.1, hk.1]
    exact h.waiter_eq

theorem KeepsBatches.trans {t : RcuState} (h₁ : KeepsBatches s t) (h₂ : KeepsBatches t s') :
    KeepsBatches s s' :=
  ⟨h₂.1.trans h₁.1, h₂.2.1.trans h₁.2.1, fun c => (h₂.2.2 c).trans (h₁.2.2 c)⟩

theorem pendingAll_eq_of_keeps (hk : KeepsBatches s s') : pendingAll s' = pendingAll s := by
  simp only [pendingAll, hk.2.2]

/-- What a handler does to the batches: the entries it runs leave them, no other entry does, and
the counts stay exact. -/
structure BatchStep (s s' : RcuState) (ran : List Nat) : Prop where
  conserve : (ran : Multiset Nat) + pendingAll s' = pendingAll s
  count : RcuCount s → RcuCount s'

theorem BatchStep.of_keeps (hk : KeepsBatches s s') : BatchStep s s' [] where
  conserve := by rw [Multiset.coe_nil, zero_add, pendingAll_eq_of_keeps hk]
  count h := h.keep hk

theorem BatchStep.trans {t : RcuState} {ran₁ ran₂ : List Nat} (h₁ : BatchStep s t ran₁)
    (h₂ : BatchStep t s' ran₂) : BatchStep s s' (ran₁ ++ ran₂) where
  conserve := by rw [← Multiset.coe_add, add_assoc, h₂.conserve, h₁.conserve]
  count h := h₂.count (h₁.count h)

theorem keepsBatches_activate : KeepsBatches s (rcuBitmapActivateCpu cpu s) := by
  unfold rcuBitmapActivateCpu
  split <;> exact ⟨rfl, rfl, fun _ => rfl⟩

theorem keepsBatches_requestGracePeriod {g : Nat} :
    KeepsBatches s (rcuBitmapRequestGracePeriod cpu g s) := by
  rw [rcuBitmapRequestGracePeriod_eq]
  exact ⟨rfl, rfl, fun _ => rfl⟩

/-- With the ready batch empty, moving the batches down one place keeps every entry. -/
theorem keepsBatches_advanceBatches (hr : s.readyBatch cpu = []) :
    KeepsBatches s (notifyAdvanceBatches cpu s) := by
  have hrot : ∀ t : RcuState, t.updateCount = s.updateCount → t.waiterCount = s.waiterCount →
      t.readyBatch = update s.readyBatch cpu (s.waitingBatch cpu) →
      t.waitingBatch = update s.waitingBatch cpu (s.nextBatch cpu) →
      t.nextBatch = update s.nextBatch cpu [] → KeepsBatches s t := by
    intro t hu hw hready hwaiting hnext
    refine ⟨hu, hw, fun c => ?_⟩
    rw [coe_pending, coe_pending, hready, hwaiting, hnext]
    by_cases hc : c = cpu
    · subst hc
      simp only [update_self, hr, Multiset.coe_nil, add_zero, zero_add]
    · simp only [update_of_ne hc]
  unfold notifyAdvanceBatches
  dsimp only
  split
  · exact hrot _ rfl rfl rfl rfl rfl
  · refine KeepsBatches.trans ?_ keepsBatches_requestGracePeriod
    exact hrot _ rfl rfl rfl rfl rfl

theorem pending_rcuBitmapUpdate_of_ne {c : Cpu} (hc : c ≠ cpu) :
    pending (rcuBitmapUpdate cpu s).1 c = pending s c := by
  unfold rcuBitmapUpdate
  split
  · rfl
  · dsimp only
    split <;> (try split) <;> simp only [pending, update_of_ne hc]

/-- `rcu_bitmap_update` takes the ready batch out of the batches and off the counts. -/
theorem batchStep_update : BatchStep s (rcuBitmapUpdate cpu s).1 (rcuBitmapUpdate cpu s).2 := by
  cases hu : s.readyUpdates cpu with
  | false =>
    have hs : rcuBitmapUpdate cpu s = (s, []) := by simp [rcuBitmapUpdate, hu]
    rw [hs]
    exact BatchStep.of_keeps ⟨rfl, rfl, fun _ => rfl⟩
  | true =>
    have hran : (rcuBitmapUpdate cpu s).2 = s.readyBatch cpu := by simp [rcuBitmapUpdate, hu]
    have hself : pending (rcuBitmapUpdate cpu s).1 cpu = s.waitingBatch cpu ++ s.nextBatch cpu := by
      simp only [rcuBitmapUpdate_eq hu, pending, update_self, List.nil_append]
    have hpend : ∀ c ≠ cpu, pending (rcuBitmapUpdate cpu s).1 c = pending s c :=
      fun c hc => pending_rcuBitmapUpdate_of_ne hc
    constructor
    case conserve =>
      -- the ready batch leaves the pending entries of `cpu`, and nothing else changes
      have h := pendingAll_add_of_eq_off cpu hpend
      rw [hself, coe_pending, ← Multiset.coe_add, add_assoc (s.readyBatch cpu : Multiset Nat)] at h
      rw [hran]
      apply add_right_cancel (b := (s.waitingBatch cpu : Multiset Nat) + s.nextBatch cpu)
      rw [← h, add_comm (s.readyBatch cpu : Multiset Nat), add_assoc]
    case count =>
      intro h
      have hle := h.count_eq cpu
      have hlt := h.count_lt cpu
      have hwle := h.waiter_le
      have hpos : s.updateCount cpu ≠ 0 → 0 < s.waiterCount := h.waiter_pos
      simp only [length_pending] at hle hlt
      have hk : (s.readyBatch cpu).length % 2 ^ 32 = (s.readyBatch cpu).length :=
        Nat.mod_eq_of_lt (by omega)
      refine h.change cpu hpend ?_ ?_ ?_
      · rw [hself, List.length_append]
        omega
      · rw [hself, List.length_append]
        simp only [rcuBitmapUpdate_eq hu, hk]
        split_ifs with h0
        · -- an empty ready batch leaves the count alone
          have hc : (s.waitingBatch cpu).length + (s.nextBatch cpu).length = s.updateCount cpu := by
            omega
          rw [hc, update_eq_self]
        · rw [sub_of_le (by omega) (by omega), hle]
          congr 1
          omega
      · rw [hself, List.length_append]
        simp only [rcuBitmapUpdate_eq hu, hk]
        split_ifs <;> first
          | omega
          | (rw [sub_of_le (by omega) (by omega)]; omega)

theorem batchStep_processReady :
    BatchStep s (notifyProcessReady cpu s).1 (notifyProcessReady cpu s).2 := by
  unfold notifyProcessReady
  split
  · exact batchStep_update
  · exact BatchStep.of_keeps ⟨rfl, rfl, fun _ => rfl⟩

/-- After the start of `rcu_bitmap_notify` the ready batch is empty: it was processed, or it was
empty already, which `ready_updates` says. -/
theorem readyBatch_processReady (hr : s.readyBatch cpu ≠ [] → s.readyUpdates cpu = true) :
    (notifyProcessReady cpu s).1.readyBatch cpu = [] := by
  unfold notifyProcessReady
  split
  case isTrue hu =>
    rw [rcuBitmapUpdate_eq hu]
    exact update_self cpu [] s.readyBatch
  case isFalse hu =>
    by_contra hne
    exact hu (hr hne)

section Handlers

/- The handlers below need the ready batch of their CPU to be flagged (`hr`), as `RcuInv`
guarantees; it is what lets `rcu_bitmap_notify` advance the batches without dropping one. -/
variable (hr : s.readyBatch cpu ≠ [] → s.readyUpdates cpu = true)
include hr

theorem batchStep_notify : BatchStep s (rcuBitmapNotify cpu s).1 (rcuBitmapNotify cpu s).2 := by
  unfold rcuBitmapNotify
  split
  · exact BatchStep.of_keeps ⟨rfl, rfl, fun _ => rfl⟩
  · dsimp only
    split
    · exact batchStep_processReady
    · -- the advance runs no handler
      rw [← List.append_nil (notifyProcessReady cpu s).2]
      exact batchStep_processReady.trans
        (BatchStep.of_keeps (keepsBatches_advanceBatches (readyBatch_processReady hr)))

theorem batchStep_quiesce : BatchStep s (rcuBitmapQuiesce cpu s).1 (rcuBitmapQuiesce cpu s).2 := by
  unfold rcuBitmapQuiesce
  dsimp only
  split
  · exact BatchStep.of_keeps ⟨rfl, rfl, fun _ => rfl⟩
  · split
    · -- a new grace period starts, which moves no entry
      rw [← List.nil_append (rcuBitmapNotify cpu _).2]
      refine BatchStep.trans ?_ (batchStep_notify ?_)
      · exact BatchStep.of_keeps ⟨rfl, rfl, fun _ => rfl⟩
      · exact hr
    · exact BatchStep.of_keeps ⟨rfl, rfl, fun _ => rfl⟩

theorem batchStep_deactivate :
    BatchStep s (rcuBitmapDeactivateCpu cpu s).1 (rcuBitmapDeactivateCpu cpu s).2 := by
  rw [rcuBitmapDeactivateCpu, ← List.nil_append (rcuBitmapQuiesce cpu _).2]
  refine BatchStep.trans ?_ (batchStep_quiesce ?_)
  · exact BatchStep.of_keeps ⟨rfl, rfl, fun _ => rfl⟩
  · exact hr

theorem batchStep_deactivateIfRunning :
    BatchStep s (rcuBitmapDeactivateIfRunning cpu s).1 (rcuBitmapDeactivateIfRunning cpu s).2 := by
  unfold rcuBitmapDeactivateIfRunning
  split
  · exact batchStep_deactivate hr
  · exact BatchStep.of_keeps ⟨rfl, rfl, fun _ => rfl⟩

theorem batchStep_powerCpuSuspend :
    BatchStep s (rcuBitmapHandlePowerCpuSuspend cpu s).2.1
      (rcuBitmapHandlePowerCpuSuspend cpu s).2.2 := by
  unfold rcuBitmapHandlePowerCpuSuspend
  split
  · exact BatchStep.of_keeps ⟨rfl, rfl, fun _ => rfl⟩
  · exact batchStep_deactivate hr

theorem batchStep_contextSwitchPre {idle : Bool} :
    BatchStep s (rcuBitmapHandleThreadContextSwitchPre cpu idle s).1
      (rcuBitmapHandleThreadContextSwitchPre cpu idle s).2 := by
  have hquiesce : ∀ t : RcuState, KeepsBatches s t →
      (t.readyBatch cpu ≠ [] → t.readyUpdates cpu = true) →
      BatchStep s (if rcuBitmapShouldRun t = true then rcuBitmapQuiesce cpu t else (t, [])).1
        (if rcuBitmapShouldRun t = true then rcuBitmapQuiesce cpu t else (t, [])).2 := by
    intro t hk ht
    split
    · rw [← List.nil_append (rcuBitmapQuiesce cpu t).2]
      exact (BatchStep.of_keeps hk).trans (batchStep_quiesce ht)
    · exact BatchStep.of_keeps hk
  cases idle with
  | true =>
    -- activation leaves the batches and their flags
    refine hquiesce _ keepsBatches_activate ?_
    show (rcuBitmapActivateCpu cpu s).readyBatch cpu ≠ [] →
      (rcuBitmapActivateCpu cpu s).readyUpdates cpu = true
    rw [readyBatch_activate, readyUpdates_activate]
    exact hr
  | false => exact hquiesce s ⟨rfl, rfl, fun _ => rfl⟩ hr

end Handlers

end Count

/-! ## Runs -/

section Runs

variable {s : RcuState} {c : RcuCall}

/-- Every step other than an enqueue is a step on the batches. -/
theorem batchStep_run (hi : RcuInv s) (hq : c.queued = []) :
    BatchStep s (c.run s).1 (c.run s).2 := by
  cases c with
  | readStart cpu | readFinish cpu => exact BatchStep.of_keeps ⟨rfl, rfl, fun _ => rfl⟩
  | enqueue cpu entry => cases hq
  | threadEntryFromUser cpu | preemptInterrupt cpu | powerCpuOnline cpu | vcpuBlockFinish cpu =>
    exact BatchStep.of_keeps keepsBatches_activate
  | threadContextSwitchPre cpu idle => exact batchStep_contextSwitchPre (hi.ready_updates cpu)
  | idleYield cpu | threadExitToUser cpu =>
    exact batchStep_deactivateIfRunning (hi.ready_updates cpu)
  | powerCpuSuspend cpu => exact batchStep_powerCpuSuspend (hi.ready_updates cpu)
  | powerCpuOffline cpu => exact batchStep_deactivate (hi.ready_updates cpu)
  | schedulerQuiescent cpu | quiesceIpi cpu => exact batchStep_quiesce (hi.ready_updates cpu)
  | notifyIpi cpu => exact batchStep_notify (hi.ready_updates cpu)
  | updateIpi cpu => exact batchStep_update

/-- `rcu_enqueue` adds its entry to the pending ones. -/
theorem pendingAll_rcuEnqueue {cpu : Cpu} {entry : Nat} :
    pendingAll (rcuEnqueue cpu entry s) = pendingAll s + {entry} := by
  have hself : (pending (rcuEnqueue cpu entry s) cpu : Multiset Nat) = entry ::ₘ pending s cpu := by
    simp only [rcuEnqueue_eq, coe_pending, update_self, ← Multiset.cons_coe, Multiset.add_cons]
  have h : pendingAll (rcuEnqueue cpu entry s) + pending s cpu =
      pendingAll s + pending (rcuEnqueue cpu entry s) cpu :=
    pendingAll_add_of_eq_off cpu fun c hc => pending_rcuEnqueue_of_ne hc
  rw [hself] at h
  apply add_right_cancel (b := (pending s cpu : Multiset Nat))
  rw [h, add_assoc, Multiset.singleton_add]

/-- Over one step, the entries whose handlers ran and the entries pending after it are those
pending before it and the one it queues. -/
theorem pendingAll_run (hi : RcuInv s) :
    ((c.run s).2 : Multiset Nat) + pendingAll (c.run s).1 = pendingAll s + c.queued := by
  cases c with
  | enqueue cpu entry =>
    simp only [RcuCall.run, RcuCall.queued, Multiset.coe_nil, zero_add, pendingAll_rcuEnqueue]
    rfl
  | _ =>
    rw [(batchStep_run hi rfl).conserve]
    simp only [RcuCall.queued, Multiset.coe_nil, add_zero]

/-- Every step with an enqueue bounded as `RcuCall.Bounded` says keeps the counts exact. -/
theorem rcuCount_run (hi : RcuInv s) (h : RcuCount s) (hb : c.Bounded s) :
    RcuCount (c.run s).1 := by
  cases c with
  | enqueue cpu entry => exact rcuCount_enqueue h hb
  | _ => exact (batchStep_run hi rfl).count h

variable {allowed : RcuState → RcuCall → Prop}

/-- The entries whose handlers a run ran, with the entries pending at its end, are those pending at
its start and those it queued. Induction on the run, with `pendingAll_run` at each step. -/
theorem handledRun_add_pendingAll (hallowed : ∀ s c, allowed s c → c.Allowed s) :
    ∀ {s : RcuState} {cs : List RcuCall}, Valid allowed s cs → RcuInv s →
      (handledRun s cs : Multiset Nat) + pendingAll (runCalls s cs) =
        pendingAll s + (cs.flatMap RcuCall.queued : List Nat)
  | _, [], _, _ => by simp [handledRun, runCalls]
  | s, c :: cs, hv, hi => by
    have ih := handledRun_add_pendingAll hallowed hv.2 (rcuInv_run hi (hallowed _ _ hv.1))
    simp only [handledRun, runCalls, List.flatMap_cons, ← Multiset.coe_add]
    rw [add_assoc, ih, ← add_assoc, pendingAll_run hi, add_assoc]

/-- The counts stay exact along every run whose enqueues are bounded. -/
theorem rcuCount_runCalls (hallowed : ∀ s c, allowed s c → c.Allowed s ∧ c.Bounded s) :
    ∀ {s : RcuState} {cs : List RcuCall}, Valid allowed s cs → RcuInv s → RcuCount s →
      RcuCount (runCalls s cs)
  | _, [], _, _, h => h
  | s, c :: cs, hv, hi, h => by
    show RcuCount (runCalls (c.run s).1 cs)
    have hc := hallowed _ _ hv.1
    exact rcuCount_runCalls hallowed hv.2 (rcuInv_run hi hc.1) (rcuCount_run hi h hc.2)

end Runs


/-! ## Runs from boot -/

section Boot

variable {cs : List RcuCall}

theorem pendingAll_init : pendingAll RcuState.init = 0 := by
  simp [pendingAll, pending, RcuState.init]

/-- No update is lost or run twice: along every run from boot, the handlers that ran and the
entries still pending are the entries queued, counted with multiplicity. -/
theorem handledRun_add_pendingAll_init (hv : Valid RcuCall.Allowed RcuState.init cs) :
    (handledRun RcuState.init cs : Multiset Nat) + pendingAll (runCalls RcuState.init cs) =
      (cs.flatMap RcuCall.queued : List Nat) := by
  rw [handledRun_add_pendingAll (fun _ _ h => h) hv rcuInv_init, pendingAll_init, zero_add]

/-- A reader on CPU 0 holds up the entry that CPU 1 queues; the handler runs after it leaves. -/
theorem handledRun_add_pendingAll_init_reader :
    Valid RcuCall.Allowed RcuState.init
        [.threadEntryFromUser 0, .readStart 0, .enqueue 1 5, .notifyIpi 1, .quiesceIpi 1,
          .readFinish 0, .quiesceIpi 0, .notifyIpi 1, .updateIpi 1] ∧
      (handledRun RcuState.init
          [.threadEntryFromUser 0, .readStart 0, .enqueue 1 5, .notifyIpi 1, .quiesceIpi 1,
            .readFinish 0, .quiesceIpi 0, .notifyIpi 1, .updateIpi 1] : Multiset Nat) +
        pendingAll (runCalls RcuState.init
          [.threadEntryFromUser 0, .readStart 0, .enqueue 1 5, .notifyIpi 1, .quiesceIpi 1,
            .readFinish 0, .quiesceIpi 0, .notifyIpi 1, .updateIpi 1]) =
        (([.threadEntryFromUser 0, .readStart 0, .enqueue 1 5, .notifyIpi 1, .quiesceIpi 1,
            .readFinish 0, .quiesceIpi 0, .notifyIpi 1, .updateIpi 1] : List RcuCall).flatMap
          RcuCall.queued : List Nat) :=
  ⟨by decide, handledRun_add_pendingAll_init (by decide)⟩

/-- What holds of a run from boot: every handler that runs in it runs after the read-side critical
sections that were open when its entry was queued; and if no enqueue in it leaves `2 ^ 32`
entries pending on a CPU, `waiter_count` is the number of CPUs with pending updates at its end. -/
structure RcuRunOk (cs : List RcuCall) : Prop where
  after_readers : ∀ (pre mid post : List RcuCall) (cpu d : Cpu) (e : Nat) (call : RcuCall),
    cs = pre ++ .enqueue cpu e :: mid ++ call :: post → (∀ c, RcuCall.enqueue c e ∉ mid) →
    e ∈ (call.run (runCalls RcuState.init (pre ++ .enqueue cpu e :: mid))).2 →
    0 < (runCalls RcuState.init pre).readDepth d →
    ∃ k ≤ mid.length, (runCalls RcuState.init (pre ++ .enqueue cpu e :: mid.take k)).readDepth d = 0
  waiter_eq : Valid (fun s c => c.Allowed s ∧ c.Bounded s) RcuState.init cs →
    (runCalls RcuState.init cs).waiterCount = (waitingCpus (runCalls RcuState.init cs)).card

theorem rcuRunOk_of_valid (hv : Valid RcuCall.Allowed RcuState.init cs) : RcuRunOk cs where
  after_readers := by
    rintro pre mid post cpu d e call rfl hmid hrun hd
    exact handler_after_readers (fun _ _ h => h) hv hmid hrun hd
  waiter_eq hb :=
    (rcuCount_runCalls (fun _ _ h => h) hb rcuInv_init rcuCount_init).waiter_eq

theorem rcuRunOk_of_valid_reader :
    Valid RcuCall.Allowed RcuState.init
        [.threadEntryFromUser 0, .readStart 0, .enqueue 1 5, .notifyIpi 1, .quiesceIpi 1,
          .readFinish 0, .quiesceIpi 0, .notifyIpi 1, .updateIpi 1] ∧
      RcuRunOk [.threadEntryFromUser 0, .readStart 0, .enqueue 1 5, .notifyIpi 1, .quiesceIpi 1,
          .readFinish 0, .quiesceIpi 0, .notifyIpi 1, .updateIpi 1] :=
  ⟨by decide, rcuRunOk_of_valid (by decide)⟩

/-- `n` enqueues on CPU 0, of the entries `0`, ..., `n - 1`. -/
def enqueues (n : Nat) : List RcuCall := (List.range' 0 n).map (RcuCall.enqueue 0)

/-- After `n ≤ 2 ^ 32` enqueues on CPU 0 its count is `n` modulo `2 ^ 32`, and the CPU counts as a
waiter from the first one on. Induction on `n`. -/
theorem enqueues_state (n : Nat) (hn : n ≤ 2 ^ 32) :
    Valid RcuCall.Allowed RcuState.init (enqueues n) ∧
      (runCalls RcuState.init (enqueues n)).updateCount = update (fun _ => 0) 0 (n % 2 ^ 32) ∧
      (runCalls RcuState.init (enqueues n)).waiterCount = min n 1 ∧
      ∀ c, ∀ e ∈ pending (runCalls RcuState.init (enqueues n)) c, e < n := by
  induction n with
  | zero => exact ⟨trivial, (update_eq_self 0 _).symm, rfl, fun _ _ he => absurd he List.not_mem_nil⟩
  | succ n ih =>
    obtain ⟨hv, hcount, hwaiter, hlt⟩ := ih (by omega)
    have hsplit : enqueues (n + 1) = enqueues n ++ [.enqueue 0 n] := by
      simp [enqueues, List.range'_concat]
    set s := runCalls RcuState.init (enqueues n)
    have hrun : runCalls RcuState.init (enqueues (n + 1)) = rcuEnqueue 0 n s := by
      rw [hsplit, runCalls_append]
      rfl
    rw [hrun, hsplit, valid_append]
    refine ⟨⟨hv, fun c hc => Nat.lt_irrefl n (hlt c n hc), trivial⟩, ?_, ?_, ?_⟩
    · -- the count goes up by one, modulo `2 ^ 32`
      simp only [rcuEnqueue_eq, hcount, update_idem, update_self, add, Nat.mod_add_mod]
    · -- the CPU becomes a waiter at the first enqueue only
      simp only [rcuEnqueue_eq, hcount, update_self, hwaiter, add, Nat.reducePow]
      split_ifs <;> omega
    · intro c e he
      by_cases hc : c = 0
      · subst hc
        simp only [rcuEnqueue_eq, pending, update_self, List.mem_append, List.mem_cons] at he
        rcases he with (he | he) | rfl | he
        · exact Nat.lt_succ_of_lt (hlt 0 e (by simp [pending, he]))
        · exact Nat.lt_succ_of_lt (hlt 0 e (by simp [pending, he]))
        · exact Nat.lt_succ_self e
        · exact Nat.lt_succ_of_lt (hlt 0 e (by simp [pending, he]))
      · rw [pending_rcuEnqueue_of_ne hc] at he
        exact Nat.lt_succ_of_lt (hlt c e he)

/-- Without a bound on the pending updates the waiter count is not exact: after `2 ^ 32`
enqueues on CPU 0 its `update_count` has wrapped to zero, while `waiter_count` is still one. -/
theorem waiterCount_wraps : ¬ ∀ cs, Valid RcuCall.Allowed RcuState.init cs →
    (runCalls RcuState.init cs).waiterCount = (waitingCpus (runCalls RcuState.init cs)).card := by
  intro hall
  obtain ⟨hv, hcount, hwaiter, -⟩ := enqueues_state (2 ^ 32) le_rfl
  have hnone : waitingCpus (runCalls RcuState.init (enqueues (2 ^ 32))) = ∅ := by
    simp only [waitingCpus, hcount, Nat.mod_self]
    simp
  have h := hall _ hv
  rw [hwaiter, hnone, Finset.card_empty] at h
  simp at h

end Boot

end Gunyah.Rcu

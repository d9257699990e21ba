import Gunyah.Scheduler.System
import Mathlib

set_option autoImplicit false

/-!
# What the shared scheduler functions do

The field lemmas of the state updates of `Gunyah.Scheduler.System`, and for each function that the
operations share, the state it returns once its asserts hold: `add_thread_to_scheduler` puts the
thread on the scheduler of its affinity CPU (`System.enqueue`), `remove_thread_from_scheduler`
takes it off (`System.dequeue`), and `resched_running_thread` changes nothing. The invariant proofs
cite these lemmas and never unfold the functions.

A thread is on CPU `c`'s scheduler (`System.OnCpu`) when it is on one of the CPU's lists or is its
active thread; the run-queue code keeps the running thread of a CPU as its active thread.
-/

namespace Gunyah.Scheduler

open Function

variable {τ β : Type}

namespace System

variable {S : System τ β}

/-! ## `can_be_scheduled` -/

section CanBeScheduled

variable [Fintype β] {cfg : Config τ β} {th th' : ThreadFields τ β}

/-- A thread can be scheduled when each of its block flags is killable and it is killed. -/
theorem canBeScheduled_iff : canBeScheduled cfg th = true ↔
    ∀ b, th.blockBits b = true → th.flags.killed = true ∧ cfg.nonKillable b = false := by
  simp only [canBeScheduled, decide_eq_true_eq, Bool.and_eq_false_iff, Bool.or_eq_false_iff,
    Bool.not_eq_false']
  refine forall_congr' fun b => ?_
  cases th.blockBits b <;> simp

/-- Fewer block flags, or a kill, keep a thread schedulable. -/
theorem canBeScheduled_mono (h : canBeScheduled cfg th = true)
    (hbits : ∀ b, th'.blockBits b = true → th.blockBits b = true)
    (hkilled : th.flags.killed = true → th'.flags.killed = true) : canBeScheduled cfg th' = true := by
  rw [canBeScheduled_iff] at h ⊢
  intro b hb
  obtain ⟨hk, hnk⟩ := h b (hbits b hb)
  exact ⟨hkilled hk, hnk⟩

/-- `can_be_scheduled` reads only the block flags and the killed flag. -/
@[simp] theorem canBeScheduled_mk (a pa aa pc : Nat) (y : Option τ) (i r q n e : Bool) :
    canBeScheduled cfg ⟨th.blockBits, a, pa, aa, pc, y, ⟨i, r, q, n, th.flags.killed, e⟩⟩ =
      canBeScheduled cfg th := rfl

@[simp] theorem canBeScheduled_mk_flags (a pa aa pc : Nat) (y : Option τ) :
    canBeScheduled cfg ⟨th.blockBits, a, pa, aa, pc, y, th.flags⟩ = canBeScheduled cfg th := rfl

/-- A thread with a non-killable block flag set cannot be scheduled. -/
theorem canBeScheduled_of_nonKillable {b : β} (hb : th.blockBits b = true)
    (hnk : cfg.nonKillable b = true) : canBeScheduled cfg th = false := by
  by_contra h
  rw [Bool.not_eq_false, canBeScheduled_iff] at h
  simp [(h b hb).2] at hnk

/-- A thread that is not killed cannot be scheduled with a block flag set. -/
theorem canBeScheduled_of_not_killed {b : β} (hb : th.blockBits b = true)
    (hk : th.flags.killed = false) : canBeScheduled cfg th = false := by
  by_contra h
  rw [Bool.not_eq_false, canBeScheduled_iff] at h
  simp [(h b hb).1] at hk

end CanBeScheduled

/-! ## Fields -/

section Cpu

variable {c d : Nat}

@[simp] theorem withFprr_thread (s : FprrState τ) : (S.withFprr c s).thread = S.thread := rfl
@[simp] theorem withFprr_sched (s : FprrState τ) : (S.withFprr c s).sched = s.thread := rfl
@[simp] theorem withFprr_current (s : FprrState τ) : (S.withFprr c s).current = S.current := rfl
@[simp] theorem withFprr_yieldedFrom (s : FprrState τ) :
    (S.withFprr c s).yieldedFrom = S.yieldedFrom := rfl
@[simp] theorem withFprr_rcuQueued (s : FprrState τ) :
    (S.withFprr c s).rcuQueued = S.rcuQueued := rfl

@[simp] theorem fprr_withFprr_self (s : FprrState τ) : (S.withFprr c s).fprr c = s := by
  simp [fprr, withFprr]

theorem fprr_withFprr_of_ne (s : FprrState τ) (h : d ≠ c) :
    (S.withFprr c s).fprr d = { S.fprr d with thread := s.thread } := by
  simp [fprr, withFprr, h]

/-- Writing back a CPU's scheduler with the threads' fields as they were leaves the other CPUs as
they were. -/
theorem fprr_withFprr_of_thread (s : FprrState τ) (hs : s.thread = S.sched) (h : d ≠ c) :
    (S.withFprr c s).fprr d = S.fprr d := by
  rw [fprr_withFprr_of_ne s h, hs]
  rfl

@[simp] theorem fprr_thread : (S.fprr c).thread = S.sched := rfl

end Cpu

/-! ## Threads on a CPU's scheduler -/

/-- Thread `t` is on CPU `c`'s scheduler: on one of its lists, or its active thread. -/
def OnCpu (S : System τ β) (c : Nat) (t : τ) : Prop :=
  t ∈ (S.fprr c).queued ∨ (S.fprr c).activeThread = some t

/-- A thread on CPU `c`'s lists is on the list of its priority. -/
theorem mem_runqueue_of_onCpu {t : τ} {c : Nat} (hq : (S.fprr c).QueueInv) (hon : S.OnCpu c t)
    (hact : (S.fprr c).activeThread ≠ some t) :
    t ∈ (S.fprr c).runqueue (S.sched t).priority.rev := by
  obtain ⟨i, hi⟩ := FprrState.mem_queued.1 (hon.resolve_right hact)
  have hprio : (S.sched t).priority = i.rev := hq.priority_eq i t hi
  rwa [hprio, Fin.rev_rev]

variable [DecidableEq τ]

section Threads

variable {t : τ} {c : Nat}

@[simp] theorem setThread_thread (th : ThreadFields τ β) :
    (S.setThread t th).thread = update S.thread t th := rfl
@[simp] theorem setThread_sched (th : ThreadFields τ β) : (S.setThread t th).sched = S.sched := rfl
@[simp] theorem setThread_current (th : ThreadFields τ β) :
    (S.setThread t th).current = S.current := rfl
@[simp] theorem setThread_yieldedFrom (th : ThreadFields τ β) :
    (S.setThread t th).yieldedFrom = S.yieldedFrom := rfl
@[simp] theorem setThread_rcuQueued (th : ThreadFields τ β) :
    (S.setThread t th).rcuQueued = S.rcuQueued := rfl
@[simp] theorem setThread_fprr (th : ThreadFields τ β) : (S.setThread t th).fprr c = S.fprr c := rfl

@[simp] theorem setThread_setThread (th th' : ThreadFields τ β) :
    (S.setThread t th).setThread t th' = S.setThread t th' := by
  simp [setThread]

@[simp] theorem setFlags_eq (f : SchedFlags) :
    S.setFlags t f = S.setThread t { S.thread t with flags := f } := rfl

@[simp] theorem setSched_thread (th : SchedThread) : (S.setSched t th).thread = S.thread := rfl
@[simp] theorem setSched_sched (th : SchedThread) :
    (S.setSched t th).sched = update S.sched t th := rfl
@[simp] theorem setSched_current (th : SchedThread) : (S.setSched t th).current = S.current := rfl
@[simp] theorem setSched_yieldedFrom (th : SchedThread) :
    (S.setSched t th).yieldedFrom = S.yieldedFrom := rfl
@[simp] theorem setSched_rcuQueued (th : SchedThread) :
    (S.setSched t th).rcuQueued = S.rcuQueued := rfl
@[simp] theorem setSched_fprr (th : SchedThread) :
    (S.setSched t th).fprr c = (S.fprr c).setThread t th := rfl

@[simp] theorem onCpu_setThread (th : ThreadFields τ β) : (S.setThread t th).OnCpu = S.OnCpu := rfl

@[simp] theorem onCpu_setSched (th : SchedThread) : (S.setSched t th).OnCpu = S.OnCpu := by
  funext c u
  simp [OnCpu, FprrState.setThread]

/-- `end_directed_yield` of a thread that is not yielding changes nothing. -/
theorem endDirectedYield_of_not_yielding (h : (S.sched t).yielding = false) :
    S.endDirectedYield t = S := by
  rcases S with ⟨cpu, current, yieldedFrom, sched, thread, rcu⟩
  simp only [endDirectedYield, setSched, System.mk.injEq, and_true, true_and]
  funext u
  by_cases hu : u = t
  · subst hu
    simp only [update_self]
    rw [← h]
  · simp [hu]

@[simp] theorem endDirectedYield_thread : (S.endDirectedYield t).thread = S.thread := rfl
@[simp] theorem endDirectedYield_sched :
    (S.endDirectedYield t).sched = update S.sched t { S.sched t with yielding := false } := rfl
@[simp] theorem endDirectedYield_current : (S.endDirectedYield t).current = S.current := rfl
@[simp] theorem endDirectedYield_yieldedFrom :
    (S.endDirectedYield t).yieldedFrom = S.yieldedFrom := rfl
@[simp] theorem endDirectedYield_rcuQueued : (S.endDirectedYield t).rcuQueued = S.rcuQueued := rfl
@[simp] theorem onCpu_endDirectedYield : (S.endDirectedYield t).OnCpu = S.OnCpu :=
  onCpu_setSched _

theorem endDirectedYield_setThread (th : ThreadFields τ β) (u : τ) :
    (S.setThread u th).endDirectedYield t = (S.endDirectedYield t).setThread u th := rfl

theorem endDirectedYield_endDirectedYield :
    (S.endDirectedYield t).endDirectedYield t = S.endDirectedYield t :=
  endDirectedYield_of_not_yielding (by simp)

end Threads

/-! ## `add_thread_to_scheduler` -/

/-- The system after `add_thread_to_scheduler` put `t` at the tail of its list on the scheduler of
its affinity CPU, with its timeslice reset, and marked it queued. -/
def enqueue (S : System τ β) (t : τ) : System τ β :=
  let a := (S.thread t).affinity
  (S.withFprr a (((S.fprr a).setThread t
      { S.sched t with activeTimeslice := (S.sched t).baseTimeslice }).link t true)).setFlags t
    { (S.thread t).flags with queued := true }

section Enqueue

variable {t : τ}

/-- `add_thread_to_scheduler` of a thread that is neither running, queued nor exited and can be
scheduled: it is put on its CPU's scheduler when its affinity is valid, and nothing changes
otherwise. -/
theorem addThreadToScheduler_snd [DecidableEq β] [Fintype β] {cfg : Config τ β} (self : Nat)
    (hq : (S.fprr (S.thread t).affinity).QueueInv) (hrun : (S.thread t).flags.running = false)
    (hqueued : (S.thread t).flags.queued = false) (hexit : (S.thread t).flags.exited = false)
    (hcbs : canBeScheduled cfg (S.thread t) = true) :
    (S.addThreadToScheduler cfg self t).map Prod.snd =
      some (if (S.thread t).affinity < cfg.maxCores then S.enqueue t else S) := by
  by_cases hval : (S.thread t).affinity < cfg.maxCores
  · -- the reset timeslice leaves the priority, so the list's bit still says whether it is empty
    have hadd := FprrState.addToRunqueue_eq
      (s := (S.fprr (S.thread t).affinity).setThread t
        { S.sched t with activeTimeslice := (S.sched t).baseTimeslice }) t true
      (by simpa [FprrState.setThread] using hq.bit_iff _)
    simp only [addThreadToScheduler, hrun, hqueued, hexit, hcbs, Bool.or_self, Bool.not_true,
      Bool.false_eq_true, if_false, if_pos hval, fprr_thread]
    rw [hadd]
    simp [enqueue, hrun, hexit]
  · simp [addThreadToScheduler, hrun, hqueued, hexit, hcbs, hval]

@[simp] theorem enqueue_thread :
    (S.enqueue t).thread =
      update S.thread t { S.thread t with flags := { (S.thread t).flags with queued := true } } :=
  rfl

@[simp] theorem enqueue_sched :
    (S.enqueue t).sched =
      update S.sched t { S.sched t with activeTimeslice := (S.sched t).baseTimeslice } := rfl

@[simp] theorem enqueue_current : (S.enqueue t).current = S.current := rfl
@[simp] theorem enqueue_yieldedFrom : (S.enqueue t).yieldedFrom = S.yieldedFrom := rfl
@[simp] theorem enqueue_rcuQueued : (S.enqueue t).rcuQueued = S.rcuQueued := rfl

/-- Replacing the fields of `t`, its affinity kept, commutes with `enqueue`. -/
theorem enqueue_setThread {th : ThreadFields τ β} (haff : th.affinity = (S.thread t).affinity) :
    (S.setThread t th).enqueue t =
      (S.enqueue t).setThread t { th with flags := { th.flags with queued := true } } := by
  simp only [enqueue, setThread_thread, update_self, haff, setThread_fprr, setFlags_eq]
  simp [setThread, withFprr, haff]

/-- Ending a directed yield keeps every priority. -/
theorem priority_endDirectedYield (u : τ) :
    (update S.sched t { S.sched t with yielding := false } u).priority = (S.sched u).priority := by
  by_cases hu : u = t
  · subst hu
    simp
  · simp [hu]

/-- Resetting the timeslice keeps every priority. -/
theorem priority_resetTimeslice (u : τ) :
    (update S.sched t { S.sched t with activeTimeslice := (S.sched t).baseTimeslice } u).priority =
      (S.sched u).priority := by
  by_cases hu : u = t
  · subst hu
    simp
  · simp [hu]

theorem enqueue_fprr_self :
    (S.enqueue t).fprr (S.thread t).affinity = ((S.fprr (S.thread t).affinity).setThread t
      { S.sched t with activeTimeslice := (S.sched t).baseTimeslice }).link t true := by
  simp [enqueue]

theorem enqueue_fprr_of_ne {c : Nat} (hc : c ≠ (S.thread t).affinity) :
    (S.enqueue t).fprr c =
      (S.fprr c).setThread t { S.sched t with activeTimeslice := (S.sched t).baseTimeslice } := by
  simp only [enqueue, setFlags_eq, setThread_fprr]
  rw [fprr_withFprr_of_ne _ hc]
  rfl

/-- After `enqueue` the thread is on its affinity CPU's scheduler, and nothing else moved. -/
theorem onCpu_enqueue (c : Nat) (u : τ) :
    (S.enqueue t).OnCpu c u ↔ S.OnCpu c u ∨ (u = t ∧ c = (S.thread t).affinity) := by
  by_cases hc : c = (S.thread t).affinity
  · subst hc
    simp only [OnCpu, enqueue_fprr_self, FprrState.queued_link, FprrState.link_activeThread,
      Multiset.mem_add, Multiset.mem_singleton, and_true]
    simp only [FprrState.setThread, FprrState.queued_withThread]
    tauto
  · simp only [OnCpu, enqueue_fprr_of_ne hc, hc, and_false, or_false]
    simp [FprrState.setThread]

/-- `enqueue` of a thread that is not on the scheduler of its CPU keeps every CPU's queue
invariant. -/
theorem queueInv_enqueue (hq : ∀ c, (S.fprr c).QueueInv)
    (hnot : ¬S.OnCpu (S.thread t).affinity t) (c : Nat) : ((S.enqueue t).fprr c).QueueInv := by
  have hset : ∀ d, ((S.fprr d).setThread t
      { S.sched t with activeTimeslice := (S.sched t).baseTimeslice }).QueueInv :=
    fun d => (hq d).withThread priority_resetTimeslice
  by_cases hc : c = (S.thread t).affinity
  · subst hc
    rw [enqueue_fprr_self]
    simp only [OnCpu, not_or] at hnot
    exact (hset _).link (by simpa [FprrState.setThread] using hnot.1)
      (by simpa [FprrState.setThread] using hnot.2) true
  · rw [enqueue_fprr_of_ne hc]
    exact hset c

end Enqueue

/-! ## `remove_thread_from_scheduler` -/

/-- The system after `remove_thread_from_scheduler` took `t` off the scheduler of its affinity
CPU, as its active thread or from its list, and marked it not queued. -/
def dequeue (S : System τ β) (t : τ) : System τ β :=
  let a := (S.thread t).affinity
  let s := S.fprr a
  (S.withFprr a (if s.activeThread = some t then { s with activeThread := none } else s.unlink t)).setFlags t
    { (S.thread t).flags with queued := false }

section Dequeue

variable {t : τ}

/-- `remove_thread_from_scheduler` of a thread that is not yielding, and is queued and on its
CPU's scheduler when its affinity is valid: it is taken off, and nothing changes otherwise. -/
theorem removeThreadFromScheduler_of_not_yielding [DecidableEq β] [Fintype β] {cfg : Config τ β}
    (hq : (S.fprr (S.thread t).affinity).QueueInv) (hy : (S.sched t).yielding = false)
    (hon : (S.thread t).affinity < cfg.maxCores →
      (S.thread t).flags.queued = true ∧ S.OnCpu (S.thread t).affinity t) :
    S.removeThreadFromScheduler cfg t =
      some (if (S.thread t).affinity < cfg.maxCores then S.dequeue t else S) := by
  by_cases hval : (S.thread t).affinity < cfg.maxCores
  · obtain ⟨hqueued, hon⟩ := hon hval
    simp only [removeThreadFromScheduler, endDirectedYield_of_not_yielding hy, if_pos hval,
      hqueued, Bool.not_true, Bool.false_eq_true, if_false]
    by_cases hact : (S.fprr (S.thread t).affinity).activeThread = some t
    · simp [hact, dequeue]
    · -- a queued thread that is not active is on the list of its priority
      have hmem := mem_runqueue_of_onCpu hq hon hact
      simp [hact, FprrState.removeFromRunqueue_eq hq hmem, dequeue]
  · simp [removeThreadFromScheduler, hy, hval, endDirectedYield_of_not_yielding hy]

/-- `remove_thread_from_scheduler` of a thread that is queued and on its CPU's scheduler when its
affinity is valid: its directed yield ends and it is taken off; with an invalid affinity it must
not have been yielding, and then nothing changes. -/
theorem removeThreadFromScheduler_eq [DecidableEq β] [Fintype β] {cfg : Config τ β}
    (hq : (S.fprr (S.thread t).affinity).QueueInv)
    (hon : (S.thread t).affinity < cfg.maxCores →
      (S.thread t).flags.queued = true ∧ S.OnCpu (S.thread t).affinity t) :
    S.removeThreadFromScheduler cfg t =
      if (S.thread t).affinity < cfg.maxCores then some ((S.endDirectedYield t).dequeue t)
      else if (S.sched t).yielding then none else some S := by
  by_cases hval : (S.thread t).affinity < cfg.maxCores
  · -- the removal reads the thread's fields only after its yield has ended
    have hend : S.removeThreadFromScheduler cfg t =
        (S.endDirectedYield t).removeThreadFromScheduler cfg t := by
      simp only [removeThreadFromScheduler, endDirectedYield_thread,
        endDirectedYield_endDirectedYield, if_pos hval]
    have hq' : ((S.endDirectedYield t).fprr (S.thread t).affinity).QueueInv :=
      hq.withThread priority_endDirectedYield
    rw [hend, removeThreadFromScheduler_of_not_yielding (by simpa using hq') (by simp)
      (by simpa using hon), if_pos (by simpa using hval), if_pos hval]
  · by_cases hy : (S.sched t).yielding
    · simp [removeThreadFromScheduler, hval, hy]
    · simp [removeThreadFromScheduler, hval, hy, endDirectedYield_of_not_yielding (S := S)]

@[simp] theorem dequeue_thread :
    (S.dequeue t).thread =
      update S.thread t { S.thread t with flags := { (S.thread t).flags with queued := false } } :=
  rfl

@[simp] theorem dequeue_sched : (S.dequeue t).sched = S.sched := by
  simp only [dequeue]
  split <;> rfl

@[simp] theorem dequeue_current : (S.dequeue t).current = S.current := rfl
@[simp] theorem dequeue_yieldedFrom : (S.dequeue t).yieldedFrom = S.yieldedFrom := rfl
@[simp] theorem dequeue_rcuQueued : (S.dequeue t).rcuQueued = S.rcuQueued := rfl

/-- Replacing the fields of `t`, its affinity kept, commutes with `dequeue`. -/
theorem dequeue_setThread {th : ThreadFields τ β} (haff : th.affinity = (S.thread t).affinity) :
    (S.setThread t th).dequeue t =
      (S.dequeue t).setThread t { th with flags := { th.flags with queued := false } } := by
  simp only [dequeue, setThread_thread, update_self, haff, setThread_fprr, setFlags_eq]
  simp [setThread, withFprr, haff]

theorem dequeue_fprr_of_ne {c : Nat} (hc : c ≠ (S.thread t).affinity) :
    (S.dequeue t).fprr c = S.fprr c := by
  simp only [dequeue, setFlags_eq, setThread_fprr]
  exact fprr_withFprr_of_thread _ (by split <;> rfl) hc

section Removed

variable (hq : (S.fprr (S.thread t).affinity).QueueInv) (hon : S.OnCpu (S.thread t).affinity t)
include hq hon

/-- Taking `t` off its CPU's scheduler keeps that CPU's queue invariant. -/
theorem queueInv_dequeue_self : ((S.dequeue t).fprr (S.thread t).affinity).QueueInv := by
  simp only [dequeue, setFlags_eq, setThread_fprr, fprr_withFprr_self]
  split
  · exact hq.withActive (fun _ h => by cases h) _
  · rename_i hact
    exact hq.unlink (by simpa using mem_runqueue_of_onCpu hq hon hact)

/-- The threads on the scheduler of `t`'s CPU after `dequeue`: those before, but `t`. -/
theorem onCpu_dequeue_self (u : τ) :
    (S.dequeue t).OnCpu (S.thread t).affinity u ↔ S.OnCpu (S.thread t).affinity u ∧ u ≠ t := by
  simp only [OnCpu, dequeue, setFlags_eq, setThread_fprr, fprr_withFprr_self]
  split
  · -- the active thread `t` is not on a list, and there is no active thread left
    rename_i hact
    have hnot : t ∉ (S.fprr (S.thread t).affinity).queued := hq.active_not_mem t hact
    simp only [FprrState.queued_withActive, reduceCtorEq, or_false]
    constructor
    · intro hu
      exact ⟨.inl hu, fun h => hnot (h ▸ hu)⟩
    · rintro ⟨hu | hu, hne⟩
      · exact hu
      · exact absurd (Option.some.inj (hact.symm.trans hu)).symm hne
  · -- `t` leaves its list, on which it was once
    rename_i hact
    have hmem := mem_runqueue_of_onCpu hq hon hact
    have hsum := FprrState.queued_unlink hmem
    have hnd : (((S.fprr (S.thread t).affinity).unlink t).queued + {t}).Nodup := hsum ▸ hq.nodup
    rw [add_comm, Multiset.singleton_add, Multiset.nodup_cons] at hnd
    simp only [FprrState.unlink_activeThread]
    constructor
    · rintro (hu | hu)
      · refine ⟨.inl ?_, fun h => hnd.1 (h ▸ hu)⟩
        rw [← hsum]
        exact Multiset.mem_add.2 (.inl hu)
      · exact ⟨.inr hu, fun h => hact (h ▸ hu)⟩
    · rintro ⟨hu | hu, hne⟩
      · rw [← hsum, Multiset.mem_add, Multiset.mem_singleton] at hu
        exact .inl (hu.resolve_right hne)
      · exact .inr hu

/-- After `dequeue` the thread is on no scheduler it was on, and nothing else moved. -/
theorem onCpu_dequeue (c : Nat) (u : τ) :
    (S.dequeue t).OnCpu c u ↔ S.OnCpu c u ∧ ¬(u = t ∧ c = (S.thread t).affinity) := by
  by_cases hc : c = (S.thread t).affinity
  · subst hc
    simpa using onCpu_dequeue_self hq hon u
  · simp only [OnCpu, dequeue_fprr_of_ne hc, hc, and_false, not_false_eq_true, and_true]

/-- `dequeue` keeps every CPU's queue invariant. -/
theorem queueInv_dequeue (hall : ∀ c, (S.fprr c).QueueInv) (c : Nat) :
    ((S.dequeue t).fprr c).QueueInv := by
  by_cases hc : c = (S.thread t).affinity
  · subst hc
    exact queueInv_dequeue_self hq hon
  · rw [dequeue_fprr_of_ne hc]
    exact hall c

end Removed

end Dequeue

/-! ## Yield targets -/

section YieldTargets

variable {t : τ}

/-- `set_yield_to` of a thread with no yield target, to another thread. -/
theorem setYieldTo_eq {y : τ} (hne : t ≠ y) (hn : (S.thread t).yieldTo = none) :
    S.setYieldTo t y = some (S.setThread t { S.thread t with yieldTo := some y }) := by
  simp [setYieldTo, hne, hn]

/-- `discard_yield_to` of a thread with a yield target. -/
theorem discardYieldTo_eq {y : τ} (hs : (S.thread t).yieldTo = some y) :
    S.discardYieldTo t = some (S.setThread t { S.thread t with yieldTo := none }) := by
  simp [discardYieldTo, hs]

/-- The end of `scheduler_yield_to` for a current thread with no yield target changes nothing. -/
theorem yieldToReturn_of_none {self : Nat} (hn : (S.thread (S.current self)).yieldTo = none) :
    S.yieldToReturn self = some S := by
  simp [yieldToReturn, hn]

/-- The end of `scheduler_yield_to` for a pinned current thread with a yield target drops the
target and the pin. -/
theorem yieldToReturn_of_some {self : Nat} {y : τ}
    (hs : (S.thread (S.current self)).yieldTo = some y)
    (hp : (S.thread (S.current self)).pinCount ≠ 0) :
    S.yieldToReturn self = some (S.setThread (S.current self)
      { S.thread (S.current self) with
        yieldTo := none, pinCount := (S.thread (S.current self)).pinCount - 1 }) := by
  unfold yieldToReturn
  rw [if_neg (by simp [hs]), discardYieldTo_eq hs]
  simp [schedulerUnpin, hp]

end YieldTargets

/-! ## `resched_running_thread` -/

omit [DecidableEq τ] in
/-- `resched_running_thread` of a running thread that is not queued, or killed, with a valid
active affinity: it changes nothing and says whether the thread runs here. -/
theorem reschedRunningThread_eq {cfg : Config τ β} {self : Nat} {t : τ}
    (hrun : (S.thread t).flags.running = true)
    (hq : (S.thread t).flags.queued = true → (S.thread t).flags.killed = true)
    (hact : (S.thread t).activeAffinity < cfg.maxCores) :
    S.reschedRunningThread cfg self t = some ((S.thread t).activeAffinity == self) := by
  cases hqueued : (S.thread t).flags.queued
  · simp [reschedRunningThread, hrun, hqueued, hact]
  · simp [reschedRunningThread, hrun, hqueued, hq hqueued, hact]

end System

end Gunyah.Scheduler

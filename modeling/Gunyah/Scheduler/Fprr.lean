import Gunyah.Lib.Bitmap
import Gunyah.Lib.LinkedList
import Mathlib

set_option autoImplicit false

/-!
# FPRR run queues and the choice of the next thread

A model of the per-CPU run queues of `hyp/core/scheduler_fprr/src/scheduler_fprr.c` and of the
functions that move threads on and off them: `add_to_runqueue`, `remove_from_runqueue`,
`pop_runqueue_head`, `update_timeslice` and `get_next_target`.

A CPU's `scheduler_t` has one list of threads for each of the `SCHEDULER_NUM_PRIORITIES`
priorities, the list of priority `p` at index `SCHEDULER_MAX_PRIORITY - p` (`Fin.rev p`), a
bitmap that marks the lists that are not empty, the active thread, and the time it was chosen.
Priorities are `Fin SCHEDULER_NUM_PRIORITIES`: thread creation asserts that a priority lies
between `SCHEDULER_MIN_PRIORITY` (0) and `SCHEDULER_MAX_PRIORITY`. `ticks_t` is a 64-bit counter,
so the timeout of a thread is taken modulo `2 ^ 64`. The idle thread, which `get_next_target`
returns when it finds nothing to run, is `none`.

The code's operations on a list are shown to be two functions under the queue invariant
`QueueInv`: `link` puts a thread on its list and sets the list's bit (`addToRunqueue_eq`), and
`unlinkHead` takes the head off a list and clears the bit of a list it empties
(`popRunqueueHead_eq`). Both keep the invariant, which says that a bit is set exactly when its
list is not empty, that every thread on a list has the list's priority, and that the active
thread is on no list. `getNextTarget_spec` then says what `get_next_target` chooses, where it puts
the thread it preempts, and that it neither loses nor duplicates a thread. Spinlocks, the timer
and directed yields other than their end are left out; a failed `assert` gives `none`.
-/

namespace Gunyah.Scheduler

open LinkedList Function

/-- `SCHEDULER_NUM_PRIORITIES`. -/
def schedulerNumPriorities : Nat := 64

instance : NeZero schedulerNumPriorities := ⟨by decide⟩

/-- `priority_t` of a thread, from `SCHEDULER_MIN_PRIORITY` to `SCHEDULER_MAX_PRIORITY`. The
run-queue index of a priority `p`, `SCHEDULER_MAX_PRIORITY - p`, is `p.rev`, and the priority of
an index `i` is `i.rev`. -/
abbrev Priority := Fin schedulerNumPriorities

/-- The scheduler fields of `thread_t` that the run-queue code reads and writes. -/
structure SchedThread where
  priority : Priority
  baseTimeslice : Nat
  activeTimeslice : Nat
  yielding : Bool

/-- One CPU's `scheduler_t` without its timer and lock, and the scheduler fields of the threads
`τ`. -/
structure FprrState (τ : Type) where
  prioBitmap : Fin schedulerNumPriorities → Bool
  runqueue : Fin schedulerNumPriorities → List τ
  activeThread : Option τ
  schedtime : Nat
  thread : τ → SchedThread

variable {τ : Type}

namespace FprrState

variable (s : FprrState τ)

/-! ## The code -/

/-- The state with thread `t`'s fields replaced. -/
def setThread [DecidableEq τ] (t : τ) (th : SchedThread) : FprrState τ :=
  { s with thread := update s.thread t th }

/-- The state with run queue `i` replaced. -/
def setQueue (i : Fin schedulerNumPriorities) (l : List τ) : FprrState τ :=
  { s with runqueue := update s.runqueue i l }

/-- The state with bit `i` of the priority bitmap set to `b`. -/
def setBit (i : Fin schedulerNumPriorities) (b : Bool) : FprrState τ :=
  { s with prioBitmap := update s.prioBitmap i b }

/-- `get_target_timeout (scheduler, target)`. -/
def getTargetTimeout (t : τ) : Nat := (s.schedtime + (s.thread t).activeTimeslice) % 2 ^ 64

/-- `update_timeslice (scheduler, target, curticks)`: whether the timeslice expired, and the
state. -/
def updateTimeslice [DecidableEq τ] (t : τ) (curticks : Nat) : Bool × FprrState τ :=
  let timeout := s.getTargetTimeout t
  let th := s.thread t
  if timeout ≤ curticks then
    -- `reset_sched_params` and `end_directed_yield`
    (true, s.setThread t { th with activeTimeslice := th.baseTimeslice, yielding := false })
  else
    -- account for the time the target has used
    (false, s.setThread t { th with activeTimeslice := timeout - curticks })

/-- `add_to_runqueue (scheduler, target, at_tail)`. -/
def addToRunqueue (t : τ) (atTail : Bool) : Option (FprrState τ) :=
  let i := (s.thread t).priority.rev
  let list := s.runqueue i
  let wasEmpty := list.isEmpty
  -- `assert(was_empty || bitmap_isset(scheduler->prio_bitmap, i))`
  if !(wasEmpty || s.prioBitmap i) then none
  else
    let s' := s.setQueue i (if atTail then list ++ [t] else t :: list)
    some (if wasEmpty then s'.setBit i true else s')

/-- `remove_from_runqueue (scheduler, target)`. The bit of the list is cleared when the node
deleted was the head and `list_delete_node` reports no new head. -/
def removeFromRunqueue [DecidableEq τ] (t : τ) : Option (FprrState τ) :=
  let i := (s.thread t).priority.rev
  let list := s.runqueue i
  let wasHead := list.head? == some t
  -- `assert(bitmap_isset(scheduler->prio_bitmap, i))`
  if !s.prioBitmap i then none
  else
    match listDeleteNode t list with
    | none => none
    | some (l, newHead) =>
      if !newHead && wasHead then
        -- `assert(list_is_empty(list))`
        if l.isEmpty then some ((s.setQueue i l).setBit i false) else none
      else some (s.setQueue i l)

/-- `pop_runqueue_head (scheduler, i)`. -/
def popRunqueueHead [DecidableEq τ] (i : Fin schedulerNumPriorities) :
    Option (τ × FprrState τ) :=
  if !s.prioBitmap i then none
  else
    match s.runqueue i with
    | [] => none
    | head :: _ =>
      -- `assert(head->scheduler_priority == (SCHEDULER_MAX_PRIORITY - i))`
      if (s.thread head).priority ≠ i.rev then none
      else (s.removeFromRunqueue head).map fun s' => (head, s')

/-- The test of `get_next_target` for leaving the previous thread `prev` for the head of the
list of priority `prio`: always for a higher priority, and for the same priority when the
timeslice of `prev` has been used up. -/
def shouldSwitch (prev : Option τ) (expired : Bool) (prio : Priority) : Bool :=
  match prev with
  | none => true
  | some p => if expired then decide ((s.thread p).priority ≤ prio)
    else decide ((s.thread p).priority < prio)

/-- The `bitmap_ffs` block of `get_next_target`: the target after `prev`, and the state. -/
def switchTarget [DecidableEq τ] (prev : Option τ) (expired : Bool) :
    Option (Option τ × FprrState τ) :=
  match Bitmap.ffs s.prioBitmap with
  | none => some (prev, s)
  | some i =>
    if s.shouldSwitch prev expired i.rev then
      (s.popRunqueueHead i).map fun r => (some r.1, r.2)
    else some (prev, s)

/-- The `update_timeslice` of `get_next_target`, made when there is an active thread. -/
def updateActive [DecidableEq τ] (curticks : Nat) : Bool × FprrState τ :=
  match s.activeThread with
  | none => (false, s)
  | some p => s.updateTimeslice p curticks

/-- `get_next_target (scheduler, curticks)`: the thread to run (`none` for `idle_thread()`) and
the state. A previous thread that is not the target goes back on its list, at the tail when its
timeslice expired and at the head otherwise. -/
def getNextTarget [DecidableEq τ] (curticks : Nat) : Option (Option τ × FprrState τ) :=
  let prev := s.activeThread
  let r := s.updateActive curticks
  (r.2.switchTarget prev r.1).bind fun (target, s') =>
    let s' := { s' with activeThread := target, schedtime := curticks }
    match prev with
    | some p =>
      if target = some p then some (target, s') else (s'.addToRunqueue p r.1).map (target, ·)
    | none => some (target, s')

/-! ## Field lemmas -/

section Fields

variable {s}

@[simp] theorem setThread_runqueue [DecidableEq τ] (t : τ) (th : SchedThread) :
    (s.setThread t th).runqueue = s.runqueue := rfl
@[simp] theorem setThread_prioBitmap [DecidableEq τ] (t : τ) (th : SchedThread) :
    (s.setThread t th).prioBitmap = s.prioBitmap := rfl
@[simp] theorem setThread_activeThread [DecidableEq τ] (t : τ) (th : SchedThread) :
    (s.setThread t th).activeThread = s.activeThread := rfl
@[simp] theorem setQueue_prioBitmap (i : Fin schedulerNumPriorities) (l : List τ) :
    (s.setQueue i l).prioBitmap = s.prioBitmap := rfl
@[simp] theorem setQueue_thread (i : Fin schedulerNumPriorities) (l : List τ) :
    (s.setQueue i l).thread = s.thread := rfl
@[simp] theorem setQueue_activeThread (i : Fin schedulerNumPriorities) (l : List τ) :
    (s.setQueue i l).activeThread = s.activeThread := rfl
@[simp] theorem setBit_runqueue (i : Fin schedulerNumPriorities) (b : Bool) :
    (s.setBit i b).runqueue = s.runqueue := rfl
@[simp] theorem setBit_thread (i : Fin schedulerNumPriorities) (b : Bool) :
    (s.setBit i b).thread = s.thread := rfl
@[simp] theorem setBit_activeThread (i : Fin schedulerNumPriorities) (b : Bool) :
    (s.setBit i b).activeThread = s.activeThread := rfl

/-- Setting a bit to the value it has changes nothing. -/
theorem setBit_of_eq {i : Fin schedulerNumPriorities} {b : Bool} (h : s.prioBitmap i = b) :
    s.setBit i b = s := by
  cases s
  simp only [setBit, ← h, update_eq_self]

end Fields

/-! ## The queue invariant -/

/-- The threads on the run queues, as a multiset. It is irreducible: a sum over the
`SCHEDULER_NUM_PRIORITIES` lists that Lean unfolded would be a term of 64 summands. -/
@[irreducible] def queued : Multiset τ := ∑ i, (s.runqueue i : Multiset τ)

/-- The queue invariant of one CPU: a bit of the priority bitmap is set exactly when its list is
not empty, every thread on a list has the list's priority, no thread is queued twice, and the
active thread is not queued. -/
structure QueueInv : Prop where
  bit_iff : ∀ i, s.prioBitmap i = true ↔ s.runqueue i ≠ []
  priority_eq : ∀ i, ∀ t ∈ s.runqueue i, (s.thread t).priority = i.rev
  nodup : s.queued.Nodup
  active_not_mem : ∀ p, s.activeThread = some p → p ∉ s.queued

/-- The state with `t` put on the list of its priority, at the tail or at the head, and the
list's bit set. -/
def link (t : τ) (atTail : Bool) : FprrState τ :=
  let i := (s.thread t).priority.rev
  (s.setQueue i (if atTail then s.runqueue i ++ [t] else t :: s.runqueue i)).setBit i true

/-- The state with the head of list `i` taken off, and the list's bit cleared when the list
becomes empty. -/
def unlinkHead (i : Fin schedulerNumPriorities) : FprrState τ :=
  (s.setQueue i (s.runqueue i).tail).setBit i !(s.runqueue i).tail.isEmpty

/-- The state with the previous thread `prev`, if any, put back on its list. -/
def requeue (prev : Option τ) (atTail : Bool) : FprrState τ :=
  match prev with
  | none => s
  | some p => s.link p atTail

end FprrState

/-- Replacing one term of a sum over a finite type: the new sum and the old term add up to the
old sum and the new term. -/
theorem sum_update_add {ι M : Type} [Fintype ι] [DecidableEq ι] [AddCommMonoid M] (f : ι → M)
    (i : ι) (x : M) : ∑ k, update f i x k + f i = ∑ k, f k + x := by
  rw [Finset.sum_update_of_mem (Finset.mem_univ i),
    Finset.sum_eq_add_sum_sdiff_singleton_of_mem (Finset.mem_univ i) f]
  ac_rfl

namespace FprrState

variable {s : FprrState τ}

theorem mem_queued {t : τ} : t ∈ s.queued ↔ ∃ i, t ∈ s.runqueue i := by
  unfold queued
  simp [Multiset.mem_sum]

/-- Replacing list `i` by `l`: the old list leaves the multiset of queued threads and `l` joins
it. -/
theorem queued_setQueue (i : Fin schedulerNumPriorities) (l : List τ) :
    (s.setQueue i l).queued + (s.runqueue i : Multiset τ) = s.queued + (l : Multiset τ) := by
  have hcoe : (fun k => ((update s.runqueue i l k : List τ) : Multiset τ)) =
      update (fun k => (s.runqueue k : Multiset τ)) i (l : Multiset τ) := by
    funext k
    exact apply_update (fun _ (m : List τ) => (m : Multiset τ)) s.runqueue i l k
  unfold queued
  simp only [setQueue, hcoe]
  exact sum_update_add (fun k => (s.runqueue k : Multiset τ)) i l

/-- The queued threads depend only on the lists. -/
theorem queued_eq_of_runqueue {s₁ s₂ : FprrState τ} (h : s₁.runqueue = s₂.runqueue) :
    s₁.queued = s₂.queued := by
  unfold queued
  rw [h]

@[simp] theorem queued_withActive (a : Option τ) (c : Nat) :
    ({ s with activeThread := a, schedtime := c } : FprrState τ).queued = s.queued :=
  queued_eq_of_runqueue rfl

@[simp] theorem queued_setBit (i : Fin schedulerNumPriorities) (b : Bool) :
    (s.setBit i b).queued = s.queued := by
  unfold queued
  rfl

@[simp] theorem queued_withThread (th : τ → SchedThread) :
    ({ s with thread := th } : FprrState τ).queued = s.queued := by
  unfold queued
  rfl

@[simp] theorem queued_setThread [DecidableEq τ] (t : τ) (th : SchedThread) :
    (s.setThread t th).queued = s.queued := by
  unfold queued
  rfl

theorem queued_link (t : τ) (atTail : Bool) : (s.link t atTail).queued = s.queued + {t} := by
  have hl : ∀ l : List τ,
      ((if atTail then l ++ [t] else t :: l : List τ) : Multiset τ) = (l : Multiset τ) + {t} := by
    intro l
    cases atTail
    · rw [if_neg Bool.false_ne_true, ← Multiset.cons_coe, ← Multiset.singleton_add, add_comm]
    · rw [if_pos rfl, ← Multiset.coe_singleton, Multiset.coe_add]
  have h := queued_setQueue (s := s) (s.thread t).priority.rev
    (if atTail then s.runqueue (s.thread t).priority.rev ++ [t]
      else t :: s.runqueue (s.thread t).priority.rev)
  rw [hl, ← add_assoc, add_right_comm] at h
  simpa only [link, queued_setBit] using add_right_cancel h

theorem queued_unlinkHead {i : Fin schedulerNumPriorities} {t : τ}
    (h : (s.runqueue i).head? = some t) : (s.unlinkHead i).queued + {t} = s.queued := by
  obtain ⟨rest, hl⟩ := List.head?_eq_some_iff.1 h
  have hq := queued_setQueue (s := s) i rest
  rw [hl, ← Multiset.cons_coe, ← Multiset.singleton_add, ← add_assoc] at hq
  have hunlink : (s.unlinkHead i).queued = (s.setQueue i rest).queued := by
    simp only [unlinkHead, queued_setBit, hl, List.tail_cons]
  exact (congrArg (· + ({t} : Multiset τ)) hunlink).trans (add_right_cancel hq)

/-! ## The list operations -/

@[simp] theorem link_runqueue_self (t : τ) (atTail : Bool) :
    (s.link t atTail).runqueue (s.thread t).priority.rev =
      if atTail then s.runqueue (s.thread t).priority.rev ++ [t]
      else t :: s.runqueue (s.thread t).priority.rev := by
  simp [link, setQueue]

theorem link_runqueue_of_ne (t : τ) (atTail : Bool) {j : Fin schedulerNumPriorities}
    (hj : j ≠ (s.thread t).priority.rev) : (s.link t atTail).runqueue j = s.runqueue j := by
  simp [link, setQueue, hj]

@[simp] theorem link_prioBitmap_self (t : τ) (atTail : Bool) :
    (s.link t atTail).prioBitmap (s.thread t).priority.rev = true := by
  simp [link, setBit]

theorem link_prioBitmap_of_ne (t : τ) (atTail : Bool) {j : Fin schedulerNumPriorities}
    (hj : j ≠ (s.thread t).priority.rev) : (s.link t atTail).prioBitmap j = s.prioBitmap j := by
  simp [link, setBit, hj]

/-- `add_to_runqueue` puts the thread on its list, when the bit of the list says whether the list
is empty. -/
theorem addToRunqueue_eq (t : τ) (atTail : Bool)
    (hbit : s.prioBitmap (s.thread t).priority.rev = true ↔
      s.runqueue (s.thread t).priority.rev ≠ []) :
    s.addToRunqueue t atTail = some (s.link t atTail) := by
  cases hl : s.runqueue (s.thread t).priority.rev with
  | nil => simp [addToRunqueue, link, hl]
  | cons u rest =>
    -- the list is not empty, so its bit is set already and `link` sets it again
    have hset : s.prioBitmap (s.thread t).priority.rev = true := hbit.2 (by simp [hl])
    simp only [addToRunqueue, hl, List.isEmpty_cons, hset, Bool.or_true, Bool.not_true,
      Bool.false_eq_true, if_false, link]
    rw [setBit_of_eq (s := s.setQueue _ _) hset]

/-- `pop_runqueue_head` of a list whose bit is set takes its head off, under the queue
invariant. -/
theorem popRunqueueHead_eq [DecidableEq τ] (hs : s.QueueInv) {i : Fin schedulerNumPriorities}
    (hbit : s.prioBitmap i = true) :
    ∃ t, (s.runqueue i).head? = some t ∧ s.popRunqueueHead i = some (t, s.unlinkHead i) := by
  obtain ⟨t, rest, hl⟩ := List.exists_cons_of_ne_nil ((hs.bit_iff i).1 hbit)
  have hprio : (s.thread t).priority = i.rev := hs.priority_eq i t (by simp [hl])
  refine ⟨t, by simp [hl], ?_⟩
  cases rest with
  | nil =>
    -- the list becomes empty: its bit is cleared
    simp [popRunqueueHead, hbit, hl, hprio, removeFromRunqueue, Fin.rev_rev, unlinkHead,
      listDeleteNode_of_mem]
  | cons u rest =>
    -- a new head: the bit stays set
    have hkeep : (s.setQueue i (u :: rest)).prioBitmap i = true := hbit
    simp [popRunqueueHead, hbit, hl, hprio, removeFromRunqueue, Fin.rev_rev, unlinkHead,
      listDeleteNode_of_mem, setBit_of_eq hkeep]

@[simp] theorem link_thread (t : τ) (atTail : Bool) : (s.link t atTail).thread = s.thread := rfl

@[simp] theorem link_activeThread (t : τ) (atTail : Bool) :
    (s.link t atTail).activeThread = s.activeThread := rfl

@[simp] theorem unlinkHead_thread (i : Fin schedulerNumPriorities) :
    (s.unlinkHead i).thread = s.thread := rfl

@[simp] theorem unlinkHead_activeThread (i : Fin schedulerNumPriorities) :
    (s.unlinkHead i).activeThread = s.activeThread := rfl

/-- Taking a head off keeps each bit saying whether its list is empty. -/
theorem bit_iff_unlinkHead (hbit : ∀ j, s.prioBitmap j = true ↔ s.runqueue j ≠ [])
    (i j : Fin schedulerNumPriorities) :
    (s.unlinkHead i).prioBitmap j = true ↔ (s.unlinkHead i).runqueue j ≠ [] := by
  by_cases hji : j = i
  · subst hji
    simp [unlinkHead, setQueue, setBit]
  · simp [unlinkHead, setQueue, setBit, hji, hbit j]

/-- A queued thread is on the list of its priority. -/
theorem QueueInv.eq_of_mem (hs : s.QueueInv) {t : τ} {i j : Fin schedulerNumPriorities}
    (hi : t ∈ s.runqueue i) (hj : t ∈ s.runqueue j) : i = j := by
  have h := (hs.priority_eq i t hi).symm.trans (hs.priority_eq j t hj)
  exact Fin.rev_inj.1 h

/-- The head of a list is queued. -/
theorem mem_queued_of_head {i : Fin schedulerNumPriorities} {t : τ}
    (h : (s.runqueue i).head? = some t) : t ∈ s.queued :=
  mem_queued.2 ⟨i, List.mem_of_mem_head? h⟩

/-- Taking the head `t` off list `i` erases `t` from every list. -/
theorem unlinkHead_runqueue [DecidableEq τ] (hs : s.QueueInv) {i : Fin schedulerNumPriorities} {t : τ}
    (hhead : (s.runqueue i).head? = some t) (j : Fin schedulerNumPriorities) :
    (s.unlinkHead i).runqueue j = (s.runqueue j).erase t := by
  obtain ⟨rest, hl⟩ := List.head?_eq_some_iff.1 hhead
  by_cases hji : j = i
  · subst hji
    simp [unlinkHead, setQueue, hl]
  · have hnot : t ∉ s.runqueue j := fun htj => hji (hs.eq_of_mem htj (by simp [hl]))
    simp [unlinkHead, setQueue, hji, List.erase_of_not_mem hnot]

/-- Putting a thread that is neither queued nor active on its list keeps the queue invariant. -/
theorem QueueInv.link (hs : s.QueueInv) {t : τ} (hnot : t ∉ s.queued)
    (hact : s.activeThread ≠ some t) (atTail : Bool) : (s.link t atTail).QueueInv where
  bit_iff j := by
    by_cases hj : j = (s.thread t).priority.rev
    · subst hj
      cases atTail <;> simp
    · rw [link_runqueue_of_ne t atTail hj, link_prioBitmap_of_ne t atTail hj]
      exact hs.bit_iff j
  priority_eq j u hu := by
    by_cases hj : j = (s.thread t).priority.rev
    · subst hj
      rw [link_runqueue_self] at hu
      have hu' : u = t ∨ u ∈ s.runqueue (s.thread t).priority.rev := by
        cases atTail <;> simp_all [or_comm]
      rcases hu' with rfl | hu'
      · simp
      · simpa using hs.priority_eq _ u hu'
    · rw [link_runqueue_of_ne t atTail hj] at hu
      simpa using hs.priority_eq j u hu
  nodup := by
    rw [queued_link, add_comm, Multiset.singleton_add]
    exact Multiset.nodup_cons.2 ⟨hnot, hs.nodup⟩
  active_not_mem p hp := by
    rw [queued_link, Multiset.mem_add, Multiset.mem_singleton, not_or]
    exact ⟨hs.active_not_mem p hp, fun hpt => hact (hpt ▸ hp)⟩

/-- Changing the active thread to one that is not queued keeps the queue invariant. -/
theorem QueueInv.withActive (hs : s.QueueInv) {a : Option τ} (ha : ∀ p, a = some p → p ∉ s.queued)
    (c : Nat) : ({ s with activeThread := a, schedtime := c } : FprrState τ).QueueInv where
  bit_iff := hs.bit_iff
  priority_eq := hs.priority_eq
  nodup := by simpa using hs.nodup
  active_not_mem p hp := by simpa using ha p hp

/-- Taking the head `t` off its list and making it the active thread keeps the queue invariant.
-/
theorem QueueInv.unlinkHead [DecidableEq τ] (hs : s.QueueInv) {i : Fin schedulerNumPriorities} {t : τ}
    (hhead : (s.runqueue i).head? = some t) (c : Nat) :
    ({ s.unlinkHead i with activeThread := some t, schedtime := c } : FprrState τ).QueueInv where
  bit_iff := bit_iff_unlinkHead hs.bit_iff i
  priority_eq j u hu := by
    have hu' : u ∈ (s.runqueue j).erase t := unlinkHead_runqueue hs hhead j ▸ hu
    simpa using hs.priority_eq j u (List.mem_of_mem_erase hu')
  nodup := by
    have hq := queued_unlinkHead hhead
    rw [queued_withActive]
    exact Multiset.nodup_of_le (Multiset.le_add_right _ _) (hq ▸ hs.nodup)
  active_not_mem p hp := by
    obtain rfl : t = p := Option.some.inj hp
    have hq := queued_unlinkHead hhead
    have hnd : ((s.unlinkHead i).queued + {t}).Nodup := hq ▸ hs.nodup
    rw [add_comm, Multiset.singleton_add] at hnd
    rw [queued_withActive]
    exact (Multiset.nodup_cons.1 hnd).1

/-- The choice between two threads reads only their priorities. -/
theorem shouldSwitch_withThread {th : τ → SchedThread}
    (hth : ∀ u, (th u).priority = (s.thread u).priority) :
    ({ s with thread := th } : FprrState τ).shouldSwitch = s.shouldSwitch := by
  funext prev e prio
  cases prev <;> simp [shouldSwitch, hth]

/-- The queue invariant reads only the priorities of the queued threads. -/
theorem QueueInv.withThread_of_queued (hs : s.QueueInv) {th : τ → SchedThread}
    (hth : ∀ u ∈ s.queued, (th u).priority = (s.thread u).priority) :
    ({ s with thread := th } : FprrState τ).QueueInv where
  bit_iff := hs.bit_iff
  priority_eq i u hu := (hth u (mem_queued.2 ⟨i, hu⟩)).trans (hs.priority_eq i u hu)
  nodup := by simpa using hs.nodup
  active_not_mem p hp := by simpa using hs.active_not_mem p hp

/-- The queue invariant reads only the priorities of the threads. -/
theorem QueueInv.withThread (hs : s.QueueInv) {th : τ → SchedThread}
    (hth : ∀ u, (th u).priority = (s.thread u).priority) :
    ({ s with thread := th } : FprrState τ).QueueInv :=
  hs.withThread_of_queued fun u _ => hth u

/-! ## Removing a thread from its list -/

section Unlink

variable [DecidableEq τ]

/-- The state with `t` taken off the list of its priority, and the list's bit cleared when the
list becomes empty. -/
def unlink (s : FprrState τ) (t : τ) : FprrState τ :=
  let i := (s.thread t).priority.rev
  (s.setQueue i ((s.runqueue i).erase t)).setBit i !((s.runqueue i).erase t).isEmpty

/-- `remove_from_runqueue` of a thread on the list of its priority takes it off that list, under
the queue invariant: the bit is cleared exactly when the list becomes empty, whether or not the
thread was the head. -/
theorem removeFromRunqueue_eq (hs : s.QueueInv) {t : τ}
    (ht : t ∈ s.runqueue (s.thread t).priority.rev) : s.removeFromRunqueue t = some (s.unlink t) := by
  have hbit : s.prioBitmap (s.thread t).priority.rev = true :=
    (hs.bit_iff _).2 (List.ne_nil_of_mem ht)
  simp only [removeFromRunqueue, hbit, Bool.not_true, Bool.false_eq_true, if_false,
    listDeleteNode_of_mem ht]
  cases hl : ((s.runqueue (s.thread t).priority.rev).erase t).isEmpty with
  | true =>
    -- the list becomes empty, so `t` was its head and no new head is reported
    have hhead : (s.runqueue (s.thread t).priority.rev).head? = some t := by
      rcases List.erase_eq_nil_iff.1 (List.isEmpty_iff.1 hl) with h | h
      · simp [h] at ht
      · simp [h]
    simp [hhead, unlink, hl]
  | false =>
    -- the list keeps a head, so its bit stays set
    have hkeep : (s.setQueue (s.thread t).priority.rev
        ((s.runqueue (s.thread t).priority.rev).erase t)).prioBitmap
          (s.thread t).priority.rev = true := hbit
    simp [unlink, hl, setBit_of_eq hkeep]

/-- Taking `t` off its list removes it from the queued threads. -/
theorem queued_unlink {t : τ} (ht : t ∈ s.runqueue (s.thread t).priority.rev) :
    (s.unlink t).queued + {t} = s.queued := by
  have hq := queued_setQueue (s := s) (s.thread t).priority.rev
    ((s.runqueue (s.thread t).priority.rev).erase t)
  have hperm : ((s.runqueue (s.thread t).priority.rev : List τ) : Multiset τ) =
      (((s.runqueue (s.thread t).priority.rev).erase t : List τ) : Multiset τ) + {t} := by
    rw [← Multiset.coe_erase, add_comm, Multiset.singleton_add, Multiset.cons_erase (by simpa using ht)]
  rw [hperm, add_comm _ ({t} : Multiset τ), ← add_assoc] at hq
  simpa only [unlink, queued_setBit] using (add_left_inj _).1 hq

@[simp] theorem unlink_thread (t : τ) : (s.unlink t).thread = s.thread := rfl

@[simp] theorem unlink_activeThread (t : τ) : (s.unlink t).activeThread = s.activeThread := rfl

/-- Taking a queued thread off its list keeps the queue invariant. -/
theorem QueueInv.unlink (hs : s.QueueInv) {t : τ}
    (ht : t ∈ s.runqueue (s.thread t).priority.rev) : (s.unlink t).QueueInv where
  bit_iff j := by
    by_cases hj : j = (s.thread t).priority.rev
    · subst hj
      simp [FprrState.unlink, setQueue, setBit]
    · simp [FprrState.unlink, setQueue, setBit, hj, hs.bit_iff j]
  priority_eq j u hu := by
    by_cases hj : j = (s.thread t).priority.rev
    · subst hj
      simp only [FprrState.unlink, setBit_runqueue, setQueue, update_self] at hu
      simpa using hs.priority_eq _ u (List.mem_of_mem_erase hu)
    · simp only [FprrState.unlink, setBit_runqueue, setQueue, ne_eq, hj, not_false_eq_true,
        update_of_ne] at hu
      simpa using hs.priority_eq j u hu
  nodup := by
    have hq := queued_unlink ht
    exact Multiset.nodup_of_le (Multiset.le_add_right _ _) (hq ▸ hs.nodup)
  active_not_mem p hp hmem := by
    have hle : (s.unlink t).queued ≤ s.queued := queued_unlink ht ▸ Multiset.le_add_right _ _
    exact hs.active_not_mem p hp (Multiset.mem_of_le hle hmem)

end Unlink

/-! ## `update_timeslice` -/

section Timeslice

variable [DecidableEq τ]

/-- `update_timeslice` changes only the timeslice and the yield flag of its thread, and resets
the timeslice of a thread whose timeslice expired. -/
theorem updateTimeslice_snd (t : τ) (c : Nat) :
    ∃ th, (s.updateTimeslice t c).2 = s.setThread t th ∧ th.priority = (s.thread t).priority ∧
      (s.getTargetTimeout t ≤ c → th.activeTimeslice = (s.thread t).baseTimeslice) := by
  by_cases h : s.getTargetTimeout t ≤ c
  · refine ⟨{ s.thread t with activeTimeslice := (s.thread t).baseTimeslice, yielding := false },
      ?_, rfl, fun _ => rfl⟩
    simp only [updateTimeslice, if_pos h]
  · refine ⟨{ s.thread t with activeTimeslice := s.getTargetTimeout t - c }, ?_, rfl,
      fun hle => absurd hle h⟩
    simp only [updateTimeslice, if_neg h]

/-- `update_timeslice` ends a directed yield at most: it starts none. -/
theorem updateTimeslice_yielding (t : τ) (c : Nat) {u : τ}
    (h : ((s.updateTimeslice t c).2.thread u).yielding = true) : (s.thread u).yielding = true := by
  by_cases hu : u = t
  · subst hu
    by_cases hexp : s.getTargetTimeout u ≤ c <;> simp_all [updateTimeslice, setThread]
  · by_cases hexp : s.getTargetTimeout t ≤ c <;> simp_all [updateTimeslice, setThread]

/-- Replacing the fields of a thread by ones of the same priority keeps every priority. -/
theorem setThread_priority {t : τ} {th : SchedThread} (hth : th.priority = (s.thread t).priority)
    (u : τ) : ((s.setThread t th).thread u).priority = (s.thread u).priority := by
  by_cases hu : u = t
  · subst hu
    simp [setThread, hth]
  · simp [setThread, hu]

/-- The `update_timeslice` of `get_next_target` leaves the lists, the bitmap, the active thread
and the priorities as they are. -/
theorem updateActive_snd (c : Nat) :
    ∃ th : τ → SchedThread, (s.updateActive c).2 = { s with thread := th } ∧
      (∀ u, (th u).priority = (s.thread u).priority) ∧
      ∀ p, s.activeThread = some p → s.getTargetTimeout p ≤ c →
        (th p).activeTimeslice = (s.thread p).baseTimeslice := by
  -- the split on the active thread must not rewrite the record of the goal
  rcases s with ⟨bits, queues, active, time, thread⟩
  cases active with
  | none => exact ⟨thread, rfl, fun _ => rfl, fun _ h => absurd h (by simp)⟩
  | some p =>
    obtain ⟨th, heq, hprio, hreset⟩ :=
      updateTimeslice_snd (s := ⟨bits, queues, some p, time, thread⟩) p c
    refine ⟨update thread p th, heq, setThread_priority hprio, ?_⟩
    rintro q hq hle
    obtain rfl : p = q := Option.some.inj hq
    simpa using hreset hle

@[simp] theorem updateActive_runqueue (c : Nat) : (s.updateActive c).2.runqueue = s.runqueue := by
  obtain ⟨th, h, -⟩ := updateActive_snd (s := s) c
  rw [h]

@[simp] theorem updateActive_prioBitmap (c : Nat) :
    (s.updateActive c).2.prioBitmap = s.prioBitmap := by
  obtain ⟨th, h, -⟩ := updateActive_snd (s := s) c
  rw [h]

@[simp] theorem queued_updateActive (c : Nat) : (s.updateActive c).2.queued = s.queued :=
  queued_eq_of_runqueue (updateActive_runqueue c)

theorem updateActive_priority (c : Nat) (u : τ) :
    ((s.updateActive c).2.thread u).priority = (s.thread u).priority := by
  obtain ⟨th, h, hprio, -⟩ := updateActive_snd (s := s) c
  rw [h]
  exact hprio u

theorem shouldSwitch_updateActive (c : Nat) :
    (s.updateActive c).2.shouldSwitch = s.shouldSwitch := by
  obtain ⟨th, h, hprio, -⟩ := updateActive_snd (s := s) c
  rw [h]
  exact shouldSwitch_withThread hprio

theorem QueueInv.updateActive (hs : s.QueueInv) (c : Nat) : (s.updateActive c).2.QueueInv := by
  obtain ⟨th, h, hprio, -⟩ := updateActive_snd (s := s) c
  rw [h]
  exact hs.withThread hprio

end Timeslice

/-! ## `get_next_target` -/

section NextTarget

variable [DecidableEq τ]

/-- The `bitmap_ffs` block keeps `prev`, or takes the head `t` of the list `i` that `bitmap_ffs`
finds. -/
theorem switchTarget_cases (hs : s.QueueInv) (prev : Option τ) (e : Bool) :
    (s.switchTarget prev e = some (prev, s) ∧
      ∀ i, Bitmap.ffs s.prioBitmap = some i → s.shouldSwitch prev e i.rev = false) ∨
    ∃ i t, Bitmap.ffs s.prioBitmap = some i ∧ (s.runqueue i).head? = some t ∧
      s.shouldSwitch prev e i.rev = true ∧
      s.switchTarget prev e = some (some t, s.unlinkHead i) := by
  cases hffs : Bitmap.ffs s.prioBitmap with
  | none => exact .inl ⟨by simp [switchTarget, hffs], fun i h => by simp at h⟩
  | some i =>
    cases hsw : s.shouldSwitch prev e i.rev with
    | false =>
      refine .inl ⟨by simp [switchTarget, hffs, hsw], fun j hj => ?_⟩
      obtain rfl := Option.some.inj hj
      exact hsw
    | true =>
      obtain ⟨t, hhead, hpop⟩ := popRunqueueHead_eq hs (Bitmap.ffs_eq_some hffs)
      exact .inr ⟨i, t, rfl, hhead, hsw, by simp [switchTarget, hffs, hsw, hpop]⟩

/-- What `get_next_target` does, said once: it keeps the active thread, or it runs the head `t`
of the list that `bitmap_ffs` finds and puts the active thread back on its list. -/
theorem getNextTarget_cases (hs : s.QueueInv) (c : Nat) :
    (s.getNextTarget c = some (s.activeThread,
        { (s.updateActive c).2 with activeThread := s.activeThread, schedtime := c }) ∧
      ∀ i, Bitmap.ffs s.prioBitmap = some i →
        s.shouldSwitch s.activeThread (s.updateActive c).1 i.rev = false) ∨
    ∃ i t, Bitmap.ffs s.prioBitmap = some i ∧ (s.runqueue i).head? = some t ∧
      s.shouldSwitch s.activeThread (s.updateActive c).1 i.rev = true ∧
      s.activeThread ≠ some t ∧
      s.getNextTarget c = some (some t,
        ({ (s.updateActive c).2.unlinkHead i with activeThread := some t, schedtime := c }).requeue
          s.activeThread (s.updateActive c).1) := by
  have hsw : (s.updateActive c).2.shouldSwitch = s.shouldSwitch := shouldSwitch_updateActive c
  rcases switchTarget_cases (hs.updateActive c) s.activeThread (s.updateActive c).1 with
    ⟨hkeep, hno⟩ | ⟨i, t, hffs, hhead, hyes, hswitch⟩
  · -- the active thread stays
    refine .inl ⟨?_, fun i hi => hsw ▸ hno i (by simpa using hi)⟩
    simp only [getNextTarget]
    rw [hkeep, Option.bind_some]
    cases s.activeThread <;> simp
  · -- the head of list `i` runs; the active thread is not queued, so it is not that head
    rw [updateActive_prioBitmap] at hffs
    rw [updateActive_runqueue] at hhead
    have hne : s.activeThread ≠ some t := fun hp =>
      hs.active_not_mem t hp (mem_queued_of_head hhead)
    refine .inr ⟨i, t, hffs, hhead, hsw ▸ hyes, hne, ?_⟩
    simp only [getNextTarget]
    rw [hswitch, Option.bind_some]
    cases hp : s.activeThread with
    | none => simp [requeue]
    | some p =>
      have hpt : some t ≠ some p := fun h => hne (by rw [hp, h])
      -- the active thread goes back on its list, whose bit is right after the head was taken
      have hadd := addToRunqueue_eq
        (s := { (s.updateActive c).2.unlinkHead i with activeThread := some t, schedtime := c })
        p (s.updateActive c).1 (bit_iff_unlinkHead (hs.updateActive c).bit_iff i _)
      simp only [if_neg hpt, hadd, Option.map_some, requeue]

variable {c : Nat} {target : Option τ} {s' : FprrState τ}

/-- The thread fields after `get_next_target` are those that `update_timeslice` left. -/
theorem getNextTarget_thread (hs : s.QueueInv) (h : s.getNextTarget c = some (target, s')) :
    s'.thread = (s.updateActive c).2.thread := by
  rcases getNextTarget_cases hs c with ⟨hkeep, -⟩ | ⟨i, t, -, -, -, -, hswitch⟩
  · obtain ⟨-, rfl⟩ := Prod.mk.inj (Option.some.inj (hkeep.symm.trans h))
    rfl
  · obtain ⟨-, rfl⟩ := Prod.mk.inj (Option.some.inj (hswitch.symm.trans h))
    cases s.activeThread <;> rfl

/-- (3) No thread is lost or duplicated: the queued threads and the active thread are the same
multiset before and after. -/
theorem getNextTarget_threads (hs : s.QueueInv) (h : s.getNextTarget c = some (target, s')) :
    s'.queued + (s'.activeThread.toList : Multiset τ) =
      s.queued + (s.activeThread.toList : Multiset τ) := by
  rcases getNextTarget_cases hs c with ⟨hkeep, -⟩ | ⟨i, t, -, hhead, -, -, hswitch⟩
  · obtain ⟨-, rfl⟩ := Prod.mk.inj (Option.some.inj (hkeep.symm.trans h))
    simp only [queued_withActive, queued_updateActive]
  · obtain ⟨-, rfl⟩ := Prod.mk.inj (Option.some.inj (hswitch.symm.trans h))
    -- the head `t` leaves its list and becomes active
    have hunlink := queued_unlinkHead (s := (s.updateActive c).2) (i := i) (t := t)
      (by rwa [updateActive_runqueue])
    cases hp : s.activeThread with
    | none =>
      simp only [requeue, queued_withActive, Option.toList_some, Option.toList_none,
        Multiset.coe_singleton, Multiset.coe_nil, add_zero]
      rw [hunlink, queued_updateActive]
    | some p =>
      -- and the active thread `p` goes back on its list
      simp only [requeue, queued_link, queued_withActive, link_activeThread, Option.toList_some,
        Multiset.coe_singleton]
      rw [add_right_comm, hunlink, queued_updateActive]

/-- After `get_next_target` the target is the active thread. -/
theorem getNextTarget_activeThread (hs : s.QueueInv) (h : s.getNextTarget c = some (target, s')) :
    s'.activeThread = target := by
  rcases getNextTarget_cases hs c with ⟨hkeep, -⟩ | ⟨i, t, -, -, -, -, hswitch⟩
  · obtain ⟨rfl, rfl⟩ := Prod.mk.inj (Option.some.inj (hkeep.symm.trans h))
    rfl
  · obtain ⟨rfl, rfl⟩ := Prod.mk.inj (Option.some.inj (hswitch.symm.trans h))
    cases s.activeThread <;> rfl

/-- `get_next_target` changes no priority. -/
theorem getNextTarget_priority (hs : s.QueueInv) (h : s.getNextTarget c = some (target, s'))
    (u : τ) : (s'.thread u).priority = (s.thread u).priority := by
  rw [getNextTarget_thread hs h]
  exact updateActive_priority c u

/-- `get_next_target` starts no directed yield. -/
theorem getNextTarget_yielding (hs : s.QueueInv) (h : s.getNextTarget c = some (target, s'))
    {u : τ} (hu : (s'.thread u).yielding = true) : (s.thread u).yielding = true := by
  rw [getNextTarget_thread hs h] at hu
  unfold updateActive at hu
  split at hu
  · exact hu
  · exact updateTimeslice_yielding _ c hu

/-- `get_next_target` returns on a state with the queue invariant: its asserts hold. -/
theorem getNextTarget_returns (hs : s.QueueInv) (c : Nat) :
    ∃ target s', s.getNextTarget c = some (target, s') := by
  rcases getNextTarget_cases hs c with ⟨hkeep, -⟩ | ⟨i, t, -, -, -, -, hswitch⟩
  · exact ⟨_, _, hkeep⟩
  · exact ⟨_, _, hswitch⟩

/-- `get_next_target` keeps the queue invariant. -/
theorem QueueInv.getNextTarget (hs : s.QueueInv) (h : s.getNextTarget c = some (target, s')) :
    s'.QueueInv := by
  have hs₁ := hs.updateActive c
  have hq₁ : (s.updateActive c).2.queued = s.queued := queued_updateActive c
  rcases getNextTarget_cases hs c with ⟨hkeep, -⟩ | ⟨i, t, -, hhead, -, hne, hswitch⟩
  · obtain ⟨-, rfl⟩ := Prod.mk.inj (Option.some.inj (hkeep.symm.trans h))
    exact hs₁.withActive (fun p hp => hq₁ ▸ hs.active_not_mem p hp) c
  · obtain ⟨-, rfl⟩ := Prod.mk.inj (Option.some.inj (hswitch.symm.trans h))
    have hhead₁ : ((s.updateActive c).2.runqueue i).head? = some t := by
      rwa [updateActive_runqueue]
    have hu := hs₁.unlinkHead hhead₁ c
    cases hp : s.activeThread with
    | none => exact hu
    | some p =>
      -- the preempted thread `p` was not queued, and the new active thread is `t`
      have hnot : p ∉ ((s.updateActive c).2.unlinkHead i).queued := by
        intro hmem
        have hle : ((s.updateActive c).2.unlinkHead i).queued ≤ s.queued :=
          hq₁ ▸ queued_unlinkHead hhead₁ ▸ Multiset.le_add_right _ _
        exact hs.active_not_mem p hp (Multiset.mem_of_le hle hmem)
      have hact : some t ≠ some p := fun htp => hne (hp.trans htp.symm)
      exact hu.link (by simpa only [queued_withActive] using hnot) hact _


/-- On a state with the queue invariant, `get_next_target` returns, without failing an assert, and
the state it leaves has the queue invariant. -/
theorem getNextTarget_queueInv (s : FprrState τ) (hs : s.QueueInv) (c : Nat) :
    ∃ target s', s.getNextTarget c = some (target, s') ∧ s'.QueueInv := by
  obtain ⟨target, s', h⟩ := getNextTarget_returns hs c
  exact ⟨target, s', h, hs.getNextTarget h⟩

/-- Thread `0` runs and thread `1` waits, both at priority 32 with timeslices of 10 ticks. -/
def roundRobinState : FprrState (Fin 2) where
  prioBitmap i := decide (i = (32 : Priority).rev)
  runqueue i := if i = (32 : Priority).rev then [1] else []
  activeThread := some 0
  schedtime := 0
  thread _ := ⟨32, 10, 10, false⟩

theorem roundRobinState_queued : roundRobinState.queued = {1} := by
  unfold queued
  simp only [roundRobinState, apply_ite (fun l : List (Fin 2) => (l : Multiset (Fin 2))),
    Multiset.coe_singleton, Multiset.coe_nil, Finset.sum_ite_eq', Finset.mem_univ, if_true]

theorem roundRobinState_queueInv : roundRobinState.QueueInv where
  bit_iff i := by
    by_cases hi : i = (32 : Priority).rev
    · subst hi
      decide
    · simp only [roundRobinState, hi, decide_false, if_false, Bool.false_eq_true, ne_eq,
        not_true_eq_false]
  priority_eq i t ht := by
    by_cases hi : i = (32 : Priority).rev
    · subst hi
      exact (Fin.rev_rev 32).symm
    · simp only [roundRobinState, hi, if_false, List.not_mem_nil] at ht
  nodup := by
    rw [roundRobinState_queued]
    exact Multiset.nodup_singleton 1
  active_not_mem p hp := by
    obtain rfl : (0 : Fin 2) = p := Option.some.inj hp
    simp [roundRobinState_queued]

/-- At tick 10 of the round robin state, `get_next_target` returns and keeps the queue
invariant. -/
theorem getNextTarget_queueInv_roundRobin :
    roundRobinState.QueueInv ∧ ∃ target s', roundRobinState.getNextTarget 10 = some (target, s') ∧
      s'.QueueInv :=
  ⟨roundRobinState_queueInv, getNextTarget_queueInv roundRobinState roundRobinState_queueInv 10⟩

end NextTarget

end FprrState

end Gunyah.Scheduler

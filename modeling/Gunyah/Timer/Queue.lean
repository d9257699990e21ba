import Gunyah.Lib.LinkedList
import Mathlib

set_option autoImplicit false

/-!
# Per-CPU timer queues

A model of the timer queues of `hyp/core/timer/src/timer_queue.c` and of the operations that add
a timer to a queue or take one off it: `timer_enqueue_internal`, `timer_dequeue_internal` and
`timer_update_internal`, and their callers `timer_enqueue`, `timer_dequeue` and `timer_update`.

Each CPU has a queue: a list of timers ordered by timeout (`list_insert_in_order` with
`is_timeout_a_smaller_than_b`), and a cached `timeout`, which the code keeps equal to the head's
timeout, or `TIMER_INVALID_TIMEOUT` for an empty list, from the new-head results of the list
operations. A timer records its timeout and the queue it is on.

The effect of each operation is said once, as two functions: `unlink` takes a timer off a queue
and `link` puts it on in order, each recomputing the cached timeout. The code's operations are
shown to be these (`timerDequeueInternal_eq`, `timerEnqueueInternal_eq`,
`timerUpdateInternal_eq`), and the invariant `TimerInv` is shown to be kept by both. The
invariant states that every queue is sorted by timeout, with timers of equal timeout in the
order they were queued; that the cached timeout is the head's; and that a timer's `queue` names
the one queue it is linked in.

To state the order of equal timeouts, the state has ghost fields that the code does not have:
every insertion stamps the timer with a counter. Spinlocks, preemption and the programming of the
platform timer are left out; the model is sequential. A failed `assert` and a `panic` give `none`.
-/

namespace Gunyah.Timer

open LinkedList Function

/-- `TIMER_INVALID_TIMEOUT`: `-1` as a 64-bit `ticks_t`. -/
def timerInvalidTimeout : Nat := 2 ^ 64 - 1

/-- `timer_queue_t`: the cached earliest timeout, the queued timers in order, and whether the
queue's CPU takes timers. -/
@[ext] structure TimerQueue (T : Type) where
  timeout : Nat
  list : List T
  online : Bool

/-- The timers `T`, each with its `timeout` and `queue`, and the timer queues of the `n` CPUs
(`PLATFORM_MAX_CORES`). `stamp` and `clock` are ghost state: the count of insertions when each
timer was last inserted, and the count so far. -/
@[ext] structure TimerState (T : Type) (n : Nat) where
  timeout : T → Nat
  queue : T → Option (Fin n)
  queues : Fin n → TimerQueue T
  stamp : T → Nat
  clock : Nat

variable {T : Type} {n : Nat}

/-- The cached timeout of a queue holding `l`: the head's timeout, or `TIMER_INVALID_TIMEOUT`. -/
def headTimeout (timeout : T → Nat) (l : List T) : Nat :=
  match l.head? with
  | none => timerInvalidTimeout
  | some x => timeout x

namespace TimerState

variable (s : TimerState T n)

/-- The state with CPU `c`'s queue replaced. -/
def setQueue (c : Fin n) (q : TimerQueue T) : TimerState T n :=
  { s with queues := update s.queues c q }

variable [DecidableEq T]

/-- `is_timeout_a_smaller_than_b`. -/
def isTimeoutASmallerThanB (a b : T) : Bool := decide (s.timeout a < s.timeout b)

/-- `list_insert_in_order` of timer `x` on CPU `c`'s queue; the insertion stamps `x`. -/
def insertTimer (c : Fin n) (x : T) : TimerState T n × Bool :=
  let r := listInsertInOrder s.isTimeoutASmallerThanB x (s.queues c).list
  ({ s.setQueue c { s.queues c with list := r.1 } with
      stamp := update s.stamp x s.clock, clock := s.clock + 1 }, r.2)

/-- `timer_enqueue_internal (tq, timer, timeout)` on CPU `c`'s queue. -/
def timerEnqueueInternal (c : Fin n) (x : T) (timeout : Nat) : Option (TimerState T n) :=
  -- `assert(tq->online)`
  if !(s.queues c).online then none
  -- the compare-exchange of `timer->queue` from `NULL` fails: `panic`
  else if (s.queue x).isSome then none
  else
    let s := { s with queue := update s.queue x (some c), timeout := update s.timeout x timeout }
    let r := s.insertTimer c x
    if r.2 then some (r.1.setQueue c { r.1.queues c with timeout }) else some r.1

/-- `timer_dequeue_internal (tq, timer)` on CPU `c`'s queue: the state and whether the queue's
timeout changed. The head's timeout is read through `list_get_head`, which for an empty list
returns `NULL`. -/
def timerDequeueInternal (c : Fin n) (x : T) : Option (TimerState T n × Bool) :=
  if s.queue x = some c then
    match listDeleteNode x (s.queues c).list with
    | none => none
    | some (l, newHead) =>
      let q := { s.queues c with list := l }
      let r : Option (TimerQueue T × Bool) :=
        if newHead then l.head?.map fun y => ({ q with timeout := s.timeout y }, true)
        else if l.isEmpty then some ({ q with timeout := timerInvalidTimeout }, true)
        else some (q, false)
      r.map fun qt => ({ s.setQueue c qt.1 with queue := update s.queue x none }, qt.2)
  else some (s, false)

/-- `timer_update_internal (tq, timer, timeout)` on CPU `c`'s queue. -/
def timerUpdateInternal (c : Fin n) (x : T) (timeout : Nat) : Option (TimerState T n) :=
  if !(s.queues c).online then none
  -- the timer is not on this CPU's queue: `panic`
  else if s.queue x ≠ some c then none
  else if s.timeout x ≠ timeout then
    match listDeleteNode x (s.queues c).list with
    | none => none
    | some (l, newHeadDelete) =>
      let s := { s.setQueue c { s.queues c with list := l } with
        timeout := update s.timeout x timeout }
      let r := s.insertTimer c x
      if newHeadDelete || r.2 then
        (r.1.queues c).list.head?.map fun y =>
          r.1.setQueue c { r.1.queues c with timeout := r.1.timeout y }
      else some r.1
  else some s

/-- `timer_enqueue (timer, timeout)` on CPU `c`. -/
def timerEnqueue (c : Fin n) (x : T) (timeout : Nat) : Option (TimerState T n) :=
  s.timerEnqueueInternal c x timeout

/-- `timer_dequeue (timer)`, from the queue the timer names. -/
def timerDequeue (x : T) : Option (TimerState T n) :=
  match s.queue x with
  | none => some s
  | some c => (s.timerDequeueInternal c x).map Prod.fst

/-- `timer_update (timer, timeout)` on CPU `c`: a timer queued on another CPU is dequeued there
and enqueued here. -/
def timerUpdate (c : Fin n) (x : T) (timeout : Nat) : Option (TimerState T n) :=
  let oldTq := s.queue x
  let s' : Option (TimerState T n) :=
    match oldTq with
    | some d => if d ≠ c then (s.timerDequeueInternal d x).map Prod.fst else some s
    | none => some s
  s'.bind fun s =>
    if oldTq = some c then s.timerUpdateInternal c x timeout else s.timerEnqueueInternal c x timeout

/-! ## The effect of an operation -/

/-- Timer `x` taken off CPU `c`'s queue, whose cached timeout is recomputed. -/
def unlink (c : Fin n) (x : T) : TimerState T n :=
  let l := (s.queues c).list.erase x
  s.setQueue c { s.queues c with list := l, timeout := headTimeout s.timeout l }

/-- Timer `x` inserted in order on CPU `c`'s queue, whose cached timeout is recomputed. -/
def link (c : Fin n) (x : T) : TimerState T n :=
  let s := (s.insertTimer c x).1
  s.setQueue c { s.queues c with timeout := headTimeout s.timeout (s.queues c).list }

end TimerState

/-! ## Field lemmas -/

namespace TimerState

variable (s : TimerState T n) (c d : Fin n) (x : T)

@[simp] theorem setQueue_queues_self (q : TimerQueue T) : (s.setQueue c q).queues c = q := by
  simp [setQueue]

@[simp] theorem setQueue_queues_of_ne (q : TimerQueue T) {d : Fin n} (hd : d ≠ c) :
    (s.setQueue c q).queues d = s.queues d := by
  simp [setQueue, hd]

@[simp] theorem setQueue_timeout (q : TimerQueue T) : (s.setQueue c q).timeout = s.timeout := rfl
@[simp] theorem setQueue_queue (q : TimerQueue T) : (s.setQueue c q).queue = s.queue := rfl
@[simp] theorem setQueue_stamp (q : TimerQueue T) : (s.setQueue c q).stamp = s.stamp := rfl
@[simp] theorem setQueue_clock (q : TimerQueue T) : (s.setQueue c q).clock = s.clock := rfl

theorem setQueue_self : s.setQueue c (s.queues c) = s := by
  simp [setQueue]

@[simp] theorem setQueue_setQueue (q q' : TimerQueue T) :
    (s.setQueue c q).setQueue c q' = s.setQueue c q' := by
  simp [setQueue]

variable [DecidableEq T]

@[simp] theorem unlink_list : ((s.unlink c x).queues c).list = (s.queues c).list.erase x := by
  simp [unlink]

@[simp] theorem unlink_queues_timeout :
    ((s.unlink c x).queues c).timeout = headTimeout s.timeout ((s.queues c).list.erase x) := by
  simp [unlink]

@[simp] theorem unlink_queues_of_ne {d : Fin n} (hd : d ≠ c) :
    (s.unlink c x).queues d = s.queues d := by
  simp [unlink, hd]

@[simp] theorem unlink_online : ((s.unlink c x).queues d).online = (s.queues d).online := by
  by_cases hd : d = c
  · subst hd
    simp [unlink]
  · simp [hd]

@[simp] theorem unlink_timeout : (s.unlink c x).timeout = s.timeout := rfl
@[simp] theorem unlink_queue : (s.unlink c x).queue = s.queue := rfl
@[simp] theorem unlink_stamp : (s.unlink c x).stamp = s.stamp := rfl
@[simp] theorem unlink_clock : (s.unlink c x).clock = s.clock := rfl

@[simp] theorem link_list :
    ((s.link c x).queues c).list =
      (listInsertInOrder s.isTimeoutASmallerThanB x (s.queues c).list).1 := by
  simp [link, insertTimer]

@[simp] theorem link_queues_timeout :
    ((s.link c x).queues c).timeout =
      headTimeout s.timeout (listInsertInOrder s.isTimeoutASmallerThanB x (s.queues c).list).1 := by
  simp [link, insertTimer]

@[simp] theorem link_queues_of_ne {d : Fin n} (hd : d ≠ c) : (s.link c x).queues d = s.queues d := by
  simp [link, insertTimer, hd]

@[simp] theorem link_online : ((s.link c x).queues d).online = (s.queues d).online := by
  by_cases hd : d = c
  · subst hd
    simp [link, insertTimer]
  · simp [hd]

@[simp] theorem link_timeout : (s.link c x).timeout = s.timeout := rfl
@[simp] theorem link_queue : (s.link c x).queue = s.queue := rfl
@[simp] theorem link_stamp : (s.link c x).stamp = update s.stamp x s.clock := rfl
@[simp] theorem link_clock : (s.link c x).clock = s.clock + 1 := rfl

@[simp] theorem insertTimer_list :
    ((s.insertTimer c x).1.queues c).list =
      (listInsertInOrder s.isTimeoutASmallerThanB x (s.queues c).list).1 := by
  simp [insertTimer]

@[simp] theorem insertTimer_queues_timeout :
    ((s.insertTimer c x).1.queues c).timeout = (s.queues c).timeout := by
  simp [insertTimer]

@[simp] theorem insertTimer_timeout : (s.insertTimer c x).1.timeout = s.timeout := rfl

theorem insertTimer_snd :
    (s.insertTimer c x).2 = (listInsertInOrder s.isTimeoutASmallerThanB x (s.queues c).list).2 :=
  rfl

/-- `link` reads of the state only the timeouts and stamps, the list and online flag of the queue
it links into, and the other queues. -/
theorem link_congr {u : TimerState T n} (htimeout : s.timeout = u.timeout)
    (hqueue : s.queue = u.queue) (hstamp : s.stamp = u.stamp) (hclock : s.clock = u.clock)
    (hlist : (s.queues c).list = (u.queues c).list)
    (honline : (s.queues c).online = (u.queues c).online)
    (hother : ∀ d, d ≠ c → s.queues d = u.queues d) : s.link c x = u.link c x := by
  have hlt : s.isTimeoutASmallerThanB = u.isTimeoutASmallerThanB := by
    funext a b
    simp [isTimeoutASmallerThanB, htimeout]
  ext1
  · simp [htimeout]
  · simp [hqueue]
  · funext d
    by_cases hd : d = c
    · subst hd
      ext1 <;> simp [hlt, hlist, htimeout, honline]
    · simp [hd, hother d hd]
  · simp [hstamp, hclock]
  · simp [hclock]

end TimerState

/-! ## Cached timeouts -/

section HeadTimeout

variable {timeout timeout' : T → Nat} {l l' : List T}

@[simp] theorem headTimeout_nil : headTimeout timeout ([] : List T) = timerInvalidTimeout := rfl

@[simp] theorem headTimeout_cons (x : T) (l : List T) :
    headTimeout timeout (x :: l) = timeout x := rfl

theorem headTimeout_of_head? {x : T} (h : l.head? = some x) : headTimeout timeout l = timeout x := by
  simp [headTimeout, h]

theorem headTimeout_congr_head? (h : l.head? = l'.head?) :
    headTimeout timeout l = headTimeout timeout l' := by
  simp [headTimeout, h]

/-- Only the head's timeout counts. -/
theorem headTimeout_congr (h : ∀ y ∈ l, timeout y = timeout' y) :
    headTimeout timeout l = headTimeout timeout' l := by
  cases l with
  | nil => rfl
  | cons y l => exact h y List.mem_cons_self

end HeadTimeout

/-! ## The invariant -/

namespace TimerState

variable (s : TimerState T n)

/-- `x` goes before `y` on a queue: an earlier timeout, or the same timeout and an earlier
insertion. -/
def Before (x y : T) : Prop :=
  s.timeout x < s.timeout y ∨ (s.timeout x = s.timeout y ∧ s.stamp x < s.stamp y)

end TimerState

/-- The invariant of the timer queues. -/
structure TimerInv (s : TimerState T n) : Prop where
  /-- Every queue is sorted by timeout, equal timeouts in insertion order. -/
  sorted : ∀ c, (s.queues c).list.Pairwise s.Before
  /-- The cached timeout is the head's, or `TIMER_INVALID_TIMEOUT` for an empty queue. -/
  timeout_eq : ∀ c, (s.queues c).timeout = headTimeout s.timeout (s.queues c).list
  /-- A timer names the queue it is linked in. -/
  queue_iff : ∀ x c, s.queue x = some c ↔ x ∈ (s.queues c).list
  /-- No queued timer has the invalid timeout. -/
  valid : ∀ x c, x ∈ (s.queues c).list → s.timeout x ≠ timerInvalidTimeout
  /-- Every queued timer was stamped before the clock. -/
  stamp_lt : ∀ x c, x ∈ (s.queues c).list → s.stamp x < s.clock

namespace TimerInv

variable {s : TimerState T n} (h : TimerInv s)
include h

theorem nodup (c : Fin n) : (s.queues c).list.Nodup :=
  (h.sorted c).imp fun {x y} hxy hxy' => by
    subst hxy'
    rcases hxy with hlt | ⟨-, hlt⟩ <;> exact Nat.lt_irrefl _ hlt

theorem sorted_timeout (c : Fin n) :
    (s.queues c).list.Pairwise fun x y => s.timeout x ≤ s.timeout y :=
  (h.sorted c).imp fun {x y} hxy => by
    rcases hxy with hlt | ⟨heq, -⟩
    · exact Nat.le_of_lt hlt
    · exact Nat.le_of_eq heq

theorem not_mem_of_queue_eq_none {x : T} (hx : s.queue x = none) (c : Fin n) :
    x ∉ (s.queues c).list := fun hmem => by
  rw [← h.queue_iff] at hmem
  rw [hx] at hmem
  cases hmem

/-- The cached timeout is invalid exactly when the queue is empty. -/
theorem timeout_eq_invalid_iff (c : Fin n) :
    (s.queues c).timeout = timerInvalidTimeout ↔ (s.queues c).list = [] := by
  rw [h.timeout_eq c]
  cases hl : (s.queues c).list with
  | nil => simp
  | cons x l =>
    simp only [headTimeout_cons, reduceCtorEq, iff_false]
    exact h.valid x c (hl ▸ List.mem_cons_self)

end TimerInv

/-! ## The code's operations are `unlink` and `link` -/

namespace TimerState

variable [DecidableEq T]

variable {s : TimerState T n} {c : Fin n} {x : T}

/-- Dequeueing a timer from the queue it is on unlinks it and clears its queue. -/
theorem timerDequeueInternal_eq (h : TimerInv s) (hx : s.queue x = some c) :
    ∃ b, s.timerDequeueInternal c x = some ({ s.unlink c x with queue := update s.queue x none }, b) := by
  have hmem : x ∈ (s.queues c).list := (h.queue_iff x c).1 hx
  -- the cached timeout the code writes is the head's in every branch
  have hq : ∀ q : TimerQueue T, q.list = (s.queues c).list.erase x →
      q.timeout = headTimeout s.timeout ((s.queues c).list.erase x) →
      q.online = (s.queues c).online →
      ({ s.setQueue c q with queue := update s.queue x none } : TimerState T n) =
        { s.unlink c x with queue := update s.queue x none } := by
    rintro ⟨t, l, o⟩ rfl rfl rfl
    rfl
  unfold timerDequeueInternal
  rw [if_pos hx, listDeleteNode_of_mem hmem]
  dsimp only
  split_ifs with hnew hempty
  · obtain ⟨y, hy⟩ : ∃ y, ((s.queues c).list.erase x).head? = some y := by
      simp only [Bool.and_eq_true, Bool.not_eq_true', List.isEmpty_eq_false_iff] at hnew
      exact Option.ne_none_iff_exists'.1 (mt List.head?_eq_none_iff.1 hnew.2)
    rw [hy]
    exact ⟨true, congrArg (fun st => some (st, true)) (hq _ rfl (headTimeout_of_head? hy).symm rfl)⟩
  · have hnil : (s.queues c).list.erase x = [] := List.isEmpty_iff.1 hempty
    exact ⟨true, congrArg (fun st => some (st, true)) (hq _ rfl (by rw [hnil]; rfl) rfl)⟩
  · have hne : (s.queues c).list.erase x ≠ [] := fun he => hempty (List.isEmpty_iff.2 he)
    have hhead := head?_erase_of_not_newHead (Bool.eq_false_iff.2 hnew) hne
    exact ⟨false, congrArg (fun st => some (st, false))
      (hq _ rfl (by rw [headTimeout_congr_head? hhead, ← h.timeout_eq c]) rfl)⟩

/-- The insertion of `timer_enqueue_internal` and `timer_try_move_to_cpu`, which sets the cached
timeout to the timer's when it is the new head, is `link`. -/
theorem insertTimer_cache_eq_link (s₁ : TimerState T n) (c : Fin n) (x : T) {t : Nat}
    (ht : s₁.timeout x = t)
    (hcache : (s₁.queues c).timeout = headTimeout s₁.timeout (s₁.queues c).list) :
    (if (s₁.insertTimer c x).2 then
        some ((s₁.insertTimer c x).1.setQueue c { (s₁.insertTimer c x).1.queues c with timeout := t })
      else some (s₁.insertTimer c x).1) = some (s₁.link c x) := by
  unfold link
  dsimp only
  cases hnew : (s₁.insertTimer c x).2
  · -- not the new head: the cached timeout is written back unchanged
    rw [insertTimer_snd] at hnew
    have hhead : headTimeout (s₁.insertTimer c x).1.timeout ((s₁.insertTimer c x).1.queues c).list =
        ((s₁.insertTimer c x).1.queues c).timeout := by
      rw [insertTimer_list, insertTimer_timeout, insertTimer_queues_timeout, hcache]
      exact headTimeout_congr_head? (head?_listInsertInOrder_of_not_newHead hnew)
    rw [if_neg Bool.false_ne_true, hhead]
    exact congrArg some (setQueue_self _ c).symm
  · rw [insertTimer_snd] at hnew
    have hhead : headTimeout (s₁.insertTimer c x).1.timeout ((s₁.insertTimer c x).1.queues c).list =
        t := by
      rw [insertTimer_list, insertTimer_timeout,
        headTimeout_of_head? (head?_listInsertInOrder_of_newHead hnew), ht]
    rw [if_pos rfl, hhead]

/-- Enqueueing a timer that is on no queue links it, with its timeout set. -/
theorem timerEnqueueInternal_eq (h : TimerInv s) (hon : (s.queues c).online = true)
    (hx : s.queue x = none) (t : Nat) :
    s.timerEnqueueInternal c x t =
      some (link { s with queue := update s.queue x (some c), timeout := update s.timeout x t } c x) := by
  -- the old cached timeout is the head's, and the head is not `x`
  have hold : (s.queues c).timeout = headTimeout (update s.timeout x t) (s.queues c).list := by
    rw [h.timeout_eq c]
    exact headTimeout_congr fun y hy => (update_of_ne
      (fun (e : y = x) => h.not_mem_of_queue_eq_none hx c (e ▸ hy)) _ _).symm
  unfold timerEnqueueInternal
  rw [if_neg (by simp [hon]), if_neg (by simp [hx])]
  exact insertTimer_cache_eq_link _ c x (update_self x t s.timeout) hold

/-- Updating the timeout of a timer on this CPU's queue unlinks it and links it again. -/
theorem timerUpdateInternal_eq (h : TimerInv s) (hon : (s.queues c).online = true)
    (hx : s.queue x = some c) {t : Nat} (ht : s.timeout x ≠ t) :
    s.timerUpdateInternal c x t = some (link { s.unlink c x with timeout := update s.timeout x t } c x) := by
  have hmem : x ∈ (s.queues c).list := (h.queue_iff x c).1 hx
  set l := (s.queues c).list.erase x with hl
  -- the code links into a state whose cached timeout is still the old one; `link` does not read it
  set s₂ : TimerState T n :=
    { s.setQueue c { s.queues c with list := l } with timeout := update s.timeout x t } with hs₂
  have hq₂ : s₂.queues c = { s.queues c with list := l } := by simp [s₂]
  have hlink : link { s.unlink c x with timeout := update s.timeout x t } c x = s₂.link c x :=
    link_congr _ c x rfl rfl rfl rfl (by simp [s₂, l]) (by simp [s₂])
      (fun d hd => by simp [s₂, hd])
  set r := s₂.insertTimer c x with hr
  have hcode : s.timerUpdateInternal c x t =
      if ((s.queues c).list.head? == some x && !l.isEmpty) || r.2 then
        (r.1.queues c).list.head?.map fun y => r.1.setQueue c { r.1.queues c with timeout := r.1.timeout y }
      else some r.1 := by
    unfold timerUpdateInternal
    rw [if_neg (by simp [hon]), if_neg (not_not.2 hx), if_pos ht, listDeleteNode_of_mem hmem]
  have hlinkr : s₂.link c x =
      r.1.setQueue c { r.1.queues c with timeout := headTimeout r.1.timeout (r.1.queues c).list } :=
    rfl
  rw [hcode, hlink, hlinkr]
  have hnonempty : (r.1.queues c).list ≠ [] := by
    rw [hr, insertTimer_list, ← List.length_pos_iff, length_listInsertInOrder]
    exact Nat.succ_pos _
  obtain ⟨y, hy⟩ := Option.ne_none_iff_exists'.1 (mt List.head?_eq_none_iff.1 hnonempty)
  split_ifs with hnew
  · -- a head changed: the cached timeout is the new head's
    rw [hy, headTimeout_of_head? hy]
    rfl
  · -- no head changed: the head is the old head, whose timeout is the cached one
    simp only [Bool.or_eq_true, not_or, Bool.not_eq_true] at hnew
    obtain ⟨hdel, hins⟩ := hnew
    have hins' : (listInsertInOrder s₂.isTimeoutASmallerThanB x l).2 = false := by
      rw [hr, insertTimer_snd, hq₂] at hins
      exact hins
    have hlne : l ≠ [] := fun he => by
      rw [he] at hins'
      simp [listInsertInOrder] at hins'
    have hhead : (r.1.queues c).list.head? = (s.queues c).list.head? := by
      rw [hr, insertTimer_list, hq₂, head?_listInsertInOrder_of_not_newHead hins']
      exact head?_erase_of_not_newHead hdel hlne
    obtain ⟨z, hz⟩ := Option.ne_none_iff_exists'.1
      (mt List.head?_eq_none_iff.1 (List.ne_nil_of_mem hmem))
    have hzx : z ≠ x := by
      rintro rfl
      simp [hz, List.isEmpty_iff, hlne] at hdel
    have hcache : headTimeout r.1.timeout (r.1.queues c).list = (r.1.queues c).timeout := by
      rw [headTimeout_of_head? (hhead.trans hz), hr, insertTimer_queues_timeout, insertTimer_timeout,
        hq₂, hs₂]
      simp only [update_of_ne hzx]
      rw [h.timeout_eq c, headTimeout_of_head? hz]
    rw [hcache]
    exact congrArg some (setQueue_self _ c).symm

theorem timerUpdateInternal_of_eq (hon : (s.queues c).online = true) (hx : s.queue x = some c)
    {t : Nat} (ht : s.timeout x = t) : s.timerUpdateInternal c x t = some s := by
  unfold timerUpdateInternal
  rw [if_neg (by simp [hon]), if_neg (not_not.2 hx), if_neg (not_not.2 ht)]

end TimerState

/-! ## The operations keep the invariant -/

namespace TimerState

variable [DecidableEq T] (s : TimerState T n) {c d : Fin n} {x y : T}

theorem mem_unlink_iff (hnd : (s.queues c).list.Nodup) :
    y ∈ ((s.unlink c x).queues d).list ↔ y ∈ (s.queues d).list ∧ (d = c → y ≠ x) := by
  by_cases hd : d = c
  · subst hd
    rw [unlink_list, hnd.mem_erase_iff]
    exact ⟨fun ⟨hyx, hy⟩ => ⟨hy, fun _ => hyx⟩, fun ⟨hy, hyx⟩ => ⟨hyx rfl, hy⟩⟩
  · simp [hd]

theorem mem_link_iff :
    y ∈ ((s.link c x).queues d).list ↔ (d = c ∧ y = x) ∨ y ∈ (s.queues d).list := by
  by_cases hd : d = c
  · subst hd
    simp [mem_listInsertInOrder]
  · simp [hd]

end TimerState

namespace TimerInv

variable [DecidableEq T] {s : TimerState T n} {c : Fin n} {x : T}

/-- Taking a timer off the queue it is on, and clearing its queue, keeps the invariant. -/
theorem dequeue (h : TimerInv s) (hx : s.queue x = some c) :
    TimerInv { s.unlink c x with queue := update s.queue x none } := by
  have hmem : ∀ y d, y ∈ ((s.unlink c x).queues d).list ↔ y ∈ (s.queues d).list ∧ (d = c → y ≠ x) :=
    fun y d => s.mem_unlink_iff (h.nodup c)
  constructor
  · intro d
    by_cases hd : d = c
    · subst hd
      rw [TimerState.unlink_list]
      exact (h.sorted d).sublist List.erase_sublist
    · rw [TimerState.unlink_queues_of_ne _ _ _ hd]
      exact h.sorted d
  · intro d
    by_cases hd : d = c
    · subst hd
      rw [TimerState.unlink_queues_timeout, TimerState.unlink_list]
      rfl
    · rw [TimerState.unlink_queues_of_ne _ _ _ hd]
      exact h.timeout_eq d
  · intro y d
    rw [hmem]
    by_cases hy : y = x
    · subst hy
      dsimp only
      rw [update_self]
      refine ⟨fun e => absurd e (by simp), fun ⟨hyd, hdc⟩ => ?_⟩
      have hdc' : d = c := by
        rw [← h.queue_iff, hx] at hyd
        exact (Option.some.inj hyd).symm
      exact absurd rfl (hdc hdc')
    · simp only [update_of_ne hy, h.queue_iff y d]
      exact ⟨fun hyd => ⟨hyd, fun _ => hy⟩, fun ⟨hyd, _⟩ => hyd⟩
  · intro y d hy
    exact h.valid y d ((hmem y d).1 hy).1
  · intro y d hy
    exact h.stamp_lt y d ((hmem y d).1 hy).1

/-- Linking a timer that is on no queue, with its queue and timeout set, keeps the invariant. -/
theorem enqueue (h : TimerInv s) (hx : s.queue x = none) {t : Nat} (ht : t ≠ timerInvalidTimeout) :
    TimerInv (TimerState.link
      { s with queue := update s.queue x (some c), timeout := update s.timeout x t } c x) := by
  set s₁ : TimerState T n := { s with queue := update s.queue x (some c), timeout := update s.timeout x t }
  have hnot : ∀ d, x ∉ (s.queues d).list := h.not_mem_of_queue_eq_none hx
  -- the timers already queued keep their timeouts and stamps
  have hne : ∀ {y d}, y ∈ (s.queues d).list → y ≠ x := fun {y d} hy e => hnot d (e ▸ hy)
  have htimeout : ∀ {y d}, y ∈ (s.queues d).list → (s₁.link c x).timeout y = s.timeout y :=
    fun hy => update_of_ne (hne hy) _ _
  have hstamp : ∀ {y d}, y ∈ (s.queues d).list → (s₁.link c x).stamp y = s.stamp y :=
    fun hy => update_of_ne (hne hy) _ _
  have hbefore : ∀ {d}, (s.queues d).list.Pairwise (s₁.link c x).Before := fun {d} =>
    (h.sorted d).imp_of_mem fun {y z} hy hz hyz => by
      unfold TimerState.Before
      rw [htimeout hy, htimeout hz, hstamp hy, hstamp hz]
      exact hyz
  have hxt : (s₁.link c x).timeout x = t := by simp [s₁]
  have hxs : (s₁.link c x).stamp x = s.clock := by simp [s₁]
  constructor
  · intro d
    by_cases hd : d = c
    · subst hd
      rw [TimerState.link_list]
      apply pairwise_listInsertInOrder hbefore
      · -- a timer that `x` does not time out before has a timeout at most `t` and an earlier stamp
        intro y hy hlt
        have hle : s.timeout y ≤ t := by
          simpa [TimerState.isTimeoutASmallerThanB, s₁, update_of_ne (hne hy)] using hlt
        unfold TimerState.Before
        rw [htimeout hy, hstamp hy, hxt, hxs]
        rcases Nat.lt_or_eq_of_le hle with hlt' | heq
        · exact Or.inl hlt'
        · exact Or.inr ⟨heq, h.stamp_lt y d hy⟩
      · intro y hy hlt
        have hlt' : t < s.timeout y := by
          simpa [TimerState.isTimeoutASmallerThanB, s₁, update_of_ne (hne hy)] using hlt
        unfold TimerState.Before
        rw [htimeout hy, hxt]
        exact Or.inl hlt'
      · intro y hy w hw hyw hlt
        have hlt' : t < s.timeout y := by
          simpa [TimerState.isTimeoutASmallerThanB, s₁, update_of_ne (hne hy)] using hlt
        have hyw' : s.timeout y ≤ s.timeout w := by
          unfold TimerState.Before at hyw
          rw [htimeout hy, htimeout hw] at hyw
          rcases hyw with hlt'' | ⟨heq, -⟩
          · exact Nat.le_of_lt hlt''
          · exact Nat.le_of_eq heq
        simpa [TimerState.isTimeoutASmallerThanB, s₁, update_of_ne (hne hw)] using
          Nat.lt_of_lt_of_le hlt' hyw'
    · rw [TimerState.link_queues_of_ne _ _ _ hd]
      exact hbefore
  · intro d
    by_cases hd : d = c
    · subst hd
      rw [TimerState.link_queues_timeout, TimerState.link_list]
      rfl
    · rw [TimerState.link_queues_of_ne _ _ _ hd, h.timeout_eq d]
      exact headTimeout_congr fun y hy => (htimeout hy).symm
  · intro y d
    rw [TimerState.mem_link_iff]
    by_cases hy : y = x
    · subst hy
      simp [s₁, hnot d, eq_comm]
    · simp only [TimerState.link_queue, s₁, update_of_ne hy, h.queue_iff y d, hy, and_false,
        false_or]
  · intro y d hy
    rw [TimerState.mem_link_iff] at hy
    rcases hy with ⟨-, rfl⟩ | hy
    · rw [hxt]
      exact ht
    · rw [htimeout hy]
      exact h.valid y d hy
  · intro y d hy
    rw [TimerState.mem_link_iff] at hy
    rw [TimerState.link_clock]
    rcases hy with ⟨-, rfl⟩ | hy
    · rw [hxs]
      exact Nat.lt_succ_self _
    · rw [hstamp hy]
      exact Nat.lt_succ_of_lt (h.stamp_lt y d hy)

/-- Unlinking a timer from its queue and linking it again with a new timeout keeps the
invariant. -/
theorem relink (h : TimerInv s) (hx : s.queue x = some c) {t : Nat} (ht : t ≠ timerInvalidTimeout) :
    TimerInv (TimerState.link { s.unlink c x with timeout := update s.timeout x t } c x) := by
  have h₀ := h.dequeue hx
  have hq : update (update s.queue x none) x (some c) = s.queue := by
    rw [update_idem, update_eq_self_iff, hx]
  have hinv := h₀.enqueue (c := c) (update_self x none s.queue) ht
  -- the two states differ only in how the timer's queue is written
  convert hinv using 1
  exact TimerState.link_congr _ c x rfl hq.symm rfl rfl rfl rfl fun _ _ => rfl

end TimerInv

end Gunyah.Timer

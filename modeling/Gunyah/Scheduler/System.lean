import Gunyah.Error
import Gunyah.Scheduler.Fprr
import Mathlib

set_option autoImplicit false

/-!
# The FPRR scheduler across CPUs

A model of the thread-level part of `hyp/core/scheduler_fprr/src/scheduler_fprr.c`, over the
per-CPU run queues of `Gunyah.Scheduler.Fprr`: adding a thread to the scheduler of its affinity
CPU and removing it, blocking and unblocking, priority, timeslice and affinity changes with the
RCU-deferred completion of an affinity change, the context-switch handlers, the choice of the next
thread, directed yields (`scheduler_yield_to`), and the killed and exited handlers.

Every CPU keeps its `scheduler_t` (`CpuSched`), its current thread and `yielded_from`; every thread
keeps its scheduler fields (`SchedThread`, which the run-queue code reads, and `ThreadFields`).
The run-queue code of a CPU is run on the view `System.fprr`, which puts the CPU's scheduler
together with the fields of all threads, and its result is written back by `System.withFprr`.

Each operation is one atomic step, as under the scheduler locks: the thread's `scheduler_lock`
for the thread-level operations and a CPU's scheduler lock for its run queues. A step is on the
CPU `self` that runs it (`cpulocal_get_index ()`). IPIs and `scheduler_trigger` only make a CPU
run `scheduler_schedule` later, which is a step of its own (`SchedEvent.schedule`, one pass of its
loop), so a function's `need_schedule` result is returned but changes no state. The events that
other modules handle (`scheduler_affinity_changed`, `scheduler_set_affinity_prepare`,
`scheduler_blocked`) give their answers as arguments. Object references, spinlocks, the scheduler
timer, tracing and `running_thread`, which nothing in the module reads, are left out; a failed
`assert` or a panic is `none`.

`scheduler_yield_to` calls `scheduler_schedule` in its middle, and its caller goes on only when
that call returns to it: at the pass that finds it as the target, or after a pass on another
thread switches back to it. The call is therefore split in two. `schedulerYieldTo` is its part up
to the schedule; `yieldToReturn` is its end, run in the pass at which the schedule returns. A
thread is in that end's way exactly when it has a yield target: only a call that starts a directed
yield gives its thread one where it had none, and only the end of that call takes it away.
-/
namespace Gunyah.Scheduler

open Function

/-- `CPU_INDEX_INVALID`: the 16-bit `cpu_index_t` with every bit set. -/
def cpuIndexInvalid : Nat := 2 ^ 16 - 1

/-- `SCHEDULER_MIN_TIMESLICE`, in nanoseconds. -/
def schedulerMinTimeslice : Nat := 100000

/-- `SCHEDULER_MAX_TIMESLICE`, in nanoseconds. -/
def schedulerMaxTimeslice : Nat := 100000000

/-- `SCHEDULER_DEFAULT_TIMESLICE`, in nanoseconds. -/
def schedulerDefaultTimeslice : Nat := 5000000

/-- `SCHEDULER_DEFAULT_PRIORITY`. -/
def schedulerDefaultPriority : Priority := 32

/-- `sched_state_t`. -/
structure SchedFlags where
  init : Bool
  running : Bool
  queued : Bool
  needRequeue : Bool
  killed : Bool
  exited : Bool
  deriving DecidableEq, Repr

/-- The scheduler fields of `thread_t` that the run-queue code does not read: the block flags,
the affinity, the previous and the active affinity, the pin count, the target of a directed yield
and the state flags. -/
structure ThreadFields (τ β : Type) where
  blockBits : β → Bool
  affinity : Nat
  prevAffinity : Nat
  activeAffinity : Nat
  pinCount : Nat
  yieldTo : Option τ
  flags : SchedFlags

/-- One CPU's `scheduler_t` without its timer and lock. -/
structure CpuSched (τ : Type) where
  prioBitmap : Fin schedulerNumPriorities → Bool
  runqueue : Fin schedulerNumPriorities → List τ
  activeThread : Option τ
  schedtime : Nat

/-- The scheduler state of the system: each CPU's scheduler, current thread (`thread_get_self ()`)
and `yielded_from`, the scheduler fields of every thread, and whether a thread's `rcu_entry` is
queued for the `RCU_UPDATE_CLASS_AFFINITY_CHANGED` update. -/
structure System (τ β : Type) where
  cpu : Nat → CpuSched τ
  current : Nat → τ
  yieldedFrom : Nat → Option τ
  sched : τ → SchedThread
  thread : τ → ThreadFields τ β
  rcuQueued : τ → Bool

/-- What the scheduler takes from the rest of the hypervisor: `PLATFORM_MAX_CORES`, the
`non_killable_block_mask` that the block-properties event builds at boot, the blocks
`SCHEDULER_BLOCK_AFFINITY_CHANGED`, `SCHEDULER_BLOCK_THREAD_LIFECYCLE` and `SCHEDULER_BLOCK_IDLE`,
each CPU's idle thread, and `timer_convert_ns_to_ticks`. The scheduler's own handler of the
block-properties event makes `AFFINITY_CHANGED` non-killable, it is another value of
`scheduler_block_t` than `THREAD_LIFECYCLE` and `IDLE`, and the idle threads of the CPUs are
distinct. -/
structure Config (τ β : Type) where
  maxCores : Nat
  nonKillable : β → Bool
  affinityChanged : β
  threadLifecycle : β
  idle : β
  idleThread : Nat → τ
  convertNsToTicks : Nat → Nat
  affinityChanged_nonKillable : nonKillable affinityChanged = true
  affinityChanged_ne_threadLifecycle : affinityChanged ≠ threadLifecycle
  affinityChanged_ne_idle : affinityChanged ≠ idle
  idleThread_inj : ∀ c d, c < maxCores → d < maxCores → idleThread c = idleThread d → c = d

variable {τ β : Type}

/-- `can_be_scheduled (thread)`: no block flag is set, those of killable blocks not counted once
the thread is killed. -/
def canBeScheduled [Fintype β] (cfg : Config τ β) (th : ThreadFields τ β) : Bool :=
  decide (∀ b, (th.blockBits b && (!th.flags.killed || cfg.nonKillable b)) = false)

/-- `t` is the idle thread of one of the CPUs. -/
def Config.IsIdle (cfg : Config τ β) (t : τ) : Prop := ∃ c < cfg.maxCores, cfg.idleThread c = t

instance [DecidableEq τ] (cfg : Config τ β) (t : τ) : Decidable (cfg.IsIdle t) :=
  inferInstanceAs (Decidable (∃ c < cfg.maxCores, cfg.idleThread c = t))

namespace System

variable [DecidableEq τ] [DecidableEq β] [Fintype β] (cfg : Config τ β) (S : System τ β)

/-! ## The state -/

/-- CPU `c`'s scheduler as the run-queue code sees it, with the scheduler fields of all threads. -/
def fprr (c : Nat) : FprrState τ :=
  ⟨(S.cpu c).prioBitmap, (S.cpu c).runqueue, (S.cpu c).activeThread, (S.cpu c).schedtime,
    S.sched⟩

/-- The system after the run-queue code left CPU `c`'s scheduler as `s`. -/
def withFprr (c : Nat) (s : FprrState τ) : System τ β :=
  { S with cpu := update S.cpu c ⟨s.prioBitmap, s.runqueue, s.activeThread, s.schedtime⟩,
           sched := s.thread }

/-- The system with thread `t`'s fields replaced. -/
def setThread (t : τ) (th : ThreadFields τ β) : System τ β :=
  { S with thread := update S.thread t th }

/-- The system with thread `t`'s state flags replaced. -/
def setFlags (t : τ) (f : SchedFlags) : System τ β :=
  S.setThread t { S.thread t with flags := f }

/-- The system with thread `t`'s run-queue fields replaced. -/
def setSched (t : τ) (th : SchedThread) : System τ β :=
  { S with sched := update S.sched t th }

/-- `end_directed_yield (thread)`. -/
def endDirectedYield (t : τ) : System τ β :=
  S.setSched t { S.sched t with yielding := false }

/-! ## Adding and removing threads -/

/-- `add_thread_to_scheduler (thread)` on CPU `self`: a thread with a valid affinity goes to the
tail of its list on the scheduler of its affinity CPU with its timeslice reset, and is marked
queued. It returns whether `self` must reschedule: a CPU with no active thread, or one that may
have gone idle with its bitmap empty, is always rescheduled, otherwise only for a priority at
least the active thread's; a remote CPU gets an IPI instead. -/
def addThreadToScheduler (self : Nat) (t : τ) : Option (Bool × System τ β) :=
  let th := S.thread t
  -- the asserts on entry: not running, not queued, not exited, and schedulable
  if th.flags.running || th.flags.queued || th.flags.exited || !canBeScheduled cfg th then none
  else if th.affinity < cfg.maxCores then
    let s := S.fprr th.affinity
    let needSchedule :=
      match s.activeThread with
      | none => true
      | some a => Bitmap.empty s.prioBitmap || decide ((s.thread a).priority ≤ (s.thread t).priority)
    -- `reset_sched_params`
    let s := s.setThread t { s.thread t with activeTimeslice := (s.thread t).baseTimeslice }
    (s.addToRunqueue t true).map fun s' =>
      (needSchedule && th.affinity == self,
        (S.withFprr th.affinity s').setFlags t { th.flags with queued := true })
  else some (false, S)

/-- `remove_thread_from_scheduler (thread)`: the thread's yield ends, and a thread with a valid
affinity, which must be queued, stops being its CPU's active thread or leaves its list. A thread
with an invalid affinity must not have been yielding. -/
def removeThreadFromScheduler (t : τ) : Option (System τ β) :=
  let th := S.thread t
  let wasYielding := (S.sched t).yielding
  let S := S.endDirectedYield t
  if th.affinity < cfg.maxCores then
    if !th.flags.queued then none
    else
      let s := S.fprr th.affinity
      let removed : Option (FprrState τ) :=
        if s.activeThread = some t then some { s with activeThread := none }
        else s.removeFromRunqueue t
      removed.map fun s' => (S.withFprr th.affinity s').setFlags t { th.flags with queued := false }
  else if wasYielding then none
  else some S

/-- `resched_running_thread (thread)` on CPU `self`: whether `self` must reschedule, which is when
the thread runs on `self`; another CPU gets an IPI. -/
def reschedRunningThread (self : Nat) (t : τ) : Option Bool :=
  let th := S.thread t
  if !th.flags.running || (th.flags.queued && !th.flags.killed) then none
  else if th.activeAffinity < cfg.maxCores then some (th.activeAffinity == self)
  else none

/-! ## Blocking -/

/-- `scheduler_block (thread, block)`: the block flag is set, and a queued thread that can no
longer be scheduled is removed from the scheduler. -/
def schedulerBlock (t : τ) (b : β) : Option (System τ β) :=
  let th := { S.thread t with blockBits := update (S.thread t).blockBits b true }
  let S := S.setThread t th
  if th.flags.queued && !canBeScheduled cfg th then S.removeThreadFromScheduler cfg t
  else some S

/-- `scheduler_unblock (thread, block)` on CPU `self`: the block flag is cleared, and a thread
that can be scheduled only now is queued; one still running is marked for a requeue after its
context switch. It returns whether `self` must reschedule. -/
def schedulerUnblock (self : Nat) (t : τ) (b : β) : Option (Bool × System τ β) :=
  let wasBlocked := !canBeScheduled cfg (S.thread t)
  let th := { S.thread t with blockBits := update (S.thread t).blockBits b false }
  let S := S.setThread t th
  if wasBlocked && canBeScheduled cfg th then
    if th.flags.queued then none
    else if th.flags.running then
      let S := S.setFlags t { th.flags with needRequeue := true }
      (S.reschedRunningThread cfg self t).map fun needSchedule => (needSchedule, S)
    else S.addThreadToScheduler cfg self t
  else some (false, S)

/-- `start_affinity_changed_events (thread)` on CPU `self`, with `needSync` the answer of the
`scheduler_affinity_changed` event: the thread waits for an RCU grace period with its entry
queued, or its `AFFINITY_CHANGED` block is cleared at once. -/
def startAffinityChangedEvents (self : Nat) (t : τ) (needSync : Bool) :
    Option (Bool × System τ β) :=
  if !(S.thread t).blockBits cfg.affinityChanged then none
  else if needSync then some (false, { S with rcuQueued := update S.rcuQueued t true })
  else S.schedulerUnblock cfg self t cfg.affinityChanged

/-! ## Scheduling parameters -/

/-- `update_sched_params (thread, priority, timeslice)` on CPU `self`: a thread that can be
scheduled and is not marked for a requeue is taken off its scheduler while the parameters
change, and put back, or marked for a requeue if it is running. -/
def updateSchedParams (self : Nat) (t : τ) (priority : Priority) (timeslice : Nat) :
    Option (System τ β) :=
  let requeue := canBeScheduled cfg (S.thread t) && !(S.thread t).flags.needRequeue
  (if requeue then S.removeThreadFromScheduler cfg t else some S).bind fun S =>
    let S := S.setSched t { S.sched t with priority := priority, baseTimeslice := timeslice }
    if requeue then
      if (S.thread t).flags.running then
        let S := S.setFlags t { (S.thread t).flags with needRequeue := true }
        (S.reschedRunningThread cfg self t).map fun _ => S
      else (S.addThreadToScheduler cfg self t).map Prod.snd
    else some S

/-- `scheduler_set_priority (thread, priority)` on CPU `self`. -/
def schedulerSetPriority (self : Nat) (t : τ) (priority : Nat) : Option (Error × System τ β) :=
  if h : priority < schedulerNumPriorities then
    if (S.sched t).priority.val ≠ priority then
      (S.updateSchedParams cfg self t ⟨priority, h⟩ (S.sched t).baseTimeslice).map (.ok, ·)
    else some (.ok, S)
  else some (.argumentInvalid, S)

/-- `scheduler_set_timeslice (thread, timeslice)` on CPU `self`, the timeslice in nanoseconds. -/
def schedulerSetTimeslice (self : Nat) (t : τ) (timeslice : Nat) : Option (Error × System τ β) :=
  if timeslice > schedulerMaxTimeslice || timeslice < schedulerMinTimeslice then
    some (.argumentInvalid, S)
  else
    let ticks := cfg.convertNsToTicks timeslice
    if (S.sched t).baseTimeslice ≠ ticks then
      (S.updateSchedParams cfg self t (S.sched t).priority ticks).map (.ok, ·)
    else some (.ok, S)

/-! ## Affinity -/

/-- `scheduler_set_affinity (thread, target_cpu)` on CPU `self`, with `prepare` the result of the
`scheduler_set_affinity_prepare` event and `needSync` the answer of `scheduler_affinity_changed`.
The thread is blocked with `AFFINITY_CHANGED` while the change completes: at once, after an RCU
grace period, or after the context switch of a thread that is running. -/
def schedulerSetAffinity (self : Nat) (t : τ) (targetCpu : Nat) (prepare : Error)
    (needSync : Bool) : Option (Error × System τ β) :=
  let prevCpu := (S.thread t).affinity
  if prevCpu = targetCpu then some (.ok, S)
  else if (S.thread t).pinCount ≠ 0 then some (.denied, S)
  else if (S.thread t).blockBits cfg.affinityChanged then some (.retry, S)
  else if prepare ≠ .ok then some (prepare, S)
  else
    (S.schedulerBlock cfg t cfg.affinityChanged).bind fun S =>
      let S := S.setThread t { S.thread t with prevAffinity := prevCpu, affinity := targetCpu }
      if (S.thread t).flags.running then (S.reschedRunningThread cfg self t).map fun _ => (.ok, S)
      else (S.startAffinityChangedEvents cfg self t needSync).map fun r => (.ok, r.2)

/-- `scheduler_fprr_handle_affinity_change_update (entry)` on CPU `self`, the RCU update of a
thread whose entry was queued: the `AFFINITY_CHANGED` block is cleared. It returns whether `self`
must reschedule. -/
def affinityChangeUpdate (self : Nat) (t : τ) : Option (Bool × System τ β) :=
  if !(S.thread t).blockBits cfg.affinityChanged then none
  else { S with rcuQueued := update S.rcuQueued t false }.schedulerUnblock cfg self t
    cfg.affinityChanged

/-! ## Killed and exited threads -/

/-- `scheduler_fprr_handle_thread_killed (thread)` on CPU `self`: a killed thread ignores its
killable blocks, so one that could not be scheduled only because of them is queued, or marked for
a requeue if it is still running. -/
def threadKilled (self : Nat) (t : τ) : Option (Bool × System τ β) :=
  if (S.thread t).flags.exited then some (false, S)
  else
    let wasBlocked := !canBeScheduled cfg (S.thread t)
    let th := { S.thread t with flags := { (S.thread t).flags with killed := true } }
    let S := S.setThread t th
    if wasBlocked && canBeScheduled cfg th then
      if th.flags.queued then none
      else if th.flags.running then
        let S := S.setFlags t { th.flags with needRequeue := true }
        (S.reschedRunningThread cfg self t).map fun needSchedule => (needSchedule, S)
      else S.addThreadToScheduler cfg self t
    else if th.flags.running then (S.reschedRunningThread cfg self t).map fun _ => (false, S)
    else some (false, S)

/-- `scheduler_fprr_handle_thread_exited ()` on CPU `self`, for its current thread: a killed
thread is taken off its scheduler and stops ignoring its blocks, and the thread is marked exited. -/
def threadExited (self : Nat) : Option (System τ β) :=
  let t := S.current self
  if !(S.thread t).blockBits cfg.threadLifecycle || !(S.thread t).flags.running then none
  else
    let unkilled : Option (System τ β) :=
      if (S.thread t).flags.killed then
        (if (S.thread t).flags.queued then S.removeThreadFromScheduler cfg t else some S).map
          fun S => S.setFlags t { (S.thread t).flags with killed := false }
      else some S
    unkilled.bind fun S =>
      if canBeScheduled cfg (S.thread t) || (S.thread t).flags.queued then none
      else some (S.setFlags t { (S.thread t).flags with exited := true })

/-! ## Context switches -/

/-- `scheduler_fprr_handle_thread_context_switch_pre (next)` on CPU `self`: `next` starts running
on `self` if it is not running elsewhere, can be scheduled or is `self`'s idle thread, and has
`self` as its affinity, or runs through a directed yield with an invalid affinity. Otherwise the
switch is denied and the directed yield that chose `next` ends. -/
def contextSwitchPre (self : Nat) (next : τ) : Option (Error × System τ β) :=
  if next = S.current self then none
  else
    let th := S.thread next
    let runnable := !th.flags.running &&
      (canBeScheduled cfg th || decide (next = cfg.idleThread self))
    let affinityValid := th.affinity == self ||
      (!decide (th.affinity < cfg.maxCores) && (S.yieldedFrom self).isSome)
    if runnable && affinityValid then
      if th.flags.needRequeue || th.flags.exited then none
      else some (.ok, S.setThread next
        { th with flags := { th.flags with running := true }, activeAffinity := self })
    else
      some (.denied, match S.yieldedFrom self with
        | some y => S.endDirectedYield y
        | none => S)

/-- `scheduler_fprr_handle_thread_context_switch_post (prev)` on CPU `self`, with `needSync` the
answer of `scheduler_affinity_changed`: `prev` stops running, is queued if it was marked for a
requeue and can be scheduled, and starts a pending affinity change. -/
def contextSwitchPost (self : Nat) (prev : τ) (needSync : Bool) : Option (System τ β) :=
  let S := S.setFlags prev { (S.thread prev).flags with running := false }
  let requeued : Option (System τ β) :=
    if (S.thread prev).flags.needRequeue then
      (if canBeScheduled cfg (S.thread prev) then (S.addThreadToScheduler cfg self prev).map Prod.snd
        else some S).map fun S => S.setFlags prev { (S.thread prev).flags with needRequeue := false }
    else some S
  requeued.bind fun S =>
    (if (S.thread prev).blockBits cfg.affinityChanged then
        (S.startAffinityChangedEvents cfg self prev needSync).map Prod.snd
      else some S).map fun S =>
      -- the store to `scheduler_active_affinity` that `scheduler_sync` waits for
      S.setThread prev { S.thread prev with activeAffinity := cpuIndexInvalid }

/-- `thread_switch_to (next)` on CPU `self` as far as the scheduler sees it: the switch happens
when `context_switch_pre` allows it, and `context_switch_post` then runs for the thread that was
current. -/
def threadSwitchTo (self : Nat) (next : τ) (needSync : Bool) : Option (System τ β) :=
  (S.contextSwitchPre cfg self next).bind fun (err, S) =>
    if err ≠ .ok then some S
    else
      let prev := S.current self
      { S with current := update S.current self next }.contextSwitchPost cfg self prev needSync

/-! ## Pins and yield targets -/

/-- `scheduler_pin (thread)`. -/
def schedulerPin (t : τ) : System τ β :=
  S.setThread t { S.thread t with pinCount := (S.thread t).pinCount + 1 }

/-- `scheduler_unpin (thread)`. -/
def schedulerUnpin (t : τ) : Option (System τ β) :=
  if (S.thread t).pinCount = 0 then none
  else some (S.setThread t { S.thread t with pinCount := (S.thread t).pinCount - 1 })

/-- `set_yield_to (target, yield_to)`: the target records `yield_to`, which it must not be, as its
yield target, and must have none yet. -/
def setYieldTo (t y : τ) : Option (System τ β) :=
  if t = y ∨ (S.thread t).yieldTo.isSome then none
  else some (S.setThread t { S.thread t with yieldTo := some y })

/-- `discard_yield_to (target)`: the target must have a yield target, which it drops. -/
def discardYieldTo (t : τ) : Option (System τ β) :=
  if (S.thread t).yieldTo.isNone then none
  else some (S.setThread t { S.thread t with yieldTo := none })

/-- The end of `scheduler_yield_to` on CPU `self`, where its `scheduler_schedule` returns to the
current thread: a call that started a directed yield drops the yield target and unpins the
thread. A thread with no yield target is in no such call, and nothing happens. -/
def yieldToReturn (self : Nat) : Option (System τ β) :=
  let current := S.current self
  if (S.thread current).yieldTo.isNone then some S
  else (S.discardYieldTo current).bind fun S => S.schedulerUnpin current

/-! ## Choosing the next thread -/

/-- `can_yield_to (yield_to)` on CPU `self`: the thread's affinity is `self` or invalid, it is not
running elsewhere, and it can be scheduled. -/
def canYieldTo (self : Nat) (y : τ) : Bool :=
  let th := S.thread y
  if th.affinity < cfg.maxCores && th.affinity ≠ self then false
  else if th.flags.running && y ≠ S.current self then false
  else canBeScheduled cfg th

/-- `select_yield_target (target, can_idle)` on CPU `self`: a yielding target gives way to its
yield target when that can run here, which clears `can_idle` and records `yielded_from`;
otherwise its yield ends. -/
def selectYieldTarget (self : Nat) (target : τ) (canIdle : Bool) :
    Option (τ × Bool × System τ β) :=
  let S := { S with yieldedFrom := update S.yieldedFrom self none }
  if (S.sched target).yielding then
    match (S.thread target).yieldTo with
    | none => none
    | some y =>
      if S.canYieldTo cfg self y then
        some (y, false, { S with yieldedFrom := update S.yieldedFrom self (some target) })
      else some (target, canIdle, S.endDirectedYield target)
  else some (target, canIdle, S)

/-- One pass of the loop of `scheduler_schedule ()` on CPU `self` at `curticks`: the target that
`get_next_target` and `select_yield_target` choose, and the switch to it when it is not the
current thread. `gotRef` is whether `object_get_thread_safe` got a reference to the target;
without one, or with the switch denied, the loop runs again, which is a later step. The loop ends
when the target is the current thread, or after a switch, in the thread switched to, when no
reschedule IPI is pending (`ipi`); a `scheduler_yield_to` of the thread then comes to its end. -/
def scheduleStep (self curticks : Nat) (gotRef needSync ipi : Bool) : Option (System τ β) :=
  ((S.fprr self).getNextTarget curticks).bind fun (target, s) =>
    let S := S.withFprr self s
    let target := target.getD (cfg.idleThread self)
    (S.selectYieldTarget cfg self target (Bitmap.empty s.prioBitmap)).bind fun (target, _, S) =>
      if target = S.current self then S.yieldToReturn self
      else if !gotRef then some S
      else (S.threadSwitchTo cfg self target needSync).bind fun S =>
        if S.current self = target && !ipi then S.yieldToReturn self else some S

/-- `scheduler_yield ()` on CPU `self` before its `scheduler_schedule`: the directed yield to the
current thread ends, or the current thread gives up the rest of its timeslice. -/
def schedulerYield (self : Nat) : System τ β :=
  match S.yieldedFrom self with
  | some y => S.endDirectedYield y
  | none => S.setSched (S.current self) { S.sched (S.current self) with activeTimeslice := 0 }

/-- `scheduler_yield_to (target)` on CPU `self` up to its `scheduler_schedule`, with
`pendingWakeup` whether the current thread is a VCPU with a wakeup pending
(`vcpu_pending_wakeup ()`). A thread that was yielded to ends the directed yield to it when it
yields back, and otherwise passes that yield on to `target`; any other thread starts a directed
yield of its own, pinned to its CPU, unless a wakeup is pending, which skips the call. -/
def schedulerYieldTo (self : Nat) (target : τ) (pendingWakeup : Bool) : Option (System τ β) :=
  let current := S.current self
  if current = target then none
  else
    match S.yieldedFrom self with
    | some y =>
      if y = target then some (S.endDirectedYield y)
      else (S.discardYieldTo y).bind fun S => S.setYieldTo y target
    | none =>
      if pendingWakeup then some S
      else ((S.schedulerPin current).setYieldTo current target).map fun S =>
        S.setSched current { S.sched current with yielding := true }

/-! ## Threads -/

/-- The arguments of `thread_create_t` that the scheduler reads. -/
structure ThreadCreate where
  schedulerAffinity : Nat
  schedulerAffinityValid : Bool
  schedulerPriority : Nat
  schedulerPriorityValid : Bool
  schedulerTimeslice : Nat
  schedulerTimesliceValid : Bool

/-- `scheduler_fprr_handle_object_create_thread (thread_create)`, after the other handlers of the
event set the blocks `blocks` of the new thread (`thread_standard` blocks it with
`THREAD_LIFECYCLE`): the thread must have a block, and a priority and timeslice in range. -/
def createThread (t : τ) (params : ThreadCreate) (blocks : β → Bool) : Option (System τ β) :=
  let prio := if params.schedulerPriorityValid then params.schedulerPriority
    else schedulerDefaultPriority.val
  let timeslice := if params.schedulerTimesliceValid then params.schedulerTimeslice
    else schedulerDefaultTimeslice
  if (S.thread t).flags.init || (∀ b, blocks b = false) then none
  else if h : prio < schedulerNumPriorities then
    if timeslice > schedulerMaxTimeslice || timeslice < schedulerMinTimeslice then none
    else
      let S := S.setSched t
        { priority := ⟨prio, h⟩, baseTimeslice := cfg.convertNsToTicks timeslice,
          activeTimeslice := 0, yielding := false }
      some (S.setThread t
        { blockBits := blocks,
          affinity := if params.schedulerAffinityValid then params.schedulerAffinity
            else cpuIndexInvalid,
          prevAffinity := cpuIndexInvalid, activeAffinity := cpuIndexInvalid, pinCount := 0,
          yieldTo := none,
          flags := ⟨true, false, false, false, false, false⟩ })
  else none

/-- `scheduler_fprr_handle_vcpu_wakeup (thread)`: the thread's directed yield ends; a thread that
was yielding must have a valid affinity. -/
def vcpuWakeup (t : τ) : Option (System τ β) :=
  if (S.sched t).yielding && !decide ((S.thread t).affinity < cfg.maxCores) then none
  else some (S.endDirectedYield t)

end System

/-! ## Runs -/

/-- The calls into the scheduler that the rest of the hypervisor makes, each on the CPU `self`
that makes it: creating and activating threads (`thread_standard`), blocking and unblocking,
changing the scheduling parameters and the affinity, the RCU update that completes an affinity
change, one pass of `scheduler_schedule`, `scheduler_yield` and `scheduler_yield_to` before their
schedule, killing a thread, `thread_exit` of the current thread up to its final yield, pinning,
and a VCPU wakeup. -/
inductive SchedEvent (τ β : Type) where
  | create (t : τ) (params : System.ThreadCreate) (blocks : β → Bool)
  | activate (self : Nat) (t : τ)
  | block (t : τ) (b : β)
  | unblock (self : Nat) (t : τ) (b : β)
  | setPriority (self : Nat) (t : τ) (priority : Nat)
  | setTimeslice (self : Nat) (t : τ) (timeslice : Nat)
  | setAffinity (self : Nat) (t : τ) (targetCpu : Nat) (prepare : Error) (needSync : Bool)
  | affinityChangeUpdate (self : Nat) (t : τ)
  | schedule (self curticks : Nat) (gotRef needSync ipi : Bool)
  | yield (self : Nat)
  | yieldTo (self : Nat) (target : τ) (pendingWakeup : Bool)
  | kill (self : Nat) (t : τ)
  | exit (self : Nat)
  | pin (t : τ)
  | unpin (t : τ)
  | vcpuWakeup (t : τ)

namespace SchedEvent

variable [DecidableEq τ] [DecidableEq β] [Fintype β] (cfg : Config τ β)

/-- What the callers guarantee before a call: the CPU is one of the platform's, the thread exists
and is not an idle thread (the calls come from `thread_standard` and the VCPU code, for their own
threads), and a new thread has the priority and timeslice that the create handler asserts. Only
`thread_standard` uses `THREAD_LIFECYCLE`, to block a thread it creates, to activate it and in
`thread_exit` of the current thread, and only the scheduler uses `AFFINITY_CHANGED`; a thread is
killed only from the ready state, the RCU update runs only for a queued entry, and an unpin
follows a pin of its own caller, not the pin of a directed yield under way. The target of a
directed yield is a thread that exists other than the caller (`hypercall_scheduler_yield` checks
this), and the caller is in no `scheduler_yield_to` of its own. -/
def Enabled (S : System τ β) : SchedEvent τ β → Prop
  | create t params blocks => ¬(S.thread t).flags.init ∧ blocks cfg.threadLifecycle ∧
      (params.schedulerPriorityValid → params.schedulerPriority < schedulerNumPriorities) ∧
      (params.schedulerTimesliceValid → schedulerMinTimeslice ≤ params.schedulerTimeslice ∧
        params.schedulerTimeslice ≤ schedulerMaxTimeslice)
  | activate self t => self < cfg.maxCores ∧ ¬cfg.IsIdle t ∧ (S.thread t).flags.init ∧
      (S.thread t).blockBits cfg.threadLifecycle ∧ ¬(S.thread t).flags.exited
  | block t b => ¬cfg.IsIdle t ∧ (S.thread t).flags.init ∧ b ≠ cfg.affinityChanged ∧
      b ≠ cfg.threadLifecycle
  | unblock self t b => self < cfg.maxCores ∧ ¬cfg.IsIdle t ∧ (S.thread t).flags.init ∧
      b ≠ cfg.affinityChanged ∧ b ≠ cfg.threadLifecycle
  | setPriority self t _ | setTimeslice self t _ | setAffinity self t _ _ _ =>
      self < cfg.maxCores ∧ ¬cfg.IsIdle t ∧ (S.thread t).flags.init
  | affinityChangeUpdate self t => self < cfg.maxCores ∧ S.rcuQueued t
  | schedule self _ _ _ _ | yield self => self < cfg.maxCores
  | yieldTo self target _ => self < cfg.maxCores ∧ S.current self ≠ target ∧
      (S.thread target).flags.init ∧ (S.thread (S.current self)).yieldTo = none
  | kill self t => self < cfg.maxCores ∧ ¬cfg.IsIdle t ∧ (S.thread t).flags.init ∧
      ¬(S.thread t).flags.killed ∧ ¬(S.thread t).flags.exited ∧
      ¬(S.thread t).blockBits cfg.threadLifecycle
  | exit self => self < cfg.maxCores ∧ S.current self ≠ cfg.idleThread self ∧
      ¬(S.thread (S.current self)).flags.exited ∧
      ¬(S.thread (S.current self)).blockBits cfg.threadLifecycle
  | pin t | vcpuWakeup t => ¬cfg.IsIdle t ∧ (S.thread t).flags.init
  | unpin t => ¬cfg.IsIdle t ∧ (S.thread t).flags.init ∧
      (S.thread t).yieldTo.isSome.toNat < (S.thread t).pinCount

instance (S : System τ β) (e : SchedEvent τ β) : Decidable (e.Enabled cfg S) := by
  cases e <;> dsimp only [Enabled] <;> infer_instance

/-- The state after a call, or `none` where it fails an assert or panics. -/
def run (S : System τ β) : SchedEvent τ β → Option (System τ β)
  | create t params blocks => S.createThread cfg t params blocks
  | activate self t => (S.schedulerUnblock cfg self t cfg.threadLifecycle).map Prod.snd
  | block t b => S.schedulerBlock cfg t b
  | unblock self t b => (S.schedulerUnblock cfg self t b).map Prod.snd
  | setPriority self t priority => (S.schedulerSetPriority cfg self t priority).map Prod.snd
  | setTimeslice self t timeslice => (S.schedulerSetTimeslice cfg self t timeslice).map Prod.snd
  | setAffinity self t target prepare needSync =>
      (S.schedulerSetAffinity cfg self t target prepare needSync).map Prod.snd
  | affinityChangeUpdate self t => (S.affinityChangeUpdate cfg self t).map Prod.snd
  | schedule self curticks gotRef needSync ipi =>
      S.scheduleStep cfg self curticks gotRef needSync ipi
  | yield self => some (S.schedulerYield self)
  | yieldTo self target pendingWakeup => S.schedulerYieldTo self target pendingWakeup
  | kill self t => (S.threadKilled cfg self t).map Prod.snd
  | exit self => (S.schedulerBlock cfg (S.current self) cfg.threadLifecycle).bind fun S =>
      S.threadExited cfg self
  | pin t => some (S.schedulerPin t)
  | unpin t => S.schedulerUnpin t
  | vcpuWakeup t => S.vcpuWakeup cfg t

end SchedEvent

namespace Config

variable [DecidableEq τ] [DecidableEq β] (cfg : Config τ β)

/-- The CPU whose idle thread `t` is, if any. -/
def idleCpu (t : τ) : Option Nat := (List.range cfg.maxCores).find? fun c => cfg.idleThread c = t

/-- The state at boot: every CPU runs its idle thread, which is blocked with
`SCHEDULER_BLOCK_IDLE`, has the CPU as its affinity and the lowest priority, and no other thread
exists yet. -/
def boot : System τ β where
  cpu _ := ⟨fun _ => false, fun _ => [], none, 0⟩
  current := cfg.idleThread
  yieldedFrom _ := none
  sched t := ⟨0, if (cfg.idleCpu t).isSome then cfg.convertNsToTicks schedulerDefaultTimeslice
    else 0, 0, false⟩
  thread t :=
    match cfg.idleCpu t with
    | some c => ⟨fun b => decide (b = cfg.idle), c, cpuIndexInvalid, c, 0, none,
        ⟨true, true, false, false, false, false⟩⟩
    | none => ⟨fun _ => false, cpuIndexInvalid, cpuIndexInvalid, cpuIndexInvalid, 0, none,
        ⟨false, false, false, false, false, false⟩⟩
  rcuQueued _ := false

end Config

/-- The states the scheduler reaches from boot by calls that return. -/
inductive Reachable [DecidableEq τ] [DecidableEq β] [Fintype β] (cfg : Config τ β) :
    System τ β → Prop
  | boot : Reachable cfg cfg.boot
  | step {S S' : System τ β} (e : SchedEvent τ β) : Reachable cfg S → e.Enabled cfg S →
      e.run cfg S = some S' → Reachable cfg S'

end Gunyah.Scheduler

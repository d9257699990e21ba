import Gunyah.Lib.Word
import Gunyah.Lib.GracePeriod
import Gunyah.Error

set_option autoImplicit false

/-!
# RCU with a quiescent-state bitmap

A model of `hyp/core/rcu_bitmap/src/rcu_bitmap.c`. Each CPU queues updates in a `next` batch; when
the grace period it waits for has ended, `rcu_bitmap_notify` moves the `waiting` batch to `ready`
and `next` to `waiting`, and asks for the grace period after the next one (`current + 2`).
`rcu_bitmap_update` runs the handlers of the `ready` batch. A grace period ends when every CPU of
its bitmap has passed a quiescent state (`rcu_bitmap_quiesce` clears the CPU's bit); the last CPU
starts the next period, with the CPUs active at that moment as its bitmap, if some CPU still waits.
Generations and update counts are `count_t`, 32 bits, and wrap around; generations are compared
with `is_before`.

Each handler of the C code is one atomic step here; the model does not interleave two CPUs inside
a handler. So the compare-and-swap loops on `current_period` and `max_target` run once, and the
IPIs that the code sends only prompt other steps, which a run may take at any time. A read-side critical section
(`rcu_read_start` to `rcu_read_finish`) keeps preemption, and so interrupts, disabled; the model
counts its nesting in `readDepth`.

The batches keep their entries in one list each, newest first; the code keeps one list per
`rcu_update_class` and runs the classes in turn, which selects the handler and changes nothing here.
Three ghost fields relate the model to the grace-period specification of `GracePeriod`: the
generation without wrap-around (`gen`), the one at which each CPU's waiting batch was formed
(`waitGen`), and for each entry the CPUs inside a critical section when it was queued that have not
left it since (`blockers`).
-/

namespace Gunyah.Rcu

open FixedWidth

/-- `cpu_index_t`, below `PLATFORM_MAX_CORES`, which is at most 32. -/
abbrev Cpu := Fin 32

/-- The global `rcu_state` (`current_period` split into its generation and CPU bitmap), the
CPU-local `rcu_cpu_state` of every CPU, the nesting of read-side critical sections, and the
ghost fields. An `rcu_entry` is identified by a number. -/
structure RcuState where
  waiterCount : Nat
  generation : Nat
  cpuBitmap : Finset Cpu
  maxTarget : Nat
  activeCpus : Finset Cpu
  updateCount : Cpu → Nat
  isActive : Cpu → Bool
  readyUpdates : Cpu → Bool
  target : Cpu → Nat
  readyBatch : Cpu → List Nat
  waitingBatch : Cpu → List Nat
  nextBatch : Cpu → List Nat
  readDepth : Cpu → Nat
  gen : Nat
  waitGen : Cpu → Nat
  blockers : Nat → Finset Cpu

/-- The zero-initialised state at boot. -/
def RcuState.init : RcuState where
  waiterCount := 0
  generation := 0
  cpuBitmap := ∅
  maxTarget := 0
  activeCpus := ∅
  updateCount _ := 0
  isActive _ := false
  readyUpdates _ := false
  target _ := 0
  readyBatch _ := []
  waitingBatch _ := []
  nextBatch _ := []
  readDepth _ := 0
  gen := 0
  waitGen _ := 0
  blockers _ := ∅

/-- `a_long_time`: half the range of `count_t`. -/
def aLongTime : Nat := 2 ^ 31

/-- `is_before`: `a` comes before `b` when `a - b` wraps to at least half the range. -/
def isBefore (a b : Nat) : Bool := decide (aLongTime ≤ sub 32 a b)

/-- The CPUs inside a read-side critical section. -/
def readingCpus (s : RcuState) : Finset Cpu := Finset.univ.filter fun c => 0 < s.readDepth c

/-- `rcu_read_start`: disable preemption. -/
def rcuReadStart (cpu : Cpu) (s : RcuState) : RcuState :=
  { s with readDepth := Function.update s.readDepth cpu (s.readDepth cpu + 1) }

/-- `rcu_read_finish`: enable preemption. Leaving the outermost section ends the wait of every
entry on this CPU's critical section. -/
def rcuReadFinish (cpu : Cpu) (s : RcuState) : RcuState :=
  let depth := s.readDepth cpu - 1
  { s with
    readDepth := Function.update s.readDepth cpu depth
    blockers := if depth = 0 then fun e => (s.blockers e).erase cpu else s.blockers }

/-- `rcu_enqueue`: count the update, and the CPU as a waiter if it had none, and push the entry on
the `next` batch. The entry waits for the CPUs now inside a critical section. -/
def rcuEnqueue (cpu : Cpu) (entry : Nat) (s : RcuState) : RcuState :=
  let old := s.updateCount cpu
  let s := { s with updateCount := Function.update s.updateCount cpu (add 32 old 1) }
  -- the first update of the CPU makes it a waiter (and prods the active CPUs, which is an IPI)
  let s := if old = 0 then { s with waiterCount := add 32 s.waiterCount 1 } else s
  { s with
    nextBatch := Function.update s.nextBatch cpu (entry :: s.nextBatch cpu)
    blockers := Function.update s.blockers entry (readingCpus s) }

/-- `rcu_bitmap_activate_cpu`: join the active set if not in it. -/
def rcuBitmapActivateCpu (cpu : Cpu) (s : RcuState) : RcuState :=
  if s.isActive cpu = false then
    { s with
      isActive := Function.update s.isActive cpu true
      activeCpus := insert cpu s.activeCpus }
  else s

/-- `rcu_bitmap_request_grace_period`: wait for the period after the next one, and raise
`max_target` to it unless it is already later. -/
def rcuBitmapRequestGracePeriod (cpu : Cpu) (currentGen : Nat) (s : RcuState) : RcuState :=
  let target := add 32 currentGen 2
  let s := { s with
    target := Function.update s.target cpu target
    waitGen := Function.update s.waitGen cpu s.gen }
  if isBefore target s.maxTarget then s else { s with maxTarget := target }

/-- `rcu_bitmap_update`: run the handlers of the ready batch, take them off the update count, and
stop being a waiter when the count reaches zero. Returns the entries whose handlers ran. -/
def rcuBitmapUpdate (cpu : Cpu) (s : RcuState) : RcuState × List Nat :=
  if s.readyUpdates cpu = false then (s, [])
  else
    let ready := s.readyBatch cpu
    -- `update_count` is a `count_t` counted up once per handler
    let updateCount := ready.length % 2 ^ 32
    let s := { s with readyBatch := Function.update s.readyBatch cpu [] }
    let s :=
      if updateCount = 0 then s
      else
        let old := s.updateCount cpu
        let s := { s with updateCount := Function.update s.updateCount cpu (sub 32 old updateCount) }
        if old = updateCount then { s with waiterCount := sub 32 s.waiterCount 1 } else s
    ({ s with readyUpdates := Function.update s.readyUpdates cpu false }, ready)

/-- The start of `rcu_bitmap_notify`: a ready batch is processed before anything else. -/
def notifyProcessReady (cpu : Cpu) (s : RcuState) : RcuState × List Nat :=
  if s.readyUpdates cpu = true then rcuBitmapUpdate cpu s else (s, [])

/-- The batch advance of `rcu_bitmap_notify` once the target period is reached: the waiting batch
becomes ready, the next batch becomes waiting, and a new grace period is requested for it. -/
def notifyAdvanceBatches (cpu : Cpu) (s : RcuState) : RcuState :=
  let waiting := s.waitingBatch cpu
  let next := s.nextBatch cpu
  let s' := { s with
    readyUpdates := Function.update s.readyUpdates cpu (s.readyUpdates cpu || !waiting.isEmpty)
    nextBatch := Function.update s.nextBatch cpu []
    waitingBatch := Function.update s.waitingBatch cpu next
    readyBatch := Function.update s.readyBatch cpu waiting }
  if next.isEmpty then s' else rcuBitmapRequestGracePeriod cpu s.generation s'

/-- `rcu_bitmap_notify`: with updates queued, process the ready batch, then advance the batches if
the target period is reached. Returns the entries whose handlers ran. -/
def rcuBitmapNotify (cpu : Cpu) (s : RcuState) : RcuState × List Nat :=
  if s.updateCount cpu = 0 then (s, [])
  else
    let r := notifyProcessReady cpu s
    if isBefore r.1.generation (r.1.target cpu) = true then r
    else (notifyAdvanceBatches cpu r.1, r.2)

/-- `rcu_bitmap_quiesce`: clear this CPU's bit of the current period. The last CPU to do so starts
the next period if some CPU waits for it, with the active CPUs as its bitmap, and then notifies
itself. Returns the entries whose handlers ran. -/
def rcuBitmapQuiesce (cpu : Cpu) (s : RcuState) : RcuState × List Nat :=
  let nextBitmap := s.cpuBitmap.erase cpu
  if nextBitmap ≠ ∅ then ({ s with cpuBitmap := nextBitmap }, [])
  else if s.maxTarget ≠ s.generation then
    rcuBitmapNotify cpu
      { s with cpuBitmap := s.activeCpus, generation := add 32 s.generation 1, gen := s.gen + 1 }
  else ({ s with cpuBitmap := nextBitmap }, [])

/-- `rcu_bitmap_deactivate_cpu`: leave the active set, then quiesce. -/
def rcuBitmapDeactivateCpu (cpu : Cpu) (s : RcuState) : RcuState × List Nat :=
  rcuBitmapQuiesce cpu
    { s with
      isActive := Function.update s.isActive cpu false
      activeCpus := s.activeCpus.erase cpu }

/-- `rcu_bitmap_should_run`: some CPU has pending updates. -/
def rcuBitmapShouldRun (s : RcuState) : Bool := decide (0 < s.waiterCount)

/-- `rcu_bitmap_handle_thread_context_switch_pre`: a CPU switching away from its idle thread is
active again; while there are waiters, the switch is a quiescent state. -/
def rcuBitmapHandleThreadContextSwitchPre (cpu : Cpu) (idle : Bool) (s : RcuState) :
    RcuState × List Nat :=
  let s := if idle then rcuBitmapActivateCpu cpu s else s
  if rcuBitmapShouldRun s then rcuBitmapQuiesce cpu s else (s, [])

/-- `rcu_bitmap_handle_idle_yield` and `rcu_bitmap_handle_thread_exit_to_user`: while there are
waiters, leave the active set. -/
def rcuBitmapDeactivateIfRunning (cpu : Cpu) (s : RcuState) : RcuState × List Nat :=
  if rcuBitmapShouldRun s then rcuBitmapDeactivateCpu cpu s else (s, [])

/-- `rcu_bitmap_handle_power_cpu_suspend`: refuse while this CPU has pending updates. -/
def rcuBitmapHandlePowerCpuSuspend (cpu : Cpu) (s : RcuState) : Error × RcuState × List Nat :=
  if s.updateCount cpu ≠ 0 then (.busy, s, []) else (.ok, rcuBitmapDeactivateCpu cpu s)

/-! ## Runs -/

/-- The steps of a run: the read-side critical sections, queueing an update, and the handlers of the
events and IPIs that the module subscribes to. -/
inductive RcuCall where
  | readStart (cpu : Cpu)
  | readFinish (cpu : Cpu)
  | enqueue (cpu : Cpu) (entry : Nat)
  | threadEntryFromUser (cpu : Cpu)
  | preemptInterrupt (cpu : Cpu)
  | threadContextSwitchPre (cpu : Cpu) (idle : Bool)
  | powerCpuOnline (cpu : Cpu)
  | vcpuBlockFinish (cpu : Cpu)
  | idleYield (cpu : Cpu)
  | threadExitToUser (cpu : Cpu)
  | powerCpuSuspend (cpu : Cpu)
  | powerCpuOffline (cpu : Cpu)
  | schedulerQuiescent (cpu : Cpu)
  | quiesceIpi (cpu : Cpu)
  | notifyIpi (cpu : Cpu)
  | updateIpi (cpu : Cpu)
deriving DecidableEq

/-- The state after a step, and the entries whose update handlers it ran. -/
def RcuCall.run : RcuCall → RcuState → RcuState × List Nat
  | .readStart cpu, s => (rcuReadStart cpu s, [])
  | .readFinish cpu, s => (rcuReadFinish cpu s, [])
  | .enqueue cpu entry, s => (rcuEnqueue cpu entry s, [])
  | .threadEntryFromUser cpu, s => (rcuBitmapActivateCpu cpu s, [])
  | .preemptInterrupt cpu, s => (rcuBitmapActivateCpu cpu s, [])
  | .threadContextSwitchPre cpu idle, s => rcuBitmapHandleThreadContextSwitchPre cpu idle s
  | .powerCpuOnline cpu, s => (rcuBitmapActivateCpu cpu s, [])
  | .vcpuBlockFinish cpu, s => (rcuBitmapActivateCpu cpu s, [])
  | .idleYield cpu, s => rcuBitmapDeactivateIfRunning cpu s
  | .threadExitToUser cpu, s => rcuBitmapDeactivateIfRunning cpu s
  | .powerCpuSuspend cpu, s => (rcuBitmapHandlePowerCpuSuspend cpu s).2
  | .powerCpuOffline cpu, s => rcuBitmapDeactivateCpu cpu s
  | .schedulerQuiescent cpu, s => rcuBitmapQuiesce cpu s
  | .quiesceIpi cpu, s => rcuBitmapQuiesce cpu s
  | .notifyIpi cpu, s => rcuBitmapNotify cpu s
  | .updateIpi cpu, s => rcuBitmapUpdate cpu s

/-- The entries queued on a CPU and not yet handled. -/
def pending (s : RcuState) (cpu : Cpu) : List Nat :=
  s.readyBatch cpu ++ s.waitingBatch cpu ++ s.nextBatch cpu

/-- What the rest of the hypervisor guarantees about a step: readers run only on active CPUs, an
entry is queued again only after its handler ran, a CPU goes offline only without pending updates
(the assertion of `rcu_bitmap_handle_power_cpu_offline`), and the handlers, which run with
interrupts enabled or at a context switch, never run inside a read-side critical section. -/
def RcuCall.Allowed (s : RcuState) : RcuCall → Prop
  | .readStart cpu => s.isActive cpu = true
  | .readFinish cpu => 0 < s.readDepth cpu
  | .enqueue _ entry => ∀ c, entry ∉ pending s c
  | .powerCpuOffline cpu => s.readDepth cpu = 0 ∧ s.updateCount cpu = 0
  | .threadEntryFromUser cpu | .preemptInterrupt cpu | .threadContextSwitchPre cpu _
  | .powerCpuOnline cpu | .vcpuBlockFinish cpu | .idleYield cpu | .threadExitToUser cpu
  | .powerCpuSuspend cpu | .schedulerQuiescent cpu | .quiesceIpi cpu | .notifyIpi cpu
  | .updateIpi cpu => s.readDepth cpu = 0

instance RcuCall.decidableAllowed (s : RcuState) : (c : RcuCall) → Decidable (c.Allowed s)
  | .readStart cpu => inferInstanceAs (Decidable (s.isActive cpu = true))
  | .readFinish cpu => inferInstanceAs (Decidable (0 < s.readDepth cpu))
  | .enqueue _ entry => inferInstanceAs (Decidable (∀ c, entry ∉ pending s c))
  | .powerCpuOffline cpu => inferInstanceAs (Decidable (s.readDepth cpu = 0 ∧ s.updateCount cpu = 0))
  | .threadEntryFromUser cpu | .preemptInterrupt cpu | .threadContextSwitchPre cpu _
  | .powerCpuOnline cpu | .vcpuBlockFinish cpu | .idleYield cpu | .threadExitToUser cpu
  | .powerCpuSuspend cpu | .schedulerQuiescent cpu | .quiesceIpi cpu | .notifyIpi cpu
  | .updateIpi cpu => inferInstanceAs (Decidable (s.readDepth cpu = 0))

/-- The state after a sequence of steps. -/
def runCalls (s : RcuState) : List RcuCall → RcuState
  | [] => s
  | c :: cs => runCalls (c.run s).1 cs

/-- Every step of the sequence is allowed by `allowed` in the state it is taken from. -/
def Valid (allowed : RcuState → RcuCall → Prop) : RcuState → List RcuCall → Prop
  | _, [] => True
  | s, c :: cs => allowed s c ∧ Valid allowed (c.run s).1 cs

instance Valid.decidable (allowed : RcuState → RcuCall → Prop) [∀ s c, Decidable (allowed s c)] :
    (s : RcuState) → (cs : List RcuCall) → Decidable (Valid allowed s cs)
  | _, [] => isTrue trivial
  | s, c :: cs =>
    haveI := Valid.decidable allowed (c.run s).1 cs
    inferInstanceAs (Decidable (allowed s c ∧ Valid allowed (c.run s).1 cs))

end Gunyah.Rcu

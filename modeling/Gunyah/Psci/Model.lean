import Gunyah.Error
import Mathlib.Logic.Function.Basic

set_option autoImplicit false

/-!
# PSCI VCPU activity accounting

A model of how `hyp/vm/psci` counts the VCPUs that keep each physical CPU awake. Every VCPU has a
`psci_inactive_count`, the number of reasons it is inactive; every CPU has `vpm_active_vcpus`,
which `psci_vpm_active_vcpus_get` increments when a VCPU's count falls to zero and
`psci_vpm_active_vcpus_put` decrements when it leaves zero.

The counts change in four places: `psci_handle_vcpu_activate_thread` sets the first count;
`psci_vcpu_suspend` and `psci_vcpu_resume` add and remove the reason "suspended" on the CPU of
`scheduler_get_active_affinity`; `psci_handle_scheduler_affinity_changed` moves the thread from
the CPU it leaves to the CPU it goes to. The model has with them the parts of
`scheduler_fprr.c` that decide when those run: `scheduler_set_affinity`, which runs the
affinity-changed events at once for a thread that is not running and leaves them to
`context_switch_post` for one that is; the RCU update that ends an affinity change; and the
context switch, which sets and clears `scheduler_active_affinity`. From `vcpu.c` and
`aarch64_init.c` it has the paths that reach suspend and resume: `vcpu_suspend` (with the
unwinder of a failed suspend event), the resume event after its yield, `vcpu_poweroff` and the
`vcpu_stopped` event, `vcpu_poweron`, the `vcpu_started` event of a starting thread, and the
wakeup that unblocks a suspended VCPU.

Each handler runs whole under its thread's scheduler lock, so the model is a sequence of atomic
calls on any threads and CPUs. `CPU_INDEX_INVALID` is `none`. A failed `assert` or `panic` gives
`none`. Two fields are ghost state: `phase`, the point a VCPU thread has reached in its own code,
which decides which of its calls come next, and `accounted`, the CPU named by the last
affinity-changed event of the thread (or its affinity at activation). The PSCI group state, the
power-management lists, the scheduler's run queues and priorities, and the thread reference
counts are left out: none of them decides a count.
-/

namespace Gunyah.Psci

open Function

/-- `vpm_mode_t`. -/
inductive VpmMode where
  | none
  | psci
  | idle
  deriving DecidableEq, Repr

/-- The object states of a thread that the model reaches. -/
inductive ObjectState where
  | init
  | active
  | failed
  deriving DecidableEq, Repr

/-- The scheduler block reasons that the accounting and its callers read. -/
inductive SchedulerBlock where
  | affinityChanged
  | vcpuOff
  | vcpuSuspend
  deriving DecidableEq, Repr

/-- Where a VCPU thread is in its own code. `stopped`: it has not started, or has stopped in
`vcpu_poweroff`; its next step is the `vcpu_started` event. `suspended`: it is in the yield of
`vcpu_suspend`; its next step is the resume event. `running`: it runs guest code. -/
inductive VcpuPhase where
  | stopped
  | suspended
  | running
  deriving DecidableEq, Repr

/-- The fields of `thread_t` that the accounting reads and writes, and the ghost fields. -/
structure Thread (n : Nat) where
  state : ObjectState
  vpmMode : VpmMode
  schedulerAffinity : Option (Fin n)
  schedulerPrevAffinity : Option (Fin n)
  schedulerActiveAffinity : Option (Fin n)
  running : Bool
  blocked : SchedulerBlock → Bool
  pinCount : Nat
  psciInactiveCount : Nat
  psciMigrate : Bool
  /-- Whether `scheduler_rcu_entry` is queued for the end of an affinity change. -/
  rcuQueued : Bool
  phase : VcpuPhase
  accounted : Option (Fin n)

namespace Thread

variable {n : Nat} (th : Thread n)

/-- `scheduler_block`. -/
def block (b : SchedulerBlock) : Thread n := { th with blocked := update th.blocked b true }

/-- `scheduler_unblock`. -/
def unblock (b : SchedulerBlock) : Thread n := { th with blocked := update th.blocked b false }

/-- `can_be_scheduled`: no block reason is set. -/
def canBeScheduled : Bool :=
  !th.blocked .affinityChanged && !th.blocked .vcpuOff && !th.blocked .vcpuSuspend

/-- `scheduler_get_active_affinity`: the CPU the thread runs on, else its affinity. -/
def schedulerGetActiveAffinity : Option (Fin n) :=
  match th.schedulerActiveAffinity with
  | some c => some c
  | none => th.schedulerAffinity

@[simp] theorem block_blocked_self (b : SchedulerBlock) : (th.block b).blocked b = true := by
  simp [block]

@[simp] theorem unblock_blocked_self (b : SchedulerBlock) : (th.unblock b).blocked b = false := by
  simp [unblock]

theorem unblock_blocked_of_ne {b b' : SchedulerBlock} (h : b' ≠ b) :
    (th.unblock b).blocked b' = th.blocked b' := by
  simp [unblock, h]

end Thread

/-- The threads `Θ` and the `vpm_active_vcpus` of the `n` CPUs. -/
structure PsciState (Θ : Type) (n : Nat) where
  threads : Θ → Thread n
  vpmActiveVcpus : Fin n → Nat

variable {Θ : Type} {n : Nat}

namespace PsciState

variable (s : PsciState Θ n)

/-- The state with `vpm_active_vcpus` of CPU `c` replaced. -/
def setVpm (c : Fin n) (v : Nat) : PsciState Θ n :=
  { s with vpmActiveVcpus := update s.vpmActiveVcpus c v }

@[simp] theorem setVpm_threads (c : Fin n) (v : Nat) : (s.setVpm c v).threads = s.threads := rfl

@[simp] theorem setVpm_vpm_self (c : Fin n) (v : Nat) : (s.setVpm c v).vpmActiveVcpus c = v := by
  simp [setVpm]

variable [DecidableEq Θ]

/-- The state with thread `x` replaced. -/
def setThread (x : Θ) (th : Thread n) : PsciState Θ n := { s with threads := update s.threads x th }

@[simp] theorem setThread_threads_self (x : Θ) (th : Thread n) : (s.setThread x th).threads x = th := by
  simp [setThread]

@[simp] theorem setThread_vpm (x : Θ) (th : Thread n) :
    (s.setThread x th).vpmActiveVcpus = s.vpmActiveVcpus := rfl

@[simp] theorem setThread_setThread (x : Θ) (th th' : Thread n) :
    (s.setThread x th).setThread x th' = s.setThread x th' := by
  simp [setThread]

end PsciState

variable [DecidableEq Θ]

/-! ## `psci_common.c` and `psci_pc.c` -/

/-- `psci_vpm_active_vcpus_get (cpu, vcpu)`. -/
def psciVpmActiveVcpusGet (cpu : Option (Fin n)) (x : Θ) (s : PsciState Θ n) :
    Option (PsciState Θ n) :=
  match cpu with
  | none => none
  | some c =>
    let th := s.threads x
    if th.psciInactiveCount = 0 then none
    else
      let s := s.setThread x { th with psciInactiveCount := th.psciInactiveCount - 1 }
      if th.psciInactiveCount - 1 = 0 then some (s.setVpm c (s.vpmActiveVcpus c + 1)) else some s

/-- `psci_vpm_active_vcpus_put (cpu, vcpu)`: the assert is on the count before the decrement. -/
def psciVpmActiveVcpusPut (cpu : Option (Fin n)) (x : Θ) (s : PsciState Θ n) :
    Option (PsciState Θ n) :=
  match cpu with
  | none => none
  | some c =>
    let th := s.threads x
    let s := s.setThread x { th with psciInactiveCount := th.psciInactiveCount + 1 }
    if th.psciInactiveCount + 1 = 1 then
      if s.vpmActiveVcpus c = 0 then none else some (s.setVpm c (s.vpmActiveVcpus c - 1))
    else some s

/-- `psci_vcpu_resume`: the count of the CPU of `scheduler_get_active_affinity`; the thread is
past the suspend or stop it resumes from. -/
def psciVcpuResume (x : Θ) (s : PsciState Θ n) : Option (PsciState Θ n) :=
  if (s.threads x).vpmMode = .none then none
  else
    (psciVpmActiveVcpusGet (s.threads x).schedulerGetActiveAffinity x s).map fun s =>
      s.setThread x { s.threads x with phase := .running }

/-- `psci_vcpu_suspend`, into phase `p`: `suspended` from `vcpu_suspend`, `stopped` from the
`vcpu_stopped` event. -/
def psciVcpuSuspend (p : VcpuPhase) (x : Θ) (s : PsciState Θ n) : Option (PsciState Θ n) :=
  if (s.threads x).vpmMode = .none then none
  else
    (psciVpmActiveVcpusPut (s.threads x).schedulerGetActiveAffinity x s).map fun s =>
      s.setThread x { s.threads x with phase := p }

/-- The PSCI handlers of the VCPU events that suspend or resume: each acts on a VCPU with a
`vpm_mode` other than `VPM_MODE_NONE`. -/
def ifVpm (f : Θ → PsciState Θ n → Option (PsciState Θ n)) (p : VcpuPhase) (x : Θ)
    (s : PsciState Θ n) : Option (PsciState Θ n) :=
  if (s.threads x).vpmMode ≠ .none then f x s
  else some (s.setThread x { s.threads x with phase := p })

/-- `psci_handle_vcpu_activate_thread`: the first count is one for a VCPU that is off and one for
a VCPU without a valid affinity. -/
def psciHandleVcpuActivateThread (x : Θ) (s : PsciState Θ n) : Option (PsciState Θ n) :=
  let th := s.threads x
  if th.blocked .vcpuSuspend then none
  else
    let count := (if th.blocked .vcpuOff then 1 else 0) + (if th.schedulerAffinity = none then 1 else 0)
    let s := s.setThread x { th with psciInactiveCount := count, accounted := th.schedulerAffinity }
    if count = 0 then
      match th.schedulerAffinity with
      | some c => some (s.setVpm c (s.vpmActiveVcpus c + 1))
      | none => none
    else some s

/-- `object_activate` of a VCPU: `psci_handle_object_activate_thread` sets `vpm_mode` (from the
PSCI group's options: `mode`), then `psci_handle_vcpu_activate_thread` runs; `ok` is whether the
activation succeeds. -/
def objectActivateThread (x : Θ) (mode : VpmMode) (ok : Bool) (s : PsciState Θ n) :
    Option (Error × PsciState Θ n) :=
  if (s.threads x).state = .init then
    if ok then
      let s := s.setThread x { s.threads x with vpmMode := mode }
      (psciHandleVcpuActivateThread x s).map fun s =>
        (.ok, s.setThread x { s.threads x with state := .active })
    else some (.failure, s.setThread x { s.threads x with state := .failed })
  else some (.objectState, s)

/-- `psci_handle_scheduler_affinity_changed (thread, prev_cpu, next_cpu, need_sync)`: the state,
and whether the change needs the sync event. The accounting moves from `prev` to `next`. -/
def psciHandleSchedulerAffinityChanged (x : Θ) (prev next : Option (Fin n)) (s : PsciState Θ n) :
    Option (PsciState Θ n × Bool) :=
  let th := s.threads x
  if th.state = .active ∧ th.vpmMode ≠ .none then
    let s := if prev.isSome then psciVpmActiveVcpusPut prev x s else some s
    s.bind fun s =>
      let s := s.setThread x { s.threads x with accounted := next }
      if next.isSome then
        (psciVpmActiveVcpusGet next x s).map fun s =>
          if th.vpmMode = .psci then (s.setThread x { s.threads x with psciMigrate := true }, true)
          else (s, false)
      else some (s, false)
  else some (s.setThread x { th with accounted := next }, false)

/-- `psci_handle_scheduler_affinity_changed_sync (thread, next_cpu)`. -/
def psciHandleSchedulerAffinityChangedSync (x : Θ) (next : Option (Fin n)) (s : PsciState Θ n) :
    Option (PsciState Θ n) :=
  let th := s.threads x
  if th.psciMigrate then
    if th.vpmMode = .psci ∧ next.isSome then some (s.setThread x { th with psciMigrate := false })
    else none
  else some s

/-! ## `scheduler_fprr.c` -/

/-- `start_affinity_changed_events`: run the affinity-changed event; without a sync, end the
change, else queue the RCU update that ends it. -/
def startAffinityChangedEvents (x : Θ) (s : PsciState Θ n) : Option (PsciState Θ n) :=
  let th := s.threads x
  if th.blocked .affinityChanged then
    (psciHandleSchedulerAffinityChanged x th.schedulerPrevAffinity th.schedulerAffinity s).map
      fun r => if r.2 then r.1.setThread x { r.1.threads x with rcuQueued := true }
        else r.1.setThread x ((r.1.threads x).unblock .affinityChanged)
  else none

/-- `scheduler_fprr_handle_affinity_change_update`: the RCU update that ends an affinity change. -/
def schedulerFprrHandleAffinityChangeUpdate (x : Θ) (s : PsciState Θ n) : Option (PsciState Θ n) :=
  let th := s.threads x
  if th.blocked .affinityChanged then
    (psciHandleSchedulerAffinityChangedSync x th.schedulerAffinity s).map fun s =>
      s.setThread x { (s.threads x).unblock .affinityChanged with rcuQueued := false }
  else none

/-- `scheduler_set_affinity (thread, target_cpu)`; `prepare` is the result of the
`scheduler_set_affinity_prepare` event. A running thread's events wait for its context switch. -/
def schedulerSetAffinity (x : Θ) (target : Option (Fin n)) (prepare : Error) (s : PsciState Θ n) :
    Option (Error × PsciState Θ n) :=
  let th := s.threads x
  let prev := th.schedulerAffinity
  if prev = target then some (.ok, s)
  else if th.pinCount ≠ 0 then some (.denied, s)
  else if th.blocked .affinityChanged then some (.retry, s)
  else if prepare ≠ .ok then some (prepare, s)
  else
    let s := s.setThread x
      { th.block .affinityChanged with schedulerPrevAffinity := prev, schedulerAffinity := target }
    if th.running then some (.ok, s)
    else (startAffinityChangedEvents x s).map fun s => (.ok, s)

/-- `scheduler_fprr_handle_thread_context_switch_pre (next)` on CPU `c`; `yieldedFrom` is whether
`CPULOCAL(yielded_from)` is set. -/
def schedulerFprrHandleThreadContextSwitchPre (c : Fin n) (x : Θ) (yieldedFrom : Bool)
    (s : PsciState Θ n) : Error × PsciState Θ n :=
  let th := s.threads x
  let runnable := !th.running && th.canBeScheduled
  let affinityValid := th.schedulerAffinity = some c || (th.schedulerAffinity = none && yieldedFrom)
  if runnable && affinityValid then
    (.ok, s.setThread x { th with running := true, schedulerActiveAffinity := some c })
  else (.denied, s)

/-- `scheduler_fprr_handle_thread_context_switch_post (prev)`: the thread stops running, runs the
affinity-changed events a change left to it, and has no active affinity. -/
def schedulerFprrHandleThreadContextSwitchPost (x : Θ) (s : PsciState Θ n) :
    Option (PsciState Θ n) :=
  let s := s.setThread x { s.threads x with running := false }
  let s := if (s.threads x).blocked .affinityChanged then startAffinityChangedEvents x s else some s
  s.map fun s => s.setThread x { s.threads x with schedulerActiveAffinity := none }

/-! ## `vcpu.c` and `aarch64_init.c` -/

/-- `vcpu_suspend` by the running VCPU. `busy`: a wakeup is pending (`ERROR_BUSY`); `later`: the
result of the suspend-event handlers after PSCI's, whose failure runs its unwinder. -/
def vcpuSuspend (x : Θ) (busy : Bool) (later : Error) (s : PsciState Θ n) :
    Option (Error × PsciState Θ n) :=
  if busy then some (.busy, s)
  else
    (ifVpm (psciVcpuSuspend .suspended) .suspended x s).bind fun s =>
      if later ≠ .ok then
        (ifVpm psciVcpuResume .running x s).map fun s => (later, s)
      else some (.ok, s.setThread x ((s.threads x).block .vcpuSuspend))

/-- The resume event of `vcpu_suspend`, after its yield returns. -/
def vcpuResumeEvent (x : Θ) (s : PsciState Θ n) : Option (PsciState Θ n) :=
  ifVpm psciVcpuResume .running x s

/-- `vcpu_thread_start (false)`: the `vcpu_started` event, which `psci_handle_vcpu_started`
handles by resuming. -/
def vcpuThreadStart (x : Θ) (s : PsciState Θ n) : Option (PsciState Θ n) :=
  ifVpm psciVcpuResume .running x s

/-- `vcpu_resume (vcpu)`, from `psci_handle_vcpu_wakeup`: a suspended VCPU is unblocked. -/
def psciHandleVcpuWakeup (x : Θ) (s : PsciState Θ n) : PsciState Θ n :=
  if (s.threads x).blocked .vcpuSuspend then s.setThread x ((s.threads x).unblock .vcpuSuspend)
  else s

/-- `vcpu_poweroff` by the running VCPU; `result` is the result of the `vcpu_poweroff` event.
The VCPU is blocked off and the `vcpu_stopped` event suspends it. -/
def vcpuPoweroff (x : Θ) (result : Error) (s : PsciState Θ n) : Option (Error × PsciState Θ n) :=
  if result = .ok then
    let s := s.setThread x ((s.threads x).block .vcpuOff)
    (ifVpm (psciVcpuSuspend .stopped) .stopped x s).map fun s => (.ok, s)
  else some (result, s)

/-- `hypercall_vcpu_poweron` and `vcpu_poweron`: a VCPU that is off is unblocked. The PSCI handler
of the `vcpu_poweron` event changes only the group's online count. -/
def vcpuPoweron (x : Θ) (s : PsciState Θ n) : Error × PsciState Θ n :=
  if (s.threads x).blocked .vcpuOff then (.ok, s.setThread x ((s.threads x).unblock .vcpuOff))
  else (.busy, s)

/-! ## Runs -/

/-- The calls of the model, each on the thread (and CPU) it names. -/
inductive PsciCall (Θ : Type) (n : Nat) where
  | activate (vcpu : Θ) (mode : VpmMode) (ok : Bool)
  | setAffinity (thread : Θ) (target : Option (Fin n)) (prepare : Error)
  | affinityChangeUpdate (thread : Θ)
  | contextSwitchPre (cpu : Fin n) (next : Θ) (yieldedFrom : Bool)
  | contextSwitchPost (prev : Θ)
  | poweron (vcpu : Θ)
  | poweroff (vcpu : Θ) (result : Error)
  | started (vcpu : Θ)
  | suspend (vcpu : Θ) (busy : Bool) (later : Error)
  | resume (vcpu : Θ)
  | wakeup (vcpu : Θ)

/-- A call's effect on the state. -/
def PsciCall.run (s : PsciState Θ n) : PsciCall Θ n → Option (PsciState Θ n)
  | .activate x mode ok => (objectActivateThread x mode ok s).map Prod.snd
  | .setAffinity x target prepare => (schedulerSetAffinity x target prepare s).map Prod.snd
  | .affinityChangeUpdate x => schedulerFprrHandleAffinityChangeUpdate x s
  | .contextSwitchPre c x yieldedFrom => some (schedulerFprrHandleThreadContextSwitchPre c x yieldedFrom s).2
  | .contextSwitchPost x => schedulerFprrHandleThreadContextSwitchPost x s
  | .poweron x => some (vcpuPoweron x s).2
  | .poweroff x result => (vcpuPoweroff x result s).map Prod.snd
  | .started x => vcpuThreadStart x s
  | .suspend x busy later => (vcpuSuspend x busy later s).map Prod.snd
  | .resume x => vcpuResumeEvent x s
  | .wakeup x => some (psciHandleVcpuWakeup x s)

/-- When a call can happen. Affinity is set on threads in state init or active; only activated
threads are scheduled, looked up for power-on, or end an affinity change through a queued RCU
entry; a post-switch is of a running thread; and a VCPU's own calls are made while it runs, at the
point of its code they belong to. -/
def PsciCall.Enabled (s : PsciState Θ n) : PsciCall Θ n → Prop
  | .activate _ _ _ => True
  | .setAffinity x _ _ => (s.threads x).state = .init ∨ (s.threads x).state = .active
  | .affinityChangeUpdate x => (s.threads x).rcuQueued = true
  | .contextSwitchPre _ x _ => (s.threads x).state = .active
  | .contextSwitchPost x => (s.threads x).running = true
  | .poweron x => (s.threads x).state = .active
  | .poweroff x _ => (s.threads x).running = true ∧ (s.threads x).phase = .running
  | .started x => (s.threads x).running = true ∧ (s.threads x).phase = .stopped ∧
      (s.threads x).blocked .vcpuOff = false
  | .suspend x _ _ => (s.threads x).running = true ∧ (s.threads x).phase = .running
  | .resume x => (s.threads x).running = true ∧ (s.threads x).phase = .suspended ∧
      (s.threads x).blocked .vcpuSuspend = false
  | .wakeup _ => True

/-- A created VCPU: not yet active, blocked off, with the affinity it was created with. -/
def Thread.create {n : Nat} (affinity : Option (Fin n)) : Thread n where
  state := .init
  vpmMode := .none
  schedulerAffinity := affinity
  schedulerPrevAffinity := none
  schedulerActiveAffinity := none
  running := false
  blocked := fun b => decide (b = .vcpuOff)
  pinCount := 0
  psciInactiveCount := 0
  psciMigrate := false
  rcuQueued := false
  phase := .stopped
  accounted := affinity

/-- The state after boot, with the VCPUs created: every `vpm_active_vcpus` is zero
(`psci_handle_boot_cpu_cold_init`). -/
def psciInit (affinity : Θ → Option (Fin n)) : PsciState Θ n :=
  ⟨fun x => Thread.create (affinity x), fun _ => 0⟩

/-- The states a sequence of enabled calls reaches from `psciInit affinity` without a failed
assertion. -/
inductive Reachable (affinity : Θ → Option (Fin n)) : PsciState Θ n → Prop where
  | init : Reachable affinity (psciInit affinity)
  | step {s s' : PsciState Θ n} (call : PsciCall Θ n) :
      Reachable affinity s → call.Enabled s → call.run s = some s' → Reachable affinity s'

end Gunyah.Psci

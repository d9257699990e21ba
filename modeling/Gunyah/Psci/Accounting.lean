import Gunyah.Psci.Model
import Gunyah.Lib.Count

set_option autoImplicit false

/-!
# The PSCI accounting is exact on every reachable state

Each VCPU's `psci_inactive_count` counts two reasons: that the VCPU is off or suspended (its phase
is not `running`), and that the CPU it is accounted to is not valid (`Thread.inactiveReasons`).
Each CPU's `vpm_active_vcpus` is the number of active VCPUs with a `vpm_mode`, no reason to be
inactive, and accounted to that CPU (`VpmExact`). Both hold on every reachable state, and no
enabled call fails an assertion there (`Gunyah.Psci.Calls`).

The accounting is right because of when each count moves. Suspend and resume count on
`scheduler_get_active_affinity`: the CPU a running thread runs on. A thread runs only on its
affinity, or with no valid affinity after a directed yield; an affinity change of a running thread
leaves the thread accounted to the old CPU until its context switch runs the event. So a running
thread is accounted to the CPU it runs on, or to none (`ThreadInv.running_on`), and the accounted
CPU is the previous affinity while a change waits for the switch, else the affinity
(`ThreadInv.accounted_eq`).

`psci_vpm_active_vcpus_put` and `psci_vpm_active_vcpus_get` are shown once to keep the counts
exact when their CPU is the accounted one (`put_spec`, `get_spec`); every handler is then a
composition of those with changes to one thread that no count reads.
-/

namespace Gunyah.Psci

open Function Count

variable {Θ : Type} [DecidableEq Θ] {n : Nat}

namespace Thread

variable (th : Thread n)

/-- Whether CPU `c` counts the thread: it is active, has a `vpm_mode`, has no reason to be
inactive, and is accounted to `c`. -/
def countedOn (c : Fin n) : Bool :=
  th.state = .active && th.vpmMode ≠ .none && th.psciInactiveCount = 0 && th.accounted = some c

/-- The reasons for the thread to be inactive: it is off or suspended, and it is accounted to no
valid CPU. -/
def inactiveReasons : Nat :=
  (if th.phase = .running then 0 else 1) + (if th.accounted = none then 1 else 0)

/-- The thread after `psci_vpm_active_vcpus_put`. -/
def put : Thread n := { th with psciInactiveCount := th.psciInactiveCount + 1 }

/-- The thread after `psci_vpm_active_vcpus_get`. -/
def get : Thread n := { th with psciInactiveCount := th.psciInactiveCount - 1 }

theorem countedOn_eq_false_of_count {c : Fin n} (h : th.psciInactiveCount ≠ 0) :
    th.countedOn c = false := by
  simp [countedOn, h]

/-- Whether a CPU counts a thread reads only its state, mode, count and accounted CPU. -/
theorem countedOn_congr {th' : Thread n} (hstate : th'.state = th.state)
    (hmode : th'.vpmMode = th.vpmMode) (hcount : th'.psciInactiveCount = th.psciInactiveCount)
    (hacc : th'.accounted = th.accounted) (c : Fin n) : th'.countedOn c = th.countedOn c := by
  simp only [countedOn, hstate, hmode, hcount, hacc]

theorem eq_of_countedOn {c d : Fin n} (hc : th.countedOn c = true) (hd : th.countedOn d = true) :
    c = d := by
  simp only [countedOn, Bool.and_eq_true, decide_eq_true_eq] at hc hd
  exact Option.some.inj (hc.2.symm.trans hd.2)

end Thread

/-- The invariant of one thread. -/
structure ThreadInv (th : Thread n) : Prop where
  /-- A thread runs exactly when it has an active affinity. -/
  running_iff : th.running = true ↔ th.schedulerActiveAffinity.isSome
  /-- Only activated threads run. -/
  running_active : th.running = true → th.state = .active
  /-- A VCPU not yet activated is off, has not started, and has no migration waiting. -/
  init : th.state = .init → th.blocked .vcpuOff = true ∧ th.blocked .vcpuSuspend = false ∧
    th.phase = .stopped ∧ th.psciMigrate = false
  /-- The count of a VCPU with a `vpm_mode` is its number of reasons. -/
  count_eq : th.state = .active → th.vpmMode ≠ .none → th.psciInactiveCount = th.inactiveReasons
  /-- A VCPU without a `vpm_mode` keeps the count it was activated with, which is not zero. -/
  count_pos : th.state = .active → th.vpmMode = .none → th.psciInactiveCount ≠ 0
  /-- An affinity change waiting for the context switch leaves the thread on its old CPU. -/
  accounted_eq : th.state = .active → th.accounted =
    if th.running = true ∧ th.blocked .affinityChanged = true then th.schedulerPrevAffinity
    else th.schedulerAffinity
  /-- A running thread is accounted to the CPU it runs on, or to none. -/
  running_on : th.running = true → th.accounted = th.schedulerActiveAffinity ∨ th.accounted = none
  /-- An affinity change waiting for its RCU update blocks the thread, which does not run. -/
  rcu : th.rcuQueued = true → th.blocked .affinityChanged = true ∧ th.running = false
  /-- A migration waiting for the sync event is of a PSCI VCPU to a valid CPU. -/
  migrate : th.psciMigrate = true →
    th.rcuQueued = true ∧ th.vpmMode = .psci ∧ th.schedulerAffinity.isSome

/-! ## Exact counts -/

section Exact

variable [Fintype Θ]

/-- The threads CPU `c` counts. -/
def PsciState.counted (s : PsciState Θ n) (c : Fin n) : Finset Θ :=
  Finset.univ.filter fun t => (s.threads t).countedOn c = true

/-- Every `vpm_active_vcpus` is the number of threads its CPU counts. -/
def VpmExact (s : PsciState Θ n) : Prop :=
  ∀ c, s.vpmActiveVcpus c = (s.counted c).card

variable {s : PsciState Θ n} {x : Θ}

/-- Changing one thread keeps the counts exact when each CPU's count moves by the change in
whether it counts the thread. -/
theorem VpmExact.of_thread (h : VpmExact s) {th : Thread n} {v : Fin n → Nat}
    (hv : ∀ c, v c + (if (s.threads x).countedOn c then 1 else 0) =
      s.vpmActiveVcpus c + (if th.countedOn c then 1 else 0)) :
    VpmExact ⟨update s.threads x th, v⟩ := by
  intro c
  have hcard := card_filter_add_of_eq_off (p := fun t => (s.threads t).countedOn c)
    (q := fun t => (update s.threads x th t).countedOn c) x fun t ht => by
      simp only [update_of_ne ht]
  simp only [update_self] at hcard
  have hc := hv c
  rw [h c] at hc
  simp only [PsciState.counted] at hc ⊢
  omega

/-- A change to one thread that no CPU's count reads keeps the counts exact. -/
theorem VpmExact.setThread (h : VpmExact s) {th : Thread n}
    (hth : ∀ c, th.countedOn c = (s.threads x).countedOn c) : VpmExact (s.setThread x th) :=
  h.of_thread fun c => by rw [hth c]

/-- The same, with the thread replaced named by an equation. -/
theorem VpmExact.setThread_of_eq (h : VpmExact s) {th₀ th : Thread n} (hx : s.threads x = th₀)
    (hth : ∀ c, th.countedOn c = th₀.countedOn c) : VpmExact (s.setThread x th) :=
  h.setThread fun c => by rw [hth c, hx]

omit [DecidableEq Θ] in
theorem mem_counted_iff {c : Fin n} : x ∈ s.counted c ↔ (s.threads x).countedOn c = true := by
  simp [PsciState.counted]

/-- `psci_vpm_active_vcpus_put` on a CPU that counts the thread if its count is zero. -/
theorem put_spec (h : VpmExact s) {c : Fin n}
    (hc : (s.threads x).psciInactiveCount = 0 → (s.threads x).countedOn c = true) :
    ∃ s', psciVpmActiveVcpusPut (some c) x s = some s' ∧
      s'.threads = update s.threads x (s.threads x).put ∧ VpmExact s' := by
  have hput : ∀ d, (s.threads x).put.countedOn d = false := fun d =>
    Thread.countedOn_eq_false_of_count _ (by simp [Thread.put])
  by_cases hz : (s.threads x).psciInactiveCount = 0
  · -- the count leaves zero: the thread was counted on `c`, which counts one less
    have hcx := hc hz
    have hpos : s.vpmActiveVcpus c ≠ 0 := by
      rw [h c]
      exact Finset.card_ne_zero_of_mem (mem_counted_iff.2 hcx)
    refine ⟨(s.setThread x (s.threads x).put).setVpm c (s.vpmActiveVcpus c - 1),
      by simp [psciVpmActiveVcpusPut, Thread.put, hz, hpos], rfl, ?_⟩
    apply h.of_thread
    intro d
    by_cases hd : d = c
    · subst hd
      simp only [PsciState.setThread_vpm, update_self, hcx, hput, if_true,
        Bool.false_eq_true, if_false]
      omega
    · have hxd : (s.threads x).countedOn d = false := by
        cases hxd' : (s.threads x).countedOn d with
        | false => rfl
        | true => exact absurd (Thread.eq_of_countedOn _ hxd' hcx) hd
      simp [update_of_ne hd, hxd, hput]
  · -- the count was not zero: no CPU counted the thread, and none counts it now
    refine ⟨s.setThread x (s.threads x).put, by simp [psciVpmActiveVcpusPut, Thread.put, hz], rfl, ?_⟩
    apply h.of_thread
    intro d
    simp [Thread.countedOn_eq_false_of_count _ hz, hput]

/-- `psci_vpm_active_vcpus_get` on a CPU that counts the thread once its count is zero. -/
theorem get_spec (h : VpmExact s) {c : Fin n} (hpos : (s.threads x).psciInactiveCount ≠ 0)
    (hc : (s.threads x).psciInactiveCount = 1 → (s.threads x).get.countedOn c = true) :
    ∃ s', psciVpmActiveVcpusGet (some c) x s = some s' ∧
      s'.threads = update s.threads x (s.threads x).get ∧ VpmExact s' := by
  have hold : ∀ d, (s.threads x).countedOn d = false := fun d =>
    Thread.countedOn_eq_false_of_count _ hpos
  by_cases hone : (s.threads x).psciInactiveCount = 1
  · -- the count reaches zero: `c` counts the thread, and one more
    have hcx := hc hone
    refine ⟨(s.setThread x (s.threads x).get).setVpm c (s.vpmActiveVcpus c + 1),
      by simp [psciVpmActiveVcpusGet, Thread.get, hone], rfl, ?_⟩
    apply h.of_thread
    intro d
    by_cases hd : d = c
    · subst hd
      simp [hcx, hold]
    · have hxd : (s.threads x).get.countedOn d = false := by
        cases hxd' : (s.threads x).get.countedOn d with
        | false => rfl
        | true => exact absurd (Thread.eq_of_countedOn _ hxd' hcx) hd
      simp [update_of_ne hd, hxd, hold]
  · have hget : (s.threads x).get.psciInactiveCount ≠ 0 := by
      simp only [Thread.get]
      omega
    refine ⟨s.setThread x (s.threads x).get,
      by simp [psciVpmActiveVcpusGet, Thread.get, hpos, show (s.threads x).psciInactiveCount - 1 ≠ 0 by omega],
      rfl, ?_⟩
    apply h.of_thread
    intro d
    simp [hold, Thread.countedOn_eq_false_of_count _ hget]

end Exact

/-! ## Suspend and resume -/

namespace Thread

variable (th : Thread n)

/-- The thread after the PSCI handler that suspends it into phase `p`: one more reason to be
inactive if it has a `vpm_mode`. -/
def suspendTo (p : VcpuPhase) : Thread n :=
  { th with
    psciInactiveCount := if th.vpmMode = .none then th.psciInactiveCount else th.psciInactiveCount + 1
    phase := p }

/-- The thread after the PSCI handler that resumes it. -/
def resumed : Thread n :=
  { th with
    psciInactiveCount := if th.vpmMode = .none then th.psciInactiveCount else th.psciInactiveCount - 1
    phase := .running }

end Thread

namespace ThreadInv

variable {th : Thread n}

/-- Suspending a running thread adds the reason "suspended". -/
theorem suspendTo (h : ThreadInv th) (hrun : th.running = true) (hphase : th.phase = .running)
    {p : VcpuPhase} (hp : p ≠ .running) : ThreadInv (th.suspendTo p) where
  running_iff := h.running_iff
  running_active := h.running_active
  init hinit := absurd (h.running_active hrun) (by simp_all [Thread.suspendTo])
  count_eq hactive hvpm := by
    change th.vpmMode ≠ .none at hvpm
    have hc := h.count_eq hactive hvpm
    simp only [Thread.inactiveReasons, hphase, if_true] at hc
    simp only [Thread.suspendTo, Thread.inactiveReasons, hvpm, hp, if_false]
    omega
  count_pos hactive hvpm := by
    change th.vpmMode = .none at hvpm
    simpa [Thread.suspendTo, hvpm] using h.count_pos hactive hvpm
  accounted_eq := h.accounted_eq
  running_on := h.running_on
  rcu := h.rcu
  migrate := h.migrate

/-- Resuming a thread that is off or suspended takes the reason away. -/
theorem resumed (h : ThreadInv th) (hrun : th.running = true) (hphase : th.phase ≠ .running) :
    ThreadInv th.resumed where
  running_iff := h.running_iff
  running_active := h.running_active
  init hinit := absurd (h.running_active hrun) (by simp_all [Thread.resumed])
  count_eq hactive hvpm := by
    change th.vpmMode ≠ .none at hvpm
    have hc := h.count_eq hactive hvpm
    simp only [Thread.inactiveReasons, hphase, if_false] at hc
    simp only [Thread.resumed, Thread.inactiveReasons, hvpm, if_true, if_false]
    omega
  count_pos hactive hvpm := by
    change th.vpmMode = .none at hvpm
    simpa [Thread.resumed, hvpm] using h.count_pos hactive hvpm
  accounted_eq := h.accounted_eq
  running_on := h.running_on
  rcu := h.rcu
  migrate := h.migrate

end ThreadInv

section Steps

variable [Fintype Θ]

/-- The invariant of the whole state. -/
structure PsciInv (s : PsciState Θ n) : Prop where
  threads : ∀ t, ThreadInv (s.threads t)
  exact : VpmExact s

variable {s : PsciState Θ n} {x : Θ}

/-- Replacing one thread by one that keeps the thread invariant, with exact counts, keeps the
invariant. -/
theorem PsciInv.of_update (h : PsciInv s) {s' : PsciState Θ n} (y : Θ) (th : Thread n)
    (hth : ThreadInv th) (heq : s'.threads = update s.threads y th) (hexact : VpmExact s') :
    PsciInv s' where
  threads t := by
    rw [heq]
    by_cases ht : t = y
    · subst ht
      rwa [update_self]
    · rw [update_of_ne ht]
      exact h.threads t
  exact := hexact

/-- The CPU a running thread's suspend or resume counts on is the one it runs on. -/
theorem active_of_running {th : Thread n} (h : ThreadInv th) (hrun : th.running = true) :
    ∃ c, th.schedulerGetActiveAffinity = some c ∧ th.schedulerActiveAffinity = some c := by
  obtain ⟨c, hc⟩ := Option.isSome_iff_exists.1 (h.running_iff.1 hrun)
  exact ⟨c, by simp [Thread.schedulerGetActiveAffinity, hc], hc⟩

/-- The PSCI handlers that suspend a running thread into phase `p`. -/
theorem suspend_spec (h : PsciInv s) (hrun : (s.threads x).running = true) (p : VcpuPhase) :
    ∃ s', ifVpm (psciVcpuSuspend p) p x s = some s' ∧
      s'.threads = update s.threads x ((s.threads x).suspendTo p) ∧ VpmExact s' := by
  have hth := h.threads x
  by_cases hvpm : (s.threads x).vpmMode = .none
  · refine ⟨s.setThread x { s.threads x with phase := p }, by simp [ifVpm, hvpm], ?_, ?_⟩
    · simp [PsciState.setThread, Thread.suspendTo, hvpm]
    · exact h.exact.setThread fun c => by simp [Thread.countedOn, hvpm]
  · obtain ⟨c, hget, hactive⟩ := active_of_running hth hrun
    -- a count of zero means the thread runs and is accounted, so to the CPU it runs on
    have hc : (s.threads x).psciInactiveCount = 0 → (s.threads x).countedOn c = true := by
      intro hz
      have hcount := hth.count_eq (hth.running_active hrun) hvpm
      have hacc : (s.threads x).accounted ≠ none := by
        intro hn
        simp [Thread.inactiveReasons, hn, hz] at hcount
      have hon : (s.threads x).accounted = some c := by
        rcases hth.running_on hrun with e | e
        · rw [e, hactive]
        · exact absurd e hacc
      simp [Thread.countedOn, hth.running_active hrun, hvpm, hz, hon]
    obtain ⟨s₁, hput, hthreads, hexact⟩ := put_spec h.exact hc
    refine ⟨s₁.setThread x { s₁.threads x with phase := p }, ?_, ?_, ?_⟩
    · simp [ifVpm, hvpm, psciVcpuSuspend, hget, hput]
    · simp [PsciState.setThread, hthreads, Thread.suspendTo, Thread.put, hvpm]
    · exact hexact.setThread (Thread.countedOn_congr _ rfl rfl rfl rfl)

/-- The PSCI handlers that resume a running thread that is off or suspended. -/
theorem resume_spec (h : PsciInv s) (hrun : (s.threads x).running = true)
    (hphase : (s.threads x).phase ≠ .running) :
    ∃ s', ifVpm psciVcpuResume .running x s = some s' ∧
      s'.threads = update s.threads x (s.threads x).resumed ∧ VpmExact s' := by
  have hth := h.threads x
  by_cases hvpm : (s.threads x).vpmMode = .none
  · refine ⟨s.setThread x { s.threads x with phase := .running }, by simp [ifVpm, hvpm], ?_, ?_⟩
    · simp [PsciState.setThread, Thread.resumed, hvpm]
    · exact h.exact.setThread fun c => by simp [Thread.countedOn, hvpm]
  · obtain ⟨c, hget, hactive⟩ := active_of_running hth hrun
    have hcount := hth.count_eq (hth.running_active hrun) hvpm
    have hpos : (s.threads x).psciInactiveCount ≠ 0 := by
      simp [hcount, Thread.inactiveReasons, hphase]
    -- a count of one means the thread is accounted, so to the CPU it runs on
    have hc : (s.threads x).psciInactiveCount = 1 → (s.threads x).get.countedOn c = true := by
      intro hone
      have hacc : (s.threads x).accounted ≠ none := by
        intro hn
        simp [Thread.inactiveReasons, hn, hphase, hone] at hcount
      have hon : (s.threads x).accounted = some c := by
        rcases hth.running_on hrun with e | e
        · rw [e, hactive]
        · exact absurd e hacc
      simp [Thread.countedOn, Thread.get, hth.running_active hrun, hvpm, hone, hon]
    obtain ⟨s₁, hgetc, hthreads, hexact⟩ := get_spec h.exact hpos hc
    refine ⟨s₁.setThread x { s₁.threads x with phase := .running }, ?_, ?_, ?_⟩
    · simp [ifVpm, hvpm, psciVcpuResume, hget, hgetc]
    · simp [PsciState.setThread, hthreads, Thread.resumed, Thread.get, hvpm]
    · exact hexact.setThread (Thread.countedOn_congr _ rfl rfl rfl rfl)

end Steps

/-! ## Affinity changes -/

namespace Thread

variable (th : Thread n)

/-- Whether the thread's affinity change is accounted: it is active and has a `vpm_mode`. -/
def Tracked : Prop := th.state = .active ∧ th.vpmMode ≠ .none

instance : Decidable th.Tracked := inferInstanceAs (Decidable (_ ∧ _))

/-- The thread after `psci_handle_scheduler_affinity_changed (thread, prev, next)`. -/
def moved (prev next : Option (Fin n)) : Thread n :=
  if th.Tracked then
    { th with
      psciInactiveCount :=
        th.psciInactiveCount + (if prev.isSome then 1 else 0) - (if next.isSome then 1 else 0)
      accounted := next
      psciMigrate := if th.vpmMode = .psci ∧ next.isSome then true else th.psciMigrate }
  else { th with accounted := next }

/-- Whether the affinity-changed event of the thread needs the sync event. -/
def needSync (next : Option (Fin n)) : Bool :=
  th.state = .active && th.vpmMode = .psci && next.isSome

section Moved

variable (prev next : Option (Fin n))

@[simp] theorem moved_state : (th.moved prev next).state = th.state := by
  unfold moved; split <;> rfl
@[simp] theorem moved_vpmMode : (th.moved prev next).vpmMode = th.vpmMode := by
  unfold moved; split <;> rfl
@[simp] theorem moved_schedulerAffinity :
    (th.moved prev next).schedulerAffinity = th.schedulerAffinity := by
  unfold moved; split <;> rfl
@[simp] theorem moved_schedulerPrevAffinity :
    (th.moved prev next).schedulerPrevAffinity = th.schedulerPrevAffinity := by
  unfold moved; split <;> rfl
@[simp] theorem moved_schedulerActiveAffinity :
    (th.moved prev next).schedulerActiveAffinity = th.schedulerActiveAffinity := by
  unfold moved; split <;> rfl
@[simp] theorem moved_running : (th.moved prev next).running = th.running := by
  unfold moved; split <;> rfl
@[simp] theorem moved_blocked : (th.moved prev next).blocked = th.blocked := by
  unfold moved; split <;> rfl
@[simp] theorem moved_rcuQueued : (th.moved prev next).rcuQueued = th.rcuQueued := by
  unfold moved; split <;> rfl
@[simp] theorem moved_phase : (th.moved prev next).phase = th.phase := by
  unfold moved; split <;> rfl
@[simp] theorem moved_accounted : (th.moved prev next).accounted = next := by
  unfold moved; split <;> rfl

end Moved

variable {th}

theorem countedOn_of_not_tracked (h : ¬th.Tracked) (c : Fin n) : th.countedOn c = false := by
  simp only [Tracked, not_and_or, not_not] at h
  rcases h with h | h <;> simp [countedOn, h]

theorem needSync_of_not_tracked (h : ¬th.Tracked) (next : Option (Fin n)) :
    th.needSync next = false := by
  simp only [Tracked, not_and_or, not_not] at h
  rcases h with h | h <;> simp [needSync, h]

end Thread

section Moves

variable [Fintype Θ] {s : PsciState Θ n} {x : Θ}

/-- `psci_handle_scheduler_affinity_changed` from the CPU the thread is accounted to. -/
theorem affinityChanged_spec (h : VpmExact s) {prev : Option (Fin n)} (next : Option (Fin n))
    (hacc : (s.threads x).Tracked → (s.threads x).accounted = prev)
    (hcount : (s.threads x).Tracked →
      (s.threads x).psciInactiveCount = (s.threads x).inactiveReasons) :
    ∃ s', psciHandleSchedulerAffinityChanged x prev next s = some (s', (s.threads x).needSync next) ∧
      s'.threads = update s.threads x ((s.threads x).moved prev next) ∧ VpmExact s' := by
  by_cases htr : (s.threads x).Tracked
  · have hacc' := hacc htr
    have hcount' := hcount htr
    obtain ⟨hactive, hvpm⟩ := htr
    -- the put on the CPU left, when it is valid
    obtain ⟨s₁, hs₁, hthreads₁, hexact₁⟩ : ∃ s₁, (if prev.isSome then psciVpmActiveVcpusPut prev x s
        else some s) = some s₁ ∧ s₁.threads = update s.threads x { s.threads x with
          psciInactiveCount := (s.threads x).psciInactiveCount + (if prev.isSome then 1 else 0) } ∧
        VpmExact s₁ := by
      cases prev with
      | none => exact ⟨s, rfl, by simp, h⟩
      | some c =>
        have hc : (s.threads x).psciInactiveCount = 0 → (s.threads x).countedOn c = true := by
          intro hz
          simp [Thread.countedOn, hactive, hvpm, hz, hacc']
        obtain ⟨s₁, h1, h2, h3⟩ := put_spec h hc
        exact ⟨s₁, by simpa using h1, by simpa [Thread.put] using h2, h3⟩
    -- after it the count is not zero: a thread accounted to no CPU had a reason already
    have hpos₁ : (s.threads x).psciInactiveCount + (if prev.isSome then 1 else 0) ≠ 0 := by
      cases prev with
      | none => simp [hcount', Thread.inactiveReasons, hacc']
      | some c => simp
    set s₂ := s₁.setThread x { s₁.threads x with accounted := next } with hs₂
    have hthreads₂ : s₂.threads = update s.threads x { s.threads x with
        psciInactiveCount := (s.threads x).psciInactiveCount + (if prev.isSome then 1 else 0),
        accounted := next } := by
      simp [hs₂, PsciState.setThread, hthreads₁]
    have hexact₂ : VpmExact s₂ := hexact₁.setThread fun c => by
      rw [Thread.countedOn_eq_false_of_count _ (by simpa [hthreads₁] using hpos₁),
        Thread.countedOn_eq_false_of_count _ (by simpa [hthreads₁] using hpos₁)]
    have hrun : psciHandleSchedulerAffinityChanged x prev next s =
        if next.isSome then (psciVpmActiveVcpusGet next x s₂).map fun r =>
          if (s.threads x).vpmMode = .psci then
            (r.setThread x { r.threads x with psciMigrate := true }, true)
          else (r, false)
        else some (s₂, false) := by
      simp only [psciHandleSchedulerAffinityChanged, if_pos (show _ ∧ _ from ⟨hactive, hvpm⟩), hs₁,
        Option.bind_some, hs₂]
    rw [hrun]
    cases next with
    | none =>
      refine ⟨s₂, by simp [Thread.needSync], ?_, hexact₂⟩
      rw [hthreads₂]
      simp [Thread.moved, Thread.Tracked, hactive, hvpm]
    | some d =>
      -- the get on the CPU entered
      have hc : (s₂.threads x).psciInactiveCount = 1 → (s₂.threads x).get.countedOn d = true := by
        intro hone
        simp only [hthreads₂, update_self] at hone ⊢
        simp [Thread.countedOn, Thread.get, hactive, hvpm, hone]
      obtain ⟨s₃, hget, hthreads₃, hexact₃⟩ :=
        get_spec hexact₂ (by simpa [hthreads₂] using hpos₁) hc
      by_cases hpsci : (s.threads x).vpmMode = .psci
      · refine ⟨s₃.setThread x { s₃.threads x with psciMigrate := true }, ?_, ?_, ?_⟩
        · simp [hget, hpsci, Thread.needSync, hactive]
        · simp [PsciState.setThread, hthreads₃, hthreads₂, Thread.get, Thread.moved, Thread.Tracked,
            hactive, hpsci]
        · exact hexact₃.setThread (Thread.countedOn_congr _ rfl rfl rfl rfl)
      · refine ⟨s₃, ?_, ?_, hexact₃⟩
        · simp [hget, hpsci, Thread.needSync]
        · simp [hthreads₃, hthreads₂, Thread.get, Thread.moved, Thread.Tracked, hactive, hvpm, hpsci]
  · -- the handler does nothing, and the thread is counted nowhere before or after
    refine ⟨s.setThread x { s.threads x with accounted := next }, ?_, ?_, ?_⟩
    · have hnot : ¬((s.threads x).state = .active ∧ (s.threads x).vpmMode ≠ .none) := htr
      rw [Thread.needSync_of_not_tracked htr]
      simp only [psciHandleSchedulerAffinityChanged, if_neg hnot]
    · simp [PsciState.setThread, Thread.moved, htr]
    · have hnew : ¬({ s.threads x with accounted := next } : Thread n).Tracked := htr
      exact h.setThread fun c => by
        rw [Thread.countedOn_of_not_tracked htr, Thread.countedOn_of_not_tracked hnew]

end Moves

namespace Thread

variable (th : Thread n) (sync : Bool)

/-- The thread once its affinity-changed events have run: the change ends, or waits for the RCU
update when it needs the sync event. -/
def finishChange : Thread n :=
  if sync then { th with rcuQueued := true } else th.unblock .affinityChanged

@[simp] theorem finishChange_state : (th.finishChange sync).state = th.state := by
  unfold finishChange; split <;> rfl
@[simp] theorem finishChange_vpmMode : (th.finishChange sync).vpmMode = th.vpmMode := by
  unfold finishChange; split <;> rfl
@[simp] theorem finishChange_schedulerAffinity :
    (th.finishChange sync).schedulerAffinity = th.schedulerAffinity := by
  unfold finishChange; split <;> rfl
@[simp] theorem finishChange_schedulerActiveAffinity :
    (th.finishChange sync).schedulerActiveAffinity = th.schedulerActiveAffinity := by
  unfold finishChange; split <;> rfl
@[simp] theorem finishChange_running : (th.finishChange sync).running = th.running := by
  unfold finishChange; split <;> rfl
@[simp] theorem finishChange_psciInactiveCount :
    (th.finishChange sync).psciInactiveCount = th.psciInactiveCount := by
  unfold finishChange; split <;> rfl
@[simp] theorem finishChange_psciMigrate : (th.finishChange sync).psciMigrate = th.psciMigrate := by
  unfold finishChange; split <;> rfl
@[simp] theorem finishChange_phase : (th.finishChange sync).phase = th.phase := by
  unfold finishChange; split <;> rfl
@[simp] theorem finishChange_accounted : (th.finishChange sync).accounted = th.accounted := by
  unfold finishChange; split <;> rfl
@[simp] theorem finishChange_rcuQueued :
    (th.finishChange sync).rcuQueued = (sync || th.rcuQueued) := by
  unfold finishChange; split <;> simp_all [unblock]

/-- The block reasons other than an affinity change stay. -/
theorem finishChange_blocked_of_ne {b : SchedulerBlock} (hb : b ≠ .affinityChanged) :
    (th.finishChange sync).blocked b = th.blocked b := by
  unfold finishChange; split
  · rfl
  · exact unblock_blocked_of_ne _ hb

theorem finishChange_blocked_of_sync (h : sync = true) :
    (th.finishChange sync).blocked .affinityChanged = th.blocked .affinityChanged := by
  simp [finishChange, h]

end Thread

section Moves

variable [Fintype Θ] {s : PsciState Θ n} {x : Θ}

/-- `start_affinity_changed_events` of a thread accounted to its previous affinity. -/
theorem startAffinityChangedEvents_spec (h : VpmExact s)
    (hblock : (s.threads x).blocked .affinityChanged = true)
    (hacc : (s.threads x).Tracked → (s.threads x).accounted = (s.threads x).schedulerPrevAffinity)
    (hcount : (s.threads x).Tracked →
      (s.threads x).psciInactiveCount = (s.threads x).inactiveReasons) :
    ∃ s', startAffinityChangedEvents x s = some s' ∧
      s'.threads = update s.threads x (((s.threads x).moved (s.threads x).schedulerPrevAffinity
        (s.threads x).schedulerAffinity).finishChange ((s.threads x).needSync (s.threads x).schedulerAffinity)) ∧
      VpmExact s' := by
  obtain ⟨s₁, hs₁, hthreads, hexact⟩ :=
    affinityChanged_spec h (s.threads x).schedulerAffinity hacc hcount
  cases hsync : (s.threads x).needSync (s.threads x).schedulerAffinity with
  | true =>
    refine ⟨s₁.setThread x { s₁.threads x with rcuQueued := true }, ?_, ?_, ?_⟩
    · simp [startAffinityChangedEvents, hblock, hs₁, hsync]
    · simp [PsciState.setThread, hthreads, Thread.finishChange]
    · exact hexact.setThread (Thread.countedOn_congr _ rfl rfl rfl rfl)
  | false =>
    refine ⟨s₁.setThread x ((s₁.threads x).unblock .affinityChanged), ?_, ?_, ?_⟩
    · simp [startAffinityChangedEvents, hblock, hs₁, hsync]
    · simp [PsciState.setThread, hthreads, Thread.finishChange]
    · exact hexact.setThread (Thread.countedOn_congr _ rfl rfl rfl rfl)

end Moves

namespace ThreadInv

variable {th u : Thread n}

/-- Setting a block reason other than an affinity change keeps the invariant of an activated
thread; only `init` reads the others. -/
theorem setBlocked (h : ThreadInv th) (hstate : th.state ≠ .init) {b : SchedulerBlock}
    (hb : b ≠ .affinityChanged) (v : Bool) : ThreadInv { th with blocked := update th.blocked b v } where
  running_iff := h.running_iff
  running_active := h.running_active
  init hinit := absurd hinit hstate
  count_eq := h.count_eq
  count_pos := h.count_pos
  accounted_eq hact := by simpa [update_of_ne hb.symm] using h.accounted_eq hact
  running_on := h.running_on
  rcu hq := by simpa [update_of_ne hb.symm] using h.rcu hq
  migrate := h.migrate

/-- A thread whose affinity-changed events have run, from its previous affinity to its affinity,
keeps the invariant once it is not running and has no active affinity. -/
theorem changed (hrun : u.running = false) (hrcu : u.rcuQueued = false) (hmig : u.psciMigrate = false)
    (hblock : u.blocked .affinityChanged = true)
    (hinit : u.state = .init →
      u.blocked .vcpuOff = true ∧ u.blocked .vcpuSuspend = false ∧ u.phase = .stopped)
    (hacc : u.state = .active → u.accounted = u.schedulerPrevAffinity)
    (hcount : u.state = .active → u.vpmMode ≠ .none → u.psciInactiveCount = u.inactiveReasons)
    (hpos : u.state = .active → u.vpmMode = .none → u.psciInactiveCount ≠ 0) :
    ThreadInv { (u.moved u.schedulerPrevAffinity u.schedulerAffinity).finishChange
      (u.needSync u.schedulerAffinity) with schedulerActiveAffinity := none } := by
  have hnotinit : u.state = .active → u.state ≠ .init := fun h e => by rw [h] at e; cases e
  constructor
  · simp [hrun]
  · simp [hrun]
  · intro hi
    simp only [Thread.finishChange_state, Thread.moved_state] at hi
    have hnt : ¬u.Tracked := fun ht => absurd hi (hnotinit ht.1)
    obtain ⟨hoff, hsus, hph⟩ := hinit hi
    refine ⟨?_, ?_, by simpa using hph, ?_⟩
    · rw [Thread.finishChange_blocked_of_ne _ _ (by decide)]
      simpa using hoff
    · rw [Thread.finishChange_blocked_of_ne _ _ (by decide)]
      simpa using hsus
    · simp [Thread.moved, hnt, hmig]
  · intro hact hvpm
    simp only [Thread.finishChange_state, Thread.moved_state] at hact
    simp only [Thread.finishChange_vpmMode, Thread.moved_vpmMode] at hvpm
    have ht : u.Tracked := ⟨hact, hvpm⟩
    have hc := hcount hact hvpm
    simp only [Thread.inactiveReasons, hacc hact] at hc
    -- the count moves by one for the CPU left and one for the CPU entered
    have hcnt : ((u.moved u.schedulerPrevAffinity u.schedulerAffinity).finishChange
        (u.needSync u.schedulerAffinity)).psciInactiveCount = u.psciInactiveCount +
          (if u.schedulerPrevAffinity.isSome then 1 else 0) -
          (if u.schedulerAffinity.isSome then 1 else 0) := by
      simp [Thread.moved, ht]
    simp only [hcnt, hc, Thread.inactiveReasons, Thread.finishChange_phase, Thread.moved_phase,
      Thread.finishChange_accounted, Thread.moved_accounted]
    cases u.schedulerPrevAffinity <;> cases u.schedulerAffinity <;> simp
  · intro hact hvpm
    simp only [Thread.finishChange_state, Thread.moved_state] at hact
    simp only [Thread.finishChange_vpmMode, Thread.moved_vpmMode] at hvpm
    have hnt : ¬u.Tracked := fun ht => ht.2 hvpm
    simpa [Thread.moved, hnt] using hpos hact hvpm
  · intro _
    simp [hrun]
  · intro h'
    simp [hrun] at h'
  · intro hq
    simp only [Thread.finishChange_rcuQueued, Thread.moved_rcuQueued, hrcu, Bool.or_false] at hq
    simp [Thread.finishChange_blocked_of_sync _ _ hq, hblock, hrun]
  · intro hm
    by_cases ht : u.Tracked
    · have hm' : u.vpmMode = .psci ∧ u.schedulerAffinity.isSome = true := by
        simpa [Thread.moved, ht, hmig] using hm
      have hsync : u.needSync u.schedulerAffinity = true := by
        simp [Thread.needSync, ht.1, hm'.1, hm'.2]
      simp [hsync, hm'.1, hm'.2]
    · simp [Thread.moved, ht, hmig] at hm

end ThreadInv

namespace ThreadInv

variable {th : Thread n}

/-- A thread not blocked for an affinity change has no RCU update or migration waiting. -/
theorem idle_of_unblocked (h : ThreadInv th) (hb : th.blocked .affinityChanged = false) :
    th.rcuQueued = false ∧ th.psciMigrate = false := by
  have hq : th.rcuQueued = false := by
    cases hq : th.rcuQueued with
    | false => rfl
    | true => simp [(h.rcu hq).1] at hb
  refine ⟨hq, ?_⟩
  cases hm : th.psciMigrate with
  | false => rfl
  | true => simp [(h.migrate hm).1] at hq

/-- A running thread has no RCU update or migration waiting. -/
theorem idle_of_running (h : ThreadInv th) (hrun : th.running = true) :
    th.rcuQueued = false ∧ th.psciMigrate = false := by
  have hq : th.rcuQueued = false := by
    cases hq : th.rcuQueued with
    | false => rfl
    | true => simp [(h.rcu hq).2] at hrun
  refine ⟨hq, ?_⟩
  cases hm : th.psciMigrate with
  | false => rfl
  | true => simp [(h.migrate hm).1] at hq

end ThreadInv

namespace Thread

variable (th : Thread n) (target : Option (Fin n))

/-- The thread as `scheduler_set_affinity` leaves it before the events run: blocked for the change,
with its affinity become the previous one. -/
def startChange : Thread n :=
  { th.block .affinityChanged with
    schedulerPrevAffinity := th.schedulerAffinity
    schedulerAffinity := target }

@[simp] theorem startChange_state : (th.startChange target).state = th.state := rfl
@[simp] theorem startChange_vpmMode : (th.startChange target).vpmMode = th.vpmMode := rfl
@[simp] theorem startChange_schedulerAffinity :
    (th.startChange target).schedulerAffinity = target := rfl
@[simp] theorem startChange_schedulerPrevAffinity :
    (th.startChange target).schedulerPrevAffinity = th.schedulerAffinity := rfl
@[simp] theorem startChange_schedulerActiveAffinity :
    (th.startChange target).schedulerActiveAffinity = th.schedulerActiveAffinity := rfl
@[simp] theorem startChange_running : (th.startChange target).running = th.running := rfl
@[simp] theorem startChange_psciInactiveCount :
    (th.startChange target).psciInactiveCount = th.psciInactiveCount := rfl
@[simp] theorem startChange_psciMigrate : (th.startChange target).psciMigrate = th.psciMigrate := rfl
@[simp] theorem startChange_rcuQueued : (th.startChange target).rcuQueued = th.rcuQueued := rfl
@[simp] theorem startChange_phase : (th.startChange target).phase = th.phase := rfl
@[simp] theorem startChange_accounted : (th.startChange target).accounted = th.accounted := rfl
@[simp] theorem startChange_blocked_self :
    (th.startChange target).blocked .affinityChanged = true := by
  simp [startChange]
theorem startChange_blocked_of_ne {b : SchedulerBlock} (hb : b ≠ .affinityChanged) :
    (th.startChange target).blocked b = th.blocked b := by
  simp [startChange, block, hb]

end Thread

theorem Thread.with_active_none {th : Thread n} (h : th.schedulerActiveAffinity = none) :
    { th with schedulerActiveAffinity := none } = th := by
  cases th
  simp_all

end Gunyah.Psci

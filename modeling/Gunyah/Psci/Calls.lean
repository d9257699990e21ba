import Gunyah.Psci.Accounting

set_option autoImplicit false

/-!
# Every call keeps the PSCI accounting

Each call of `PsciCall` that is enabled keeps `PsciInv` and fails no assertion
(`PsciInv.run`); the state after boot has it (`psciInv_init`), so every reachable state has it
(`psciInv_of_reachable`). On such a state every active VCPU with a `vpm_mode` has a
`psci_inactive_count` equal to its number of reasons to be inactive, and every
`vpm_active_vcpus` is the number of VCPUs its CPU counts (`psci_vcpu_accounting`).
-/

namespace Gunyah.Psci

open Function Count

variable {Θ : Type} [DecidableEq Θ] {n : Nat}

/-! ## Every call keeps the invariant -/

section Calls

variable [Fintype Θ] {s : PsciState Θ n} {x : Θ}

/-- `scheduler_set_affinity` on any thread. -/
theorem PsciInv.setAffinity (h : PsciInv s) (target : Option (Fin n)) (prepare : Error) :
    ∃ r, schedulerSetAffinity x target prepare s = some r ∧ PsciInv r.2 := by
  have hth := h.threads x
  -- the early returns leave the state as it is
  by_cases heq : (s.threads x).schedulerAffinity = target
  · exact ⟨(.ok, s), by simp [schedulerSetAffinity, heq], h⟩
  by_cases hpin : (s.threads x).pinCount ≠ 0
  · exact ⟨(.denied, s), by simp [schedulerSetAffinity, heq, hpin], h⟩
  cases hb : (s.threads x).blocked .affinityChanged with
  | true => exact ⟨(.retry, s), by simp [schedulerSetAffinity, heq, hpin, hb], h⟩
  | false =>
  by_cases hprep : prepare ≠ .ok
  · exact ⟨(prepare, s), by simp [schedulerSetAffinity, heq, hpin, hb, hprep], h⟩
  obtain ⟨hq, hm⟩ := hth.idle_of_unblocked hb
  -- the thread is blocked for the change, with its old affinity as the previous one
  have hexact₁ : VpmExact (s.setThread x ((s.threads x).startChange target)) :=
    h.exact.setThread (Thread.countedOn_congr _ rfl rfl rfl rfl)
  have hcode : schedulerSetAffinity x target prepare s =
      if (s.threads x).running then some (.ok, s.setThread x ((s.threads x).startChange target))
      else (startAffinityChangedEvents x (s.setThread x ((s.threads x).startChange target))).map
        fun s => (.ok, s) := by
    simp [schedulerSetAffinity, heq, hpin, hb, hprep, Thread.startChange]
  rw [hcode]
  cases hrun : (s.threads x).running with
  | true =>
    -- a running thread keeps its accounting until its context switch
    refine ⟨_, rfl, h.of_update x _ ?_ rfl hexact₁⟩
    have hactive : (s.threads x).state = .active := hth.running_active hrun
    exact {
      running_iff := hth.running_iff
      running_active := hth.running_active
      init := fun hi => absurd (hactive.symm.trans hi) (by decide)
      count_eq := hth.count_eq
      count_pos := hth.count_pos
      accounted_eq := fun _ => by
        have hacc := hth.accounted_eq hactive
        simp only [hrun, hb] at hacc
        simp [hrun, hacc]
      running_on := hth.running_on
      rcu := fun hq' => absurd hq' (by simp [hq])
      migrate := fun hm' => absurd hm' (by simp [hm]) }
  | false =>
    -- a thread that is not running has its events run at once
    have hactive₀ : (s.threads x).schedulerActiveAffinity = none := by
      cases ha : (s.threads x).schedulerActiveAffinity with
      | none => rfl
      | some c => exact absurd (hth.running_iff.2 (by simp [ha])) (by simp [hrun])
    set u := (s.threads x).startChange target with hu
    obtain ⟨s₂, hs₂, hthreads₂, hexact₂⟩ := startAffinityChangedEvents_spec (x := x) hexact₁
      (by simp [hu])
      (fun ht => by simpa [hu, hrun] using hth.accounted_eq (by simpa [hu] using ht.1))
      (fun ht => by
        simpa [hu, Thread.inactiveReasons] using
          hth.count_eq (by simpa [hu] using ht.1) (by simpa [hu] using ht.2))
    have heq₂ : s₂.threads = update s.threads x
        ((u.moved u.schedulerPrevAffinity u.schedulerAffinity).finishChange
          (u.needSync u.schedulerAffinity)) := by
      rw [hthreads₂]
      simp [PsciState.setThread, hu]
    have hinv := ThreadInv.changed (u := u) (by simp [hu, hrun]) (by simp [hu, hq]) (by simp [hu, hm])
      (by simp [hu])
      (fun hi => by
        obtain ⟨h1, h2, h3, -⟩ := hth.init (by simpa [hu] using hi)
        exact ⟨by rw [hu, Thread.startChange_blocked_of_ne _ _ (by decide)]; exact h1,
          by rw [hu, Thread.startChange_blocked_of_ne _ _ (by decide)]; exact h2, by simpa [hu] using h3⟩)
      (fun ha => by simpa [hu, hrun] using hth.accounted_eq (by simpa [hu] using ha))
      (fun ha hv => by
        simpa [hu, Thread.inactiveReasons] using hth.count_eq (by simpa [hu] using ha) (by simpa [hu] using hv))
      (fun ha hv => by simpa [hu] using hth.count_pos (by simpa [hu] using ha) (by simpa [hu] using hv))
    rw [Thread.with_active_none (by simp [hu, hactive₀])] at hinv
    exact ⟨(.ok, s₂), by rw [hs₂]; rfl, h.of_update x _ hinv heq₂ hexact₂⟩

/-- The RCU update that ends an affinity change. -/
theorem PsciInv.affinityChangeUpdate (h : PsciInv s) (hq : (s.threads x).rcuQueued = true) :
    ∃ s', schedulerFprrHandleAffinityChangeUpdate x s = some s' ∧ PsciInv s' := by
  have hth := h.threads x
  obtain ⟨hblock, hrun⟩ := hth.rcu hq
  -- the sync event clears a waiting migration, which is of a PSCI VCPU to a valid CPU
  obtain ⟨s₁, hsync, hthreads₁, hexact₁⟩ : ∃ s₁,
      psciHandleSchedulerAffinityChangedSync x (s.threads x).schedulerAffinity s = some s₁ ∧
      s₁.threads = update s.threads x { s.threads x with psciMigrate := false } ∧ VpmExact s₁ := by
    cases hm : (s.threads x).psciMigrate with
    | true =>
      obtain ⟨-, hpsci, haff⟩ := hth.migrate hm
      refine ⟨s.setThread x { s.threads x with psciMigrate := false }, ?_, rfl, ?_⟩
      · simp [psciHandleSchedulerAffinityChangedSync, hm, hpsci, haff]
      · exact h.exact.setThread (Thread.countedOn_congr _ rfl rfl rfl rfl)
    | false =>
      refine ⟨s, by simp [psciHandleSchedulerAffinityChangedSync, hm], ?_, h.exact⟩
      have hself : { s.threads x with psciMigrate := false } = s.threads x := by
        rw [← hm]
      rw [hself, update_eq_self]
  set th₂ : Thread n := { (s₁.threads x).unblock .affinityChanged with rcuQueued := false }
  have hth₂ : th₂ = { (s.threads x).unblock .affinityChanged with rcuQueued := false, psciMigrate := false } := by
    simp [th₂, hthreads₁, Thread.unblock]
  refine ⟨s₁.setThread x th₂, by simp [schedulerFprrHandleAffinityChangeUpdate, hblock, hsync, th₂],
    h.of_update x th₂ ?_ (by simp [PsciState.setThread, hthreads₁])
      (hexact₁.setThread (Thread.countedOn_congr _ rfl rfl rfl rfl))⟩
  · rw [hth₂]
    exact {
      running_iff := hth.running_iff
      running_active := hth.running_active
      init := fun hi => by
        obtain ⟨h1, h2, h3, -⟩ := hth.init hi
        exact ⟨by rw [Thread.unblock_blocked_of_ne _ (by decide)]; exact h1,
          by rw [Thread.unblock_blocked_of_ne _ (by decide)]; exact h2, h3, rfl⟩
      count_eq := hth.count_eq
      count_pos := hth.count_pos
      accounted_eq := fun ha => by simpa [Thread.unblock, hrun] using hth.accounted_eq ha
      running_on := fun hr => absurd hr (by simp [Thread.unblock, hrun])
      rcu := fun hq' => absurd hq' (by simp)
      migrate := fun hm' => absurd hm' (by simp) }

/-- `context_switch_pre` of an activated thread on CPU `c`. -/
theorem PsciInv.contextSwitchPre (h : PsciInv s) (hactive : (s.threads x).state = .active)
    (c : Fin n) (yieldedFrom : Bool) :
    PsciInv (schedulerFprrHandleThreadContextSwitchPre c x yieldedFrom s).2 := by
  have hth := h.threads x
  unfold schedulerFprrHandleThreadContextSwitchPre
  dsimp only
  split
  · rename_i hok
    simp only [Bool.and_eq_true, Bool.not_eq_true', Bool.or_eq_true, decide_eq_true_eq] at hok
    obtain ⟨⟨hrun, hsched⟩, haff⟩ := hok
    have hb : (s.threads x).blocked .affinityChanged = false := by
      simp only [Thread.canBeScheduled, Bool.and_eq_true, Bool.not_eq_true'] at hsched
      exact hsched.1.1
    obtain ⟨hq, hm⟩ := hth.idle_of_unblocked hb
    -- a thread that is not running is accounted to its affinity
    have hacc : (s.threads x).accounted = (s.threads x).schedulerAffinity := by
      simpa [hrun] using hth.accounted_eq hactive
    refine h.of_update x _ ?_ rfl (h.exact.setThread (Thread.countedOn_congr _ rfl rfl rfl rfl))
    exact {
      running_iff := by simp
      running_active := fun _ => hactive
      init := fun hi => absurd (hactive.symm.trans hi) (by decide)
      count_eq := hth.count_eq
      count_pos := hth.count_pos
      accounted_eq := fun _ => by simpa [hb] using hacc
      running_on := fun _ => by
        rcases haff with e | ⟨e, -⟩
        · left
          simpa [e] using hacc
        · right
          simpa [e] using hacc
      rcu := fun hq' => absurd hq' (by simp [hq])
      migrate := fun hm' => absurd hm' (by simp [hm]) }
  · exact h

/-- `context_switch_post` of a running thread: its waiting affinity change runs. -/
theorem PsciInv.contextSwitchPost (h : PsciInv s) (hrun : (s.threads x).running = true) :
    ∃ s', schedulerFprrHandleThreadContextSwitchPost x s = some s' ∧ PsciInv s' := by
  have hth := h.threads x
  have hactive : (s.threads x).state = .active := hth.running_active hrun
  obtain ⟨hq, hm⟩ := hth.idle_of_running hrun
  set u : Thread n := { s.threads x with running := false } with hu
  have hexact₁ : VpmExact (s.setThread x u) :=
    h.exact.setThread (Thread.countedOn_congr _ rfl rfl rfl rfl)
  cases hb : (s.threads x).blocked .affinityChanged with
  | false =>
    -- no change waits: the thread only stops running
    refine ⟨s.setThread x { u with schedulerActiveAffinity := none }, ?_, ?_⟩
    · simp [schedulerFprrHandleThreadContextSwitchPost, hu, hb]
    · refine h.of_update x { u with schedulerActiveAffinity := none } ?_ rfl
        (h.exact.setThread (Thread.countedOn_congr _ rfl rfl rfl rfl))
      exact {
        running_iff := by simp
        running_active := fun hr => absurd hr (by simp)
        init := fun hi => absurd (hactive.symm.trans hi) (by decide)
        count_eq := hth.count_eq
        count_pos := hth.count_pos
        accounted_eq := fun _ => by simpa [hrun, hb] using hth.accounted_eq hactive
        running_on := fun hr => absurd hr (by simp)
        rcu := fun hq' => absurd hq' (by simp [hu, hq])
        migrate := fun hm' => absurd hm' (by simp [hu, hm]) }
  | true =>
    -- the change left to the switch runs now, from the previous affinity
    obtain ⟨s₂, hs₂, hthreads₂, hexact₂⟩ := startAffinityChangedEvents_spec (x := x) hexact₁
      (by simp [hu, hb])
      (fun ht => by simpa [hu, hrun, hb] using hth.accounted_eq hactive)
      (fun ht => by
        simpa [hu, Thread.inactiveReasons] using hth.count_eq hactive (by simpa [hu] using ht.2))
    simp only [PsciState.setThread_threads_self] at hthreads₂
    set v := (u.moved u.schedulerPrevAffinity u.schedulerAffinity).finishChange
      (u.needSync u.schedulerAffinity) with hv
    refine ⟨s₂.setThread x { v with schedulerActiveAffinity := none }, ?_, ?_⟩
    · have hcode : schedulerFprrHandleThreadContextSwitchPost x s =
          (startAffinityChangedEvents x (s.setThread x u)).map fun s =>
            s.setThread x { s.threads x with schedulerActiveAffinity := none } := by
        simp [schedulerFprrHandleThreadContextSwitchPost, hu, hb]
      rw [hcode, hs₂]
      simp [hthreads₂, hv]
    · have hinv := ThreadInv.changed (u := u) (by simp [hu]) (by simp [hu, hq]) (by simp [hu, hm])
        (by simp [hu, hb])
        (fun hi => absurd (hactive.symm.trans (by simpa [hu] using hi)) (by decide))
        (fun _ => by simpa [hu, hrun, hb] using hth.accounted_eq hactive)
        (fun _ hvpm => by
          simpa [hu, Thread.inactiveReasons] using hth.count_eq hactive (by simpa [hu] using hvpm))
        (fun _ hvpm => by simpa [hu] using hth.count_pos hactive (by simpa [hu] using hvpm))
      have hx : s₂.threads x = v := by simp [hthreads₂, hv]
      refine h.of_update x _ hinv ?_
        (hexact₂.setThread_of_eq hx (Thread.countedOn_congr _ rfl rfl rfl rfl))
      simp [PsciState.setThread, hthreads₂, hv]

/-- Unblocking or blocking a reason other than an affinity change, on an activated thread. -/
theorem PsciInv.setBlocked (h : PsciInv s) (hstate : (s.threads x).state ≠ .init)
    {b : SchedulerBlock} (hb : b ≠ .affinityChanged) (v : Bool) :
    PsciInv (s.setThread x { s.threads x with blocked := update (s.threads x).blocked b v }) :=
  h.of_update x _ ((h.threads x).setBlocked hstate hb v) rfl
    (h.exact.setThread (Thread.countedOn_congr _ rfl rfl rfl rfl))

/-- `vcpu_poweron` of an activated VCPU. -/
theorem PsciInv.poweron (h : PsciInv s) (hactive : (s.threads x).state = .active) :
    PsciInv (vcpuPoweron x s).2 := by
  unfold vcpuPoweron
  split
  · exact h.setBlocked (by simp [hactive]) (by decide) false
  · exact h

/-- The wakeup of a VCPU: only an activated thread is blocked suspended. -/
theorem PsciInv.wakeup (h : PsciInv s) : PsciInv (psciHandleVcpuWakeup x s) := by
  unfold psciHandleVcpuWakeup
  split
  · rename_i hsus
    have hstate : (s.threads x).state ≠ .init := fun hi => by
      simp [((h.threads x).init hi).2.1] at hsus
    exact h.setBlocked hstate (by decide) false
  · exact h

/-- The PSCI suspend handler of a running VCPU in phase `running`. -/
theorem PsciInv.suspend (h : PsciInv s) (hrun : (s.threads x).running = true)
    (hphase : (s.threads x).phase = .running) {p : VcpuPhase} (hp : p ≠ .running) :
    ∃ s', ifVpm (psciVcpuSuspend p) p x s = some s' ∧ PsciInv s' ∧
      s'.threads x = (s.threads x).suspendTo p := by
  obtain ⟨s', hs', hthreads, hexact⟩ := suspend_spec h hrun p
  exact ⟨s', hs', h.of_update x _ ((h.threads x).suspendTo hrun hphase hp) hthreads hexact,
    by simp [hthreads]⟩

/-- The PSCI resume handler of a running VCPU that is off or suspended. -/
theorem PsciInv.resume (h : PsciInv s) (hrun : (s.threads x).running = true)
    (hphase : (s.threads x).phase ≠ .running) :
    ∃ s', ifVpm psciVcpuResume .running x s = some s' ∧ PsciInv s' := by
  obtain ⟨s', hs', hthreads, hexact⟩ := resume_spec h hrun hphase
  exact ⟨s', hs', h.of_update x _ ((h.threads x).resumed hrun hphase) hthreads hexact⟩

/-- `vcpu_suspend` of a running VCPU. -/
theorem PsciInv.of_vcpuSuspend (h : PsciInv s) (hrun : (s.threads x).running = true)
    (hphase : (s.threads x).phase = .running) (busy : Bool) (later : Error) :
    ∃ r, vcpuSuspend x busy later s = some r ∧ PsciInv r.2 := by
  cases busy with
  | true => exact ⟨(.busy, s), rfl, h⟩
  | false =>
    obtain ⟨s₁, hs₁, h₁, hx₁⟩ := h.suspend hrun hphase (p := .suspended) (by decide)
    have hrun₁ : (s₁.threads x).running = true := by
      rw [hx₁]
      exact hrun
    have hphase₁ : (s₁.threads x).phase ≠ .running := by
      rw [hx₁]
      simp [Thread.suspendTo]
    by_cases hlater : later ≠ .ok
    · -- a later handler failed: the unwinder resumes the VCPU
      obtain ⟨s₂, hs₂, h₂⟩ := h₁.resume hrun₁ hphase₁
      exact ⟨(later, s₂), by simp [vcpuSuspend, hs₁, hlater, hs₂], h₂⟩
    · have hactive : (s₁.threads x).state = .active := (h₁.threads x).running_active hrun₁
      have hnotinit : (s₁.threads x).state ≠ .init := by simp [hactive]
      exact ⟨(.ok, s₁.setThread x ((s₁.threads x).block .vcpuSuspend)),
        by simp [vcpuSuspend, hs₁, not_not.1 hlater],
        h₁.setBlocked (x := x) (b := .vcpuSuspend) hnotinit (by decide) true⟩

/-- `vcpu_poweroff` of a running VCPU. -/
theorem PsciInv.of_vcpuPoweroff (h : PsciInv s) (hrun : (s.threads x).running = true)
    (hphase : (s.threads x).phase = .running) (result : Error) :
    ∃ r, vcpuPoweroff x result s = some r ∧ PsciInv r.2 := by
  by_cases hres : result = .ok
  · have hactive : (s.threads x).state = .active := (h.threads x).running_active hrun
    have hnotinit : (s.threads x).state ≠ .init := by simp [hactive]
    have h₁ := h.setBlocked (x := x) (b := .vcpuOff) hnotinit (by decide) true
    obtain ⟨s₂, hs₂, h₂, -⟩ := h₁.suspend (x := x) (p := .stopped) (by simpa using hrun)
      (by simpa using hphase) (by decide)
    refine ⟨(.ok, s₂), ?_, h₂⟩
    have hcode : vcpuPoweroff x result s = (ifVpm (psciVcpuSuspend .stopped) .stopped x
        (s.setThread x { s.threads x with blocked := update (s.threads x).blocked .vcpuOff true })).map
          fun s => (.ok, s) := by
      simp only [vcpuPoweroff, hres, if_true]
      rfl
    rw [hcode, hs₂]
    rfl
  · exact ⟨(result, s), by simp [vcpuPoweroff, hres], h⟩

/-- `object_activate` of a VCPU. -/
theorem PsciInv.activate (h : PsciInv s) (mode : VpmMode) (ok : Bool) :
    ∃ r, objectActivateThread x mode ok s = some r ∧ PsciInv r.2 := by
  have hth := h.threads x
  by_cases hinit : (s.threads x).state = .init
  · obtain ⟨hoff, hsus, hphase, hm⟩ := hth.init hinit
    have hrun : (s.threads x).running = false := by
      cases hr : (s.threads x).running with
      | false => rfl
      | true => exact absurd (hinit.symm.trans (hth.running_active hr)) (by decide)
    have hnot : ∀ c, (s.threads x).countedOn c = false := fun c => by
      simp [Thread.countedOn, hinit]
    cases ok with
    | true =>
      -- the first count: one for being off, one more without a valid affinity
      set tha : Thread n := { s.threads x with
        state := .active
        vpmMode := mode
        psciInactiveCount := 1 + (if (s.threads x).schedulerAffinity = none then 1 else 0)
        accounted := (s.threads x).schedulerAffinity } with htha
      refine ⟨(.ok, s.setThread x tha), ?_, ?_⟩
      · simp [objectActivateThread, hinit, psciHandleVcpuActivateThread, hsus, hoff, htha]
      · refine h.of_update x tha ?_ rfl (h.exact.setThread fun c => ?_)
        · exact {
            running_iff := by simpa [htha] using hth.running_iff
            running_active := fun hr => absurd hr (by simp [htha, hrun])
            init := fun hi => absurd hi (by simp [htha])
            count_eq := fun _ _ => by
              simp [htha, Thread.inactiveReasons, hphase]
            count_pos := fun _ _ => by simp [htha]
            accounted_eq := fun _ => by simp [htha, hrun]
            running_on := fun hr => absurd hr (by simp [htha, hrun])
            rcu := fun hq => by simpa [htha] using hth.rcu hq
            migrate := fun hm' => absurd hm' (by simp [htha, hm]) }
        · rw [hnot c]
          exact Thread.countedOn_eq_false_of_count _ (by simp [htha])
    | false =>
      refine ⟨(.failure, s.setThread x { s.threads x with state := .failed }),
        by simp [objectActivateThread, hinit], ?_⟩
      refine h.of_update x _ ?_ rfl (h.exact.setThread fun c => by simp [Thread.countedOn, hinit])
      exact {
        running_iff := hth.running_iff
        running_active := fun hr => absurd hr (by simp [hrun])
        init := fun hi => absurd hi (by simp)
        count_eq := fun ha => absurd ha (by simp)
        count_pos := fun ha => absurd ha (by simp)
        accounted_eq := fun ha => absurd ha (by simp)
        running_on := fun hr => absurd hr (by simp [hrun])
        rcu := hth.rcu
        migrate := fun hm' => absurd hm' (by simp [hm]) }
  · exact ⟨(.objectState, s), by simp [objectActivateThread, hinit], h⟩

/-- Every enabled call keeps the invariant, and fails no assertion. -/
theorem PsciInv.run (h : PsciInv s) {call : PsciCall Θ n} (hen : call.Enabled s) :
    ∃ s', call.run s = some s' ∧ PsciInv s' := by
  cases call with
  | activate x mode ok =>
    obtain ⟨r, hr, hinv⟩ := h.activate (x := x) mode ok
    exact ⟨r.2, by simp [PsciCall.run, hr], hinv⟩
  | setAffinity x target prepare =>
    obtain ⟨r, hr, hinv⟩ := h.setAffinity (x := x) target prepare
    exact ⟨r.2, by simp [PsciCall.run, hr], hinv⟩
  | affinityChangeUpdate x => exact h.affinityChangeUpdate hen
  | contextSwitchPre c x yieldedFrom => exact ⟨_, rfl, h.contextSwitchPre hen c yieldedFrom⟩
  | contextSwitchPost x => exact h.contextSwitchPost hen
  | poweron x => exact ⟨_, rfl, h.poweron hen⟩
  | poweroff x result =>
    obtain ⟨r, hr, hinv⟩ := h.of_vcpuPoweroff hen.1 hen.2 result
    exact ⟨r.2, by simp [PsciCall.run, hr], hinv⟩
  | started x =>
    obtain ⟨hrun, hphase, -⟩ := hen
    exact h.resume hrun (by simp [hphase])
  | suspend x busy later =>
    obtain ⟨r, hr, hinv⟩ := h.of_vcpuSuspend hen.1 hen.2 busy later
    exact ⟨r.2, by simp [PsciCall.run, hr], hinv⟩
  | resume x =>
    obtain ⟨hrun, hphase, -⟩ := hen
    exact h.resume hrun (by simp [hphase])
  | wakeup x => exact ⟨_, rfl, h.wakeup⟩

end Calls

/-! ## Reachable states -/

/-- A created VCPU keeps the thread invariant: it is not active, so no count is read. -/
theorem threadInv_create (affinity : Option (Fin n)) : ThreadInv (Thread.create affinity) where
  running_iff := by simp [Thread.create]
  running_active := fun hr => absurd hr (by simp [Thread.create])
  init := fun _ => by simp [Thread.create]
  count_eq := fun ha => absurd ha (by simp [Thread.create])
  count_pos := fun ha => absurd ha (by simp [Thread.create])
  accounted_eq := fun ha => absurd ha (by simp [Thread.create])
  running_on := fun hr => absurd hr (by simp [Thread.create])
  rcu := fun hq => absurd hq (by simp [Thread.create])
  migrate := fun hm => absurd hm (by simp [Thread.create])

section Reachable

variable [Fintype Θ] {affinity : Θ → Option (Fin n)}

omit [DecidableEq Θ] in
theorem psciInv_init : PsciInv (psciInit affinity) where
  threads t := threadInv_create (affinity t)
  -- no thread is active yet, so every CPU counts none and every count is zero
  exact c := by
    have hnone : (psciInit affinity).counted c = ∅ := by
      simp [PsciState.counted, psciInit, Thread.countedOn, Thread.create]
    rw [hnone]
    rfl

/-- Every reachable state keeps the invariant. -/
theorem psciInv_of_reachable {s : PsciState Θ n} (h : Reachable affinity s) : PsciInv s := by
  induction h with
  | init => exact psciInv_init
  | step call _ hen hrun ih =>
    obtain ⟨s', hs', hinv⟩ := ih.run hen
    rw [hrun, Option.some.injEq] at hs'
    exact hs' ▸ hinv

/-- The accounting on every reachable state: the count of every active VCPU with a `vpm_mode` is
its number of reasons to be inactive (off or suspended; accounted to no valid CPU), every
`vpm_active_vcpus` is the number of VCPUs its CPU counts, and no enabled call fails an
assertion. -/
theorem psci_vcpu_accounting {s : PsciState Θ n} (h : Reachable affinity s) :
    (∀ t, (s.threads t).state = .active → (s.threads t).vpmMode ≠ .none →
      (s.threads t).psciInactiveCount = (s.threads t).inactiveReasons) ∧
    (∀ c, s.vpmActiveVcpus c = (s.counted c).card) ∧
    (∀ call : PsciCall Θ n, call.Enabled s → (call.run s).isSome) := by
  have hinv := psciInv_of_reachable h
  refine ⟨fun t => (hinv.threads t).count_eq, hinv.exact, fun call hen => ?_⟩
  obtain ⟨s', hs', -⟩ := hinv.run hen
  simp [hs']

/-- A VCPU activated, powered on, switched in on its CPU and started is counted there. -/
theorem psci_vcpu_accounting_started :
    ∃ s : PsciState (Fin 1) 1, Reachable (fun _ => some 0) s ∧ s.vpmActiveVcpus 0 = 1 ∧
      (∀ t, (s.threads t).state = .active → (s.threads t).vpmMode ≠ .none →
        (s.threads t).psciInactiveCount = (s.threads t).inactiveReasons) ∧
      (∀ c, s.vpmActiveVcpus c = (s.counted c).card) ∧
      (∀ call : PsciCall (Fin 1) 1, call.Enabled s → (call.run s).isSome) := by
  have h₀ : Reachable (fun _ => some 0) (psciInit fun (_ : Fin 1) => (some 0 : Option (Fin 1))) :=
    Reachable.init
  have h₁ := Reachable.step (.activate 0 .psci true) h₀ trivial rfl
  have h₂ := Reachable.step (.poweron 0) h₁ rfl rfl
  have h₃ := Reachable.step (.contextSwitchPre 0 0 false) h₂ rfl rfl
  have h₄ := Reachable.step (.started 0) h₃ ⟨rfl, rfl, rfl⟩ rfl
  exact ⟨_, h₄, rfl, psci_vcpu_accounting h₄⟩

end Reachable

end Gunyah.Psci

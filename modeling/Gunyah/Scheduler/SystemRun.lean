import Gunyah.Scheduler.SystemInv
import Mathlib

set_option autoImplicit false

/-!
# The scheduler's invariant over runs

The invariant of `Gunyah.Scheduler.SystemInv` after the context switch, the choice of the next
thread, the directed yields and the remaining calls, and so after every call that a caller may
make: each returns with the invariant after it, or fails an assert of the directed-yield code,
and then the directed yields under way could not go on (`SysInv.run`). The invariant holds at
boot, so in every reachable state (`Reachable.sysInv`), and from it: every call that the callers
may make returns while the directed yields can go on (`Reachable.run_isSome`); no wakeup is lost
(`Reachable.no_lost_wakeup`); every CPU's run queues are consistent and a thread is on the
scheduler of its affinity CPU alone (`Reachable.queued_iff_onCpu`); and a thread runs on at most
one CPU (`Reachable.current_inj`).

The directed yields need not go on. A thread whose own `scheduler_yield_to` returns because it
runs as another thread's yield target drops its yield target, but is still marked yielding; once
it is chosen to run again, `select_yield_target` fails its assert that it has a yield target.
-/

namespace Gunyah.Scheduler

open Function

variable {τ β : Type}

namespace System

variable [DecidableEq τ] [Fintype β] {cfg : Config τ β} {S : System τ β}

/-! ## The context switch -/

section Switch

variable {self : Nat} {next : τ}

/-- `context_switch_pre (next)` on a valid CPU, for a thread other than its current one: it
returns, and either denies the switch, ending the directed yield that chose `next`, or sets `next`
running there; then `next` was not running, has `self` or an invalid CPU as its affinity, and can
be scheduled or is `self`'s idle thread. -/
theorem SysInv.contextSwitchPre (h : S.SysInv cfg) (hself : self < cfg.maxCores)
    (hne : next ≠ S.current self) :
    (∃ S₀, S.contextSwitchPre cfg self next = some (.denied, S₀) ∧ S₀.SysInv cfg) ∨
      (S.contextSwitchPre cfg self next = some (.ok, S.setThread next
          { S.thread next with
            flags := { (S.thread next).flags with running := true }
            activeAffinity := self }) ∧
        (S.thread next).flags.running = false ∧
        ((S.thread next).affinity = self ∨ cfg.maxCores ≤ (S.thread next).affinity) ∧
        (canBeScheduled cfg (S.thread next) ∨ next = cfg.idleThread self)) := by
  have ht := h.thread next
  unfold System.contextSwitchPre
  rw [if_neg hne]
  dsimp only
  split_ifs with hgo hbad
  · -- the asserts hold: a thread that is not running is not marked for a requeue, and one that
    -- can be scheduled, or an idle thread, has not exited
    exfalso
    simp only [Bool.and_eq_true, Bool.not_eq_true', Bool.or_eq_true, decide_eq_true_eq,
      beq_iff_eq] at hgo
    obtain ⟨⟨hrun, hcbs⟩, -⟩ := hgo
    have hnr : (S.thread next).flags.needRequeue = false := by
      cases hn : (S.thread next).flags.needRequeue
      · rfl
      · simpa [hrun] using (ht.needRequeue hn).1
    have hex : (S.thread next).flags.exited = false := by
      rcases hcbs with hc | hi
      · exact ht.not_exited hc
      · exact hi ▸ (h.idle self hself).not_exited
    simp [hnr, hex] at hbad
  · simp only [Bool.and_eq_true, Bool.not_eq_true', Bool.or_eq_true, decide_eq_true_eq,
      beq_iff_eq, decide_eq_false_iff_not, not_lt] at hgo
    obtain ⟨⟨hrun, hcbs⟩, haff⟩ := hgo
    exact .inr ⟨rfl, hrun, haff.imp_right And.left, hcbs⟩
  · refine .inl ⟨_, rfl, ?_⟩
    split
    · exact h.endDirectedYield _
    · exact h

/-- The state in the middle of a switch from the current thread `prev` of CPU `self` to `next`:
`next` runs on `self`, and `prev` is marked neither running nor for a requeue. It keeps the
invariant but `prev`'s wakeup. -/
theorem SysInv.switch (h : S.SysInv cfg) (hself : self < cfg.maxCores)
    (hne : next ≠ S.current self) (hinit : (S.thread next).flags.init)
    (hrun : (S.thread next).flags.running = false)
    (haff : (S.thread next).affinity = self ∨ cfg.maxCores ≤ (S.thread next).affinity)
    (hcbs : canBeScheduled cfg (S.thread next) ∨ next = cfg.idleThread self) :
    let P : System τ β :=
      { S.setThread next
          { S.thread next with
            flags := { (S.thread next).flags with running := true }
            activeAffinity := self } with
        current := update S.current self next }
    (P.setFlags (S.current self)
      { (P.thread (S.current self)).flags with running := false, needRequeue := false }).SysInvOn
        cfg (· ≠ S.current self) := by
  intro P
  set prev := S.current self with hprev
  have htn := h.thread next
  have htp := h.thread prev
  have hrunP : (S.thread prev).flags.running := htp.running_iff.2 ⟨self, hself, rfl⟩
  -- `next` is current nowhere, and `prev` only on `self`
  have hcurN : ∀ c < cfg.maxCores, S.current c ≠ next := fun c hc hcn => by
    simpa [hrun] using htn.running_iff.2 ⟨c, hc, hcn⟩
  have hcurP : ∀ c < cfg.maxCores, S.current c = prev → c = self := fun c hc hcp =>
    (htp.activeAffinity_eq c hc hcp).symm.trans (htp.activeAffinity_eq self hself rfl)
  -- neither has its RCU entry queued: `prev` runs, and `next` can be scheduled or is idle
  have hrcuN : S.rcuQueued next = false := by
    rcases hcbs with hc | hi
    · exact htn.not_rcuQueued hc
    · cases hr : S.rcuQueued next
      · rfl
      · have := (htn.rcu hr).1
        rw [hi, (h.idle self hself).not_affinityChanged] at this
        exact absurd this Bool.false_ne_true
  have hrcuP : S.rcuQueued prev = false := by
    cases hr : S.rcuQueued prev
    · rfl
    · simpa [hrunP] using (htp.rcu hr).2.1
  have hnr : (S.thread next).flags.needRequeue = false := by
    cases hn : (S.thread next).flags.needRequeue
    · rfl
    · simpa [hrun] using (htn.needRequeue hn).1
  set Q := P.setFlags prev { (P.thread prev).flags with running := false, needRequeue := false }
    with hQ
  have hfprr : ∀ c, Q.fprr c = S.fprr c := fun _ => rfl
  have hon : Q.OnCpu = S.OnCpu := rfl
  have hthN : Q.thread next = { S.thread next with
      flags := { (S.thread next).flags with running := true }, activeAffinity := self } := by
    simp [hQ, P, hne]
  have hthP : Q.thread prev = { S.thread prev with
      flags := { (S.thread prev).flags with running := false, needRequeue := false } } := by
    simp [hQ, P, Ne.symm hne]
  have hth : ∀ u, u ≠ next → u ≠ prev → Q.thread u = S.thread u := fun u hun hup => by
    simp [hQ, P, hun, hup]
  have hcurQ : ∀ c, Q.current c = if c = self then next else S.current c := fun c => by
    simp [hQ, P, update_apply]
  have hinitQ : ∀ u, (S.thread u).flags.init → (Q.thread u).flags.init := by
    intro u hu
    by_cases hun : u = next
    · rw [hun] at hu ⊢
      simpa [hthN] using hu
    by_cases hup : u = prev
    · rw [hup] at hu ⊢
      simpa [hthP] using hu
    · rwa [hth u hun hup]
  -- the two threads' own invariants
  have hinvN : Q.ThreadInv cfg next :=
    { onCpu_iff := fun c => by simpa [hon, hthN] using htn.onCpu_iff c
      affinity_lt := by simpa [hthN] using htn.affinity_lt
      running_iff := by
        simp only [hthN, hcurQ, true_iff]
        exact ⟨self, hself, by simp⟩
      activeAffinity_eq := fun c hc hcn => by
        rw [hcurQ] at hcn
        split_ifs at hcn with hcs
        · simp [hthN, hcs]
        · exact absurd hcn (hcurN c hc)
      schedulable := by simpa [hthN] using htn.schedulable
      init_of_queued := by simpa [hthN] using htn.init_of_queued
      init_of_running := by simpa [hthN] using hinit
      needRequeue := by simp [hthN, hnr]
      exited := by simpa [hthN] using htn.exited
      rcu := by simp [hQ, P, hrcuN]
      pinned := by simpa [hthN] using htn.pinned
      yieldTo_init := fun y hy => hinitQ y (htn.yieldTo_init y (by simpa [hthN] using hy)) }
  have hinvP : Q.ThreadInv cfg prev :=
    { onCpu_iff := fun c => by simpa [hon, hthP] using htp.onCpu_iff c
      affinity_lt := by simpa [hthP] using htp.affinity_lt
      running_iff := by
        simp only [hthP, hcurQ, Bool.false_eq_true, false_iff, not_exists, not_and]
        intro c hc
        split_ifs with hcs
        · exact hne
        · exact fun hcp => hcs (hcurP c hc hcp)
      activeAffinity_eq := fun c hc hcp => by
        rw [hcurQ] at hcp
        split_ifs at hcp with hcs
        · exact absurd hcp hne
        · exact absurd (hcurP c hc hcp) hcs
      schedulable := by simpa [hthP] using htp.schedulable
      init_of_queued := by simpa [hthP] using htp.init_of_queued
      init_of_running := by simp [hthP]
      needRequeue := by simp [hthP]
      exited := by simpa [hthP] using htp.exited
      rcu := by simp [hQ, P, hrcuP]
      pinned := by simpa [hthP] using htp.pinned
      yieldTo_init := fun y hy => hinitQ y (htp.yieldTo_init y (by simpa [hthP] using hy)) }
  exact
    { queueInv := fun c => by rw [hfprr]; exact h.queueInv c
      thread := fun u => by
        by_cases hun : u = next
        · exact hun ▸ hinvN
        by_cases hup : u = prev
        · exact hup ▸ hinvP
        refine (h.thread u).congr (hth u hun hup) (by simp [hQ, P]) (fun c => by rw [hon])
          (fun c => ?_) hinitQ
        rw [hcurQ]
        split_ifs with hcs
        · simp only [hcs, ← hprev]
          exact ⟨fun h' => absurd h'.symm hun, fun h' => absurd h'.symm hup⟩
        · rfl
      awake := fun u hup => by
        by_cases hun : u = next
        · -- `next` keeps the fields its wakeup reads
          subst hun
          have hw := h.awake u trivial
          unfold Awake at hw ⊢
          simpa [hthN] using hw
        · exact (h.awake u trivial).congr (hth u hun hup)
      idle := fun c hc => by
        have hic := h.idle c hc
        -- the switch changes no field that the idle invariant reads
        have hfields : IdleFields cfg (Q.thread (cfg.idleThread c)) =
            IdleFields cfg (S.thread (cfg.idleThread c)) := by
          by_cases hcn : cfg.idleThread c = next
          · rw [hcn, hthN]
            rfl
          by_cases hcp : cfg.idleThread c = prev
          · rw [hcp, hthP]
            rfl
          · rw [hth _ hcn hcp]
        refine hic.congr hfields fun d hd hcd => ?_
        -- an idle thread that becomes current on `self` has `self` as its affinity, which is
        -- valid
        rw [hcurQ] at hcd
        split_ifs at hcd with hds
        · rcases haff with haff | hbig
          · rw [← hic.affinity_eq, ← hcd, haff, hds]
          · have hca := hic.affinity_eq
            rw [← hcd] at hca
            omega
        · exact hic.current_eq d hd hcd }

/-- Setting the active affinity of a thread that is not running keeps the invariant. -/
theorem SysInv.setActiveAffinity {t : τ} (h : S.SysInv cfg)
    (hrun : (S.thread t).flags.running = false) (a : Nat) :
    (S.setThread t { S.thread t with activeAffinity := a }).SysInv cfg := by
  have ht := h.thread t
  exact h.setThread (ht.setThread _ rfl (fun _ => rfl) rfl (fun hr => absurd hr (by simp [hrun])) id
    ht.schedulable ht.needRequeue ht.exited ht.rcu ht.pinned ht.yieldTo_init)
    (fun _ => by simpa [Awake] using h.awake t trivial) (.inr rfl) id

/-- The end of `context_switch_post (prev)`, once `prev` is requeued: the affinity change of
`prev` starts if one is under way, and its active affinity is released. -/
theorem SysInv.postAffinity [DecidableEq β] (h : S.SysInv cfg) (self : Nat) (prev : τ)
    (needSync : Bool) (hrun : (S.thread prev).flags.running = false)
    (hrcu : S.rcuQueued prev = false) (hinit : (S.thread prev).flags.init) :
    ∃ S', ((if (S.thread prev).blockBits cfg.affinityChanged then
        (S.startAffinityChangedEvents cfg self prev needSync).map Prod.snd else some S).map
          fun S => S.setThread prev { S.thread prev with activeAffinity := cpuIndexInvalid }) =
        some S' ∧ S'.SysInv cfg := by
  by_cases haff : (S.thread prev).blockBits cfg.affinityChanged
  · obtain ⟨S', hst, hS', -, hrun'⟩ := h.startAffinityChangedEvents self needSync haff hinit hrun hrcu
    exact ⟨_, by rw [if_pos haff, hst]; rfl, hS'.setActiveAffinity hrun' _⟩
  · exact ⟨_, by rw [if_neg haff]; rfl, h.setActiveAffinity hrun _⟩

/-- `context_switch_post (prev)` on CPU `self`, from a state that once `prev` is marked neither
running nor for a requeue keeps the invariant but `prev`'s wakeup, and whose `prev` exists and has
no RCU entry queued, is queued only if not marked for a requeue, and has its wakeup if not marked:
it returns, and the invariant holds after it. -/
theorem SysInvOn.contextSwitchPost [DecidableEq β] (self : Nat) (prev : τ) (needSync : Bool)
    (h : (S.setFlags prev
      { (S.thread prev).flags with running := false, needRequeue := false }).SysInvOn cfg (· ≠ prev))
    (hawake : (S.thread prev).flags.needRequeue = false → S.Awake cfg prev)
    (hq : (S.thread prev).flags.needRequeue → (S.thread prev).flags.queued = false)
    (hinit : (S.thread prev).flags.init) (hrcu : S.rcuQueued prev = false) :
    ∃ S', S.contextSwitchPost cfg self prev needSync = some S' ∧ S'.SysInv cfg := by
  set Q := S.setFlags prev { (S.thread prev).flags with running := false, needRequeue := false }
    with hQ
  have hQrun : (Q.thread prev).flags.running = false := by simp [hQ]
  have hQrcu : Q.rcuQueued prev = false := by simpa [hQ] using hrcu
  have hQinit : (Q.thread prev).flags.init := by simpa [hQ] using hinit
  -- marking `prev` not running and then not for a requeue gives `Q`
  have hQ₂ : (S.setFlags prev { (S.thread prev).flags with running := false }).setFlags prev
      { ((S.setFlags prev { (S.thread prev).flags with running := false }).thread prev).flags with
        needRequeue := false } = Q := by
    simp [hQ]
  unfold System.contextSwitchPost
  dsimp only
  by_cases hnr : (S.thread prev).flags.needRequeue
  · rw [if_pos (by simpa using hnr)]
    by_cases hcbs : canBeScheduled cfg (S.thread prev)
    · -- a thread that can be scheduled goes back on its CPU's scheduler
      have hexit : (S.thread prev).flags.exited = false := by
        simpa [hQ] using (h.thread prev).not_exited (by simpa [hQ] using hcbs)
      rw [if_pos (by simpa using hcbs), addThreadToScheduler_snd self
        (by simpa [hQ] using h.queueInv (S.thread prev).affinity) (by simp) (by simpa using hq hnr)
        (by simpa using hexit) (by simpa using hcbs)]
      by_cases hval : (S.thread prev).affinity < cfg.maxCores
      · rw [if_pos (by simpa using hval)]
        simp only [Option.map_some, Option.bind_some]
        have hcomm : ((S.setFlags prev { (S.thread prev).flags with running := false }).enqueue
            prev).setFlags prev { (((S.setFlags prev { (S.thread prev).flags with
              running := false }).enqueue prev).thread prev).flags with needRequeue := false } =
            Q.enqueue prev := by
          simp only [hQ, setFlags_eq]
          rw [enqueue_setThread, enqueue_setThread]
          · simp
          · rfl
          · rfl
        rw [hcomm]
        have hQe := h.enqueue hQinit (by simpa [hQ] using hcbs) hQrun (by simpa [hQ] using hq hnr)
          (by simpa [hQ] using hval)
        exact hQe.postAffinity self prev needSync (by simpa using hQrun) (by simpa using hQrcu)
          (by simpa using hQinit)
      · rw [if_neg (by simpa using hval)]
        simp only [Option.map_some, Option.bind_some]
        rw [hQ₂]
        exact (h.of_awake fun _ _ hv => absurd (by simpa [hQ] using hv) hval).postAffinity self prev
          needSync hQrun hQrcu hQinit
    · -- a thread blocked since it was marked stays off the scheduler
      rw [if_neg (by simpa using hcbs)]
      simp only [Option.map_some, Option.bind_some]
      rw [hQ₂]
      exact (h.of_awake fun _ hc _ => absurd (by simpa [hQ] using hc) hcbs).postAffinity self prev
        needSync hQrun hQrcu hQinit
  · -- not marked for a requeue: its wakeup holds already
    have hnr' : (S.thread prev).flags.needRequeue = false := by simpa using hnr
    rw [if_neg (by simpa using hnr)]
    simp only [Option.bind_some]
    have hQ₁ : S.setFlags prev { (S.thread prev).flags with running := false } = Q := by
      simp [hQ, hnr']
    rw [hQ₁]
    exact (h.of_awake (by simpa [Awake, hQ, hnr'] using hawake hnr')).postAffinity self prev needSync
      hQrun hQrcu hQinit

/-- `thread_switch_to (next)` on a valid CPU, to a thread that exists and is not its current one:
it returns, and the invariant holds after it, whether the switch is denied or made. -/
theorem SysInv.threadSwitchTo [DecidableEq β] (h : S.SysInv cfg) (hself : self < cfg.maxCores)
    (hne : next ≠ S.current self) (hinit : (S.thread next).flags.init) (needSync : Bool) :
    ∃ S', S.threadSwitchTo cfg self next needSync = some S' ∧ S'.SysInv cfg := by
  rcases h.contextSwitchPre hself hne with ⟨S₀, hpre, hS₀⟩ | ⟨hpre, hrun, haff, hcbs⟩
  · exact ⟨S₀, by simp [System.threadSwitchTo, hpre], hS₀⟩
  -- the thread that was current runs, so it exists and has no RCU entry queued
  have htp := h.thread (S.current self)
  have hrunP : (S.thread (S.current self)).flags.running := htp.running_iff.2 ⟨self, hself, rfl⟩
  have hrcuP : S.rcuQueued (S.current self) = false := by
    cases hr : S.rcuQueued (S.current self)
    · rfl
    · simpa [hrunP] using (htp.rcu hr).2.1
  obtain ⟨S', hpost, hS'⟩ := SysInvOn.contextSwitchPost self (S.current self) needSync
    (h.switch hself hne hinit hrun haff hcbs)
    (fun _ => by simpa [Awake, Ne.symm hne] using h.awake (S.current self) trivial)
    (fun hnr => by simpa [Ne.symm hne] using (htp.needRequeue (by simpa [Ne.symm hne] using hnr)).2)
    (by simpa [Ne.symm hne] using htp.init_of_running hrunP) (by simpa using hrcuP)
  refine ⟨S', ?_, hS'⟩
  rw [← hpost]
  simp [System.threadSwitchTo, hpre]

end Switch

/-! ## Pins and yield targets -/

section Yield

variable {t : τ}

/-- Replacing a thread's fields that the invariant reads only through its yield target (the
previous affinity, the pin count and the yield target) keeps it when a thread with a yield target
stays pinned and yields to a thread that exists. -/
theorem SysInv.setThread_of_fields (h : S.SysInv cfg) (th : ThreadFields τ β)
    (hb : th.blockBits = (S.thread t).blockBits) (ha : th.affinity = (S.thread t).affinity)
    (haa : th.activeAffinity = (S.thread t).activeAffinity) (hf : th.flags = (S.thread t).flags)
    (hpin : th.yieldTo.isSome → th.pinCount ≠ 0)
    (hyield : ∀ y, th.yieldTo = some y → (S.thread y).flags.init) :
    (S.setThread t th).SysInv cfg := by
  have ht := h.thread t
  have hcbs : canBeScheduled cfg th = canBeScheduled cfg (S.thread t) := by
    simp [canBeScheduled, hb, hf]
  exact h.setThread (ht.setThread th (by rw [hf]) (fun _ => ha) (by rw [hf]) (fun _ => haa)
    (by rw [hf]; exact id) (by rw [hf, hcbs]; exact ht.schedulable) (by rw [hf]; exact ht.needRequeue)
    (by rw [hf, hb]; exact ht.exited) (by rw [hf, hb]; exact ht.rcu) hpin hyield)
    (fun _ => by simpa [Awake, hb, ha, hf, hcbs] using h.awake t trivial)
    (.inr (by simp [IdleFields, hb, ha, hf])) (by rw [hf]; exact id)

/-- `scheduler_pin (thread)`: the invariant holds after it. -/
theorem SysInv.schedulerPin (h : S.SysInv cfg) : (S.schedulerPin t).SysInv cfg :=
  h.setThread_of_fields _ rfl rfl rfl rfl (fun _ => Nat.succ_ne_zero _) (h.thread t).yieldTo_init

/-- `scheduler_unpin (thread)` of a thread pinned once more than a directed yield under way pins
it: it returns, and the invariant holds after it. -/
theorem SysInv.schedulerUnpin (h : S.SysInv cfg)
    (hpin : (S.thread t).yieldTo.isSome.toNat < (S.thread t).pinCount) :
    ∃ S', S.schedulerUnpin t = some S' ∧ S'.SysInv cfg := by
  have hne : (S.thread t).pinCount ≠ 0 := by omega
  refine ⟨S.setThread t { S.thread t with pinCount := (S.thread t).pinCount - 1 },
    by simp [System.schedulerUnpin, hne], h.setThread_of_fields _ rfl rfl rfl rfl
    (fun hs => ?_) (h.thread t).yieldTo_init⟩
  -- a directed yield under way keeps its pin
  have hs' : (S.thread t).yieldTo.isSome = true := hs
  rw [hs', Bool.toNat_true] at hpin
  show (S.thread t).pinCount - 1 ≠ 0
  omega

/-- `set_yield_to (target, yield_to)` of a pinned thread, to a thread that exists: the invariant
holds after it. -/
theorem SysInv.setYieldTo {y : τ} (h : S.SysInv cfg) (hpin : (S.thread t).pinCount ≠ 0)
    (hy : (S.thread y).flags.init) :
    (S.setThread t { S.thread t with yieldTo := some y }).SysInv cfg :=
  h.setThread_of_fields _ rfl rfl rfl rfl (fun _ => hpin) fun _ hs => Option.some.inj hs ▸ hy

/-- Dropping a thread's yield target keeps the invariant, whatever its pin count becomes. -/
theorem SysInv.setThread_of_yieldTo_none (h : S.SysInv cfg) (th : ThreadFields τ β)
    (hb : th.blockBits = (S.thread t).blockBits) (ha : th.affinity = (S.thread t).affinity)
    (haa : th.activeAffinity = (S.thread t).activeAffinity) (hf : th.flags = (S.thread t).flags)
    (hn : th.yieldTo = none) : (S.setThread t th).SysInv cfg :=
  h.setThread_of_fields th hb ha haa hf (fun hs => by simp [hn] at hs) fun _ hs => by simp [hn] at hs

/-- `discard_yield_to (target)`: the invariant holds after it. -/
theorem SysInv.discardYieldTo (h : S.SysInv cfg) :
    (S.setThread t { S.thread t with yieldTo := none }).SysInv cfg :=
  h.setThread_of_yieldTo_none _ rfl rfl rfl rfl rfl

/-- The end of `scheduler_yield_to` never fails: a thread with a yield target is pinned. It
returns, and the invariant holds after it. -/
theorem SysInv.yieldToReturn (h : S.SysInv cfg) (self : Nat) :
    ∃ S', S.yieldToReturn self = some S' ∧ S'.SysInv cfg := by
  cases hy : (S.thread (S.current self)).yieldTo with
  | none => exact ⟨S, yieldToReturn_of_none hy, h⟩
  | some y =>
    have hpin := (h.thread (S.current self)).pinned (by simp [hy])
    exact ⟨_, yieldToReturn_of_some hy hpin, h.setThread_of_yieldTo_none _ rfl rfl rfl rfl rfl⟩

end Yield

/-! ## Choosing the next thread -/

section Schedule

variable {self : Nat}

omit [DecidableEq τ] in
/-- Writing back CPU `c`'s scheduler as `s` keeps the invariant when `s` has the queue invariant,
holds the same threads, and changes no priority. -/
theorem SysInvOn.withFprr {p : τ → Prop} (h : S.SysInvOn cfg p) {c : Nat} {s : FprrState τ}
    (hq : s.QueueInv) (hon : ∀ u, u ∈ s.queued ∨ s.activeThread = some u ↔ S.OnCpu c u)
    (hprio : ∀ u, (s.thread u).priority = (S.sched u).priority) :
    (S.withFprr c s).SysInvOn cfg p := by
  have hon' : ∀ d u, (S.withFprr c s).OnCpu d u ↔ S.OnCpu d u := by
    intro d u
    by_cases hd : d = c
    · subst hd
      simpa only [OnCpu, fprr_withFprr_self] using hon u
    · simp only [OnCpu, fprr_withFprr_of_ne s hd, FprrState.queued_withThread]
  exact
    { queueInv := fun d => by
        by_cases hd : d = c
        · subst hd
          simpa using hq
        · rw [fprr_withFprr_of_ne s hd]
          exact (h.queueInv d).withThread (by simpa using hprio)
      thread := fun u => (h.thread u).congr rfl rfl (fun d => hon' d u) (fun _ => Iff.rfl)
        fun _ => id
      awake := fun u hu => (h.awake u hu).congr rfl
      idle := fun d hd => (h.idle d hd).congr rfl (h.idle d hd).current_eq }

/-- `get_next_target` on a valid CPU, written back: the invariant holds after it. -/
theorem SysInvOn.getNextTarget {p : τ → Prop} (h : S.SysInvOn cfg p) {curticks : Nat}
    {target : Option τ} {s' : FprrState τ}
    (hnt : (S.fprr self).getNextTarget curticks = some (target, s')) :
    (S.withFprr self s').SysInvOn cfg p := by
  have hs := h.queueInv self
  refine h.withFprr (hs.getNextTarget hnt) (fun u => ?_) (FprrState.getNextTarget_priority hs hnt)
  -- the queued and the active threads are the same multiset before and after
  have hthreads := FprrState.getNextTarget_threads hs hnt
  have hmem := congrArg (u ∈ ·) hthreads
  simp only [Multiset.mem_add, Multiset.mem_coe, Option.mem_toList, eq_iff_iff] at hmem
  simpa [OnCpu, eq_comm] using hmem

omit [DecidableEq τ] in
/-- Which thread the CPUs yielded from is not read by the invariant. -/
theorem SysInvOn.withYieldedFrom {p : τ → Prop} (h : S.SysInvOn cfg p) (f : Nat → Option τ) :
    ({ S with yieldedFrom := f } : System τ β).SysInvOn cfg p where
  queueInv := h.queueInv
  thread u := (h.thread u).congr rfl rfl (fun _ => Iff.rfl) (fun _ => Iff.rfl) fun _ => id
  awake u hu := (h.awake u hu).congr rfl
  idle c hc := (h.idle c hc).congr rfl (h.idle c hc).current_eq

/-- `select_yield_target (target, can_idle)` of a thread that exists: it fails only for a
yielding target with no yield target, at its assert. Otherwise it chooses a thread that exists,
changes no thread's fields and no current thread, and the invariant holds after it. -/
theorem SysInv.selectYieldTarget (h : S.SysInv cfg) {target : τ}
    (hinit : (S.thread target).flags.init) (canIdle : Bool) :
    (∃ next c S', S.selectYieldTarget cfg self target canIdle = some (next, c, S') ∧
        S'.SysInv cfg ∧ (S.thread next).flags.init ∧ S'.thread = S.thread ∧
        S'.current = S.current) ∨
      (S.selectYieldTarget cfg self target canIdle = none ∧ (S.sched target).yielding ∧
        (S.thread target).yieldTo = none) := by
  have h₀ := h.withYieldedFrom (update S.yieldedFrom self none)
  unfold System.selectYieldTarget
  dsimp only
  split
  · rename_i hy
    split
    · rename_i hn
      exact .inr ⟨rfl, hy, hn⟩
    · rename_i y hs
      split
      · -- the yield target runs instead, and the CPU records the yield
        exact .inl ⟨y, false, _, rfl, h₀.withYieldedFrom _, (h.thread target).yieldTo_init y hs,
          rfl, rfl⟩
      · -- the yield target cannot run here, and the directed yield ends
        exact .inl ⟨target, canIdle, _, rfl, h₀.endDirectedYield target, hinit, rfl, rfl⟩
  · exact .inl ⟨target, canIdle, _, rfl, h₀, hinit, rfl, rfl⟩

/-- One pass of `scheduler_schedule ()` on a valid CPU: it returns, and the invariant holds
after it, unless the directed yields under way cannot go on. -/
theorem SysInv.scheduleStep [DecidableEq β] (h : S.SysInv cfg) (hself : self < cfg.maxCores)
    (curticks : Nat) (gotRef needSync ipi : Bool) :
    ReturnsUnless cfg (S.scheduleStep cfg self curticks gotRef needSync ipi) (¬S.YieldOk cfg) := by
  have hs := h.queueInv self
  obtain ⟨target, s', hnt⟩ := FprrState.getNextTarget_returns hs curticks
  have h₁ := h.getNextTarget hnt
  -- the target is the new active thread, which is queued, or the idle thread: it exists
  have hinit : ((S.withFprr self s').thread (target.getD (cfg.idleThread self))).flags.init := by
    cases htg : target with
    | none => simpa using (h.idle self hself).init
    | some t =>
      have hon : (S.withFprr self s').OnCpu self t :=
        .inr (by simpa [htg] using FprrState.getNextTarget_activeThread hs hnt)
      have ht := h₁.thread t
      exact ht.init_of_queued ((ht.onCpu_iff self).1 hon).1
  simp only [System.scheduleStep, hnt, Option.bind_some]
  rcases SysInv.selectYieldTarget h₁ hinit (Bitmap.empty s'.prioBitmap) with
    ⟨next, c, S₂, hsel, h₂, hinit₂, hth₂, -⟩ | ⟨hsel, hy, hn⟩
  · rw [hsel]
    simp only [Option.bind_some]
    split
    · -- the loop ends in the current thread
      exact .inl (h₂.yieldToReturn self)
    split
    · exact .inl ⟨_, rfl, h₂⟩
    rename_i hne _
    obtain ⟨S₃, hsw, h₃⟩ := SysInv.threadSwitchTo h₂ hself hne (by rw [hth₂]; exact hinit₂)
      needSync
    rw [hsw, Option.bind_some]
    split
    · -- the loop ends in the thread switched to
      exact .inl (h₃.yieldToReturn self)
    · exact .inl ⟨_, rfl, h₃⟩
  · -- a yielding target with no yield target: `get_next_target` starts no directed yield
    rw [hsel]
    refine .inr ⟨rfl, fun hok => ?_⟩
    have hy₀ : (S.sched (target.getD (cfg.idleThread self))).yielding :=
      FprrState.getNextTarget_yielding hs hnt (by simpa [withFprr] using hy)
    have hn₀ : (S.thread (target.getD (cfg.idleThread self))).yieldTo = none := hn
    simpa [hn₀] using hok.yieldTo_isSome _ hy₀

/-- `scheduler_yield ()` on CPU `self`: the directed yield to the current thread ends, or the
current thread gives up the rest of its timeslice, and the invariant holds after it. -/
theorem SysInv.schedulerYield (h : S.SysInv cfg) : (S.schedulerYield self).SysInv cfg := by
  unfold System.schedulerYield
  split
  · exact h.endDirectedYield _
  · exact h.setSched (.inr rfl)

/-- `scheduler_yield_to (target)` on CPU `self`, by a thread in no directed yield of its own, to
another thread that exists: the invariant holds after it, unless the thread that the CPU yielded
from has no yield target, when `discard_yield_to` fails its assert. -/
theorem SysInv.schedulerYieldTo (h : S.SysInv cfg) {target : τ} (hne : S.current self ≠ target)
    (hinit : (S.thread target).flags.init) (hn : (S.thread (S.current self)).yieldTo = none)
    (pendingWakeup : Bool) :
    ReturnsUnless cfg (S.schedulerYieldTo self target pendingWakeup)
      (∃ y, S.yieldedFrom self = some y ∧ (S.thread y).yieldTo = none) := by
  unfold System.schedulerYieldTo
  dsimp only
  rw [if_neg hne]
  split
  · rename_i y hyf
    split
    · -- yielding back ends the directed yield
      exact .inl ⟨_, rfl, h.endDirectedYield y⟩
    rename_i hyt
    cases hy : (S.thread y).yieldTo with
    | none => exact .inr ⟨by simp [System.discardYieldTo, hy], y, hyf, hy⟩
    | some z =>
      -- the thread yielded from passes its directed yield on, and stays pinned
      have hpin := (h.thread y).pinned (by simp [hy])
      rw [discardYieldTo_eq hy, Option.bind_some, setYieldTo_eq hyt (by simp)]
      refine .inl ⟨_, rfl, ?_⟩
      exact (h.discardYieldTo (t := y)).setYieldTo (by simpa using hpin)
        (by rw [setThread_thread]; exact flags_init_update id hinit)
  · split
    · exact .inl ⟨S, rfl, h⟩
    -- a directed yield of the current thread starts, pinned
    have hn' : ((S.schedulerPin (S.current self)).thread (S.current self)).yieldTo = none := by
      simpa [System.schedulerPin] using hn
    rw [setYieldTo_eq hne hn', Option.map_some]
    refine .inl ⟨_, rfl, SysInvOn.setSched ?_ (.inr rfl)⟩
    exact h.schedulerPin.setYieldTo (by simp [System.schedulerPin])
      (by rw [System.schedulerPin, setThread_thread]; exact flags_init_update id hinit)

end Schedule

/-! ## Creating threads, pins and wakeups -/

section Threads

variable {t : τ}

/-- The create handler for a thread that does not exist yet, blocked by the other handlers, with
a priority and a timeslice in range where given: it returns, and the invariant holds after it. -/
theorem SysInv.createThread (h : S.SysInv cfg) (params : ThreadCreate) (blocks : β → Bool)
    (hinit : (S.thread t).flags.init = false) (hlife : blocks cfg.threadLifecycle)
    (hprio : params.schedulerPriorityValid → params.schedulerPriority < schedulerNumPriorities)
    (hts : params.schedulerTimesliceValid → schedulerMinTimeslice ≤ params.schedulerTimeslice ∧
      params.schedulerTimeslice ≤ schedulerMaxTimeslice) :
    ∃ S', S.createThread cfg t params blocks = some S' ∧ S'.SysInv cfg := by
  have ht := h.thread t
  -- a thread that does not exist is neither queued nor running, and no idle thread
  have hq : (S.thread t).flags.queued = false := by
    cases hq : (S.thread t).flags.queued
    · rfl
    · simpa [hinit] using ht.init_of_queued hq
  have hrun : (S.thread t).flags.running = false := by
    cases hr : (S.thread t).flags.running
    · rfl
    · simpa [hinit] using ht.init_of_running hr
  have hidle : ¬cfg.IsIdle t := fun ⟨c, hc, hct⟩ => by
    simpa [hct, hinit] using (h.idle c hc).init
  have hblocked : ¬∀ b, blocks b = false := fun hb => by simp [hb] at hlife
  have hp : (if params.schedulerPriorityValid then params.schedulerPriority
      else schedulerDefaultPriority.val) < schedulerNumPriorities := by
    split
    · exact hprio ‹_›
    · decide
  have hts' : ¬((if params.schedulerTimesliceValid then params.schedulerTimeslice
      else schedulerDefaultTimeslice) > schedulerMaxTimeslice ||
      (if params.schedulerTimesliceValid then params.schedulerTimeslice
        else schedulerDefaultTimeslice) < schedulerMinTimeslice) := by
    split
    · have := hts ‹_›
      simp only [Bool.or_eq_true, decide_eq_true_eq, not_or, not_lt, gt_iff_lt]
      omega
    · decide
  unfold System.createThread
  dsimp only
  rw [if_neg (by simp [hinit, hblocked]), dif_pos hp, if_neg hts']
  refine ⟨_, rfl, ?_⟩
  have h₁ : (S.setSched t ⟨⟨_, hp⟩, cfg.convertNsToTicks (if params.schedulerTimesliceValid then
      params.schedulerTimeslice else schedulerDefaultTimeslice), 0, false⟩).SysInv cfg :=
    h.setSched (.inl hq)
  have ht₁ := h₁.thread t
  -- the new thread is neither queued nor running, and its blocks keep it from being scheduled
  refine h₁.setThread (ht₁.setThread _ (by simp [hq]) (fun hq' => absurd hq' (by simp))
    (by simp [hrun]) (fun hr => absurd hr (by simp)) (fun _ => rfl) (fun hq' => absurd hq' (by simp))
    (by simp) (by simp) (fun hr => absurd (ht.rcu (by simpa using hr)).2.2 (by simp [hinit]))
    (by simp) (by simp)) (fun _ => ?_) (.inl hidle) (fun _ => rfl)
  intro _ hc _
  simp [canBeScheduled_of_not_killed (b := cfg.threadLifecycle), hlife] at hc

/-- The VCPU wakeup handler: the thread's directed yield ends, and the invariant holds after it,
unless the thread is yielding with an invalid affinity. -/
theorem SysInv.vcpuWakeup (h : S.SysInv cfg) :
    ReturnsUnless cfg (S.vcpuWakeup cfg t)
      ((S.sched t).yielding ∧ ¬(S.thread t).affinity < cfg.maxCores) := by
  unfold System.vcpuWakeup
  split
  · rename_i hbad
    exact .inr ⟨rfl, by simpa using hbad⟩
  · exact .inl ⟨_, rfl, h.endDirectedYield t⟩

end Threads

/-! ## Every call -/

omit [DecidableEq τ] [Fintype β] in
/-- A yielding thread with an invalid affinity is a directed yield that cannot go on. -/
theorem not_yieldOk_of_affinity {t : τ} (hy : (S.sched t).yielding)
    (hval : ¬(S.thread t).affinity < cfg.maxCores) : ¬S.YieldOk cfg :=
  fun hok => hval (hok.affinity_lt t hy)

/-- Every call that the callers may make returns, and the invariant holds after it, unless the
directed yields under way cannot go on. -/
theorem SysInv.run [DecidableEq β] (h : S.SysInv cfg) (e : SchedEvent τ β)
    (he : e.Enabled cfg S) : ReturnsUnless cfg (e.run cfg S) (¬S.YieldOk cfg) := by
  cases e with
  | create t params blocks =>
    obtain ⟨hinit, hlife, hprio, hts⟩ := he
    exact .inl (h.createThread params blocks (by simpa using hinit) hlife hprio hts)
  | activate self t =>
    obtain ⟨-, hidle, hinit, -, hex⟩ := he
    obtain ⟨S', hS', hinv, -⟩ := h.schedulerUnblock self hidle hinit
      (fun _ => cfg.affinityChanged_ne_threadLifecycle.symm) fun hx => absurd hx hex
    exact .inl ⟨S', hS', hinv⟩
  | block t b =>
    obtain ⟨hidle, -⟩ := he
    obtain ⟨S', hS', hinv, -⟩ := h.schedulerBlock hidle b
    exact .inl ⟨S', hS', hinv⟩
  | unblock self t b =>
    obtain ⟨-, hidle, hinit, haff, hlife⟩ := he
    obtain ⟨S', hS', hinv, -⟩ := h.schedulerUnblock self hidle hinit (fun _ => haff) fun _ => hlife
    exact .inl ⟨S', hS', hinv⟩
  | setPriority self t priority =>
    exact (h.schedulerSetPriority self priority he.2.2).mono fun hb =>
      not_yieldOk_of_affinity hb.1 hb.2
  | setTimeslice self t timeslice =>
    exact (h.schedulerSetTimeslice self timeslice he.2.2).mono fun hb =>
      not_yieldOk_of_affinity hb.1 hb.2
  | setAffinity self t target prepare needSync =>
    exact .inl (h.schedulerSetAffinity self target prepare needSync he.2.1 he.2.2)
  | affinityChangeUpdate self t => exact .inl (h.affinityChangeUpdate self he.2)
  | schedule self curticks gotRef needSync ipi => exact h.scheduleStep he curticks gotRef needSync ipi
  | yield self => exact .inl ⟨_, rfl, h.schedulerYield⟩
  | yieldTo self target pendingWakeup =>
    obtain ⟨-, hne, hinit, hn⟩ := he
    -- the thread yielded from has no yield target
    exact (h.schedulerYieldTo hne hinit hn pendingWakeup).mono fun ⟨y, hyf, hy⟩ hok => by
      simpa [hy] using hok.yieldedFrom_yieldTo self y hyf
  | kill self t => exact .inl (h.threadKilled self he.2.2.1)
  | exit self =>
    obtain ⟨hself, hnidle, -, -⟩ := he
    -- the current thread is not an idle thread: that of another CPU runs only there
    have hidle : ¬cfg.IsIdle (S.current self) := fun ⟨c, hc, hct⟩ =>
      hnidle (by rw [← hct, (h.idle c hc).current_eq self hself hct.symm])
    obtain ⟨S₁, hblk, h₁, hcur, -, q, hth⟩ := h.schedulerBlock hidle cfg.threadLifecycle
    obtain ⟨S₂, hexit, h₂⟩ := h₁.threadExited hself (by rwa [hcur]) (by simp [hcur, hth])
    exact .inl ⟨S₂, by simp [SchedEvent.run, hblk, hexit], h₂⟩
  | pin t => exact .inl ⟨_, rfl, h.schedulerPin⟩
  | unpin t => exact .inl (h.schedulerUnpin he.2.2)
  | vcpuWakeup t => exact h.vcpuWakeup.mono fun hb => not_yieldOk_of_affinity hb.1 hb.2

end System

/-! ## Boot -/

namespace Config

variable [DecidableEq τ] (cfg : Config τ β)

theorem idleCpu_eq_some {t : τ} {c : Nat} (h : cfg.idleCpu t = some c) :
    c < cfg.maxCores ∧ cfg.idleThread c = t :=
  ⟨List.mem_range.1 (List.mem_of_find?_eq_some h), by simpa using List.find?_some h⟩

/-- The idle thread of CPU `c` is that of no other CPU. -/
theorem idleCpu_idleThread {c : Nat} (hc : c < cfg.maxCores) :
    cfg.idleCpu (cfg.idleThread c) = some c := by
  obtain ⟨d, hd⟩ : ∃ d, cfg.idleCpu (cfg.idleThread c) = some d :=
    Option.isSome_iff_exists.1 (List.find?_isSome.2 ⟨c, List.mem_range.2 hc, by simp⟩)
  obtain ⟨hdlt, hdc⟩ := cfg.idleCpu_eq_some hd
  rw [hd, cfg.idleThread_inj d c hdlt hc hdc]

theorem not_isIdle_of_idleCpu {t : τ} (h : cfg.idleCpu t = none) : ¬cfg.IsIdle t :=
  fun ⟨c, hc, hct⟩ => by simpa [hct] using List.find?_eq_none.1 h c (List.mem_range.2 hc)

end Config

namespace System

variable [DecidableEq τ] [DecidableEq β] {cfg : Config τ β}

theorem boot_thread_of_idleCpu {t : τ} {c : Nat} (h : cfg.idleCpu t = some c) :
    cfg.boot.thread t = ⟨fun b => decide (b = cfg.idle), c, cpuIndexInvalid, c, 0, none,
      ⟨true, true, false, false, false, false⟩⟩ := by
  simp [Config.boot, h]

theorem boot_thread_of_idleCpu_none {t : τ} (h : cfg.idleCpu t = none) :
    cfg.boot.thread t = ⟨fun _ => false, cpuIndexInvalid, cpuIndexInvalid, cpuIndexInvalid, 0,
      none, ⟨false, false, false, false, false, false⟩⟩ := by
  simp [Config.boot, h]

theorem boot_queued (c : Nat) : (cfg.boot.fprr c).queued = 0 := by
  unfold FprrState.queued
  simp [fprr, Config.boot]

theorem not_onCpu_boot (c : Nat) (t : τ) : ¬cfg.boot.OnCpu c t := by
  rw [OnCpu, boot_queued]
  simp [fprr, Config.boot]

variable [Fintype β]

/-- The invariant holds at boot: each CPU runs its idle thread, which is blocked, and no other
thread exists. -/
theorem sysInv_boot : cfg.boot.SysInv cfg where
  queueInv c :=
    { bit_iff := fun _ => by simp [fprr, Config.boot]
      priority_eq := fun _ _ hu => by simp [fprr, Config.boot] at hu
      nodup := by simp [boot_queued]
      active_not_mem := fun _ hp => by simp [fprr, Config.boot] at hp }
  thread t := by
    cases hcpu : cfg.idleCpu t with
    | none =>
      -- a thread that is no idle thread does not exist yet
      have hidle := cfg.not_isIdle_of_idleCpu hcpu
      rw [Config.IsIdle, not_exists] at hidle
      exact
        { onCpu_iff := fun c => by simp [not_onCpu_boot, boot_thread_of_idleCpu_none hcpu]
          affinity_lt := by simp [boot_thread_of_idleCpu_none hcpu]
          running_iff := by
            rw [boot_thread_of_idleCpu_none hcpu]
            refine ⟨fun h => absurd h Bool.false_ne_true, fun h => ?_⟩
            obtain ⟨c, hc, hct⟩ := h
            exact absurd ⟨hc, hct⟩ (hidle c)
          activeAffinity_eq := fun c hc hct => absurd ⟨hc, hct⟩ (hidle c)
          schedulable := by simp [boot_thread_of_idleCpu_none hcpu]
          init_of_queued := by simp [boot_thread_of_idleCpu_none hcpu]
          init_of_running := by simp [boot_thread_of_idleCpu_none hcpu]
          needRequeue := by simp [boot_thread_of_idleCpu_none hcpu]
          exited := by simp [boot_thread_of_idleCpu_none hcpu]
          rcu := by simp [Config.boot]
          pinned := by simp [boot_thread_of_idleCpu_none hcpu]
          yieldTo_init := by simp [boot_thread_of_idleCpu_none hcpu] }
    | some c =>
      -- the idle thread of `c` runs there
      obtain ⟨hc, hct⟩ := cfg.idleCpu_eq_some hcpu
      exact
        { onCpu_iff := fun d => by simp [not_onCpu_boot, boot_thread_of_idleCpu hcpu]
          affinity_lt := by simp [boot_thread_of_idleCpu hcpu]
          running_iff := by
            simp only [boot_thread_of_idleCpu hcpu, true_iff]
            exact ⟨c, hc, hct⟩
          activeAffinity_eq := fun d hd hdt => by
            rw [boot_thread_of_idleCpu hcpu]
            exact cfg.idleThread_inj c d hc hd (hct.trans hdt.symm)
          schedulable := by simp [boot_thread_of_idleCpu hcpu]
          init_of_queued := by simp [boot_thread_of_idleCpu hcpu]
          init_of_running := by simp [boot_thread_of_idleCpu hcpu]
          needRequeue := by simp [boot_thread_of_idleCpu hcpu]
          exited := by simp [boot_thread_of_idleCpu hcpu]
          rcu := by simp [Config.boot]
          pinned := by simp [boot_thread_of_idleCpu hcpu]
          yieldTo_init := by simp [boot_thread_of_idleCpu hcpu] }
  awake t _ := by
    unfold Awake
    cases hcpu : cfg.idleCpu t with
    | none => simp [boot_thread_of_idleCpu_none hcpu]
    | some c =>
      -- an idle thread is blocked with `IDLE`
      intro _ hcbs _
      rw [boot_thread_of_idleCpu hcpu, canBeScheduled_of_not_killed (b := cfg.idle) (by simp) rfl]
        at hcbs
      exact absurd hcbs Bool.false_ne_true
  idle c hc :=
    { init := by simp [boot_thread_of_idleCpu (cfg.idleCpu_idleThread hc)]
      affinity_eq := by simp [boot_thread_of_idleCpu (cfg.idleCpu_idleThread hc)]
      not_exited := by simp [boot_thread_of_idleCpu (cfg.idleCpu_idleThread hc)]
      not_affinityChanged := by
        simp [boot_thread_of_idleCpu (cfg.idleCpu_idleThread hc), cfg.affinityChanged_ne_idle]
      current_eq := fun d hd hdc => cfg.idleThread_inj d c hd hc hdc }

end System

/-! ## Reachable states -/

section Reachable

variable [DecidableEq τ] [DecidableEq β] [Fintype β] {cfg : Config τ β} {S : System τ β}

/-- Every reachable state has the invariant. -/
theorem Reachable.sysInv (hr : Reachable cfg S) : S.SysInv cfg := by
  induction hr with
  | boot => exact System.sysInv_boot
  | step e _ he hrun ih => exact (ih.run e he).sysInv hrun

end Reachable

/-- Four values of `scheduler_block_t`: the scheduler's own block, `thread_standard`'s, the idle
thread's, and `SCHEDULER_BLOCK_VCPU_WFI`, which a VCPU sets on itself when it waits for an
interrupt (`wfi.c`). -/
inductive ExampleBlock where
  | affinityChanged
  | threadLifecycle
  | idle
  | vcpuWfi
  deriving DecidableEq

instance : Fintype ExampleBlock where
  elems := {.affinityChanged, .threadLifecycle, .idle, .vcpuWfi}
  complete b := by cases b <;> decide

/-- A configuration with one CPU, threads numbered from `0` (the idle thread) and the blocks of
`ExampleBlock`, of which only `AFFINITY_CHANGED` is non-killable. -/
def oneCpu : Config Nat ExampleBlock where
  maxCores := 1
  nonKillable b := decide (b = .affinityChanged)
  affinityChanged := .affinityChanged
  threadLifecycle := .threadLifecycle
  idle := .idle
  idleThread _ := 0
  convertNsToTicks ns := ns / 1000
  affinityChanged_nonKillable := rfl
  affinityChanged_ne_threadLifecycle := by decide
  affinityChanged_ne_idle := by decide
  idleThread_inj _ _ hc hd _ := by
    change _ < 1 at hc hd
    omega

/-- Thread `1` created with affinity `0` and blocked with `THREAD_LIFECYCLE`, as
`thread_standard` creates it. -/
def createOne : SchedEvent Nat ExampleBlock :=
  .create 1 ⟨0, true, 0, false, 0, false⟩ fun b => decide (b = .threadLifecycle)

/-- The state after the calls `es` from boot on `oneCpu`. -/
def oneCpuRun (es : List (SchedEvent Nat ExampleBlock)) : System Nat ExampleBlock :=
  (es.foldlM (fun S (e : SchedEvent Nat ExampleBlock) => e.run oneCpu S) oneCpu.boot).getD
    oneCpu.boot

/-- Thread `1` created, activated, and switched to by CPU `0`. -/
def runningOne : System Nat ExampleBlock :=
  oneCpuRun [createOne, .activate 0 1, .schedule 0 0 true false false]

theorem reachable_runningOne : Reachable oneCpu runningOne :=
  .step (.schedule 0 0 true false false)
    (.step (.activate 0 1) (.step createOne .boot (by decide) rfl) (by decide) rfl) (by decide) rfl

/-- Then thread `1` exits. -/
def exitedOne : System Nat ExampleBlock :=
  oneCpuRun [createOne, .activate 0 1, .schedule 0 0 true false false, .exit 0]

theorem reachable_exitedOne : Reachable oneCpu exitedOne :=
  .step (.exit 0) reachable_runningOne (by decide) rfl

/-- Thread `t` created with affinity `0`, and priority `prio` where one is given, blocked with
`THREAD_LIFECYCLE`. -/
def createThreadOn (t : Nat) (prio : Option Nat) : SchedEvent Nat ExampleBlock :=
  .create t ⟨0, true, prio.getD 0, prio.isSome, 0, false⟩ fun b => decide (b = .threadLifecycle)

/-- The calls up to two directed yields under way: thread `1` runs and starts a directed yield to
thread `3`, and thread `2`, of a higher priority, runs instead and starts a directed yield to
thread `1`. All three threads are activated, as the lookup of `hypercall_scheduler_yield` requires
of a yield target. -/
def yieldChainCalls : List (SchedEvent Nat ExampleBlock) :=
  [createOne, .activate 0 1, .schedule 0 0 true false false, createThreadOn 2 (some 40),
    .activate 0 2, createThreadOn 3 (some 10), .activate 0 3, .yieldTo 0 3 false,
    .schedule 0 0 true false false, .yieldTo 0 1 false]

def yieldChain : System Nat ExampleBlock := oneCpuRun yieldChainCalls

theorem reachable_yieldChain : Reachable oneCpu yieldChain :=
  .step (.yieldTo 0 1 false) (.step (.schedule 0 0 true false false) (.step (.yieldTo 0 3 false)
    (.step (.activate 0 3) (.step (createThreadOn 3 (some 10)) (.step (.activate 0 2)
      (.step (createThreadOn 2 (some 40)) reachable_runningOne (by decide) rfl) (by decide) rfl)
      (by decide) rfl) (by decide) rfl) (by decide) rfl) (by decide) rfl) (by decide) rfl

/-- No thread but `1` and `2` is yielding in `yieldChain`. -/
theorem yieldChain_sched (n : Nat) : (yieldChain.sched (n + 4)).yielding = false := rfl

theorem yieldChain_yieldedFrom : ∀ c, yieldChain.yieldedFrom c = none
  | 0 => rfl
  | _ + 1 => rfl

/-- Both directed yields of `yieldChain` can go on. -/
theorem yieldChain_yieldOk : yieldChain.YieldOk oneCpu where
  yieldTo_isSome t ht := by
    match t, ht with
    | 0, ht | 1, ht | 2, ht | 3, ht => revert ht; decide
    | n + 4, ht => rw [yieldChain_sched n] at ht; cases ht
  affinity_lt t ht := by
    match t, ht with
    | 0, ht | 1, ht | 2, ht | 3, ht => revert ht; decide
    | n + 4, ht => rw [yieldChain_sched n] at ht; cases ht
  yieldedFrom_yieldTo c y hy := by
    rw [yieldChain_yieldedFrom c] at hy
    cases hy

/-- Then thread `1` runs as thread `2`'s yield target, which ends its own `scheduler_yield_to`; it
calls `scheduler_yield`, which ends thread `2`'s directed yield, and thread `2` runs again and
waits for an interrupt: `vcpu_wfi` blocks it and calls `scheduler_yield`. -/
def yieldedBack : System Nat ExampleBlock :=
  oneCpuRun (yieldChainCalls ++ [.schedule 0 0 true false false, .yield 0,
    .schedule 0 0 true false false, .block 2 .vcpuWfi, .yield 0])

theorem reachable_yieldedBack : Reachable oneCpu yieldedBack :=
  .step (.yield 0) (.step (.block 2 .vcpuWfi) (.step (.schedule 0 0 true false false)
    (.step (.yield 0) (.step (.schedule 0 0 true false false) reachable_yieldChain (by decide) rfl)
      (by decide) rfl) (by decide) rfl) (by decide) rfl) (by decide) rfl

/-! ## What every run keeps -/

section Runs

variable [DecidableEq τ] [DecidableEq β] [Fintype β] {cfg : Config τ β} {S : System τ β}

/-- Every call that the callers may make on a reachable state in which the directed yields under
way can go on returns: no other assert of the scheduler fails, and nothing panics. -/
theorem Reachable.run_isSome (hr : Reachable cfg S) (hy : S.YieldOk cfg) {e : SchedEvent τ β}
    (he : e.Enabled cfg S) : ∃ S', e.run cfg S = some S' := by
  obtain ⟨S', hS', -⟩ := (hr.sysInv.run e he).exists_of_not (not_not.2 hy)
  exact ⟨S', hS'⟩

theorem run_isSome_yieldChain :
    ∃ S', (SchedEvent.schedule 0 0 true false false).run oneCpu yieldChain = some S' :=
  Reachable.run_isSome reachable_yieldChain yieldChain_yieldOk (by decide)

/-- The directed yields need not go on: `scheduler_yield_to` of a thread that returns because the
thread runs as another thread's yield target leaves it yielding with no yield target. Once the
thread that yielded to it blocks, `get_next_target` chooses it, and `select_yield_target` fails
its assert. -/
theorem yieldedBack_schedule_fails :
    Reachable oneCpu yieldedBack ∧ yieldedBack.current 0 = 2 ∧
      (yieldedBack.thread 2).blockBits .vcpuWfi ∧ (yieldedBack.sched 1).yielding ∧
      (yieldedBack.thread 1).yieldTo = none ∧
      ((yieldedBack.fprr 0).getNextTarget 0).map Prod.fst = some (some 1) ∧
      (SchedEvent.schedule 0 0 true false false).Enabled oneCpu yieldedBack ∧
      (SchedEvent.schedule 0 0 true false false).run oneCpu yieldedBack = none :=
  ⟨reachable_yieldedBack, by decide, by decide, by decide, by decide, by decide, by decide, rfl⟩

/-- In a reachable state a thread in a directed yield is pinned, and its yield target exists:
`scheduler_set_affinity` of it to another CPU is denied and changes nothing, so it cannot migrate
and run beside its yield target. -/
theorem Reachable.setAffinity_denied (hr : Reachable cfg S) {t y : τ}
    (hy : (S.thread t).yieldTo = some y) {targetCpu : Nat}
    (hne : (S.thread t).affinity ≠ targetCpu) (self : Nat) (prepare : Error) (needSync : Bool) :
    (S.thread y).flags.init ∧
      S.schedulerSetAffinity cfg self t targetCpu prepare needSync = some (.denied, S) := by
  have ht := hr.sysInv.thread t
  have hpin : (S.thread t).pinCount ≠ 0 := ht.pinned (by simp [hy])
  refine ⟨ht.yieldTo_init y hy, ?_⟩
  unfold System.schedulerSetAffinity
  rw [if_neg hne, if_pos hpin]

theorem setAffinity_denied_yieldChain :
    (yieldChain.thread 3).flags.init ∧
      yieldChain.schedulerSetAffinity oneCpu 0 1 1 .ok false = some (.denied, yieldChain) :=
  Reachable.setAffinity_denied reachable_yieldChain (by decide) (by decide) 0 .ok false

/-- No wakeup is lost: in a reachable state a thread that exists, can be scheduled and has a
valid affinity is on the scheduler of its affinity CPU, on a list or as its active thread, or it
is running and marked for a requeue at its next context switch. -/
theorem Reachable.no_lost_wakeup (hr : Reachable cfg S) (t : τ) (hinit : (S.thread t).flags.init)
    (hcbs : canBeScheduled cfg (S.thread t)) (hval : (S.thread t).affinity < cfg.maxCores) :
    S.OnCpu (S.thread t).affinity t ∨
      ((S.thread t).flags.running ∧ (S.thread t).flags.needRequeue) := by
  have ht := hr.sysInv.thread t
  rcases hr.sysInv.awake t trivial hinit hcbs hval with hq | hnr
  · exact Or.inl ((ht.onCpu_iff _).2 ⟨hq, rfl⟩)
  · exact Or.inr ⟨(ht.needRequeue hnr).1, hnr⟩

theorem no_lost_wakeup_runningOne :
    runningOne.OnCpu (runningOne.thread 1).affinity 1 ∨
      ((runningOne.thread 1).flags.running ∧ (runningOne.thread 1).flags.needRequeue) :=
  Reachable.no_lost_wakeup reachable_runningOne 1 (by decide) (by decide) (by decide)

/-- In a reachable state every CPU's run queues keep the queue invariant, and a thread is on the
scheduler of CPU `c`, on a list or active, exactly when it is marked queued with `c` as its
affinity: so it is on one CPU's scheduler at most. -/
theorem Reachable.queued_iff_onCpu (hr : Reachable cfg S) (c : Nat) :
    (S.fprr c).QueueInv ∧
      ∀ t, S.OnCpu c t ↔ (S.thread t).flags.queued ∧ (S.thread t).affinity = c :=
  ⟨hr.sysInv.queueInv c, fun t => (hr.sysInv.thread t).onCpu_iff c⟩

theorem queued_iff_onCpu_runningOne :
    (runningOne.fprr 0).QueueInv ∧
      ∀ t, runningOne.OnCpu 0 t ↔ (runningOne.thread t).flags.queued ∧
        (runningOne.thread t).affinity = 0 :=
  Reachable.queued_iff_onCpu reachable_runningOne 0

/-- In a reachable state a thread is marked running exactly when it is the current thread of a
CPU, and it is the current thread of one CPU at most. -/
theorem Reachable.current_inj (hr : Reachable cfg S) (t : τ) :
    ((S.thread t).flags.running ↔ ∃ c < cfg.maxCores, S.current c = t) ∧
      ∀ c < cfg.maxCores, ∀ d < cfg.maxCores, S.current c = t → S.current d = t → c = d := by
  have ht := hr.sysInv.thread t
  refine ⟨ht.running_iff, fun c hc d hd hct hdt => ?_⟩
  rw [← ht.activeAffinity_eq c hc hct, ht.activeAffinity_eq d hd hdt]

theorem current_inj_runningOne :
    ((runningOne.thread 1).flags.running ↔ ∃ c < oneCpu.maxCores, runningOne.current c = 1) ∧
      ∀ c < oneCpu.maxCores, ∀ d < oneCpu.maxCores, runningOne.current c = 1 →
        runningOne.current d = 1 → c = d :=
  Reachable.current_inj reachable_runningOne 1

/-- In a reachable state an exited thread cannot be scheduled and is not queued: it stays blocked
with `THREAD_LIFECYCLE` and its kill no longer counts. -/
theorem Reachable.exited_not_queued (hr : Reachable cfg S) {t : τ}
    (hex : (S.thread t).flags.exited) :
    canBeScheduled cfg (S.thread t) = false ∧ (S.thread t).flags.queued = false := by
  have ht := hr.sysInv.thread t
  obtain ⟨hlife, hk⟩ := ht.exited hex
  have hcbs : canBeScheduled cfg (S.thread t) = false := System.canBeScheduled_of_not_killed hlife hk
  refine ⟨hcbs, ?_⟩
  cases hq : (S.thread t).flags.queued
  · rfl
  · simpa [hcbs] using ht.schedulable hq

theorem exited_not_queued_exitedOne :
    canBeScheduled oneCpu (exitedOne.thread 1) = false ∧ (exitedOne.thread 1).flags.queued = false :=
  Reachable.exited_not_queued reachable_exitedOne (by decide)

/-- In a reachable state the idle thread of each CPU exists, has the CPU as its affinity, has not
exited, has no affinity change under way, and is the current thread of no other CPU. -/
theorem Reachable.idleThread_stays (hr : Reachable cfg S) {c : Nat} (hc : c < cfg.maxCores) :
    (S.thread (cfg.idleThread c)).flags.init ∧ (S.thread (cfg.idleThread c)).affinity = c ∧
      (S.thread (cfg.idleThread c)).flags.exited = false ∧
      (S.thread (cfg.idleThread c)).blockBits cfg.affinityChanged = false ∧
      ∀ d < cfg.maxCores, S.current d = cfg.idleThread c → d = c :=
  let hi := hr.sysInv.idle c hc
  ⟨hi.init, hi.affinity_eq, hi.not_exited, hi.not_affinityChanged, hi.current_eq⟩

theorem idleThread_stays_exitedOne :
    (exitedOne.thread (oneCpu.idleThread 0)).flags.init ∧
      (exitedOne.thread (oneCpu.idleThread 0)).affinity = 0 ∧
      (exitedOne.thread (oneCpu.idleThread 0)).flags.exited = false ∧
      (exitedOne.thread (oneCpu.idleThread 0)).blockBits oneCpu.affinityChanged = false ∧
      ∀ d < oneCpu.maxCores, exitedOne.current d = oneCpu.idleThread 0 → d = 0 :=
  Reachable.idleThread_stays reachable_exitedOne (by decide)

end Runs

end Gunyah.Scheduler

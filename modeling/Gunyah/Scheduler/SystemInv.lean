import Gunyah.Scheduler.SystemSpec
import Mathlib

set_option autoImplicit false

/-!
# The scheduler's invariant

The invariant that the scheduler's operations keep, in three parts.

* `ThreadInv`, for each thread: it is on a CPU's scheduler exactly when it is marked queued, and
  then on its affinity CPU's, which is valid; it is marked running exactly when it is some CPU's
  current thread, and then its active affinity is that CPU; a queued thread can be scheduled; a
  queued or running thread exists; a thread marked for a requeue is running and not queued; an
  exited thread is blocked with `THREAD_LIFECYCLE` and not killed; and a thread whose RCU entry is
  queued is blocked with `AFFINITY_CHANGED`, exists and is not running; and a thread with a yield
  target is pinned and yields to a thread that exists.
* `Awake`, for each thread: a thread that exists, can be scheduled and has a valid affinity is
  queued or marked for a requeue, which queues it at its context switch. No wakeup is lost.
* for the system (`SysInvOn`): the queue invariant of every CPU, the idle thread of each CPU
  exists, keeps the CPU as its affinity, never exits and runs only there.

An operation breaks `Awake` for the thread it works on between its steps, and nothing else:
`SysInvOn S p` asks `Awake` only of the threads `p` holds of, and `SysInv` of all. Each update of
one thread's own fields is one lemma (`SysInvOn.local`); the lemmas of this module give the
invariant after each shared function, and `Gunyah.Scheduler.SystemRun` after each operation.

The invariant says nothing of whether a directed yield can go on. A call from a state with the
invariant returns with the invariant after it, or fails (`ReturnsUnless`); it fails only at an
assert of the directed-yield code, and only where `YieldOk` does not hold: a yielding thread
without a yield target or with an invalid affinity, or a CPU that records a thread without one
as yielded from.
-/

namespace Gunyah.Scheduler

open Function

variable {τ β : Type}

namespace System

variable [Fintype β] (cfg : Config τ β) (S : System τ β)

/-- The invariant of thread `t`. -/
structure ThreadInv (t : τ) : Prop where
  onCpu_iff : ∀ c, S.OnCpu c t ↔ (S.thread t).flags.queued ∧ (S.thread t).affinity = c
  affinity_lt : (S.thread t).flags.queued → (S.thread t).affinity < cfg.maxCores
  running_iff : (S.thread t).flags.running ↔ ∃ c < cfg.maxCores, S.current c = t
  activeAffinity_eq : ∀ c < cfg.maxCores, S.current c = t → (S.thread t).activeAffinity = c
  schedulable : (S.thread t).flags.queued → canBeScheduled cfg (S.thread t)
  init_of_queued : (S.thread t).flags.queued → (S.thread t).flags.init
  init_of_running : (S.thread t).flags.running → (S.thread t).flags.init
  needRequeue : (S.thread t).flags.needRequeue →
    (S.thread t).flags.running ∧ (S.thread t).flags.queued = false
  exited : (S.thread t).flags.exited →
    (S.thread t).blockBits cfg.threadLifecycle ∧ (S.thread t).flags.killed = false
  rcu : S.rcuQueued t → (S.thread t).blockBits cfg.affinityChanged ∧
    (S.thread t).flags.running = false ∧ (S.thread t).flags.init
  pinned : (S.thread t).yieldTo.isSome → (S.thread t).pinCount ≠ 0
  yieldTo_init : ∀ y, (S.thread t).yieldTo = some y → (S.thread y).flags.init

/-- No wakeup of `t` is lost: if it exists, can be scheduled and has a valid affinity, it is
queued, or marked for a requeue at its context switch. -/
def Awake (t : τ) : Prop :=
  (S.thread t).flags.init → canBeScheduled cfg (S.thread t) →
    (S.thread t).affinity < cfg.maxCores → (S.thread t).flags.queued ∨ (S.thread t).flags.needRequeue

/-- The idle thread of CPU `c` exists, has `c` as its affinity, has not exited, has no affinity
change under way, and runs on no other CPU. -/
structure IdleInv (c : Nat) : Prop where
  init : (S.thread (cfg.idleThread c)).flags.init
  affinity_eq : (S.thread (cfg.idleThread c)).affinity = c
  not_exited : (S.thread (cfg.idleThread c)).flags.exited = false
  not_affinityChanged : (S.thread (cfg.idleThread c)).blockBits cfg.affinityChanged = false
  current_eq : ∀ d < cfg.maxCores, S.current d = cfg.idleThread c → d = c

/-- The invariant of the system, with `Awake` asked only of the threads `p` holds of. -/
structure SysInvOn (p : τ → Prop) : Prop where
  queueInv : ∀ c, (S.fprr c).QueueInv
  thread : ∀ t, S.ThreadInv cfg t
  awake : ∀ t, p t → S.Awake cfg t
  idle : ∀ c < cfg.maxCores, S.IdleInv cfg c

/-- The invariant of the system. -/
abbrev SysInv : Prop := S.SysInvOn cfg fun _ => True

/-- The directed yields under way can go on: a yielding thread has a yield target and a valid
affinity, and a thread that a CPU records as yielded from has a yield target. -/
structure YieldOk : Prop where
  yieldTo_isSome : ∀ t, (S.sched t).yielding → (S.thread t).yieldTo.isSome
  affinity_lt : ∀ t, (S.sched t).yielding → (S.thread t).affinity < cfg.maxCores
  yieldedFrom_yieldTo : ∀ c y, S.yieldedFrom c = some y → (S.thread y).yieldTo.isSome

/-- What a call with result `o` does: it returns, and the invariant holds after it, or it fails,
and then `bad` held. -/
def ReturnsUnless (o : Option (System τ β)) (bad : Prop) : Prop :=
  (∃ S', o = some S' ∧ S'.SysInv cfg) ∨ (o = none ∧ bad)

variable {cfg S}

section ReturnsUnless

variable {o : Option (System τ β)} {bad bad' : Prop}

theorem ReturnsUnless.sysInv {S' : System τ β} (h : ReturnsUnless cfg o bad) (ho : o = some S') :
    S'.SysInv cfg := by
  rcases h with ⟨S'', rfl, h⟩ | ⟨rfl, -⟩
  · cases ho
    exact h
  · cases ho

theorem ReturnsUnless.exists_of_not (h : ReturnsUnless cfg o bad) (hb : ¬bad) :
    ∃ S', o = some S' ∧ S'.SysInv cfg :=
  h.resolve_right fun ⟨_, hbad⟩ => hb hbad

theorem ReturnsUnless.mono (h : ReturnsUnless cfg o bad) (hb : bad → bad') :
    ReturnsUnless cfg o bad' :=
  h.imp_right fun ⟨ho, hbad⟩ => ⟨ho, hb hbad⟩

end ReturnsUnless

/-! ## Carrying the invariant over -/

section Frame

variable {S' : System τ β} {t : τ}

theorem ThreadInv.congr (h : S.ThreadInv cfg t) (hth : S'.thread t = S.thread t)
    (hr : S'.rcuQueued t = S.rcuQueued t) (hon : ∀ c, S'.OnCpu c t ↔ S.OnCpu c t)
    (hcur : ∀ c, S'.current c = t ↔ S.current c = t)
    (hinit : ∀ u, (S.thread u).flags.init → (S'.thread u).flags.init) : S'.ThreadInv cfg t where
  onCpu_iff c := by rw [hon, hth]; exact h.onCpu_iff c
  affinity_lt := by rw [hth]; exact h.affinity_lt
  running_iff := by simp only [hth, hcur]; exact h.running_iff
  activeAffinity_eq c hc hct := by rw [hth]; exact h.activeAffinity_eq c hc ((hcur c).1 hct)
  schedulable := by rw [hth]; exact h.schedulable
  init_of_queued := by rw [hth]; exact h.init_of_queued
  init_of_running := by rw [hth]; exact h.init_of_running
  needRequeue := by rw [hth]; exact h.needRequeue
  exited := by rw [hth]; exact h.exited
  rcu := by rw [hth, hr]; exact h.rcu
  pinned := by rw [hth]; exact h.pinned
  yieldTo_init y hy := hinit y (h.yieldTo_init y (by rwa [hth] at hy))

theorem Awake.congr (h : S.Awake cfg t) (hth : S'.thread t = S.thread t) : S'.Awake cfg t := by
  unfold Awake
  rw [hth]
  exact h

omit [Fintype β] in
/-- The fields of a thread that the idle invariant reads. -/
def IdleFields (cfg : Config τ β) (th : ThreadFields τ β) : Bool × Nat × Bool × Bool :=
  (th.flags.init, th.affinity, th.flags.exited, th.blockBits cfg.affinityChanged)

omit [Fintype β] in
/-- The idle invariant does not read the running, queued, requeue and killed flags, the active
and previous affinity, the pin count and the yield target. -/
@[simp] theorem idleFields_mk (th : ThreadFields τ β) (pa aa pc : Nat) (y : Option τ)
    (r q n k : Bool) :
    IdleFields cfg ⟨th.blockBits, th.affinity, pa, aa, pc, y, ⟨th.flags.init, r, q, n, k, th.flags.exited⟩⟩ =
      IdleFields cfg th := rfl

omit [Fintype β] in
theorem IdleInv.congr {c : Nat} (h : S.IdleInv cfg c)
    (hth : IdleFields cfg (S'.thread (cfg.idleThread c)) = IdleFields cfg (S.thread (cfg.idleThread c)))
    (hcur : ∀ d < cfg.maxCores, S'.current d = cfg.idleThread c → d = c) :
    S'.IdleInv cfg c := by
  simp only [IdleFields, Prod.mk.injEq] at hth
  obtain ⟨hinit, haff, hex, hbit⟩ := hth
  exact
    { init := hinit ▸ h.init
      affinity_eq := haff ▸ h.affinity_eq
      not_exited := hex ▸ h.not_exited
      not_affinityChanged := hbit ▸ h.not_affinityChanged
      current_eq := hcur }

theorem SysInvOn.mono {p q : τ → Prop} (h : S.SysInvOn cfg p) (hpq : ∀ u, q u → p u) :
    S.SysInvOn cfg q :=
  { h with awake := fun u hu => h.awake u (hpq u hu) }

/-- The wakeup of the one thread left out, once it holds, gives the whole invariant. -/
theorem SysInvOn.of_awake (h : S.SysInvOn cfg (· ≠ t)) (ht : S.Awake cfg t) : S.SysInv cfg :=
  { h with
    awake := fun u _ => by
      by_cases hu : u = t
      · exact hu ▸ ht
      · exact h.awake u hu }

/-- An update of thread `t`'s own fields that leaves the queues, the current threads and the
other threads as they were keeps the invariant, once `t`'s own holds. -/
theorem SysInvOn.local {p : τ → Prop} (h : S.SysInvOn cfg p)
    (hq : ∀ c, (S'.fprr c).QueueInv)
    (hon : ∀ c u, u ≠ t → (S'.OnCpu c u ↔ S.OnCpu c u))
    (hthread : ∀ u, u ≠ t → S'.thread u = S.thread u)
    (hrcu : ∀ u, u ≠ t → S'.rcuQueued u = S.rcuQueued u)
    (hcur : S'.current = S.current)
    (hit : (S.thread t).flags.init → (S'.thread t).flags.init)
    (hidle : ¬cfg.IsIdle t ∨ IdleFields cfg (S'.thread t) = IdleFields cfg (S.thread t))
    (ht : S'.ThreadInv cfg t) (hawake : p t → S'.Awake cfg t) : S'.SysInvOn cfg p where
  queueInv := hq
  thread u := by
    -- every thread that existed still exists
    have hinit (v : τ) (hv : (S.thread v).flags.init) : (S'.thread v).flags.init := by
      by_cases hvt : v = t
      · exact hvt ▸ hit (hvt ▸ hv)
      · rwa [hthread v hvt]
    by_cases hu : u = t
    · exact hu ▸ ht
    · exact (h.thread u).congr (hthread u hu) (hrcu u hu) (fun c => hon c u hu)
        (fun c => by rw [hcur]) hinit
  awake u hp := by
    by_cases hu : u = t
    · exact hu ▸ hawake (hu ▸ hp)
    · exact (h.awake u hp).congr (hthread u hu)
  idle c hc := by
    -- the idle thread of `c` is `t`, whose fields the idle invariant reads are kept, or another
    by_cases hct : cfg.idleThread c = t
    · rcases hidle with hnot | hfields
      · exact absurd ⟨c, hc, hct⟩ hnot
      · exact (h.idle c hc).congr (hct ▸ hfields) fun d hd hcd =>
          (h.idle c hc).current_eq d hd (by rwa [← hcur])
    · exact (h.idle c hc).congr (by rw [hthread _ hct]) fun d hd hcd =>
        (h.idle c hc).current_eq d hd (by rwa [← hcur])

theorem ThreadInv.not_onCpu (h : S.ThreadInv cfg t) (hq : (S.thread t).flags.queued = false)
    (c : Nat) : ¬S.OnCpu c t := by
  simp [h.onCpu_iff c, hq]

/-- A running thread's active affinity is a valid CPU. -/
theorem ThreadInv.activeAffinity_lt (h : S.ThreadInv cfg t) (hrun : (S.thread t).flags.running) :
    (S.thread t).activeAffinity < cfg.maxCores := by
  obtain ⟨c, hc, hct⟩ := h.running_iff.1 hrun
  rw [h.activeAffinity_eq c hc hct]
  exact hc

/-- A thread that can be scheduled has not exited. -/
theorem ThreadInv.not_exited (h : S.ThreadInv cfg t) (hcbs : canBeScheduled cfg (S.thread t)) :
    (S.thread t).flags.exited = false := by
  by_contra hex
  obtain ⟨hlife, hk⟩ := h.exited (by simpa using hex)
  simp [canBeScheduled_of_not_killed hlife hk] at hcbs

/-- A thread whose RCU entry is queued cannot be scheduled. -/
theorem ThreadInv.not_rcuQueued (h : S.ThreadInv cfg t) (hcbs : canBeScheduled cfg (S.thread t)) :
    S.rcuQueued t = false := by
  by_contra hr
  have hbit := (h.rcu (by simpa using hr)).1
  simp [canBeScheduled_of_nonKillable hbit cfg.affinityChanged_nonKillable] at hcbs

end Frame

/-! ## Updates of one thread's fields -/

section SetThread

variable [DecidableEq τ] {t : τ} {th : ThreadFields τ β}

omit [Fintype β] in
/-- Replacing `t`'s fields by ones that exist if `t` did keeps every thread that exists. -/
theorem flags_init_update {f : τ → ThreadFields τ β} {u : τ}
    (hth : (f t).flags.init → th.flags.init) (hu : (f u).flags.init) :
    (update f t th u).flags.init := by
  by_cases hut : u = t
  · subst hut
    simpa using hth hu
  · simpa [hut] using hu

/-- The invariant of `t` after its fields are replaced by ones with the same queued and running
flags, the same affinity if queued and the same active affinity if running, and still existing if
it did: what the new fields must satisfy. -/
theorem ThreadInv.setThread (h : S.ThreadInv cfg t) (th : ThreadFields τ β)
    (hq : th.flags.queued = (S.thread t).flags.queued)
    (haff : th.flags.queued → th.affinity = (S.thread t).affinity)
    (hrun : th.flags.running = (S.thread t).flags.running)
    (hact : th.flags.running → th.activeAffinity = (S.thread t).activeAffinity)
    (hinit : (S.thread t).flags.init → th.flags.init)
    (hsched : th.flags.queued → canBeScheduled cfg th)
    (hnr : th.flags.needRequeue → th.flags.running ∧ th.flags.queued = false)
    (hex : th.flags.exited → th.blockBits cfg.threadLifecycle ∧ th.flags.killed = false)
    (hrcu : S.rcuQueued t →
      th.blockBits cfg.affinityChanged ∧ th.flags.running = false ∧ th.flags.init)
    (hpin : th.yieldTo.isSome → th.pinCount ≠ 0)
    (hyield : ∀ y, th.yieldTo = some y → (S.thread y).flags.init) :
    (S.setThread t th).ThreadInv cfg t where
  onCpu_iff c := by
    -- the affinity matters only to a queued thread
    by_cases hq' : th.flags.queued
    · simpa [hq, haff hq'] using h.onCpu_iff c
    · simpa [hq'] using h.not_onCpu (by simpa [hq] using hq') c
  affinity_lt hq' := by
    simp only [setThread_thread, update_self] at hq' ⊢
    rw [haff hq']
    exact h.affinity_lt (hq ▸ hq')
  running_iff := by simpa [hrun] using h.running_iff
  activeAffinity_eq c hc hct := by
    -- only a running thread is current, and its active affinity is kept
    have hct' : S.current c = t := by simpa using hct
    have hr : th.flags.running := hrun ▸ h.running_iff.2 ⟨c, hc, hct'⟩
    simpa [hact hr] using h.activeAffinity_eq c hc hct'
  schedulable := by simpa using hsched
  init_of_queued hq' := by
    simp only [setThread_thread, update_self] at hq' ⊢
    exact hinit (h.init_of_queued (hq ▸ hq'))
  init_of_running hr := by
    simp only [setThread_thread, update_self] at hr ⊢
    exact hinit (h.init_of_running (hrun ▸ hr))
  needRequeue := by simpa using hnr
  exited := by simpa using hex
  rcu := by simpa using hrcu
  pinned := by simpa using hpin
  yieldTo_init y hy := by
    rw [setThread_thread]
    exact flags_init_update hinit (hyield y (by simpa using hy))

/-- Replacing `t`'s fields by ones that exist if `t` did keeps the invariant once `t`'s own
holds. -/
theorem SysInvOn.setThread {p : τ → Prop} (h : S.SysInvOn cfg p)
    (ht : (S.setThread t th).ThreadInv cfg t) (hawake : p t → (S.setThread t th).Awake cfg t)
    (hidle : ¬cfg.IsIdle t ∨ IdleFields cfg th = IdleFields cfg (S.thread t))
    (hinit : (S.thread t).flags.init → th.flags.init) :
    (S.setThread t th).SysInvOn cfg p :=
  h.local (t := t) (by simpa using h.queueInv) (fun _ _ _ => Iff.rfl) (fun u hu => by simp [hu])
    (fun _ _ => rfl) rfl (by simpa using hinit) (by simpa using hidle) ht hawake

/-- Replacing `t`'s run-queue fields keeps the invariant when `t` is not queued or keeps its
priority. -/
theorem SysInvOn.setSched {p : τ → Prop} (h : S.SysInvOn cfg p) {th : SchedThread}
    (hq : (S.thread t).flags.queued = false ∨ th.priority = (S.sched t).priority) :
    (S.setSched t th).SysInvOn cfg p := by
  have hprio : ∀ c, ∀ u ∈ (S.fprr c).queued, (update S.sched t th u).priority = (S.sched u).priority := by
    intro c u hu
    by_cases hut : u = t
    · subst hut
      rcases hq with hq | hp
      · exact absurd (.inl hu) ((h.thread u).not_onCpu hq c)
      · simpa using hp
    · simp [hut]
  refine h.local (t := t) (fun c => ?_) (fun _ _ _ => by simp) (fun _ _ => rfl) (fun _ _ => rfl) rfl
    id (.inr rfl) ((h.thread t).congr rfl rfl (by simp) (fun _ => Iff.rfl) fun _ => id)
    fun hp => (h.awake t hp).congr rfl
  exact (h.queueInv c).withThread_of_queued (hprio c)

/-- Ending `t`'s directed yield keeps the invariant. -/
theorem SysInvOn.endDirectedYield {p : τ → Prop} (h : S.SysInvOn cfg p) (t : τ) :
    (S.endDirectedYield t).SysInvOn cfg p :=
  h.setSched (.inr rfl)

end SetThread

/-! ## Putting a thread on its CPU's scheduler and taking it off -/

section Queue

variable [DecidableEq τ] {t : τ}

/-- `enqueue` of a thread that exists, can be scheduled, and is neither running nor queued, with a
valid affinity, gives the invariant back with the thread's wakeup. -/
theorem SysInvOn.enqueue (h : S.SysInvOn cfg (· ≠ t)) (hinit : (S.thread t).flags.init)
    (hcbs : canBeScheduled cfg (S.thread t)) (hrun : (S.thread t).flags.running = false)
    (hq : (S.thread t).flags.queued = false) (hval : (S.thread t).affinity < cfg.maxCores) :
    (S.enqueue t).SysInv cfg := by
  have ht := h.thread t
  -- a thread marked for a requeue is running, so `t` is not
  have hnr : (S.thread t).flags.needRequeue = false := by
    by_contra hnr
    simpa [hrun] using (ht.needRequeue (by simpa using hnr)).1
  refine (h.local (t := t) (queueInv_enqueue h.queueInv (ht.not_onCpu hq _))
    (fun c u hu => by simp [onCpu_enqueue, hu]) (fun u hu => by simp [hu]) (fun _ _ => rfl) rfl
    (by simp) (.inr (by simp)) ?_ (fun _ => ?_)).of_awake (by simp [Awake])
  · exact
    { onCpu_iff := fun c => by
        rw [onCpu_enqueue]
        simp only [ht.not_onCpu hq c, false_or, true_and, enqueue_thread, update_self]
        exact ⟨fun hc => hc.symm, fun hc => hc.symm⟩
      affinity_lt := by simpa using hval
      running_iff := by simpa using ht.running_iff
      activeAffinity_eq := by simpa using ht.activeAffinity_eq
      schedulable := by simpa using hcbs
      init_of_queued := by simpa using hinit
      init_of_running := by simpa using ht.init_of_running
      needRequeue := by simp [hnr]
      exited := by simpa using ht.exited
      rcu := by simpa using ht.rcu
      pinned := by simpa using ht.pinned
      yieldTo_init := fun y hy => by
        rw [enqueue_thread]
        exact flags_init_update id (ht.yieldTo_init y (by simpa using hy)) }
  · simp [Awake]

/-- `add_thread_to_scheduler` of a thread that exists, can be scheduled, and is neither running,
queued nor exited gives the invariant back with the thread's wakeup. -/
theorem SysInvOn.addThreadToScheduler [DecidableEq β] (h : S.SysInvOn cfg (· ≠ t)) (self : Nat)
    (hinit : (S.thread t).flags.init) (hcbs : canBeScheduled cfg (S.thread t))
    (hrun : (S.thread t).flags.running = false) (hq : (S.thread t).flags.queued = false)
    (hex : (S.thread t).flags.exited = false) :
    ∃ S', (S.addThreadToScheduler cfg self t).map Prod.snd = some S' ∧ S'.SysInv cfg ∧
      S'.current = S.current ∧ S'.rcuQueued = S.rcuQueued ∧
      (S'.thread t).flags.running = false ∧ (S'.thread t).blockBits = (S.thread t).blockBits := by
  refine ⟨_, addThreadToScheduler_snd self (h.queueInv _) hrun hq hex hcbs, ?_⟩
  split
  · exact ⟨h.enqueue hinit hcbs hrun hq ‹_›, by simp [hrun]⟩
  · -- with an invalid affinity the wakeup holds as it is
    exact ⟨h.of_awake fun _ _ hval => absurd hval ‹_›, rfl, rfl, hrun, rfl⟩

/-- `dequeue` of a queued thread keeps the invariant but the thread's wakeup. -/
theorem SysInv.dequeue (h : S.SysInv cfg) (hq : (S.thread t).flags.queued) :
    (S.dequeue t).SysInvOn cfg (· ≠ t) := by
  have ht := h.thread t
  have hon : S.OnCpu (S.thread t).affinity t := (ht.onCpu_iff _).2 ⟨hq, rfl⟩
  have hqa := h.queueInv (S.thread t).affinity
  refine (h.mono (q := (· ≠ t)) fun _ _ => trivial).local (t := t) (queueInv_dequeue hqa hon h.queueInv)
    (fun c u hu => by simp [onCpu_dequeue hqa hon, hu]) (fun u hu => by simp [hu])
    (fun _ _ => rfl) rfl (by simp) (.inr (by simp)) ?_ (fun hne => absurd rfl hne)
  exact
    { onCpu_iff := fun c => by
        rw [onCpu_dequeue hqa hon, ht.onCpu_iff]
        simp only [dequeue_thread, update_self, Bool.false_eq_true, false_and, iff_false]
        rintro ⟨⟨-, hc⟩, hne⟩
        exact hne (by simp [hc])
      affinity_lt := by simp
      running_iff := by simpa using ht.running_iff
      activeAffinity_eq := by simpa using ht.activeAffinity_eq
      schedulable := by simp
      init_of_queued := by simp
      init_of_running := by simpa using ht.init_of_running
      needRequeue := fun hnr => by simpa using (ht.needRequeue (by simpa using hnr)).1
      exited := by simpa using ht.exited
      rcu := by simpa using ht.rcu
      pinned := by simpa using ht.pinned
      yieldTo_init := fun y hy => by
        rw [dequeue_thread]
        exact flags_init_update id (ht.yieldTo_init y (by simpa using hy)) }

/-- `remove_thread_from_scheduler` of a thread that is queued when its affinity is valid: it ends
the thread's directed yield and takes it off its CPU's scheduler, and fails for a yielding thread
with an invalid affinity. -/
theorem SysInv.removeThreadFromScheduler [DecidableEq β] (h : S.SysInv cfg)
    (hq : (S.thread t).affinity < cfg.maxCores → (S.thread t).flags.queued) :
    S.removeThreadFromScheduler cfg t =
      if (S.thread t).affinity < cfg.maxCores then some ((S.endDirectedYield t).dequeue t)
      else if (S.sched t).yielding then none else some S :=
  removeThreadFromScheduler_eq (h.queueInv _)
    fun hval => ⟨hq hval, ((h.thread t).onCpu_iff _).2 ⟨hq hval, rfl⟩⟩

/-- Taking a queued thread off its CPU's scheduler after ending its directed yield keeps the
invariant but the thread's wakeup. -/
theorem SysInv.dequeueYield (h : S.SysInv cfg) (hq : (S.thread t).flags.queued) :
    ((S.endDirectedYield t).dequeue t).SysInvOn cfg (· ≠ t) :=
  SysInv.dequeue (h.endDirectedYield t) (by simpa using hq)

end Queue

/-! ## Blocking and unblocking -/

/-- A thread with an affinity change under way is not an idle thread. -/
theorem SysInvOn.not_isIdle {p : τ → Prop} {t : τ} (h : S.SysInvOn cfg p)
    (haff : (S.thread t).blockBits cfg.affinityChanged) : ¬cfg.IsIdle t := by
  rintro ⟨c, hc, rfl⟩
  simp [(h.idle c hc).not_affinityChanged] at haff

section Block

variable [DecidableEq τ] {t : τ}

/-- Queuing `t`'s RCU entry, or taking it off, keeps the invariant when a queued entry belongs to
a thread that exists, is not running and waits for its affinity change. -/
theorem SysInvOn.setRcuQueued {p : τ → Prop} (h : S.SysInvOn cfg p) (v : Bool)
    (hv : v → (S.thread t).blockBits cfg.affinityChanged ∧ (S.thread t).flags.running = false ∧
      (S.thread t).flags.init) :
    ({ S with rcuQueued := update S.rcuQueued t v } : System τ β).SysInvOn cfg p :=
  h.local (t := t) h.queueInv (fun _ _ _ => Iff.rfl) (fun _ _ => rfl) (fun u hu => by simp [hu])
    rfl id (.inr rfl) { h.thread t with rcu := by simpa using hv }
    fun hp => (h.awake t hp).congr rfl

/-- Marking a running thread that is not queued for a requeue: `resched_running_thread` returns,
and the invariant holds with the thread's wakeup. -/
theorem SysInvOn.markRequeue (h : S.SysInvOn cfg (· ≠ t)) (self : Nat)
    (hrun : (S.thread t).flags.running = true) (hq : (S.thread t).flags.queued = false) :
    (∃ r, (S.setFlags t { (S.thread t).flags with needRequeue := true }).reschedRunningThread cfg
      self t = some r) ∧ (S.setFlags t { (S.thread t).flags with needRequeue := true }).SysInv cfg := by
  have ht := h.thread t
  refine ⟨⟨_, reschedRunningThread_eq (by simpa using hrun) (by simp [hq])
    (by simpa using ht.activeAffinity_lt (by simpa using hrun))⟩, ?_⟩
  refine (h.setThread (ht.setThread { S.thread t with flags := { (S.thread t).flags with needRequeue := true } }
    rfl (fun _ => rfl) rfl (fun _ => rfl) id ht.schedulable (fun _ => ⟨hrun, hq⟩) ht.exited ht.rcu
    ht.pinned ht.yieldTo_init) (fun hne => absurd rfl hne) (.inr (by simp)) id).of_awake ?_
  simp [Awake]

/-- The wakeup that `scheduler_unblock`, `thread_killed` and `update_sched_params` share, of a
thread that can now be scheduled and is not queued: a running thread is marked for a requeue and
rescheduled, another goes on its CPU's scheduler. The invariant holds after it with the thread's
wakeup, and the thread stays as running as it was. -/
theorem SysInvOn.wake [DecidableEq β] (h : S.SysInvOn cfg (· ≠ t)) (self : Nat)
    (hinit : (S.thread t).flags.init) (hcbs : canBeScheduled cfg (S.thread t))
    (hq : (S.thread t).flags.queued = false) :
    ∃ S', (if (S.thread t).flags.running then
        ((S.setFlags t { (S.thread t).flags with needRequeue := true }).reschedRunningThread cfg self
          t).map fun _ => S.setFlags t { (S.thread t).flags with needRequeue := true }
      else (S.addThreadToScheduler cfg self t).map Prod.snd) = some S' ∧
      S'.SysInv cfg ∧ S'.current = S.current ∧ S'.rcuQueued = S.rcuQueued ∧
      (S'.thread t).flags.running = (S.thread t).flags.running := by
  cases hrun : (S.thread t).flags.running
  · obtain ⟨S', hadd, hS', hcur, hrcu, hrun', -⟩ := h.addThreadToScheduler self hinit hcbs hrun hq
      ((h.thread t).not_exited hcbs)
    exact ⟨S', by simpa using hadd, hS', hcur, hrcu, hrun'⟩
  · obtain ⟨⟨r, hres⟩, hS'⟩ := h.markRequeue self hrun hq
    exact ⟨_, by rw [if_pos rfl, hres]; rfl, hS', rfl, rfl, by simp [hrun]⟩

/-- `scheduler_block (thread, block)`: the invariant holds after it, and the thread keeps its
fields but the block flag set and, when it can no longer be scheduled, the queued flag cleared. -/
theorem SysInv.schedulerBlock [DecidableEq β] (h : S.SysInv cfg) (hidle : ¬cfg.IsIdle t) (b : β) :
    ∃ S', S.schedulerBlock cfg t b = some S' ∧ S'.SysInv cfg ∧ S'.current = S.current ∧
      S'.rcuQueued = S.rcuQueued ∧ ∃ q, S'.thread t =
        { S.thread t with
          blockBits := update (S.thread t).blockBits b true,
          flags := { (S.thread t).flags with queued := q } } := by
  have ht := h.thread t
  -- setting a flag keeps every flag that was set
  have hbits : ∀ b', (S.thread t).blockBits b' → update (S.thread t).blockBits b true b' := by
    intro b' hb'
    by_cases hb : b' = b <;> simp_all
  have hmono : canBeScheduled cfg { S.thread t with blockBits := update (S.thread t).blockBits b true } →
      canBeScheduled cfg (S.thread t) :=
    fun hc => canBeScheduled_mono hc (fun b' hb' => hbits b' hb') id
  by_cases hrm : (S.thread t).flags.queued ∧
      canBeScheduled cfg { S.thread t with blockBits := update (S.thread t).blockBits b true } = false
  · -- it can no longer be scheduled: it leaves its CPU's scheduler
    obtain ⟨hq, hnow⟩ := hrm
    have hrem : (S.setThread t { S.thread t with blockBits := update (S.thread t).blockBits b true
        }).removeThreadFromScheduler cfg t = _ := removeThreadFromScheduler_eq
      (by simpa using h.queueInv _) (fun _ => by simpa using ⟨hq, (ht.onCpu_iff _).2 ⟨hq, rfl⟩⟩)
    have hd := h.dequeueYield hq
    have hdt := hd.thread t
    refine ⟨_, ?_, (hd.setThread (hdt.setThread
      { S.thread t with
        blockBits := update (S.thread t).blockBits b true,
        flags := { (S.thread t).flags with queued := false } } (by simp) (fun _ => by simp) (by simp)
      (fun _ => by simp) (fun hi => by simpa using hi) (by simp) (by simpa using hdt.needRequeue)
      (fun he => by simpa using ⟨hbits _ (ht.exited he).1, (ht.exited he).2⟩)
      (fun hr => by simpa using ⟨hbits _ (ht.rcu hr).1, (ht.rcu hr).2⟩) ht.pinned
      (by simpa using hdt.yieldTo_init)) (fun hne => absurd rfl hne) (.inl hidle)
      (fun hi => by simpa using hi)).of_awake ?_,
      rfl, rfl, false, by simp⟩
    · simp only [System.schedulerBlock, hq, hnow, Bool.not_false, Bool.and_self, if_true, hrem,
        ht.affinity_lt hq, setThread_thread, update_self]
      rw [endDirectedYield_setThread, dequeue_setThread]
      rfl
    · intro _ hc _
      exact absurd hc (by simpa [canBeScheduled] using hnow)
  · -- it stays as it was but the flag
    refine ⟨_, by simp [System.schedulerBlock, hrm], (h.setThread (ht.setThread
      { S.thread t with blockBits := update (S.thread t).blockBits b true } rfl (fun _ => rfl) rfl
      (fun _ => rfl) id
      (fun hq => by simpa using not_and.1 hrm hq) ht.needRequeue
      (fun he => ⟨hbits _ (ht.exited he).1, (ht.exited he).2⟩)
      (fun hr => ⟨hbits _ (ht.rcu hr).1, (ht.rcu hr).2⟩) ht.pinned ht.yieldTo_init) (fun _ => ?_)
      (.inl hidle) id), rfl, rfl, (S.thread t).flags.queued, by simp⟩
    intro hinit hcbs hval
    simpa using h.awake t trivial (by simpa using hinit) (hmono (by simpa using hcbs))
      (by simpa using hval)

/-- `scheduler_unblock (thread, block)` of a thread that exists and is not an idle thread, for a
block whose flag the invariant does not need: the invariant holds after it, and the thread stays as
running as it was. -/
theorem SysInv.schedulerUnblock [DecidableEq β] (h : S.SysInv cfg) (self : Nat) {b : β}
    (hidle : ¬cfg.IsIdle t) (hinit : (S.thread t).flags.init)
    (hrcu : S.rcuQueued t → b ≠ cfg.affinityChanged)
    (hex : (S.thread t).flags.exited → b ≠ cfg.threadLifecycle) :
    ∃ S', (S.schedulerUnblock cfg self t b).map Prod.snd = some S' ∧ S'.SysInv cfg ∧
      S'.current = S.current ∧ S'.rcuQueued = S.rcuQueued ∧
      (S'.thread t).flags.running = (S.thread t).flags.running := by
  have ht := h.thread t
  -- clearing a flag keeps a schedulable thread schedulable, and the flags the invariant reads
  have hmono : canBeScheduled cfg (S.thread t) →
      canBeScheduled cfg { S.thread t with blockBits := update (S.thread t).blockBits b false } :=
    fun hc => canBeScheduled_mono hc (fun b' hb' => by by_cases hb : b' = b <;> simp_all) id
  have ht₁ := ht.setThread { S.thread t with blockBits := update (S.thread t).blockBits b false }
    rfl (fun _ => rfl) rfl (fun _ => rfl) id (fun hq => hmono (ht.schedulable hq)) ht.needRequeue
    (fun he => by simpa [Ne.symm (hex he)] using ht.exited he)
    (fun hr => by simpa [Ne.symm (hrcu hr)] using ht.rcu hr) ht.pinned ht.yieldTo_init
  have h₁ := (h.mono (q := (· ≠ t)) fun _ _ => trivial).setThread ht₁ (fun hne => absurd rfl hne)
    (.inl hidle) id
  set S₁ := S.setThread t { S.thread t with blockBits := update (S.thread t).blockBits b false }
    with hS₁
  by_cases hwake : canBeScheduled cfg (S.thread t) = false ∧
      canBeScheduled cfg { S.thread t with blockBits := update (S.thread t).blockBits b false } = true
  · obtain ⟨hwas, hnow⟩ := hwake
    -- a thread that could not be scheduled was not queued
    have hq : (S.thread t).flags.queued = false := by
      cases hq : (S.thread t).flags.queued
      · rfl
      · simp [ht.schedulable hq] at hwas
    obtain ⟨S', hw, hS', hcur, hrcu', hrun'⟩ := h₁.wake self (by simpa [hS₁] using hinit)
      (by simpa [hS₁] using hnow) (by simpa [hS₁] using hq)
    refine ⟨S', ?_, hS', by simpa [hS₁] using hcur, by simpa [hS₁] using hrcu',
      by simpa [hS₁] using hrun'⟩
    rw [← hw]
    cases hrun : (S.thread t).flags.running <;>
      simp [System.schedulerUnblock, hwas, hnow, hq, hrun, hS₁, Option.map_map, Function.comp_def]
  · -- the flag cleared leaves the thread as schedulable as it was, or still blocked
    refine ⟨_, by simp [System.schedulerUnblock, hwake, hS₁], h₁.of_awake fun hi hc hval => ?_,
      rfl, rfl, by simp [hS₁]⟩
    have hcbs : canBeScheduled cfg (S.thread t) = true := by
      by_contra hwas
      exact hwake ⟨by simpa using hwas, by simpa [hS₁] using hc⟩
    simpa [hS₁] using h.awake t trivial hinit hcbs (by simpa [hS₁] using hval)

/-- `start_affinity_changed_events (thread)` of a thread with an affinity change under way, that
exists, is not running and has no RCU entry queued: the invariant holds after it, and the thread
is still not running. -/
theorem SysInv.startAffinityChangedEvents [DecidableEq β] (h : S.SysInv cfg) (self : Nat)
    (needSync : Bool) (haff : (S.thread t).blockBits cfg.affinityChanged)
    (hinit : (S.thread t).flags.init) (hrun : (S.thread t).flags.running = false)
    (hrcu : S.rcuQueued t = false) :
    ∃ S', (S.startAffinityChangedEvents cfg self t needSync).map Prod.snd = some S' ∧
      S'.SysInv cfg ∧ S'.current = S.current ∧ (S'.thread t).flags.running = false := by
  cases needSync
  · -- the block is cleared at once
    obtain ⟨S', hun, hS', hcur, -, hrun'⟩ := h.schedulerUnblock self (h.not_isIdle haff) hinit
      (by simp [hrcu]) (fun _ => cfg.affinityChanged_ne_threadLifecycle)
    exact ⟨S', by simpa [System.startAffinityChangedEvents, haff] using hun, hS', hcur,
      hrun'.trans hrun⟩
  · -- the thread waits for an RCU grace period
    exact ⟨_, by simp [System.startAffinityChangedEvents, haff],
      h.setRcuQueued true fun _ => ⟨haff, hrun, hinit⟩, rfl, hrun⟩

/-- `scheduler_fprr_handle_affinity_change_update (entry)` of a thread whose RCU entry is queued:
the invariant holds after it. -/
theorem SysInv.affinityChangeUpdate [DecidableEq β] (h : S.SysInv cfg) (self : Nat)
    (hrcu : S.rcuQueued t) :
    ∃ S', (S.affinityChangeUpdate cfg self t).map Prod.snd = some S' ∧ S'.SysInv cfg := by
  obtain ⟨haff, -, hinit⟩ := (h.thread t).rcu hrcu
  obtain ⟨S', hun, hS', -⟩ := SysInv.schedulerUnblock
    (h.setRcuQueued (t := t) false fun hf => absurd hf (by simp)) self (h.not_isIdle haff) hinit
    (by simp) (fun _ => cfg.affinityChanged_ne_threadLifecycle)
  exact ⟨S', by simpa [System.affinityChangeUpdate, haff] using hun, hS'⟩

end Block

/-! ## Scheduling parameters and affinity -/

section Params

variable [DecidableEq τ] [DecidableEq β] {t : τ}

/-- What `update_sched_params` does once it has taken the thread off its CPU's scheduler: the new
parameters are set, and the thread goes back, or is marked for a requeue if it is running. -/
theorem SysInvOn.requeueParams (h : S.SysInvOn cfg (· ≠ t)) (self : Nat) (th : SchedThread)
    (hinit : (S.thread t).flags.init)
    (hcbs : canBeScheduled cfg (S.thread t)) (hq : (S.thread t).flags.queued = false) :
    ∃ S', (if ((S.setSched t th).thread t).flags.running then
        ((((S.setSched t th).setFlags t
          { ((S.setSched t th).thread t).flags with needRequeue := true }).reschedRunningThread cfg self
            t).map fun _ => (S.setSched t th).setFlags t
              { ((S.setSched t th).thread t).flags with needRequeue := true })
      else ((S.setSched t th).addThreadToScheduler cfg self t).map Prod.snd) = some S' ∧
      S'.SysInv cfg := by
  obtain ⟨S', hw, hS', -⟩ := (h.setSched (.inl hq)).wake self (by simpa using hinit)
    (by simpa using hcbs) (by simpa using hq)
  exact ⟨S', hw, hS'⟩

/-- `update_sched_params (thread, priority, timeslice)` of a thread that exists: the invariant
holds after it, unless the thread is yielding with an invalid affinity, when its removal from the
scheduler fails. -/
theorem SysInv.updateSchedParams (h : S.SysInv cfg) (self : Nat) (priority : Priority)
    (timeslice : Nat) (hinit : (S.thread t).flags.init) :
    ReturnsUnless cfg (S.updateSchedParams cfg self t priority timeslice)
      ((S.sched t).yielding ∧ ¬(S.thread t).affinity < cfg.maxCores) := by
  have ht := h.thread t
  by_cases hreq : canBeScheduled cfg (S.thread t) = true ∧ (S.thread t).flags.needRequeue = false
  · obtain ⟨hcbs, hnr⟩ := hreq
    -- a thread that can be scheduled and is not marked for a requeue is queued, when its
    -- affinity is valid, and is taken off its CPU's scheduler
    have hq : (S.thread t).affinity < cfg.maxCores → (S.thread t).flags.queued := fun hval =>
      (h.awake t trivial hinit hcbs hval).resolve_right (by simp [hnr])
    by_cases hval : (S.thread t).affinity < cfg.maxCores
    · -- the removal ends the thread's directed yield
      have hd := h.dequeueYield (hq hval)
      obtain ⟨S', hS'eq, hS'⟩ := hd.requeueParams self
        { (S.sched t) with yielding := false, priority := priority, baseTimeslice := timeslice }
        (by simpa using hinit) (by simpa using hcbs) (by simp)
      refine .inl ⟨S', ?_, hS'⟩
      rw [← hS'eq]
      simp [System.updateSchedParams, hcbs, hnr, h.removeThreadFromScheduler hq, hval]
    · -- with an invalid affinity the removal fails for a yielding thread, else does nothing
      by_cases hy : (S.sched t).yielding
      · exact .inr ⟨by simp [System.updateSchedParams, hcbs, hnr, h.removeThreadFromScheduler hq,
          hval, hy], hy, hval⟩
      have hqf : (S.thread t).flags.queued = false := by
        cases hqt : (S.thread t).flags.queued
        · rfl
        · exact absurd (ht.affinity_lt hqt) hval
      obtain ⟨S', hS'eq, hS'⟩ := (h.mono (q := (· ≠ t)) fun _ _ => trivial).requeueParams self
        { (S.sched t) with priority := priority, baseTimeslice := timeslice } hinit hcbs hqf
      refine .inl ⟨S', ?_, hS'⟩
      rw [← hS'eq]
      simp [System.updateSchedParams, hcbs, hnr, h.removeThreadFromScheduler hq, hval, hy]
  · -- a blocked thread, or one marked for a requeue, is not queued: only its parameters change
    have hqf : (S.thread t).flags.queued = false := by
      cases hqt : (S.thread t).flags.queued
      · rfl
      · rcases not_and_or.1 hreq with hc | hn
        · exact absurd (ht.schedulable hqt) hc
        · simpa [hqt] using (ht.needRequeue (by simpa using hn)).2
    refine .inl ⟨S.setSched t { S.sched t with priority := priority, baseTimeslice := timeslice },
      ?_, h.setSched (.inl hqf)⟩
    have hrq : (canBeScheduled cfg (S.thread t) && !(S.thread t).flags.needRequeue) = false := by
      rcases not_and_or.1 hreq with hc | hn
      · simp [hc]
      · simp [hn]
    simp [System.updateSchedParams, hrq]

/-- `scheduler_set_priority (thread, priority)` of a thread that exists: the invariant holds
after it, unless the thread is yielding with an invalid affinity. -/
theorem SysInv.schedulerSetPriority (h : S.SysInv cfg) (self : Nat) (priority : Nat)
    (hinit : (S.thread t).flags.init) :
    ReturnsUnless cfg ((S.schedulerSetPriority cfg self t priority).map Prod.snd)
      ((S.sched t).yielding ∧ ¬(S.thread t).affinity < cfg.maxCores) := by
  unfold System.schedulerSetPriority
  split
  · rename_i hlt
    split
    · simpa [Option.map_map, Function.comp_def] using
        h.updateSchedParams self ⟨priority, hlt⟩ (S.sched t).baseTimeslice hinit
    · exact .inl ⟨S, rfl, h⟩
  · exact .inl ⟨S, rfl, h⟩

/-- `scheduler_set_timeslice (thread, timeslice)` of a thread that exists: the invariant holds
after it. -/
theorem SysInv.schedulerSetTimeslice (h : S.SysInv cfg) (self : Nat) (timeslice : Nat)
    (hinit : (S.thread t).flags.init) :
    ReturnsUnless cfg ((S.schedulerSetTimeslice cfg self t timeslice).map Prod.snd)
      ((S.sched t).yielding ∧ ¬(S.thread t).affinity < cfg.maxCores) := by
  unfold System.schedulerSetTimeslice
  split
  · exact .inl ⟨S, rfl, h⟩
  · dsimp only
    split
    · simpa [Option.map_map, Function.comp_def] using
        h.updateSchedParams self (S.sched t).priority (cfg.convertNsToTicks timeslice) hinit
    · exact .inl ⟨S, rfl, h⟩

/-- `scheduler_set_affinity (thread, target_cpu)` of a thread that exists and is not an idle
thread: the invariant holds after it, whichever way the change completes. -/
theorem SysInv.schedulerSetAffinity (h : S.SysInv cfg) (self : Nat) (targetCpu : Nat)
    (prepare : Error) (needSync : Bool) (hidle : ¬cfg.IsIdle t) (hinit : (S.thread t).flags.init) :
    ∃ S', (S.schedulerSetAffinity cfg self t targetCpu prepare needSync).map Prod.snd = some S' ∧
      S'.SysInv cfg := by
  unfold System.schedulerSetAffinity
  dsimp only
  split
  · exact ⟨S, rfl, h⟩
  split
  · exact ⟨S, rfl, h⟩
  split
  · exact ⟨S, rfl, h⟩
  split
  · exact ⟨S, rfl, h⟩
  rename_i hnaff _
  -- the thread is blocked with `AFFINITY_CHANGED`, so it is off its CPU's scheduler
  obtain ⟨S₁, hblk, hS₁, hcur, hrcu, q, hth⟩ := h.schedulerBlock hidle cfg.affinityChanged
  have ht₁ := hS₁.thread t
  have haff : (S₁.thread t).blockBits cfg.affinityChanged := by simp [hth]
  have hcbs : canBeScheduled cfg (S₁.thread t) = false :=
    canBeScheduled_of_nonKillable haff cfg.affinityChanged_nonKillable
  have hq : (S₁.thread t).flags.queued = false := by
    cases hqt : (S₁.thread t).flags.queued
    · rfl
    · simpa [hcbs] using ht₁.schedulable hqt
  -- an RCU entry is queued only for a thread already blocked with `AFFINITY_CHANGED`
  have hrcu₁ : S₁.rcuQueued t = false := by
    cases hr : S.rcuQueued t
    · rw [hrcu, hr]
    · simpa using hnaff ((h.thread t).rcu hr).1
  -- the new affinity: the thread is on no CPU's scheduler, so none has to change
  have hS₂ := hS₁.setThread (t := t) (ht₁.setThread
    { S₁.thread t with prevAffinity := (S.thread t).affinity, affinity := targetCpu } rfl
    (fun hq' => absurd hq' (by simp [hq])) rfl (fun _ => rfl) id ht₁.schedulable ht₁.needRequeue ht₁.exited
    ht₁.rcu ht₁.pinned ht₁.yieldTo_init) (fun _ _ hc => absurd hc (by simp [hcbs])) (.inl hidle) id
  simp only [hblk, Option.bind_some]
  set S₂ := S₁.setThread t
    { S₁.thread t with prevAffinity := (S.thread t).affinity, affinity := targetCpu } with hS₂def
  have ht₂ := hS₂.thread t
  cases hrun : (S₂.thread t).flags.running
  · -- a thread that is not running starts its affinity-change events at once
    obtain ⟨S', hst, hS', -⟩ := SysInv.startAffinityChangedEvents hS₂ self needSync
      (by simpa [hS₂def] using haff) (by simpa [hS₂def, hth] using hinit) hrun
      (by simpa [hS₂def] using hrcu₁)
    exact ⟨S', by simpa using hst, hS'⟩
  · -- a running thread is rescheduled; its events start when it is switched out
    have hres : S₂.reschedRunningThread cfg self t = _ := reschedRunningThread_eq hrun
      (fun hq' => absurd hq' (by simp [hS₂def, hq])) (ht₂.activeAffinity_lt hrun)
    exact ⟨S₂, by simp [hres], hS₂⟩

end Params

/-! ## Killed and exited threads -/

section Exit

variable [DecidableEq τ] [DecidableEq β] {t : τ}

/-- `scheduler_fprr_handle_thread_killed (thread)` of a thread that exists: the invariant holds
after it, whether the kill wakes the thread or only reschedules it. -/
theorem SysInv.threadKilled (h : S.SysInv cfg) (self : Nat) (hinit : (S.thread t).flags.init) :
    ∃ S', (S.threadKilled cfg self t).map Prod.snd = some S' ∧ S'.SysInv cfg := by
  by_cases hex : (S.thread t).flags.exited
  · exact ⟨S, by simp [System.threadKilled, hex], h⟩
  have ht := h.thread t
  -- the killed flag only makes a thread more schedulable
  have hmono : canBeScheduled cfg (S.thread t) →
      canBeScheduled cfg { S.thread t with flags := { (S.thread t).flags with killed := true } } :=
    fun hc => canBeScheduled_mono hc (fun _ => id) (fun _ => rfl)
  have ht₁ := ht.setThread { S.thread t with flags := { (S.thread t).flags with killed := true } }
    rfl (fun _ => rfl) rfl (fun _ => rfl) id (fun hq => hmono (ht.schedulable hq)) ht.needRequeue
    (fun he => absurd he hex) ht.rcu ht.pinned ht.yieldTo_init
  have h₁ := (h.mono (q := (· ≠ t)) fun _ _ => trivial).setThread ht₁ (fun hne => absurd rfl hne)
    (.inr (by simp)) id
  set S₁ := S.setThread t { S.thread t with flags := { (S.thread t).flags with killed := true } }
    with hS₁
  by_cases hwake : canBeScheduled cfg (S.thread t) = false ∧
      canBeScheduled cfg { S.thread t with flags := { (S.thread t).flags with killed := true } }
  · obtain ⟨hwas, hnow⟩ := hwake
    have hq : (S.thread t).flags.queued = false := by
      cases hq : (S.thread t).flags.queued
      · rfl
      · simp [ht.schedulable hq] at hwas
    obtain ⟨S', hw, hS', -⟩ := h₁.wake self (by simpa [hS₁] using hinit)
      (by simpa [hS₁] using hnow) (by simpa [hS₁] using hq)
    refine ⟨S', ?_, hS'⟩
    rw [← hw, System.threadKilled, if_neg hex]
    dsimp only at hnow ⊢
    rw [if_pos (by simp [hwas, hnow])]
    cases hrun : (S.thread t).flags.running <;>
      simp [hq, hrun, hS₁, Option.map_map, Function.comp_def]
  · -- the thread was schedulable already, or is still blocked: only a running thread is
    -- rescheduled
    have h₂ : S₁.SysInv cfg := h₁.of_awake fun hi hc hval => by
      have hcbs : canBeScheduled cfg (S.thread t) = true := by
        by_contra hwas
        exact hwake ⟨by simpa using hwas, by simpa [hS₁] using hc⟩
      simpa [hS₁] using h.awake t trivial hinit hcbs (by simpa [hS₁] using hval)
    have hred : S.threadKilled cfg self t = if (S.thread t).flags.running then
        (S₁.reschedRunningThread cfg self t).map fun _ => (false, S₁) else some (false, S₁) := by
      rw [System.threadKilled, if_neg hex]
      dsimp only
      rw [if_neg (by simpa using hwake)]
    cases hrun : (S.thread t).flags.running
    · exact ⟨S₁, by simp [hred, hrun], h₂⟩
    · have hres : S₁.reschedRunningThread cfg self t = _ := reschedRunningThread_eq
        (by simpa [hS₁] using hrun) (fun _ => by simp [hS₁])
        ((h₂.thread t).activeAffinity_lt (by simpa [hS₁] using hrun))
      exact ⟨S₁, by rw [hred, if_pos hrun, hres]; rfl, h₂⟩

omit [DecidableEq β] in
/-- Clearing the killed flag of a thread that is not queued keeps the invariant but its wakeup. -/
theorem SysInvOn.clearKilled (h : S.SysInvOn cfg (· ≠ t)) (hq : (S.thread t).flags.queued = false) :
    (S.setFlags t { (S.thread t).flags with killed := false }).SysInvOn cfg (· ≠ t) := by
  have ht := h.thread t
  rw [setFlags_eq]
  exact h.setThread (ht.setThread _ rfl (fun _ => rfl) rfl (fun _ => rfl) id (fun hq' => absurd hq' (by simp [hq]))
    ht.needRequeue (fun he => ⟨(ht.exited he).1, rfl⟩) ht.rcu ht.pinned ht.yieldTo_init)
    (fun hne => absurd rfl hne) (.inr (by simp)) id

omit [DecidableEq β] in
/-- Marking a thread exited that is blocked with `THREAD_LIFECYCLE`, not killed and not queued
restores the invariant: an exited thread cannot be scheduled, so it needs no wakeup. -/
theorem SysInvOn.markExited (h : S.SysInvOn cfg (· ≠ t)) (hidle : ¬cfg.IsIdle t)
    (hlife : (S.thread t).blockBits cfg.threadLifecycle) (hk : (S.thread t).flags.killed = false)
    (hq : (S.thread t).flags.queued = false) :
    (S.setFlags t { (S.thread t).flags with exited := true }).SysInv cfg := by
  have ht := h.thread t
  rw [setFlags_eq]
  refine (h.setThread (ht.setThread { S.thread t with flags := { (S.thread t).flags with exited := true } }
    rfl (fun _ => rfl) rfl (fun _ => rfl) id (fun hq' => absurd hq' (by simp [hq])) ht.needRequeue
    (fun _ => ⟨hlife, hk⟩) ht.rcu ht.pinned ht.yieldTo_init)
    (fun hne => absurd rfl hne) (.inl hidle) id).of_awake ?_
  intro _ hc _
  exact absurd hc (by simpa using (canBeScheduled_of_not_killed hlife hk : canBeScheduled cfg _ = false))

/-- `scheduler_fprr_handle_thread_exited ()` on CPU `self` for its current thread, blocked with
`THREAD_LIFECYCLE` and not an idle thread: it returns, and the invariant holds after it. -/
theorem SysInv.threadExited (h : S.SysInv cfg) {self : Nat} (hself : self < cfg.maxCores)
    (hidle : ¬cfg.IsIdle (S.current self))
    (hlife : (S.thread (S.current self)).blockBits cfg.threadLifecycle) :
    ∃ S', S.threadExited cfg self = some S' ∧ S'.SysInv cfg := by
  set t := S.current self with hcur
  have ht := h.thread t
  have hrun : (S.thread t).flags.running := ht.running_iff.2 ⟨self, hself, rfl⟩
  by_cases hk : (S.thread t).flags.killed
  · by_cases hq : (S.thread t).flags.queued
    · -- a queued killed thread leaves its CPU's scheduler first
      have hd := (h.dequeueYield hq).clearKilled (by simp)
      refine ⟨_, ?_, hd.markExited (by simpa using hidle) (by simpa using hlife) (by simp)
        (by simp)⟩
      simp [System.threadExited, ← hcur, hlife, hrun, hk, hq,
        h.removeThreadFromScheduler (fun _ => hq), ht.affinity_lt hq,
        canBeScheduled_of_not_killed (b := cfg.threadLifecycle)]
    · have hq' : (S.thread t).flags.queued = false := by simpa using hq
      have hc := (h.mono (q := (· ≠ t)) fun _ _ => trivial).clearKilled hq'
      refine ⟨_, ?_, hc.markExited (by simpa using hidle) (by simpa using hlife) (by simp)
        (by simpa using hq')⟩
      simp [System.threadExited, ← hcur, hlife, hrun, hk, hq',
        canBeScheduled_of_not_killed (b := cfg.threadLifecycle)]
  · -- a thread that is not killed and blocked cannot be scheduled, so it is not queued
    have hk' : (S.thread t).flags.killed = false := by simpa using hk
    have hb : canBeScheduled cfg (S.thread t) = false := canBeScheduled_of_not_killed hlife hk'
    have hq : (S.thread t).flags.queued = false := by
      cases hq : (S.thread t).flags.queued
      · rfl
      · simpa [hb] using ht.schedulable hq
    refine ⟨_, ?_, (h.mono (q := (· ≠ t)) fun _ _ => trivial).markExited hidle hlife hk' hq⟩
    simp [System.threadExited, ← hcur, hlife, hrun, hk', hq, hb]

end Exit

end System

end Gunyah.Scheduler

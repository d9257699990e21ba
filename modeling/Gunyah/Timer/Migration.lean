import Gunyah.Timer.Queue

set_option autoImplicit false

/-!
# Expiry, CPU power changes, and runs of the timer queues

A model of the rest of `hyp/core/timer/src/timer_queue.c`: `timer_dequeue_expired`, which the
platform timer's interrupt and the queue-sync IPI run; `timer_handle_power_cpu_online`; and
`timer_handle_power_cpu_offline`, which moves every timer of a CPU going down to another CPU with
`timer_try_move_to_cpu`. `timer_handle_boot_cold_init` gives the first state.

The loops of the code run until a condition on the queue's cached timeout fails. The model gives
each one fuel of one more than the length of the queue it empties; each turn takes one timer off
that queue, so the fuel is enough when the invariant holds (`dequeueExpiredLoop_isSome`,
`offlineLoop_isSome`). The search for a target CPU tries the CPUs in turn from the last one used,
skipping the CPU going down, and stops when it comes back to where it started; given an online
CPU other than the one going down, it finds one (`findTarget_found`).

The results: every state a run of calls reaches keeps `TimerInv`, and every queued timer is on an
online CPU's queue (`runTimerCalls_inv`); expiry takes off exactly the timers due, in timeout order
(`timerDequeueExpired_spec`); going offline moves every timer, its timeout unchanged, to an online
CPU (`timerHandlePowerCpuOffline_spec`). The action a fired timer triggers is not modelled: the
model returns the fired timers in order.
-/

namespace Gunyah.Timer

open LinkedList Function

variable {T : Type} [DecidableEq T] {n : Nat}

/-! ## The model -/

/-- The loop of `timer_dequeue_expired` on CPU `c`, with `fuel` turns: while the cached timeout
has passed, dequeue the head and fire it. The head of an empty list is `NULL`. -/
def dequeueExpiredLoop (c : Fin n) (now : Nat) :
    Nat → TimerState T n → Option (TimerState T n × List T)
  | 0, _ => none
  | fuel + 1, s =>
    if (s.queues c).timeout ≤ now then
      match (s.queues c).list.head? with
      | none => none
      | some x =>
        match s.timerDequeueInternal c x with
        | none => none
        | some (s, _) => (dequeueExpiredLoop c now fuel s).map fun r => (r.1, x :: r.2)
    else some (s, [])

namespace TimerState

variable (s : TimerState T n)

/-- `timer_dequeue_expired` on CPU `c` at `current_ticks = now`: the state, and the timers fired
in order. -/
def timerDequeueExpired (c : Fin n) (now : Nat) : Option (TimerState T n × List T) :=
  dequeueExpiredLoop c now ((s.queues c).list.length + 1) s

/-- `timer_handle_power_cpu_online` on CPU `c`. -/
def timerHandlePowerCpuOnline (c : Fin n) (now : Nat) : Option (TimerState T n) :=
  (s.timerDequeueExpired c now).map fun r => r.1.setQueue c { r.1.queues c with online := true }

/-- `timer_try_move_to_cpu (timer, target)`: the state, and whether the timer moved. -/
def timerTryMoveToCpu (x : T) (target : Fin n) : Option (TimerState T n × Bool) :=
  if (s.queues target).online then
    -- the compare-exchange of `timer->queue` from `NULL` fails: `panic`
    if (s.queue x).isSome then none
    else
      let s := { s with queue := update s.queue x (some target) }
      let r := s.insertTimer target x
      if r.2 then some (r.1.setQueue target { r.1.queues target with timeout := r.1.timeout x }, true)
      else some (r.1, true)
  else some (s, false)

end TimerState

/-- `(target + 1U) % PLATFORM_MAX_CORES`. -/
def nextCpu (t : Fin n) : Fin n := ⟨(t.val + 1) % n, Nat.mod_lt _ t.pos⟩

/-- The search of `timer_handle_power_cpu_offline` for a CPU to move timer `x` to, at `target`
with `fuel` tries left: the CPU found, if any, and the state. -/
def findTarget (cpuExists : Fin n → Bool) (ourIndex start : Fin n) (x : T) :
    Nat → Fin n → TimerState T n → Option (Option (Fin n) × TimerState T n)
  | 0, _, _ => none
  | fuel + 1, target, s =>
    let tried := if cpuExists target then s.timerTryMoveToCpu x target else some (s, false)
    match tried with
    | none => none
    | some (s, true) => some (some target, s)
    | some (s, false) =>
      -- skip our CPU; back at the start, no CPU was found
      let target := nextCpu target
      let target := if target = ourIndex then nextCpu target else target
      if target = start then some (none, s)
      else findTarget cpuExists ourIndex start x fuel target s

/-- The loop of `timer_handle_power_cpu_offline` on CPU `ourIndex`, with `fuel` turns: while the
queue has a timer, dequeue its head and move it, searching from `start`, the CPU last moved to. A
failed search panics. -/
def offlineLoop (cpuExists : Fin n → Bool) (ourIndex : Fin n) :
    Nat → Fin n → TimerState T n → Option (TimerState T n)
  | 0, _, _ => none
  | fuel + 1, start, s =>
    if (s.queues ourIndex).timeout ≠ timerInvalidTimeout then
      match (s.queues ourIndex).list.head? with
      | none => none
      | some x =>
        match s.timerDequeueInternal ourIndex x with
        | none => none
        | some (s, _) =>
          match findTarget cpuExists ourIndex start x n start s with
          | some (some target, s) => offlineLoop cpuExists ourIndex fuel target s
          | _ => none
    else some s

namespace TimerState

variable (s : TimerState T n)

/-- `timer_handle_power_cpu_offline` on CPU `ourIndex`. -/
def timerHandlePowerCpuOffline (cpuExists : Fin n → Bool) (ourIndex : Fin n) :
    Option (TimerState T n) :=
  let start := nextCpu ourIndex
  let s := s.setQueue ourIndex { s.queues ourIndex with online := false }
  offlineLoop cpuExists ourIndex ((s.queues ourIndex).list.length + 1) start s

end TimerState

/-- `timer_handle_boot_cold_init (boot_cpu_index)`, with every timer as `timer_init_object`
leaves it. -/
def timerHandleBootColdInit (bootCpuIndex : Fin n) : TimerState T n :=
  ⟨fun _ => timerInvalidTimeout, fun _ => none,
    fun c => ⟨timerInvalidTimeout, [], decide (c = bootCpuIndex)⟩, fun _ => 0, 0⟩

/-- The calls into the timer queues, each on the CPU that runs it. `platformTimerExpiry` is
`timer_handle_platform_timer_expiry`, and also `timer_handle_ipi_received`, which does the same. -/
inductive TimerCall (T : Type) (n : Nat) where
  | enqueue (cpu : Fin n) (timer : T) (timeout : Nat)
  | dequeue (timer : T)
  | update (cpu : Fin n) (timer : T) (timeout : Nat)
  | platformTimerExpiry (cpu : Fin n) (now : Nat)
  | powerCpuOnline (cpu : Fin n) (now : Nat)
  | powerCpuOffline (cpu : Fin n)

/-- A call's effect. -/
def TimerCall.run (cpuExists : Fin n → Bool) (s : TimerState T n) :
    TimerCall T n → Option (TimerState T n)
  | .enqueue c x t => s.timerEnqueue c x t
  | .dequeue x => s.timerDequeue x
  | .update c x t => s.timerUpdate c x t
  | .platformTimerExpiry c now => (s.timerDequeueExpired c now).map Prod.fst
  | .powerCpuOnline c now => s.timerHandlePowerCpuOnline c now
  | .powerCpuOffline c => s.timerHandlePowerCpuOffline cpuExists c

/-- A sequence of calls, stopping at the first that crashes. -/
def runTimerCalls (cpuExists : Fin n → Bool) : TimerState T n → List (TimerCall T n) →
    Option (TimerState T n)
  | s, [] => some s
  | s, call :: calls => (call.run cpuExists s).bind fun s => runTimerCalls cpuExists s calls

/-- A call whose timeout is not `TIMER_INVALID_TIMEOUT`. -/
def TimerCall.ValidTimeout : TimerCall T n → Prop
  | .enqueue _ _ t => t ≠ timerInvalidTimeout
  | .update _ _ t => t ≠ timerInvalidTimeout
  | _ => True

instance (call : TimerCall T n) : Decidable call.ValidTimeout :=
  match call with
  | .enqueue _ _ t => inferInstanceAs (Decidable (t ≠ timerInvalidTimeout))
  | .update _ _ t => inferInstanceAs (Decidable (t ≠ timerInvalidTimeout))
  | .dequeue _ => isTrue trivial
  | .platformTimerExpiry _ _ => isTrue trivial
  | .powerCpuOnline _ _ => isTrue trivial
  | .powerCpuOffline _ => isTrue trivial

/-! ## The first state and online flags -/

/-- Every queued timer is on an online CPU's queue. -/
def OnOnline (s : TimerState T n) : Prop :=
  ∀ x c, x ∈ (s.queues c).list → (s.queues c).online = true

omit [DecidableEq T] in
theorem timerInv_init (b : Fin n) : TimerInv (timerHandleBootColdInit b : TimerState T n) where
  sorted _ := List.Pairwise.nil
  timeout_eq _ := rfl
  queue_iff x c := by simp [timerHandleBootColdInit]
  valid x c hx := absurd hx List.not_mem_nil
  stamp_lt x c hx := absurd hx List.not_mem_nil

omit [DecidableEq T] in
theorem onOnline_init (b : Fin n) : OnOnline (timerHandleBootColdInit b : TimerState T n) :=
  fun _ _ hx => absurd hx List.not_mem_nil

namespace TimerInv

variable {s : TimerState T n}

omit [DecidableEq T] in
/-- Setting a CPU's online flag keeps the invariant, which does not read it. -/
theorem setOnline (h : TimerInv s) (c : Fin n) (b : Bool) :
    TimerInv (s.setQueue c { s.queues c with online := b }) := by
  have hq : ∀ d, ((s.setQueue c { s.queues c with online := b }).queues d).list = (s.queues d).list ∧
      ((s.setQueue c { s.queues c with online := b }).queues d).timeout = (s.queues d).timeout := by
    intro d
    by_cases hd : d = c
    · subst hd
      simp
    · simp [hd]
  constructor
  · intro d
    rw [(hq d).1]
    exact h.sorted d
  · intro d
    rw [(hq d).1, (hq d).2]
    exact h.timeout_eq d
  · intro x d
    rw [(hq d).1]
    exact h.queue_iff x d
  · intro x d
    rw [(hq d).1]
    exact h.valid x d
  · intro x d
    rw [(hq d).1]
    exact h.stamp_lt x d

/-- Moving a timer that is on no queue to CPU `d`'s queue keeps the invariant. -/
theorem move (h : TimerInv s) {x : T} (hx : s.queue x = none) (hvalid : s.timeout x ≠ timerInvalidTimeout)
    (d : Fin n) : TimerInv (TimerState.link { s with queue := update s.queue x (some d) } d x) := by
  have hinv := h.enqueue (c := d) hx hvalid
  rwa [update_eq_self] at hinv

end TimerInv

/-! ## Expiry -/

/-- `s'` is `s` with the timers `xs` taken off the front of CPU `c`'s queue. -/
structure Drained (s s' : TimerState T n) (c : Fin n) (xs : List T) : Prop where
  inv : TimerInv s'
  list_eq : (s.queues c).list = xs ++ (s'.queues c).list
  queue_of_mem : ∀ x ∈ xs, s'.queue x = none
  queue_of_not_mem : ∀ x, x ∉ xs → s'.queue x = s.queue x
  timeout_eq : s'.timeout = s.timeout
  other : ∀ d, d ≠ c → (s'.queues d).list = (s.queues d).list
  online : ∀ d, (s'.queues d).online = (s.queues d).online

namespace Drained

variable {s s' : TimerState T n} {c : Fin n}

omit [DecidableEq T] in
theorem refl (h : TimerInv s) (c : Fin n) : Drained s s c [] :=
  ⟨h, rfl, fun _ hx => absurd hx List.not_mem_nil, fun _ _ => rfl, rfl, fun _ _ => rfl, fun _ => rfl⟩

/-- Dequeueing the head, then draining the rest of a prefix, drains the whole prefix. -/
theorem cons (h : TimerInv s) {x : T} (hhead : (s.queues c).list.head? = some x) {xs : List T}
    (hd : Drained { s.unlink c x with queue := update s.queue x none } s' c xs) :
    Drained s s' c (x :: xs) := by
  obtain ⟨rest, hl⟩ := List.head?_eq_some_iff.1 hhead
  have hx : s.queue x = some c := (h.queue_iff x c).2 (hl ▸ List.mem_cons_self)
  -- after the head is taken off, the queue is the rest
  have hrest : rest = xs ++ (s'.queues c).list := by
    have := hd.list_eq
    rwa [TimerState.unlink_list, hl, List.erase_cons_head] at this
  have hxs : x ∉ xs := fun hmem => by
    have hnd := h.nodup c
    rw [hl, List.nodup_cons, hrest] at hnd
    exact hnd.1 (List.mem_append_left _ hmem)
  refine ⟨hd.inv, ?_, ?_, ?_, hd.timeout_eq, ?_, ?_⟩
  · rw [hl, hrest, List.cons_append]
  · intro y hy
    rcases List.mem_cons.1 hy with rfl | hy
    · rw [hd.queue_of_not_mem y hxs]
      exact update_self y none s.queue
    · exact hd.queue_of_mem y hy
  · intro y hy
    have hyx : y ≠ x := fun e => hy (e ▸ List.mem_cons_self)
    rw [hd.queue_of_not_mem y fun hmem => hy (List.mem_cons_of_mem x hmem)]
    exact update_of_ne hyx _ _
  · intro d hdc
    rw [hd.other d hdc, TimerState.unlink_queues_of_ne _ _ _ hdc]
  · intro d
    rw [hd.online d]
    exact TimerState.unlink_online _ _ _ _

end Drained

/-- A run of the expiry loop takes off the prefix of timers whose timeout has passed. -/
theorem dequeueExpiredLoop_inv {c : Fin n} {now : Nat} : ∀ (fuel : Nat) {s s' : TimerState T n}
    {fired : List T}, TimerInv s → dequeueExpiredLoop c now fuel s = some (s', fired) →
    Drained s s' c fired ∧ fired = (s.queues c).list.takeWhile fun x => decide (s.timeout x ≤ now)
  | 0, _, _, _, _, hloop => by simp [dequeueExpiredLoop] at hloop
  | fuel + 1, s, s', fired, h, hloop => by
    unfold dequeueExpiredLoop at hloop
    split_ifs at hloop with hdue
    · cases hhead : (s.queues c).list.head? with
      | none =>
        rw [hhead] at hloop
        cases hloop
      | some x =>
        rw [hhead] at hloop
        dsimp only at hloop
        obtain ⟨rest, hl⟩ := List.head?_eq_some_iff.1 hhead
        have hx : s.queue x = some c := (h.queue_iff x c).2 (hl ▸ List.mem_cons_self)
        obtain ⟨b, hdeq⟩ := TimerState.timerDequeueInternal_eq h hx
        rw [hdeq] at hloop
        dsimp only at hloop
        obtain ⟨⟨s₂, fired'⟩, hrec, hr⟩ := Option.map_eq_some_iff.1 hloop
        cases hr
        obtain ⟨hdr, hfired⟩ := dequeueExpiredLoop_inv fuel (h.dequeue hx) hrec
        refine ⟨Drained.cons h hhead hdr, ?_⟩
        -- the head is due: the cached timeout is its timeout
        have hxle : s.timeout x ≤ now := by
          rwa [h.timeout_eq c, headTimeout_of_head? hhead] at hdue
        rw [hfired, hl, List.takeWhile_cons_of_pos (by simpa using hxle)]
        have hrest : (({ s.unlink c x with queue := update s.queue x none } : TimerState T n).queues c).list =
            rest := by
          simp [hl]
        rw [hrest]
        rfl
    · cases hloop
      refine ⟨Drained.refl h c, ?_⟩
      cases hl : (s.queues c).list with
      | nil => rfl
      | cons y l =>
        rw [h.timeout_eq c, hl, headTimeout_cons] at hdue
        rw [List.takeWhile_cons_of_neg (by simpa using hdue)]

/-- Given a turn for each queued timer and one more, the expiry loop ends. Before
`TIMER_INVALID_TIMEOUT` has passed, the cached timeout of an empty queue stops it. -/
theorem dequeueExpiredLoop_isSome {c : Fin n} {now : Nat} (hnow : now < timerInvalidTimeout) :
    ∀ (fuel : Nat) {s : TimerState T n}, TimerInv s → (s.queues c).list.length < fuel →
      (dequeueExpiredLoop c now fuel s).isSome
  | 0, _, _, hlen => absurd hlen (Nat.not_lt_zero _)
  | fuel + 1, s, h, hlen => by
    unfold dequeueExpiredLoop
    split_ifs with hdue
    · cases hl : (s.queues c).list with
      | nil =>
        rw [h.timeout_eq c, hl, headTimeout_nil] at hdue
        exact absurd hdue (Nat.not_le_of_lt hnow)
      | cons x rest =>
        have hhead : (s.queues c).list.head? = some x := by rw [hl]; rfl
        have hx : s.queue x = some c := (h.queue_iff x c).2 (hl ▸ List.mem_cons_self)
        obtain ⟨b, hdeq⟩ := TimerState.timerDequeueInternal_eq h hx
        dsimp only [List.head?_cons]
        rw [hdeq]
        dsimp only
        rw [Option.isSome_map]
        apply dequeueExpiredLoop_isSome hnow fuel (h.dequeue hx)
        rw [TimerState.unlink_list, hl, List.erase_cons_head]
        rw [hl, List.length_cons] at hlen
        exact Nat.lt_of_succ_lt_succ hlen
    · rfl

/-! ## Moving a timer -/

namespace TimerState

variable {s : TimerState T n} {d : Fin n} {x : T}

/-- Moving a timer that is on no queue to an online CPU links it there. -/
theorem timerTryMoveToCpu_eq (h : TimerInv s) (hon : (s.queues d).online = true)
    (hx : s.queue x = none) :
    s.timerTryMoveToCpu x d = some (link { s with queue := update s.queue x (some d) } d x, true) := by
  have key := insertTimer_cache_eq_link { s with queue := update s.queue x (some d) } d x
    (t := s.timeout x) rfl (h.timeout_eq d)
  unfold timerTryMoveToCpu
  rw [if_pos hon, if_neg (by simp [hx])]
  dsimp only
  split_ifs at key ⊢
  · exact congrArg (fun st => some (st, true)) (Option.some.inj key)
  · exact congrArg (fun st => some (st, true)) (Option.some.inj key)

theorem timerTryMoveToCpu_of_offline (hoff : (s.queues d).online = false) :
    s.timerTryMoveToCpu x d = some (s, false) := by
  unfold timerTryMoveToCpu
  rw [if_neg (by simp [hoff])]

end TimerState

/-! ## The search for a target CPU -/

/-- The CPU `j` places after `start`, counting round. -/
def cpuAt (start : Fin n) (j : Nat) : Fin n := ⟨(start.val + j) % n, Nat.mod_lt _ start.pos⟩

section CpuAt

omit [DecidableEq T]

variable {start : Fin n}

theorem cpuAt_zero : cpuAt start 0 = start :=
  Fin.ext (Nat.mod_eq_of_lt start.isLt)

theorem nextCpu_cpuAt (j : Nat) : nextCpu (cpuAt start j) = cpuAt start (j + 1) :=
  Fin.ext (by simp only [nextCpu, cpuAt, Nat.mod_add_mod, Nat.add_assoc])

/-- Less than a full round from `start` is not `start`. -/
theorem cpuAt_ne_start {j : Nat} (hj : 0 < j) (hjn : j < n) : cpuAt start j ≠ start := by
  intro he
  have hval : (start.val + j) % n = start.val := congrArg Fin.val he
  have hs := start.isLt
  by_cases hlt : start.val + j < n
  · rw [Nat.mod_eq_of_lt hlt] at hval
    omega
  · rw [Nat.mod_eq_sub_mod (by omega), Nat.mod_eq_of_lt (by omega)] at hval
    omega

/-- Every CPU is some number of places after `start`. -/
theorem cpuAt_sub (d : Fin n) : cpuAt start ((d.val + n - start.val) % n) = d := by
  have hs := start.isLt
  apply Fin.ext
  simp only [cpuAt]
  rw [Nat.add_mod_mod, show start.val + (d.val + n - start.val) = d.val + n by omega,
    Nat.add_mod_right, Nat.mod_eq_of_lt d.isLt]

theorem nextCpu_ne_self (hn : 2 ≤ n) (c : Fin n) : nextCpu c ≠ c := by
  intro he
  have hval : (c.val + 1) % n = c.val := congrArg Fin.val he
  have hc := c.isLt
  by_cases hlt : c.val + 1 < n
  · rw [Nat.mod_eq_of_lt hlt] at hval
    omega
  · rw [show c.val + 1 = n by omega, Nat.mod_self] at hval
    omega

theorem two_le_of_ne {c d : Fin n} (h : d ≠ c) : 2 ≤ n := by
  have hval : d.val ≠ c.val := fun e => h (Fin.ext e)
  have := d.isLt
  have := c.isLt
  omega

end CpuAt

section FindTarget

variable {cpuExists : Fin n → Bool} {c start : Fin n} {x : T} {s : TimerState T n}

/-- A search that finds a CPU moved the timer to it, and the CPU is online. -/
theorem findTarget_inv (h : TimerInv s) (hx : s.queue x = none) :
    ∀ (fuel : Nat) (target : Fin n) {d : Fin n} {s₂ : TimerState T n},
      findTarget cpuExists c start x fuel target s = some (some d, s₂) →
      (s.queues d).online = true ∧ s₂ = TimerState.link { s with queue := update s.queue x (some d) } d x
  | 0, _, _, _, hf => by simp [findTarget] at hf
  | fuel + 1, target, d, s₂, hf => by
    -- a try that fails leaves the state as it was
    have hcont : ∀ (hfail : (if cpuExists target then s.timerTryMoveToCpu x target
        else some (s, false)) = some (s, false)),
        (s.queues d).online = true ∧ s₂ = TimerState.link { s with queue := update s.queue x (some d) } d x := by
      intro hfail
      unfold findTarget at hf
      rw [hfail] at hf
      dsimp only at hf
      split_ifs at hf
      all_goals first
        | exact absurd hf (by simp)
        | exact findTarget_inv h hx fuel _ hf
    by_cases hex : cpuExists target = true
    · by_cases hon : (s.queues target).online = true
      · unfold findTarget at hf
        rw [if_pos hex, TimerState.timerTryMoveToCpu_eq h hon hx] at hf
        cases hf
        exact ⟨hon, rfl⟩
      · exact hcont (by rw [if_pos hex, TimerState.timerTryMoveToCpu_of_offline (by simpa using hon)])
    · exact hcont (by rw [if_neg hex])

/-- From `cpuAt start j`, with enough tries, the search finds a CPU when an existing online CPU
other than ours comes later in the round. The induction is on the tries; each failed try moves
one or, skipping our CPU, two places on. -/
theorem findTarget_found_from (h : TimerInv s) (hx : s.queue x = none) (hn : 2 ≤ n) :
    ∀ (fuel j : Nat), j < n → n ≤ fuel + j → cpuAt start j ≠ c →
      (∃ i, j ≤ i ∧ i < n ∧ cpuAt start i ≠ c ∧ cpuExists (cpuAt start i) = true ∧
        (s.queues (cpuAt start i)).online = true) →
      ∃ d s₂, findTarget cpuExists c start x fuel (cpuAt start j) s = some (some d, s₂)
  | 0, j, hj, hfuel, _, _ => absurd hfuel (by omega)
  | fuel + 1, j, hj, hfuel, hjc, ⟨i, hji, hin, hic, hiex, hion⟩ => by
    by_cases hok : cpuExists (cpuAt start j) = true ∧ (s.queues (cpuAt start j)).online = true
    · refine ⟨cpuAt start j,
        TimerState.link { s with queue := update s.queue x (some (cpuAt start j)) } (cpuAt start j) x, ?_⟩
      unfold findTarget
      rw [if_pos hok.1, TimerState.timerTryMoveToCpu_eq h hok.2 hx]
    · -- this CPU fails, so the good one is further on
      have hji' : j < i := Nat.lt_of_le_of_ne hji fun e => hok (e ▸ ⟨hiex, hion⟩)
      have hfail : (if cpuExists (cpuAt start j) then s.timerTryMoveToCpu x (cpuAt start j)
          else some (s, false)) = some (s, false) := by
        by_cases hex : cpuExists (cpuAt start j) = true
        · rw [if_pos hex, TimerState.timerTryMoveToCpu_of_offline (by simpa [hex] using hok)]
        · rw [if_neg hex]
      unfold findTarget
      rw [hfail]
      dsimp only
      rw [nextCpu_cpuAt]
      by_cases h1 : cpuAt start (j + 1) = c
      · -- the next CPU is ours: skip it
        have hi2 : j + 2 ≤ i := by
          rcases Nat.lt_or_ge (j + 1) i with hlt | hge
          · exact hlt
          · exact absurd (show i = j + 1 by omega ▸ h1) hic
        have h2c : cpuAt start (j + 1 + 1) ≠ c := by
          rw [← nextCpu_cpuAt, h1]
          exact nextCpu_ne_self hn c
        rw [if_pos h1, nextCpu_cpuAt, if_neg (cpuAt_ne_start (by omega) (by omega))]
        exact findTarget_found_from h hx hn fuel (j + 1 + 1) (by omega) (by omega) h2c
          ⟨i, hi2, hin, hic, hiex, hion⟩
      · rw [if_neg h1, if_neg (cpuAt_ne_start (by omega) (by omega))]
        exact findTarget_found_from h hx hn fuel (j + 1) (by omega) (by omega) h1
          ⟨i, hji', hin, hic, hiex, hion⟩

/-- A search from a CPU other than ours finds a CPU when an existing CPU other than ours is
online. -/
theorem findTarget_found (h : TimerInv s) (hx : s.queue x = none) (hstart : start ≠ c)
    (hd : ∃ d, d ≠ c ∧ cpuExists d = true ∧ (s.queues d).online = true) :
    ∃ d s₂, findTarget cpuExists c start x n start s = some (some d, s₂) := by
  obtain ⟨d, hdc, hdex, hdon⟩ := hd
  have hn := two_le_of_ne hdc
  have hi : cpuAt start ((d.val + n - start.val) % n) = d := cpuAt_sub d
  have hfound : ∃ d' s₂, findTarget cpuExists c start x n (cpuAt start 0) s = some (some d', s₂) :=
    findTarget_found_from h hx hn n 0 start.pos (by omega) (by rwa [cpuAt_zero])
    ⟨_, Nat.zero_le _, Nat.mod_lt _ start.pos, by rwa [hi], by rwa [hi], by rwa [hi]⟩
  rwa [cpuAt_zero] at hfound

end FindTarget

/-! ## Going offline -/

/-- `s'` is `s` with every timer of CPU `c` moved to an online CPU. -/
structure Migrated (s s' : TimerState T n) (c : Fin n) : Prop where
  inv : TimerInv s'
  empty : (s'.queues c).list = []
  timeout_eq : s'.timeout = s.timeout
  moved : ∀ x, s.queue x = some c → ∃ d, d ≠ c ∧ (s'.queues d).online = true ∧ s'.queue x = some d
  kept : ∀ x, s.queue x ≠ some c → s'.queue x = s.queue x
  online : ∀ d, (s'.queues d).online = (s.queues d).online

/-- Timer `x` taken off CPU `c`'s queue and moved to CPU `d`'s, as one turn of the offline loop
does. -/
def TimerState.migrate (s : TimerState T n) (c d : Fin n) (x : T) : TimerState T n :=
  let s := { s.unlink c x with queue := update s.queue x none }
  TimerState.link { s with queue := update s.queue x (some d) } d x

namespace Migrated

variable {s s' : TimerState T n} {c : Fin n}

omit [DecidableEq T] in
theorem refl (h : TimerInv s) (hempty : (s.queues c).list = []) : Migrated s s c where
  inv := h
  empty := hempty
  timeout_eq := rfl
  moved x hx := absurd ((h.queue_iff x c).1 hx) (hempty ▸ List.not_mem_nil)
  kept _ _ := rfl
  online _ := rfl

/-- Moving the head timer to an online CPU `d`, then the rest, moves them all. -/
theorem step {x : T} (hx : s.queue x = some c) {d : Fin n} (hdc : d ≠ c)
    (hon : (s.queues d).online = true) (hd : Migrated (s.migrate c d x) s' c) : Migrated s s' c where
  inv := hd.inv
  empty := hd.empty
  timeout_eq := hd.timeout_eq
  moved y hy := by
    by_cases hyx : y = x
    · subst hyx
      have hq : (s.migrate c d y).queue y = some d := by simp [TimerState.migrate]
      refine ⟨d, hdc, ?_, ?_⟩
      · rw [hd.online d]
        simpa [TimerState.migrate] using hon
      · rw [hd.kept y (by rw [hq]; exact fun e => hdc (Option.some.inj e))]
        exact hq
    · have hq : (s.migrate c d x).queue y = s.queue y := by
        simp [TimerState.migrate, update_of_ne hyx]
      exact hd.moved y (hq.trans hy)
  kept y hy := by
    have hyx : y ≠ x := fun e => hy (e ▸ hx)
    have hq : (s.migrate c d x).queue y = s.queue y := by
      simp [TimerState.migrate, update_of_ne hyx]
    rw [hd.kept y (hq.trans_ne hy), hq]
  online d' := by
    rw [hd.online d']
    simp [TimerState.migrate]

end Migrated

section Offline

variable {cpuExists : Fin n → Bool} {c : Fin n}

/-- One turn of the offline loop takes the head off our queue and, when the search finds a CPU,
moves the timer there. -/
theorem offlineLoop_step {s : TimerState T n} (h : TimerInv s) {x : T}
    (hhead : (s.queues c).list.head? = some x) (hne : (s.queues c).timeout ≠ timerInvalidTimeout)
    (fuel : Nat) (start : Fin n) :
    offlineLoop cpuExists c (fuel + 1) start s =
      match findTarget cpuExists c start x n start { s.unlink c x with queue := update s.queue x none } with
      | some (some target, s) => offlineLoop cpuExists c fuel target s
      | _ => none := by
  have hx : s.queue x = some c := (h.queue_iff x c).2 (List.mem_of_mem_head? hhead)
  obtain ⟨b, hdeq⟩ := TimerState.timerDequeueInternal_eq h hx
  rw [offlineLoop.eq_2, if_pos hne, hhead]
  dsimp only
  rw [hdeq]

/-- A run of the offline loop on a CPU that is offline moves every timer of its queue to an
online CPU. -/
theorem offlineLoop_inv : ∀ (fuel : Nat) (start : Fin n) {s s' : TimerState T n}, TimerInv s →
    (s.queues c).online = false → offlineLoop cpuExists c fuel start s = some s' → Migrated s s' c
  | 0, _, _, _, _, _, hl => by simp [offlineLoop] at hl
  | fuel + 1, start, s, s', h, hoff, hl => by
    by_cases hne : (s.queues c).timeout ≠ timerInvalidTimeout
    · obtain ⟨x, hhead⟩ : ∃ x, (s.queues c).list.head? = some x :=
        Option.ne_none_iff_exists'.1 fun hn =>
          hne ((h.timeout_eq_invalid_iff c).2 (List.head?_eq_none_iff.1 hn))
      have hx : s.queue x = some c := (h.queue_iff x c).2 (List.mem_of_mem_head? hhead)
      have h₁ := h.dequeue hx
      rw [offlineLoop_step h hhead hne] at hl
      split at hl
      · rename_i target s₂ hfind
        obtain ⟨hon, rfl⟩ := findTarget_inv h₁ (update_self x none s.queue) n start hfind
        have hon' : (s.queues target).online = true := by simpa using hon
        have hdc : target ≠ c := fun e => by
          rw [e, hoff] at hon'
          exact Bool.false_ne_true hon'
        have hvalid : s.timeout x ≠ timerInvalidTimeout := h.valid x c (List.mem_of_mem_head? hhead)
        have h₂ := h₁.move (update_self x none s.queue) hvalid target
        exact Migrated.step hx hdc hon'
          (offlineLoop_inv fuel target h₂ (by simpa [TimerState.migrate] using hoff) hl)
      · cases hl
    · unfold offlineLoop at hl
      rw [if_neg hne] at hl
      cases hl
      exact Migrated.refl h ((h.timeout_eq_invalid_iff c).1 (not_not.1 hne))

/-- Given a turn for each timer of our queue and one more, and an existing online CPU other than
ours, the offline loop ends. -/
theorem offlineLoop_isSome : ∀ (fuel : Nat) (start : Fin n) {s : TimerState T n}, TimerInv s →
    (s.queues c).online = false →
    (∃ d, d ≠ c ∧ cpuExists d = true ∧ (s.queues d).online = true) → start ≠ c →
    (s.queues c).list.length < fuel → (offlineLoop cpuExists c fuel start s).isSome
  | 0, _, _, _, _, _, _, hlen => absurd hlen (Nat.not_lt_zero _)
  | fuel + 1, start, s, h, hoff, hd, hstart, hlen => by
    by_cases hne : (s.queues c).timeout ≠ timerInvalidTimeout
    · obtain ⟨x, hhead⟩ : ∃ x, (s.queues c).list.head? = some x :=
        Option.ne_none_iff_exists'.1 fun hn =>
          hne ((h.timeout_eq_invalid_iff c).2 (List.head?_eq_none_iff.1 hn))
      obtain ⟨rest, hl⟩ := List.head?_eq_some_iff.1 hhead
      have hx : s.queue x = some c := (h.queue_iff x c).2 (List.mem_of_mem_head? hhead)
      have h₁ := h.dequeue hx
      -- the online flags are those of `s` throughout
      have hd₁ : ∃ d, d ≠ c ∧ cpuExists d = true ∧
          (({ s.unlink c x with queue := update s.queue x none } : TimerState T n).queues d).online = true := by
        obtain ⟨d, hdc, hdex, hdon⟩ := hd
        exact ⟨d, hdc, hdex, by simpa using hdon⟩
      obtain ⟨target, s₂, hfind⟩ := findTarget_found h₁ (update_self x none s.queue) hstart hd₁
      rw [offlineLoop_step h hhead hne, hfind]
      obtain ⟨hon, rfl⟩ := findTarget_inv h₁ (update_self x none s.queue) n start hfind
      have hon' : (s.queues target).online = true := by simpa using hon
      have hdc : target ≠ c := fun e => by
        rw [e, hoff] at hon'
        exact Bool.false_ne_true hon'
      have hvalid : s.timeout x ≠ timerInvalidTimeout := h.valid x c (List.mem_of_mem_head? hhead)
      apply offlineLoop_isSome fuel target (h₁.move (update_self x none s.queue) hvalid target)
        (by simpa [hdc] using hoff)
      · obtain ⟨d, hdc', hdex, hdon⟩ := hd
        exact ⟨d, hdc', hdex, by simpa using hdon⟩
      · exact hdc
      · simp only [TimerState.link_queues_of_ne _ _ _ (Ne.symm hdc), TimerState.unlink_list, hl,
          List.erase_cons_head]
        rw [hl, List.length_cons] at hlen
        exact Nat.lt_of_succ_lt_succ hlen
    · unfold offlineLoop
      rw [if_neg hne]
      rfl

end Offline

namespace TimerState

variable {cpuExists : Fin n → Bool} {c : Fin n} {s s' : TimerState T n}

theorem timerHandlePowerCpuOffline_inv (h : TimerInv s)
    (hoff : s.timerHandlePowerCpuOffline cpuExists c = some s') :
    Migrated (s.setQueue c { s.queues c with online := false }) s' c :=
  offlineLoop_inv _ _ (h.setOnline c false) (by simp) hoff

theorem timerHandlePowerCpuOffline_isSome (h : TimerInv s)
    (hd : ∃ d, d ≠ c ∧ cpuExists d = true ∧ (s.queues d).online = true) :
    (s.timerHandlePowerCpuOffline cpuExists c).isSome := by
  obtain ⟨d, hdc, hdex, hdon⟩ := hd
  exact offlineLoop_isSome _ _ (h.setOnline c false) (by simp) ⟨d, hdc, hdex, by simpa [hdc] using hdon⟩
    (nextCpu_ne_self (two_le_of_ne hdc) c) (Nat.lt_succ_self _)

end TimerState

/-! ## Every call keeps the invariants -/

namespace TimerState

variable {s s' : TimerState T n} {c : Fin n} {x : T} {t : Nat}

/-- What a successful `timer_enqueue_internal` checked, and what it did. -/
theorem timerEnqueueInternal_cases (h : TimerInv s) (he : s.timerEnqueueInternal c x t = some s') :
    (s.queues c).online = true ∧ s.queue x = none ∧
      s' = link { s with queue := update s.queue x (some c), timeout := update s.timeout x t } c x := by
  by_cases hon : (s.queues c).online = true
  · by_cases hx : s.queue x = none
    · rw [timerEnqueueInternal_eq h hon hx] at he
      exact ⟨hon, hx, (Option.some.inj he).symm⟩
    · unfold timerEnqueueInternal at he
      rw [if_neg (by simp [hon]), if_pos (Option.ne_none_iff_isSome.1 hx)] at he
      cases he
  · unfold timerEnqueueInternal at he
    rw [if_pos (by simpa using hon)] at he
    cases he

/-- What a successful `timer_update_internal` checked, and what it did. -/
theorem timerUpdateInternal_cases (h : TimerInv s) (hx : s.queue x = some c)
    (hu : s.timerUpdateInternal c x t = some s') :
    (s.queues c).online = true ∧
      (s.timeout x = t ∧ s' = s ∨
        s.timeout x ≠ t ∧ s' = link { s.unlink c x with timeout := update s.timeout x t } c x) := by
  by_cases hon : (s.queues c).online = true
  · refine ⟨hon, ?_⟩
    by_cases ht : s.timeout x = t
    · rw [timerUpdateInternal_of_eq hon hx ht] at hu
      exact Or.inl ⟨ht, (Option.some.inj hu).symm⟩
    · rw [timerUpdateInternal_eq h hon hx ht] at hu
      exact Or.inr ⟨ht, (Option.some.inj hu).symm⟩
  · unfold timerUpdateInternal at hu
    rw [if_pos (by simpa using hon)] at hu
    cases hu

end TimerState

namespace OnOnline

variable {s : TimerState T n} {c : Fin n}

omit [DecidableEq T] in
theorem congr_queues {s' : TimerState T n} (h : OnOnline s) (hq : s'.queues = s.queues) :
    OnOnline s' := by
  intro x c hx
  rw [hq] at hx ⊢
  exact h x c hx

theorem unlink (h : OnOnline s) (hnd : (s.queues c).list.Nodup) (x : T) :
    OnOnline (s.unlink c x) := by
  intro y d hy
  rw [TimerState.unlink_online]
  exact h y d ((s.mem_unlink_iff hnd).1 hy).1

theorem link (h : OnOnline s) (hon : (s.queues c).online = true) (x : T) :
    OnOnline (s.link c x) := by
  intro y d hy
  rw [TimerState.link_online]
  rcases (s.mem_link_iff).1 hy with ⟨rfl, -⟩ | hy
  · exact hon
  · exact h y d hy

omit [DecidableEq T] in
theorem setOnline (h : OnOnline s) (c : Fin n) : OnOnline (s.setQueue c { s.queues c with online := true }) := by
  intro y d hy
  by_cases hd : d = c
  · subst hd
    simp
  · simp only [TimerState.setQueue_queues_of_ne _ _ _ hd] at hy ⊢
    exact h y d hy

omit [DecidableEq T] in
theorem drained {s' : TimerState T n} {xs : List T} (h : OnOnline s) (hd : Drained s s' c xs) :
    OnOnline s' := by
  intro y d hy
  rw [hd.online d]
  by_cases hdc : d = c
  · subst hdc
    exact h y d (hd.list_eq ▸ List.mem_append_right xs hy)
  · exact h y d (hd.other d hdc ▸ hy)

omit [DecidableEq T] in
/-- After going offline every timer is on an online CPU's queue: those of the CPU gone down were
moved to one, and the others were on one already. -/
theorem migrated {s' : TimerState T n} (h : OnOnline s) (hinv : TimerInv s)
    (hm : Migrated (s.setQueue c { s.queues c with online := false }) s' c) : OnOnline s' := by
  intro y d hy
  have hdc : d ≠ c := fun e => by
    rw [e, hm.empty] at hy
    exact List.not_mem_nil hy
  have hq : s'.queue y = some d := (hm.inv.queue_iff y d).2 hy
  by_cases hyc : s.queue y = some c
  · obtain ⟨d', -, hon, hq'⟩ := hm.moved y hyc
    rw [hq, Option.some.injEq] at hq'
    rwa [hq']
  · have hkept := hm.kept y hyc
    rw [hq] at hkept
    rw [hm.online d, TimerState.setQueue_queues_of_ne _ _ _ hdc]
    exact h y d ((hinv.queue_iff y d).1 hkept.symm)

end OnOnline

/-- A call that keeps the timeouts valid keeps both invariants. -/
theorem timerCall_run_inv {cpuExists : Fin n → Bool} {s s' : TimerState T n} (h : TimerInv s)
    (ho : OnOnline s) {call : TimerCall T n} (hvalid : call.ValidTimeout)
    (hrun : call.run cpuExists s = some s') : TimerInv s' ∧ OnOnline s' := by
  -- enqueueing on a CPU, from a state where the timer is on no queue
  have henqueue : ∀ {s₀ : TimerState T n} {c x t}, TimerInv s₀ → OnOnline s₀ →
      t ≠ timerInvalidTimeout → s₀.timerEnqueueInternal c x t = some s' →
      TimerInv s' ∧ OnOnline s' := by
    intro s₀ c x t h₀ ho₀ ht he
    obtain ⟨hon, hx, rfl⟩ := TimerState.timerEnqueueInternal_cases h₀ he
    set s₁ : TimerState T n := { s₀ with queue := update s₀.queue x (some c), timeout := update s₀.timeout x t }
    exact ⟨h₀.enqueue hx ht, OnOnline.link (s := s₁) (ho₀.congr_queues rfl) hon x⟩
  -- dequeueing from the queue a timer names
  have hdequeue : ∀ {s₀ : TimerState T n} {c x}, TimerInv s₀ → OnOnline s₀ → s₀.queue x = some c →
      TimerInv { s₀.unlink c x with queue := update s₀.queue x none } ∧
        OnOnline { s₀.unlink c x with queue := update s₀.queue x none } := fun h₀ ho₀ hx =>
    ⟨h₀.dequeue hx, (ho₀.unlink (h₀.nodup _) _).congr_queues rfl⟩
  cases call with
  | enqueue c x t => exact henqueue h ho hvalid hrun
  | dequeue x =>
    simp only [TimerCall.run, TimerState.timerDequeue] at hrun
    cases hq : s.queue x with
    | none =>
      rw [hq] at hrun
      cases hrun
      exact ⟨h, ho⟩
    | some c =>
      rw [hq] at hrun
      dsimp only at hrun
      obtain ⟨b, hdeq⟩ := TimerState.timerDequeueInternal_eq h hq
      rw [hdeq] at hrun
      cases hrun
      exact hdequeue h ho hq
  | update c x t =>
    simp only [TimerCall.run, TimerState.timerUpdate] at hrun
    cases hq : s.queue x with
    | none =>
      rw [hq] at hrun
      simp only [Option.bind_some, reduceCtorEq, if_false] at hrun
      exact henqueue h ho hvalid hrun
    | some d =>
      rw [hq] at hrun
      by_cases hdc : d = c
      · subst hdc
        simp only [ne_eq, not_true_eq_false, if_false, Option.bind_some, if_true] at hrun
        obtain ⟨hon, ⟨-, rfl⟩ | ⟨-, rfl⟩⟩ := TimerState.timerUpdateInternal_cases h hq hrun
        · exact ⟨h, ho⟩
        · set s₁ : TimerState T n := { s.unlink d x with timeout := update s.timeout x t }
          exact ⟨h.relink hq hvalid, OnOnline.link (s := s₁) ((ho.unlink (h.nodup d) x).congr_queues rfl)
            (by simpa [s₁] using hon) x⟩
      · obtain ⟨b, hdeq⟩ := TimerState.timerDequeueInternal_eq h hq
        simp only [ne_eq, hdc, not_false_eq_true, if_true, hdeq, Option.map_some, Option.bind_some,
          Option.some.injEq, if_false] at hrun
        obtain ⟨h₁, ho₁⟩ := hdequeue h ho hq
        exact henqueue h₁ ho₁ hvalid hrun
  | platformTimerExpiry c now =>
    simp only [TimerCall.run] at hrun
    obtain ⟨⟨s₂, fired⟩, hexp, rfl⟩ := Option.map_eq_some_iff.1 hrun
    have hd := (dequeueExpiredLoop_inv _ h hexp).1
    exact ⟨hd.inv, ho.drained hd⟩
  | powerCpuOnline c now =>
    simp only [TimerCall.run, TimerState.timerHandlePowerCpuOnline] at hrun
    obtain ⟨⟨s₂, fired⟩, hexp, rfl⟩ := Option.map_eq_some_iff.1 hrun
    have hd := (dequeueExpiredLoop_inv _ h hexp).1
    exact ⟨hd.inv.setOnline c true, (ho.drained hd).setOnline c⟩
  | powerCpuOffline c =>
    have hm := TimerState.timerHandlePowerCpuOffline_inv h hrun
    exact ⟨hm.inv, ho.migrated h hm⟩

/-- Every run of calls with valid timeouts keeps both invariants. -/
theorem runTimerCalls_inv {cpuExists : Fin n → Bool} :
    ∀ (calls : List (TimerCall T n)) {s s' : TimerState T n}, TimerInv s → OnOnline s →
      (∀ call ∈ calls, call.ValidTimeout) → runTimerCalls cpuExists s calls = some s' →
      TimerInv s' ∧ OnOnline s'
  | [], _, _, h, ho, _, hrun => by
    cases hrun
    exact ⟨h, ho⟩
  | call :: calls, s, s', h, ho, hvalid, hrun => by
    obtain ⟨s₁, hcall, hrest⟩ := Option.bind_eq_some_iff.1 hrun
    obtain ⟨h₁, ho₁⟩ := timerCall_run_inv h ho (hvalid call List.mem_cons_self) hcall
    exact runTimerCalls_inv calls h₁ ho₁ (fun c hc => hvalid c (List.mem_cons_of_mem call hc)) hrest

/-! ## Expiry and going offline from any state that keeps the invariant -/

/-- What `timer_dequeue_expired` on any CPU `c` does from `s` before `TIMER_INVALID_TIMEOUT`: it
ends, fires exactly the timers of `c`'s queue that are due, in timeout order, leaves on the queue
those not due, and takes the fired timers off every queue. -/
def ExpirySpec (s : TimerState T n) : Prop :=
  ∀ c now, now < timerInvalidTimeout → ∃ s' fired, s.timerDequeueExpired c now = some (s', fired) ∧
    fired = (s.queues c).list.filter (fun x => decide (s.timeout x ≤ now)) ∧
    fired.Pairwise (fun x y => s.timeout x ≤ s.timeout y) ∧
    (s'.queues c).list = (s.queues c).list.filter (fun x => decide (now < s.timeout x)) ∧
    (∀ x ∈ fired, s'.queue x = none) ∧ TimerInv s'

/-- What `timer_handle_power_cpu_offline` on any CPU `c` does from `s` while another existing CPU
is online: it ends, empties `c`'s queue, moves each of its timers to an online CPU other than `c`,
keeps every timeout, and leaves every other timer where it was. -/
def OfflineSpec (cpuExists : Fin n → Bool) (s : TimerState T n) : Prop :=
  ∀ c, (∃ d, d ≠ c ∧ cpuExists d = true ∧ (s.queues d).online = true) →
    ∃ s', s.timerHandlePowerCpuOffline cpuExists c = some s' ∧ TimerInv s' ∧
      (s'.queues c).list = [] ∧ s'.timeout = s.timeout ∧
      (∀ x, s.queue x = some c → ∃ d, d ≠ c ∧ (s'.queues d).online = true ∧ s'.queue x = some d) ∧
      (∀ x, s.queue x ≠ some c → s'.queue x = s.queue x)

theorem timerDequeueExpired_spec {s : TimerState T n} (h : TimerInv s) : ExpirySpec s := by
  intro c now hnow
  obtain ⟨⟨s', fired⟩, hexp⟩ := Option.isSome_iff_exists.1
    (dequeueExpiredLoop_isSome hnow _ h (Nat.lt_succ_self _) : (s.timerDequeueExpired c now).isSome)
  obtain ⟨hd, hfired⟩ := dequeueExpiredLoop_inv _ h hexp
  -- the queue is sorted by timeout, so the prefix of due timers is all of them
  have hsorted := h.sorted_timeout c
  refine ⟨s', fired, hexp, hfired.trans (takeWhile_eq_filter_of_pairwise s.timeout now hsorted),
    ?_, ?_, hd.queue_of_mem, hd.inv⟩
  · rw [hfired]
    exact hsorted.sublist (List.takeWhile_sublist _)
  · -- what the loop did not take is what is left after the prefix
    have hsplit := List.takeWhile_append_dropWhile (p := fun x => decide (s.timeout x ≤ now))
      (l := (s.queues c).list)
    have hleft := hd.list_eq
    rw [hfired] at hleft
    rw [← dropWhile_eq_filter_of_pairwise s.timeout now hsorted]
    exact List.append_cancel_left (hleft.symm.trans hsplit.symm)

theorem timerHandlePowerCpuOffline_spec (cpuExists : Fin n → Bool) {s : TimerState T n}
    (h : TimerInv s) : OfflineSpec cpuExists s := by
  intro c hd
  obtain ⟨s', hoff⟩ := Option.isSome_iff_exists.1 (TimerState.timerHandlePowerCpuOffline_isSome h hd)
  have hm := TimerState.timerHandlePowerCpuOffline_inv h hoff
  -- clearing the online flag touches neither the timeouts nor the queue pointers
  have htimeout := hm.timeout_eq
  rw [TimerState.setQueue_timeout] at htimeout
  refine ⟨s', hoff, hm.inv, hm.empty, htimeout, fun x hx => hm.moved x hx, fun x hx => ?_⟩
  exact hm.kept x hx

/-! ## Runs from boot -/

theorem timer_queue_invariant (cpuExists : Fin n → Bool) (b : Fin n) (calls : List (TimerCall T n))
    (hcalls : ∀ call ∈ calls, call.ValidTimeout) {s : TimerState T n}
    (hrun : runTimerCalls cpuExists (timerHandleBootColdInit b) calls = some s) :
    TimerInv s ∧ OnOnline s ∧ ExpirySpec s ∧ OfflineSpec cpuExists s := by
  obtain ⟨h, ho⟩ := runTimerCalls_inv calls (timerInv_init b) (onOnline_init b) hcalls hrun
  exact ⟨h, ho, timerDequeueExpired_spec h, timerHandlePowerCpuOffline_spec cpuExists h⟩

/-- Two CPUs, the second brought up; timers on both, one moved across by an update, one expired,
then the first CPU taken down. -/
theorem timer_queue_invariant_run :
    let calls : List (TimerCall Nat 2) := [.powerCpuOnline 1 0, .enqueue 0 7 5, .enqueue 1 8 3,
      .update 0 8 4, .platformTimerExpiry 0 4, .powerCpuOffline 0]
    (∀ call ∈ calls, call.ValidTimeout) ∧
      ∃ s, runTimerCalls (fun _ => true) (timerHandleBootColdInit 0) calls = some s ∧
      TimerInv s ∧ OnOnline s ∧ ExpirySpec s ∧ OfflineSpec (fun _ => true) s := by
  intro calls
  have hcalls : ∀ call ∈ calls, call.ValidTimeout := by decide
  exact ⟨hcalls, _, rfl, timer_queue_invariant (fun _ => true) 0 calls hcalls rfl⟩

/-- The two boundaries of the timer queue: expiry at `TIMER_INVALID_TIMEOUT` on an empty queue reads the
head of the empty list, and taking down the one online CPU finds no CPU to move its timer to. -/
theorem timer_queue_boundaries :
    (timerHandleBootColdInit 0 : TimerState Nat 1).timerDequeueExpired 0 timerInvalidTimeout = none ∧
      runTimerCalls (fun _ => true) (timerHandleBootColdInit 0 : TimerState Nat 2)
        [.enqueue 0 7 5, .powerCpuOffline 0] = none :=
  ⟨rfl, rfl⟩

end Gunyah.Timer

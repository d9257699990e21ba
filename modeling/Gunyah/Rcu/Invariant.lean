import Gunyah.Rcu.Bitmap

set_option autoImplicit false

/-!
# Grace-period safety of the RCU bitmap

`RcuInv` is the invariant that makes `rcu_bitmap` safe: an entry in a CPU's waiting batch, formed
in generation `W`, asked for generation `W + 2`; while generation `W + 1` runs, the CPUs its
readers are on are all still in the period's bitmap; and from generation `W + 2` on it waits for no
reader. The ready batch, whose handlers `rcu_bitmap_update` runs, holds only entries that wait for
no reader.

The wrap-around of generations cannot break this: a waiting batch is moved to the ready batch only
when `is_before (current, W + 2)` fails, and that comparison holds, whatever the wrap-around, in
generations `W` and `W + 1` (`isBefore_of_lt`). No bound on how far targets lag behind is needed.

Every step of the model is then a step of the grace-period machine of `GracePeriod`, on the
readers' nesting and the entries' waits (`absState_run`, `image_enabled`), so the theorem of that
machine carries over to every run of the model (`handler_after_readers`).
-/

namespace Gunyah.Rcu

open FixedWidth

section Comparison

/-- In the generation a batch was formed in and the next one, `is_before` still puts the current
generation before the batch's target. -/
theorem isBefore_of_lt {W G : Nat} (hle : W ≤ G) (hlt : G < W + 2) :
    isBefore (G % 2 ^ 32) (add 32 (W % 2 ^ 32) 2) = true := by
  unfold isBefore aLongTime sub add
  rw [decide_eq_true_iff]
  simp only [Nat.reducePow]
  omega

/-- So a target found reached is at least two generations after the batch was formed. -/
theorem add_two_le_of_not_isBefore {W G : Nat} (hle : W ≤ G)
    (h : isBefore (G % 2 ^ 32) (add 32 (W % 2 ^ 32) 2) = false) : W + 2 ≤ G := by
  by_contra hlt
  rw [isBefore_of_lt hle (by omega)] at h
  cases h

theorem add_one_mod (g : Nat) : add 32 (g % 2 ^ 32) 1 = (g + 1) % 2 ^ 32 := by
  unfold add
  simp only [Nat.reducePow]
  omega

end Comparison

/-! ## Steps that leave the readers alone -/

/-- A step that changes neither the read-side critical sections nor the entries' waits. -/
def KeepsReaders (s s' : RcuState) : Prop := s'.readDepth = s.readDepth ∧ s'.blockers = s.blockers

theorem KeepsReaders.refl (s : RcuState) : KeepsReaders s s := ⟨rfl, rfl⟩

theorem KeepsReaders.trans {s₁ s₂ s₃ : RcuState} (h₁ : KeepsReaders s₁ s₂)
    (h₂ : KeepsReaders s₂ s₃) : KeepsReaders s₁ s₃ :=
  ⟨h₂.1.trans h₁.1, h₂.2.trans h₁.2⟩

section Frames

variable {cpu : Cpu} {s : RcuState}

theorem keepsReaders_activate : KeepsReaders s (rcuBitmapActivateCpu cpu s) := by
  unfold rcuBitmapActivateCpu
  split <;> exact ⟨rfl, rfl⟩

theorem keepsReaders_requestGracePeriod {g : Nat} :
    KeepsReaders s (rcuBitmapRequestGracePeriod cpu g s) := by
  unfold rcuBitmapRequestGracePeriod
  dsimp only
  split <;> exact ⟨rfl, rfl⟩

theorem keepsReaders_update : KeepsReaders s (rcuBitmapUpdate cpu s).1 := by
  unfold rcuBitmapUpdate
  split
  · exact ⟨rfl, rfl⟩
  · dsimp only
    split
    · exact ⟨rfl, rfl⟩
    · split <;> exact ⟨rfl, rfl⟩

theorem keepsReaders_processReady : KeepsReaders s (notifyProcessReady cpu s).1 := by
  unfold notifyProcessReady
  split
  · exact keepsReaders_update
  · exact KeepsReaders.refl s

theorem keepsReaders_advanceBatches : KeepsReaders s (notifyAdvanceBatches cpu s) := by
  unfold notifyAdvanceBatches
  dsimp only
  split
  · exact ⟨rfl, rfl⟩
  · exact KeepsReaders.trans ⟨rfl, rfl⟩ keepsReaders_requestGracePeriod

theorem keepsReaders_notify : KeepsReaders s (rcuBitmapNotify cpu s).1 := by
  unfold rcuBitmapNotify
  split
  · exact KeepsReaders.refl s
  · dsimp only
    split
    · exact keepsReaders_processReady
    · exact keepsReaders_processReady.trans keepsReaders_advanceBatches

theorem keepsReaders_quiesce : KeepsReaders s (rcuBitmapQuiesce cpu s).1 := by
  unfold rcuBitmapQuiesce
  dsimp only
  split
  · exact ⟨rfl, rfl⟩
  · split
    · exact KeepsReaders.trans ⟨rfl, rfl⟩ keepsReaders_notify
    · exact ⟨rfl, rfl⟩

theorem keepsReaders_deactivate : KeepsReaders s (rcuBitmapDeactivateCpu cpu s).1 :=
  KeepsReaders.trans ⟨rfl, rfl⟩ keepsReaders_quiesce

theorem keepsReaders_contextSwitchPre {idle : Bool} :
    KeepsReaders s (rcuBitmapHandleThreadContextSwitchPre cpu idle s).1 := by
  have hquiesce : ∀ t, KeepsReaders s t →
      KeepsReaders s (if rcuBitmapShouldRun t = true then rcuBitmapQuiesce cpu t else (t, [])).1 := by
    intro t ht
    split
    · exact ht.trans keepsReaders_quiesce
    · exact ht
  cases idle with
  | true => exact hquiesce _ keepsReaders_activate
  | false => exact hquiesce s (KeepsReaders.refl s)

theorem keepsReaders_deactivateIfRunning : KeepsReaders s (rcuBitmapDeactivateIfRunning cpu s).1 := by
  unfold rcuBitmapDeactivateIfRunning
  split
  · exact keepsReaders_deactivate
  · exact KeepsReaders.refl s

theorem keepsReaders_powerCpuSuspend : KeepsReaders s (rcuBitmapHandlePowerCpuSuspend cpu s).2.1 := by
  unfold rcuBitmapHandlePowerCpuSuspend
  split
  · exact KeepsReaders.refl s
  · exact keepsReaders_deactivate

end Frames

/-! ## The entries whose handlers a step runs -/

section Handled

variable {cpu : Cpu} {s : RcuState} {e : Nat}

/-- `rcu_bitmap_update` runs the handlers of the ready batch. -/
theorem mem_ready_of_update (h : e ∈ (rcuBitmapUpdate cpu s).2) : e ∈ s.readyBatch cpu := by
  unfold rcuBitmapUpdate at h
  split at h
  · cases h
  · exact h

theorem mem_ready_of_processReady (h : e ∈ (notifyProcessReady cpu s).2) :
    e ∈ s.readyBatch cpu := by
  unfold notifyProcessReady at h
  split at h
  · exact mem_ready_of_update h
  · cases h

theorem mem_ready_of_notify (h : e ∈ (rcuBitmapNotify cpu s).2) : e ∈ s.readyBatch cpu := by
  unfold rcuBitmapNotify at h
  split at h
  · cases h
  · -- only the ready batch processed at the start runs handlers
    dsimp only at h
    split at h
    · exact mem_ready_of_processReady h
    · exact mem_ready_of_processReady h

theorem mem_ready_of_quiesce (h : e ∈ (rcuBitmapQuiesce cpu s).2) : e ∈ s.readyBatch cpu := by
  unfold rcuBitmapQuiesce at h
  dsimp only at h
  split at h
  · cases h
  · split at h
    · exact (mem_ready_of_notify h :)
    · cases h

theorem mem_ready_of_deactivate (h : e ∈ (rcuBitmapDeactivateCpu cpu s).2) :
    e ∈ s.readyBatch cpu :=
  (mem_ready_of_quiesce h :)

@[simp] theorem readyBatch_activate : (rcuBitmapActivateCpu cpu s).readyBatch = s.readyBatch := by
  unfold rcuBitmapActivateCpu
  split <;> rfl

theorem mem_ready_of_contextSwitchPre {idle : Bool}
    (h : e ∈ (rcuBitmapHandleThreadContextSwitchPre cpu idle s).2) : e ∈ s.readyBatch cpu := by
  have hquiesce : ∀ t : RcuState, t.readyBatch = s.readyBatch →
      e ∈ (if rcuBitmapShouldRun t = true then rcuBitmapQuiesce cpu t else (t, [])).2 →
        e ∈ s.readyBatch cpu := by
    intro t ht he
    split at he
    · rw [← ht]
      exact mem_ready_of_quiesce he
    · cases he
  cases idle with
  | true => exact hquiesce _ readyBatch_activate h
  | false => exact hquiesce s rfl h

theorem mem_ready_of_deactivateIfRunning (h : e ∈ (rcuBitmapDeactivateIfRunning cpu s).2) :
    e ∈ s.readyBatch cpu := by
  unfold rcuBitmapDeactivateIfRunning at h
  split at h
  · exact mem_ready_of_deactivate h
  · cases h

theorem mem_ready_of_powerCpuSuspend (h : e ∈ (rcuBitmapHandlePowerCpuSuspend cpu s).2.2) :
    e ∈ s.readyBatch cpu := by
  unfold rcuBitmapHandlePowerCpuSuspend at h
  split at h
  · cases h
  · exact mem_ready_of_deactivate h

end Handled

/-! ## What the compound steps do -/

section Shapes

variable {cpu : Cpu} {s : RcuState}

theorem rcuEnqueue_eq {entry : Nat} :
    rcuEnqueue cpu entry s =
      { s with
        updateCount := Function.update s.updateCount cpu (add 32 (s.updateCount cpu) 1)
        waiterCount :=
          if s.updateCount cpu = 0 then add 32 s.waiterCount 1 else s.waiterCount
        nextBatch := Function.update s.nextBatch cpu (entry :: s.nextBatch cpu)
        blockers := Function.update s.blockers entry (readingCpus s) } := by
  unfold rcuEnqueue
  dsimp only
  split <;> rfl

theorem rcuBitmapRequestGracePeriod_eq {g : Nat} :
    rcuBitmapRequestGracePeriod cpu g s =
      { s with
        target := Function.update s.target cpu (add 32 g 2)
        waitGen := Function.update s.waitGen cpu s.gen
        maxTarget := if isBefore (add 32 g 2) s.maxTarget then s.maxTarget else add 32 g 2 } := by
  unfold rcuBitmapRequestGracePeriod
  dsimp only
  split <;> rfl

/-- `rcu_bitmap_update` with a ready batch empties it and clears `ready_updates`; only the counts
change besides. -/
theorem rcuBitmapUpdate_eq (h : s.readyUpdates cpu = true) :
    (rcuBitmapUpdate cpu s).1 =
      { s with
        readyBatch := Function.update s.readyBatch cpu []
        readyUpdates := Function.update s.readyUpdates cpu false
        updateCount :=
          if (s.readyBatch cpu).length % 2 ^ 32 = 0 then s.updateCount
          else Function.update s.updateCount cpu
            (sub 32 (s.updateCount cpu) ((s.readyBatch cpu).length % 2 ^ 32))
        waiterCount :=
          if (s.readyBatch cpu).length % 2 ^ 32 ≠ 0 ∧
              s.updateCount cpu = (s.readyBatch cpu).length % 2 ^ 32 then
            sub 32 s.waiterCount 1
          else s.waiterCount } := by
  unfold rcuBitmapUpdate
  simp only [h, Bool.true_eq_false, if_false]
  split_ifs <;> simp_all

end Shapes

/-! ## The invariant -/

/-- The safety invariant of the RCU bitmap. -/
structure RcuInv (s : RcuState) : Prop where
  generation_eq : s.generation = s.gen % 2 ^ 32
  active_iff : ∀ c, s.isActive c = true ↔ c ∈ s.activeCpus
  reading_active : ∀ c, 0 < s.readDepth c → c ∈ s.activeCpus
  blockers_reading : ∀ e, s.blockers e ⊆ readingCpus s
  ready_updates : ∀ c, s.readyBatch c ≠ [] → s.readyUpdates c = true
  ready_clear : ∀ c, ∀ e ∈ s.readyBatch c, s.blockers e = ∅
  waiting_target : ∀ c, s.waitingBatch c ≠ [] →
    s.target c = add 32 (s.waitGen c % 2 ^ 32) 2 ∧ s.waitGen c ≤ s.gen
  waiting_bitmap : ∀ c, ∀ e ∈ s.waitingBatch c, s.gen = s.waitGen c + 1 →
    s.blockers e ⊆ s.cpuBitmap
  waiting_clear : ∀ c, ∀ e ∈ s.waitingBatch c, s.waitGen c + 2 ≤ s.gen → s.blockers e = ∅

theorem rcuInv_init : RcuInv RcuState.init where
  generation_eq := rfl
  active_iff _ := by simp [RcuState.init]
  reading_active _ h := by simp [RcuState.init] at h
  blockers_reading _ := Finset.empty_subset _
  ready_updates _ h := absurd rfl h
  ready_clear _ _ h := absurd h List.not_mem_nil
  waiting_target _ h := absurd rfl h
  waiting_bitmap _ _ h := absurd h List.not_mem_nil
  waiting_clear _ _ h := absurd h List.not_mem_nil

section Facts

variable {s : RcuState} {c : Cpu} {e : Nat}

theorem mem_readingCpus : c ∈ readingCpus s ↔ 0 < s.readDepth c := by
  simp [readingCpus]

/-- A CPU outside every critical section holds up no entry. -/
theorem RcuInv.not_mem_blockers (h : RcuInv s) (hc : s.readDepth c = 0) : c ∉ s.blockers e :=
  fun hm => by
    have := mem_readingCpus.1 (h.blockers_reading e hm)
    omega

/-- Once the target of a CPU's waiting batch is reached, its entries wait for no reader. -/
theorem RcuInv.waiting_done (h : RcuInv s)
    (hnb : isBefore s.generation (s.target c) = false) : ∀ e ∈ s.waitingBatch c, s.blockers e = ∅ := by
  intro e he
  obtain ⟨htarget, hle⟩ := h.waiting_target c (List.ne_nil_of_mem he)
  rw [h.generation_eq, htarget] at hnb
  exact h.waiting_clear c e he (add_two_le_of_not_isBefore hle hnb)

end Facts

/-! ## Each step keeps the invariant -/

section Preservation

open Function

variable {s : RcuState} {cpu : Cpu}

theorem rcuInv_readStart (h : RcuInv s) (hact : s.isActive cpu = true) :
    RcuInv (rcuReadStart cpu s) := by
  constructor
  case reading_active =>
    intro d hd
    by_cases hdc : d = cpu
    · subst hdc
      exact (h.active_iff d).1 hact
    · simp only [rcuReadStart, update_of_ne hdc] at hd
      exact h.reading_active d hd
  case blockers_reading =>
    -- entering a critical section only adds readers
    intro e d hde
    have hd := mem_readingCpus.1 (h.blockers_reading e hde)
    refine mem_readingCpus.2 ?_
    by_cases hdc : d = cpu
    · subst hdc
      simp [rcuReadStart]
    · simpa only [rcuReadStart, update_of_ne hdc] using hd
  all_goals first
    | exact h.generation_eq | exact h.active_iff | exact h.ready_updates | exact h.ready_clear
    | exact h.waiting_target | exact h.waiting_bitmap | exact h.waiting_clear

/-- Leaving a critical section only takes CPUs off the entries' waits. -/
theorem rcuReadFinish_blockers_subset (e : Nat) :
    (rcuReadFinish cpu s).blockers e ⊆ s.blockers e := by
  simp only [rcuReadFinish]
  split
  · exact Finset.erase_subset cpu _
  · exact Finset.Subset.refl _

theorem rcuInv_readFinish (h : RcuInv s) : RcuInv (rcuReadFinish cpu s) := by
  have hsub : ∀ e, (rcuReadFinish cpu s).blockers e ⊆ s.blockers e := rcuReadFinish_blockers_subset
  constructor
  case reading_active =>
    intro d hd
    by_cases hdc : d = cpu
    · subst hdc
      simp only [rcuReadFinish, update_self] at hd
      exact h.reading_active d (by omega)
    · simp only [rcuReadFinish, update_of_ne hdc] at hd
      exact h.reading_active d hd
  case blockers_reading =>
    intro e d hde
    refine mem_readingCpus.2 ?_
    simp only [rcuReadFinish] at hde ⊢
    split at hde
    case isTrue h0 =>
      -- the CPU left its outermost section and is no longer waited for
      obtain ⟨hdc, hde⟩ := Finset.mem_erase.1 hde
      rw [update_of_ne hdc]
      exact mem_readingCpus.1 (h.blockers_reading e hde)
    case isFalse h0 =>
      by_cases hdc : d = cpu
      · subst hdc
        rw [update_self]
        omega
      · rw [update_of_ne hdc]
        exact mem_readingCpus.1 (h.blockers_reading e hde)
  case ready_clear =>
    intro c e he
    exact Finset.subset_empty.1 ((hsub e).trans (Finset.subset_empty.2 (h.ready_clear c e he)))
  case waiting_bitmap =>
    intro c e he hg
    exact (hsub e).trans (h.waiting_bitmap c e he hg)
  case waiting_clear =>
    intro c e he hg
    exact Finset.subset_empty.1 ((hsub e).trans (Finset.subset_empty.2 (h.waiting_clear c e he hg)))
  all_goals first
    | exact h.generation_eq | exact h.active_iff | exact h.ready_updates | exact h.waiting_target

theorem rcuInv_enqueue {entry : Nat} (h : RcuInv s) (hfresh : ∀ c, entry ∉ pending s c) :
    RcuInv (rcuEnqueue cpu entry s) := by
  rw [rcuEnqueue_eq]
  -- the entry is on no batch yet, so every entry on a batch keeps its wait
  have hne : ∀ c e, e ∈ s.readyBatch c ∨ e ∈ s.waitingBatch c → e ≠ entry := by
    rintro c e he rfl
    exact hfresh c (by simp only [pending, List.mem_append]; tauto)
  constructor
  case blockers_reading =>
    intro e
    by_cases he : e = entry
    · subst he
      simp only [update_self]
      exact Finset.Subset.refl _
    · simp only [update_of_ne he]
      exact h.blockers_reading e
  case ready_clear =>
    intro c e he
    simp only [update_of_ne (hne c e (.inl he))]
    exact h.ready_clear c e he
  case waiting_bitmap =>
    intro c e he hg
    simp only [update_of_ne (hne c e (.inr he))]
    exact h.waiting_bitmap c e he hg
  case waiting_clear =>
    intro c e he hg
    simp only [update_of_ne (hne c e (.inr he))]
    exact h.waiting_clear c e he hg
  all_goals first
    | exact h.generation_eq | exact h.active_iff | exact h.reading_active | exact h.ready_updates
    | exact h.waiting_target

theorem rcuInv_activate (h : RcuInv s) : RcuInv (rcuBitmapActivateCpu cpu s) := by
  unfold rcuBitmapActivateCpu
  split
  · constructor
    case active_iff =>
      intro d
      by_cases hdc : d = cpu
      · subst hdc
        simp
      · simp only [update_of_ne hdc, Finset.mem_insert, hdc, false_or]
        exact h.active_iff d
    case reading_active =>
      intro d hd
      exact Finset.mem_insert_of_mem (h.reading_active d hd)
    all_goals first
      | exact h.generation_eq | exact h.blockers_reading | exact h.ready_updates
      | exact h.ready_clear | exact h.waiting_target | exact h.waiting_bitmap | exact h.waiting_clear
  · exact h

theorem rcuInv_update (h : RcuInv s) : RcuInv (rcuBitmapUpdate cpu s).1 := by
  by_cases hru : s.readyUpdates cpu = true
  · rw [rcuBitmapUpdate_eq hru]
    constructor
    case ready_updates =>
      intro c hc
      by_cases hcc : c = cpu
      · subst hcc
        simp at hc
      · simp only [update_of_ne hcc] at hc ⊢
        exact h.ready_updates c hc
    case ready_clear =>
      intro c e he
      by_cases hcc : c = cpu
      · subst hcc
        simp at he
      · simp only [update_of_ne hcc] at he
        exact h.ready_clear c e he
    all_goals first
      | exact h.generation_eq | exact h.active_iff | exact h.reading_active
      | exact h.blockers_reading | exact h.waiting_target | exact h.waiting_bitmap
      | exact h.waiting_clear
  · simp only [rcuBitmapUpdate, Bool.not_eq_true] at hru ⊢
    simp only [hru, if_true]
    exact h

theorem rcuInv_processReady (h : RcuInv s) : RcuInv (notifyProcessReady cpu s).1 := by
  unfold notifyProcessReady
  split
  · exact rcuInv_update h
  · exact h

/-- Advancing the batches keeps the invariant when the waiting batch waits for no reader. -/
theorem rcuInv_advanceBatches (h : RcuInv s)
    (hdone : ∀ e ∈ s.waitingBatch cpu, s.blockers e = ∅) :
    RcuInv (notifyAdvanceBatches cpu s) := by
  unfold notifyAdvanceBatches
  dsimp only
  -- the state after the batches moved, before a grace period is requested
  have hmoved : ∀ c, ∀ e ∈ Function.update s.readyBatch cpu (s.waitingBatch cpu) c,
      s.blockers e = ∅ := by
    intro c e he
    by_cases hcc : c = cpu
    · subst hcc
      rw [update_self] at he
      exact hdone e he
    · rw [update_of_ne hcc] at he
      exact h.ready_clear c e he
  have hready : ∀ c, Function.update s.readyBatch cpu (s.waitingBatch cpu) c ≠ [] →
      Function.update s.readyUpdates cpu (s.readyUpdates cpu || !(s.waitingBatch cpu).isEmpty) c
        = true := by
    intro c hc
    by_cases hcc : c = cpu
    · subst hcc
      rw [update_self] at hc ⊢
      simp [hc]
    · rw [update_of_ne hcc] at hc ⊢
      exact h.ready_updates c hc
  split
  case isTrue hnext =>
    -- nothing is waiting now on this CPU
    constructor
    case waiting_target =>
      intro c hc
      by_cases hcc : c = cpu
      · subst hcc
        simp [List.isEmpty_iff.1 hnext] at hc
      · simp only [update_of_ne hcc] at hc ⊢
        exact h.waiting_target c hc
    case waiting_bitmap =>
      intro c e he hg
      by_cases hcc : c = cpu
      · subst hcc
        simp [List.isEmpty_iff.1 hnext] at he
      · simp only [update_of_ne hcc] at he
        exact h.waiting_bitmap c e he hg
    case waiting_clear =>
      intro c e he hg
      by_cases hcc : c = cpu
      · subst hcc
        simp [List.isEmpty_iff.1 hnext] at he
      · simp only [update_of_ne hcc] at he
        exact h.waiting_clear c e he hg
    all_goals first
      | exact h.generation_eq | exact h.active_iff | exact h.reading_active
      | exact h.blockers_reading | exact hready | exact hmoved
  case isFalse hnext =>
    -- the new waiting batch waits for the period after the next one
    rw [rcuBitmapRequestGracePeriod_eq]
    constructor
    case waiting_target =>
      intro c hc
      by_cases hcc : c = cpu
      · subst hcc
        simp only [update_self, le_refl, and_true]
        rw [h.generation_eq]
      · simp only [update_of_ne hcc] at hc ⊢
        exact h.waiting_target c hc
    case waiting_bitmap =>
      intro c e he hg
      by_cases hcc : c = cpu
      · subst hcc
        simp only [update_self] at hg
        omega
      · simp only [update_of_ne hcc] at he hg
        exact h.waiting_bitmap c e he hg
    case waiting_clear =>
      intro c e he hg
      by_cases hcc : c = cpu
      · subst hcc
        simp only [update_self] at hg
        omega
      · simp only [update_of_ne hcc] at he hg
        exact h.waiting_clear c e he hg
    all_goals first
      | exact h.generation_eq | exact h.active_iff | exact h.reading_active
      | exact h.blockers_reading | exact hready | exact hmoved

theorem rcuInv_notify (h : RcuInv s) : RcuInv (rcuBitmapNotify cpu s).1 := by
  unfold rcuBitmapNotify
  split
  · exact h
  · dsimp only
    have h₁ : RcuInv (notifyProcessReady cpu s).1 := rcuInv_processReady h
    split
    · exact h₁
    case isFalse hnb =>
      exact rcuInv_advanceBatches h₁ (h₁.waiting_done (Bool.eq_false_iff.2 hnb))

/-- Clearing the bit of a CPU outside every critical section keeps the invariant. -/
theorem rcuInv_clearBit (h : RcuInv s) (hd : s.readDepth cpu = 0) :
    RcuInv { s with cpuBitmap := s.cpuBitmap.erase cpu } := by
  constructor
  case waiting_bitmap =>
    intro c e he hg d hde
    exact Finset.mem_erase.2 ⟨fun hdc => h.not_mem_blockers hd (hdc ▸ hde),
      h.waiting_bitmap c e he hg hde⟩
  all_goals first
    | exact h.generation_eq | exact h.active_iff | exact h.reading_active
    | exact h.blockers_reading | exact h.ready_updates | exact h.ready_clear
    | exact h.waiting_target | exact h.waiting_clear

/-- Starting a new period when the last CPU of the current one quiesced keeps the invariant: the
batches that waited for the current period now wait for no reader, and those formed in it have
their readers in the new bitmap. -/
theorem rcuInv_newPeriod (h : RcuInv s) (hd : s.readDepth cpu = 0)
    (hlast : s.cpuBitmap.erase cpu = ∅) :
    RcuInv { s with
      cpuBitmap := s.activeCpus, generation := add 32 s.generation 1, gen := s.gen + 1 } := by
  constructor
  case generation_eq =>
    show add 32 s.generation 1 = (s.gen + 1) % 2 ^ 32
    rw [h.generation_eq, add_one_mod]
  case waiting_target =>
    intro c hc
    obtain ⟨ht, hle⟩ := h.waiting_target c hc
    exact ⟨ht, Nat.le_succ_of_le hle⟩
  case waiting_bitmap =>
    intro c e he hg d hde
    exact h.reading_active d (mem_readingCpus.1 (h.blockers_reading e hde))
  case waiting_clear =>
    intro c e he hg
    show s.blockers e = ∅
    by_cases hold : s.waitGen c + 2 ≤ s.gen
    · exact h.waiting_clear c e he hold
    · -- the batch waited for the period that just ended, whose bitmap this CPU emptied
      have hbit := h.waiting_bitmap c e he (by simp only at hg; omega)
      refine Finset.subset_empty.1 fun d hde => ?_
      rw [← hlast]
      exact Finset.mem_erase.2 ⟨fun hdc => h.not_mem_blockers hd (hdc ▸ hde), hbit hde⟩
  all_goals first
    | exact h.active_iff | exact h.reading_active | exact h.blockers_reading
    | exact h.ready_updates | exact h.ready_clear

theorem rcuInv_quiesce (h : RcuInv s) (hd : s.readDepth cpu = 0) :
    RcuInv (rcuBitmapQuiesce cpu s).1 := by
  unfold rcuBitmapQuiesce
  dsimp only
  split
  · exact rcuInv_clearBit h hd
  case isFalse hlast =>
    split
    · exact rcuInv_notify (rcuInv_newPeriod h hd (not_not.1 hlast))
    · exact rcuInv_clearBit h hd

theorem rcuInv_deactivate (h : RcuInv s) (hd : s.readDepth cpu = 0) :
    RcuInv (rcuBitmapDeactivateCpu cpu s).1 := by
  refine rcuInv_quiesce ?_ hd
  constructor
  case active_iff =>
    intro d
    by_cases hdc : d = cpu
    · subst hdc
      simp
    · simp only [update_of_ne hdc, Finset.mem_erase, hdc, ne_eq, not_false_eq_true, true_and]
      exact h.active_iff d
  case reading_active =>
    intro d hdpos
    have hpos : 0 < s.readDepth d := hdpos
    have hdc : d ≠ cpu := fun hdc => by subst hdc; omega
    exact Finset.mem_erase.2 ⟨hdc, h.reading_active d hpos⟩
  all_goals first
    | exact h.generation_eq | exact h.blockers_reading | exact h.ready_updates
    | exact h.ready_clear | exact h.waiting_target | exact h.waiting_bitmap | exact h.waiting_clear

theorem rcuInv_deactivateIfRunning (h : RcuInv s) (hd : s.readDepth cpu = 0) :
    RcuInv (rcuBitmapDeactivateIfRunning cpu s).1 := by
  unfold rcuBitmapDeactivateIfRunning
  split
  · exact rcuInv_deactivate h hd
  · exact h

theorem rcuInv_contextSwitchPre {idle : Bool} (h : RcuInv s) (hd : s.readDepth cpu = 0) :
    RcuInv (rcuBitmapHandleThreadContextSwitchPre cpu idle s).1 := by
  have hquiesce : ∀ t : RcuState, RcuInv t → t.readDepth cpu = 0 →
      RcuInv (if rcuBitmapShouldRun t = true then rcuBitmapQuiesce cpu t else (t, [])).1 := by
    intro t ht htd
    split
    · exact rcuInv_quiesce ht htd
    · exact ht
  cases idle with
  | true =>
    -- activation keeps the CPU outside every critical section
    have hd' : (rcuBitmapActivateCpu cpu s).readDepth cpu = 0 := by
      rw [keepsReaders_activate.1]
      exact hd
    exact hquiesce _ (rcuInv_activate h) hd'
  | false => exact hquiesce s h hd

theorem rcuInv_powerCpuSuspend (h : RcuInv s) (hd : s.readDepth cpu = 0) :
    RcuInv (rcuBitmapHandlePowerCpuSuspend cpu s).2.1 := by
  unfold rcuBitmapHandlePowerCpuSuspend
  split
  · exact h
  · exact rcuInv_deactivate h hd

/-- Every allowed step keeps the invariant. -/
theorem rcuInv_run {c : RcuCall} (h : RcuInv s) (hc : c.Allowed s) : RcuInv (c.run s).1 := by
  cases c with
  | readStart cpu => exact rcuInv_readStart h hc
  | readFinish cpu => exact rcuInv_readFinish h
  | enqueue cpu entry => exact rcuInv_enqueue h hc
  | threadEntryFromUser cpu => exact rcuInv_activate h
  | preemptInterrupt cpu => exact rcuInv_activate h
  | threadContextSwitchPre cpu idle => exact rcuInv_contextSwitchPre h hc
  | powerCpuOnline cpu => exact rcuInv_activate h
  | vcpuBlockFinish cpu => exact rcuInv_activate h
  | idleYield cpu => exact rcuInv_deactivateIfRunning h hc
  | threadExitToUser cpu => exact rcuInv_deactivateIfRunning h hc
  | powerCpuSuspend cpu => exact rcuInv_powerCpuSuspend h hc
  | powerCpuOffline cpu => exact rcuInv_deactivate h hc.1
  | schedulerQuiescent cpu => exact rcuInv_quiesce h hc
  | quiesceIpi cpu => exact rcuInv_quiesce h hc
  | notifyIpi cpu => exact rcuInv_notify h
  | updateIpi cpu => exact rcuInv_update h

end Preservation

/-! ## The model implements the grace-period machine -/

/-- The state of the grace-period machine that a state of the model implements: the readers'
nesting and the entries' waits. -/
def absState (s : RcuState) : GracePeriod.State Cpu Nat := ⟨s.readDepth, s.blockers⟩

/-- The step of the grace-period machine that a step of the model takes, given the entries whose
handlers it ran. -/
def image : RcuCall → List Nat → GracePeriod.Step Cpu Nat
  | .readStart cpu, _ => .readStart cpu
  | .readFinish cpu, _ => .readFinish cpu
  | .enqueue _ entry, _ => .defer entry
  | _, handled => .invoke handled

section Simulation

variable {s : RcuState} {c : RcuCall}

/-- A step that only runs handlers moves the grace-period machine by invoking them. -/
theorem absState_of_keepsReaders {s' : RcuState} {handled : List Nat} (h : KeepsReaders s s') :
    absState s' = (GracePeriod.Step.invoke handled).apply (absState s) := by
  simp only [absState, GracePeriod.Step.apply, h.1, h.2]

/-- The handlers a step runs are those of entries on some CPU's ready batch. -/
theorem mem_ready_of_run {e : Nat} (h : e ∈ (c.run s).2) : ∃ cpu, e ∈ s.readyBatch cpu := by
  cases c with
  | readStart cpu | readFinish cpu | enqueue cpu _ | threadEntryFromUser cpu
  | preemptInterrupt cpu | powerCpuOnline cpu | vcpuBlockFinish cpu => cases h
  | threadContextSwitchPre cpu idle => exact ⟨cpu, mem_ready_of_contextSwitchPre h⟩
  | idleYield cpu | threadExitToUser cpu => exact ⟨cpu, mem_ready_of_deactivateIfRunning h⟩
  | powerCpuSuspend cpu => exact ⟨cpu, mem_ready_of_powerCpuSuspend h⟩
  | powerCpuOffline cpu => exact ⟨cpu, mem_ready_of_deactivate h⟩
  | schedulerQuiescent cpu | quiesceIpi cpu => exact ⟨cpu, mem_ready_of_quiesce h⟩
  | notifyIpi cpu => exact ⟨cpu, mem_ready_of_notify h⟩
  | updateIpi cpu => exact ⟨cpu, mem_ready_of_update h⟩

/-- Every step of the model moves the grace-period machine by its image. -/
theorem absState_run : absState (c.run s).1 = (image c (c.run s).2).apply (absState s) := by
  cases c with
  | readStart cpu | readFinish cpu => rfl
  | enqueue cpu entry =>
    simp only [RcuCall.run, image, rcuEnqueue_eq]
    rfl
  | threadEntryFromUser cpu | preemptInterrupt cpu | powerCpuOnline cpu | vcpuBlockFinish cpu =>
    exact absState_of_keepsReaders keepsReaders_activate
  | threadContextSwitchPre cpu idle => exact absState_of_keepsReaders keepsReaders_contextSwitchPre
  | idleYield cpu | threadExitToUser cpu =>
    exact absState_of_keepsReaders keepsReaders_deactivateIfRunning
  | powerCpuSuspend cpu => exact absState_of_keepsReaders keepsReaders_powerCpuSuspend
  | powerCpuOffline cpu => exact absState_of_keepsReaders keepsReaders_deactivate
  | schedulerQuiescent cpu | quiesceIpi cpu => exact absState_of_keepsReaders keepsReaders_quiesce
  | notifyIpi cpu => exact absState_of_keepsReaders keepsReaders_notify
  | updateIpi cpu => exact absState_of_keepsReaders keepsReaders_update

/-- In a state of the invariant, the image of an allowed step is enabled: in particular the
handlers it runs are of entries that wait for no reader. -/
theorem image_enabled (h : RcuInv s) (hc : c.Allowed s) :
    (image c (c.run s).2).Enabled (absState s) := by
  cases c with
  | readStart cpu => trivial
  | readFinish cpu => exact hc
  | enqueue cpu e => trivial
  | _ =>
    intro e he
    obtain ⟨cpu, hr⟩ := mem_ready_of_run he
    exact h.ready_clear cpu e hr

end Simulation

/-! ## Runs -/

/-- The steps of the grace-period machine that a run of the model takes. -/
def trace : RcuState → List RcuCall → List (GracePeriod.Step Cpu Nat)
  | _, [] => []
  | s, c :: cs => image c (c.run s).2 :: trace (c.run s).1 cs

section RunLemmas

variable {allowed : RcuState → RcuCall → Prop} {s : RcuState} {cs cs' : List RcuCall}

theorem runCalls_append : ∀ {s : RcuState} {cs : List RcuCall},
    runCalls s (cs ++ cs') = runCalls (runCalls s cs) cs'
  | _, [] => rfl
  | s, c :: cs => by
    simp only [List.cons_append, runCalls]
    exact runCalls_append

theorem valid_append : ∀ {s : RcuState} {cs : List RcuCall},
    Valid allowed s (cs ++ cs') ↔ Valid allowed s cs ∧ Valid allowed (runCalls s cs) cs'
  | _, [] => by simp [Valid, runCalls]
  | s, c :: cs => by
    simp only [List.cons_append, Valid, runCalls, valid_append, and_assoc]

theorem trace_append : ∀ {s : RcuState} {cs : List RcuCall},
    trace s (cs ++ cs') = trace s cs ++ trace (runCalls s cs) cs'
  | _, [] => rfl
  | s, c :: cs => by
    simp only [List.cons_append, trace, runCalls, trace_append]

theorem trace_append_cons (s : RcuState) (cs : List RcuCall) (c : RcuCall) :
    trace s (cs ++ c :: cs') =
      trace s cs ++ image c (c.run (runCalls s cs)).2 :: trace (c.run (runCalls s cs)).1 cs' := by
  rw [trace_append]
  rfl

theorem length_trace : ∀ {s : RcuState} {cs : List RcuCall}, (trace s cs).length = cs.length
  | _, [] => rfl
  | s, c :: cs => by simp only [trace, List.length_cons, length_trace]

theorem trace_take : ∀ {s : RcuState} {cs : List RcuCall} (k : Nat),
    trace s (cs.take k) = (trace s cs).take k
  | _, [], _ => by simp [trace]
  | _, _ :: _, 0 => rfl
  | s, c :: cs, k + 1 => by simp only [List.take_succ_cons, trace, trace_take k]

/-- Only queueing an entry defers it. -/
theorem mem_enqueue_of_defer {e : Nat} : ∀ {s : RcuState} {cs : List RcuCall},
    .defer e ∈ trace s cs → ∃ cpu, RcuCall.enqueue cpu e ∈ cs
  | _, [], h => by cases h
  | s, c :: cs, h => by
    rcases List.mem_cons.1 h with h | h
    · cases c <;> simp only [image, reduceCtorEq, GracePeriod.Step.defer.injEq] at h
      subst h
      exact ⟨_, List.mem_cons_self⟩
    · obtain ⟨cpu, hc⟩ := mem_enqueue_of_defer h
      exact ⟨cpu, List.mem_cons_of_mem c hc⟩

theorem absState_runCalls : ∀ {s : RcuState} {cs : List RcuCall},
    absState (runCalls s cs) = GracePeriod.run (absState s) (trace s cs)
  | _, [] => rfl
  | s, c :: cs => by
    simp only [runCalls, trace, GracePeriod.run_cons, ← absState_run, absState_runCalls]

variable (hallowed : ∀ s c, allowed s c → c.Allowed s)
include hallowed

theorem rcuInv_runCalls : ∀ {s : RcuState} {cs : List RcuCall},
    Valid allowed s cs → RcuInv s → RcuInv (runCalls s cs)
  | _, [], _, h => h
  | s, c :: cs, hv, h => by
    show RcuInv (runCalls (c.run s).1 cs)
    exact rcuInv_runCalls hv.2 (rcuInv_run h (hallowed _ _ hv.1))

/-- A run of the model is a run of the grace-period machine. -/
theorem valid_trace : ∀ {s : RcuState} {cs : List RcuCall},
    Valid allowed s cs → RcuInv s → GracePeriod.Valid (absState s) (trace s cs)
  | _, [], _, _ => trivial
  | _, _ :: _, hv, h => by
    refine ⟨image_enabled h (hallowed _ _ hv.1), ?_⟩
    rw [← absState_run]
    exact valid_trace hv.2 (rcuInv_run h (hallowed _ _ hv.1))

end RunLemmas

/-- The handler of an entry queued at some step of a run runs only after every read-side critical
section that was open at that step has finished: each CPU then inside one has been outside all of
them at some step in between. -/
theorem handler_after_readers {allowed : RcuState → RcuCall → Prop}
    (hallowed : ∀ s c, allowed s c → c.Allowed s) {pre mid post : List RcuCall} {cpu : Cpu}
    {e : Nat} {call : RcuCall} {d : Cpu}
    (hv : Valid allowed RcuState.init (pre ++ .enqueue cpu e :: mid ++ call :: post))
    (hmid : ∀ c, RcuCall.enqueue c e ∉ mid)
    (hrun : e ∈ (call.run (runCalls RcuState.init (pre ++ .enqueue cpu e :: mid))).2)
    (hd : 0 < (runCalls RcuState.init pre).readDepth d) :
    ∃ k ≤ mid.length,
      (runCalls RcuState.init (pre ++ .enqueue cpu e :: mid.take k)).readDepth d = 0 := by
  set s₀ := RcuState.init
  -- the state right after the entry was queued, and the one the handler runs from
  set s₁ := ((RcuCall.enqueue cpu e).run (runCalls s₀ pre)).1
  set s₂ := runCalls s₀ (pre ++ .enqueue cpu e :: mid) with hs₂
  have hcall : image call (call.run s₂).2 = .invoke (call.run s₂).2 := by
    cases call <;> first | rfl | cases hrun
  -- the run of the machine: the entry is deferred, and later invoked
  have hvalid := valid_trace hallowed hv rcuInv_init
  rw [trace_append_cons s₀ (pre ++ .enqueue cpu e :: mid), ← hs₂, hcall, trace_append_cons] at hvalid
  have hdefer : ∀ a ∈ trace s₁ mid, a ≠ .defer e := by
    rintro a ha rfl
    obtain ⟨c, hc⟩ := mem_enqueue_of_defer ha
    exact hmid c hc
  have hpre : 0 < (GracePeriod.run (absState s₀) (trace s₀ pre)).depth d := by
    rw [← absState_runCalls]
    exact hd
  obtain ⟨k, hk, hzero⟩ := GracePeriod.invoke_after_readers (absState s₀) (trace s₀ pre)
    (trace s₁ mid) (trace (call.run s₂).1 post) e (call.run s₂).2 d hvalid hrun hdefer hpre
  rw [length_trace] at hk
  refine ⟨k, hk, ?_⟩
  -- back from the machine to the model
  have hstate := @absState_runCalls s₀ (pre ++ .enqueue cpu e :: mid.take k)
  rw [trace_append_cons, trace_take] at hstate
  exact (congrArg (fun t => t.depth d) hstate).trans hzero

end Gunyah.Rcu

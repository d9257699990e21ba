import Mathlib

set_option autoImplicit false

/-!
# Grace periods

The specification that a read-copy-update implementation meets, as an abstract machine over CPUs
and callbacks. Readers enter and leave read-side critical sections, which nest; a callback is
deferred, and it may be invoked once every critical section that was open when it was deferred has
finished. The machine keeps, for each callback, the CPUs it still waits for (`waitFor`): the CPUs
that were inside a critical section when it was deferred and have not been outside one since. A
CPU leaves every such set when its nesting depth drops to zero, and `invoke` is enabled only for
callbacks that wait for no CPU.

`invoke_after_readers` states what that buys over a whole run: when a callback deferred at some
step is invoked later, every CPU that was inside a critical section at the deferral has been
outside all critical sections at some step in between.
-/

namespace GracePeriod

variable {Cpu Cb : Type} [DecidableEq Cpu] [Fintype Cpu] [DecidableEq Cb]

/-- The nesting depth of the read-side critical sections of every CPU, and the CPUs each callback
still waits for. -/
structure State (Cpu Cb : Type) where
  depth : Cpu → Nat
  waitFor : Cb → Finset Cpu

/-- The steps: enter or leave a critical section, defer a callback, invoke some callbacks. -/
inductive Step (Cpu Cb : Type) where
  | readStart (c : Cpu)
  | readFinish (c : Cpu)
  | defer (cb : Cb)
  | invoke (cbs : List Cb)
deriving DecidableEq

/-- The CPUs inside a read-side critical section. -/
def readers (s : State Cpu Cb) : Finset Cpu := Finset.univ.filter fun c => 0 < s.depth c

/-- What a step does. Leaving the outermost critical section removes the CPU from every wait set;
deferring a callback makes it wait for the current readers. -/
def Step.apply : Step Cpu Cb → State Cpu Cb → State Cpu Cb
  | .readStart c, s => { s with depth := Function.update s.depth c (s.depth c + 1) }
  | .readFinish c, s =>
    let depth := s.depth c - 1
    { depth := Function.update s.depth c depth
      waitFor := if depth = 0 then fun cb => (s.waitFor cb).erase c else s.waitFor }
  | .defer cb, s => { s with waitFor := Function.update s.waitFor cb (readers s) }
  | .invoke _, s => s

/-- When a step may be taken: a finish needs an open critical section, and a callback is invoked
only when it waits for no CPU. -/
def Step.Enabled : Step Cpu Cb → State Cpu Cb → Prop
  | .readStart _, _ => True
  | .readFinish c, s => 0 < s.depth c
  | .defer _, _ => True
  | .invoke cbs, s => ∀ cb ∈ cbs, s.waitFor cb = ∅

/-- The state after a sequence of steps. -/
def run (s : State Cpu Cb) (steps : List (Step Cpu Cb)) : State Cpu Cb :=
  steps.foldl (fun s a => a.apply s) s

/-- Every step of the sequence is enabled in the state it is taken from. -/
def Valid : State Cpu Cb → List (Step Cpu Cb) → Prop
  | _, [] => True
  | s, a :: steps => a.Enabled s ∧ Valid (a.apply s) steps

section Runs

variable {s : State Cpu Cb} {a : Step Cpu Cb} {steps steps' : List (Step Cpu Cb)}

@[simp] theorem run_nil : run s [] = s := rfl

@[simp] theorem run_cons : run s (a :: steps) = run (a.apply s) steps := rfl

theorem run_append : run s (steps ++ steps') = run (run s steps) steps' :=
  List.foldl_append

theorem valid_append : ∀ {s : State Cpu Cb} {steps : List (Step Cpu Cb)},
    Valid s (steps ++ steps') ↔ Valid s steps ∧ Valid (run s steps) steps'
  | _, [] => by simp [Valid]
  | s, a :: steps => by
    simp only [List.cons_append, Valid, run_cons, valid_append, and_assoc]

end Runs

/-- A CPU that a callback waits for, and whose depth stays positive along a run that does not defer
the callback again, is still waited for at the end. Induction on the run. -/
theorem mem_waitFor_run {cb : Cb} {c : Cpu} :
    ∀ (s : State Cpu Cb) (steps : List (Step Cpu Cb)), Valid s steps →
      (∀ a ∈ steps, a ≠ .defer cb) → c ∈ s.waitFor cb →
      (∀ k ≤ steps.length, 0 < (run s (steps.take k)).depth c) →
      c ∈ (run s steps).waitFor cb
  | _, [], _, _, hc, _ => hc
  | s, a :: steps, hv, hd, hc, hpos => by
    have hstep : c ∈ (a.apply s).waitFor cb := by
      cases a with
      | readStart d => exact hc
      | readFinish d =>
        -- the depth of `c` after this step is positive, so `c` is not the CPU that left
        have h1 := hpos 1 (by simp)
        simp only [List.take_succ_cons, List.take_zero, run_cons, run_nil, Step.apply] at h1
        simp only [Step.apply]
        split
        case isTrue h0 =>
          refine Finset.mem_erase.2 ⟨fun hcd => ?_, hc⟩
          subst hcd
          simp [h0] at h1
        case isFalse => exact hc
      | defer cb' =>
        have hne : cb ≠ cb' := fun h => hd _ List.mem_cons_self (h ▸ rfl)
        simp only [Step.apply, Function.update_of_ne hne]
        exact hc
      | invoke cbs => exact hc
    refine mem_waitFor_run (a.apply s) steps hv.2
      (fun a' ha' => hd a' (List.mem_cons_of_mem _ ha')) hstep fun k hk => ?_
    have h := hpos (k + 1) (by simp; omega)
    simpa using h

/-- A callback invoked after it was deferred waits for every critical section that was open at the
deferral: each CPU that was then inside one has been outside all of them at some step in between. -/
theorem invoke_after_readers (s : State Cpu Cb) (pre mid post : List (Step Cpu Cb)) (cb : Cb)
    (cbs : List Cb) (c : Cpu) (hv : Valid s (pre ++ .defer cb :: mid ++ .invoke cbs :: post))
    (hcb : cb ∈ cbs) (hmid : ∀ a ∈ mid, a ≠ .defer cb) (hc : 0 < (run s pre).depth c) :
    ∃ k ≤ mid.length, (run s (pre ++ .defer cb :: mid.take k)).depth c = 0 := by
  by_contra hne
  simp only [not_exists, not_and] at hne
  -- the state right after the deferral, where `c` is among the readers the callback waits for
  set s₁ := run s (pre ++ [.defer cb]) with hs₁
  have hrun : ∀ k, run s (pre ++ .defer cb :: mid.take k) = run s₁ (mid.take k) := by
    intro k
    rw [hs₁, ← run_append, List.append_assoc, List.singleton_append]
  have hv' : Valid s (pre ++ [.defer cb] ++ (mid ++ .invoke cbs :: post)) := by
    simpa only [List.append_assoc, List.singleton_append, List.cons_append, List.nil_append]
      using hv
  obtain ⟨-, hvrest⟩ := valid_append.1 hv'
  obtain ⟨hvmid, hvinv⟩ := valid_append.1 hvrest
  have hc₁ : c ∈ s₁.waitFor cb := by
    simp only [hs₁, run_append, run_cons, run_nil, Step.apply, Function.update_self, readers]
    simpa using hc
  have hwait := mem_waitFor_run s₁ mid hvmid hmid hc₁ fun k hk => by
    rw [← hrun k]
    exact Nat.pos_of_ne_zero (hne k hk)
  have hempty : (run s₁ mid).waitFor cb = ∅ := hvinv.1 cb hcb
  rw [hempty] at hwait
  exact absurd hwait (Finset.notMem_empty c)

end GracePeriod

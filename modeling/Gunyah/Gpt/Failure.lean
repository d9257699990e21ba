import Gunyah.Gpt.Refinement

set_option autoImplicit false

/-!
# Failed writes, and the GPTs that calls reach

`partition_alloc` may fail in any step of a write. A write that fails after it has written a
first part of its range is undone by the revert of `gpt_write`, which writes the fixed entry
`old` over that part, expecting `new` there. That expectation always holds, so the revert
succeeds when its own allocations do (`WriteDone.revert_ok`). With a match, the write had found
`old` on that part, so the map is back to what it was. Without one (`gpt_insert` with
`expect_empty` false, and `gpt_clear`) only `ERROR_NOMEM` stops a write, and the revert leaves
`old` where the write had written, whatever was there before (`gptWrite_failed`).

Every call keeps the shape of the tree, whatever the handlers and whatever `partition_alloc`
answers, so every GPT that calls reach from `gpt_init` has it (`Reachable.wf`). A level of that
shape holds a filled entry, so `gpt_is_empty`, which only reads the root, says whether the GPT
maps nothing (`gptIsEmpty_iff`).
-/

namespace Gunyah.Gpt

variable {τ V : Type}

/-- `gpt_is_empty`: the root PTE is `GPT_TYPE_EMPTY`. -/
def gptIsEmpty (g : Gpt τ V) : Bool :=
  match g.root with
  | .empty => true
  | _ => false

theorem gptIsEmpty_iff_root {g : Gpt τ V} : gptIsEmpty g = true ↔ g.root = .empty := by
  unfold gptIsEmpty
  split <;> simp_all

/-- The GPTs that calls reach from `gpt_init`, whatever `partition_alloc` answers in them. A call
that panics reaches nothing. -/
inductive Reachable (h : GptHandlers τ V) [DecidableEq τ] : Gpt τ V → Prop
  | init {maxBits : Nat} {allowed : τ → Bool} {g : Gpt τ V} (hinit : gptInit maxBits allowed = .ok g) :
      Reachable h g
  | call {g g' : Gpt τ V} {e : Error} (c : GptCall τ V) (allocs revAllocs : List Bool)
      (hg : Reachable h g) (hrun : c.run h g allocs revAllocs = some (e, g')) : Reachable h g'
  | clearAll {g g' : Gpt τ V} (allocs revAllocs : List Bool) (hg : Reachable h g)
      (hrun : gptClearAll h g allocs revAllocs = some g') : Reachable h g'

/-- The GPT after a sequence of calls in which every allocation succeeds is reached. -/
theorem Reachable.runCalls {h : GptHandlers τ V} [DecidableEq τ] :
    ∀ (calls : List (GptCall τ V)) {g g' : Gpt τ V} {es : List Error},
      Reachable h g → Gunyah.Gpt.runCalls h g calls = some (es, g') → Reachable h g'
  | [], _, _, _, hg, hrun => by
    simp only [Gunyah.Gpt.runCalls, Option.some.injEq, Prod.mk.injEq] at hrun
    exact hrun.2 ▸ hg
  | c :: cs, g, g', es, hg, hrun => by
    simp only [Gunyah.Gpt.runCalls] at hrun
    split at hrun
    case h_1 => cases hrun
    case h_2 e g₁ hc =>
      obtain ⟨⟨es', g₂⟩, hrun', heq⟩ := Option.map_eq_some_iff.1 hrun
      cases heq
      exact Reachable.runCalls cs (.call c [] [] hg hc) hrun'

/-- The range checks of `gpt_write` pass exactly on a range that is not empty and ends by
`2 ^ max_bits`, for `max_bits` at most 64. -/
theorem writeChecks_pass_iff {base size maxBits : Nat} (hbits : maxBits ≤ 64) :
    (¬ (size == 0 || FixedWidth.addOverflows 64 base (size - 1)) = true ∧
      ¬ base + size - 1 > 2 ^ maxBits - 1) ↔ 0 < size ∧ base + size ≤ 2 ^ maxBits := by
  simp only [Bool.or_eq_true, beq_iff_eq, FixedWidth.addOverflows, decide_eq_true_eq, not_or]
  have hpos := Nat.two_pow_pos maxBits
  have hle : 2 ^ maxBits ≤ 2 ^ 64 := Nat.pow_le_pow_right (by decide) hbits
  generalize 2 ^ 64 = m at hle ⊢
  omega

/-- A range that ends by `2 ^ max_bits` ends by `2 ^ GPT_MAX_SIZE_BITS`. -/
theorem end_le_two_pow_maxSizeBits {g : Gpt τ V} (hbits : g.maxBits ≤ maxSizeBits)
    {base size : Nat} (hend : base + size ≤ 2 ^ g.maxBits) : base + size ≤ 2 ^ maxSizeBits :=
  Nat.le_trans hend (Nat.pow_le_pow_right (by decide) hbits)

section Write

variable {h : GptHandlers τ V} [DecidableEq τ]

/-- A loop that did not end with the whole range done stopped inside it. -/
theorem LoopEnd.lt_of_ne_ok {M : GptMap τ V} {base size : Nat} {old : GptEntry τ V}
    {isMatch : Bool} {allocs : List Bool} {e : Error} {offset : Nat}
    (hend : LoopEnd h M base size old isMatch allocs e offset) (he : e ≠ .ok) : offset < size := by
  rcases hend with ⟨rfl, -⟩ | ⟨-, -, hoff, -⟩ | ⟨-, hoff, -⟩
  · exact absurd rfl he
  · exact hoff
  · exact hoff

/-- `gpt_write` on a well-formed GPT, whatever `partition_alloc` answers, leaves a well-formed
GPT if it does not panic. -/
theorem gptWrite_wf {g g' : Gpt τ V} (hg : g.root.Wf 0 maxSizeBits) (hbits : g.maxBits ≤ maxSizeBits)
    {base size : Nat} {old new : GptEntry τ V} {isMatch : Bool} {allocs revAllocs : List Bool}
    {e : Error} (hw : gptWrite h g base size old new isMatch allocs revAllocs = some (e, g')) :
    g'.root.Wf 0 maxSizeBits ∧ g'.maxBits = g.maxBits := by
  unfold gptWrite at hw
  split at hw
  case isTrue =>
    cases hw
    exact ⟨hg, rfl⟩
  case isFalse hinv =>
    split at hw
    case isTrue =>
      cases hw
      exact ⟨hg, rfl⟩
    case isFalse hbig =>
      obtain ⟨-, hend⟩ := (writeChecks_pass_iff (Nat.le_trans hbits (by decide))).1 ⟨hinv, hbig⟩
      have hend' : base + size ≤ 2 ^ maxSizeBits := end_le_two_pow_maxSizeBits hbits hend
      obtain ⟨root₁, e₁, r₁, hrun₁, hwf₁, -, hend₁⟩ := gptDoWrite_spec hg hend' old new isMatch allocs
      rw [hrun₁] at hw
      simp only at hw
      split at hw
      case isTrue hfail =>
        -- The revert runs over the part done, which lies in the range.
        have hr₁ : r₁ < size := hend₁.lt_of_ne_ok hfail.1
        obtain ⟨root₂, e₂, r₂, hrun₂, hwf₂, -, -⟩ :=
          gptDoWrite_spec hwf₁ (show base + r₁ ≤ 2 ^ maxSizeBits by omega) new old true revAllocs
        rw [hrun₂] at hw
        split at hw
        case h_1 root₃ _ heq =>
          cases hw
          obtain ⟨rfl, -⟩ : root₂ = root₃ ∧ _ := by
            simpa only [Option.some.injEq, Prod.mk.injEq] using heq
          exact ⟨hwf₂, rfl⟩
        case h_2 => cases hw
      case isFalse =>
        cases hw
        exact ⟨hwf₁, rfl⟩

/-- Every call on a well-formed GPT leaves a well-formed GPT if it does not panic. -/
theorem GptCall.run_wf {g g' : Gpt τ V} (hg : g.root.Wf 0 maxSizeBits)
    (hbits : g.maxBits ≤ maxSizeBits) (c : GptCall τ V) {allocs revAllocs : List Bool} {e : Error}
    (hrun : c.run h g allocs revAllocs = some (e, g')) :
    g'.root.Wf 0 maxSizeBits ∧ g'.maxBits = g.maxBits := by
  -- Each call is a write, or returns the GPT as it was for an entry it rejects.
  cases c with
  | insert base size entry expectEmpty =>
    simp only [GptCall.run, gptInsert] at hrun
    split at hrun
    case isTrue => exact gptWrite_wf hg hbits hrun
    case isFalse => cases hrun; exact ⟨hg, rfl⟩
  | update base size oldEntry newEntry =>
    simp only [GptCall.run, gptUpdate] at hrun
    split at hrun
    case isTrue => exact gptWrite_wf hg hbits hrun
    case isFalse => cases hrun; exact ⟨hg, rfl⟩
  | remove base size entry =>
    simp only [GptCall.run, gptRemove] at hrun
    split at hrun
    case isTrue => exact gptWrite_wf hg hbits hrun
    case isFalse => cases hrun; exact ⟨hg, rfl⟩
  | clear base size => exact gptWrite_wf hg hbits hrun

/-- `gpt_clear_all` on a well-formed GPT leaves a well-formed GPT if it does not fail. -/
theorem gptClearAll_wf {g g' : Gpt τ V} (hg : g.root.Wf 0 maxSizeBits)
    (hbits : g.maxBits ≤ maxSizeBits) {allocs revAllocs : List Bool}
    (hrun : gptClearAll h g allocs revAllocs = some g') :
    g'.root.Wf 0 maxSizeBits ∧ g'.maxBits = g.maxBits := by
  unfold gptClearAll at hrun
  split at hrun
  case h_1 g₁ hclear =>
    cases hrun
    exact gptWrite_wf hg hbits hclear
  case h_2 => cases hrun

/-- Every GPT that calls reach from `gpt_init` has the shape the code keeps, whatever the
handlers. -/
theorem Reachable.wf {g : Gpt τ V} (hr : Reachable h g) :
    g.root.Wf 0 maxSizeBits ∧ g.maxBits ≤ maxSizeBits := by
  induction hr with
  | init hinit =>
    unfold gptInit at hinit
    split at hinit
    case isTrue => cases hinit
    case isFalse hbits =>
      cases hinit
      exact ⟨⟨trivial, trivial⟩, Nat.le_of_not_lt hbits⟩
  | call c allocs revAllocs _ hrun ih =>
    obtain ⟨hwf, hmb⟩ := c.run_wf ih.1 ih.2 hrun
    exact ⟨hwf, hmb ▸ ih.2⟩
  | clearAll allocs revAllocs _ hrun ih =>
    obtain ⟨hwf, hmb⟩ := gptClearAll_wf ih.1 ih.2 hrun
    exact ⟨hwf, hmb ▸ ih.2⟩

/-- A write on a reached GPT that fails after it wrote the first `r > 0` addresses of its range,
with every allocation of the revert succeeding, does not panic: it returns the error, leaves the
map alone outside the range, and leaves `old` on the part written, whatever was there before.
Only with a match is that the map before the write. -/
theorem gptWrite_failed (hl : h.Lawful) {g : Gpt τ V} (hg : Reachable h g) {base size : Nat} (hpos : 0 < size)
    (hend : base + size ≤ 2 ^ g.maxBits) {old new : GptEntry τ V} {isMatch : Bool}
    {allocs revAllocs : List Bool} (hrev : false ∉ revAllocs) {root : Pte τ V} {e : Error} {r : Nat}
    (hrun : gptDoWrite h g.root base size old new isMatch allocs = some (root, e, r))
    (he : e ≠ .ok) (hr : 0 < r) :
    ∃ g', gptWrite h g base size old new isMatch allocs revAllocs = some (e, g') ∧
      g'.root.Wf 0 maxSizeBits ∧
      (∀ a, a < base ∨ base + size ≤ a → EntryEq h (g'.root.den h a) (g.root.den h a)) ∧
      (∀ a, base ≤ a → a < base + r → EntryEq h (g'.root.den h a) (entryAddOffset h old (a - base))) ∧
      (isMatch = true → MapEq h (g'.root.den h) (g.root.den h)) := by
  obtain ⟨hwf, hbits⟩ := hg.wf
  have hend' : base + size ≤ 2 ^ maxSizeBits := end_le_two_pow_maxSizeBits hbits hend
  -- The write: what it did on the part done, and where it stopped.
  obtain ⟨root₁, e₁, r₁, hrun₁, hwf₁, hd, hend₁⟩ := gptDoWrite_spec hwf hend' old new isMatch allocs
  replace hd := hd hl
  rw [hrun] at hrun₁
  obtain ⟨rfl, rfl, rfl⟩ : root = root₁ ∧ e = e₁ ∧ r = r₁ := by
    simpa only [Option.some.injEq, Prod.mk.injEq] using hrun₁
  have hrs : r < size := hend₁.lt_of_ne_ok he
  -- The revert: it writes back all of the part done.
  obtain ⟨root₂, e₂, r₂, hrun₂, hwf₂, hd₂, hend₂⟩ :=
    gptDoWrite_spec hwf₁ (show base + r ≤ 2 ^ maxSizeBits by omega) new old true revAllocs
  replace hd₂ := hd₂ hl
  obtain ⟨rfl, hle⟩ := hd.revert_ok hl hrs.le hend₂ hrev
  refine ⟨{ g with root := root₂ }, ?_, hwf₂, fun a ha => ?_, fun a ha ha' => ?_, fun hm => ?_⟩
  · obtain ⟨hinv, hbig⟩ := (writeChecks_pass_iff (Nat.le_trans hbits (by decide))).2 ⟨hpos, hend⟩
    unfold gptWrite
    rw [if_neg hinv, if_neg hbig, hrun]
    simp only [ne_eq, he, not_false_eq_true, Nat.pos_iff_ne_zero.1 hr, and_self, if_true, hrun₂]
  · exact EntryEq.trans hl (hd₂.out a (by omega)) (hd.out a ha)
  · exact hd₂.done a ha (by omega) ha'
  · subst hm
    exact (hd.revert hl hrs hd₂ hend₂ hrev).2

end Write

/-- The failing input: a GPT mapping `[0, 32)` through two leaves, and `gpt_insert` of another
entry over `[0, 24)` without `expect_empty`, where `partition_alloc` fails when the write splits
the leaf at 16. The insert returns `ERROR_NOMEM`, and the revert empties `[0, 16)`, which was
mapped before. -/
theorem gptWrite_failed_insert :
    ∃ g g', runCalls parityHandlers ⟨.empty, 52, fun _ => true⟩
        [.insert 0 16 (some ((), 0)) true, .insert 16 16 (some ((), 16)) true] = some ([.ok, .ok], g) ∧
      g.root.den parityHandlers 3 = some ((), 3) ∧
      gptInsert parityHandlers g 0 24 (some ((), 100)) false [true, true, false] [] = some (.nomem, g') ∧
      g'.root.den parityHandlers 3 = none := by
  obtain ⟨g, hg⟩ : ∃ g, runCalls parityHandlers ⟨.empty, 52, fun _ => true⟩
      [.insert 0 16 (some ((), 0)) true, .insert 16 16 (some ((), 16)) true] = some ([.ok, .ok], g) :=
    ⟨_, rfl⟩
  -- What the two inserts built, and where the write of the insert stops.
  have hfacts : (runCalls parityHandlers ⟨.empty, 52, fun _ => true⟩
      [.insert 0 16 (some ((), 0)) true, .insert 16 16 (some ((), 16)) true]).map (fun p =>
        (p.2.root.den parityHandlers 3, p.2.allowedTypes (), p.2.maxBits,
          (gptDoWrite parityHandlers p.2.root 0 24 none (some ((), 100)) false
            [true, true, false]).map fun q => q.2)) =
      some (some ((), 3), true, 52, some (.nomem, 16)) := by decide
  have hinit : (gptInit 52 (fun _ => true) : Except Error (Gpt Unit Nat)) =
      .ok ⟨.empty, 52, fun _ => true⟩ := rfl
  rw [hg] at hfacts
  simp only [Option.map_some, Option.some.injEq, Prod.mk.injEq] at hfacts
  obtain ⟨hden, hallow, hbits, hrun⟩ := hfacts
  obtain ⟨⟨root, e, r⟩, hrun', heq⟩ := Option.map_eq_some_iff.1 hrun
  obtain ⟨rfl, rfl⟩ : e = .nomem ∧ r = 16 := by simpa only [Prod.mk.injEq] using heq
  obtain ⟨g', hw, -, -, hpre, -⟩ := gptWrite_failed parityHandlers_lawful
    (Reachable.runCalls _ (.init hinit) hg) (by decide) (by rw [hbits]; decide) List.not_mem_nil hrun'
    (by decide) (by decide)
  refine ⟨g, g', hg, hden, ?_, ?_⟩
  · simpa only [gptInsert, Gpt.entryIsValid, hallow, if_true] using hw
  · simpa using hpre 3 (by decide) (by decide)

/-- On a GPT of the shape the code keeps, `gpt_is_empty` says whether it maps nothing: a level of
that shape holds a filled entry, which maps an address. -/
theorem gptIsEmpty_iff_of_wf (h : GptHandlers τ V) {g : Gpt τ V} (hwf : g.root.Wf 0 maxSizeBits) :
    gptIsEmpty g = true ↔ ∀ a, g.root.den h a = none := by
  rw [gptIsEmpty_iff_root]
  constructor
  · intro hempty a
    rw [hempty]
    rfl
  · intro hnone
    by_contra hne
    obtain ⟨a, -, ha⟩ := hwf.2.exists_den h hne
    exact ha (hnone a)

/-- `gpt_is_empty` on a GPT that calls reach, with any handlers, says whether it maps nothing. -/
theorem gptIsEmpty_iff {h : GptHandlers τ V} [DecidableEq τ] {g : Gpt τ V} (hg : Reachable h g) :
    gptIsEmpty g = true ↔ ∀ a, g.root.den h a = none :=
  gptIsEmpty_iff_of_wf h hg.wf.1

/-! ## A type no module subscribes to -/

/-- The handlers of a GPT type that no module subscribes to, such as `GPT_TYPE_VMMIO_RANGE` in an
address space's `vmmio_ranges`: `gpt_value_add_offset` leaves the value alone, and
`gpt_values_equal` returns its default, false. -/
def vmmioHandlers : GptHandlers Unit Nat := ⟨fun _ v _ => v, fun _ _ _ => false⟩

/-- Inserting two ranges and clearing them both collapses the level back to an empty root, so the
GPT maps nothing, though its values are never equal. -/
theorem gptIsEmpty_iff_cleared :
    ∃ g, runCalls vmmioHandlers ⟨.empty, 52, fun _ => true⟩
        [.insert 0 16 (some ((), 0)) true, .insert 16 16 (some ((), 16)) true, .clear 0 32] =
        some ([.ok, .ok, .ok], g) ∧
      ∀ a, g.root.den vmmioHandlers a = none := by
  obtain ⟨g, hg⟩ : ∃ g, runCalls vmmioHandlers ⟨.empty, 52, fun _ => true⟩
      [.insert 0 16 (some ((), 0)) true, .insert 16 16 (some ((), 16)) true, .clear 0 32] =
      some ([.ok, .ok, .ok], g) := ⟨_, rfl⟩
  have hempty : (runCalls vmmioHandlers ⟨.empty, 52, fun _ => true⟩
      [.insert 0 16 (some ((), 0)) true, .insert 16 16 (some ((), 16)) true,
        .clear 0 32]).map (fun p => gptIsEmpty p.2) = some true := by decide
  have hinit : (gptInit 52 (fun _ => true) : Except Error (Gpt Unit Nat)) =
      .ok ⟨.empty, 52, fun _ => true⟩ := rfl
  rw [hg, Option.map_some, Option.some.injEq] at hempty
  exact ⟨g, hg, (gptIsEmpty_iff (Reachable.runCalls _ (.init hinit) hg)).1 hempty⟩

end Gunyah.Gpt

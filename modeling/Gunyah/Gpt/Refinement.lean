import Gunyah.Gpt.Step

set_option autoImplicit false

/-!
# A GPT refines its map

The first loop of `gpt_do_write` keeps `LoopInv`: outside the range the map is the one before the
write, the part of the range done maps the new entry, and with a match the rest of the range is
untouched and the part done held the old entry. A step either fails, advances, or asks to be
called again with a lower `stepMeasure`, so `writeFuel` steps always suffice
(`doWriteLoop_spec`). After the unwind (`gptDoWrite_spec`) and the revert of `gpt_write`
(`gptWrite_spec`), each call of the interface returns the error of `specCall` and leaves a tree
that maps, up to `values_equal`, what `specCall` says (`runCalls_spec`).

The loop ends, and keeps the walk's invariant, whatever the handlers; what it says of the map
holds for lawful ones. Up to `values_equal` is all that holds: `try_clean` merges consistent
leaves into one with the value of the first, so a GPT can map an entry that is only equal by
`gpt_values_equal` to the one written (`gptInsert_not_exact`).
-/

namespace Gunyah.Gpt

open Function

variable {τ V : Type}

/-! ## What the first loop keeps -/

section State

variable (h : GptHandlers τ V) [DecidableEq τ]

/-- The map `M'` during a write of `new` over `[base, base + size)`, expecting `old` if `isMatch`,
into a tree whose map was `M`, with `offset` addresses done: outside the range it is `M`; the part
done maps `new`, offset along the range; with a match the rest is still `M`, and the part done
held `old`. -/
structure WriteDone (M M' : GptMap τ V) (base size : Nat) (old new : GptEntry τ V) (isMatch : Bool)
    (offset : Nat) : Prop where
  out : ∀ a, a < base ∨ base + size ≤ a → EntryEq h (M' a) (M a)
  done : ∀ a, base ≤ a → a < base + offset → a < base + size →
    EntryEq h (M' a) (entryAddOffset h new (a - base))
  todo : isMatch = true → ∀ a, base + offset ≤ a → EntryEq h (M' a) (M a)
  checked : isMatch = true → ∀ a, base ≤ a → a < base + offset → a < base + size →
    EntryEq h (M a) (entryAddOffset h old (a - base))

/-- The invariant of the first loop of `gpt_do_write` at `base + offset`: the walk's, and for
lawful handlers what the loop has written. -/
structure LoopInv (M : GptMap τ V) (base size : Nat) (old new : GptEntry τ V) (isMatch : Bool)
    (w : Walk τ V) (offset : Nat) : Prop where
  inv : w.Inv (base + offset)
  state : h.Lawful → WriteDone h M (w.root.den h) base size old new isMatch offset

/-- How the first loop ends: with the whole range done, with `ERROR_BUSY` where, for lawful
handlers, an address of the rest of the range does not hold `old`, or with `ERROR_NOMEM` where
one of the outcomes `allocs` of `partition_alloc` is a failure. -/
def LoopEnd (M : GptMap τ V) (base size : Nat) (old : GptEntry τ V) (isMatch : Bool)
    (allocs : List Bool) (e : Error) (offset : Nat) : Prop :=
  (e = .ok ∧ size ≤ offset) ∨
    (e = .busy ∧ isMatch = true ∧ offset < size ∧ (h.Lawful →
      ∃ a, base + offset ≤ a ∧ a < base + size ∧ ¬ EntryEq h (M a) (entryAddOffset h old (a - base)))) ∨
    (e = .nomem ∧ offset < size ∧ false ∈ allocs)

end State

/-- A write with the whole range done maps the range to `new`, and with a match found `old`
there. -/
theorem WriteDone.complete {h : GptHandlers τ V} [DecidableEq τ] {M M' : GptMap τ V}
    {base size : Nat} {old new : GptEntry τ V} {isMatch : Bool} {offset : Nat}
    (hd : WriteDone h M M' base size old new isMatch offset) (hoff : size ≤ offset) :
    MapEq h M' (writeRange h M base size new) ∧ (isMatch = true → Holds h M base size old) := by
  refine ⟨fun a => ?_, fun hm a ha ha' => hd.checked hm a ha (by omega) ha'⟩
  unfold writeRange
  split
  case isTrue hin => exact hd.done a hin.1 (by omega) hin.2
  case isFalse hout => exact hd.out a (by omega)

/-- A loop that ended as `LoopEnd` says for the outcomes after the first also ended so for all of
them. -/
theorem LoopEnd.of_tail {h : GptHandlers τ V} [DecidableEq τ] {M : GptMap τ V} {base size : Nat}
    {old : GptEntry τ V} {isMatch : Bool} {allocs : List Bool} {e : Error} {offset : Nat}
    (he : LoopEnd h M base size old isMatch allocs.tail e offset) :
    LoopEnd h M base size old isMatch allocs e offset := by
  rcases he with hok | hbusy | ⟨he, hoff, hf⟩
  · exact Or.inl hok
  · exact Or.inr (Or.inl hbusy)
  · exact Or.inr (Or.inr ⟨he, hoff, List.mem_of_mem_tail hf⟩)

/-- A step whose allocation failed had a failure among the outcomes. -/
theorem false_mem_of_headD {allocs : List Bool} (hf : allocs.headD true = false) :
    false ∈ allocs := by
  cases allocs with
  | nil => exact absurd hf (by decide)
  | cons b bs =>
    have hb : b = false := hf
    rw [hb]
    exact List.mem_cons_self

/-- The old and new entries as the loop carries them, offset to `offset`, offset again to an
address past it are offset to that address. -/
theorem entryAddOffset_offset {h : GptHandlers τ V} (hl : h.Lawful) (e : GptEntry τ V)
    {base offset a : Nat} (ha : base + offset ≤ a) :
    entryAddOffset h (entryAddOffset h e offset) (a - (base + offset)) =
      entryAddOffset h e (a - base) := by
  rw [entryAddOffset_add hl.offsetLaws]
  congr 1
  omega

section Loop

variable {h : GptHandlers τ V} [DecidableEq τ] {M : GptMap τ V} {base size : Nat}
  {old new : GptEntry τ V} {isMatch : Bool}

/-- A map equal, up to `values_equal`, to one reached during a write is reached too. -/
theorem WriteDone.congr (hl : h.Lawful) {M' M'' : GptMap τ V} {offset : Nat}
    (hd : WriteDone h M M' base size old new isMatch offset) (hM : MapEq h M'' M') :
    WriteDone h M M'' base size old new isMatch offset where
  out a ha := EntryEq.trans hl (hM a) (hd.out a ha)
  done a ha ha' ha'' := EntryEq.trans hl (hM a) (hd.done a ha ha' ha'')
  todo hm a ha := EntryEq.trans hl (hM a) (hd.todo hm a ha)
  checked := hd.checked

/-- At most 105 steps in a row ask to be called again. -/
theorem stepMeasure_le {w : Walk τ V} {curr : Nat} (hw : w.Inv curr)
    (hcurr : curr < 2 ^ maxSizeBits) : stepMeasure h w curr ≤ 105 := by
  have ht := (getMaxEntryShifts_spec (Walk.getCurrPte_spec (h := h) hcurr hw).inv.frames).1
  simp only [maxSizeBits] at ht
  simp only [stepMeasure]
  split <;> omega

/-- The loop after a step that left the map as `get_curr_pte` left it, `D`, which is the map
before up to `values_equal`. -/
theorem LoopInv.of_unchanged {w w' : Walk τ V} {offset : Nat} {D : GptMap τ V}
    (hI : LoopInv h M base size old new isMatch w offset) (hw : w'.Inv (base + offset))
    (hD : h.Lawful → MapEq h D (w.root.den h)) (hden : h.Lawful → ∀ a, w'.root.den h a = D a) :
    LoopInv h M base size old new isMatch w' offset :=
  ⟨hw, fun hl => (hI.state hl).congr hl fun a => by rw [hden hl]; exact hD hl a⟩

/-- The loop after a step that advanced by `r`, where `x` and `y` are the old and new entries as
the loop carries them. -/
theorem LoopInv.advance {w w' : Walk τ V} {offset r : Nat} {D : GptMap τ V} {x y : GptEntry τ V}
    (hI : LoopInv h M base size old new isMatch w offset)
    (hxy : h.Lawful → x = entryAddOffset h old offset ∧ y = entryAddOffset h new offset)
    (hD : h.Lawful → MapEq h D (w.root.den h)) (hoff : offset < size) (hw : w'.Inv (base + offset))
    (hdone : ∀ a, base + offset ≤ a → a < base + offset + r → a < base + offset + (size - offset) →
      w'.root.den h a = entryAddOffset h y (a - (base + offset)))
    (hout : ∀ a, a < base + offset ∨ base + offset + (size - offset) ≤ a → w'.root.den h a = D a)
    (htodo : isMatch = true → ∀ a, base + offset + r ≤ a → w'.root.den h a = D a)
    (hcheck : isMatch = true → h.Lawful → ∀ a, base + offset ≤ a → a < base + offset + r →
      a < base + offset + (size - offset) →
      EntryEq h (D a) (entryAddOffset h x (a - (base + offset)))) :
    LoopInv h M base size old new isMatch w' (offset + r) := by
  refine ⟨hw.mono (by omega), fun hl => ?_⟩
  obtain ⟨rfl, rfl⟩ := hxy hl
  obtain ⟨out, done, todo, checked⟩ := hI.state hl
  -- Where the step left the map alone, it is the map before the step.
  have hkeep : ∀ a, w'.root.den h a = D a → EntryEq h (w'.root.den h a) (w.root.den h a) :=
    fun a ha => by rw [ha]; exact hD hl a
  refine ⟨fun a ha => ?_, fun a ha ha' ha'' => ?_, fun hm a ha => ?_, fun hm a ha ha' ha'' => ?_⟩
  · exact EntryEq.trans hl (hkeep a (hout a (by omega))) (out a ha)
  · by_cases hlt : a < base + offset
    · exact EntryEq.trans hl (hkeep a (hout a (Or.inl hlt))) (done a ha hlt ha'')
    · rw [hdone a (by omega) (by omega) (by omega), entryAddOffset_offset hl new (by omega)]
      exact EntryEq.refl hl _
  · exact EntryEq.trans hl (hkeep a (htodo hm a (by omega))) (todo hm a (by omega))
  · by_cases hlt : a < base + offset
    · exact checked hm a ha hlt ha''
    · have hchk := hcheck hm hl a (by omega) (by omega) (by omega)
      rw [entryAddOffset_offset hl old (by omega)] at hchk
      exact EntryEq.trans hl (EntryEq.symm hl (EntryEq.trans hl (hD hl a) (todo hm a (by omega))))
        hchk

/-- The first loop of `gpt_do_write` with more fuel than the steps it can take: it ends, keeping
its invariant, with the whole range done, with `ERROR_BUSY` where the range does not hold `old`,
or with `ERROR_NOMEM` after a failed allocation. The fuel needed is 106 per address left plus the
measure of the current step. The loop carries the entries `x` and `y`, which lawful handlers
make the old and new entries offset to `offset`. -/
theorem doWriteLoop_spec (hend : base + size ≤ 2 ^ maxSizeBits) :
    ∀ (fuel : Nat) (w : Walk τ V) (offset : Nat) (x y : GptEntry τ V) (allocs : List Bool),
    LoopInv h M base size old new isMatch w offset →
    (h.Lawful → x = entryAddOffset h old offset ∧ y = entryAddOffset h new offset) →
    (size - offset) * 106 + (if offset < size then stepMeasure h w (base + offset) else 0) < fuel →
    ∃ w' e offset', doWriteLoop h base size isMatch fuel w offset x y allocs = some (w', e, offset') ∧
      LoopInv h M base size old new isMatch w' offset' ∧
      LoopEnd h M base size old isMatch allocs e offset'
  | 0, _, _, _, _, _, _, _, hfuel => absurd hfuel (Nat.not_lt_zero _)
  | fuel + 1, w, offset, x, y, allocs, hI, hxy, hfuel => by
    by_cases hoff : offset < size
    case neg =>
      refine ⟨w, .ok, offset, ?_, hI, Or.inl ⟨rfl, by omega⟩⟩
      simp only [doWriteLoop, if_neg hoff]
    case pos =>
      rw [if_pos hoff] at hfuel
      have hcurr : base + offset < 2 ^ maxSizeBits := by omega
      have hD := (Walk.getCurrPte_spec (h := h) hcurr hI.inv).den
      have hstep : StepOk h _ _ (base + offset) (size - offset) x y isMatch (allocs.headD true)
          (handleWrite h (allocs.headD true) w (base + offset) (size - offset) x y isMatch) :=
        handleWrite_spec hI.inv hcurr (by omega)
      generalize hres : handleWrite h (allocs.headD true) w (base + offset) (size - offset)
        x y isMatch = res at hstep
      -- One case per outcome of the step.
      cases hstep with
      | busy hm hw' hden a ha ha' hne =>
        refine ⟨_, .busy, offset, by simp only [doWriteLoop, if_pos hoff, hres],
          hI.of_unchanged hw' hD fun _ => hden,
          Or.inr (Or.inl ⟨rfl, hm, hoff, fun hl => ⟨a, ha, by omega, fun hMa => ?_⟩⟩)⟩
        have hne := hne hl
        rw [(hxy hl).1, entryAddOffset_offset hl old ha] at hne
        exact hne (EntryEq.trans hl (EntryEq.trans hl (hD hl a) ((hI.state hl).todo hm a ha)) hMa)
      | nomem hf hw' hden =>
        exact ⟨_, .nomem, offset, by simp only [doWriteLoop, if_pos hoff, hres],
          hI.of_unchanged hw' hD fun _ => hden,
          Or.inr (Or.inr ⟨rfl, hoff, false_mem_of_headD hf⟩)⟩
      | retry hw' hden hlt =>
        obtain ⟨w'', e, off', hrun, hI', hend'⟩ := doWriteLoop_spec hend fuel _ offset x y allocs.tail
          (hI.of_unchanged hw' hD hden) hxy
          (by rw [if_pos hoff]; omega)
        refine ⟨w'', e, off', ?_, hI', hend'.of_tail⟩
        simp only [doWriteLoop, if_pos hoff, hres, ne_eq, not_true_eq_false, if_false]
        exact hrun
      | @advance w' r hr hw' hdone hout htodo hcheck =>
        have hI' := hI.advance hxy hD hoff hw' hdone hout htodo hcheck
        -- The code offsets the entries it carries by the addresses done.
        have hxy' : h.Lawful → entryAddOffset h x r = entryAddOffset h old (offset + r) ∧
            entryAddOffset h y r = entryAddOffset h new (offset + r) := fun hl => by
          rw [(hxy hl).1, (hxy hl).2, entryAddOffset_add hl.offsetLaws,
            entryAddOffset_add hl.offsetLaws]
          exact ⟨rfl, rfl⟩
        have hfuel' : (size - (offset + r)) * 106 +
            (if offset + r < size then stepMeasure h w' (base + (offset + r)) else 0) < fuel := by
          split
          case isTrue hlt =>
            have := stepMeasure_le (h := h) hI'.inv (by omega)
            omega
          case isFalse => omega
        obtain ⟨w'', e, off', hrun, hI'', hend''⟩ :=
          doWriteLoop_spec hend fuel w' (offset + r) _ _ allocs.tail hI' hxy' hfuel'
        refine ⟨w'', e, off', ?_, hI'', hend''.of_tail⟩
        simp only [doWriteLoop, if_pos hoff, hres, ne_eq, Nat.pos_iff_ne_zero.1 hr, not_false_eq_true,
          if_true]
        exact hrun

end Loop

/-! ## `gpt_do_write` and `gpt_write` -/

section Write

variable {h : GptHandlers τ V} [DecidableEq τ] {base size : Nat}

/-- `gpt_do_write` on a well-formed tree, over a range below `2 ^ GPT_MAX_SIZE_BITS`, gives a
well-formed tree and ends as its first loop does, whatever the handlers; for lawful ones the tree
maps what the loop wrote. -/
theorem gptDoWrite_spec {root : Pte τ V} (hroot : root.Wf 0 maxSizeBits)
    (hend : base + size ≤ 2 ^ maxSizeBits) (old new : GptEntry τ V) (isMatch : Bool)
    (allocs : List Bool) :
    ∃ root' e offset, gptDoWrite h root base size old new isMatch allocs = some (root', e, offset) ∧
      root'.Wf 0 maxSizeBits ∧
      (h.Lawful → WriteDone h (root.den h) (root'.den h) base size old new isMatch offset) ∧
      LoopEnd h (root.den h) base size old isMatch allocs e offset := by
  -- The loop starts at the root with nothing done, carrying `old` and `new` as they are.
  have hI : LoopInv h (root.den h) base size old new isMatch ⟨root, []⟩ 0 :=
    ⟨⟨trivial, hroot, fun _ hf => absurd hf List.not_mem_nil⟩,
      fun hl => ⟨fun _ _ => EntryEq.refl hl _, fun _ _ ha' _ => absurd ha' (by omega),
        fun _ _ _ => EntryEq.refl hl _, fun _ _ _ ha' _ => absurd ha' (by omega)⟩⟩
  have hxy : h.Lawful → old = entryAddOffset h old 0 ∧ new = entryAddOffset h new 0 :=
    fun hl => ⟨(entryAddOffset_zero hl old).symm, (entryAddOffset_zero hl new).symm⟩
  have hfuel : (size - 0) * 106 + (if 0 < size then stepMeasure h ⟨root, []⟩ (base + 0) else 0) <
      writeFuel size := by
    unfold writeFuel
    split
    case isTrue hpos =>
      have := stepMeasure_le (h := h) hI.inv (by omega)
      omega
    case isFalse => omega
  obtain ⟨w, e, offset, hrun, hI', hend'⟩ := doWriteLoop_spec hend _ _ 0 old new allocs hI hxy hfuel
  obtain ⟨hwf, hden⟩ :=
    unwind_spec (h := h) w.stack w.root false (by simpa [markDirtyIf] using hI'.inv)
  exact ⟨_, e, offset, by simp only [gptDoWrite, hrun, Option.map_some], hwf,
    fun hl => (hI'.state hl).congr hl (hden hl), hend'⟩

variable (hl : h.Lawful)
include hl

variable {old new : GptEntry τ V}

/-- Writing `old` back over the part done of a write, expecting `new` there, with every
allocation succeeding, writes all of that part. -/
theorem WriteDone.revert_ok {M M' : GptMap τ V} {isMatch : Bool} {offset offset' : Nat}
    {e : Error} {allocs : List Bool} (hd : WriteDone h M M' base size old new isMatch offset)
    (hoff : offset ≤ size) (he : LoopEnd h M' base offset new true allocs e offset')
    (hallocs : false ∉ allocs) : e = .ok ∧ offset ≤ offset' := by
  rcases he with hok | ⟨-, -, -, hbusy⟩ | ⟨-, -, hf⟩
  · exact hok
  · -- The part done holds `new`, so the write back cannot fail.
    obtain ⟨a, ha, ha', hne⟩ := hbusy hl
    exact absurd (hd.done a (by omega) ha' (by omega)) hne
  · exact absurd hf hallocs

/-- Writing `old` back over the part done of a write with a match that failed, expecting `new`
there, with every allocation succeeding, succeeds and gives back the map before the write. -/
theorem WriteDone.revert {M M' M'' : GptMap τ V} {offset offset' : Nat} {e : Error}
    {allocs : List Bool} (hd : WriteDone h M M' base size old new true offset) (hoff : offset < size)
    (hd' : WriteDone h M' M'' base offset new old true offset')
    (he : LoopEnd h M' base offset new true allocs e offset') (hallocs : false ∉ allocs) :
    e = .ok ∧ MapEq h M'' M := by
  obtain ⟨he, hle⟩ := hd.revert_ok hl hoff.le he hallocs
  refine ⟨he, fun a => ?_⟩
  by_cases hin : base ≤ a ∧ a < base + offset
  · -- The match found `old` where the revert writes it.
    exact EntryEq.trans hl (hd'.done a hin.1 (by omega) hin.2)
      (EntryEq.symm hl (hd.checked rfl a hin.1 hin.2 (by omega)))
  · refine EntryEq.trans hl (hd'.out a (by omega)) ?_
    by_cases hlo : a < base ∨ base + size ≤ a
    · exact hd.out a hlo
    · exact hd.todo rfl a (by omega)

/-- `Holds` only depends on the map up to `values_equal`. -/
theorem holds_congr {M M' : GptMap τ V} (hM : MapEq h M M') :
    Holds h M base size old ↔ Holds h M' base size old :=
  ⟨fun hH a ha ha' => EntryEq.trans hl (EntryEq.symm hl (hM a)) (hH a ha ha'),
    fun hH a ha ha' => EntryEq.trans hl (hM a) (hH a ha ha')⟩

/-- ... and so does `writeRange`. -/
theorem writeRange_congr {M M' : GptMap τ V} (hM : MapEq h M M') :
    MapEq h (writeRange h M base size new) (writeRange h M' base size new) := by
  intro a
  unfold writeRange
  split
  case isTrue => exact EntryEq.refl hl _
  case isFalse => exact hM a

end Write

/-- The first argument check of `gpt_write`, for a `size` that fits a `size_t`: the range is
empty or does not fit in 64 bits. -/
theorem argumentInvalid_iff {base size : Nat} (hsize : size < 2 ^ 64) :
    (size == 0 || FixedWidth.addOverflows 64 base (size - 1)) = true ↔
      size = 0 ∨ 2 ^ 64 ≤ base + (size - 1) := by
  simp only [Bool.or_eq_true, beq_iff_eq, FixedWidth.addOverflows, decide_eq_true_eq]
  omega

/-- The second: the range ends past `2 ^ max_bits`. -/
theorem argumentSize_iff {base size maxBits : Nat} :
    base + size - 1 > 2 ^ maxBits - 1 ↔ 2 ^ maxBits < base + size := by
  have := Nat.two_pow_pos maxBits
  omega

/-- `entry_is_valid` is `ValidEntry` of the GPT's allowed types. -/
theorem entryIsValid_eq (g : Gpt τ V) (e : GptEntry τ V) :
    g.entryIsValid e = ValidEntry g.allowedTypes e := by
  rcases e with _ | ⟨t, v⟩ <;> rfl

/-- The `size` argument of a call, a `size_t` in the code. -/
def GptCall.size : GptCall τ V → Nat
  | .insert _ size _ _ | .update _ size _ _ | .remove _ size _ | .clear _ size => size

section Call

variable {h : GptHandlers τ V} [DecidableEq τ] (hl : h.Lawful)
include hl

/-- `gpt_write` on a well-formed GPT whose map is `M` up to `values_equal` returns the error of
`specWrite` and a well-formed GPT whose map is that of `specWrite`, up to `values_equal`. -/
theorem gptWrite_spec {g : Gpt τ V} (hg : g.root.Wf 0 maxSizeBits) (hbits : g.maxBits ≤ maxSizeBits)
    {M : GptMap τ V} (hM : MapEq h (g.root.den h) M) {base size : Nat} (hsize : size < 2 ^ 64)
    (old new : GptEntry τ V) (isMatch : Bool) :
    ∃ g', gptWrite h g base size old new isMatch [] [] =
        some ((specWrite h g.maxBits M base size old new isMatch).1, g') ∧
      g'.root.Wf 0 maxSizeBits ∧ g'.maxBits = g.maxBits ∧ g'.allowedTypes = g.allowedTypes ∧
      MapEq h (g'.root.den h) (specWrite h g.maxBits M base size old new isMatch).2 := by
  unfold gptWrite specWrite
  by_cases hinv : size = 0 ∨ 2 ^ 64 ≤ base + (size - 1)
  · rw [if_pos ((argumentInvalid_iff hsize).2 hinv), if_pos hinv]
    exact ⟨g, rfl, hg, rfl, rfl, hM⟩
  rw [if_neg (mt (argumentInvalid_iff hsize).1 hinv), if_neg hinv]
  by_cases hbig : 2 ^ g.maxBits < base + size
  · rw [if_pos (argumentSize_iff.2 hbig), if_pos hbig]
    exact ⟨g, rfl, hg, rfl, rfl, hM⟩
  rw [if_neg (mt argumentSize_iff.1 hbig), if_neg hbig]
  have hend : base + size ≤ 2 ^ maxSizeBits :=
    Nat.le_trans (Nat.le_of_not_lt hbig) (Nat.pow_le_pow_right (by decide) hbits)
  obtain ⟨root', e, offset, hrun, hwf, hd, he⟩ := gptDoWrite_spec hg hend old new isMatch []
  replace hd := hd hl
  rw [hrun]
  rcases he with ⟨rfl, hle⟩ | ⟨rfl, hm, hoff, hbusy⟩ | ⟨-, -, hf⟩
  · -- The whole range was written; with a match, it held `old`.
    obtain ⟨hmap, hholds⟩ := hd.complete hle
    have hspec : ¬ (isMatch = true ∧ ¬ Holds h M base size old) :=
      fun hn => hn.2 ((holds_congr hl hM).1 (hholds hn.1))
    rw [if_neg hspec]
    refine ⟨{ g with root := root' }, by simp, hwf, rfl, rfl,
      fun b => EntryEq.trans hl (hmap b) (writeRange_congr hl hM b)⟩
  · -- `ERROR_BUSY`: the range does not hold `old`, and the part done is written back.
    subst hm
    obtain ⟨a, ha, ha', hna⟩ := hbusy hl
    have hnot : ¬ Holds h M base size old := fun hH =>
      hna (EntryEq.trans hl (hM a) (hH a (by omega) ha'))
    rw [if_pos ⟨rfl, hnot⟩]
    by_cases h0 : offset = 0
    · subst h0
      refine ⟨{ g with root := root' }, by simp, hwf, rfl, rfl, fun b => EntryEq.trans hl ?_ (hM b)⟩
      by_cases hb : b < base ∨ base + size ≤ b
      · exact hd.out b hb
      · exact hd.todo rfl b (by omega)
    · obtain ⟨root'', e', off', hrun', hwf', hd', he'⟩ :=
        gptDoWrite_spec hwf (show base + offset ≤ 2 ^ maxSizeBits by omega) new old true []
      obtain ⟨rfl, hmap⟩ := hd.revert hl hoff (hd' hl) he' List.not_mem_nil
      refine ⟨{ g with root := root'' }, ?_, hwf', rfl, rfl, fun b => EntryEq.trans hl (hmap b) (hM b)⟩
      simp [h0, hrun']
  · -- Every allocation succeeds.
    exact absurd hf List.not_mem_nil

/-- Each call of the interface on a well-formed GPT whose map is `M` up to `values_equal` returns
the error of `specCall` and a well-formed GPT whose map is that of `specCall`. -/
theorem GptCall.run_spec {g : Gpt τ V} (hg : g.root.Wf 0 maxSizeBits)
    (hbits : g.maxBits ≤ maxSizeBits) {M : GptMap τ V} (hM : MapEq h (g.root.den h) M)
    (c : GptCall τ V) (hc : c.size < 2 ^ 64) :
    ∃ g', c.run h g [] [] = some ((specCall h g.maxBits g.allowedTypes M c).1, g') ∧
      g'.root.Wf 0 maxSizeBits ∧ g'.maxBits = g.maxBits ∧ g'.allowedTypes = g.allowedTypes ∧
      MapEq h (g'.root.den h) (specCall h g.maxBits g.allowedTypes M c).2 := by
  cases c with
  | insert base size entry expectEmpty =>
    simp only [GptCall.run, gptInsert, specCall, entryIsValid_eq]
    by_cases hv : ValidEntry g.allowedTypes entry = true
    · rw [if_pos hv, if_pos hv]
      exact gptWrite_spec hl hg hbits hM hc _ _ _
    · rw [if_neg hv, if_neg hv]
      exact ⟨g, rfl, hg, rfl, rfl, hM⟩
  | update base size oldEntry newEntry =>
    simp only [GptCall.run, gptUpdate, specCall, entryIsValid_eq]
    by_cases hv : (ValidEntry g.allowedTypes oldEntry && ValidEntry g.allowedTypes newEntry) = true
    · rw [if_pos hv, if_pos hv]
      exact gptWrite_spec hl hg hbits hM hc _ _ _
    · rw [if_neg hv, if_neg hv]
      exact ⟨g, rfl, hg, rfl, rfl, hM⟩
  | remove base size entry =>
    simp only [GptCall.run, gptRemove, specCall, entryIsValid_eq]
    by_cases hv : ValidEntry g.allowedTypes entry = true
    · rw [if_pos hv, if_pos hv]
      exact gptWrite_spec hl hg hbits hM hc _ _ _
    · rw [if_neg hv, if_neg hv]
      exact ⟨g, rfl, hg, rfl, rfl, hM⟩
  | clear base size => exact gptWrite_spec hl hg hbits hM hc _ _ _

/-- A sequence of calls returns the errors of `specRun` and leaves a GPT whose map is that of
`specRun`, up to `values_equal`. -/
theorem runCalls_spec : ∀ (calls : List (GptCall τ V)) {g : Gpt τ V} {M : GptMap τ V},
    g.root.Wf 0 maxSizeBits → g.maxBits ≤ maxSizeBits → MapEq h (g.root.den h) M →
    (∀ c ∈ calls, c.size < 2 ^ 64) →
    ∃ g', runCalls h g calls = some ((specRun h g.maxBits g.allowedTypes M calls).1, g') ∧
      MapEq h (g'.root.den h) (specRun h g.maxBits g.allowedTypes M calls).2
  | [], g, _, _, _, hM, _ => ⟨g, rfl, hM⟩
  | c :: cs, g, M, hg, hbits, hM, hsize => by
    obtain ⟨g₁, hrun, hwf, hmb, hat, hM₁⟩ := c.run_spec hl hg hbits hM (hsize c List.mem_cons_self)
    obtain ⟨g₂, hrun₂, hM₂⟩ := runCalls_spec cs hwf (hmb ▸ hbits) hM₁
      (fun c' hc' => hsize c' (List.mem_cons_of_mem c hc'))
    rw [hmb, hat] at hrun₂ hM₂
    refine ⟨g₂, ?_, hM₂⟩
    simp only [runCalls, hrun, hrun₂, specRun, Option.map_some]

end Call

/-! ## From `gpt_init` -/

/-- Any sequence of calls on a GPT from `gpt_init`, with lawful handlers, returns the errors of
the abstract calls on the empty map and leaves a GPT that maps what they leave, up to
`values_equal`. -/
theorem gptRun_refines {h : GptHandlers τ V} [DecidableEq τ] (hl : h.Lawful) {maxBits : Nat}
    {allowed : τ → Bool} {g₀ : Gpt τ V} (hinit : gptInit maxBits allowed = .ok g₀)
    (calls : List (GptCall τ V)) (hsize : ∀ c ∈ calls, c.size < 2 ^ 64) :
    ∃ g, runCalls h g₀ calls = some ((specRun h maxBits allowed (fun _ => none) calls).1, g) ∧
      MapEq h (g.root.den h) (specRun h maxBits allowed (fun _ => none) calls).2 := by
  unfold gptInit at hinit
  split at hinit
  case isTrue => cases hinit
  case isFalse hbits =>
    cases hinit
    exact runCalls_spec hl calls ⟨trivial, trivial⟩ (Nat.le_of_not_lt hbits) (fun _ => rfl) hsize

/-! ## Lawful handlers under which merges change values -/

/-- Handlers with a value that `gpt_value_add_offset` adds to and that `gpt_values_equal`
compares by parity. -/
def parityHandlers : GptHandlers Unit Nat := ⟨fun _ v k => v + k, fun _ v v' => v % 2 == v' % 2⟩

theorem parityHandlers_lawful : parityHandlers.Lawful where
  addOffset_zero _ _ := rfl
  addOffset_add _ v j k := Nat.add_assoc v j k
  valuesEqual_refl _ _ := beq_self_eq_true _
  valuesEqual_symm _ v v' hv := by
    simp only [parityHandlers, beq_iff_eq] at hv ⊢
    exact hv.symm
  valuesEqual_trans _ u v v' h₁ h₂ := by
    simp only [parityHandlers, beq_iff_eq] at h₁ h₂ ⊢
    exact h₁.trans h₂
  valuesEqual_addOffset _ v v' k hv := by
    simp only [parityHandlers, beq_iff_eq] at hv ⊢
    omega

/-- One-address inserts of the value `i` at each `i < 16` but 5, then of 7 at 5: 7 and 5 have the
same parity. -/
def parityCalls : List (GptCall Unit Nat) :=
  ((List.range 16).filter (· ≠ 5)).map (fun i => .insert i 1 (some ((), i)) true) ++
    [.insert 5 1 (some ((), 7)) true]

theorem gptRun_refines_parity :
    ∃ g, runCalls parityHandlers ⟨.empty, 52, fun _ => true⟩ parityCalls =
        some ((specRun parityHandlers 52 (fun _ => true) (fun _ => none) parityCalls).1, g) ∧
      MapEq parityHandlers (g.root.den parityHandlers)
        (specRun parityHandlers 52 (fun _ => true) (fun _ => none) parityCalls).2 :=
  gptRun_refines parityHandlers_lawful rfl parityCalls (by decide)

/-- Every insert succeeds, the last writes 7 at 5, and yet the GPT maps 5 to the value 5: the last
insert filled the level, which `try_clean` merged into one leaf with the first entry's value. -/
theorem gptInsert_not_exact :
    parityHandlers.Lawful ∧
      (gptInit 52 (fun _ => true) : Except Error (Gpt Unit Nat)) = .ok ⟨.empty, 52, fun _ => true⟩ ∧
      (runCalls parityHandlers ⟨.empty, 52, fun _ => true⟩ parityCalls).map
        (fun p => (p.1, p.2.root.den parityHandlers 5)) =
        some (List.replicate 16 .ok, some ((), 5)) :=
  ⟨parityHandlers_lawful, rfl, by decide⟩

end Gunyah.Gpt

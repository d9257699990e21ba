import Gunyah.Gpt.Pte
import Gunyah.Lib.Word
import Gunyah.Error

set_option autoImplicit false

/-!
# Writes to a GPT

A model of the write path of `hyp/misc/gpt/src/gpt.c`: the walk's stack, `get_curr_pte` with
`go_up_level` and `try_clean`, `allocate_level`, `handle_write`, the two loops of `gpt_do_write`,
the revert of `gpt_write`, and the calls `gpt_init`, `gpt_insert`, `gpt_update`, `gpt_remove` and
`gpt_clear` built on them.

The root PTE holds the whole tree: a level PTE holds its 16 PTEs, and as levels are never shared,
a store through a frame's level pointer is a store at that frame's place on the path from the
root (`Pte.setAt`). Memory is not modelled: whether `partition_alloc` succeeds is a parameter,
`allocOk` for one `handle_write` and a list of outcomes for the successive steps of a loop of
`gpt_do_write` (a step past its end allocates), and `free_level` and `free_all_levels` leave the
tree alone. The atomic and plain loads and stores of `rcu_read` GPTs do the same here.

`try_clean` is split in two: `tryClean` says which PTE it stores in the level's slot, if any, and
`goUpLevel` stores it. The loops that pop frames (`get_curr_pte` and the unwind of
`gpt_do_write`) recur on the stack below the popped frame and carry along whether `try_clean`
wrote into the slot of the frame now deepest, which marks that frame dirty.

The first loop of `gpt_do_write` runs on fuel (`writeFuel`); `Gunyah.Gpt.Refinement` shows that
it never runs out. Running out of fuel and the panic of a failed revert both give `none`.
-/

namespace Gunyah.Gpt

open Function

variable {τ V : Type}

/-! ## Paths from the root -/

namespace Pte

/-- The PTE reached from this one along a path of entry indexes. -/
def getAt : Pte τ V → List (Fin 16) → Pte τ V
  | q, [] => q
  | q, i :: p => (q.entry i).getAt p

/-- Replaces the PTE at the end of a path; a path through a PTE that is not a level changes
nothing. -/
def setAt : Pte τ V → List (Fin 16) → Pte τ V → Pte τ V
  | _, [], r => r
  | level g s es, i :: p, r => level g s (update es i ((es i).setAt p r))
  | q, _ :: _, _ => q

/-- `gpt_pte_info_set_guard` and `gpt_pte_info_set_shifts`; an empty PTE's guard and shifts are
never read. -/
def setGuardShifts (g s : Nat) : Pte τ V → Pte τ V
  | empty => empty
  | leaf _ _ t v => leaf g s t v
  | level _ _ es => level g s es

/-- `trigger_gpt_value_add_offset_event` on a PTE's value: no handler is subscribed for
`GPT_TYPE_EMPTY` or `GPT_TYPE_LEVEL`. -/
def addOffset (h : GptHandlers τ V) (k : Nat) : Pte τ V → Pte τ V
  | leaf g s t v => leaf g s t (h.addOffset t v k)
  | q => q

/-- The PTE's type is `GPT_TYPE_LEVEL`. -/
def isLevel : Pte τ V → Bool
  | level .. => true
  | _ => false

end Pte

/-- A `gpt_stack_frame`. Its level is the one at its place on the path from the root; `addr` is
the level's start, `shifts` the shifts of the level's entries and `index` the entry walked. -/
structure Frame where
  addr : Nat
  shifts : Nat
  index : Fin 16
  dirty : Bool
deriving DecidableEq, Repr

/-- The path from the root to the entry that the deepest frame of a stack walks. -/
def slotPath (stack : List Frame) : List (Fin 16) := (stack.map Frame.index).reverse

/-- `gpt_frame_info_set_dirty` on the deepest frame, if there is one. -/
def markDirty : List Frame → List Frame
  | [] => []
  | f :: st => { f with dirty := true } :: st

/-- The root PTE of a GPT and a `gpt_stack`, deepest frame first. -/
structure Walk (τ V : Type) where
  root : Pte τ V
  stack : List Frame

/-- `write_pte_to_level`: stores into the entry the deepest frame walks, or into the root, and
marks that frame dirty. -/
def Walk.writePteToLevel (w : Walk τ V) (pte : Pte τ V) : Walk τ V :=
  ⟨w.root.setAt (slotPath w.stack) pte, markDirty w.stack⟩

/-- `go_down_level`: pushes a frame for the level `pte`, whose guard matches. -/
def Walk.goDownLevel (w : Walk τ V) (pte : Pte τ V) : Walk τ V :=
  ⟨w.root, ⟨pte.addr, pte.shifts - levelBits, 0, false⟩ :: w.stack⟩

/-! ## Sizes and shifts -/

/-- `compiler_ctz` on a `size_t`. -/
def ctz (x : Nat) : Nat := Bits.ctzAux 64 x

/-- `compiler_clz` on a `size_t`. -/
def clz (x : Nat) : Nat := 63 - Nat.log2 x

/-- `get_max_entry_shifts`: the shifts of the entries of the deepest frame's level, and
`GPT_MAX_SIZE_BITS` for the root. -/
def getMaxEntryShifts : List Frame → Nat
  | [] => maxSizeBits
  | f :: _ => f.shifts

/-- `get_max_possible_shifts`: the largest block at `curr` that is aligned, no larger than an
entry of the current level, and not past `curr + rem`. -/
def getMaxPossibleShifts (stack : List Frame) (curr rem : Nat) : Nat :=
  let shifts := getMaxEntryShifts stack
  let shifts :=
    if curr ≠ 0 then min shifts (FixedWidth.alignDown (ctz curr) levelBits) else shifts
  if 2 ^ shifts > rem then FixedWidth.alignDown (ctz rem) levelBits else shifts

/-- `get_next_pte_base`: the end of the entry of the current level that holds `curr`. -/
def getNextPteBase (stack : List Frame) (curr : Nat) : Nat :=
  let shifts := getMaxEntryShifts stack
  (curr >>> shifts <<< shifts) + 2 ^ shifts

/-- `get_common_shifts`: the shifts of the smallest level holding both `addr` and the PTE's
start. -/
def getCommonShifts (pte : Pte τ V) (addr : Nat) : Nat :=
  64 - FixedWidth.alignDown (clz (addr ^^^ pte.addr)) levelBits

/-- `can_replace_pte`: the rest of the range covers the PTE's block. -/
def canReplacePte (curr rem : Nat) (pte : Pte τ V) : Bool :=
  decide (curr ≤ pte.addr) && decide (pte.addr + pte.size ≤ curr + rem)

/-- `pte_will_conflict`, for a PTE whose guard does not match `curr`. -/
def pteWillConflict (curr rem : Nat) (old : GptEntry τ V) (pte : Pte τ V) : Bool :=
  -- A non-empty entry was expected here; a level conflicts only if it is replaced as a whole.
  if old.isSome then true
  else if pte.isLevel then canReplacePte curr rem pte
  else decide (curr ≤ pte.addr) && decide (pte.addr < curr + rem)

section Model

variable (h : GptHandlers τ V) [DecidableEq τ]

/-! ## Cleaning a level -/

/-- The variables of the loop of `try_clean`. -/
structure CleanScan (τ V : Type) where
  filledCount : Nat
  firstPte : Pte τ V
  lastFilledPte : Pte τ V
  canMerge : Bool

/-- The loop of `try_clean` counting the entry `currPte`: an empty entry rules a merge out, and
a filled one is counted and rules a merge out unless it has the entries' shifts. -/
def CleanScan.count (c : CleanScan τ V) (currPte : Pte τ V) (entryShifts : Nat) : CleanScan τ V :=
  match currPte with
  | .empty => { c with canMerge := false }
  | _ =>
    -- Merging entries is only possible if they fill up the entire level.
    { c with filledCount := c.filledCount + 1, lastFilledPte := currPte,
             canMerge := c.canMerge && currPte.shifts == entryShifts }

/-- The loop of `try_clean` over the entries `is` of a level whose entries have shifts
`entryShifts`. It stops once it has seen two filled entries and knows it cannot merge. -/
def tryCleanLoop (es : Fin 16 → Pte τ V) (entryShifts : Nat) :
    List (Fin 16) → CleanScan τ V → CleanScan τ V
  | [], c => c
  | i :: is, c =>
    let currPte := es i
    let c := c.count currPte entryShifts
    if c.canMerge then
      if i = 0 then tryCleanLoop es entryShifts is { c with firstPte := currPte }
      else if ptesConsistent h c.firstPte currPte ((i : Nat) <<< entryShifts) then
        tryCleanLoop es entryShifts is c
      else tryCleanLoop es entryShifts is { c with canMerge := false }
    else if c.filledCount > 1 then c
    else tryCleanLoop es entryShifts is c

/-- The state of `try_clean` before its loop. -/
def CleanScan.init : CleanScan τ V := ⟨0, .empty, .empty, true⟩

/-- `try_clean` on a level whose entries have shifts `entryShifts`: the PTE it stores in the
level's slot, if any. That is the level's only filled entry, or an empty PTE if it has none, or
the first entry grown to the whole level if all 16 are consistent leaves of that size. -/
def tryClean (level : Pte τ V) (entryShifts : Nat) : Option (Pte τ V) :=
  let c := tryCleanLoop h level.entry entryShifts (List.finRange 16) CleanScan.init
  if c.filledCount ≤ 1 then some c.lastFilledPte
  else if c.canMerge then
    let newShifts := entryShifts + levelBits
    some (c.firstPte.setGuardShifts (c.firstPte.addr >>> newShifts) newShifts)
  else none

/-- `go_up_level` with `write` set, popping the frame `f` off `f :: stack`: if `f` is dirty,
`try_clean` runs on its level, the entry that the frame above walks. Returns the new root and
whether `try_clean` stored into that entry, which marks the frame above dirty. -/
def goUpLevel (root : Pte τ V) (f : Frame) (stack : List Frame) : Pte τ V × Bool :=
  if f.dirty then
    match tryClean h (root.getAt (slotPath stack)) f.shifts with
    | some pte => (root.setAt (slotPath stack) pte, true)
    | none => (root, false)
  else (root, false)

/-- The loop of `get_curr_pte`: pops frames until one has an entry for `curr`, and returns that
entry, or the root PTE. `d` marks the deepest frame of `stack` dirty. -/
def getCurrPteLoop (curr : Nat) (root : Pte τ V) : List Frame → Bool → Walk τ V × Pte τ V
  | [], _ => (⟨root, []⟩, root)
  | f :: stack, d =>
    let f := { f with dirty := f.dirty || d }
    let idx := (curr - f.addr) >>> f.shifts
    if hidx : idx < 16 then
      (⟨root, { f with index := ⟨idx, hidx⟩ } :: stack⟩,
        (root.getAt (slotPath stack)).entry ⟨idx, hidx⟩)
    else
      let (root, d) := goUpLevel h root f stack
      getCurrPteLoop curr root stack d

/-- `get_curr_pte` with `write` set. -/
def Walk.getCurrPte (w : Walk τ V) (curr : Nat) : Walk τ V × Pte τ V :=
  getCurrPteLoop h curr w.root w.stack false

/-- The second loop of `gpt_do_write`: pops every frame, cleaning the levels written to. -/
def unwind (root : Pte τ V) : List Frame → Bool → Pte τ V
  | [], _ => root
  | f :: stack, d =>
    let (root, d) := goUpLevel h root { f with dirty := f.dirty || d } stack
    unwind root stack d

/-! ## One step of a write -/

/-- `update_curr_pte`: stores a PTE that maps the block of `addr` at `shifts` to the entry `e`,
or an empty PTE for an empty entry. -/
def Walk.updateCurrPte (w : Walk τ V) (addr shifts : Nat) (e : GptEntry τ V) : Walk τ V :=
  w.writePteToLevel (match e with
    | none => .empty
    | some (t, v) => .leaf (addr >>> shifts) shifts t v)

/-- `update_curr_pte_and_get_size`. -/
def Walk.updateCurrPteAndGetSize (w : Walk τ V) (curr rem : Nat) (new : GptEntry τ V) :
    Walk τ V × Nat :=
  let shifts := getMaxPossibleShifts w.stack curr rem
  (w.updateCurrPte curr shifts new, 2 ^ shifts)

/-- `split_pte_and_fill_level`: the 16 PTEs at `shifts` that together map what `oldPte` maps;
the value of each is offset by the sizes of those before it. -/
def splitPteAndFillLevel (oldPte : Pte τ V) (shifts : Nat) (i : Fin 16) : Pte τ V :=
  (Nat.iterate (Pte.addOffset h (2 ^ shifts)) i oldPte).setGuardShifts
    ((oldPte.addr + i * 2 ^ shifts) >>> shifts) shifts

/-- `allocate_level`: replaces `oldPte` in its slot by a level at `newShifts` that holds it,
split over all 16 entries (`fill`) or as the entry for its own block. -/
def Walk.allocateLevel (w : Walk τ V) (oldPte : Pte τ V) (newShifts : Nat) (fill : Bool) :
    Walk τ V :=
  let addr := oldPte.addr
  let entries : Fin 16 → Pte τ V :=
    if fill then splitPteAndFillLevel h oldPte (newShifts - levelBits)
    else update (fun _ => .empty) (levelIndex newShifts addr) oldPte
  w.writePteToLevel (.level (addr >>> newShifts) newShifts entries)

/-- `handle_write`: one step of writing `new` at `curr`, with `rem` addresses left, where `old` is
expected if `isMatch` (the code's `match`), and where `partition_alloc` succeeds if `allocOk`.
The result is an error or the number of addresses done; zero means that the walk went down a
level or that a level was added, and the step is tried again. -/
def handleWrite (allocOk : Bool) (w : Walk τ V) (curr rem : Nat) (old new : GptEntry τ V)
    (isMatch : Bool) : Walk τ V × Except Error Nat :=
  let (w, pte) := w.getCurrPte h curr
  match pte with
  | .empty =>
    -- Empty PTEs don't have a valid guard, so there is no guard check.
    if isMatch && old.isSome then (w, .error .busy)
    else if new.isNone then (w, .ok (getNextPteBase w.stack curr - curr))
    else
      let (w, r) := w.updateCurrPteAndGetSize curr rem new
      (w, .ok r)
  | _ =>
    if !pte.guardMatching curr then
      -- The current address isn't mapped in the GPT.
      if !isMatch && canReplacePte curr rem pte then
        let (w, r) := w.updateCurrPteAndGetSize curr rem new
        (w, .ok r)
      else if isMatch && pteWillConflict curr rem old pte then (w, .error .busy)
      -- `allocate_level` returns the error of `partition_alloc` before it changes anything.
      else if allocOk then (w.allocateLevel h pte (getCommonShifts pte curr) false, .ok 0)
      else (w, .error .nomem)
    else if pte.isLevel then (w.goDownLevel pte, .ok 0)
    else if isMatch && !pteAndEntryEqual h pte curr old then (w, .error .busy)
    else
      let oldShifts := pte.shifts
      let newShifts := getMaxPossibleShifts w.stack curr rem
      if oldShifts > newShifts then
        if allocOk then (w.allocateLevel h pte oldShifts true, .ok 0) else (w, .error .nomem)
      -- The old PTE does not cover all of the block being written.
      else if oldShifts < newShifts && isMatch then (w, .error .busy)
      else
        let (w, r) := w.updateCurrPteAndGetSize curr rem new
        (w, .ok r)

/-! ## Whole writes -/

/-- The first loop of `gpt_do_write`, for at most `fuel` steps: writes from `base + offset`, with
`x` and `y` the old and new entries offset by `offset`, and `allocs` the outcomes of
`partition_alloc` for the steps to come. Returns the walk, the last step's error and `offset`. -/
def doWriteLoop (base size : Nat) (isMatch : Bool) :
    Nat → Walk τ V → Nat → GptEntry τ V → GptEntry τ V → List Bool →
      Option (Walk τ V × Error × Nat)
  | 0, _, _, _, _, _ => none
  | fuel + 1, w, offset, x, y, allocs =>
    if offset < size then
      match handleWrite h (allocs.headD true) w (base + offset) (size - offset) x y isMatch with
      | (w, .error e) => some (w, e, offset)
      | (w, .ok r) =>
        if r ≠ 0 then
          doWriteLoop base size isMatch fuel w (offset + r) (entryAddOffset h x r)
            (entryAddOffset h y r) allocs.tail
        else doWriteLoop base size isMatch fuel w offset x y allocs.tail
    else some (w, .ok, offset)

/-- Steps enough for the first loop of `gpt_do_write` over `size` addresses. -/
def writeFuel (size : Nat) : Nat := 106 * (size + 1)

/-- `gpt_do_write`, with `allocs` the outcomes of `partition_alloc` for the steps of its first
loop: the new root, the error, and the number of addresses done. -/
def gptDoWrite (root : Pte τ V) (base size : Nat) (old new : GptEntry τ V) (isMatch : Bool)
    (allocs : List Bool) : Option (Pte τ V × Error × Nat) :=
  (doWriteLoop h base size isMatch (writeFuel size) ⟨root, []⟩ 0 old new allocs).map
    fun (w, e, offset) => (unwind h w.root w.stack false, e, offset)

set_option linter.dupNamespace false in
/-- A `gpt`: its root PTE, the `max_bits` of its config and its `allowed_types`. -/
structure Gpt (τ V : Type) where
  root : Pte τ V
  maxBits : Nat
  allowedTypes : τ → Bool

/-- `gpt_write`: checks the range, writes, and after an error writes the old entries back over
the part done. `allocs` and `revAllocs` are the outcomes of `partition_alloc` in the write and in
the revert. A failed revert panics, which gives `none`. -/
def gptWrite (g : Gpt τ V) (base size : Nat) (old new : GptEntry τ V) (isMatch : Bool)
    (allocs revAllocs : List Bool) : Option (Error × Gpt τ V) :=
  if size == 0 || FixedWidth.addOverflows 64 base (size - 1) then some (.argumentInvalid, g)
  else if base + size - 1 > 2 ^ g.maxBits - 1 then some (.argumentSize, g)
  else
    match gptDoWrite h g.root base size old new isMatch allocs with
    | none => none
    | some (root, e, r) =>
      if e ≠ .ok ∧ r ≠ 0 then
        match gptDoWrite h root base r new old true revAllocs with
        | some (root, .ok, _) => some (e, { g with root })
        | _ => none
      else some (e, { g with root })

/-! ## The interface -/

set_option linter.dupNamespace false in
/-- `entry_is_valid`: an entry of a type in `allowed_types`, which never holds
`GPT_TYPE_EMPTY`. -/
def Gpt.entryIsValid (g : Gpt τ V) : GptEntry τ V → Bool
  | none => false
  | some (t, _) => g.allowedTypes t

/-- `gpt_init`: an empty GPT. Here `allowed_types` cannot name `GPT_TYPE_EMPTY` or
`GPT_TYPE_LEVEL`, which the code rejects. -/
def gptInit (maxBits : Nat) (allowedTypes : τ → Bool) : Except Error (Gpt τ V) :=
  if maxBits > maxSizeBits then .error .argumentInvalid else .ok ⟨.empty, maxBits, allowedTypes⟩

/-- `gpt_insert`. -/
def gptInsert (g : Gpt τ V) (base size : Nat) (entry : GptEntry τ V) (expectEmpty : Bool)
    (allocs revAllocs : List Bool) : Option (Error × Gpt τ V) :=
  if g.entryIsValid entry then gptWrite h g base size none entry expectEmpty allocs revAllocs
  else some (.argumentInvalid, g)

/-- `gpt_update`. -/
def gptUpdate (g : Gpt τ V) (base size : Nat) (oldEntry newEntry : GptEntry τ V)
    (allocs revAllocs : List Bool) : Option (Error × Gpt τ V) :=
  if g.entryIsValid oldEntry && g.entryIsValid newEntry then
    gptWrite h g base size oldEntry newEntry true allocs revAllocs
  else some (.argumentInvalid, g)

/-- `gpt_remove`. -/
def gptRemove (g : Gpt τ V) (base size : Nat) (entry : GptEntry τ V)
    (allocs revAllocs : List Bool) : Option (Error × Gpt τ V) :=
  if g.entryIsValid entry then gptWrite h g base size entry none true allocs revAllocs
  else some (.argumentInvalid, g)

/-- `gpt_clear`. -/
def gptClear (g : Gpt τ V) (base size : Nat) (allocs revAllocs : List Bool) :
    Option (Error × Gpt τ V) :=
  gptWrite h g base size none none false allocs revAllocs

/-- `gpt_clear_all`: clears the whole GPT, and fails its `assert` (`none`) on an error. -/
def gptClearAll (g : Gpt τ V) (allocs revAllocs : List Bool) : Option (Gpt τ V) :=
  match gptClear h g 0 (2 ^ g.maxBits) allocs revAllocs with
  | some (.ok, g) => some g
  | _ => none

end Model

/-- A call of the GPT interface that writes. -/
inductive GptCall (τ V : Type) where
  | insert (base size : Nat) (entry : GptEntry τ V) (expectEmpty : Bool)
  | update (base size : Nat) (oldEntry newEntry : GptEntry τ V)
  | remove (base size : Nat) (entry : GptEntry τ V)
  | clear (base size : Nat)

section Run

variable (h : GptHandlers τ V) [DecidableEq τ]

/-- The call made on a GPT, with `allocs` and `revAllocs` the outcomes of `partition_alloc` in
its write and in its revert. -/
def GptCall.run (g : Gpt τ V) (allocs revAllocs : List Bool) : GptCall τ V → Option (Error × Gpt τ V)
  | .insert base size entry expectEmpty => gptInsert h g base size entry expectEmpty allocs revAllocs
  | .update base size oldEntry newEntry => gptUpdate h g base size oldEntry newEntry allocs revAllocs
  | .remove base size entry => gptRemove h g base size entry allocs revAllocs
  | .clear base size => gptClear h g base size allocs revAllocs

/-- A sequence of calls, where every allocation succeeds: their errors and the final GPT. -/
def runCalls (g : Gpt τ V) : List (GptCall τ V) → Option (List Error × Gpt τ V)
  | [] => some ([], g)
  | c :: cs =>
    match c.run h g [] [] with
    | none => none
    | some (e, g) => (runCalls g cs).map fun (es, g) => (e :: es, g)

end Run

end Gunyah.Gpt

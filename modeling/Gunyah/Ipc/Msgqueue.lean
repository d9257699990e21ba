import Gunyah.Error
import Gunyah.Lib.Bytes

set_option autoImplicit false

/-!
# Message queues

A model of the ring buffer of `hyp/ipc/msgqueue`: `msgqueue_configure` and
`msgqueue_handle_object_activate_msgqueue` (`msgqueue.c`), and `msgqueue_send_msg`,
`msgqueue_receive_msg` and `msgqueue_flush_queue` (`msgqueue_common.c`), with the guest copies
`useraccess_copy_from_guest_va` and `useraccess_copy_to_guest_va` of
`hyp/mem/useraccess/aarch64/src/useraccess.c`.

The buffer holds `queue_depth` slots of `max_msg_size + sizeof(size_t)` bytes. A message is
stored in the slot at `tail` as its size, in 8 little-endian bytes, followed by its bytes; `head`
and `tail` are the byte offsets of slots. A guest copy sees the guest's memory through the
stage 1 and 2 translation of each address, given here as the error that translating it for a
read or a write gives (`OK` when it translates). The copy stops at the first address that does
not translate; the hardware translates a page at a time, so that address is the first of a page.

`Represents q xs` says that `q` holds the messages `xs`, oldest first: the ring invariant of
`head`, `tail` and `count`, and the message in each occupied slot. Activation gives the empty
list. Each call is then a step of a bounded FIFO of messages (`FifoStep`), with the answer the
code gives: a send pushes its message, a receive pops the head into the caller's buffer, a flush
empties the FIFO, and the error paths keep it. So a configured and activated queue refines the
FIFO along any run (`msgqueue_refines_fifo`), and a call that returns an error leaves the queue
unchanged.

A failed guest copy is the exception to the error reporting. Both functions then jump to `out`
with `ret.e` still `OK`, so the caller is told that a message went through when the queue did not
change (`msgqueue_guest_copy_ok`). This is the case for a guest message longer than
`max_msg_size`, or a guest buffer shorter than the message.
-/

namespace Gunyah.Ipc

open Bytes

/-- `sizeof(size_t)`: the size header at the start of each slot. -/
def sizeofSize : Nat := 8

/-- `MSGQUEUE_MAX_QUEUE_DEPTH`. -/
def msgqueueMaxQueueDepth : Nat := 256

/-- `MSGQUEUE_MAX_MAX_MSG_SIZE`. -/
def msgqueueMaxMaxMsgSize : Nat := 1024

/-- The fields of `msgqueue_t` that configuring, activating, sending, receiving and flushing read
and write. The two VIRQ sources are reduced to whether they have been asserted. -/
structure Msgqueue where
  buf : Nat → UInt8
  count : Nat
  queueSize : Nat
  maxMsgSize : Nat
  queueDepth : Nat
  head : Nat
  tail : Nat
  notfullThd : Nat
  notemptyThd : Nat
  sendAsserted : Bool
  rcvAsserted : Bool

/-- The memory that a copy reads or writes besides the queue's buffer: kernel memory, the guest's
memory, and for each guest address the error that translating it for a read or for a write
gives. -/
structure Memory where
  kernel : Nat → UInt8
  guest : Nat → UInt8
  readFault : Nat → Error
  writeFault : Nat → Error

/-- `size_result_t`. -/
structure SizeResult where
  e : Error
  r : Nat
deriving DecidableEq, Repr

/-- `bool_result_t`. -/
structure BoolResult where
  e : Error
  r : Bool
deriving DecidableEq, Repr

/-- `receive_info_result_t`. -/
structure ReceiveInfoResult where
  e : Error
  size : Nat
  notempty : Bool
deriving DecidableEq, Repr

/-! ## Guest copies -/

/-- The loop of `useraccess_copy_from_to_guest_va`: of the `n` bytes from `va` on, the number that
translate before the first that does not, and that one's error. -/
def copyReach (fault : Nat → Error) (va : Nat) : Nat → SizeResult
  | 0 => ⟨.ok, 0⟩
  | n + 1 =>
    if fault va = .ok then
      let r := copyReach fault (va + 1) n
      ⟨r.e, r.r + 1⟩
    else ⟨fault va, 0⟩

/-- `useraccess_copy_from_to_guest_va`: the error and the number of bytes copied, `r`. The bytes
themselves move in the callers, which know the direction. -/
def useraccessCopyFromToGuestVa (fault : Nat → Error) (gvaddr size : Nat) : SizeResult :=
  if 2 ^ 64 ≤ gvaddr + (size - 1) then ⟨.addrOverflow, 0⟩
  else copyReach fault gvaddr size

/-- `useraccess_copy_from_guest_va`: `gsize` bytes from the guest's `guest_va` into a hypervisor
buffer of `hsize` bytes. -/
def useraccessCopyFromGuestVa (m : Memory) (hsize guestVa gsize : Nat) : SizeResult :=
  if gsize = 0 ∨ hsize < gsize then ⟨.argumentSize, 0⟩
  else useraccessCopyFromToGuestVa m.readFault guestVa gsize

/-- `useraccess_copy_to_guest_va`: `hsize` bytes into a guest buffer of `gsize` bytes at
`guest_va`. Without `force_access` the guest address is translated for a write. -/
def useraccessCopyToGuestVa (m : Memory) (guestVa gsize hsize : Nat) (forceAccess : Bool) :
    SizeResult :=
  if hsize = 0 ∨ gsize < hsize then ⟨.argumentSize, 0⟩
  else useraccessCopyFromToGuestVa (if forceAccess then m.readFault else m.writeFault) guestVa hsize

/-! ## The queue -/

/-- `msgqueue_configure`. -/
def msgqueueConfigure (q : Msgqueue) (maxMsgSize queueDepth : Nat) : Except Error Msgqueue :=
  if queueDepth ≠ 0 ∧ maxMsgSize ≠ 0 ∧ queueDepth < msgqueueMaxQueueDepth ∧
      maxMsgSize < msgqueueMaxMaxMsgSize then
    .ok { q with maxMsgSize, queueDepth }
  else .error .argumentInvalid

/-- `msgqueue_handle_object_activate_msgqueue`. The buffer comes from `partition_alloc`, given as
`alloc`: the memory it returns for a size, or its error. -/
def msgqueueHandleObjectActivateMsgqueue (q : Msgqueue)
    (alloc : Nat → Except Error (Nat → UInt8)) : Except Error Msgqueue :=
  if q.queueDepth = 0 ∨ q.maxMsgSize = 0 then .error .objectConfig
  else
    let queueSize := (q.maxMsgSize + sizeofSize) * q.queueDepth
    match alloc queueSize with
    | .error e => .error e
    | .ok buf =>
      .ok { q with
        buf
        count := 0
        queueSize
        head := 0
        tail := 0
        notfullThd := q.queueDepth - 1
        notemptyThd := 1 }

/-- The end of `msgqueue_send_msg`, once the message's bytes are in the tail slot: the size
header, the count, the tail with its wrap-around, the receiver's VIRQ and the not-full result. -/
def msgqueueSendTail (q : Msgqueue) (buf : Nat → UInt8) (size : Nat) (push : Bool) :
    BoolResult × Msgqueue :=
  let buf := writeBytes buf q.tail (encodeLE sizeofSize size)
  let count := q.count + 1
  let tail := q.tail + (q.maxMsgSize + sizeofSize)
  let tail := if tail = q.queueSize then 0 else tail
  let rcvAsserted := q.rcvAsserted || push || count == q.notemptyThd
  (⟨.ok, count != q.queueDepth⟩, { q with buf, count, tail, rcvAsserted })

/-- `msgqueue_send_msg`: `size` bytes from `msg`, an address in the kernel or in the guest. -/
def msgqueueSendMsg (q : Msgqueue) (m : Memory) (size msg : Nat) (push fromKernel : Bool) :
    BoolResult × Msgqueue :=
  if q.count = q.queueDepth then (⟨.msgqueueFull, false⟩, q)
  else
    let hypVa := q.tail + sizeofSize
    if fromKernel then
      if q.maxMsgSize < size then (⟨.argumentSize, false⟩, q)
      else msgqueueSendTail q (writeBytes q.buf hypVa (readBytes m.kernel msg size)) size push
    else
      let r := useraccessCopyFromGuestVa m q.maxMsgSize msg size
      let buf := writeBytes q.buf hypVa (readBytes m.guest msg r.r)
      -- A failed copy jumps to `out` without setting `ret.e`.
      if r.e ≠ .ok then (⟨.ok, true⟩, { q with buf })
      else msgqueueSendTail q buf size push

/-- The end of `msgqueue_receive_msg`, once the message is in the caller's buffer: the count, the
head with its wrap-around, the sender's VIRQ and the not-empty result. -/
def msgqueueReceiveTail (q : Msgqueue) (size : Nat) : ReceiveInfoResult × Msgqueue :=
  let count := q.count - 1
  let head := q.head + (q.maxMsgSize + sizeofSize)
  let head := if head = q.queueSize then 0 else head
  let sendAsserted := q.sendAsserted || count == q.notfullThd
  (⟨.ok, size, count != 0⟩, { q with count, head, sendAsserted })

/-- `msgqueue_receive_msg`: the head message into `buffer`, of `max_size` bytes, in the kernel or
in the guest. The memory is returned with the bytes written. -/
def msgqueueReceiveMsg (q : Msgqueue) (m : Memory) (buffer maxSize : Nat) (toKernel : Bool) :
    ReceiveInfoResult × Msgqueue × Memory :=
  if q.count = 0 then (⟨.msgqueueEmpty, 0, false⟩, q, m)
  else
    let size := decodeLE (readBytes q.buf q.head sizeofSize)
    let hypVa := q.head + sizeofSize
    if toKernel then
      if maxSize < size then (⟨.argumentSize, 0, false⟩, q, m)
      else
        let r := msgqueueReceiveTail q size
        (r.1, r.2, { m with kernel := writeBytes m.kernel buffer (readBytes q.buf hypVa size) })
    else
      let r := useraccessCopyToGuestVa m buffer maxSize size false
      let m := { m with guest := writeBytes m.guest buffer (readBytes q.buf hypVa r.r) }
      -- A failed copy jumps to `out` without setting `ret.e`.
      if r.e ≠ .ok then (⟨.ok, 0, true⟩, q, m)
      else
        let r := msgqueueReceiveTail q size
        (r.1, r.2, m)

/-- `msgqueue_flush_queue`. -/
def msgqueueFlushQueue (q : Msgqueue) : Msgqueue :=
  { q with
    sendAsserted := q.sendAsserted || q.count != 0
    rcvAsserted := q.rcvAsserted && q.count == 0
    buf := writeBytes q.buf 0 (List.replicate q.queueSize 0)
    count := 0
    head := 0
    tail := 0 }

/-! ## What a guest copy moves -/

theorem copyReach_r_le (fault : Nat → Error) (va n : Nat) : (copyReach fault va n).r ≤ n := by
  induction n generalizing va with
  | zero => simp [copyReach]
  | succ n ih =>
    simp only [copyReach]
    split_ifs
    · simpa using ih (va + 1)
    · simp

theorem copyReach_r_of_ok {fault : Nat → Error} {va n : Nat}
    (h : (copyReach fault va n).e = .ok) : (copyReach fault va n).r = n := by
  induction n generalizing va with
  | zero => rfl
  | succ n ih =>
    simp only [copyReach] at h ⊢
    split_ifs at h ⊢ with hf
    · exact congrArg (· + 1) (ih h)
    · exact absurd h hf

theorem useraccessCopyFromToGuestVa_r_le (fault : Nat → Error) (gvaddr size : Nat) :
    (useraccessCopyFromToGuestVa fault gvaddr size).r ≤ size := by
  unfold useraccessCopyFromToGuestVa
  split_ifs
  · exact Nat.zero_le _
  · exact copyReach_r_le fault gvaddr size

theorem useraccessCopyFromToGuestVa_r_of_ok {fault : Nat → Error} {gvaddr size : Nat}
    (h : (useraccessCopyFromToGuestVa fault gvaddr size).e = .ok) :
    (useraccessCopyFromToGuestVa fault gvaddr size).r = size := by
  unfold useraccessCopyFromToGuestVa at h ⊢
  split_ifs at h ⊢
  exact copyReach_r_of_ok h

/-- A copy from the guest never moves more bytes than the hypervisor buffer holds. -/
theorem useraccessCopyFromGuestVa_r_le (m : Memory) (hsize guestVa gsize : Nat) :
    (useraccessCopyFromGuestVa m hsize guestVa gsize).r ≤ hsize := by
  unfold useraccessCopyFromGuestVa
  split_ifs with h
  · exact Nat.zero_le _
  · have := useraccessCopyFromToGuestVa_r_le m.readFault guestVa gsize
    omega

/-- A copy from the guest that succeeds has moved all `gsize` bytes, and they fit. -/
theorem useraccessCopyFromGuestVa_of_ok {m : Memory} {hsize guestVa gsize : Nat}
    (h : (useraccessCopyFromGuestVa m hsize guestVa gsize).e = .ok) :
    (useraccessCopyFromGuestVa m hsize guestVa gsize).r = gsize ∧ gsize ≤ hsize := by
  unfold useraccessCopyFromGuestVa at h ⊢
  split_ifs at h ⊢ with hs
  exact ⟨useraccessCopyFromToGuestVa_r_of_ok h, by omega⟩

/-- A copy to the guest that succeeds has moved all `hsize` bytes. -/
theorem useraccessCopyToGuestVa_r_of_ok {m : Memory} {guestVa gsize hsize : Nat}
    {forceAccess : Bool} (h : (useraccessCopyToGuestVa m guestVa gsize hsize forceAccess).e = .ok) :
    (useraccessCopyToGuestVa m guestVa gsize hsize forceAccess).r = hsize := by
  unfold useraccessCopyToGuestVa at h ⊢
  split_ifs at h ⊢ <;> exact useraccessCopyFromToGuestVa_r_of_ok h

/-! ## The ring of slots -/

namespace Msgqueue

/-- The size of a slot, `max_msg_size + sizeof(size_t)`. -/
def slot (q : Msgqueue) : Nat := q.maxMsgSize + sizeofSize

/-- The byte offset of the slot of the `j`-th message from the head. -/
def pos (q : Msgqueue) (j : Nat) : Nat := (q.head + j * q.slot) % q.queueSize

theorem slot_pos (q : Msgqueue) : 0 < q.slot := by
  simp [slot, sizeofSize]

/-- Positions depend on the head, the slot size and the buffer size only. -/
theorem pos_congr {q q' : Msgqueue} (hhead : q'.head = q.head) (hslot : q'.slot = q.slot)
    (hsize : q'.queueSize = q.queueSize) (j : Nat) : q'.pos j = q.pos j := by
  unfold pos
  rw [hhead, hslot, hsize]

/-- Moving the head to the slot of the `k`-th message moves every message `k` slots on. -/
theorem pos_shift {q : Msgqueue} {head k : Nat} (h : head = q.pos k) (j : Nat) :
    (head + j * q.slot) % q.queueSize = q.pos (k + j) := by
  rw [h]
  unfold pos
  rw [Nat.mod_add_mod, Nat.add_mul, Nat.add_assoc]

end Msgqueue

/-- The message in the slot at offset `off` of a buffer: as many bytes after the size header as
the header says. -/
def slotMessage (buf : Nat → UInt8) (off : Nat) : List UInt8 :=
  readBytes buf (off + sizeofSize) (decodeLE (readBytes buf off sizeofSize))

/-- A message is read from its header and the bytes the header counts, and from nothing else. -/
theorem slotMessage_congr {buf buf' : Nat → UInt8} {off : Nat}
    (h : ∀ a, off ≤ a → a < off + sizeofSize + (slotMessage buf off).length → buf' a = buf a) :
    slotMessage buf' off = slotMessage buf off := by
  have hhdr : readBytes buf' off sizeofSize = readBytes buf off sizeofSize :=
    readBytes_congr fun a h₁ h₂ => h a h₁ (by omega)
  unfold slotMessage
  rw [hhdr]
  apply readBytes_congr
  intro a h₁ h₂
  apply h a (by omega)
  simpa [slotMessage] using h₂

/-- `q` holds the messages `xs`, oldest first: the slots from `head` on hold them in order, each
no longer than `max_msg_size`, and `tail` is the slot after the last. -/
structure Represents (q : Msgqueue) (xs : List (List UInt8)) : Prop where
  depth_pos : 0 < q.queueDepth
  maxMsgSize_lt : q.maxMsgSize < 256 ^ sizeofSize
  queueSize_eq : q.queueSize = q.slot * q.queueDepth
  count_eq : q.count = xs.length
  count_le : q.count ≤ q.queueDepth
  head_dvd : q.slot ∣ q.head
  head_lt : q.head < q.queueSize
  tail_eq : q.tail = q.pos q.count
  msg_eq : ∀ j (hj : j < xs.length), slotMessage q.buf (q.pos j) = xs[j]
  length_le : ∀ x ∈ xs, x.length ≤ q.maxMsgSize

/-- Slots `a < b` of size `s` do not overlap. -/
theorem mul_add_le_mul {s a b : Nat} (h : a < b) : s * a + s ≤ s * b :=
  calc s * a + s = s * (a + 1) := by rw [Nat.mul_succ]
    _ ≤ s * b := Nat.mul_le_mul_left s h

namespace Represents

variable {q : Msgqueue} {xs : List (List UInt8)}

/-- The slot of the `j`-th message is `j` slots on from the head's, round the ring. -/
theorem pos_eq (hq : Represents q xs) (j : Nat) :
    q.pos j = q.slot * ((q.head / q.slot + j) % q.queueDepth) := by
  unfold Msgqueue.pos
  rw [hq.queueSize_eq, ← Nat.mul_mod_mul_left]
  congr 1
  rw [Nat.mul_add, Nat.mul_div_cancel' hq.head_dvd, Nat.mul_comm j]

theorem pos_add_slot_le (hq : Represents q xs) (j : Nat) : q.pos j + q.slot ≤ q.queueSize := by
  rw [hq.pos_eq, hq.queueSize_eq]
  exact mul_add_le_mul (Nat.mod_lt _ hq.depth_pos)

theorem pos_lt (hq : Represents q xs) (j : Nat) : q.pos j < q.queueSize :=
  Nat.lt_of_lt_of_le (Nat.lt_add_of_pos_right (Msgqueue.slot_pos q)) (hq.pos_add_slot_le j)

theorem slot_dvd_pos (hq : Represents q xs) (j : Nat) : q.slot ∣ q.pos j := by
  rw [hq.pos_eq]
  exact Nat.dvd_mul_right _ _

theorem pos_zero (hq : Represents q xs) : q.pos 0 = q.head := by
  simp [Msgqueue.pos, Nat.mod_eq_of_lt hq.head_lt]

/-- Messages fewer than `queue_depth` apart sit in slots that do not overlap. -/
theorem pos_disjoint (hq : Represents q xs) {j k : Nat} (hj : j < q.queueDepth)
    (hk : k < q.queueDepth) (hjk : j ≠ k) :
    q.pos j + q.slot ≤ q.pos k ∨ q.pos k + q.slot ≤ q.pos j := by
  rw [hq.pos_eq j, hq.pos_eq k]
  have hne : (q.head / q.slot + j) % q.queueDepth ≠ (q.head / q.slot + k) % q.queueDepth :=
    fun h => hjk ((Nat.ModEq.add_left_cancel' _ h).eq_of_lt_of_lt hj hk)
  rcases Nat.lt_or_gt_of_ne hne with hlt | hlt
  · exact Or.inl (mul_add_le_mul hlt)
  · exact Or.inr (mul_add_le_mul hlt)

/-- One slot on from the `j`-th message's, with the wrap-around of the code, is the next one's. -/
theorem pos_succ (hq : Represents q xs) (j : Nat) :
    (if q.pos j + q.slot = q.queueSize then 0 else q.pos j + q.slot) = q.pos (j + 1) := by
  have hle := hq.pos_add_slot_le j
  have hmod : q.pos (j + 1) = (q.pos j + q.slot) % q.queueSize := by
    unfold Msgqueue.pos
    rw [Nat.mod_add_mod, Nat.add_mul, Nat.one_mul, Nat.add_assoc]
  split_ifs with h
  · rw [hmod, h, Nat.mod_self]
  · rw [hmod, Nat.mod_eq_of_lt (by omega)]

/-- The message at the head. -/
theorem head_message {x : List UInt8} (hq : Represents q (x :: xs)) :
    slotMessage q.buf q.head = x := by
  have h := hq.msg_eq 0 (by simp)
  rw [hq.pos_zero] at h
  exact h

/-- The size header at the head gives the head message's length. -/
theorem head_size {x : List UInt8} (hq : Represents q (x :: xs)) :
    decodeLE (readBytes q.buf q.head sizeofSize) = x.length := by
  have h := congrArg List.length hq.head_message
  simpa [slotMessage] using h

/-- The bytes after the head's size header are the head message. -/
theorem head_bytes {x : List UInt8} (hq : Represents q (x :: xs)) :
    readBytes q.buf (q.head + sizeofSize) x.length = x := by
  have h := hq.head_message
  rwa [slotMessage, hq.head_size] at h

/-- A buffer that differs from the queue's only inside the free slot at the tail holds the same
messages. -/
theorem frame (hq : Represents q xs) (hfree : q.count < q.queueDepth) {buf : Nat → UInt8}
    (hbuf : ∀ a, a < q.tail ∨ q.tail + q.slot ≤ a → buf a = q.buf a) :
    Represents { q with buf } xs := by
  refine ⟨hq.depth_pos, hq.maxMsgSize_lt, hq.queueSize_eq, hq.count_eq, hq.count_le, hq.head_dvd,
    hq.head_lt, hq.tail_eq, ?_, hq.length_le⟩
  intro j hj
  have hjc : j < q.count := by rw [hq.count_eq]; exact hj
  have hjD : j < q.queueDepth := Nat.lt_of_lt_of_le hjc hq.count_le
  have hlen : (slotMessage q.buf (q.pos j)).length ≤ q.maxMsgSize := by
    rw [hq.msg_eq j hj]
    exact hq.length_le _ (List.getElem_mem hj)
  -- The `j`-th slot and the tail's are different slots of the ring.
  have hdisj := hq.pos_disjoint hjD hfree (Nat.ne_of_lt hjc)
  rw [← hq.tail_eq] at hdisj
  rw [@Msgqueue.pos_congr q { q with buf } rfl rfl rfl j, ← hq.msg_eq j hj]
  apply slotMessage_congr
  intro a ha ha'
  have hslot : q.slot = q.maxMsgSize + sizeofSize := rfl
  exact hbuf a (by omega)

/-- The end of a send appends the message whose bytes are after the tail's header. -/
theorem sendTail (hq : Represents q xs) (hfree : q.count < q.queueDepth) (body : List UInt8)
    (hle : body.length ≤ q.maxMsgSize) (push : Bool) :
    Represents (msgqueueSendTail q (writeBytes q.buf (q.tail + sizeofSize) body) body.length
        push).2 (xs ++ [body]) ∧
      (msgqueueSendTail q (writeBytes q.buf (q.tail + sizeofSize) body) body.length push).1 =
        ⟨.ok, xs.length + 1 != q.queueDepth⟩ := by
  have hslot : q.slot = q.maxMsgSize + sizeofSize := rfl
  have hhdr : (encodeLE sizeofSize body.length).length = sizeofSize := length_encodeLE _ _
  set buf := writeBytes (writeBytes q.buf (q.tail + sizeofSize) body) q.tail
    (encodeLE sizeofSize body.length) with hbuf
  -- Both writes stay inside the tail's slot.
  have hout : ∀ a, a < q.tail ∨ q.tail + q.slot ≤ a → buf a = q.buf a := by
    rintro a (ha | ha)
    · rw [hbuf, writeBytes_apply_of_lt _ ha, writeBytes_apply_of_lt _ (by omega)]
    · rw [hbuf, writeBytes_apply_of_le (by omega), writeBytes_apply_of_le (by omega)]
  have hframe := hq.frame hfree hout
  -- The tail's slot now holds the body after its header.
  have hnew : slotMessage buf q.tail = body := by
    have h₁ := readBytes_writeBytes_self (writeBytes q.buf (q.tail + sizeofSize) body) q.tail
      (encodeLE sizeofSize body.length)
    rw [hhdr] at h₁
    have h₂ : decodeLE (encodeLE sizeofSize body.length) = body.length :=
      decodeLE_encodeLE_of_lt (Nat.lt_of_le_of_lt hle hq.maxMsgSize_lt)
    rw [slotMessage, hbuf, h₁, h₂, readBytes_writeBytes_of_disjoint (Or.inr (by omega)),
      readBytes_writeBytes_self]
  unfold msgqueueSendTail
  dsimp only
  rw [← hbuf]
  refine ⟨⟨hq.depth_pos, hq.maxMsgSize_lt, hq.queueSize_eq, ?_, ?_, hq.head_dvd, hq.head_lt, ?_, ?_,
    ?_⟩, ?_⟩
  · simp [hq.count_eq]
  · exact hfree
  · have h := hq.pos_succ q.count
    rw [← hq.tail_eq] at h
    exact h
  · intro j hj
    change slotMessage buf (q.pos j) = (xs ++ [body])[j]
    rcases Nat.lt_or_ge j xs.length with hlt | hge
    · -- An old message: the frame lemma.
      rw [List.getElem_append_left hlt]
      exact hframe.msg_eq j hlt
    · -- The new message, in the tail's slot.
      have hj' : j = xs.length := by simp at hj; omega
      rw [List.getElem_concat_length hj', hj', ← hq.count_eq, ← hq.tail_eq]
      exact hnew
  · intro x hx
    rcases List.mem_append.1 hx with hx | hx
    · exact hq.length_le x hx
    · rw [List.mem_singleton.1 hx]
      exact hle
  · simp [hq.count_eq]

/-- The end of a receive removes the head message and reports its size. -/
theorem receiveTail {x : List UInt8} (hq : Represents q (x :: xs)) :
    Represents (msgqueueReceiveTail q x.length).2 xs ∧
      (msgqueueReceiveTail q x.length).1 = ⟨.ok, x.length, xs.length != 0⟩ := by
  -- The new head is the slot of the second message.
  have hhead := hq.pos_succ 0
  rw [hq.pos_zero, Nat.zero_add] at hhead
  have hcount : q.count - 1 = xs.length := by
    rw [hq.count_eq, List.length_cons, Nat.add_sub_cancel]
  have hle : q.count - 1 ≤ q.queueDepth := Nat.le_trans (Nat.sub_le _ _) hq.count_le
  unfold msgqueueReceiveTail
  dsimp only
  refine ⟨⟨hq.depth_pos, hq.maxMsgSize_lt, hq.queueSize_eq, hcount, hle, ?_, ?_, ?_, ?_,
    fun y hy => hq.length_le y (List.mem_cons_of_mem x hy)⟩, ?_⟩
  · have h := hq.slot_dvd_pos 1
    rw [← hhead] at h
    exact h
  · have h := hq.pos_lt 1
    rw [← hhead] at h
    exact h
  · -- The tail stays where it was: `count` slots on from the old head.
    have h := Msgqueue.pos_shift hhead (q.count - 1)
    rw [Nat.add_sub_cancel' (by rw [hq.count_eq]; simp), ← hq.tail_eq] at h
    exact h.symm
  · intro j hj
    have h : slotMessage q.buf (q.pos (1 + j)) = xs[j] := by
      rw [Nat.add_comm 1 j]
      exact hq.msg_eq (j + 1) (by simp; omega)
    rw [← Msgqueue.pos_shift hhead j] at h
    exact h
  · rw [hcount]

/-- A flush empties the queue. -/
theorem flush (hq : Represents q xs) : Represents (msgqueueFlushQueue q) [] := by
  have hsize : 0 < q.queueSize := Nat.lt_of_le_of_lt (Nat.zero_le _) hq.head_lt
  refine ⟨hq.depth_pos, hq.maxMsgSize_lt, hq.queueSize_eq, rfl, Nat.zero_le _, Nat.dvd_zero _,
    hsize, ?_, fun j hj => absurd hj (Nat.not_lt_zero j), fun x hx => absurd hx List.not_mem_nil⟩
  simp [msgqueueFlushQueue, Msgqueue.pos]

/-- A failed copy from the guest writes inside the tail's free slot only. -/
theorem copyFailure (hq : Represents q xs) (hfree : q.count < q.queueDepth) (m : Memory)
    (size msg : Nat) :
    Represents { q with buf := (writeBytes q.buf (q.tail + sizeofSize)
      (readBytes m.guest msg (useraccessCopyFromGuestVa m q.maxMsgSize msg size).r)) } xs := by
  have hslot : q.slot = q.maxMsgSize + sizeofSize := rfl
  have hr := useraccessCopyFromGuestVa_r_le m q.maxMsgSize msg size
  apply hq.frame hfree
  rintro a (ha | ha)
  · exact writeBytes_apply_of_lt _ (by omega)
  · exact writeBytes_apply_of_le (by simp; omega)

end Represents

/-! ## Activation, sends and receives -/

/-- `msgqueue_configure` accepts only the bounds of `msgqueue.tc`. -/
theorem msgqueueConfigure_bounds {q q' : Msgqueue} {maxMsgSize queueDepth : Nat}
    (h : msgqueueConfigure q maxMsgSize queueDepth = .ok q') :
    0 < q'.queueDepth ∧ q'.queueDepth < msgqueueMaxQueueDepth ∧ 0 < q'.maxMsgSize ∧
      q'.maxMsgSize < msgqueueMaxMaxMsgSize := by
  unfold msgqueueConfigure at h
  split_ifs at h with hb
  cases h
  exact ⟨Nat.pos_of_ne_zero hb.1, hb.2.2.1, Nat.pos_of_ne_zero hb.2.1, hb.2.2.2⟩

/-- An activated queue holds no messages. -/
theorem represents_of_activate {q q' : Msgqueue} {alloc : Nat → Except Error (Nat → UInt8)}
    (hmax : q.maxMsgSize < 256 ^ sizeofSize)
    (h : msgqueueHandleObjectActivateMsgqueue q alloc = .ok q') : Represents q' [] := by
  unfold msgqueueHandleObjectActivateMsgqueue at h
  split_ifs at h with hz
  dsimp only at h
  split at h
  · cases h
  · cases h
    have hd : 0 < q.queueDepth := by omega
    exact ⟨hd, hmax, rfl, rfl, Nat.zero_le _, Nat.dvd_zero _,
      Nat.mul_pos (Msgqueue.slot_pos q) hd, by simp [Msgqueue.pos],
      fun j hj => absurd hj (Nat.not_lt_zero j), fun x hx => absurd hx List.not_mem_nil⟩

/-- A queue configured and then activated holds no messages. -/
theorem represents_of_configure {q₀ q₁ q : Msgqueue} {maxMsgSize queueDepth : Nat}
    {alloc : Nat → Except Error (Nat → UInt8)}
    (hconf : msgqueueConfigure q₀ maxMsgSize queueDepth = .ok q₁)
    (hact : msgqueueHandleObjectActivateMsgqueue q₁ alloc = .ok q) : Represents q [] := by
  have hmax := (msgqueueConfigure_bounds hconf).2.2.2
  exact represents_of_activate (Nat.lt_trans hmax (by decide)) hact

/-- The bytes a send takes: `size` bytes at `msg` in kernel or guest memory. -/
def sentBytes (m : Memory) (size msg : Nat) (fromKernel : Bool) : List UInt8 :=
  readBytes (if fromKernel then m.kernel else m.guest) msg size

/-- A send into a queue with room, of a message that is read in full, appends it. -/
theorem msgqueueSendMsg_appends {q : Msgqueue} {xs : List (List UInt8)} (hq : Represents q xs)
    (hfree : q.count < q.queueDepth) (m : Memory) (size msg : Nat) (push : Bool)
    {fromKernel : Bool} (hkernel : fromKernel = true → size ≤ q.maxMsgSize)
    (hguest : fromKernel = false → (useraccessCopyFromGuestVa m q.maxMsgSize msg size).e = .ok) :
    Represents (msgqueueSendMsg q m size msg push fromKernel).2
        (xs ++ [sentBytes m size msg fromKernel]) ∧
      (msgqueueSendMsg q m size msg push fromKernel).1 = ⟨.ok, xs.length + 1 != q.queueDepth⟩ := by
  have hfull : q.count ≠ q.queueDepth := Nat.ne_of_lt hfree
  cases fromKernel with
  | true =>
    have hsize := hkernel rfl
    have h := hq.sendTail hfree (readBytes m.kernel msg size) (by simpa using hsize) push
    simp only [length_readBytes] at h
    simpa [msgqueueSendMsg, sentBytes, hfull, Nat.not_lt.2 hsize] using h
  | false =>
    have hok := hguest rfl
    obtain ⟨hr, hsize⟩ := useraccessCopyFromGuestVa_of_ok hok
    have h := hq.sendTail hfree (readBytes m.guest msg size) (by simpa using hsize) push
    simp only [length_readBytes] at h
    simpa [msgqueueSendMsg, sentBytes, hfull, hok, hr] using h

/-- A send from the guest whose copy fails writes into the tail's free slot only, and answers
`OK`. -/
theorem msgqueueSendMsg_copy_failure {q : Msgqueue} (hfull : q.count ≠ q.queueDepth)
    {m : Memory} {size msg : Nat} (push : Bool)
    (hfail : (useraccessCopyFromGuestVa m q.maxMsgSize msg size).e ≠ .ok) :
    msgqueueSendMsg q m size msg push false =
      (⟨.ok, true⟩, { q with buf := (writeBytes q.buf (q.tail + sizeofSize)
        (readBytes m.guest msg (useraccessCopyFromGuestVa m q.maxMsgSize msg size).r)) }) := by
  simp [msgqueueSendMsg, hfull, hfail]

/-- The destination memory of a receive: kernel or guest. -/
def receivedMemory (m : Memory) (toKernel : Bool) : Nat → UInt8 :=
  if toKernel then m.kernel else m.guest

/-- A receive from the guest whose copy fails answers `OK` with size 0 and keeps the queue. -/
theorem msgqueueReceiveMsg_copy_failure {q : Msgqueue} (hne : q.count ≠ 0) {m : Memory}
    {buffer maxSize : Nat}
    (hfail : (useraccessCopyToGuestVa m buffer maxSize
      (decodeLE (readBytes q.buf q.head sizeofSize)) false).e ≠ .ok) :
    (msgqueueReceiveMsg q m buffer maxSize false).1 = ⟨.ok, 0, true⟩ ∧
      (msgqueueReceiveMsg q m buffer maxSize false).2.1 = q := by
  simp [msgqueueReceiveMsg, hne, hfail]

/-! ## The bounded FIFO -/

/-- A call on an activated queue. -/
inductive MsgqueueCall where
  | send (m : Memory) (size msg : Nat) (push fromKernel : Bool)
  | receive (m : Memory) (buffer maxSize : Nat) (toKernel : Bool)
  | flush

/-- The queue after one call. -/
def MsgqueueCall.run : MsgqueueCall → Msgqueue → Msgqueue
  | .send m size msg push fromKernel, q => (msgqueueSendMsg q m size msg push fromKernel).2
  | .receive m buffer maxSize toKernel, q => (msgqueueReceiveMsg q m buffer maxSize toKernel).2.1
  | .flush, q => msgqueueFlushQueue q

/-- What a call gives back: the `bool_result_t` of a send, the `receive_info_result_t` of a receive
with the caller's memory after it, nothing for a flush. -/
inductive MsgqueueAnswer where
  | send (r : BoolResult)
  | receive (r : ReceiveInfoResult) (m : Memory)
  | flush

/-- The error an answer reports; a flush reports none. -/
def MsgqueueAnswer.e : MsgqueueAnswer → Error
  | .send r => r.e
  | .receive r _ => r.e
  | .flush => .ok

/-- The answer of one call. -/
def MsgqueueCall.answer : MsgqueueCall → Msgqueue → MsgqueueAnswer
  | .send m size msg push fromKernel, q => .send (msgqueueSendMsg q m size msg push fromKernel).1
  | .receive m buffer maxSize toKernel, q =>
    .receive (msgqueueReceiveMsg q m buffer maxSize toKernel).1
      (msgqueueReceiveMsg q m buffer maxSize toKernel).2.2
  | .flush, _ => .flush

/-- The bounded FIFO of messages that a queue of depth `depth` for messages of up to `maxMsgSize`
bytes implements: what one call answers and does to the messages. A send with room pushes the
message it read and answers `OK` and whether room is left; a receive pops the head into the
caller's buffer and answers `OK`, its size and whether more remain; a flush empties the FIFO. A
full or empty FIFO, a kernel message too long and a kernel buffer too short are errors that keep
the messages, and the caller's memory. A guest copy that fails keeps the messages and answers
`OK` (`sendCopyFailed`, `receiveCopyFailed`): this is what the code does. -/
inductive FifoStep (depth maxMsgSize : Nat) :
    List (List UInt8) → MsgqueueCall → MsgqueueAnswer → List (List UInt8) → Prop
  | push {xs : List (List UInt8)} {m : Memory} {size msg : Nat} {push fromKernel : Bool} :
      xs.length < depth → (fromKernel = true → size ≤ maxMsgSize) →
      (fromKernel = false → (useraccessCopyFromGuestVa m maxMsgSize msg size).e = .ok) →
      FifoStep depth maxMsgSize xs (.send m size msg push fromKernel)
        (.send ⟨.ok, xs.length + 1 != depth⟩) (xs ++ [sentBytes m size msg fromKernel])
  | full {xs : List (List UInt8)} {m : Memory} {size msg : Nat} {push fromKernel : Bool} :
      xs.length = depth →
      FifoStep depth maxMsgSize xs (.send m size msg push fromKernel) (.send ⟨.msgqueueFull, false⟩)
        xs
  | tooLong {xs : List (List UInt8)} {m : Memory} {size msg : Nat} {push : Bool} :
      xs.length < depth → maxMsgSize < size →
      FifoStep depth maxMsgSize xs (.send m size msg push true) (.send ⟨.argumentSize, false⟩) xs
  | sendCopyFailed {xs : List (List UInt8)} {m : Memory} {size msg : Nat} {push : Bool} :
      xs.length < depth → (useraccessCopyFromGuestVa m maxMsgSize msg size).e ≠ .ok →
      FifoStep depth maxMsgSize xs (.send m size msg push false) (.send ⟨.ok, true⟩) xs
  | pop {x : List UInt8} {xs : List (List UInt8)} {m m' : Memory} {buffer maxSize : Nat}
      {toKernel : Bool} : (toKernel = true → x.length ≤ maxSize) →
      (toKernel = false → (useraccessCopyToGuestVa m buffer maxSize x.length false).e = .ok) →
      readBytes (receivedMemory m' toKernel) buffer x.length = x →
      FifoStep depth maxMsgSize (x :: xs) (.receive m buffer maxSize toKernel)
        (.receive ⟨.ok, x.length, xs.length != 0⟩ m') xs
  | empty {m : Memory} {buffer maxSize : Nat} {toKernel : Bool} :
      FifoStep depth maxMsgSize [] (.receive m buffer maxSize toKernel)
        (.receive ⟨.msgqueueEmpty, 0, false⟩ m) []
  | bufferTooSmall {x : List UInt8} {xs : List (List UInt8)} {m : Memory} {buffer maxSize : Nat} :
      maxSize < x.length →
      FifoStep depth maxMsgSize (x :: xs) (.receive m buffer maxSize true)
        (.receive ⟨.argumentSize, 0, false⟩ m) (x :: xs)
  | receiveCopyFailed {x : List UInt8} {xs : List (List UInt8)} {m m' : Memory}
      {buffer maxSize : Nat} :
      (useraccessCopyToGuestVa m buffer maxSize x.length false).e ≠ .ok →
      FifoStep depth maxMsgSize (x :: xs) (.receive m buffer maxSize false)
        (.receive ⟨.ok, 0, true⟩ m') (x :: xs)
  | flush {xs : List (List UInt8)} : FifoStep depth maxMsgSize xs .flush .flush []

/-- Runs of the bounded FIFO, with the answer of each call. -/
inductive FifoRun (depth maxMsgSize : Nat) :
    List (List UInt8) → List MsgqueueCall → List MsgqueueAnswer → List (List UInt8) → Prop
  | nil {xs : List (List UInt8)} : FifoRun depth maxMsgSize xs [] [] xs
  | cons {xs ys zs : List (List UInt8)} {c : MsgqueueCall} {a : MsgqueueAnswer}
      {cs : List MsgqueueCall} {as : List MsgqueueAnswer} :
      FifoStep depth maxMsgSize xs c a ys → FifoRun depth maxMsgSize ys cs as zs →
      FifoRun depth maxMsgSize xs (c :: cs) (a :: as) zs

/-! ## Sends and receives as steps of the FIFO -/

namespace Represents

variable {q : Msgqueue} {xs : List (List UInt8)}

/-- A send is a step of the FIFO, with the answer the code gives. -/
theorem send_fifoStep (hq : Represents q xs) (m : Memory) (size msg : Nat)
    (push fromKernel : Bool) :
    ∃ ys, FifoStep q.queueDepth q.maxMsgSize xs (.send m size msg push fromKernel)
        (.send (msgqueueSendMsg q m size msg push fromKernel).1) ys ∧
      Represents (msgqueueSendMsg q m size msg push fromKernel).2 ys := by
  by_cases hfull : q.count = q.queueDepth
  · rw [msgqueueSendMsg, if_pos hfull]
    exact ⟨xs, .full (hq.count_eq ▸ hfull), hq⟩
  have hfree : q.count < q.queueDepth := Nat.lt_of_le_of_ne hq.count_le hfull
  have hroom : xs.length < q.queueDepth := hq.count_eq ▸ hfree
  cases fromKernel with
  | true =>
    by_cases hsize : q.maxMsgSize < size
    · simp only [msgqueueSendMsg, if_neg hfull, if_pos hsize, if_true]
      exact ⟨xs, .tooLong hroom hsize, hq⟩
    · have hk : true = true → size ≤ q.maxMsgSize := fun _ => Nat.not_lt.1 hsize
      have hg : true = false → (useraccessCopyFromGuestVa m q.maxMsgSize msg size).e = .ok :=
        fun h => absurd h (by decide)
      obtain ⟨h, hres⟩ := msgqueueSendMsg_appends hq hfree m size msg push hk hg
      rw [hres]
      exact ⟨_, .push hroom hk hg, h⟩
  | false =>
    by_cases hok : (useraccessCopyFromGuestVa m q.maxMsgSize msg size).e = .ok
    · have hk : false = true → size ≤ q.maxMsgSize := fun h => absurd h (by decide)
      obtain ⟨h, hres⟩ := msgqueueSendMsg_appends hq hfree m size msg push hk fun _ => hok
      rw [hres]
      exact ⟨_, .push hroom hk fun _ => hok, h⟩
    · -- the message is lost, and the call answers `OK`
      rw [msgqueueSendMsg_copy_failure hfull push hok]
      exact ⟨xs, .sendCopyFailed hroom hok, hq.copyFailure hfree m size msg⟩

/-- A receive is a step of the FIFO, with the answer the code gives and the caller's memory after
it. -/
theorem receive_fifoStep (hq : Represents q xs) (m : Memory) (buffer maxSize : Nat)
    (toKernel : Bool) :
    ∃ ys, FifoStep q.queueDepth q.maxMsgSize xs (.receive m buffer maxSize toKernel)
        (.receive (msgqueueReceiveMsg q m buffer maxSize toKernel).1
          (msgqueueReceiveMsg q m buffer maxSize toKernel).2.2) ys ∧
      Represents (msgqueueReceiveMsg q m buffer maxSize toKernel).2.1 ys := by
  cases xs with
  | nil =>
    have hz : q.count = 0 := hq.count_eq
    simp only [msgqueueReceiveMsg, if_pos hz]
    exact ⟨[], .empty, hq⟩
  | cons x xs =>
    have hne : q.count ≠ 0 := by rw [hq.count_eq]; simp
    have hsize := hq.head_size
    have hbytes := hq.head_bytes
    obtain ⟨hrep, hres⟩ := hq.receiveTail
    cases toKernel with
    | true =>
      by_cases hm : maxSize < x.length
      · simp only [msgqueueReceiveMsg, if_neg hne, hsize, if_true, if_pos hm]
        exact ⟨_, .bufferTooSmall hm, hq⟩
      · simp only [msgqueueReceiveMsg, if_neg hne, hsize, if_true, if_neg hm, hres]
        exact ⟨xs, .pop (fun _ => Nat.not_lt.1 hm) (fun h => absurd h (by decide))
          (by simp [receivedMemory, hbytes]), hrep⟩
    | false =>
      by_cases hok : (useraccessCopyToGuestVa m buffer maxSize x.length false).e = .ok
      · have hr := useraccessCopyToGuestVa_r_of_ok hok
        simp only [msgqueueReceiveMsg, if_neg hne, hsize, Bool.false_eq_true, if_false, hok,
          ne_eq, not_true_eq_false, hres, hr]
        exact ⟨xs, .pop (fun h => absurd h (by decide)) (fun _ => hok)
          (by simp [receivedMemory, hbytes]), hrep⟩
      · -- the head message stays, and the call answers `OK` with size 0
        have hok' := hok
        rw [← hsize] at hok'
        obtain ⟨h₁, h₂⟩ := msgqueueReceiveMsg_copy_failure hne hok'
        rw [h₁, h₂]
        exact ⟨_, .receiveCopyFailed hok, hq⟩

end Represents

/-! ## Runs -/

/-- The queue after calls in sequence. -/
def runCalls (q : Msgqueue) (calls : List MsgqueueCall) : Msgqueue :=
  calls.foldl (fun q c => c.run q) q

/-- The answers of calls in sequence. -/
def runAnswers (q : Msgqueue) : List MsgqueueCall → List MsgqueueAnswer
  | [] => []
  | c :: cs => c.answer q :: runAnswers (c.run q) cs

/-- The configuration stays as it is. -/
theorem MsgqueueCall.run_config (c : MsgqueueCall) (q : Msgqueue) :
    (c.run q).queueDepth = q.queueDepth ∧ (c.run q).maxMsgSize = q.maxMsgSize := by
  cases c with
  | send m size msg push fromKernel =>
    simp only [run, msgqueueSendMsg, msgqueueSendTail]
    split_ifs <;> exact ⟨rfl, rfl⟩
  | receive m buffer maxSize toKernel =>
    simp only [run, msgqueueReceiveMsg, msgqueueReceiveTail]
    split_ifs <;> exact ⟨rfl, rfl⟩
  | flush => exact ⟨rfl, rfl⟩

/-- A call that answers an error leaves the queue as it was. Both functions check and fail before
they write; the one path that writes and does not finish, a failed guest copy, answers `OK`. -/
theorem MsgqueueCall.run_of_error (c : MsgqueueCall) (q : Msgqueue) (h : (c.answer q).e ≠ .ok) :
    c.run q = q := by
  cases c with
  | send m size msg push fromKernel =>
    simp only [answer, MsgqueueAnswer.e, run, msgqueueSendMsg] at h ⊢
    split_ifs at h ⊢ <;> first | rfl | exact absurd rfl h
  | receive m buffer maxSize toKernel =>
    simp only [answer, MsgqueueAnswer.e, run, msgqueueReceiveMsg] at h ⊢
    split_ifs at h ⊢ <;> first | rfl | exact absurd rfl h
  | flush => exact absurd rfl h

/-- Each call is a step of the bounded FIFO, with the answer it gives. -/
theorem MsgqueueCall.run_fifoStep {q : Msgqueue} {xs : List (List UInt8)} (hq : Represents q xs)
    (c : MsgqueueCall) :
    ∃ ys, FifoStep q.queueDepth q.maxMsgSize xs c (c.answer q) ys ∧ Represents (c.run q) ys := by
  cases c with
  | send m size msg push fromKernel => exact hq.send_fifoStep m size msg push fromKernel
  | receive m buffer maxSize toKernel => exact hq.receive_fifoStep m buffer maxSize toKernel
  | flush => exact ⟨[], .flush, hq.flush⟩

/-- Along any run, the queue's messages and the calls' answers are those of a run of the bounded
FIFO over the same calls. -/
theorem runCalls_fifoRun {q : Msgqueue} {xs : List (List UInt8)} (hq : Represents q xs)
    (calls : List MsgqueueCall) :
    ∃ ys, FifoRun q.queueDepth q.maxMsgSize xs calls (runAnswers q calls) ys ∧
      Represents (runCalls q calls) ys := by
  induction calls generalizing q xs with
  | nil => exact ⟨xs, .nil, hq⟩
  | cons c cs ih =>
    obtain ⟨ys, hstep, hys⟩ := MsgqueueCall.run_fifoStep hq c
    obtain ⟨zs, hrun, hzs⟩ := ih hys
    obtain ⟨hdepth, hmax⟩ := MsgqueueCall.run_config c q
    rw [hdepth, hmax] at hrun
    exact ⟨zs, .cons hstep hrun, hzs⟩

/-- `msgqueue_configure` and the activation keep the configured bounds. -/
theorem config_of_activate {q₀ q₁ q : Msgqueue} {maxMsgSize queueDepth : Nat}
    {alloc : Nat → Except Error (Nat → UInt8)}
    (hconf : msgqueueConfigure q₀ maxMsgSize queueDepth = .ok q₁)
    (hact : msgqueueHandleObjectActivateMsgqueue q₁ alloc = .ok q) :
    q.queueDepth = queueDepth ∧ q.maxMsgSize = maxMsgSize := by
  unfold msgqueueConfigure at hconf
  unfold msgqueueHandleObjectActivateMsgqueue at hact
  split_ifs at hconf
  cases hconf
  split_ifs at hact
  dsimp only at hact
  split at hact
  · cases hact
  · cases hact
    exact ⟨rfl, rfl⟩

/-- A configured and activated queue refines the bounded FIFO of its depth and message size: along
any calls, the messages it holds and the answers it gives are those of a run of the FIFO from
empty, and in every state reached the ring invariant holds and a call that answers an error leaves
the queue as it was. -/
theorem msgqueue_refines_fifo {q₀ q₁ q : Msgqueue} {maxMsgSize queueDepth : Nat}
    {alloc : Nat → Except Error (Nat → UInt8)}
    (hconf : msgqueueConfigure q₀ maxMsgSize queueDepth = .ok q₁)
    (hact : msgqueueHandleObjectActivateMsgqueue q₁ alloc = .ok q) (calls : List MsgqueueCall) :
    (∃ ys, FifoRun queueDepth maxMsgSize [] calls (runAnswers q calls) ys ∧
        Represents (runCalls q calls) ys) ∧
      ∀ c : MsgqueueCall, (c.answer (runCalls q calls)).e ≠ .ok →
        c.run (runCalls q calls) = runCalls q calls := by
  obtain ⟨hdepth, hmax⟩ := config_of_activate hconf hact
  refine ⟨?_, fun c => c.run_of_error _⟩
  rw [← hdepth, ← hmax]
  exact runCalls_fifoRun (represents_of_configure hconf hact) calls

/-- A queue of depth 2 for messages of up to 4 bytes, sent one message of 3 bytes from the
kernel. -/
theorem msgqueue_refines_fifo_send :
    (∃ ys, FifoRun 2 4 []
      [.send ⟨fun _ => 7, fun _ => 9, fun _ => .ok, fun _ => .ok⟩ 3 0 false true]
      (runAnswers ⟨fun _ => 0, 0, 24, 4, 2, 0, 0, 1, 1, false, false⟩
        [.send ⟨fun _ => 7, fun _ => 9, fun _ => .ok, fun _ => .ok⟩ 3 0 false true]) ys ∧
      Represents (runCalls ⟨fun _ => 0, 0, 24, 4, 2, 0, 0, 1, 1, false, false⟩
        [.send ⟨fun _ => 7, fun _ => 9, fun _ => .ok, fun _ => .ok⟩ 3 0 false true]) ys) ∧
      ∀ c : MsgqueueCall,
        (c.answer (runCalls ⟨fun _ => 0, 0, 24, 4, 2, 0, 0, 1, 1, false, false⟩
          [.send ⟨fun _ => 7, fun _ => 9, fun _ => .ok, fun _ => .ok⟩ 3 0 false true])).e ≠ .ok →
        c.run (runCalls ⟨fun _ => 0, 0, 24, 4, 2, 0, 0, 1, 1, false, false⟩
          [.send ⟨fun _ => 7, fun _ => 9, fun _ => .ok, fun _ => .ok⟩ 3 0 false true]) =
          runCalls ⟨fun _ => 0, 0, 24, 4, 2, 0, 0, 1, 1, false, false⟩
            [.send ⟨fun _ => 7, fun _ => 9, fun _ => .ok, fun _ => .ok⟩ 3 0 false true] :=
  @msgqueue_refines_fifo ⟨fun _ => 0, 0, 0, 0, 0, 0, 0, 0, 0, false, false⟩
    ⟨fun _ => 0, 0, 0, 4, 2, 0, 0, 0, 0, false, false⟩ _ 4 2 (fun _ => .ok fun _ => 0) rfl rfl _

/-! ## Failed guest copies -/

/-- A guest copy that fails is reported as success. A send whose copy from the guest fails
answers `OK` with the queue's count, head, tail and messages as they were; a receive whose copy to
the guest fails answers `OK` with size 0 and keeps the queue, head message included. -/
theorem msgqueue_guest_copy_ok {q : Msgqueue} {xs : List (List UInt8)} (hq : Represents q xs)
    (m : Memory) (size msg buffer maxSize : Nat) (push : Bool) :
    (q.count ≠ q.queueDepth → (useraccessCopyFromGuestVa m q.maxMsgSize msg size).e ≠ .ok →
      (msgqueueSendMsg q m size msg push false).1 = ⟨.ok, true⟩ ∧
      (msgqueueSendMsg q m size msg push false).2.count = q.count ∧
      (msgqueueSendMsg q m size msg push false).2.head = q.head ∧
      (msgqueueSendMsg q m size msg push false).2.tail = q.tail ∧
      Represents (msgqueueSendMsg q m size msg push false).2 xs) ∧
    (∀ x xs', xs = x :: xs' → (useraccessCopyToGuestVa m buffer maxSize x.length false).e ≠ .ok →
      (msgqueueReceiveMsg q m buffer maxSize false).1 = ⟨.ok, 0, true⟩ ∧
      (msgqueueReceiveMsg q m buffer maxSize false).2.1 = q) := by
  constructor
  · intro hfull hfail
    have hfree : q.count < q.queueDepth := Nat.lt_of_le_of_ne hq.count_le hfull
    rw [msgqueueSendMsg_copy_failure hfull push hfail]
    exact ⟨rfl, rfl, rfl, rfl, hq.copyFailure hfree m size msg⟩
  · rintro x xs' rfl hfail
    have hne : q.count ≠ 0 := by rw [hq.count_eq]; simp
    rw [← hq.head_size] at hfail
    exact msgqueueReceiveMsg_copy_failure hne hfail

/-- A queue of depth 2 for messages of up to 4 bytes, holding one 3-byte message sent from the
kernel. A guest send of 5 bytes and a guest receive into a 1-byte buffer both fail their copy
with `ERROR_ARGUMENT_SIZE`, answer `OK`, and leave the queue holding the same message. -/
theorem msgqueue_guest_copy_ok_oversize :
    let m : Memory := ⟨fun _ => 7, fun _ => 9, fun _ => .ok, fun _ => .ok⟩
    let q := (msgqueueSendMsg ⟨fun _ => 0, 0, 24, 4, 2, 0, 0, 1, 1, false, false⟩ m 3 0 false
      true).2
    (msgqueueSendMsg q m 5 0 false false).1 = ⟨.ok, true⟩ ∧
      Represents (msgqueueSendMsg q m 5 0 false false).2 [[7, 7, 7]] ∧
      (msgqueueReceiveMsg q m 0 1 false).1 = ⟨.ok, 0, true⟩ ∧
      (msgqueueReceiveMsg q m 0 1 false).2.1 = q := by
  intro m q
  have hact : msgqueueHandleObjectActivateMsgqueue ⟨fun _ => 0, 0, 0, 4, 2, 0, 0, 0, 0, false, false⟩
      (fun _ => .ok fun _ => 0) = .ok ⟨fun _ => 0, 0, 24, 4, 2, 0, 0, 1, 1, false, false⟩ := rfl
  have h₀ := represents_of_activate (by decide) hact
  have hq : Represents q [[7, 7, 7]] :=
    (msgqueueSendMsg_appends h₀ (by decide) m 3 0 false (fun _ => by decide)
      (fun h => absurd h (by decide))).1
  obtain ⟨hsend, hrecv⟩ := msgqueue_guest_copy_ok hq m 5 0 0 1 false
  obtain ⟨h₁, -, -, -, h₂⟩ := hsend (by decide) (by decide)
  exact ⟨h₁, h₂, hrecv [7, 7, 7] [] rfl (by decide)⟩

end Gunyah.Ipc

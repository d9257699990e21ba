import Mathlib.Data.Nat.Basic
import Mathlib.Data.List.Basic
import Mathlib.Data.UInt

set_option autoImplicit false

/-!
# Byte buffers

Memory as a function from addresses to bytes, with the two operations that C code performs on it
through `memcpy`: reading `n` bytes from an address, and writing a list of bytes from one. A
fixed-width integer is stored in memory as its little-endian bytes.

The lemmas are the ones a model of a buffer needs: a read after a write of the same range returns
what was written, a read of a range disjoint from a write sees the old bytes, and decoding the
little-endian bytes of a value gives the value back, reduced modulo the width.
-/

namespace Bytes

/-- The `n` bytes of `mem` from address `off`. -/
def readBytes (mem : Nat → UInt8) (off n : Nat) : List UInt8 :=
  (List.range n).map fun i => mem (off + i)

/-- `memcpy(mem + off, bytes, length)`: `mem` with `bytes` written from address `off`. -/
def writeBytes (mem : Nat → UInt8) (off : Nat) (bytes : List UInt8) : Nat → UInt8 :=
  fun a => if off ≤ a ∧ a < off + bytes.length then bytes.getD (a - off) 0 else mem a

/-- The `k` little-endian bytes of `n`. -/
def encodeLE : Nat → Nat → List UInt8
  | 0, _ => []
  | k + 1, n => n.toUInt8 :: encodeLE k (n / 256)

/-- The number whose little-endian bytes are `bs`. -/
def decodeLE : List UInt8 → Nat
  | [] => 0
  | b :: bs => b.toNat + 256 * decodeLE bs

/-! ## Reading and writing -/

@[simp] theorem length_readBytes (mem : Nat → UInt8) (off n : Nat) :
    (readBytes mem off n).length = n := by
  simp [readBytes]

@[simp] theorem length_encodeLE (k n : Nat) : (encodeLE k n).length = k := by
  induction k generalizing n with
  | zero => rfl
  | succ k ih => simp [encodeLE, ih]

theorem writeBytes_apply_of_lt {mem : Nat → UInt8} {off a : Nat} (bytes : List UInt8)
    (ha : a < off) : writeBytes mem off bytes a = mem a := by
  simp only [writeBytes]
  rw [if_neg (by omega)]

theorem writeBytes_apply_of_le {mem : Nat → UInt8} {off a : Nat} {bytes : List UInt8}
    (ha : off + bytes.length ≤ a) : writeBytes mem off bytes a = mem a := by
  simp only [writeBytes]
  rw [if_neg (by omega)]

/-- Two reads agree when the memories agree on the range read. -/
theorem readBytes_congr {mem mem' : Nat → UInt8} {off n : Nat}
    (h : ∀ a, off ≤ a → a < off + n → mem' a = mem a) :
    readBytes mem' off n = readBytes mem off n := by
  simp only [readBytes, List.map_inj_left, List.mem_range]
  intro i hi
  exact h (off + i) (by omega) (by omega)

/-- Reading back the range just written returns the bytes written. -/
@[simp] theorem readBytes_writeBytes_self (mem : Nat → UInt8) (off : Nat) (bytes : List UInt8) :
    readBytes (writeBytes mem off bytes) off bytes.length = bytes := by
  apply List.ext_getElem (by simp)
  intro i hi _
  simp only [readBytes, List.getElem_map, List.getElem_range, writeBytes]
  simp only [length_readBytes] at hi
  rw [if_pos (by omega), Nat.add_sub_cancel_left]
  simp [hi]

/-- A read of a range that a write does not touch sees the old bytes. -/
theorem readBytes_writeBytes_of_disjoint {mem : Nat → UInt8} {off off' n : Nat}
    {bytes : List UInt8} (h : off' + n ≤ off ∨ off + bytes.length ≤ off') :
    readBytes (writeBytes mem off bytes) off' n = readBytes mem off' n := by
  apply readBytes_congr
  intro a ha ha'
  rcases h with h | h
  · exact writeBytes_apply_of_lt bytes (by omega)
  · exact writeBytes_apply_of_le (by omega)

/-! ## Little-endian integers -/

/-- Decoding the `k` little-endian bytes of `n` gives `n` modulo `256 ^ k`. -/
theorem decodeLE_encodeLE (k n : Nat) : decodeLE (encodeLE k n) = n % 256 ^ k := by
  induction k generalizing n with
  | zero => simp [encodeLE, decodeLE, Nat.mod_one]
  | succ k ih =>
    have hb : n.toUInt8.toNat = n % 256 := by simp
    calc decodeLE (encodeLE (k + 1) n)
        = n % 256 + 256 * (n / 256 % 256 ^ k) := by simp only [encodeLE, decodeLE, hb, ih]
      _ = n % (256 * 256 ^ k) := Nat.mod_mul.symm
      _ = n % 256 ^ (k + 1) := by rw [Nat.pow_succ']

theorem decodeLE_encodeLE_of_lt {k n : Nat} (h : n < 256 ^ k) : decodeLE (encodeLE k n) = n := by
  rw [decodeLE_encodeLE, Nat.mod_eq_of_lt h]

end Bytes

import Gunyah.Error
import Mathlib.Tactic.Ring

set_option autoImplicit false

/-!
# Cap IDs

A model of how `hyp/core/cspace_twolevel` turns the 16-bit cap values of a cspace into the 64-bit
cap IDs that a VM sees, and back. `cspace_init_id_encoder` draws a random base whose top 32 bits
stay below `0xffffff00`, and a nonzero 16-bit multiplier `m`, and keeps the fixed-point reciprocal
`2 ^ 32 / m + 1`. A cap value `v` is encoded as `(v * m) ^ base`. An ID is decoded by multiplying
`r = id ^ base` by the reciprocal and keeping the bits above bit 32; it is accepted when `r` fits
in 32 bits and the result in 16.

Decoding inverts encoding (`cspaceDecodeCapId_encode`), and no encoded ID has the top half of
`CSPACE_CAP_INVALID` (`encode_shiftRight_ne`). Decoding does not check that the ID it accepts is the
encoding of what it returns: it accepts every `r` within `m` of `v * m` as `v`
(`cspaceDecodeCapId_near`), so with `m ≥ 2` the ID `1 ^ base` decodes to the value `0`, whose
encoding is `base` (`cspaceDecodeCapId_one`).

IDs and the fields of the encoder are naturals below `2 ^ 64`. The products that the C code forms
are reduced modulo `2 ^ 64`; only `r * id_inv` can reach it, and only for IDs that the range check
then rejects.
-/

namespace Gunyah.Cspace

/-- The fields of `cspace_t` that `cspace_init_id_encoder` sets. -/
structure IdEncoder where
  idMult : Nat
  idInv : Nat
  idRandBase : Nat
deriving DecidableEq, Repr

/-- What `cspace_init_id_encoder` guarantees of the encoder it sets up: a nonzero 16-bit
multiplier, its reciprocal, and a 64-bit base whose top half is below `0xffffff00`. -/
structure IdEncoder.Ok (e : IdEncoder) : Prop where
  mult_pos : 0 < e.idMult
  mult_lt : e.idMult < 2 ^ 16
  inv_eq : e.idInv = 2 ^ 32 / e.idMult + 1
  base_lt : e.idRandBase < 2 ^ 64
  base_top : e.idRandBase >>> 32 < 0xffffff00

/-! ## `cspace_init_id_encoder` -/

/-- The loop of `cspace_init_id_encoder` that draws `rand_base` from `prng_get64` until its top 32
bits are below `0xffffff00`: the first such draw or the first failed draw, with the draws left;
`none` while the loop has not ended. -/
def drawRandBase : List (Except Error Nat) → Option (Except Error Nat × List (Except Error Nat))
  | [] => none
  | .error e :: rest => some (.error e, rest)
  | .ok r :: rest => if r >>> 32 ≥ 0xffffff00 then drawRandBase rest else some (.ok r, rest)

/-- The loop that makes the low 16 bits of `rand_mult` nonzero by shifting `0x5555` in from the
top. Four rounds bring the constant to the bottom (`multLoop_ne_zero`), so the loop is given four. -/
def multLoop : Nat → Nat → Nat
  | 0, r => r
  | fuel + 1, r =>
      if r &&& 0xffff = 0 then multLoop fuel ((0x5555 <<< 48) ||| (r >>> 16)) else r

/-- `cspace_init_id_encoder` on the sequence of `prng_get64` results: the base, then the
multiplier and its reciprocal. `none` when the draws run out. -/
def cspaceInitIdEncoder (draws : List (Except Error Nat)) : Option (Except Error IdEncoder) :=
  match drawRandBase draws with
  | none => none
  | some (.error e, _) => some (.error e)
  | some (.ok base, rest) =>
      match rest with
      | [] => none
      | .error e :: _ => some (.error e)
      | .ok r :: _ =>
          let mult := multLoop 4 r &&& 0xffff
          some (.ok ⟨mult, 2 ^ 32 / mult + 1, base⟩)

/-- The mask `0xffff` keeps the low 16 bits. -/
theorem and_mask16 (x : Nat) : x &&& 0xffff = x % 2 ^ 16 :=
  Nat.and_two_pow_sub_one_eq_mod x 16

/-- One round of the multiplier loop on a 64-bit value: the constant on top, the rest shifted
down. -/
theorem shiftIn_eq {r : Nat} (hr : r < 2 ^ 64) :
    (0x5555 <<< 48) ||| (r >>> 16) = 0x5555 * 2 ^ 48 + r / 2 ^ 16 := by
  rw [← Nat.shiftLeft_add_eq_or_of_lt, Nat.shiftLeft_eq, Nat.shiftRight_eq_div_pow]
  rw [Nat.shiftRight_eq_div_pow]
  exact Nat.div_lt_of_lt_mul (by rw [← Nat.pow_add]; exact hr)

/-- A round of the multiplier loop on a 64-bit value. -/
theorem multLoop_succ {x : Nat} (n : Nat) (hx : x < 2 ^ 64) :
    multLoop (n + 1) x = if x % 2 ^ 16 = 0 then multLoop n (0x5555 * 2 ^ 48 + x / 2 ^ 16) else x := by
  rw [multLoop, and_mask16, shiftIn_eq hx]

/-- After the loop the low 16 bits of a 64-bit multiplier are not zero: a round stops at a
nonzero half-word, and after four rounds `0x5555` is the low half-word. -/
theorem multLoop_ne_zero {r : Nat} (hr : r < 2 ^ 64) : multLoop 4 r % 2 ^ 16 ≠ 0 := by
  have hround : ∀ x : Nat, x < 2 ^ 64 → 0x5555 * 2 ^ 48 + x / 2 ^ 16 < 2 ^ 64 := fun x hx => by
    omega
  have hr₁ := hround _ hr
  have hr₂ := hround _ hr₁
  have hr₃ := hround _ hr₂
  rw [multLoop_succ 3 hr]
  split_ifs with h₁
  · rw [multLoop_succ 2 hr₁]
    split_ifs with h₂
    · rw [multLoop_succ 1 hr₂]
      split_ifs with h₃
      · rw [multLoop_succ 0 hr₃]
        split_ifs with h₄
        · simp only [multLoop]
          omega
        · exact h₄
      · exact h₃
    · exact h₂
  · exact h₁

/-- The base that the loop settles on is one of the draws and has its top half below
`0xffffff00`, and the draws left are among the draws. -/
theorem drawRandBase_ok {draws rest : List (Except Error Nat)} {base : Nat}
    (h : drawRandBase draws = some (.ok base, rest)) :
    .ok base ∈ draws ∧ base >>> 32 < 0xffffff00 ∧ ∀ d ∈ rest, d ∈ draws := by
  induction draws with
  | nil => simp [drawRandBase] at h
  | cons d ds ih =>
      cases d with
      | error e => simp [drawRandBase] at h
      | ok r =>
          by_cases hr : r >>> 32 ≥ 0xffffff00
          · -- the draw is rejected and the loop draws again
            rw [drawRandBase, if_pos hr] at h
            obtain ⟨hmem, htop, hrest⟩ := ih h
            exact ⟨List.mem_cons_of_mem _ hmem, htop, fun x hx => List.mem_cons_of_mem _ (hrest x hx)⟩
          · rw [drawRandBase, if_neg hr, Option.some.injEq, Prod.mk.injEq, Except.ok.injEq] at h
            obtain ⟨rfl, rfl⟩ := h
            exact ⟨List.mem_cons_self, by omega, fun x hx => List.mem_cons_of_mem _ hx⟩

/-- `cspace_init_id_encoder` on 64-bit draws sets up an encoder with the guarantees of
`IdEncoder.Ok`. -/
theorem cspaceInitIdEncoder_ok {draws : List (Except Error Nat)} {e : IdEncoder}
    (hdraws : ∀ r, .ok r ∈ draws → r < 2 ^ 64) (h : cspaceInitIdEncoder draws = some (.ok e)) :
    e.Ok := by
  unfold cspaceInitIdEncoder at h
  cases hb : drawRandBase draws with
  | none => simp [hb] at h
  | some p =>
      obtain ⟨res, rest⟩ := p
      cases res with
      | error => simp [hb] at h
      | ok base =>
          obtain ⟨hmem, htop, hrest⟩ := drawRandBase_ok hb
          cases rest with
          | nil => simp [hb] at h
          | cons d ds =>
              cases d with
              | error => simp [hb] at h
              | ok r =>
                  simp only [hb, Option.some.injEq, Except.ok.injEq] at h
                  subst h
                  have hr := hdraws r (hrest _ List.mem_cons_self)
                  have hne := multLoop_ne_zero hr
                  exact
                    { mult_pos := by
                        show 0 < multLoop 4 r &&& 0xffff
                        rw [and_mask16]
                        omega
                      mult_lt := by
                        show multLoop 4 r &&& 0xffff < 2 ^ 16
                        rw [and_mask16]
                        exact Nat.mod_lt _ (Nat.two_pow_pos 16)
                      inv_eq := rfl
                      base_lt := hdraws base hmem
                      base_top := htop }

/-! ## The fixed-point reciprocal -/

/-- Multiplying an encoded value `v * m` by the reciprocal `2 ^ 32 / m + 1` and dividing by
`2 ^ 32` gives `v` back, for 16-bit `v` and `m`: the product is `v * 2 ^ 32` plus
`v * (m - 2 ^ 32 % m)`, which stays below `2 ^ 32`. -/
theorem mul_recip_div {m v : Nat} (hm : 0 < m) (hm' : m < 2 ^ 16) (hv : v < 2 ^ 16) :
    v * m * (2 ^ 32 / m + 1) / 2 ^ 32 = v := by
  have hdecomp := Nat.div_add_mod (2 ^ 32) m
  have ht := Nat.mod_lt (2 ^ 32) hm
  generalize 2 ^ 32 / m = q at hdecomp
  generalize 2 ^ 32 % m = t at hdecomp ht
  have hsum : v * m * (q + 1) + v * t = v * 2 ^ 32 + v * m := by
    calc v * m * (q + 1) + v * t = v * (m * q + t) + v * m := by ring
      _ = v * 2 ^ 32 + v * m := by rw [hdecomp]
  have hvt : v * t ≤ v * m := Nat.mul_le_mul_left v ht.le
  have hvm : v * m < 2 ^ 32 := by
    calc v * m < 2 ^ 16 * 2 ^ 16 := Nat.mul_lt_mul'' hv hm'
      _ = 2 ^ 32 := by norm_num
  apply Nat.div_eq_of_lt_le
  · omega
  · rw [Nat.succ_mul]
    omega

/-- Every 32-bit `r` that the reciprocal maps to `v` lies within `m` of `v * m`. -/
theorem recip_div_near {m r : Nat} (hm : 0 < m) (hr : r < 2 ^ 32) :
    r < r * (2 ^ 32 / m + 1) / 2 ^ 32 * m + m ∧ r * (2 ^ 32 / m + 1) / 2 ^ 32 * m < r + m := by
  have hdecomp := Nat.div_add_mod (2 ^ 32) m
  have ht := Nat.mod_lt (2 ^ 32) hm
  have hlo := Nat.div_mul_le_self (r * (2 ^ 32 / m + 1)) (2 ^ 32)
  have hhi := Nat.lt_div_mul_add (a := r * (2 ^ 32 / m + 1)) (Nat.two_pow_pos 32)
  generalize r * (2 ^ 32 / m + 1) / 2 ^ 32 = v at hlo hhi ⊢
  generalize 2 ^ 32 / m = q at hdecomp hlo hhi
  generalize 2 ^ 32 % m = t at hdecomp ht
  constructor
  · -- a value `v + 1` multiples of `m` away would have made the product reach `(v + 1) * 2 ^ 32`
    by_contra hge
    have hmul : (v + 1) * m * (q + 1) ≤ r * (q + 1) :=
      Nat.mul_le_mul_right _ (by rw [Nat.succ_mul]; omega)
    have hsum : (v + 1) * m * (q + 1) + (v + 1) * t = (v + 1) * 2 ^ 32 + (v + 1) * m := by
      calc (v + 1) * m * (q + 1) + (v + 1) * t = (v + 1) * (m * q + t) + (v + 1) * m := by ring
        _ = (v + 1) * 2 ^ 32 + (v + 1) * m := by rw [hdecomp]
    have hlt : (v + 1) * t < (v + 1) * m := Nat.mul_lt_mul_of_pos_left ht (Nat.succ_pos v)
    have hhi' : r * (q + 1) < (v + 1) * 2 ^ 32 := by rw [Nat.succ_mul]; exact hhi
    omega
  · -- multiplied through by `m`: `v * m * 2 ^ 32 ≤ r * (m * q + m) < (r + m) * 2 ^ 32`
    have hmq : m * q ≤ 2 ^ 32 := by omega
    have h1 : v * m * 2 ^ 32 ≤ r * (q + 1) * m := by
      calc v * m * 2 ^ 32 = v * 2 ^ 32 * m := by ring
        _ ≤ r * (q + 1) * m := Nat.mul_le_mul_right m hlo
    have h2 : r * (q + 1) * m = r * (m * q) + r * m := by ring
    have h3 : r * (m * q) ≤ r * 2 ^ 32 := Nat.mul_le_mul_left r hmq
    have h4 : r * m < 2 ^ 32 * m := Nat.mul_lt_mul_of_pos_right hr hm
    have h5 : v * m * 2 ^ 32 < (r + m) * 2 ^ 32 := by
      rw [Nat.add_mul]
      have : 2 ^ 32 * m = m * 2 ^ 32 := Nat.mul_comm _ _
      omega
    exact Nat.lt_of_mul_lt_mul_right h5

/-- The reciprocal of a nonzero multiplier is at most `2 ^ 32 + 1`, so its product with a 32-bit
value stays below `2 ^ 64`. -/
theorem mul_recip_lt {m r : Nat} (hr : r < 2 ^ 32) : r * (2 ^ 32 / m + 1) < 2 ^ 64 := by
  have hq : 2 ^ 32 / m + 1 ≤ 2 ^ 32 + 1 := Nat.succ_le_succ (Nat.div_le_self _ _)
  calc r * (2 ^ 32 / m + 1) ≤ (2 ^ 32 - 1) * (2 ^ 32 + 1) := Nat.mul_le_mul (by omega) hq
    _ < 2 ^ 64 := by norm_num

/-! ## Encoding and decoding -/

/-- `cspace_encode_cap_id`: the cap value times the multiplier, XORed with the base. -/
def cspaceEncodeCapId (e : IdEncoder) (v : Nat) : Nat :=
  (v * e.idMult % 2 ^ 64) ^^^ e.idRandBase

/-- `cspace_decode_cap_id`: the value is the product of `id ^ base` with the reciprocal, shifted
down by 32, and it is accepted when `id ^ base` fits in 32 bits and the value in 16. -/
def cspaceDecodeCapId (e : IdEncoder) (id : Nat) : Except Error Nat :=
  let r := id ^^^ e.idRandBase
  let v := (r * e.idInv % 2 ^ 64) >>> 32
  if r = r % 2 ^ 32 ∧ v = v % 2 ^ 16 then .ok (v % 2 ^ 16) else .error .argumentInvalid

theorem xor_xor_cancel (x b : Nat) : (x ^^^ b) ^^^ b = x := by
  rw [Nat.xor_assoc, Nat.xor_self, Nat.xor_zero]

section Encoder

variable {e : IdEncoder}

/-- Decoding takes `id ^ base` into the range checks; an accepted ID decodes to the product with
the reciprocal, divided by `2 ^ 32`. -/
theorem cspaceDecodeCapId_eq_ok {id v : Nat} (he : e.Ok)
    (h : cspaceDecodeCapId e id = .ok v) :
    id ^^^ e.idRandBase < 2 ^ 32 ∧ v = (id ^^^ e.idRandBase) * (2 ^ 32 / e.idMult + 1) / 2 ^ 32 := by
  unfold cspaceDecodeCapId at h
  dsimp only at h
  generalize id ^^^ e.idRandBase = r at h ⊢
  split_ifs at h with hc
  obtain ⟨hr, hv⟩ := hc
  have hr' : r < 2 ^ 32 := by
    rw [hr]
    exact Nat.mod_lt _ (Nat.two_pow_pos 32)
  rw [Except.ok.injEq, ← hv, he.inv_eq, Nat.mod_eq_of_lt (mul_recip_lt hr'),
    Nat.shiftRight_eq_div_pow] at h
  exact ⟨hr', h.symm⟩

/-- Decoding an encoded 16-bit value gives it back. -/
theorem cspaceDecodeCapId_encode (he : e.Ok) {v : Nat} (hv : v < 2 ^ 16) :
    cspaceDecodeCapId e (cspaceEncodeCapId e v) = .ok v := by
  have hm := he.mult_pos
  have hvm : v * e.idMult < 2 ^ 32 := by
    calc v * e.idMult < 2 ^ 16 * 2 ^ 16 := Nat.mul_lt_mul'' hv he.mult_lt
      _ = 2 ^ 32 := by norm_num
  have hdiv := mul_recip_div hm he.mult_lt hv
  -- the product with the reciprocal is below `2 ^ 48`, far from wrapping
  have hlt : v * e.idMult * e.idInv < 2 ^ 64 := by
    rw [he.inv_eq]
    exact mul_recip_lt hvm
  unfold cspaceDecodeCapId cspaceEncodeCapId
  dsimp only
  rw [xor_xor_cancel, Nat.mod_eq_of_lt (by omega : v * e.idMult < 2 ^ 64), Nat.mod_eq_of_lt hlt,
    Nat.shiftRight_eq_div_pow, he.inv_eq, hdiv, Nat.mod_eq_of_lt hvm, Nat.mod_eq_of_lt hv]
  simp

/-- The top half of an encoded ID is the top half of the base. -/
theorem encode_shiftRight (he : e.Ok) {v : Nat} (hv : v < 2 ^ 16) :
    cspaceEncodeCapId e v >>> 32 = e.idRandBase >>> 32 := by
  have hvm : v * e.idMult < 2 ^ 32 := by
    calc v * e.idMult < 2 ^ 16 * 2 ^ 16 := Nat.mul_lt_mul'' hv he.mult_lt
      _ = 2 ^ 32 := by norm_num
  unfold cspaceEncodeCapId
  rw [Nat.shiftRight_xor_distrib, Nat.mod_eq_of_lt (by omega : v * e.idMult < 2 ^ 64),
    Nat.shiftRight_eq_div_pow (v * e.idMult), Nat.div_eq_of_lt hvm, Nat.zero_xor]

/-- No encoded ID has the top half `0xffffffff` of the special cap IDs such as
`CSPACE_CAP_INVALID`. -/
theorem encode_shiftRight_ne (he : e.Ok) {v : Nat} (hv : v < 2 ^ 16) :
    cspaceEncodeCapId e v >>> 32 ≠ 0xffffffff := by
  rw [encode_shiftRight he hv]
  have := he.base_top
  omega

/-- An accepted ID is within one multiplier of the encoding of what it decodes to: `id ^ base`
fits in 32 bits and lies strictly between `(v - 1) * m` and `(v + 1) * m`. -/
theorem cspaceDecodeCapId_near (he : e.Ok) {id v : Nat} (h : cspaceDecodeCapId e id = .ok v) :
    id ^^^ e.idRandBase < 2 ^ 32 ∧ id ^^^ e.idRandBase < v * e.idMult + e.idMult ∧
      v * e.idMult < (id ^^^ e.idRandBase) + e.idMult := by
  obtain ⟨hr, rfl⟩ := cspaceDecodeCapId_eq_ok he h
  exact ⟨hr, recip_div_near he.mult_pos hr⟩

/-- With a multiplier of 2 or more, the ID `1 ^ base` is accepted as the value 0, whose encoding is
`base`. -/
theorem cspaceDecodeCapId_one (he : e.Ok) (hm : 2 ≤ e.idMult) :
    cspaceDecodeCapId e (1 ^^^ e.idRandBase) = .ok 0 ∧
      1 ^^^ e.idRandBase ≠ cspaceEncodeCapId e 0 := by
  have hq : 2 ^ 32 / e.idMult ≤ 2 ^ 32 / 2 := Nat.div_le_div_left hm (by decide)
  have hsmall : 2 ^ 32 / e.idMult + 1 < 2 ^ 32 := by omega
  constructor
  · unfold cspaceDecodeCapId
    dsimp only
    rw [xor_xor_cancel, he.inv_eq, Nat.one_mul,
      Nat.mod_eq_of_lt (Nat.lt_trans hsmall (Nat.pow_lt_pow_right (by decide) (by decide))),
      Nat.shiftRight_eq_div_pow, Nat.div_eq_of_lt hsmall]
    simp
  · intro heq
    have h := congrArg (· ^^^ e.idRandBase) heq
    simp only [cspaceEncodeCapId, xor_xor_cancel, Nat.zero_mul, Nat.zero_mod] at h
    exact absurd h (by decide)

/-- The cap-ID encoding of a cspace set up by `cspace_init_id_encoder`: decoding inverts encoding
on every 16-bit value, an accepted ID `id` decoding to `v` has `id ^ base` below `2 ^ 32` and
within `id_mult` of `v * id_mult`, and no encoded ID has the top half `0xffffffff`. -/
theorem cspace_cap_id_encoding (he : e.Ok) :
    (∀ v, v < 2 ^ 16 → cspaceDecodeCapId e (cspaceEncodeCapId e v) = .ok v) ∧
    (∀ id v, cspaceDecodeCapId e id = .ok v →
      id ^^^ e.idRandBase < 2 ^ 32 ∧ id ^^^ e.idRandBase < v * e.idMult + e.idMult ∧
        v * e.idMult < (id ^^^ e.idRandBase) + e.idMult) ∧
    (∀ v, v < 2 ^ 16 → cspaceEncodeCapId e v >>> 32 ≠ 0xffffffff) :=
  ⟨fun _ hv => cspaceDecodeCapId_encode he hv, fun _ _ h => cspaceDecodeCapId_near he h,
    fun _ hv => encode_shiftRight_ne he hv⟩

end Encoder

/-- The encoder with multiplier 3 and base `0x1234` is one that `cspace_init_id_encoder` can set
up, and the encoding holds for it. -/
theorem cspace_cap_id_encoding_mult3 :
    (⟨3, 2 ^ 32 / 3 + 1, 0x1234⟩ : IdEncoder).Ok ∧
    (∀ v, v < 2 ^ 16 →
      cspaceDecodeCapId ⟨3, 2 ^ 32 / 3 + 1, 0x1234⟩ (cspaceEncodeCapId ⟨3, 2 ^ 32 / 3 + 1, 0x1234⟩ v) =
        .ok v) ∧
    (∀ id v, cspaceDecodeCapId ⟨3, 2 ^ 32 / 3 + 1, 0x1234⟩ id = .ok v →
      id ^^^ 0x1234 < 2 ^ 32 ∧ id ^^^ 0x1234 < v * 3 + 3 ∧ v * 3 < (id ^^^ 0x1234) + 3) ∧
    (∀ v, v < 2 ^ 16 → cspaceEncodeCapId ⟨3, 2 ^ 32 / 3 + 1, 0x1234⟩ v >>> 32 ≠ 0xffffffff) := by
  have he : (⟨3, 2 ^ 32 / 3 + 1, 0x1234⟩ : IdEncoder).Ok :=
    ⟨by decide, by decide, rfl, by decide, by decide⟩
  exact ⟨he, cspace_cap_id_encoding he⟩

/-- Decoding accepts IDs that are not encodings: with multiplier 3 and base 0, the ID 1 is
accepted as the cap value 0, whose encoding is 0. -/
theorem cspaceDecodeCapId_not_canonical :
    (⟨3, 2 ^ 32 / 3 + 1, 0⟩ : IdEncoder).Ok ∧ cspaceDecodeCapId ⟨3, 2 ^ 32 / 3 + 1, 0⟩ 1 = .ok 0 ∧
      cspaceEncodeCapId ⟨3, 2 ^ 32 / 3 + 1, 0⟩ 0 ≠ 1 := by
  have he : (⟨3, 2 ^ 32 / 3 + 1, 0⟩ : IdEncoder).Ok := ⟨by decide, by decide, rfl, by decide, by decide⟩
  obtain ⟨hdec, hne⟩ := cspaceDecodeCapId_one he (by decide)
  exact ⟨he, hdec, Ne.symm hne⟩

/-! ## Cap table indices -/

/-- `cap_value_get_lower_index`: bits 7:0 of the cap value. -/
def capValueGetLowerIndex (v : Nat) : Nat := v % 2 ^ 8

/-- `cap_value_get_upper_index`: bits 15:8 of the cap value. -/
def capValueGetUpperIndex (v : Nat) : Nat := v / 2 ^ 8 % 2 ^ 8

/-- `cspace_indices_to_cap_id`: the cap value with the two indices, each cut to its 8-bit field,
encoded. -/
def cspaceIndicesToCapId (e : IdEncoder) (upper lower : Nat) : Nat :=
  cspaceEncodeCapId e (lower % 2 ^ 8 + upper % 2 ^ 8 * 2 ^ 8)

/-- `cspace_cap_id_to_indices`, with `CSPACE_NUM_CAP_TABLES` as `numTables` and
`CAP_TABLE_NUM_CAP_SLOTS` as `numSlots`: the indices of the decoded value, when both are in
range. -/
def cspaceCapIdToIndices (numTables numSlots : Nat) (e : IdEncoder) (capId : Nat) :
    Except Error (Nat × Nat) :=
  match cspaceDecodeCapId e capId with
  | .ok v =>
      let lower := capValueGetLowerIndex v
      let upper := capValueGetUpperIndex v
      if upper < numTables ∧ lower < numSlots then .ok (upper, lower) else .error .argumentInvalid
  | .error err => .error err

/-- The cap ID of a table and slot within range gives back that table and slot. -/
theorem cspaceCapIdToIndices_indicesToCapId {numTables numSlots upper lower : Nat} {e : IdEncoder}
    (he : e.Ok) (htables : numTables ≤ 2 ^ 8) (hslots : numSlots ≤ 2 ^ 8)
    (hu : upper < numTables) (hl : lower < numSlots) :
    cspaceCapIdToIndices numTables numSlots e (cspaceIndicesToCapId e upper lower) =
      .ok (upper, lower) := by
  have hv : lower % 2 ^ 8 + upper % 2 ^ 8 * 2 ^ 8 < 2 ^ 16 := by omega
  unfold cspaceCapIdToIndices cspaceIndicesToCapId
  rw [cspaceDecodeCapId_encode he hv]
  have hlower : capValueGetLowerIndex (lower % 2 ^ 8 + upper % 2 ^ 8 * 2 ^ 8) = lower := by
    unfold capValueGetLowerIndex
    omega
  have hupper : capValueGetUpperIndex (lower % 2 ^ 8 + upper % 2 ^ 8 * 2 ^ 8) = upper := by
    unfold capValueGetUpperIndex
    omega
  simp only [hlower, hupper]
  rw [if_pos ⟨hu, hl⟩]

end Gunyah.Cspace

import Mathlib

/-!
# The xorshift generator

`Xor128Rand` is a xorshift128+ generator on two 64-bit words. Its `Read` is documented to fill
the slice it is handed, but it writes the varint of one output at each of the offsets
`0, 8, 16, …` below `len(p) / 8` only. So a slice of fewer than 8 bytes is returned as it was
(`read_short`); no byte from `len(p) / 8 + 9` on is ever written (`read_frame`); and with 8 bytes
`binary.PutUvarint` runs past the end of the slice when the output needs 9 or 10 bytes, where Go
panics (`read_unfilled_or_panics`). From 11 bytes on it never panics (`read_isSome`).

What `PutUvarint` writes is a varint of its argument: seven bits a byte, lowest first, the high
bit set on every byte but the last (`IsVarint`, `varintValue`, `putUvarint_varint`). So on 8 to
71 bytes, where the loop of `Read` runs once, `Read` panics exactly when that varint is longer
than the slice, and otherwise writes the varint of one output at offset `0` and returns every
later byte as it was (`read_one_varint`).

Go's `uint64` is `BitVec 64` and `byte` is `BitVec 8`; an index out of range, on which Go
panics, makes a function return `none`.
-/

namespace AerospikeClient

namespace Rand

/-- `Xor128Rand`: the two words of its state `src`. -/
structure Xor128Rand where
  src0 : BitVec 64
  src1 : BitVec 64
deriving DecidableEq, Repr

namespace Xor128Rand

/-- `Uint64()`: the output, and the state after it. -/
def uint64 (r : Xor128Rand) : BitVec 64 × Xor128Rand :=
  let s1 := r.src0
  let s0 := r.src1
  let s1 := s1 ^^^ s1 <<< 23
  let src1 := s1 ^^^ s0 ^^^ s1 >>> 17 ^^^ s0 >>> 26
  (src1 + s0, ⟨s0, src1⟩)

/-- `Int64()`: the output of `Uint64` read as a signed word. -/
def int64 (r : Xor128Rand) : Int × Xor128Rand := ((uint64 r).1.toInt, (uint64 r).2)

end Xor128Rand

/-- The number of bytes of the varint of `n`. -/
def uvarintLen (n : Nat) : Nat := if n < 128 then 1 else uvarintLen (n / 128) + 1

/-- `binary.MaxVarintLen64`: the length of the longest varint of a 64-bit word. -/
def MaxVarintLen64 : Nat := 10

/-- `binary.PutUvarint(p[off:], x)`: seven bits of `x` a byte, lowest first, the high bit set on
every byte but the last. It returns the slice and the number of bytes written. -/
def putUvarint (p : List (BitVec 8)) (off : Nat) (x : BitVec 64) :
    Option (List (BitVec 8) × Nat) :=
  loop MaxVarintLen64 p 0 x
where
  /-- `for x >= 0x80 { buf[i] = byte(x) | 0x80; x >>= 7; i++ }`, then `buf[i] = byte(x)`. The
  loop runs at most `MaxVarintLen64 - 1` times on a 64-bit word, so `fuel` never runs out
  (`loop_eq_none_iff`). -/
  loop : Nat → List (BitVec 8) → Nat → BitVec 64 → Option (List (BitVec 8) × Nat)
    | 0, _, _, _ => none
    | fuel + 1, p, i, x =>
      if 0x80 ≤ x then
        if off + i < p.length then
          loop fuel (p.set (off + i) (x.setWidth 8 ||| 0x80)) (i + 1) (x >>> 7)
        else none
      else if off + i < p.length then some (p.set (off + i) (x.setWidth 8), i + 1) else none

/-! ### Varints -/

theorem uvarintLen_pos (n : Nat) : 1 ≤ uvarintLen n := by
  rw [uvarintLen]
  split_ifs <;> omega

theorem uvarintLen_of_lt {n : Nat} (h : n < 128) : uvarintLen n = 1 := by
  rw [uvarintLen, if_pos h]

theorem uvarintLen_of_le {n : Nat} (h : 128 ≤ n) : uvarintLen n = uvarintLen (n / 128) + 1 := by
  rw [uvarintLen, if_neg (by omega)]

/-- A number below `128 ^ (k + 1)` has a varint of at most `k + 1` bytes. -/
theorem uvarintLen_le (k : Nat) {n : Nat} (h : n < 128 ^ (k + 1)) : uvarintLen n ≤ k + 1 := by
  induction k generalizing n with
  | zero => rw [uvarintLen_of_lt (by simpa using h)]
  | succ k ih =>
    by_cases hn : n < 128
    · rw [uvarintLen_of_lt hn]
      omega
    · rw [uvarintLen_of_le (by omega)]
      have : n / 128 < 128 ^ (k + 1) := by
        rw [Nat.div_lt_iff_lt_mul (by decide), ← Nat.pow_succ]
        exact h
      have := ih this
      omega

/-- A number from `128 ^ k` on has a varint of more than `k` bytes. -/
theorem le_uvarintLen (k : Nat) {n : Nat} (h : 128 ^ k ≤ n) : k + 1 ≤ uvarintLen n := by
  induction k generalizing n with
  | zero => exact uvarintLen_pos n
  | succ k ih =>
    rw [uvarintLen_of_le (le_trans (Nat.le_self_pow (by omega) 128) h)]
    have : 128 ^ k ≤ n / 128 := by
      rw [Nat.le_div_iff_mul_le (by decide), ← Nat.pow_succ]
      exact h
    have := ih this
    omega

theorem uvarintLen_toNat_le (x : BitVec 64) : uvarintLen x.toNat ≤ MaxVarintLen64 :=
  uvarintLen_le 9 (lt_of_lt_of_le x.isLt (by decide))

theorem le_iff_toNat (x : BitVec 64) : (0x80 : BitVec 64) ≤ x ↔ 128 ≤ x.toNat := BitVec.le_def

theorem toNat_ushiftRight_seven (x : BitVec 64) : (x >>> 7).toNat = x.toNat / 128 := by
  rw [BitVec.toNat_ushiftRight, Nat.shiftRight_eq_div_pow]

section Loop

variable (off : Nat)

/-- With enough fuel, the loop panics exactly when the varint runs past the end of the slice. -/
theorem loop_eq_none_iff {fuel : Nat} (p : List (BitVec 8)) (i : Nat) {x : BitVec 64}
    (hfuel : uvarintLen x.toNat ≤ fuel) :
  putUvarint.loop off fuel p i x = none ↔ p.length < off + i + uvarintLen x.toNat
  := by
  induction fuel generalizing p i x with
  | zero => exact absurd hfuel (by have := uvarintLen_pos x.toNat; omega)
  | succ fuel ih =>
    rw [putUvarint.loop]
    by_cases hx : 128 ≤ x.toNat
    · rw [uvarintLen_of_le hx] at hfuel ⊢
      rw [if_pos ((le_iff_toNat x).mpr hx)]
      split_ifs with hi
      · rw [ih _ _ (by rw [toNat_ushiftRight_seven]; omega), List.length_set,
          toNat_ushiftRight_seven]
        omega
      · simp only [true_iff]
        omega
    · rw [uvarintLen_of_lt (by omega), if_neg (by rw [le_iff_toNat]; exact hx)]
      split_ifs <;> simp <;> omega

/-- The loop writes the `uvarintLen x` bytes from `off + i` and no other. -/
theorem loop_frame {fuel : Nat} {p p' : List (BitVec 8)} {i n : Nat} {x : BitVec 64}
    (h : putUvarint.loop off fuel p i x = some (p', n)) :
  p'.length = p.length ∧
    ∀ j, j < off + i ∨ off + i + uvarintLen x.toNat ≤ j → p'[j]? = p[j]?
  := by
  induction fuel generalizing p i x with
  | zero => cases h
  | succ fuel ih =>
    rw [putUvarint.loop] at h
    by_cases hx : 128 ≤ x.toNat
    · rw [if_pos ((le_iff_toNat x).mpr hx)] at h
      split_ifs at h
      obtain ⟨hlen, hframe⟩ := ih h
      refine ⟨hlen.trans (List.length_set _ _ _), fun j hj => ?_⟩
      rw [uvarintLen_of_le hx, ← toNat_ushiftRight_seven] at hj
      rw [hframe j (by omega), List.getElem?_set_ne (by omega)]
    · rw [if_neg (by rw [le_iff_toNat]; exact hx)] at h
      split_ifs at h
      cases h
      refine ⟨List.length_set _ _ _, fun j hj => ?_⟩
      rw [uvarintLen_of_lt (by omega)] at hj
      exact List.getElem?_set_ne (by omega)

end Loop

/-- `PutUvarint` panics exactly when the varint runs past the end of the slice. -/
theorem putUvarint_eq_none_iff (p : List (BitVec 8)) (off : Nat) (x : BitVec 64) :
  putUvarint p off x = none ↔ p.length < off + uvarintLen x.toNat
  := loop_eq_none_iff off p 0 (uvarintLen_toNat_le x)

theorem putUvarint_frame {p p' : List (BitVec 8)} {off n : Nat} {x : BitVec 64}
    (h : putUvarint p off x = some (p', n)) :
  p'.length = p.length ∧ ∀ j, j < off ∨ off + MaxVarintLen64 ≤ j → p'[j]? = p[j]?
  := by
  obtain ⟨hlen, hframe⟩ := loop_frame off h
  exact ⟨hlen, fun j hj => hframe j (by have := uvarintLen_toNat_le x; omega)⟩

/-! ### What `PutUvarint` writes -/

/-- The number the bytes of a varint stand for: seven bits a byte, lowest first. -/
def varintValue : List (BitVec 8) → Nat
  | [] => 0
  | b :: bs => b.toNat % 128 + 128 * varintValue bs

/-- Bytes that make one varint: the high bit set on every byte but the last. -/
def IsVarint : List (BitVec 8) → Prop
  | [] => False
  | [b] => b.toNat < 128
  | b :: c :: bs => 128 ≤ b.toNat ∧ IsVarint (c :: bs)

theorem lor_two_pow_seven {a : Nat} (ha : a < 2 ^ 8) : a ||| 2 ^ 7 = 2 ^ 7 + a % 2 ^ 7 := by
  apply Nat.eq_of_testBit_eq
  intro i
  rw [Nat.testBit_or]
  rcases Nat.lt_trichotomy i 7 with h | rfl | h
  · rw [Nat.testBit_two_pow_add_gt h, Nat.testBit_mod_two_pow,
      Nat.testBit_two_pow_of_ne (by omega)]
    simp [h]
  · rw [Nat.testBit_two_pow_add_eq, Nat.testBit_mod_two_pow, Nat.testBit_two_pow_self]
    simp
  · have h8 : 2 ^ 8 ≤ 2 ^ i := Nat.pow_le_pow_right (by decide) h
    rw [Nat.testBit_lt_two_pow (by omega), Nat.testBit_two_pow_of_ne (by omega),
      Nat.testBit_lt_two_pow (by have := Nat.mod_lt a (show 0 < 2 ^ 7 by decide); omega)]
    rfl

/-- The byte `byte(x) | 0x80` carries the low seven bits of `x` under the high bit. -/
theorem toNat_byte_or (x : BitVec 64) : (x.setWidth 8 ||| 0x80).toNat = 128 + x.toNat % 128 := by
  rw [BitVec.toNat_or, BitVec.toNat_setWidth, show (0x80 : BitVec 8).toNat = 2 ^ 7 from rfl,
    lor_two_pow_seven (Nat.mod_lt _ (by decide)), Nat.mod_mod_of_dvd _ (by decide)]
  rfl

theorem take_drop_of_getElem? {l : List (BitVec 8)} {k m : Nat} {b : BitVec 8}
    (h : l[k]? = some b) :
  (l.drop k).take (m + 1) = b :: (l.drop (k + 1)).take m
  := by
  obtain ⟨hk, rfl⟩ := List.getElem?_eq_some_iff.mp h
  rw [List.drop_eq_getElem_cons hk, List.take_succ_cons]

/-- A byte with its high bit set, in front of a varint, makes a varint. -/
theorem IsVarint.cons {b : BitVec 8} {w : List (BitVec 8)} (hb : 128 ≤ b.toNat)
    (hw : IsVarint w) :
  IsVarint (b :: w)
  := by
  cases w with
  | nil => exact hw.elim
  | cons c w => exact ⟨hb, hw⟩

section Loop

variable (off : Nat)

/-- The loop writes from `off + i` the varint of `x`, one byte a pass. -/
theorem loop_varint {fuel : Nat} {p p' : List (BitVec 8)} {i n : Nat} {x : BitVec 64}
    (h : putUvarint.loop off fuel p i x = some (p', n)) :
  n = i + uvarintLen x.toNat ∧ IsVarint ((p'.drop (off + i)).take (uvarintLen x.toNat)) ∧
    varintValue ((p'.drop (off + i)).take (uvarintLen x.toNat)) = x.toNat
  := by
  induction fuel generalizing p i x with
  | zero => cases h
  | succ fuel ih =>
    rw [putUvarint.loop] at h
    by_cases hx : 128 ≤ x.toNat
    · -- a byte `byte(x) | 0x80`, then the varint of `x >> 7`
      rw [if_pos ((le_iff_toNat x).mpr hx)] at h
      split_ifs at h with hi
      obtain ⟨hn, hvar, hval⟩ := ih h
      have hbyte : p'[off + i]? = some (x.setWidth 8 ||| 0x80) := by
        rw [(loop_frame off h).2 (off + i) (.inl (by omega)), List.getElem?_set_self hi]
      have hb := toNat_byte_or x
      rw [toNat_ushiftRight_seven] at hn hvar hval
      rw [← Nat.add_assoc] at hvar hval
      rw [uvarintLen_of_le hx, take_drop_of_getElem? hbyte]
      refine ⟨by omega, IsVarint.cons (by omega) hvar, ?_⟩
      rw [varintValue, hval, hb]
      omega
    · -- the last byte `byte(x)`
      rw [if_neg (by rw [le_iff_toNat]; exact hx)] at h
      split_ifs at h with hi
      cases h
      have hbyte : (p.set (off + i) (x.setWidth 8))[off + i]? = some (x.setWidth 8) :=
        List.getElem?_set_self hi
      have hb : (x.setWidth 8).toNat = x.toNat := by
        rw [BitVec.toNat_setWidth]
        omega
      rw [uvarintLen_of_lt (by omega), take_drop_of_getElem? hbyte, List.take_zero]
      exact ⟨rfl, by show (x.setWidth 8).toNat < 128; omega,
        by show (x.setWidth 8).toNat % 128 + 128 * 0 = x.toNat; omega⟩

end Loop

/-- `PutUvarint` writes from `off` the varint of `x`, and returns its length. -/
theorem putUvarint_varint {p p' : List (BitVec 8)} {off n : Nat} {x : BitVec 64}
    (h : putUvarint p off x = some (p', n)) :
  n = uvarintLen x.toNat ∧ IsVarint ((p'.drop off).take n) ∧
    varintValue ((p'.drop off).take n) = x.toNat
  := by
  obtain ⟨hn, hvar, hval⟩ := loop_varint off h
  rw [Nat.add_zero] at hvar hval
  rw [Nat.zero_add] at hn
  subst hn
  exact ⟨rfl, hvar, hval⟩

namespace Xor128Rand

/-- The offsets `Read` writes at: `for i := 0; i < l; i += 8`. -/
def offsets (l : Nat) : List Nat := List.range' 0 ((l + 7) / 8) 8

/-- One pass of the loop of `Read`: `binary.PutUvarint(p[i:], r.Uint64())`. -/
def readStep (acc : List (BitVec 8) × Xor128Rand) (i : Nat) :
    Option (List (BitVec 8) × Xor128Rand) :=
  (putUvarint acc.1 i (uint64 acc.2).1).map fun res => (res.1, (uint64 acc.2).2)

/-- `Read(p)`: the count it returns, with a `nil` error, the slice and the state after it. -/
def read (r : Xor128Rand) (p : List (BitVec 8)) : Option (Nat × List (BitVec 8) × Xor128Rand) :=
  ((offsets (p.length / 8)).foldlM readStep (p, r)).map fun res => (p.length, res)

theorem mem_offsets {l i : Nat} : i ∈ offsets l ↔ i < l ∧ i % 8 = 0 := by
  simp only [offsets, List.mem_range'_1, List.mem_range']
  constructor
  · rintro ⟨k, hk, rfl⟩
    omega
  · rintro ⟨hi, h8⟩
    exact ⟨i / 8, by omega, by omega⟩

/-- A pass writes only the ten bytes from its offset. -/
theorem readStep_frame {acc acc' : List (BitVec 8) × Xor128Rand} {i : Nat}
    (h : readStep acc i = some acc') :
  acc'.1.length = acc.1.length ∧ ∀ j, j < i ∨ i + MaxVarintLen64 ≤ j → acc'.1[j]? = acc.1[j]?
  := by
  obtain ⟨⟨p', n⟩, hput, rfl⟩ := Option.map_eq_some'.mp h
  exact putUvarint_frame hput

/-- Over the passes at offsets below `l`, no byte from `l + 9` on is written. -/
theorem foldlM_readStep_frame {l : Nat} (is : List Nat) (hl : ∀ i ∈ is, i < l)
    {acc acc' : List (BitVec 8) × Xor128Rand} (h : is.foldlM readStep acc = some acc') :
  acc'.1.length = acc.1.length ∧ ∀ j, l + 9 ≤ j → acc'.1[j]? = acc.1[j]?
  := by
  induction is generalizing acc with
  | nil => cases h; exact ⟨rfl, fun _ _ => rfl⟩
  | cons i is ih =>
    obtain ⟨acc₁, h₁, h⟩ := Option.bind_eq_some.mp h
    obtain ⟨hlen₁, hframe₁⟩ := readStep_frame h₁
    obtain ⟨hlen, hframe⟩ := ih (fun k hk => hl k (List.mem_cons_of_mem i hk)) h
    have hi := hl i (List.mem_cons_self i is)
    exact ⟨hlen.trans hlen₁, fun j hj =>
      (hframe j hj).trans (hframe₁ j (Or.inr (by unfold MaxVarintLen64; omega)))⟩

/-- No pass panics when each offset has ten bytes after it. -/
theorem foldlM_readStep_isSome (is : List Nat) (acc : List (BitVec 8) × Xor128Rand)
    (hl : ∀ i ∈ is, i + MaxVarintLen64 ≤ acc.1.length) :
  ∃ acc', is.foldlM readStep acc = some acc' ∧ acc'.1.length = acc.1.length
  := by
  induction is generalizing acc with
  | nil => exact ⟨acc, rfl, rfl⟩
  | cons i is ih =>
    have hroom := hl i (List.mem_cons_self i is)
    obtain ⟨⟨p₁, n⟩, hput⟩ := Option.ne_none_iff_exists'.mp
      (mt (putUvarint_eq_none_iff acc.1 i (uint64 acc.2).1).mp
        (by have := uvarintLen_toNat_le (uint64 acc.2).1; omega))
    have h₁ : readStep acc i = some (p₁, (uint64 acc.2).2) := by rw [readStep, hput]; rfl
    have hlen₁ := (readStep_frame h₁).1
    obtain ⟨acc', h, hlen⟩ := ih (p₁, (uint64 acc.2).2)
      (fun k hk => hlen₁ ▸ hl k (List.mem_cons_of_mem i hk))
    exact ⟨acc', by rw [List.foldlM_cons, h₁]; exact h, hlen.trans hlen₁⟩

/-- A slice of fewer than 8 bytes is returned as it was, and the generator is not stepped. -/
theorem read_short (r : Xor128Rand) {p : List (BitVec 8)} (hp : p.length < 8) :
  read r p = some (p.length, p, r)
  := by
  have hl : (p.length / 8 + 7) / 8 = 0 := by omega
  simp only [read, offsets, hl, List.range'_zero, List.foldlM_nil]
  rfl

/-- `Read` returns `len(p)` and a slice of that length, and writes no byte from
`len(p) / 8 + 9` on. -/
theorem read_frame {r r' : Xor128Rand} {p p' : List (BitVec 8)} {n : Nat}
    (h : read r p = some (n, p', r')) :
  n = p.length ∧ p'.length = p.length ∧ ∀ j, p.length / 8 + 9 ≤ j → p'[j]? = p[j]?
  := by
  obtain ⟨acc', hfold, hres⟩ := Option.map_eq_some'.mp h
  cases hres
  exact ⟨rfl, foldlM_readStep_frame _ (fun _ hi => (mem_offsets.mp hi).1) hfold⟩

/-- From 11 bytes on, `Read` never panics. -/
theorem read_isSome (r : Xor128Rand) {p : List (BitVec 8)} (hp : 11 ≤ p.length) :
  ∃ p' r', read r p = some (p.length, p', r')
  := by
  obtain ⟨⟨p', r'⟩, hfold, -⟩ := foldlM_readStep_isSome (offsets (p.length / 8)) (p, r)
    (fun i hi => by have := (mem_offsets.mp hi).1; unfold MaxVarintLen64; simp only; omega)
  exact ⟨p', r', by rw [read, hfold]; rfl⟩

/-- On 8 to 71 bytes the loop of `Read` makes one pass, at offset `0`. -/
theorem read_one_pass (r : Xor128Rand) {p : List (BitVec 8)} (h₈ : 8 ≤ p.length)
    (h₇₂ : p.length < 72) :
  read r p = (putUvarint p 0 (uint64 r).1).map fun res => (p.length, res.1, (uint64 r).2)
  := by
  have hoff : offsets (p.length / 8) = [0] := by
    rw [offsets, show (p.length / 8 + 7) / 8 = 1 by omega]
    rfl
  rw [read, hoff]
  simp only [List.foldlM_cons, List.foldlM_nil, readStep]
  cases putUvarint p 0 (uint64 r).1 <;> rfl

/-- On 8 to 71 bytes, `Read` panics exactly when the varint of the generator's first output is
longer than the slice, which only a slice of 8 to 10 bytes can be; otherwise it steps the
generator once, writes that varint at offset `0`, and nothing after it. -/
theorem read_one_varint (r : Xor128Rand) {p : List (BitVec 8)} (h₈ : 8 ≤ p.length)
    (h₇₂ : p.length < 72) :
  (read r p = none ↔ p.length < uvarintLen (uint64 r).1.toNat) ∧
    (uvarintLen (uint64 r).1.toNat ≤ p.length →
      ∃ p', read r p = some (p.length, p', (uint64 r).2) ∧
        IsVarint (p'.take (uvarintLen (uint64 r).1.toNat)) ∧
        varintValue (p'.take (uvarintLen (uint64 r).1.toNat)) = (uint64 r).1.toNat ∧
        ∀ j, uvarintLen (uint64 r).1.toNat ≤ j → p'[j]? = p[j]?)
  := by
  have hput := putUvarint_eq_none_iff p 0 (uint64 r).1
  rw [Nat.zero_add] at hput
  rw [read_one_pass r h₈ h₇₂, Option.map_eq_none', hput]
  refine ⟨Iff.rfl, fun hfit => ?_⟩
  obtain ⟨⟨p', n⟩, hsome⟩ :=
    Option.ne_none_iff_exists'.mp (mt hput.mp (Nat.not_lt.mpr hfit))
  obtain ⟨rfl, hvar, hval⟩ := putUvarint_varint hsome
  exact ⟨p', by rw [hsome]; rfl, by simpa using hvar, by simpa using hval,
    fun j hj => (loop_frame 0 hsome).2 j (.inr (by omega))⟩

/-- `Read` on 8 bytes from the state `[0, 1]`, whose first output has a varint that fits. -/
theorem read_one_varint_two :
  8 ≤ (List.replicate 8 (0 : BitVec 8)).length ∧
    (List.replicate 8 (0 : BitVec 8)).length < 72 ∧
    (read ⟨0, 1⟩ (List.replicate 8 0) = none ↔
      (List.replicate 8 (0 : BitVec 8)).length < uvarintLen (uint64 ⟨0, 1⟩).1.toNat) ∧
    (uvarintLen (uint64 ⟨0, 1⟩).1.toNat ≤ (List.replicate 8 (0 : BitVec 8)).length →
      ∃ p', read ⟨0, 1⟩ (List.replicate 8 0) =
          some ((List.replicate 8 (0 : BitVec 8)).length, p', (uint64 ⟨0, 1⟩).2) ∧
        IsVarint (p'.take (uvarintLen (uint64 ⟨0, 1⟩).1.toNat)) ∧
        varintValue (p'.take (uvarintLen (uint64 ⟨0, 1⟩).1.toNat)) =
          (uint64 ⟨0, 1⟩).1.toNat ∧
        ∀ j, uvarintLen (uint64 ⟨0, 1⟩).1.toNat ≤ j →
          p'[j]? = (List.replicate 8 (0 : BitVec 8))[j]?)
  := ⟨by decide, by decide, read_one_varint ⟨0, 1⟩ (by decide) (by decide)⟩

/-- `Read` on 7 bytes writes none of them; on 8 bytes from the state `[0, 2^60]`, whose first
output `2^61 + 2^34` has a varint of more than 8 bytes, it panics. -/
theorem read_unfilled_or_panics :
  (∀ r : Xor128Rand, read r (List.replicate 7 0) = some (7, List.replicate 7 0, r)) ∧
    (uint64 ⟨0, 1 <<< 60⟩).1.toNat = 2 ^ 61 + 2 ^ 34 ∧
    8 < uvarintLen (2 ^ 61 + 2 ^ 34) ∧
    read ⟨0, 1 <<< 60⟩ (List.replicate 8 0) = none
  := ⟨fun r => read_short r (by decide), by decide, @le_uvarintLen 8 (2 ^ 61 + 2 ^ 34) (by decide),
    by decide⟩

end Xor128Rand

end Rand

end AerospikeClient

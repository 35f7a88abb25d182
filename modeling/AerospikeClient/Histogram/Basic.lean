import Mathlib

/-!
# Histograms

`Histogram[T]` counts values of a numeric type `T` in buckets, linear (`[k·base, (k+1)·base)`)
or exponential (`[base^k, base^(k+1))`), and keeps their least and greatest value and their
number. The model covers the integer types: a value is an `Int` in the range of `T`, and the
conversions and arithmetic of `T` wrap modulo `2^bits` (`IntType.conv`). Go's `int` and `uint`
have 64 bits; a `uint` is a `BitVec 64`.

The linear slot of a value goes through a double: `int(math.Floor(float64(v / base)))`. The
integer quotient is rounded to the nearest double (`toFloat64`), which is an integer, so
`math.Floor` leaves it; the conversion back to `int` is exact in the range of `int` and, by the
Go specification, implementation-dependent outside it, which the model takes as an argument
(`Platform.intOfFloat`), as it does the slot and the bucket bound of the exponential histogram,
computed with `math.Log` and `math.Pow`. Below `2^53` the round trip is exact
(`floorSlot_of_lt`). An index out of range, a division by zero, or a `make` of a negative
length or of more than `maxAlloc` bytes, on which Go panics, makes a function return `none`; a
`make` the runtime cannot back with memory, a fatal error rather than a panic, is left out, as is
`Sum`, a `float64` no modelled function reads.
-/

namespace AerospikeClient

/-- A Go integer type, by its width and signedness. -/
structure IntType where
  bits : Nat
  signed : Bool
  bits_pos : 0 < bits
deriving DecidableEq

namespace IntType

/-- `2 ^ (bits - 1)`, half the number of values of the type. -/
def half (T : IntType) : Nat := 2 ^ (T.bits - 1)

/-- The least value of the type. -/
def min (T : IntType) : Int := if T.signed then -(T.half : Int) else 0

/-- The greatest value of the type. -/
def max (T : IntType) : Int := if T.signed then (T.half : Int) - 1 else 2 * (T.half : Int) - 1

/-- `T(x)`: the value of the type congruent to `x` modulo `2 ^ bits`, which is `2 * half`. -/
def conv (T : IntType) (x : Int) : Int :=
  if T.signed then (x + T.half) % (2 * T.half) - T.half else x % (2 * T.half)

/-- A value of the type. -/
def InRange (T : IntType) (x : Int) : Prop := T.min ≤ x ∧ x ≤ T.max

instance (T : IntType) (x : Int) : Decidable (T.InRange x) := inferInstanceAs (Decidable (_ ∧ _))

/-- Go's `int64`. -/
def int64 : IntType := ⟨64, true, by decide⟩

theorem half_pos (T : IntType) : 0 < T.half := Nat.pos_pow_of_pos _ (by decide)

theorem min_le_zero (T : IntType) : T.min ≤ 0 := by
  unfold IntType.min
  split_ifs <;> omega

theorem conv_eq_self (T : IntType) {x : Int} (h : T.InRange x) : T.conv x = x := by
  obtain ⟨h₁, h₂⟩ := h
  unfold IntType.min IntType.max at *
  unfold IntType.conv
  split_ifs at * with hs
  · rw [Int.emod_eq_of_lt (by omega) (by omega)]
    omega
  · exact Int.emod_eq_of_lt h₁ (by omega)

/-- The quotient of a value by a positive divisor is a value. -/
theorem InRange.tdiv {T : IntType} {v : Int} (hv : T.InRange v) {base : Int}
    (hbase : 0 < base) :
  T.InRange (v.tdiv base)
  := by
  obtain ⟨h₁, h₂⟩ := hv
  have hmin := T.min_le_zero
  have hmax : 0 ≤ T.max := by
    have := T.half_pos
    unfold IntType.max; split_ifs <;> omega
  by_cases hv : 0 ≤ v
  · rw [Int.tdiv_eq_ediv hv (Int.le_of_lt hbase)]
    exact ⟨Int.le_trans hmin (Int.ediv_nonneg hv (Int.le_of_lt hbase)),
      Int.le_trans (Int.ediv_le_self _ hv) h₂⟩
  · have hq := Int.ediv_le_self base (show 0 ≤ -v by omega)
    have hq₀ := Int.ediv_nonneg (show 0 ≤ -v by omega) (Int.le_of_lt hbase)
    rw [← Int.neg_neg v, Int.neg_tdiv, Int.tdiv_eq_ediv (by omega) (Int.le_of_lt hbase)]
    constructor <;> omega

end IntType

/-- `HistType`. -/
inductive HistType where
  | Linear
  | Exponential
deriving DecidableEq, Repr

/-- What the model takes as given: `int(d)` for a double `d` out of the range of `int`, the
exponential slot `int(math.Floor(math.Log(float64(v)) / math.Log(float64(base))))` of `v`, and
the exponential bound `T(math.Pow(float64(base), float64(i)))`. -/
structure Platform where
  intOfFloat : Int → Int
  expSlot : Int → Int → Int
  expBound : Int → Nat → Int

/-- `Histogram[T]`, with `Sum` left out. -/
structure Histogram where
  htype : HistType
  base : Int
  Buckets : List (BitVec 64)
  Min : Int
  Max : Int
  Count : BitVec 64
deriving DecidableEq, Repr

namespace Histogram

/-- The runtime's `maxAlloc` on 64-bit Linux: `make` panics on a slice of more than `2^48`
bytes. -/
def maxAlloc : Int := 2 ^ 48

/-- `NewLinear(base, buckets)`; `make([]uint, buckets)` panics on a negative length and on more
than `maxAlloc` bytes of 8-byte `uint`s. -/
def newLinear (base buckets : Int) : Option Histogram :=
  if buckets < 0 ∨ maxAlloc < 8 * buckets then none
  else some ⟨.Linear, base, List.replicate buckets.toNat 0, 0, 0, 0⟩

/-- `NewExponential(base, buckets)`, with the same `make`. -/
def newExponential (base buckets : Int) : Option Histogram :=
  if buckets < 0 ∨ maxAlloc < 8 * buckets then none
  else some ⟨.Exponential, base, List.replicate buckets.toNat 0, 0, 0, 0⟩

/-- `Reset()`. -/
def reset (h : Histogram) : Histogram :=
  { h with Buckets := h.Buckets.map fun _ => 0, Min := 0, Max := 0, Count := 0 }

/-- The double nearest to `n`, ties to even: `n` itself below `2 ^ 53`, and otherwise `n` rounded
to its 53 leading bits. -/
def roundFloat64 (n : Nat) : Nat :=
  if n < 2 ^ 53 then n
  else
    let e := Nat.log2 n - 52
    let m := n / 2 ^ e
    let r := n % 2 ^ e
    (if 2 * r > 2 ^ e ∨ (2 * r = 2 ^ e ∧ m % 2 = 1) then m + 1 else m) * 2 ^ e

/-- `float64(q)` for an integer `q`, as the integer that double is. -/
def toFloat64 (q : Int) : Int :=
  if q < 0 then -(roundFloat64 q.natAbs : Int) else (roundFloat64 q.natAbs : Int)

section Slot

variable (P : Platform) (T : IntType)

/-- `int(math.Floor(float64(q)))` for an integer `q`. -/
def floorSlot (q : Int) : Int :=
  let d := toFloat64 q
  if -2 ^ 63 ≤ d ∧ d < 2 ^ 63 then d else P.intOfFloat d

/-- The slot `Add` computes for `v`; `none` for a division by zero. -/
def slot (h : Histogram) (v : Int) : Option Int :=
  match h.htype with
  | .Linear => if h.base = 0 then none else some (floorSlot P (T.conv (v.tdiv h.base)))
  | .Exponential => some (P.expSlot v h.base)

/-- `h.Buckets[k]++`; `none` when `k` is out of range. -/
def incr (h : Histogram) (k : Nat) : Option Histogram :=
  if k < h.Buckets.length then some { h with Buckets := h.Buckets.modify (· + 1) k } else none

/-- The bucket slot `s` falls in among `n` buckets: the last for a slot past it, the first for a
negative one. -/
def clampSlot (n : Nat) (s : Int) : Nat := if s ≥ n then n - 1 else if s < 0 then 0 else s.toNat

/-- The bucket of slot `s`; `none` for an empty `Buckets`, where indexing panics. -/
def bucketOf (h : Histogram) (s : Int) : Option Nat :=
  if h.Buckets.length = 0 then none else some (clampSlot h.Buckets.length s)

/-- `Add(v)`. -/
def add (h : Histogram) (v : Int) : Option Histogram :=
  let h := if h.Count = 0 then { h with Max := v, Min := v }
    else if v > h.Max then { h with Max := v }
    else if v < h.Min then { h with Min := v }
    else h
  let h := { h with Count := h.Count + 1 }
  (slot P T h v).bind fun s => (bucketOf h s).bind (incr h)

/-- The upper bound of bucket `i`: `T(i+1) * h.base`, or the exponential bound. -/
def bound (h : Histogram) (i : Nat) : Int :=
  match h.htype with
  | .Linear => T.conv (T.conv (i + 1) * h.base)
  | .Exponential => P.expBound h.base (i + 1)

/-- The loop of `Median` over the buckets from `i`, with the running sum `s`. -/
def medianLoop (h : Histogram) (c : BitVec 64) : BitVec 64 → Nat → List (BitVec 64) → Int
  | _, _, [] => h.Max
  | s, i, bv :: rest =>
    if c ≤ s + bv then bound P T h i else medianLoop h c (s + bv) (i + 1) rest

/-- `Median()`. -/
def median (h : Histogram) : Int := medianLoop P T h (h.Count / 2) 0 0 h.Buckets

end Slot

/-! ### The linear slot -/

theorem clampSlot_lt {n : Nat} (hn : 0 < n) (s : Int) : clampSlot n s < n := by
  unfold clampSlot
  split_ifs <;> omega

theorem clampSlot_of_lt {n : Nat} {s : Int} (h₀ : 0 ≤ s) (h : s < n) : clampSlot n s = s.toNat := by
  unfold clampSlot
  split_ifs <;> omega

theorem roundFloat64_of_lt {n : Nat} (h : n < 2 ^ 53) : roundFloat64 n = n := by
  rw [roundFloat64, if_pos h]

/-- An integer below `2 ^ 53` in absolute value is a double. -/
theorem toFloat64_of_lt {q : Int} (h : q.natAbs < 2 ^ 53) : toFloat64 q = q := by
  unfold toFloat64
  rw [roundFloat64_of_lt h]
  split_ifs <;> omega

/-- Below `2 ^ 53` the round trip through a double gives the quotient back. -/
theorem floorSlot_of_lt (P : Platform) {q : Int} (h : q.natAbs < 2 ^ 53) : floorSlot P q = q := by
  unfold floorSlot
  rw [toFloat64_of_lt h, if_pos (by omega)]

/-! ### Adding to a linear histogram -/

section Adding

variable (P : Platform) (T : IntType)

/-- `Add` on a linear histogram with a divisor and a bucket: the least and greatest values as the
comparisons leave them, one more value, and one more in the bucket of its slot. -/
theorem add_linear {h : Histogram} (hl : h.htype = .Linear) (hbase : h.base ≠ 0)
    (hb : h.Buckets.length ≠ 0) (v : Int) :
  add P T h v = some { h with
    Min := if h.Count = 0 then v else if v > h.Max then h.Min else if v < h.Min then v else h.Min,
    Max := if h.Count = 0 then v else if v > h.Max then v else h.Max,
    Count := h.Count + 1,
    Buckets := h.Buckets.modify (· + 1)
      (clampSlot h.Buckets.length (floorSlot P (T.conv (v.tdiv h.base)))) }
  := by
  have hlt := clampSlot_lt (Nat.pos_of_ne_zero hb) (floorSlot P (T.conv (v.tdiv h.base)))
  unfold add slot bucketOf incr
  split_ifs <;> simp_all

/-- `Add` on an exponential histogram with a bucket, whatever its base: as on a linear one, with
the exponential slot. -/
theorem add_exponential {h : Histogram} (he : h.htype = .Exponential) (hb : h.Buckets.length ≠ 0)
    (v : Int) :
  add P T h v = some { h with
    Min := if h.Count = 0 then v else if v > h.Max then h.Min else if v < h.Min then v else h.Min,
    Max := if h.Count = 0 then v else if v > h.Max then v else h.Max,
    Count := h.Count + 1,
    Buckets := h.Buckets.modify (· + 1) (clampSlot h.Buckets.length (P.expSlot v h.base)) }
  := by
  have hlt := clampSlot_lt (Nat.pos_of_ne_zero hb) (P.expSlot v h.base)
  unfold add slot bucketOf incr
  split_ifs <;> simp_all

end Adding

/-- A call on a histogram. -/
inductive Op where
  | add (v : Int)
  | reset
deriving DecidableEq, Repr

/-- One call; `none` where `Add` panics. -/
def step (P : Platform) (T : IntType) (h : Histogram) : Op → Option Histogram
  | .add v => add P T h v
  | .reset => some (reset h)

/-- A sequence of calls. -/
def run (P : Platform) (T : IntType) (h : Histogram) : List Op → Option Histogram
  | [] => some h
  | op :: ops => (step P T h op).bind fun h => run P T h ops

end Histogram

end AerospikeClient

import AerospikeClient.Histogram.Basic

/-!
# What a histogram holds

Over any sequence of `Add` and `Reset` on `NewLinear(base, b)`, with `base > 0`, `b ≥ 1` and
`8 · b ≤ maxAlloc`, so that `make` does not panic, no call panics, and the histogram holds the
values added since the last `Reset` (`Holds`): `Count` is their number and `Buckets[k]` the number
of those whose slot falls in bucket `k`, both as 64-bit `uint`s, so the buckets add up to `Count`;
`Min` and `Max` are the least and greatest of the values added since the last `Add` that found
`Count` at `0`. That is the last `Reset` until `2^64` values have been added; the `Add` after that
resets them (`run_newLinear`).

The bookkeeping does not depend on how the slot is computed (`Tally`, `run_of_add_reset`): on
`NewExponential(base, b)` with `b ≥ 1` and `8 · b ≤ maxAlloc` it is the same, with the
exponential slot, and since that slot divides by nothing, no call panics whatever the base
(`run_newExponential`).
-/
namespace AerospikeClient

namespace Histogram

/-- The values added since the last `Reset`, in order, starting from the values `vals`. -/
def addValues (vals : List Int) : List Op → List Int
  | [] => vals
  | .add v :: ops => addValues (vals ++ [v]) ops
  | .reset :: ops => addValues [] ops

/-- The values added since the last `Reset`. -/
def sinceReset (ops : List Op) : List Int := addValues [] ops

/-- The values added since the last `Add` that found `Count`, their number modulo `2^64`, at
`0`. -/
def recent (vals : List Int) : List Int := vals.drop (2 ^ 64 * ((vals.length - 1) / 2 ^ 64))

theorem recent_append_of_dvd {vals : List Int} (h : vals.length % 2 ^ 64 = 0) (v : Int) :
  recent (vals ++ [v]) = [v]
  := by
  apply List.drop_left'
  rw [List.length_append, List.length_singleton, Nat.add_sub_cancel]
  omega

theorem recent_append_of_not_dvd {vals : List Int} (h : vals.length % 2 ^ 64 ≠ 0) (v : Int) :
  recent (vals ++ [v]) = recent vals ++ [v]
  := by
  unfold recent
  rw [List.length_append, List.length_singleton, Nat.add_sub_cancel,
    List.drop_append_of_le_length (by omega)]
  congr 2
  omega

/-- The least value of a list, as a member below all the others. -/
def IsLeast (m : Int) (l : List Int) : Prop := m ∈ l ∧ ∀ x ∈ l, m ≤ x

/-- The greatest value of a list, as a member above all the others. -/
def IsGreatest (m : Int) (l : List Int) : Prop := m ∈ l ∧ ∀ x ∈ l, x ≤ m

theorem IsLeast.append {m : Int} {l : List Int} (h : IsLeast m l) {v : Int} (hv : m ≤ v) :
  IsLeast m (l ++ [v])
  := ⟨List.mem_append_left _ h.1, fun x hx => by
    rcases List.mem_append.mp hx with hx | hx
    · exact h.2 x hx
    · rw [List.mem_singleton.mp hx]; exact hv⟩

theorem IsLeast.append_of_lt {m : Int} {l : List Int} (h : IsLeast m l) {v : Int} (hv : v < m) :
  IsLeast v (l ++ [v])
  := ⟨List.mem_append_right _ (List.mem_singleton_self v), fun x hx => by
    rcases List.mem_append.mp hx with hx | hx
    · exact Int.le_of_lt (Int.lt_of_lt_of_le hv (h.2 x hx))
    · rw [List.mem_singleton.mp hx]⟩

theorem IsGreatest.append {m : Int} {l : List Int} (h : IsGreatest m l) {v : Int} (hv : v ≤ m) :
  IsGreatest m (l ++ [v])
  := ⟨List.mem_append_left _ h.1, fun x hx => by
    rcases List.mem_append.mp hx with hx | hx
    · exact h.2 x hx
    · rw [List.mem_singleton.mp hx]; exact hv⟩

theorem IsGreatest.append_of_lt {m : Int} {l : List Int} (h : IsGreatest m l) {v : Int}
    (hv : m < v) :
  IsGreatest v (l ++ [v])
  := ⟨List.mem_append_right _ (List.mem_singleton_self v), fun x hx => by
    rcases List.mem_append.mp hx with hx | hx
    · exact Int.le_of_lt (Int.lt_of_le_of_lt (h.2 x hx) hv)
    · rw [List.mem_singleton.mp hx]⟩

theorem modify_map_range {α : Type} (f : Nat → α) (g : α → α) (n j : Nat) :
  ((List.range n).map f).modify g j = (List.range n).map fun k => if j = k then g (f k) else f k
  := by
  apply List.ext_getElem (by simp)
  intro k _ _
  simp only [List.getElem_modify, List.getElem_map, List.getElem_range]

theorem sum_ite_range (j m : Nat) :
  ((List.range m).map fun k => if j = k then 1 else 0).sum = if j < m then 1 else 0
  := by
  induction m with
  | zero => simp
  | succ m ih =>
    rw [List.sum_range_succ, ih]
    by_cases hj : j = m
    · subst hj
      simp
    · by_cases hjm : j < m
      · simp [hj, hjm, show j < m + 1 by omega]
      · simp [hj, hjm, show ¬j < m + 1 by omega]

/-- The values in the first `m` buckets are those whose bucket is below `m`. -/
theorem sum_countP_lt (f : Int → Nat) (m : Nat) (vals : List Int) :
  ((List.range m).map fun k => vals.countP fun v => f v = k).sum = vals.countP fun v => f v < m
  := by
  induction vals with
  | nil => simp
  | cons v vals ih =>
    simp only [List.countP_cons, decide_eq_true_eq]
    rw [List.sum_map_add, ih, sum_ite_range]

/-- Every value is counted in exactly one of the buckets. -/
theorem sum_countP_bucket {f : Int → Nat} {b : Nat} (hf : ∀ v, f v < b) (vals : List Int) :
  ((List.range b).map fun k => vals.countP fun v => f v = k).sum = vals.length
  := by
  rw [sum_countP_lt, List.countP_eq_length]
  exact fun v _ => decide_eq_true (hf v)

theorem sum_map_ofNat (l : List Nat) : (l.map (BitVec.ofNat 64)).sum = BitVec.ofNat 64 l.sum := by
  induction l with
  | nil => rfl
  | cons a l ih => rw [List.map_cons, List.sum_cons, List.sum_cons, ih, BitVec.ofNat_add]

theorem ofNat_eq_zero_iff (n : Nat) : BitVec.ofNat 64 n = 0 ↔ n % 2 ^ 64 = 0 := by
  rw [BitVec.toNat_eq, BitVec.toNat_ofNat]
  rfl

/-! ### Counting values in buckets -/

/-- `Add(v)` once the bucket `k` of `v` is known: the least and greatest values as the
comparisons leave them, one more value, and one more in bucket `k`. -/
def counted (h : Histogram) (v : Int) (k : Nat) : Histogram :=
  { h with
    Min := if h.Count = 0 then v else if v > h.Max then h.Min else if v < h.Min then v else h.Min,
    Max := if h.Count = 0 then v else if v > h.Max then v else h.Max,
    Count := h.Count + 1,
    Buckets := h.Buckets.modify (· + 1) k }

section Tally

variable (bucket : Int → Nat) (b : Nat)

/-- A histogram of `b` buckets counting the values `vals`, each in its `bucket`: `Count` is their
number and `Buckets[k]` the number of those in bucket `k`, both modulo `2^64`; `Min` and `Max`
are the least and greatest of the values added since the last `Add` that found `Count` at `0`. -/
structure Tally (h : Histogram) (vals : List Int) : Prop where
  count_eq : h.Count = BitVec.ofNat 64 vals.length
  buckets_eq : h.Buckets = (List.range b).map fun k =>
    BitVec.ofNat 64 (vals.countP fun v => bucket v = k)
  min_least : vals ≠ [] → IsLeast h.Min (recent vals)
  max_greatest : vals ≠ [] → IsGreatest h.Max (recent vals)

variable {bucket b}

/-- Counting one more value in its bucket keeps the tally, the value added. -/
theorem Tally.add {h : Histogram} {vals : List Int} (ht : Tally bucket b h vals) (v : Int)
    {k : Nat} (hk : k = bucket v) :
  Tally bucket b (counted h v k) (vals ++ [v])
  := by
  have hzero : h.Count = 0 ↔ vals.length % 2 ^ 64 = 0 := ht.count_eq ▸ ofNat_eq_zero_iff _
  refine ⟨?_, ?_, fun _ => ?_, fun _ => ?_⟩ <;> dsimp only [counted]
  · rw [ht.count_eq, List.length_append, List.length_singleton, BitVec.ofNat_add]
    rfl
  · rw [ht.buckets_eq, modify_map_range, hk]
    congr 1
    funext k
    rw [List.countP_append, List.countP_singleton]
    split_ifs <;> simp_all [BitVec.ofNat_add]
  · by_cases h0 : vals.length % 2 ^ 64 = 0
    · rw [if_pos (hzero.mpr h0), recent_append_of_dvd h0]
      exact ⟨List.mem_singleton_self v, fun x hx => by rw [List.mem_singleton.mp hx]⟩
    · have hne : vals ≠ [] := by rintro rfl; exact h0 rfl
      have hmin := ht.min_least hne
      have hmax := ht.max_greatest hne
      rw [if_neg (mt hzero.mp h0), recent_append_of_not_dvd h0]
      split_ifs with h₁ h₂
      · exact hmin.append (Int.le_of_lt (Int.lt_of_le_of_lt (hmax.2 _ hmin.1) h₁))
      · exact hmin.append_of_lt h₂
      · exact hmin.append (Int.not_lt.mp h₂)
  · by_cases h0 : vals.length % 2 ^ 64 = 0
    · rw [if_pos (hzero.mpr h0), recent_append_of_dvd h0]
      exact ⟨List.mem_singleton_self v, fun x hx => by rw [List.mem_singleton.mp hx]⟩
    · have hmax := ht.max_greatest (by rintro rfl; exact h0 rfl)
      rw [if_neg (mt hzero.mp h0), recent_append_of_not_dvd h0]
      split_ifs with h₁
      · exact hmax.append_of_lt h₁
      · exact hmax.append (Int.not_lt.mp h₁)

/-- `Reset` empties the tally. -/
theorem Tally.reset {h : Histogram} {vals : List Int} (ht : Tally bucket b h vals) :
  Tally bucket b (Histogram.reset h) []
  := by
  refine ⟨rfl, ?_, nofun, nofun⟩
  simp only [Histogram.reset, ht.buckets_eq, List.map_map, List.countP_nil]
  rfl

/-- The buckets add up to `Count` when every value has a bucket. -/
theorem Tally.sum_Buckets {h : Histogram} {vals : List Int} (ht : Tally bucket b h vals)
    (hf : ∀ v, bucket v < b) :
  h.Buckets.sum = h.Count
  := by
  rw [ht.buckets_eq, ht.count_eq, ← sum_countP_bucket hf vals, ← sum_map_ofNat, List.map_map]
  rfl

end Tally

/-- A property of a histogram and its values that every `Add` keeps without a panic, adding its
value, and every `Reset` keeps, forgetting them, holds after every run, which never panics. -/
theorem run_of_add_reset (P : Platform) (T : IntType) (I : Histogram → List Int → Prop)
    (hadd : ∀ h vals v, I h vals → ∃ h', add P T h v = some h' ∧ I h' (vals ++ [v]))
    (hreset : ∀ h vals, I h vals → I (reset h) []) {h : Histogram} {vals : List Int}
    (hh : I h vals) (ops : List Op) :
  ∃ h', run P T h ops = some h' ∧ I h' (addValues vals ops)
  := by
  induction ops generalizing h vals with
  | nil => exact ⟨h, rfl, hh⟩
  | cons op ops ih =>
    cases op with
    | add v =>
      obtain ⟨h₁, h₁eq, hh₁⟩ := hadd h vals v hh
      obtain ⟨h', h'eq, hh'⟩ := ih hh₁
      exact ⟨h', by rw [Histogram.run, step, h₁eq]; exact h'eq, hh'⟩
    | reset => exact ih (hreset h vals hh)

section Linear

variable (P : Platform) (T : IntType) (base : Int) (b : Nat)

/-- The bucket `Add` counts `v` in, in a linear histogram of `b` buckets. -/
def bucket (v : Int) : Nat := clampSlot b (floorSlot P (T.conv (v.tdiv base)))

/-- A linear histogram of `b` buckets holding the values `vals`. -/
structure Holds (h : Histogram) (vals : List Int) : Prop where
  linear : h.htype = .Linear
  base_eq : h.base = base
  count_eq : h.Count = BitVec.ofNat 64 vals.length
  buckets_eq : h.Buckets = (List.range b).map fun k =>
    BitVec.ofNat 64 (vals.countP fun v => bucket P T base b v = k)
  min_least : vals ≠ [] → IsLeast h.Min (recent vals)
  max_greatest : vals ≠ [] → IsGreatest h.Max (recent vals)

variable {P T base b}

theorem Holds.tally {h : Histogram} {vals : List Int} (hh : Holds P T base b h vals) :
  Tally (bucket P T base b) b h vals
  := ⟨hh.count_eq, hh.buckets_eq, hh.min_least, hh.max_greatest⟩

theorem holds_newLinear {buckets : Int} {h : Histogram} (hnew : newLinear base buckets = some h) :
  Holds P T base buckets.toNat h []
  := by
  unfold newLinear at hnew
  split_ifs at hnew
  cases hnew
  refine ⟨rfl, rfl, rfl, ?_, nofun, nofun⟩
  simp only [Int.toNat_ofNat, List.countP_nil, List.map_const', List.length_range]
  rfl

theorem Holds.reset {h : Histogram} {vals : List Int} (hh : Holds P T base b h vals) :
  Holds P T base b (Histogram.reset h) []
  := let ht := hh.tally.reset
    ⟨hh.linear, hh.base_eq, ht.count_eq, ht.buckets_eq, ht.min_least, ht.max_greatest⟩

/-- `Add` keeps a linear histogram with a positive divisor and a bucket, adding the value. -/
theorem Holds.add {h : Histogram} {vals : List Int} (hh : Holds P T base b h vals)
    (hbase : 0 < base) (hb : 0 < b) (v : Int) :
  ∃ h', Histogram.add P T h v = some h' ∧ Holds P T base b h' (vals ++ [v])
  := by
  have hlen : h.Buckets.length = b := by simp [hh.buckets_eq]
  have ht := hh.tally.add v
    (k := clampSlot h.Buckets.length (floorSlot P (T.conv (v.tdiv h.base))))
    (by rw [hlen, hh.base_eq]; rfl)
  exact ⟨_, add_linear P T hh.linear (by rw [hh.base_eq]; omega) (by omega) v, hh.linear,
    hh.base_eq, ht.count_eq, ht.buckets_eq, ht.min_least, ht.max_greatest⟩

/-- A run from a histogram holding `vals` never panics, and holds the values added since the
last `Reset`. -/
theorem Holds.run {h : Histogram} {vals : List Int} (hh : Holds P T base b h vals)
    (hbase : 0 < base) (hb : 0 < b) (ops : List Op) :
  ∃ h', run P T h ops = some h' ∧ Holds P T base b h' (addValues vals ops)
  := run_of_add_reset P T (Holds P T base b) (fun _ _ v hh => hh.add hbase hb v)
    (fun _ _ hh => hh.reset) hh ops

/-- A run on `NewLinear(base, b)`, with `base > 0`, `b ≥ 1` and `8 · b ≤ maxAlloc`, never
panics, and holds the values added since the last `Reset`. -/
theorem newLinear_bind_run {buckets : Int} (hbase : 0 < base) (hb : 1 ≤ buckets)
    (hmax : 8 * buckets ≤ maxAlloc) (ops : List Op) :
  ∃ h, (newLinear base buckets).bind (fun h₀ => run P T h₀ ops) = some h ∧
    Holds P T base buckets.toNat h (sinceReset ops)
  := by
  have hnew : newLinear base buckets =
      some ⟨.Linear, base, List.replicate buckets.toNat 0, 0, 0, 0⟩ := by
    rw [newLinear, if_neg (by omega)]
  obtain ⟨h, hrun, hh⟩ := (holds_newLinear hnew).run hbase (by omega) ops
  exact ⟨h, by rw [hnew, Option.some_bind]; exact hrun, hh⟩

/-- The buckets of a linear histogram add up to its `Count`. -/
theorem Holds.sum_Buckets {h : Histogram} {vals : List Int} (hh : Holds P T base b h vals)
    (hb : 0 < b) :
  h.Buckets.sum = h.Count
  := hh.tally.sum_Buckets fun v => clampSlot_lt hb (floorSlot P (T.conv (v.tdiv base)))

/-- A value whose quotient by `base` is below `2^53` is in bucket `min(max(v / base, 0), b - 1)`. -/
theorem bucket_of_lt {v : Int} (hv : T.InRange v) (hbase : 0 < base)
    (hq : (v.tdiv base).natAbs < 2 ^ 53) :
  bucket P T base b v = clampSlot b (v.tdiv base)
  := by
  rw [bucket, T.conv_eq_self (hv.tdiv hbase), floorSlot_of_lt P hq]

end Linear

/-- On `NewLinear(base, b)` with `base > 0`, `b ≥ 1` and `8 · b ≤ maxAlloc` (past which `make`
panics), a sequence of `Add` and `Reset` runs without a panic to a histogram whose `Count` is the
number of values added since the last `Reset` and whose `Buckets[k]` the number of those in
bucket `k`, both modulo `2^64`, the buckets adding up to `Count`; whose `Min` and `Max`, once a
value was added, are the least and greatest of those added since the last `Add` that found
`Count` at `0`; a value whose quotient by `base` is below `2^53` is in bucket
`min(max(v / base, 0), b - 1)`. -/
theorem run_newLinear (P : Platform) (T : IntType) {base b : Int} (hbase : 0 < base) (hb : 1 ≤ b)
    (hmax : 8 * b ≤ maxAlloc) (ops : List Op) :
  ∃ h₀ h, newLinear base b = some h₀ ∧ run P T h₀ ops = some h ∧
    h.Count = BitVec.ofNat 64 (sinceReset ops).length ∧
    h.Buckets = (List.range b.toNat).map (fun k =>
      BitVec.ofNat 64 ((sinceReset ops).countP fun v => bucket P T base b.toNat v = k)) ∧
    h.Buckets.sum = h.Count ∧
    (sinceReset ops ≠ [] →
      IsLeast h.Min (recent (sinceReset ops)) ∧ IsGreatest h.Max (recent (sinceReset ops))) ∧
    ∀ v, T.InRange v → (v.tdiv base).natAbs < 2 ^ 53 →
      bucket P T base b.toNat v = clampSlot b.toNat (v.tdiv base)
  := by
  obtain ⟨h, hrun, hh⟩ := newLinear_bind_run (P := P) (T := T) hbase hb hmax ops
  obtain ⟨h₀, hnew, hrun⟩ := Option.bind_eq_some.mp hrun
  exact ⟨h₀, h, hnew, hrun, hh.count_eq, hh.buckets_eq, hh.sum_Buckets (by omega),
    fun hne => ⟨hh.min_least hne, hh.max_greatest hne⟩, fun v hv hq => bucket_of_lt hv hbase hq⟩

theorem run_newLinear_sample :
  (0 : Int) < 1000 ∧ (1 : Int) ≤ 10 ∧ 8 * (10 : Int) ≤ maxAlloc ∧
  ∃ h₀ h, newLinear 1000 10 = some h₀ ∧
    run ⟨fun _ => -2 ^ 63, fun _ _ => 0, fun _ _ => 0⟩ IntType.int64 h₀ [.add 5] = some h ∧
    h.Count = BitVec.ofNat 64 (sinceReset [.add 5]).length ∧
    h.Buckets = (List.range (10 : Int).toNat).map (fun k =>
      BitVec.ofNat 64 ((sinceReset [.add 5]).countP fun v =>
        bucket ⟨fun _ => -2 ^ 63, fun _ _ => 0, fun _ _ => 0⟩ IntType.int64 1000
          (10 : Int).toNat v = k)) ∧
    h.Buckets.sum = h.Count ∧
    (sinceReset [.add 5] ≠ [] →
      IsLeast h.Min (recent (sinceReset [.add 5])) ∧
        IsGreatest h.Max (recent (sinceReset [.add 5]))) ∧
    ∀ v, IntType.int64.InRange v → (v.tdiv 1000).natAbs < 2 ^ 53 →
      bucket ⟨fun _ => -2 ^ 63, fun _ _ => 0, fun _ _ => 0⟩ IntType.int64 1000 (10 : Int).toNat v =
        clampSlot (10 : Int).toNat (v.tdiv 1000)
  := ⟨by decide, by decide, by decide,
    run_newLinear _ _ (by decide) (by decide) (by decide) [.add 5]⟩

theorem addValues_replicate (vals : List Int) (n : Nat) (v : Int) :
  addValues vals (List.replicate n (.add v)) = vals ++ List.replicate n v
  := by
  induction n generalizing vals with
  | zero => simp [addValues]
  | succ n ih =>
    rw [List.replicate_succ, addValues, ih, List.append_assoc, List.singleton_append,
      List.replicate_succ]

theorem addValues_append (vals : List Int) (ops₁ ops₂ : List Op) :
  addValues vals (ops₁ ++ ops₂) = addValues (addValues vals ops₁) ops₂
  := by
  induction ops₁ generalizing vals with
  | nil => rfl
  | cons op ops ih => cases op <;> exact ih _

theorem log2_eq {n k : Nat} (h₁ : 2 ^ k ≤ n) (h₂ : n < 2 ^ (k + 1)) : n.log2 = k := by
  have hn : n ≠ 0 := by have := Nat.one_le_two_pow (n := k); omega
  exact Nat.le_antisymm (Nat.lt_succ_iff.mp ((Nat.log2_lt hn).mpr h₂)) ((Nat.le_log2 hn).mpr h₁)

/-- `MaxInt64`, `2^63 - 1`, rounds up to the double `2^63`, past the range of `int64`. -/
theorem roundFloat64_maxInt64 : roundFloat64 (2 ^ 63 - 1) = 2 ^ 63 := by
  rw [roundFloat64, if_neg (by decide), log2_eq (k := 62) (by decide) (by decide)]
  decide

/-- In `int64`, with base `1` and ten buckets, on a platform whose `int()` of a double past the
range of `int` is `MinInt64`, `MaxInt64` is counted in bucket `0`. -/
theorem bucket_maxInt64 {P : Platform} (hP : P.intOfFloat (2 ^ 63) = -2 ^ 63) :
  bucket P IntType.int64 1 10 (2 ^ 63 - 1) = 0
  := by
  have hq : IntType.int64.conv ((2 ^ 63 - 1 : Int).tdiv 1) = 2 ^ 63 - 1 := by decide
  have hf : toFloat64 (2 ^ 63 - 1) = 2 ^ 63 := by
    rw [toFloat64, if_neg (by decide)]
    exact congrArg Nat.cast roundFloat64_maxInt64
  rw [bucket, hq, floorSlot, hf, if_neg (by decide), hP]
  rfl

/-- On `NewLinear(1, 1)`, adding `0` and then `2^64` times `1` leaves `Count` at `1` and `Min` at
`1`, though `0` was added since the last `Reset`: the `Add` that found `Count` wrapped to `0` took
its value as the least. On `NewLinear(1, 10)` in `int64`, on a platform whose `int()` of a double
past the range of `int` is `MinInt64`, as amd64's conversion gives, adding `MaxInt64` counts it in
bucket `0`, where `min(max(v / base, 0), b - 1)` is `9`: its quotient rounds to the double
`2^63`. -/
theorem run_newLinear_wraps_and_rounds :
  (∀ P : Platform, ∃ h,
    (newLinear 1 1).bind (fun h₀ => run P IntType.int64 h₀
      (.add 0 :: List.replicate (2 ^ 64) (.add 1))) = some h ∧
    h.Count = 1 ∧ 0 ∈ sinceReset (.add 0 :: List.replicate (2 ^ 64) (.add 1)) ∧ h.Min = 1) ∧
  (∀ expSlot expBound, ∃ h,
    (newLinear 1 10).bind (fun h₀ =>
      run ⟨fun _ => -2 ^ 63, expSlot, expBound⟩ IntType.int64 h₀ [.add (2 ^ 63 - 1)]) = some h ∧
    clampSlot 10 ((2 ^ 63 - 1 : Int).tdiv 1) = 9 ∧ h.Buckets = [1, 0, 0, 0, 0, 0, 0, 0, 0, 0])
  := by
  constructor
  · intro P
    obtain ⟨h, hrun, hh⟩ := newLinear_bind_run (P := P) (T := IntType.int64)
      (show (0 : Int) < 1 by decide) (show (1 : Int) ≤ 1 by decide)
      (show 8 * (1 : Int) ≤ maxAlloc by decide) (.add 0 :: List.replicate (2 ^ 64) (.add 1))
    have hvals : sinceReset (.add 0 :: List.replicate (2 ^ 64) (.add 1)) =
        0 :: List.replicate (2 ^ 64) 1 := by
      rw [sinceReset, addValues, addValues_replicate]
      rfl
    rw [hvals] at hh
    have hrecent : recent (0 :: List.replicate (2 ^ 64) 1) = [1] := by
      rw [recent, List.length_cons, List.length_replicate, Nat.add_sub_cancel,
        Nat.div_self (by decide), Nat.mul_one]
      obtain ⟨m, hm⟩ : ∃ m, 2 ^ 64 = m + 1 := ⟨2 ^ 64 - 1, by decide⟩
      rw [hm, List.drop_succ_cons, List.drop_replicate, Nat.add_sub_cancel_left]
      rfl
    have hmin := (hh.min_least (List.cons_ne_nil _ _)).1
    rw [hrecent, List.mem_singleton] at hmin
    refine ⟨h, hrun, ?_, ?_, hmin⟩
    · rw [hh.count_eq, List.length_cons, List.length_replicate]
      decide
    · rw [hvals]
      exact List.mem_cons_self _ _
  · intro expSlot expBound
    obtain ⟨h, hrun, hh⟩ := newLinear_bind_run (P := ⟨fun _ => -2 ^ 63, expSlot, expBound⟩)
      (T := IntType.int64) (show (0 : Int) < 1 by decide) (show (1 : Int) ≤ 10 by decide)
      (show 8 * (10 : Int) ≤ maxAlloc by decide) [.add (2 ^ 63 - 1)]
    change Holds _ IntType.int64 1 10 h [2 ^ 63 - 1] at hh
    refine ⟨h, hrun, by decide, ?_⟩
    rw [hh.buckets_eq]
    simp only [List.countP_cons, List.countP_nil,
      bucket_maxInt64 (P := ⟨fun _ => -2 ^ 63, expSlot, expBound⟩) rfl]
    decide

/-! ### Exponential histograms -/

section Exponential

variable (P : Platform) (base : Int) (b : Nat)

/-- The bucket `Add` counts `v` in, in an exponential histogram of `b` buckets. -/
def expBucket (v : Int) : Nat := clampSlot b (P.expSlot v base)

/-- An exponential histogram of `b` buckets holding the values `vals`. -/
structure HoldsExp (h : Histogram) (vals : List Int) : Prop where
  exponential : h.htype = .Exponential
  base_eq : h.base = base
  tally : Tally (expBucket P base b) b h vals

variable {P base b}

theorem holdsExp_newExponential {buckets : Int} {h : Histogram}
    (hnew : newExponential base buckets = some h) :
  HoldsExp P base buckets.toNat h []
  := by
  unfold newExponential at hnew
  split_ifs at hnew
  cases hnew
  refine ⟨rfl, rfl, rfl, ?_, nofun, nofun⟩
  simp only [Int.toNat_ofNat, List.countP_nil, List.map_const', List.length_range]
  rfl

/-- `Add` keeps an exponential histogram with a bucket, whatever its base, adding the value. -/
theorem HoldsExp.add (T : IntType) {h : Histogram} {vals : List Int}
    (hh : HoldsExp P base b h vals) (hb : 0 < b) (v : Int) :
  ∃ h', Histogram.add P T h v = some h' ∧ HoldsExp P base b h' (vals ++ [v])
  := by
  have hlen : h.Buckets.length = b := by simp [hh.tally.buckets_eq]
  exact ⟨_, add_exponential P T hh.exponential (by omega) v, hh.exponential, hh.base_eq,
    hh.tally.add v (k := clampSlot h.Buckets.length (P.expSlot v h.base))
      (by rw [hlen, hh.base_eq]; rfl)⟩

theorem HoldsExp.reset {h : Histogram} {vals : List Int} (hh : HoldsExp P base b h vals) :
  HoldsExp P base b (Histogram.reset h) []
  := ⟨hh.exponential, hh.base_eq, hh.tally.reset⟩

end Exponential

/-- A run on `NewExponential(base, b)`, with `b ≥ 1` and `8 · b ≤ maxAlloc`, never panics, and
holds the values added since the last `Reset`. -/
theorem newExponential_bind_run (P : Platform) (T : IntType) (base : Int) {buckets : Int}
    (hb : 1 ≤ buckets) (hmax : 8 * buckets ≤ maxAlloc) (ops : List Op) :
  ∃ h, (newExponential base buckets).bind (fun h₀ => run P T h₀ ops) = some h ∧
    HoldsExp P base buckets.toNat h (sinceReset ops)
  := by
  have hnew : newExponential base buckets =
      some ⟨.Exponential, base, List.replicate buckets.toNat 0, 0, 0, 0⟩ := by
    rw [newExponential, if_neg (by omega)]
  obtain ⟨h, hrun, hh⟩ := run_of_add_reset P T (HoldsExp P base buckets.toNat)
    (fun _ _ v hh => hh.add T (by omega) v) (fun _ _ hh => hh.reset)
    (holdsExp_newExponential hnew) ops
  exact ⟨h, by rw [hnew, Option.some_bind]; exact hrun, hh⟩


/-- On `NewExponential(base, b)` with `b ≥ 1` and `8 · b ≤ maxAlloc`, whatever the base, a
sequence of `Add` and `Reset` runs without a panic to a histogram whose `Count` is the number of
values added since the last `Reset` and whose `Buckets[k]` the number of those whose exponential
slot falls in bucket `k`, both modulo `2^64`, the buckets adding up to `Count`; whose `Min` and
`Max`, once a value was added, are the least and greatest of those added since the last `Add`
that found `Count` at `0`. -/
theorem run_newExponential (P : Platform) (T : IntType) {base b : Int} (hb : 1 ≤ b)
    (hmax : 8 * b ≤ maxAlloc) (ops : List Op) :
  ∃ h₀ h, newExponential base b = some h₀ ∧ run P T h₀ ops = some h ∧
    h.Count = BitVec.ofNat 64 (sinceReset ops).length ∧
    h.Buckets = (List.range b.toNat).map (fun k =>
      BitVec.ofNat 64 ((sinceReset ops).countP fun v => expBucket P base b.toNat v = k)) ∧
    h.Buckets.sum = h.Count ∧
    (sinceReset ops ≠ [] →
      IsLeast h.Min (recent (sinceReset ops)) ∧ IsGreatest h.Max (recent (sinceReset ops)))
  := by
  obtain ⟨h, hrun, hh⟩ := newExponential_bind_run P T base hb hmax ops
  obtain ⟨h₀, hnew, hrun⟩ := Option.bind_eq_some.mp hrun
  exact ⟨h₀, h, hnew, hrun, hh.tally.count_eq, hh.tally.buckets_eq,
    hh.tally.sum_Buckets fun v => clampSlot_lt (by omega) _,
    fun hne => ⟨hh.tally.min_least hne, hh.tally.max_greatest hne⟩⟩

theorem run_newExponential_sample :
  (1 : Int) ≤ 10 ∧ 8 * (10 : Int) ≤ maxAlloc ∧
  ∃ h₀ h, newExponential 0 10 = some h₀ ∧
    run ⟨fun _ => -2 ^ 63, fun _ _ => -2 ^ 63, fun _ _ => 0⟩ IntType.int64 h₀ [.add 5] = some h ∧
    h.Count = BitVec.ofNat 64 (sinceReset [.add 5]).length ∧
    h.Buckets = (List.range (10 : Int).toNat).map (fun k =>
      BitVec.ofNat 64 ((sinceReset [.add 5]).countP fun v =>
        expBucket ⟨fun _ => -2 ^ 63, fun _ _ => -2 ^ 63, fun _ _ => 0⟩ 0 (10 : Int).toNat v = k)) ∧
    h.Buckets.sum = h.Count ∧
    (sinceReset [.add 5] ≠ [] →
      IsLeast h.Min (recent (sinceReset [.add 5])) ∧
        IsGreatest h.Max (recent (sinceReset [.add 5])))
  := ⟨by decide, by decide, run_newExponential _ _ (by decide) (by decide) [.add 5]⟩

end Histogram

end AerospikeClient

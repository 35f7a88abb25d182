import AerospikeClient.Histogram.Invariant

/-!
# The median of a histogram

`Median` walks the buckets, adding up their counts, and returns the upper bound of the first
bucket at which the sum reaches `Count / 2` (`medianLoop_eq`). With `n` values added since the
last `Reset`, all in `[0, base·b)`, fewer than `2^64` of them, and `8 · b ≤ maxAlloc`, so that
`make` does not panic and `b ≤ 2^45`, each is counted in the bucket of its quotient by `base`,
and the bound is the least multiple of `base` below which at least `n / 2` of the values lie.
For `n ≥ 2` the `n / 2`-th smallest value is then in `[Median() - base, Median())`; for a single
value `Count / 2` is `0`, reached at the first bucket, and `Median()` is `base` whatever the value
(`median_linear`).

The walk reads only the counts, so on an exponential histogram `Median()` is likewise the
exponential bound of the first bucket at which the counts reach `n / 2`, whatever the base
(`median_newExponential`).
-/

namespace AerospikeClient

namespace Histogram

/-- In a sorted list, the entries below `L` are the first `countP (· < L)`. -/
theorem getElem_lt_iff_lt_countP {l : List Int} (hl : l.Sorted (· ≤ ·)) {i : Nat}
    (hi : i < l.length) (L : Int) :
  l[i] < L ↔ i < l.countP fun x => x < L
  := by
  induction l generalizing i with
  | nil => exact absurd hi (Nat.not_lt_zero _)
  | cons a l ih =>
    obtain ⟨ha, hl⟩ := List.sorted_cons.mp hl
    rw [List.countP_cons]
    by_cases haL : a < L
    · cases i with
      | zero => simp [haL]
      | succ i =>
        rw [List.getElem_cons_succ, if_pos (decide_eq_true haL), ih hl (by simpa using hi)]
        omega
    · have hzero : l.countP (fun x => x < L) = 0 :=
        List.countP_eq_zero.mpr fun x hx => by
          have := ha x hx
          simp only [decide_eq_true_eq]
          omega
      have hle : a ≤ (a :: l)[i] := by
        cases i with
        | zero => exact Int.le_refl a
        | succ i => exact ha _ (List.getElem_mem _)
      rw [hzero, if_neg (by simpa using haL)]
      omega

section Loop

variable (P : Platform) (T : IntType) (h : Histogram)

/-- When the counts add up below `2^64`, the loop of `Median` stops at the first bucket at which
the running count reaches `c`. -/
theorem medianLoop_eq (c : BitVec 64) (counts : List Nat) (hne : counts ≠ []) (s i : Nat)
    (hsum : s + counts.sum < 2 ^ 64) (hc : c.toNat ≤ s + counts.sum) :
  ∃ j < counts.length,
    medianLoop P T h c (BitVec.ofNat 64 s) i (counts.map (BitVec.ofNat 64)) = bound P T h (i + j) ∧
    (∀ j' < j, s + (counts.take (j' + 1)).sum < c.toNat) ∧
    c.toNat ≤ s + (counts.take (j + 1)).sum
  := by
  induction counts generalizing s i with
  | nil => exact absurd rfl hne
  | cons a rest ih =>
    simp only [List.sum_cons] at hsum hc
    have hadd : BitVec.ofNat 64 s + BitVec.ofNat 64 a = BitVec.ofNat 64 (s + a) :=
      BitVec.ofNat_add_ofNat s a
    have hreach : c ≤ BitVec.ofNat 64 (s + a) ↔ c.toNat ≤ s + a := by
      rw [BitVec.le_def, BitVec.toNat_ofNat, Nat.mod_eq_of_lt (by omega)]
    rw [List.map_cons, medianLoop, hadd]
    by_cases hca : c.toNat ≤ s + a
    · refine ⟨0, by simp, by rw [if_pos (hreach.mpr hca)]; rfl, fun j' hj' => absurd hj' (by omega), ?_⟩
      simpa using hca
    · rw [if_neg (fun h => hca (hreach.mp h))]
      have hrest : rest ≠ [] := by
        rintro rfl
        simp at hc
        omega
      obtain ⟨j, hj, heq, hbefore, hat⟩ := ih hrest (s + a) (i + 1) (by omega) (by omega)
      refine ⟨j + 1, by simpa using hj, by rw [heq]; congr 1; omega, fun j' hj' => ?_, ?_⟩
      · cases j' with
        | zero => simpa using Nat.lt_of_not_le hca
        | succ j' =>
          have := hbefore j' (by omega)
          simp only [List.take_succ_cons, List.sum_cons]
          omega
      · simp only [List.take_succ_cons, List.sum_cons]
        omega

end Loop

section Tally

variable (P : Platform) (T : IntType) {bucket : Int → Nat} {b : Nat}

/-- With fewer than `2^64` values, each in one of the `b` buckets, `Median` is the bound of the
first bucket `j` such that at least `n / 2` of the `n` values are in buckets up to `j`. -/
theorem Tally.median_bucket {h : Histogram} {vals : List Int} (ht : Tally bucket b h vals)
    (hf : ∀ v, bucket v < b) (hb : 0 < b) (hn : vals.length < 2 ^ 64) :
  ∃ j < b, median P T h = bound P T h j ∧
    (∀ j' < j, (vals.countP fun v => bucket v < j' + 1) < vals.length / 2) ∧
    vals.length / 2 ≤ vals.countP fun v => bucket v < j + 1
  := by
  let counts := (List.range b).map fun k => vals.countP fun v => bucket v = k
  have hbuckets : h.Buckets = counts.map (BitVec.ofNat 64) := by
    rw [ht.buckets_eq, List.map_map]
    rfl
  have hsum : counts.sum = vals.length := sum_countP_bucket hf vals
  have hc : (h.Count / 2).toNat = vals.length / 2 := by
    rw [BitVec.toNat_udiv, ht.count_eq, BitVec.toNat_ofNat, Nat.mod_eq_of_lt hn]
    rfl
  have htake : ∀ m ≤ b, (counts.take m).sum = vals.countP fun v => bucket v < m := by
    intro m hm
    rw [← List.map_take, List.take_range, Nat.min_eq_left hm, sum_countP_lt]
  obtain ⟨j, hj, heq, hbefore, hat⟩ := medianLoop_eq P T h (h.Count / 2) counts
    (by simp [counts]; omega) 0 0 (by omega) (by omega)
  rw [List.length_map, List.length_range] at hj
  refine ⟨j, hj, ?_, fun j' hj' => ?_, ?_⟩
  · rw [median, hbuckets, show (0 : BitVec 64) = BitVec.ofNat 64 0 from rfl, heq, Nat.zero_add]
  · have := hbefore j' hj'
    rwa [Nat.zero_add, htake (j' + 1) (by omega), hc] at this
  · rwa [Nat.zero_add, htake (j + 1) (by omega), hc] at hat

end Tally

section Linear

variable {P : Platform} {T : IntType} {base : Int} {b : Nat}

/-- With at most `2^53` buckets, a value in `[0, base·b)` is counted in the bucket of its
quotient by `base`. -/
theorem bucket_eq_div (hbase : 0 < base) (hb53 : b ≤ 2 ^ 53) {v : Int} (hv : T.InRange v)
    (h₀ : 0 ≤ v) (hvb : v < base * b) :
  bucket P T base b v = (v / base).toNat
  := by
  have hq₀ : 0 ≤ v / base := Int.ediv_nonneg h₀ (Int.le_of_lt hbase)
  have hqb : v / base < b := (Int.ediv_lt_iff_lt_mul hbase).mpr (by rw [Int.mul_comm]; exact hvb)
  rw [bucket_of_lt hv hbase (by rw [Int.tdiv_eq_ediv h₀ (Int.le_of_lt hbase)]; omega),
    Int.tdiv_eq_ediv h₀ (Int.le_of_lt hbase), clampSlot_of_lt hq₀ hqb]

/-- Such a value is in one of the first `m` buckets exactly when it is below `m·base`. -/
theorem bucket_lt_iff (hbase : 0 < base) (hb53 : b ≤ 2 ^ 53) {v : Int} (hv : T.InRange v)
    (h₀ : 0 ≤ v) (hvb : v < base * b) (m : Nat) :
  bucket P T base b v < m ↔ v < m * base
  := by
  rw [bucket_eq_div hbase hb53 hv h₀ hvb, Int.toNat_lt (Int.ediv_nonneg h₀ (Int.le_of_lt hbase)),
    Int.ediv_lt_iff_lt_mul hbase]

/-- With fewer than `2^64` values, `Median` is the bound of the first bucket `j` such that at
least `n / 2` of the `n` values are in buckets up to `j`. -/
theorem Holds.median_bucket {h : Histogram} {vals : List Int} (hh : Holds P T base b h vals)
    (hb : 0 < b) (hn : vals.length < 2 ^ 64) :
  ∃ j < b, median P T h = bound P T h j ∧
    (∀ j' < j, (vals.countP fun v => bucket P T base b v < j' + 1) < vals.length / 2) ∧
    vals.length / 2 ≤ vals.countP fun v => bucket P T base b v < j + 1
  := hh.tally.median_bucket P T (fun _ => clampSlot_lt hb _) hb hn

/-- Over values in `[0, base·b)`, fewer than `2^64` of them, with `b ≤ 2^53` and `base·b` a
value of `T`: `Median` is `(j + 1)·base` for the first `j` such that at least `n / 2` of the `n`
values are below it. -/
theorem Holds.median {h : Histogram} {vals : List Int} (hh : Holds P T base b h vals)
    (hbase : 0 < base) (hb : 0 < b) (hb53 : b ≤ 2 ^ 53) (hrep : T.InRange (base * b))
    (hn : vals.length < 2 ^ 64) (hvals : ∀ v ∈ vals, 0 ≤ v ∧ v < base * b) :
  ∃ j < b, Histogram.median P T h = ((j + 1 : Nat) : Int) * base ∧
    (∀ j' < j, (vals.countP fun v => v < ((j' + 1 : Nat) : Int) * base) < vals.length / 2) ∧
    vals.length / 2 ≤ vals.countP fun v => v < ((j + 1 : Nat) : Int) * base
  := by
  have hbb : (b : Int) ≤ base * b := by
    have := Int.mul_le_mul_of_nonneg_right (show (1 : Int) ≤ base by omega) (Int.ofNat_nonneg b)
    rwa [Int.one_mul] at this
  have hrange : ∀ v, 0 ≤ v → v ≤ base * b → T.InRange v :=
    fun v h₀ h₁ => ⟨Int.le_trans T.min_le_zero h₀, Int.le_trans h₁ hrep.2⟩
  have hcount : ∀ m : Nat, (vals.countP fun v => bucket P T base b v < m) =
      vals.countP fun v => v < (m : Int) * base := fun m =>
    List.countP_congr fun v hv => by
      simp only [decide_eq_true_eq]
      exact bucket_lt_iff hbase hb53 (hrange v (hvals v hv).1 (Int.le_of_lt (hvals v hv).2))
        (hvals v hv).1 (hvals v hv).2 m
  obtain ⟨j, hj, heq, hbefore, hat⟩ := hh.median_bucket hb hn
  refine ⟨j, hj, ?_, fun j' hj' => (hcount (j' + 1)) ▸ hbefore j' hj', (hcount (j + 1)) ▸ hat⟩
  have hmul : ((j + 1 : Nat) : Int) * base ≤ base * b := by
    rw [Int.mul_comm]
    exact Int.mul_le_mul_of_nonneg_left (by omega) (Int.le_of_lt hbase)
  have h₁ : T.conv ((j + 1 : Nat) : Int) = ((j + 1 : Nat) : Int) :=
    T.conv_eq_self (hrange _ (by omega) (by omega))
  have h₂ : T.conv (((j + 1 : Nat) : Int) * base) = ((j + 1 : Nat) : Int) * base :=
    T.conv_eq_self (hrange _ (Int.mul_nonneg (by omega) (Int.le_of_lt hbase)) hmul)
  rw [heq, bound, hh.linear, hh.base_eq]
  dsimp only
  rw [show ((j : Int) + 1) = ((j + 1 : Nat) : Int) by push_cast; rfl, h₁, h₂]

end Linear

/-- On `NewLinear(base, b)`, with `base > 0`, `b ≥ 1`, `8 · b ≤ maxAlloc` and `base·b` a value
of `T`, after `n` values in `[0, base·b)` were added since the last `Reset`, `1 ≤ n < 2^64`: for
`n ≥ 2` the `n / 2`-th smallest of them lies in `[Median() - base, Median())`, and for `n = 1`,
`Median()` is `base`. -/
theorem median_linear (P : Platform) (T : IntType) {base b : Int} (hbase : 0 < base) (hb : 1 ≤ b)
    (hmax : 8 * b ≤ maxAlloc) (hrep : T.InRange (base * b)) (ops : List Op)
    (hn : sinceReset ops ≠ [] ∧ (sinceReset ops).length < 2 ^ 64)
    (hvals : ∀ v ∈ sinceReset ops, 0 ≤ v ∧ v < base * b) :
  ∃ h₀ h, newLinear base b = some h₀ ∧ run P T h₀ ops = some h ∧
    ((sinceReset ops).length = 1 → median P T h = base) ∧
    (2 ≤ (sinceReset ops).length → ∃ v,
      ((sinceReset ops).insertionSort (· ≤ ·))[(sinceReset ops).length / 2 - 1]? = some v ∧
      median P T h - base ≤ v ∧ v < median P T h)
  := by
  obtain ⟨hne, hlt⟩ := hn
  have hb53 : b ≤ 2 ^ 53 := by unfold maxAlloc at hmax; omega
  obtain ⟨h, hrun, hh⟩ := newLinear_bind_run (P := P) (T := T) hbase hb hmax ops
  obtain ⟨h₀, hnew, hrun⟩ := Option.bind_eq_some.mp hrun
  have hb' : ((b.toNat : Nat) : Int) = b := Int.toNat_of_nonneg (by omega)
  obtain ⟨j, -, hmed, hbefore, hat⟩ := hh.median hbase (by omega) (by omega) (by rwa [hb'])
    hlt (by rwa [hb'])
  refine ⟨h₀, h, hnew, hrun, fun h1 => ?_, fun h2 => ?_⟩
  · have hj : j = 0 := by
      by_contra hj
      have := hbefore 0 (by omega)
      omega
    rw [hmed, hj]
    simp
  · set vals := sinceReset ops
    let sorted := vals.insertionSort (· ≤ ·)
    have hperm (p : Int → Bool) : sorted.countP p = vals.countP p :=
      (List.perm_insertionSort _ vals).countP_eq p
    have hlen : vals.length / 2 - 1 < sorted.length := by
      rw [List.length_insertionSort]
      omega
    have hlow : (vals.countP fun v => v < median P T h - base) < vals.length / 2 := by
      cases j with
      | zero =>
        rw [List.countP_eq_zero.mpr fun v hv => by
          rw [hmed]; simpa using (hvals v hv).1]
        omega
      | succ j =>
        have := hbefore j (by omega)
        rwa [hmed, show ((j + 1 + 1 : Nat) : Int) * base - base = ((j + 1 : Nat) : Int) * base by
          push_cast; rw [Int.add_mul, Int.one_mul, Int.add_sub_cancel]]
    refine ⟨sorted[vals.length / 2 - 1], List.getElem?_eq_getElem hlen, ?_, ?_⟩
    · rw [← Int.not_lt, getElem_lt_iff_lt_countP (List.sorted_insertionSort _ vals), hperm]
      omega
    · rw [getElem_lt_iff_lt_countP (List.sorted_insertionSort _ vals), hperm, hmed]
      omega

theorem median_linear_sample :
  (0 : Int) < 1000 ∧ (1 : Int) ≤ 10 ∧ 8 * (10 : Int) ≤ maxAlloc ∧
  IntType.int64.InRange (1000 * 10) ∧
  (sinceReset [.add 5, .add 7000] ≠ [] ∧ (sinceReset [.add 5, .add 7000]).length < 2 ^ 64) ∧
  (∀ v ∈ sinceReset [.add 5, .add 7000], 0 ≤ v ∧ v < 1000 * 10) ∧
  ∃ h₀ h, newLinear 1000 10 = some h₀ ∧
    run ⟨fun _ => -2 ^ 63, fun _ _ => 0, fun _ _ => 0⟩ IntType.int64 h₀ [.add 5, .add 7000] =
      some h ∧
    ((sinceReset [.add 5, .add 7000]).length = 1 →
      median ⟨fun _ => -2 ^ 63, fun _ _ => 0, fun _ _ => 0⟩ IntType.int64 h = 1000) ∧
    (2 ≤ (sinceReset [.add 5, .add 7000]).length → ∃ v,
      ((sinceReset [.add 5, .add 7000]).insertionSort (· ≤ ·))[
        (sinceReset [.add 5, .add 7000]).length / 2 - 1]? = some v ∧
      median ⟨fun _ => -2 ^ 63, fun _ _ => 0, fun _ _ => 0⟩ IntType.int64 h - 1000 ≤ v ∧
      v < median ⟨fun _ => -2 ^ 63, fun _ _ => 0, fun _ _ => 0⟩ IntType.int64 h)
  := ⟨by decide, by decide, by decide, by decide, by decide, by decide,
    median_linear _ _ (by decide) (by decide) (by decide) (by decide) _ (by decide) (by decide)⟩

/-- Without a bound on `n`, and for a single value, the median can miss the value. A single
value `5000` in `NewLinear(1000, 10)` has median `1000`. After `2^64` values `0` and two values `1`
on `NewLinear(1, 2)`, `Count` has wrapped to `2`, and the median `2` is more than `base` above the
`2^63 + 1`-th smallest value, `0`. -/
theorem median_single_rounds_wraps :
  (∀ P : Platform, ∃ h,
    (newLinear 1000 10).bind (fun h₀ => run P IntType.int64 h₀ [.add 5000]) = some h ∧
    median P IntType.int64 h = 1000) ∧
  (∀ P : Platform, ∃ h,
    (newLinear 1 2).bind (fun h₀ => run P IntType.int64 h₀
      (List.replicate (2 ^ 64) (.add 0) ++ [.add 1, .add 1])) = some h ∧
    (sinceReset (List.replicate (2 ^ 64) (.add 0) ++ [.add 1, .add 1])).length = 2 ^ 64 + 2 ∧
    ((sinceReset (List.replicate (2 ^ 64) (.add 0) ++ [.add 1, .add 1])).insertionSort
      (· ≤ ·))[2 ^ 63]? = some 0 ∧
    median P IntType.int64 h = 2)
  := by
  refine ⟨fun P => ⟨⟨.Linear, 1000, [0, 0, 0, 0, 0, 1, 0, 0, 0, 0], 5000, 5000, 1⟩, rfl, rfl⟩,
    fun P => ?_⟩
  have hvals : sinceReset (List.replicate (2 ^ 64) (.add 0) ++ [.add 1, .add 1]) =
      List.replicate (2 ^ 64) 0 ++ [1, 1] := by
    rw [sinceReset, addValues_append, addValues_replicate, List.nil_append]
    simp only [addValues, List.append_assoc, List.singleton_append]
  obtain ⟨h, hrun, hh⟩ := newLinear_bind_run (P := P) (T := IntType.int64)
    (show (0 : Int) < 1 by decide) (show (1 : Int) ≤ 2 by decide)
    (show 8 * (2 : Int) ≤ maxAlloc by decide)
    (List.replicate (2 ^ 64) (.add 0) ++ [.add 1, .add 1])
  change Holds P IntType.int64 1 2 h _ at hh
  rw [hvals] at hh
  have hlen : (List.replicate (2 ^ 64) (0 : Int) ++ [1, 1]).length = 2 ^ 64 + 2 := by
    rw [List.length_append, List.length_replicate]
    rfl
  have hsorted : (List.replicate (2 ^ 64) (0 : Int) ++ [1, 1]).Sorted (· ≤ ·) :=
    List.pairwise_append.mpr ⟨List.pairwise_replicate.mpr (.inr (Int.le_refl 0)), by decide,
      fun a ha b hb => by rw [List.eq_of_mem_replicate ha]; simp at hb; omega⟩
  have hbuckets : h.Buckets = [0, 2] := by
    rw [hh.buckets_eq, show List.range 2 = [0, 1] from rfl]
    simp only [List.map_cons, List.map_nil, List.countP_append, List.countP_replicate,
      List.countP_cons, List.countP_nil, show bucket P IntType.int64 1 2 0 = 0 from rfl,
      show bucket P IntType.int64 1 2 1 = 1 from rfl]
    decide
  refine ⟨h, hrun, by rw [hvals, hlen], ?_, ?_⟩
  · rw [hvals, hsorted.insertionSort_eq,
      List.getElem?_append_left (by rw [List.length_replicate]; decide),
      List.getElem?_replicate, if_pos (by decide)]
  · rw [median, hh.count_eq, hlen, hbuckets, medianLoop, medianLoop, if_neg (by decide),
      if_pos (by decide), bound, hh.linear, hh.base_eq]
    dsimp only
    decide

/-- On `NewExponential(base, b)` with `b ≥ 1` and `8 · b ≤ maxAlloc`, whatever the base, after
fewer than `2^64` values were added since the last `Reset`: `Median()` is the exponential bound
`T(base^(j+1))` for the first bucket `j` such that at least `n / 2` of the `n` values have their
exponential slot in the buckets up to `j`. -/
theorem median_newExponential (P : Platform) (T : IntType) {base b : Int} (hb : 1 ≤ b)
    (hmax : 8 * b ≤ maxAlloc) (ops : List Op) (hn : (sinceReset ops).length < 2 ^ 64) :
  ∃ h₀ h, newExponential base b = some h₀ ∧ run P T h₀ ops = some h ∧
    ∃ j < b.toNat, median P T h = P.expBound base (j + 1) ∧
      (∀ j' < j, ((sinceReset ops).countP fun v => expBucket P base b.toNat v < j' + 1) <
        (sinceReset ops).length / 2) ∧
      (sinceReset ops).length / 2 ≤
        (sinceReset ops).countP fun v => expBucket P base b.toNat v < j + 1
  := by
  obtain ⟨h, hrun, hh⟩ := newExponential_bind_run P T base hb hmax ops
  obtain ⟨h₀, hnew, hrun⟩ := Option.bind_eq_some.mp hrun
  obtain ⟨j, hj, heq, hbefore, hat⟩ :=
    hh.tally.median_bucket P T (fun _ => clampSlot_lt (by omega) _) (by omega) hn
  refine ⟨h₀, h, hnew, hrun, j, hj, ?_, hbefore, hat⟩
  rw [heq, bound, hh.exponential, hh.base_eq]

theorem median_newExponential_sample :
  (1 : Int) ≤ 10 ∧ 8 * (10 : Int) ≤ maxAlloc ∧
  (sinceReset [.add 5, .add 7]).length < 2 ^ 64 ∧
  ∃ h₀ h, newExponential 2 10 = some h₀ ∧
    run ⟨fun _ => 0, fun v _ => v / 4, fun _ i => 2 ^ i⟩ IntType.int64 h₀ [.add 5, .add 7] =
      some h ∧
    ∃ j < (10 : Int).toNat,
      median ⟨fun _ => 0, fun v _ => v / 4, fun _ i => 2 ^ i⟩ IntType.int64 h =
        Platform.expBound ⟨fun _ => 0, fun v _ => v / 4, fun _ i => 2 ^ i⟩ 2 (j + 1) ∧
      (∀ j' < j, ((sinceReset [.add 5, .add 7]).countP fun v =>
          expBucket ⟨fun _ => 0, fun v _ => v / 4, fun _ i => 2 ^ i⟩ 2 (10 : Int).toNat v <
            j' + 1) < (sinceReset [.add 5, .add 7]).length / 2) ∧
      (sinceReset [.add 5, .add 7]).length / 2 ≤
        (sinceReset [.add 5, .add 7]).countP fun v =>
          expBucket ⟨fun _ => 0, fun v _ => v / 4, fun _ i => 2 ^ i⟩ 2 (10 : Int).toNat v < j + 1
  := ⟨by decide, by decide, by decide,
    median_newExponential _ _ (by decide) (by decide) _ (by decide)⟩

end Histogram

end AerospikeClient

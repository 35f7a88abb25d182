import AerospikeClient.Rand.Xor128

/-!
# The state update of the generator

`Uint64` replaces the state `(a, b)` by `(b, t ^ b ^ (t >> 17) ^ (b >> 26))` with
`t = a ^ (a << 23)` (`step`). Each xorshift `x ↦ x ^ f x`, for `f` a shift, is undone by the xor
of the first few shifts of its result, as many as it takes the shift to clear 64 bits
(`xorIterates`): a telescoping sum. So the update has an inverse (`unstep`) and is a bijection
of the pairs of words. The state `(0, 0)` is a fixed point, where every output is `0`; every
state the generator passes through, by `Uint64`, `Int64` or the passes of `Read`, is an iterate
of the update, so from any other state none of them is `(0, 0)` (`step_bijective_avoids_zero`).
`Read` makes `⌈(len(p) / 8) / 8⌉` updates, and of a slice of 11 bytes or more it writes only the
first `len(p) / 8 + 9` bytes (`read_long`).
-/

namespace AerospikeClient

namespace Rand

/-! ### Undoing a xorshift -/

theorem xor_xor_cancel_right (a b : BitVec 64) : a ^^^ b ^^^ b = a := by
  rw [BitVec.xor_assoc, BitVec.xor_self, BitVec.xor_zero]

theorem xor_right_comm (a b c : BitVec 64) : a ^^^ b ^^^ c = a ^^^ c ^^^ b := by
  ac_rfl

/-- `x ^^^ f x ^^^ … ^^^ f^[m - 1] x`: the xor of the first `m` iterates of `f` at `x`. -/
def xorIterates (f : BitVec 64 → BitVec 64) : Nat → BitVec 64 → BitVec 64
  | 0, _ => 0
  | m + 1, x => xorIterates f m x ^^^ f^[m] x

section Linear

variable {f : BitVec 64 → BitVec 64} (hf : ∀ a b, f (a ^^^ b) = f a ^^^ f b)
include hf

theorem iterate_xor (m : Nat) (a b : BitVec 64) : f^[m] (a ^^^ b) = f^[m] a ^^^ f^[m] b := by
  induction m with
  | zero => rfl
  | succ m ih => rw [Function.iterate_succ_apply', ih, hf, Function.iterate_succ_apply',
      Function.iterate_succ_apply']

theorem map_zero_of_linear : f 0 = 0 := by
  have h := hf 0 0
  rwa [BitVec.xor_self, BitVec.xor_self] at h

/-- The xor of the first `m` iterates undoes `x ↦ x ^^^ f x` up to `f^[m] x`. -/
theorem xorIterates_xor_self (m : Nat) (x : BitVec 64) :
  xorIterates f m (x ^^^ f x) = x ^^^ f^[m] x
  := by
  induction m with
  | zero => simp [xorIterates]
  | succ m ih =>
    rw [xorIterates, ih, iterate_xor hf, ← Function.iterate_succ_apply, BitVec.xor_assoc,
      ← BitVec.xor_assoc (f^[m] x), BitVec.xor_self, BitVec.zero_xor]

/-- `x ↦ x ^^^ f x` undoes the xor of the first `m` iterates up to `f^[m] y`. -/
theorem xorIterates_xor_map (m : Nat) (y : BitVec 64) :
  xorIterates f m y ^^^ f (xorIterates f m y) = y ^^^ f^[m] y
  := by
  induction m with
  | zero => simpa [xorIterates] using map_zero_of_linear hf
  | succ m ih =>
    rw [xorIterates, hf, Function.iterate_succ_apply',
      show ∀ s a b c : BitVec 64, s ^^^ a ^^^ (b ^^^ c) = s ^^^ b ^^^ a ^^^ c from
        fun _ _ _ _ => by ac_rfl, ih, xor_xor_cancel_right]

end Linear

theorem ushiftRight_iterate (k m : Nat) (x : BitVec 64) :
  (fun y : BitVec 64 => y >>> k)^[m] x = x >>> (k * m)
  := by
  induction m with
  | zero => exact (BitVec.ushiftRight_zero x).symm
  | succ m ih => rw [Function.iterate_succ_apply', ih, ← BitVec.shiftRight_add, Nat.mul_succ]

theorem shiftLeft_iterate (k m : Nat) (x : BitVec 64) :
  (fun y : BitVec 64 => y <<< k)^[m] x = x <<< (k * m)
  := by
  induction m with
  | zero => exact (BitVec.shiftLeft_zero x).symm
  | succ m ih => rw [Function.iterate_succ_apply', ih, ← BitVec.shiftLeft_add, Nat.mul_succ]

theorem ushiftRight_eq_zero {n : Nat} (h : 64 ≤ n) (x : BitVec 64) : x >>> n = 0#64 := by
  ext i
  simp only [BitVec.getLsbD_ushiftRight, BitVec.getLsbD_zero]
  exact BitVec.getLsbD_ge x (n + i) (by omega)

theorem shiftLeft_eq_zero {n : Nat} (h : 64 ≤ n) (x : BitVec 64) : x <<< n = 0#64 := by
  ext i
  simp only [BitVec.getLsbD_shiftLeft, BitVec.getLsbD_zero]
  simp [Nat.lt_of_lt_of_le i.isLt h]

/-- `x ^^^ x >>> 17` is undone by the xor of its first four shifts by `17`. -/
theorem xorIterates_xor_ushiftRight (x : BitVec 64) :
  xorIterates (· >>> 17) 4 (x ^^^ x >>> 17) = x
  := by
  rw [xorIterates_xor_self (fun a b => BitVec.ushiftRight_xor_distrib a b 17),
    ushiftRight_iterate, ushiftRight_eq_zero (by decide), BitVec.xor_zero]

theorem xorIterates_ushiftRight_xor (y : BitVec 64) :
  xorIterates (· >>> 17) 4 y ^^^ xorIterates (· >>> 17) 4 y >>> 17 = y
  := by
  rw [xorIterates_xor_map (f := (· >>> 17)) (fun a b => BitVec.ushiftRight_xor_distrib a b 17),
    ushiftRight_iterate, ushiftRight_eq_zero (by decide), BitVec.xor_zero]

/-- `x ^^^ x <<< 23` is undone by the xor of its first three shifts by `23`. -/
theorem xorIterates_xor_shiftLeft (x : BitVec 64) :
  xorIterates (· <<< 23) 3 (x ^^^ x <<< 23) = x
  := by
  rw [xorIterates_xor_self (fun a b => BitVec.shiftLeft_xor_distrib a b 23),
    shiftLeft_iterate, shiftLeft_eq_zero (by decide), BitVec.xor_zero]

theorem xorIterates_shiftLeft_xor (y : BitVec 64) :
  xorIterates (· <<< 23) 3 y ^^^ xorIterates (· <<< 23) 3 y <<< 23 = y
  := by
  rw [xorIterates_xor_map (f := (· <<< 23)) (fun a b => BitVec.shiftLeft_xor_distrib a b 23),
    shiftLeft_iterate, shiftLeft_eq_zero (by decide), BitVec.xor_zero]

/-! ### The update and its inverse -/

namespace Xor128Rand

/-- The update of the state by `Uint64`. -/
def step (r : Xor128Rand) : Xor128Rand := (uint64 r).2

/-- The state `step` comes from: `t ^ (t >> 17)` is `src1 ^ (src0 >> 26) ^ src0`, from which
`t`, and then the first word `a` of `t = a ^ (a << 23)`, are recovered. -/
def unstep (r : Xor128Rand) : Xor128Rand :=
  ⟨xorIterates (· <<< 23) 3 (xorIterates (· >>> 17) 4 (r.src1 ^^^ r.src0 >>> 26 ^^^ r.src0)),
    r.src0⟩

theorem step_mk (a b : BitVec 64) :
  step ⟨a, b⟩ = ⟨b, a ^^^ a <<< 23 ^^^ b ^^^ (a ^^^ a <<< 23) >>> 17 ^^^ b >>> 26⟩
  := rfl

theorem unstep_step (r : Xor128Rand) : unstep (step r) = r := by
  obtain ⟨a, b⟩ := r
  rw [step_mk, unstep]
  dsimp only
  rw [xor_xor_cancel_right, xor_right_comm _ b, xor_xor_cancel_right, xorIterates_xor_ushiftRight,
    xorIterates_xor_shiftLeft]

theorem step_unstep (r : Xor128Rand) : step (unstep r) = r := by
  obtain ⟨b, c⟩ := r
  rw [unstep]
  dsimp only
  rw [step_mk, xorIterates_shiftLeft_xor, xor_right_comm _ b, xorIterates_ushiftRight_xor,
    xor_xor_cancel_right, xor_xor_cancel_right]

theorem step_bijective : Function.Bijective step :=
  Function.bijective_iff_has_inverse.mpr ⟨unstep, unstep_step, step_unstep⟩

/-! ### The zero state -/

/-- Only `(0, 0)` is updated to `(0, 0)`. -/
theorem step_eq_zero_iff {r : Xor128Rand} : step r = ⟨0, 0⟩ ↔ r = ⟨0, 0⟩ :=
  ⟨fun h => by rw [← unstep_step r, h]; decide, fun h => by rw [h]; decide⟩

theorem iterate_ne_zero {r : Xor128Rand} (hr : r ≠ ⟨0, 0⟩) (k : Nat) : step^[k] r ≠ ⟨0, 0⟩ := by
  induction k with
  | zero => exact hr
  | succ k ih =>
    rw [Function.iterate_succ_apply']
    exact mt step_eq_zero_iff.mp ih

/-! ### Runs of calls -/

/-- Each pass of `Read` updates the state once. -/
theorem foldlM_readStep_state (is : List Nat) {acc acc' : List (BitVec 8) × Xor128Rand}
    (h : is.foldlM readStep acc = some acc') :
  acc'.2 = step^[is.length] acc.2
  := by
  induction is generalizing acc with
  | nil => cases h; rfl
  | cons i is ih =>
    obtain ⟨acc₁, h₁, h⟩ := Option.bind_eq_some.mp h
    obtain ⟨res, -, rfl⟩ := Option.map_eq_some'.mp h₁
    rw [ih h, List.length_cons, Function.iterate_succ_apply]
    rfl

/-- `Read` updates the state once for each of its `⌈(len(p) / 8) / 8⌉` passes. -/
theorem read_state {r r' : Xor128Rand} {p p' : List (BitVec 8)} {n : Nat}
    (h : read r p = some (n, p', r')) :
  r' = step^[(p.length / 8 + 7) / 8] r
  := by
  obtain ⟨acc', hfold, hres⟩ := Option.map_eq_some'.mp h
  cases hres
  have h := foldlM_readStep_state _ hfold
  rwa [offsets, List.length_range'] at h

/-- From 11 bytes on, `Read` returns `len(p)` with no panic, updates the state once for each
pass, and writes no byte from `len(p) / 8 + 9` on: of a long slice, it fills about the first
ninth. -/
theorem read_long (r : Xor128Rand) {p : List (BitVec 8)} (hp : 11 ≤ p.length) :
  ∃ p', read r p = some (p.length, p', step^[(p.length / 8 + 7) / 8] r) ∧
    p'.length = p.length ∧ ∀ j, p.length / 8 + 9 ≤ j → p'[j]? = p[j]?
  := by
  obtain ⟨p', r', h⟩ := read_isSome r hp
  obtain ⟨-, hlen, hframe⟩ := read_frame h
  obtain rfl := read_state h
  exact ⟨p', h, hlen, hframe⟩

/-- A slice of 80 bytes: bytes 19 to 79 are returned as they were. -/
theorem read_long_eighty :
  11 ≤ (List.replicate 80 (0 : BitVec 8)).length ∧
    ∃ p', read ⟨0, 1⟩ (List.replicate 80 0) =
        some ((List.replicate 80 (0 : BitVec 8)).length, p',
          step^[((List.replicate 80 (0 : BitVec 8)).length / 8 + 7) / 8] ⟨0, 1⟩) ∧
      p'.length = (List.replicate 80 (0 : BitVec 8)).length ∧
      ∀ j, (List.replicate 80 (0 : BitVec 8)).length / 8 + 9 ≤ j →
        p'[j]? = (List.replicate 80 (0 : BitVec 8))[j]?
  := ⟨by decide, read_long ⟨0, 1⟩ (by decide)⟩

/-- A call on the generator. -/
inductive Call where
  | uint64
  | int64
  | read (p : List (BitVec 8))
deriving DecidableEq, Repr

/-- The state after a sequence of calls; `none` where a `Read` panics. -/
def run (r : Xor128Rand) : List Call → Option Xor128Rand
  | [] => some r
  | .uint64 :: cs => run (uint64 r).2 cs
  | .int64 :: cs => run (int64 r).2 cs
  | .read p :: cs => (read r p).bind fun res => run res.2.2 cs

/-- Every state a run reaches is an iterate of the update. -/
theorem run_iterate {r r' : Xor128Rand} {cs : List Call} (h : run r cs = some r') :
  ∃ k, r' = step^[k] r
  := by
  induction cs generalizing r with
  | nil => cases h; exact ⟨0, rfl⟩
  | cons c cs ih =>
    cases c with
    | uint64 | int64 =>
      obtain ⟨k, rfl⟩ := ih h
      exact ⟨k + 1, (Function.iterate_succ_apply step k r).symm⟩
    | read p =>
      obtain ⟨⟨n, p', r₁⟩, hread, h⟩ := Option.bind_eq_some.mp h
      obtain ⟨k, rfl⟩ := ih h
      rw [read_state hread, ← Function.iterate_add_apply]
      exact ⟨_, rfl⟩

/-- The update of the state by `Uint64` is a bijection of the pairs of words, and `(0, 0)` is a
fixed point at which `Uint64` and `Int64` return `0`. From any other state, no iterate of the
update is `(0, 0)`, so no sequence of `Uint64`, `Int64` and `Read` calls reaches it. -/
theorem step_bijective_avoids_zero :
  Function.Bijective step ∧ uint64 ⟨0, 0⟩ = (0, ⟨0, 0⟩) ∧ int64 ⟨0, 0⟩ = (0, ⟨0, 0⟩) ∧
    ∀ r : Xor128Rand, r ≠ ⟨0, 0⟩ →
      (∀ k, step^[k] r ≠ ⟨0, 0⟩) ∧ ∀ cs r', run r cs = some r' → r' ≠ ⟨0, 0⟩
  := by
  refine ⟨step_bijective, by decide, by decide, fun r hr => ⟨iterate_ne_zero hr, ?_⟩⟩
  intro cs r' h
  obtain ⟨k, rfl⟩ := run_iterate h
  exact iterate_ne_zero hr k

end Xor128Rand

end Rand

end AerospikeClient

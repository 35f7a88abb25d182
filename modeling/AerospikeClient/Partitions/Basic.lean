import AerospikeClient.Types
import Mathlib.Data.List.Basic

/-!
# Partitions

A namespace's `Partitions`: the node of each partition at each replica index, the
strong-consistency flag, and the regime of each partition. The partition count `_PARTITIONS`
is a package constant that is not among the sources; the model takes it as a parameter.

`setReplicaCount` grows the replica rows by appending empty rows and shrinks them by truncation.
Over any sequence of calls (`setReplicaCount_foldl`) the rows are the first `m` original rows,
`m` the least of the original row count and every count asked for, followed by empty rows up
to the last count: a row dropped once never comes back with its old nodes.
-/

namespace AerospikeClient

/-- `Partitions`: `Replicas[replica][partition]` is the node, `none` for `nil`. -/
structure Partitions where
  Replicas : List (List (Option Node))
  SCMode : Bool
  regimes : List Int
deriving DecidableEq, Repr

namespace Partitions

/-- `newPartitions(partitionCount, replicaCount, cpMode)`: empty rows and zero regimes. -/
def newPartitions (partitionCount replicaCount : Nat) (cpMode : Bool) : Partitions :=
  ⟨List.replicate replicaCount (List.replicate partitionCount none), cpMode,
    List.replicate partitionCount 0⟩

/-- `clone()`: new rows and regimes with the same contents. -/
def clone (p : Partitions) : Partitions :=
  ⟨p.Replicas.map fun r => r.map id, p.SCMode, p.regimes.map id⟩

section ReplicaCount

variable (_PARTITIONS : Nat)

/-- `make([]*Node, _PARTITIONS)`: a row of `nil` nodes. -/
def emptyRow : List (Option Node) := List.replicate _PARTITIONS none

/-- `setReplicaCount(replicaCount)`: a row count below `replicaCount` is extended by appending
empty rows one at a time; any other is cut to its first `replicaCount` rows. -/
def setReplicaCount (p : Partitions) (replicaCount : Nat) : Partitions :=
  if p.Replicas.length < replicaCount then
    { p with Replicas :=
        p.Replicas ++ List.replicate (replicaCount - p.Replicas.length) (emptyRow _PARTITIONS) }
  else { p with Replicas := p.Replicas.take replicaCount }

@[simp] theorem setReplicaCount_SCMode (p : Partitions) (n : Nat) :
  (setReplicaCount _PARTITIONS p n).SCMode = p.SCMode
  := by
  unfold setReplicaCount
  split_ifs <;> rfl

@[simp] theorem setReplicaCount_regimes (p : Partitions) (n : Nat) :
  (setReplicaCount _PARTITIONS p n).regimes = p.regimes
  := by
  unfold setReplicaCount
  split_ifs <;> rfl

@[simp] theorem setReplicaCount_length (p : Partitions) (n : Nat) :
  (setReplicaCount _PARTITIONS p n).Replicas.length = n
  := by
  unfold setReplicaCount
  split_ifs with h
  · simp only [List.length_append, List.length_replicate]
    omega
  · simp only [List.length_take]
    omega

/-- What a run of `setReplicaCount` keeps of the rows of `p₀`: the first `m`, followed by empty
rows. -/
def KeepsRows (p₀ : Partitions) (m : Nat) (p : Partitions) : Prop :=
  m ≤ p₀.Replicas.length ∧ m ≤ p.Replicas.length ∧
    p.Replicas = p₀.Replicas.take m ++
      List.replicate (p.Replicas.length - m) (emptyRow _PARTITIONS)

theorem keepsRows_refl (p₀ : Partitions) :
  KeepsRows _PARTITIONS p₀ p₀.Replicas.length p₀
  := by
  simp [KeepsRows]

/-- One call keeps the first `min m n` rows: a grow appends empty rows after the kept ones, a
shrink cuts into the empty rows or into the kept ones. -/
theorem keepsRows_step {p₀ p : Partitions} {m : Nat} (h : KeepsRows _PARTITIONS p₀ m p)
    (n : Nat) :
  KeepsRows _PARTITIONS p₀ (min m n) (setReplicaCount _PARTITIONS p n)
  := by
  obtain ⟨h₀, hm, hrows⟩ := h
  refine ⟨by omega, by simp only [setReplicaCount_length]; omega, ?_⟩
  rw [setReplicaCount_length]
  unfold setReplicaCount
  split_ifs with hgrow
  · rw [hrows, Nat.min_eq_left (by omega), List.append_assoc, List.append_replicate_replicate]
    simp only [List.length_append, List.length_take, List.length_replicate]
    congr 2
    omega
  · have htake : (p₀.Replicas.take m).length = m := by
      rw [List.length_take]
      omega
    show p.Replicas.take n = _
    rw [hrows, List.take_append_eq_append_take, List.take_take, htake, List.take_replicate]
    rw [Nat.min_comm n m]
    by_cases hnm : n ≤ m
    · rw [Nat.min_eq_right hnm, Nat.sub_eq_zero_of_le hnm, Nat.sub_self]
      simp
    · rw [Nat.min_eq_left (by omega), show min (n - m) (p.Replicas.length - m) = n - m by omega]

/-- Over a run of calls, the kept rows are the first `m` for `m` the least count so far. -/
theorem keepsRows_foldl {p₀ p : Partitions} {m : Nat} (h : KeepsRows _PARTITIONS p₀ m p)
    (ns : List Nat) :
  KeepsRows _PARTITIONS p₀ (ns.foldl min m) (ns.foldl (setReplicaCount _PARTITIONS) p)
  := by
  induction ns generalizing m p with
  | nil => exact h
  | cons n ns ih => exact ih (keepsRows_step _PARTITIONS h n)

theorem foldl_setReplicaCount_SCMode (p : Partitions) (ns : List Nat) :
  (ns.foldl (setReplicaCount _PARTITIONS) p).SCMode = p.SCMode ∧
    (ns.foldl (setReplicaCount _PARTITIONS) p).regimes = p.regimes
  := by
  induction ns generalizing p with
  | nil => exact ⟨rfl, rfl⟩
  | cons n ns ih =>
    obtain ⟨h₁, h₂⟩ := ih (setReplicaCount _PARTITIONS p n)
    exact ⟨h₁.trans (setReplicaCount_SCMode _ p n), h₂.trans (setReplicaCount_regimes _ p n)⟩

/-- After `setReplicaCount(n₁); …; setReplicaCount(nₖ)` there are `nₖ` rows; each row below
`m`, the least of the original row count and every `nᵢ`, is the original row; every other row
is empty; `regimes` and `SCMode` are unchanged; so rows and regimes of length `_PARTITIONS`
stay so. -/
theorem setReplicaCount_foldl (p : Partitions) (ns : List Nat) (n : Nat) :
  let q := (ns ++ [n]).foldl (setReplicaCount _PARTITIONS) p
  let m := (ns ++ [n]).foldl min p.Replicas.length
  q.Replicas.length = n ∧
    (∀ i < m, q.Replicas[i]? = p.Replicas[i]?) ∧
    (∀ i, m ≤ i → i < n → q.Replicas[i]? = some (emptyRow _PARTITIONS)) ∧
    q.regimes = p.regimes ∧ q.SCMode = p.SCMode ∧
    ((∀ r ∈ p.Replicas, r.length = _PARTITIONS) → p.regimes.length = _PARTITIONS →
      (∀ r ∈ q.Replicas, r.length = _PARTITIONS) ∧ q.regimes.length = _PARTITIONS)
  := by
  intro q m
  have hlen : q.Replicas.length = n := by
    simp only [q, List.foldl_append, List.foldl_cons, List.foldl_nil, setReplicaCount_length]
  obtain ⟨h₀, hm, hrows⟩ := keepsRows_foldl _PARTITIONS (keepsRows_refl _PARTITIONS p) (ns ++ [n])
  obtain ⟨hsc, hreg⟩ := foldl_setReplicaCount_SCMode _PARTITIONS p (ns ++ [n])
  have hrows' : q.Replicas = p.Replicas.take m ++
      List.replicate (q.Replicas.length - m) (emptyRow _PARTITIONS) := hrows
  have hmq : m ≤ q.Replicas.length := hm
  have hm₀ : m ≤ p.Replicas.length := h₀
  refine ⟨hlen, fun i hi => ?_, fun i hi hin => ?_, hreg, hsc, fun hr hg => ⟨?_, hreg ▸ hg⟩⟩
  · rw [hrows', List.getElem?_append_left (by rw [List.length_take]; omega), List.getElem?_take,
      if_pos hi]
  · rw [hrows', List.getElem?_append_right (by rw [List.length_take]; omega),
      List.getElem?_replicate, if_pos (by rw [List.length_take]; omega)]
  · rw [hrows']
    intro r hmem
    rcases List.mem_append.mp hmem with hmem | hmem
    · exact hr r (List.mem_of_mem_take hmem)
    · rw [List.eq_of_mem_replicate hmem, emptyRow, List.length_replicate]

end ReplicaCount

end Partitions

end AerospikeClient

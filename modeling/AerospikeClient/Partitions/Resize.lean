import AerospikeClient.Partitions.Validate

/-!
# What `validate` reports of new and resized tables

The rows `newPartitions` and `setReplicaCount` add are made by `make`, so every node in them is
`nil`; `validate` reports those nodes and nothing else.

* A namespace made by `newPartitions(_PARTITIONS, r, cpMode)` fails `validate` as soon as it has
  a row of partitions: every partition misses its master, and, past the first row, its
  replicas (`validate_newPartitions`).
* A namespace that passes `validate` still passes it after any sequence of `setReplicaCount`
  calls that keeps its master row and ends below the least count so far; otherwise `validate`
  reports the nodes of the empty rows the calls appended, all replicas
  (`validate_setReplicaCount_foldl`).
-/

namespace AerospikeClient

/-- The `range` loops visit the only entry of a map of at most one entry. -/
theorem RangeOrder.order_toList (o : RangeOrder) (e : Option (String × List Nat)) :
  o.order e.toList = e.toList
  := by
  cases e with
  | none => exact (o.perm []).eq_nil
  | some e => exact List.perm_singleton.mp (o.perm [e])

section Single

variable (types : Types) (_PARTITIONS : Nat)

theorem filterMap_entry_single {f : String × Partitions → Option (String × List Nat)}
    {g : Partitions → List Nat} (hf : ∀ x, f x = if g x.2 = [] then none else some (x.1, g x.2))
    (o : RangeOrder) (msg : String → Nat → String) (x : String × Partitions) :
  ((o.order ([x].filterMap f)).map fun e => msg e.1 e.2.length).reverse =
    if (g x.2).length = 0 then [] else [msg x.1 (g x.2).length]
  := by
  have hx : [x].filterMap f = (f x).toList := by
    simp only [List.filterMap_cons, List.filterMap_nil]
    cases f x <;> rfl
  rw [hx, RangeOrder.order_toList, hf]
  by_cases h : g x.2 = [] <;> simp [h]

/-- The messages for a namespace of regimes and rows of the right length: the `nil` nodes of its
replica rows, then those of its master row. -/
theorem reportedMsgs_single (x : String × Partitions) (hx : rangeMsgs _PARTITIONS x = [])
    (masterOrder replicaOrder : RangeOrder) :
  reportedMsgs _PARTITIONS ⟨[x], List.nodup_singleton x.1⟩ masterOrder replicaOrder =
    (if x.2.Replicas.tail.flatten.count none = 0 then []
      else [replicaNotDefinedMsg x.1 (x.2.Replicas.tail.flatten.count none)]) ++
    (if (x.2.Replicas.headD []).count none = 0 then []
      else [masterNotDefinedMsg _PARTITIONS x.1 ((x.2.Replicas.headD []).count none)])
  := by
  unfold reportedMsgs
  dsimp only
  rw [filterMap_entry_single (f := replicaEntry) (g := fun p => replicaNils p.Replicas.enum)
      (fun _ => rfl),
    filterMap_entry_single (f := masterEntry) (g := fun p => masterNils p.Replicas.enum)
      (fun _ => rfl),
    length_replicaNils_enum, length_masterNils_enum, List.flatMap_singleton, hx, List.reverse_nil,
    List.append_nil]

/-- `rangeMsgs` is empty for regimes and rows of length `_PARTITIONS`. -/
theorem rangeMsgs_eq_nil {x : String × Partitions} (hreg : x.2.regimes.length = _PARTITIONS)
    (hrows : ∀ row ∈ x.2.Replicas, row.length = _PARTITIONS) :
  rangeMsgs _PARTITIONS x = []
  := by
  simp only [rangeMsgs, rowMsgs, hreg, ne_eq, not_true_eq_false, if_false, List.nil_append,
    List.filterMap_eq_nil_iff]
  intro row hrow
  rw [if_neg (not_not.mpr (hrows _ (List.snd_mem_of_mem_enum hrow)))]

theorem validate_single (x : String × Partitions) (hx : rangeMsgs _PARTITIONS x = [])
    (masterOrder replicaOrder : RangeOrder) :
  validate types _PARTITIONS ⟨[x], List.nodup_singleton x.1⟩ masterOrder replicaOrder =
    if x.2.Replicas.tail.flatten.count none = 0 ∧ (x.2.Replicas.headD []).count none = 0 then none
    else some (.aerospike (ErrInvalidPartitionMap types).AerospikeError
      (((if x.2.Replicas.tail.flatten.count none = 0 then []
        else [replicaNotDefinedMsg x.1 (x.2.Replicas.tail.flatten.count none)]) ++
      (if (x.2.Replicas.headD []).count none = 0 then []
        else [masterNotDefinedMsg _PARTITIONS x.1 ((x.2.Replicas.headD []).count none)])).map
        (commonLink types)))
  := by
  rw [validate_eq, reportedMsgs_single _PARTITIONS x hx]
  by_cases hR : x.2.Replicas.tail.flatten.count none = 0 <;>
    by_cases hM : (x.2.Replicas.headD []).count none = 0 <;> simp [hR, hM]

/-! ### A new table -/

theorem rangeMsgs_newPartitions (nsName : String) (replicaCount : Nat) (cpMode : Bool) :
  rangeMsgs _PARTITIONS (nsName, Partitions.newPartitions _PARTITIONS replicaCount cpMode) = []
  := rangeMsgs_eq_nil _PARTITIONS (List.length_replicate _ _) fun row hrow => by
    rw [List.eq_of_mem_replicate hrow, List.length_replicate]

/-- `validate` of a namespace made by `newPartitions(_PARTITIONS, replicaCount, cpMode)`: with a
row and a partition, a copy of `ErrInvalidPartitionMap` over the count of partitions with no
replica node when there is a replica row, then the count of those with no master node, which is
every partition. -/
theorem validate_newPartitions (nsName : String) (replicaCount : Nat) (cpMode : Bool)
    (masterOrder replicaOrder : RangeOrder) :
  validate types _PARTITIONS
      ⟨[(nsName, Partitions.newPartitions _PARTITIONS replicaCount cpMode)],
        List.nodup_singleton nsName⟩ masterOrder replicaOrder =
    if replicaCount * _PARTITIONS = 0 then none
    else some (.aerospike (ErrInvalidPartitionMap types).AerospikeError
      (((if (replicaCount - 1) * _PARTITIONS = 0 then []
        else [replicaNotDefinedMsg nsName ((replicaCount - 1) * _PARTITIONS)]) ++
        [masterNotDefinedMsg _PARTITIONS nsName _PARTITIONS]).map (commonLink types)))
  := by
  rw [validate_single types _PARTITIONS _ (rangeMsgs_newPartitions _PARTITIONS _ _ _)]
  cases replicaCount with
  | zero => simp [Partitions.newPartitions]
  | succ r =>
    simp only [Partitions.newPartitions, List.tail_replicate, List.flatten_replicate_replicate,
      List.count_replicate_self, List.replicate_succ, List.headD_cons, Nat.add_sub_cancel]
    by_cases hP : _PARTITIONS = 0 <;> simp [hP, Nat.mul_eq_zero]

/-! ### A resized table -/

theorem count_none_flatten_eq_zero {rows : List (List (Option Node))}
    (h : ∀ row ∈ rows, none ∉ row) :
  rows.flatten.count none = 0
  := List.count_eq_zero.mpr fun hmem => by
    obtain ⟨row, hrow, hn⟩ := List.mem_flatten.mp hmem
    exact h row hrow hn

/-- Rows and regimes of length `_PARTITIONS` stay so over a run of `setReplicaCount`: the rows
it appends are empty rows of that length. -/
theorem rangeMsgs_foldl_setReplicaCount {nsName : String} {p : Partitions}
    (hreg : p.regimes.length = _PARTITIONS) (hrows : ∀ row ∈ p.Replicas, row.length = _PARTITIONS)
    (ns : List Nat) :
  rangeMsgs _PARTITIONS (nsName, ns.foldl (Partitions.setReplicaCount _PARTITIONS) p) = []
  := by
  obtain ⟨-, -, hq⟩ := Partitions.keepsRows_foldl _PARTITIONS
    (Partitions.keepsRows_refl _PARTITIONS p) ns
  refine rangeMsgs_eq_nil _PARTITIONS ?_ fun row hrow => ?_
  · rw [(Partitions.foldl_setReplicaCount_SCMode _PARTITIONS p ns).2, hreg]
  · rw [hq] at hrow
    rcases List.mem_append.mp hrow with hrow | hrow
    · exact hrows row (List.mem_of_mem_take hrow)
    · rw [List.eq_of_mem_replicate hrow, Partitions.emptyRow, List.length_replicate]

/-- After `setReplicaCount(n₁); …; setReplicaCount(nₖ)` on a namespace that passes `validate`,
with `m` the least of its row count and every `nᵢ`: once no row is left of the original, the
namespace validates as a new one of `nₖ` rows; otherwise `validate` returns `nil` when no row was
appended after the `m` kept ones, and else reports the `(nₖ - m) · _PARTITIONS` nodes of the
appended rows, as replica nodes. -/
theorem validate_setReplicaCount_foldl {nsName : String} {p : Partitions}
    {masterOrder replicaOrder : RangeOrder}
    (hp : validate types _PARTITIONS ⟨[(nsName, p)], List.nodup_singleton nsName⟩
      masterOrder replicaOrder = none)
    (counts : List Nat) (n : Nat) :
  let q := (counts ++ [n]).foldl (Partitions.setReplicaCount _PARTITIONS) p
  let m := (counts ++ [n]).foldl min p.Replicas.length
  validate types _PARTITIONS ⟨[(nsName, q)], List.nodup_singleton nsName⟩
      masterOrder replicaOrder =
    if m = 0 then
      validate types _PARTITIONS
        ⟨[(nsName, Partitions.newPartitions _PARTITIONS n p.SCMode)], List.nodup_singleton nsName⟩
        masterOrder replicaOrder
    else if (n - m) * _PARTITIONS = 0 then none
    else some (.aerospike (ErrInvalidPartitionMap types).AerospikeError
      [commonLink types (replicaNotDefinedMsg nsName ((n - m) * _PARTITIONS))])
  := by
  intro q m
  obtain ⟨hreg, hrows⟩ := (validate_eq_none_iff types _PARTITIONS _ masterOrder replicaOrder).mp
    hp _ (List.mem_singleton_self _)
  obtain ⟨hm₀, -, hq⟩ := Partitions.keepsRows_foldl _PARTITIONS
    (Partitions.keepsRows_refl _PARTITIONS p) (counts ++ [n])
  have hlen : q.Replicas.length = n := by
    simp only [q, List.foldl_append, List.foldl_cons, List.foldl_nil,
      Partitions.setReplicaCount_length]
  have hq' : q.Replicas =
      p.Replicas.take m ++ List.replicate (n - m) (Partitions.emptyRow _PARTITIONS) := by
    rw [← hlen]
    exact hq
  have hx : rangeMsgs _PARTITIONS (nsName, q) = [] :=
    rangeMsgs_foldl_setReplicaCount _PARTITIONS hreg (fun row h => (hrows row h).1) _
  rw [validate_single types _PARTITIONS _ hx]
  by_cases hm : m = 0
  · -- no original row is left: the rows are those of a new table
    rw [if_pos hm, validate_single types _PARTITIONS _ (rangeMsgs_newPartitions _PARTITIONS _ _ _)]
    simp only [hq', hm, List.take_zero, List.nil_append, Nat.sub_zero, Partitions.newPartitions,
      Partitions.emptyRow]
  · -- the master row is an original one, with no `nil` node
    rw [if_neg hm]
    obtain ⟨a, t, ht⟩ := List.exists_cons_of_ne_nil (show p.Replicas.take m ≠ [] by
      rw [ne_eq, List.take_eq_nil_iff, not_or]
      exact ⟨hm, fun h => hm (Nat.eq_zero_of_le_zero (hm₀.trans (List.length_eq_zero.mpr h).le))⟩)
    have hsub : ∀ row ∈ a :: t, none ∉ row := fun row hrow =>
      (hrows row (List.mem_of_mem_take (ht ▸ hrow))).2
    simp only [hq', ht, List.cons_append, List.tail_cons, List.headD_cons,
      List.count_eq_zero.mpr (hsub a (List.mem_cons_self a t)), List.flatten_append,
      List.count_append, count_none_flatten_eq_zero fun row h => hsub row (List.mem_cons_of_mem a h),
      List.flatten_replicate_replicate, Partitions.emptyRow, List.count_replicate_self,
      Nat.zero_add]
    by_cases hk : (n - m) * _PARTITIONS = 0 <;> simp [hk]

end Single

/-- A full table of one row, grown to two rows: `validate` reports the one partition of the new
row. -/
theorem validate_setReplicaCount_foldl_grow :
  validate Types.distinct 1 ⟨[("test", ⟨[[some ⟨0⟩]], false, [0]⟩)], List.nodup_singleton _⟩
      .id .id = none ∧
    validate Types.distinct 1
      ⟨[("test", Partitions.setReplicaCount 1 ⟨[[some ⟨0⟩]], false, [0]⟩ 2)],
        List.nodup_singleton _⟩ .id .id =
      some (.aerospike (ErrInvalidPartitionMap Types.distinct).AerospikeError
        [commonLink Types.distinct (replicaNotDefinedMsg "test" 1)])
  := by
  have hp : validate Types.distinct 1
      ⟨[("test", ⟨[[some ⟨0⟩]], false, [0]⟩)], List.nodup_singleton _⟩ .id .id = none := by
    decide
  exact ⟨hp, validate_setReplicaCount_foldl Types.distinct 1 hp [] 2⟩

end AerospikeClient

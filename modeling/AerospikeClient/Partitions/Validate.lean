import AerospikeClient.Error.Matches
import AerospikeClient.Partitions.Basic
import Mathlib.Data.List.Perm.Basic
import Mathlib.Data.List.Nodup

/-!
# Validating the partition map

`validate` ranges over the namespaces of the partition map, chains a `COMMON_ERROR` for a wrong
regime count and for every replica row of the wrong length, and collects the partitions with no
node into two Go maps, one for the master row and one for the others. When anything was found it
then chains one `COMMON_ERROR` per namespace of each map, and an `INVALID_CLUSTER_PARTITION_MAP`
copy of `ErrInvalidPartitionMap` on top. The order of `sync.Map.Range` is the order of the map's
entries; the orders of the two Go `range` loops are arguments.

`validate_spec` says what comes out, for every map and every order: `nil` exactly when every
regime count and row length is `_PARTITIONS` and no row has a `nil` node; otherwise a chain
whose head has code `INVALID_CLUSTER_PARTITION_MAP` over one `COMMON_ERROR` link for each defect
`defects` lists, in some order. Every namespace with rows then has a node at every partition of
its master row (`validate_master_row`); a namespace with no rows has no master row, and passes
exactly when it has `_PARTITIONS` regimes, as `newPartitions(_PARTITIONS, 0, cpMode)` has
(`validate_zero_rows`). `Matches` and `errors.Is` classify every error `validate` returns alike:
`INVALID_CLUSTER_PARTITION_MAP` and `COMMON_ERROR`, and no other code (`validate_matches`).
-/

namespace AerospikeClient

/-- `partitionMap`: the `sync.Map` from namespace names to their `Partitions`, as its entries in
the order `Range` visits them, each namespace once. -/
structure PartitionMap where
  m : List (String × Partitions)
  nodup : (m.map Prod.fst).Nodup

/-- The order in which a Go `range` visits the entries of a `map[string][]int`: Go leaves it
unspecified, so it is an argument of the model, which visits every entry once. -/
structure RangeOrder where
  order : List (String × List Nat) → List (String × List Nat)
  perm : ∀ l, (order l).Perm l

/-- Visiting the entries in the order their keys were first written. -/
def RangeOrder.id : RangeOrder := ⟨fun l => l, List.Perm.refl⟩

/-- `m[key] = append(m[key], v)` on a `map[string][]int`, kept as its entries in the order their
keys were first written. -/
def appendAt (key : String) (v : Nat) : List (String × List Nat) → List (String × List Nat)
  | [] => [(key, [v])]
  | (k, l) :: m => if k = key then (k, l ++ [v]) :: m else (k, l) :: appendAt key v m

/-- An `Error` passed where an `error` is expected: `nil` stays `nil`. -/
def errChain : Option Error → List Link
  | none => []
  | some e => e.chain

section Validate

variable (types : Types) (_PARTITIONS : Nat)

/-- `errs = chainErrors(newError(types.COMMON_ERROR, msg), errs)`. -/
def chainCommon (msg : String) (errs : Option Error) : Option Error :=
  chainErrors types (some (newError types types.COMMON_ERROR [msg])) (errChain errs)

/-- The message for a wrong regime count. -/
def wrongRegimesMsg (nsName : String) (found : Nat) : String :=
  "Wrong number of regimes for namespace `" ++ nsName ++ "`. Must be " ++
    toString _PARTITIONS ++ ", but found " ++ toString found ++ "."

/-- The message for a replica row of the wrong length. -/
def wrongPartitionsMsg (nsName : String) (replica found : Nat) : String :=
  "Wrong number of partitions for namespace `" ++ nsName ++ "`, replica `" ++
    toString replica ++ "`. Must be " ++ toString _PARTITIONS ++ ", but found " ++
    toString found ++ "."

/-- The message for a namespace with partitions that have no master node. -/
def masterNotDefinedMsg (nsName : String) (count : Nat) : String :=
  "Master partition nodes not defined for namespace `" ++ nsName ++ "`: " ++ toString count ++
    " out of " ++ toString _PARTITIONS

/-- The message for a namespace with partitions that miss a replica node. -/
def replicaNotDefinedMsg (nsName : String) (count : Nat) : String :=
  "Replica partition nodes not defined for namespace `" ++ nsName ++ "`: " ++ toString count

/-- What `validate` accumulates while ranging: the chained errors, and the two maps from
namespaces to the partitions with no node. -/
structure ValidateState where
  errs : Option Error
  masterNodePartitionNotDefined : List (String × List Nat)
  replicaNodePartitionNotDefined : List (String × List Nat)

/-- One step of `for pIndex, node := range partitionNodes`: a `nil` node is recorded under the
namespace, in the master map for replica `0` and in the other map otherwise. -/
def visitNode (nsName : String) (replica : Nat) (st : ValidateState)
    (entry : Nat × Option Node) : ValidateState :=
  match entry.2 with
  | some _ => st
  | none =>
    if replica = 0 then
      { st with masterNodePartitionNotDefined :=
          appendAt nsName entry.1 st.masterNodePartitionNotDefined }
    else
      { st with replicaNodePartitionNotDefined :=
          appendAt nsName entry.1 st.replicaNodePartitionNotDefined }

/-- One step of `for replica, partitionNodes := range partition.Replicas`. -/
def visitRow (nsName : String) (st : ValidateState) (row : Nat × List (Option Node)) :
    ValidateState :=
  let st := if row.2.length ≠ _PARTITIONS then
      { st with errs := chainCommon types (wrongPartitionsMsg _PARTITIONS nsName row.1
          row.2.length) st.errs }
    else st
  row.2.enum.foldl (visitNode nsName row.1) st

/-- The callback `validate` hands to `Range`, for one namespace. -/
def visitNamespace (st : ValidateState) (entry : String × Partitions) : ValidateState :=
  let st := if entry.2.regimes.length ≠ _PARTITIONS then
      { st with errs := chainCommon types (wrongRegimesMsg _PARTITIONS entry.1
          entry.2.regimes.length) st.errs }
    else st
  entry.2.Replicas.enum.foldl (visitRow types _PARTITIONS entry.1) st

/-- `pm.validate()`, with `masterOrder` and `replicaOrder` the orders of the two `range` loops
over the Go maps. -/
def validate (pm : PartitionMap) (masterOrder replicaOrder : RangeOrder) : Option Error :=
  let st := pm.m.foldl (visitNamespace types _PARTITIONS) ⟨none, [], []⟩
  if st.errs.isSome || !st.masterNodePartitionNotDefined.isEmpty ||
      !st.replicaNodePartitionNotDefined.isEmpty then
    let errs := (masterOrder.order st.masterNodePartitionNotDefined).foldl
      (fun errs e => chainCommon types (masterNotDefinedMsg _PARTITIONS e.1 e.2.length) errs)
      st.errs
    let errs := (replicaOrder.order st.replicaNodePartitionNotDefined).foldl
      (fun errs e => chainCommon types (replicaNotDefinedMsg e.1 e.2.length) errs) errs
    chainErrors types (some (ErrInvalidPartitionMap types).err) (errChain errs)
  else none

end Validate

/-! ### The state reached while ranging -/

section Ranging

variable (types : Types) (_PARTITIONS : Nat)

/-- The link `chainCommon` puts on top of the chain: a `COMMON_ERROR` with the message. -/
def commonLink (msg : String) : Link := .aerospike ⟨msg, none, types.COMMON_ERROR, false, 0⟩

/-- The errors made of the common links with messages `E`, the first on top; `nil` for none. -/
def commonErrs (E : List String) : Option Error := Error.ofChain? (E.map (commonLink types))

theorem errChain_commonErrs (E : List String) :
  errChain (commonErrs types E) = E.map (commonLink types)
  := by
  cases E <;> rfl

theorem commonErrs_isSome (E : List String) :
  (commonErrs types E).isSome = !E.isEmpty
  := by
  cases E <;> rfl

theorem chainCommon_commonErrs (msg : String) (E : List String) :
  chainCommon types msg (commonErrs types E) = commonErrs types (msg :: E)
  := by
  cases E <;> rfl

theorem foldl_chainCommon {α : Type} (f : α → String) (l : List α) (E : List String) :
  l.foldl (fun errs e => chainCommon types (f e) errs) (commonErrs types E) =
    commonErrs types ((l.map f).reverse ++ E)
  := by
  induction l generalizing E with
  | nil => rfl
  | cons a l ih =>
    rw [List.foldl_cons, chainCommon_commonErrs, ih]
    simp

theorem appendAt_of_not_mem {key : String} {m : List (String × List Nat)}
    (h : key ∉ m.map Prod.fst) (v : Nat) :
  appendAt key v m = m ++ [(key, [v])]
  := by
  induction m with
  | nil => rfl
  | cons e m ih =>
    simp only [List.map_cons, List.mem_cons, not_or] at h
    simp only [appendAt, if_neg (Ne.symm h.1), ih h.2, List.cons_append]

theorem appendAt_append_of_not_mem {key : String} {m : List (String × List Nat)}
    (h : key ∉ m.map Prod.fst) (l : List Nat) (v : Nat) :
  appendAt key v (m ++ [(key, l)]) = m ++ [(key, l ++ [v])]
  := by
  induction m with
  | nil => simp [appendAt]
  | cons e m ih =>
    obtain ⟨k, l'⟩ := e
    simp only [List.map_cons, List.mem_cons, not_or] at h
    simp only [List.cons_append, appendAt, if_neg (Ne.symm h.1), List.append_eq, ih h.2]

/-- A map with the entry `(key, l)` added last when `l` is not empty. -/
def withEntry (m : List (String × List Nat)) (key : String) (l : List Nat) :
    List (String × List Nat) :=
  if l = [] then m else m ++ [(key, l)]

theorem appendAt_withEntry {key : String} {m : List (String × List Nat)}
    (h : key ∉ m.map Prod.fst) (l : List Nat) (v : Nat) :
  appendAt key v (withEntry m key l) = withEntry m key (l ++ [v])
  := by
  by_cases hl : l = []
  · simp [withEntry, hl, appendAt_of_not_mem h]
  · simp [withEntry, hl, appendAt_append_of_not_mem h]

/-- The indices of the `nil` nodes among enumerated entries, in order. -/
def nils (entries : List (Nat × Option Node)) : List Nat :=
  entries.filterMap fun e => if e.2 = none then some e.1 else none

theorem foldl_visitNode (nsName : String) (replica : Nat) (entries : List (Nat × Option Node))
    (errs : Option Error) {m r : List (String × List Nat)} (hm : nsName ∉ m.map Prod.fst)
    (hr : nsName ∉ r.map Prod.fst) (L R : List Nat) :
  entries.foldl (visitNode nsName replica) ⟨errs, withEntry m nsName L, withEntry r nsName R⟩ =
    ⟨errs, withEntry m nsName (if replica = 0 then L ++ nils entries else L),
      withEntry r nsName (if replica = 0 then R else R ++ nils entries)⟩
  := by
  induction entries generalizing L R with
  | nil => simp [nils]
  | cons e entries ih =>
    obtain ⟨i, node⟩ := e
    cases node with
    | some n => simpa [nils, visitNode] using ih L R
    | none =>
      by_cases h0 : replica = 0
      · simp only [List.foldl_cons, visitNode, if_pos h0, appendAt_withEntry hm, ih]
        simp [nils, h0]
      · simp only [List.foldl_cons, visitNode, if_neg h0, appendAt_withEntry hr, ih]
        simp [nils, h0]

/-- The messages for the rows of the wrong length. -/
def rowMsgs (nsName : String) (rows : List (Nat × List (Option Node))) : List String :=
  rows.filterMap fun row =>
    if row.2.length ≠ _PARTITIONS then
      some (wrongPartitionsMsg _PARTITIONS nsName row.1 row.2.length)
    else none

/-- The `nil` nodes `validate` records in the master map. -/
def masterNils (rows : List (Nat × List (Option Node))) : List Nat :=
  rows.flatMap fun row => if row.1 = 0 then nils row.2.enum else []

/-- The `nil` nodes `validate` records in the replica map. -/
def replicaNils (rows : List (Nat × List (Option Node))) : List Nat :=
  rows.flatMap fun row => if row.1 = 0 then [] else nils row.2.enum

theorem visitRow_withEntry (nsName : String) (E : List String)
    {m r : List (String × List Nat)} (hm : nsName ∉ m.map Prod.fst)
    (hr : nsName ∉ r.map Prod.fst) (L R : List Nat) (replica : Nat)
    (nodes : List (Option Node)) :
  visitRow types _PARTITIONS nsName
      ⟨commonErrs types E, withEntry m nsName L, withEntry r nsName R⟩ (replica, nodes) =
    ⟨commonErrs types ((if nodes.length ≠ _PARTITIONS then
        [wrongPartitionsMsg _PARTITIONS nsName replica nodes.length] else []) ++ E),
      withEntry m nsName (if replica = 0 then L ++ nils nodes.enum else L),
      withEntry r nsName (if replica = 0 then R else R ++ nils nodes.enum)⟩
  := by
  unfold visitRow
  dsimp only
  by_cases hlen : nodes.length = _PARTITIONS
  · simp only [ne_eq, hlen, not_true_eq_false, if_false, foldl_visitNode _ _ _ _ hm hr,
      List.nil_append]
  · simp only [ne_eq, hlen, not_false_eq_true, if_true, chainCommon_commonErrs,
      foldl_visitNode _ _ _ _ hm hr, List.singleton_append]

theorem foldl_visitRow (nsName : String) (rows : List (Nat × List (Option Node)))
    (E : List String) {m r : List (String × List Nat)} (hm : nsName ∉ m.map Prod.fst)
    (hr : nsName ∉ r.map Prod.fst) (L R : List Nat) :
  rows.foldl (visitRow types _PARTITIONS nsName)
      ⟨commonErrs types E, withEntry m nsName L, withEntry r nsName R⟩ =
    ⟨commonErrs types ((rowMsgs _PARTITIONS nsName rows).reverse ++ E),
      withEntry m nsName (L ++ masterNils rows), withEntry r nsName (R ++ replicaNils rows)⟩
  := by
  induction rows generalizing E L R with
  | nil => simp [rowMsgs, masterNils, replicaNils]
  | cons row rows ih =>
    obtain ⟨replica, nodes⟩ := row
    rw [List.foldl_cons, visitRow_withEntry types _PARTITIONS nsName E hm hr, ih]
    by_cases hlen : nodes.length = _PARTITIONS <;> by_cases h0 : replica = 0 <;>
      simp [rowMsgs, masterNils, replicaNils, hlen, h0]

/-- The messages `validate` chains for a namespace while ranging: a wrong regime count, then the
rows of the wrong length. -/
def rangeMsgs (x : String × Partitions) : List String :=
  (if x.2.regimes.length ≠ _PARTITIONS then
    [wrongRegimesMsg _PARTITIONS x.1 x.2.regimes.length] else []) ++
    rowMsgs _PARTITIONS x.1 x.2.Replicas.enum

/-- The entry of a namespace in the master map, when it has a partition with no master. -/
def masterEntry (x : String × Partitions) : Option (String × List Nat) :=
  if masterNils x.2.Replicas.enum = [] then none else some (x.1, masterNils x.2.Replicas.enum)

/-- The entry of a namespace in the replica map, when some replica row misses a node. -/
def replicaEntry (x : String × Partitions) : Option (String × List Nat) :=
  if replicaNils x.2.Replicas.enum = [] then none else some (x.1, replicaNils x.2.Replicas.enum)

/-- The state `Range` reaches once it has visited the namespaces `pre`. -/
def rangeState (pre : List (String × Partitions)) : ValidateState :=
  ⟨commonErrs types (pre.flatMap (rangeMsgs _PARTITIONS)).reverse, pre.filterMap masterEntry,
    pre.filterMap replicaEntry⟩

theorem not_mem_keys_filterMap {f : String × Partitions → Option (String × List Nat)}
    (hf : ∀ x e, f x = some e → e.1 = x.1) {pre : List (String × Partitions)} {k : String}
    (hk : k ∉ pre.map Prod.fst) :
  k ∉ (pre.filterMap f).map Prod.fst
  := by
  intro h
  obtain ⟨e, he, rfl⟩ := List.mem_map.mp h
  obtain ⟨x, hx, hfx⟩ := List.mem_filterMap.mp he
  exact hk (List.mem_map.mpr ⟨x, hx, (hf x e hfx).symm⟩)

theorem withEntry_filterMap {f : String × Partitions → Option (String × List Nat)}
    {g : Partitions → List Nat} (hf : ∀ x, f x = if g x.2 = [] then none else some (x.1, g x.2))
    (pre : List (String × Partitions)) (x : String × Partitions) :
  withEntry (pre.filterMap f) x.1 ([] ++ g x.2) = (pre ++ [x]).filterMap f
  := by
  rw [List.filterMap_append, List.nil_append, withEntry]
  split_ifs with h <;> simp [hf, h]

theorem visitNamespace_rangeState (pre : List (String × Partitions)) (x : String × Partitions)
    (hx : x.1 ∉ pre.map Prod.fst) :
  visitNamespace types _PARTITIONS (rangeState types _PARTITIONS pre) x =
    rangeState types _PARTITIONS (pre ++ [x])
  := by
  have hf : ∀ (f : String × Partitions → Option (String × List Nat))
      (g : Partitions → List Nat), (∀ x, f x = if g x.2 = [] then none else some (x.1, g x.2)) →
      x.1 ∉ (pre.filterMap f).map Prod.fst := fun f g hfg =>
    not_mem_keys_filterMap (fun y e h => by rw [hfg] at h; split_ifs at h; cases h; rfl) hx
  have hm := hf masterEntry (fun p => masterNils p.Replicas.enum) fun _ => rfl
  have hr := hf replicaEntry (fun p => replicaNils p.Replicas.enum) fun _ => rfl
  have e₁ : pre.filterMap masterEntry = withEntry (pre.filterMap masterEntry) x.1 [] :=
    (if_pos rfl).symm
  have e₂ : pre.filterMap replicaEntry = withEntry (pre.filterMap replicaEntry) x.1 [] :=
    (if_pos rfl).symm
  have hM := withEntry_filterMap (f := masterEntry) (g := fun p => masterNils p.Replicas.enum)
    (fun _ => rfl) pre x
  have hR := withEntry_filterMap (f := replicaEntry) (g := fun p => replicaNils p.Replicas.enum)
    (fun _ => rfl) pre x
  unfold visitNamespace rangeState
  dsimp only
  rw [e₁, e₂]
  by_cases hreg : x.2.regimes.length = _PARTITIONS
  · simp only [ne_eq, hreg, not_true_eq_false, if_false]
    rw [foldl_visitRow types _PARTITIONS x.1 _ _ hm hr, hM, hR]
    simp [rangeMsgs, hreg]
  · simp only [ne_eq, hreg, not_false_eq_true, if_true]
    rw [chainCommon_commonErrs, foldl_visitRow types _PARTITIONS x.1 _ _ hm hr, hM, hR]
    simp [rangeMsgs, hreg]

/-- `Range` over the namespaces `l` after `pre`: each namespace is a fresh key of both maps. -/
theorem foldl_visitNamespace (pre l : List (String × Partitions))
    (h : ((pre ++ l).map Prod.fst).Nodup) :
  l.foldl (visitNamespace types _PARTITIONS) (rangeState types _PARTITIONS pre) =
    rangeState types _PARTITIONS (pre ++ l)
  := by
  induction l generalizing pre with
  | nil => simp
  | cons x l ih =>
    have hx : x.1 ∉ pre.map Prod.fst := by
      rw [List.map_append, List.nodup_append] at h
      exact fun hmem => h.2.2 hmem (List.mem_cons_self _ _)
    rw [List.foldl_cons, visitNamespace_rangeState types _PARTITIONS pre x hx,
      ih (pre ++ [x]) (by simpa using h)]
    simp

end Ranging

/-! ### What `validate` returns -/

section Result

variable (types : Types) (_PARTITIONS : Nat)

/-- The messages of the links `validate` chains below its head, the last chained first. -/
def reportedMsgs (pm : PartitionMap) (masterOrder replicaOrder : RangeOrder) : List String :=
  ((replicaOrder.order (pm.m.filterMap replicaEntry)).map fun e =>
      replicaNotDefinedMsg e.1 e.2.length).reverse ++
    ((masterOrder.order (pm.m.filterMap masterEntry)).map fun e =>
      masterNotDefinedMsg _PARTITIONS e.1 e.2.length).reverse ++
    (pm.m.flatMap (rangeMsgs _PARTITIONS)).reverse

theorem chainErrors_some_of_ne_nil (x : Error) {w : List Link} (hw : w ≠ []) :
  chainErrors types (some x) w = some (.aerospike x.ae w)
  := by
  cases w with
  | nil => exact absurd rfl hw
  | cons l w => rfl

/-- `validate` returns `nil` when it reports nothing, and otherwise a copy of
`ErrInvalidPartitionMap` over the common links of the reported messages. -/
theorem validate_eq (pm : PartitionMap) (masterOrder replicaOrder : RangeOrder) :
  validate types _PARTITIONS pm masterOrder replicaOrder =
    if reportedMsgs _PARTITIONS pm masterOrder replicaOrder = [] then none
    else some (.aerospike (ErrInvalidPartitionMap types).AerospikeError
      ((reportedMsgs _PARTITIONS pm masterOrder replicaOrder).map (commonLink types)))
  := by
  have hst : pm.m.foldl (visitNamespace types _PARTITIONS) ⟨none, [], []⟩ =
      rangeState types _PARTITIONS pm.m :=
    foldl_visitNamespace types _PARTITIONS [] pm.m pm.nodup
  have hperm (o : RangeOrder) (l : List (String × List Nat)) : o.order l = [] ↔ l = [] :=
    by rw [← List.length_eq_zero, (o.perm l).length_eq, List.length_eq_zero]
  unfold validate
  simp only [hst, rangeState, foldl_chainCommon, errChain_commonErrs, reportedMsgs]
  by_cases hE : (pm.m.flatMap (rangeMsgs _PARTITIONS)) = [] <;>
    by_cases hM : pm.m.filterMap masterEntry = [] <;>
    by_cases hR : pm.m.filterMap replicaEntry = [] <;>
    simp [hE, hM, hR, hperm, commonErrs_isSome, chainErrors_some_of_ne_nil]

end Result

/-! ### The defects reported -/

section Spec

variable (types : Types) (_PARTITIONS : Nat)

/-- The defects of a namespace, each as the message of the link that reports it: a regime count
other than `_PARTITIONS`; each replica row of another length; the number of `nil` nodes in the
master row, when there are any; and the number of `nil` nodes in the other rows, when there are
any. -/
def defects (x : String × Partitions) : List String :=
  (if x.2.regimes.length ≠ _PARTITIONS then
    [wrongRegimesMsg _PARTITIONS x.1 x.2.regimes.length] else []) ++
  (x.2.Replicas.enum.filterMap fun row => if row.2.length ≠ _PARTITIONS then
    some (wrongPartitionsMsg _PARTITIONS x.1 row.1 row.2.length) else none) ++
  (if (x.2.Replicas.headD []).count none = 0 then []
    else [masterNotDefinedMsg _PARTITIONS x.1 ((x.2.Replicas.headD []).count none)]) ++
  (if x.2.Replicas.tail.flatten.count none = 0 then []
    else [replicaNotDefinedMsg x.1 (x.2.Replicas.tail.flatten.count none)])

theorem length_nils_enumFrom (k : Nat) (row : List (Option Node)) :
  (nils (row.enumFrom k)).length = row.count none
  := by
  induction row generalizing k with
  | nil => rfl
  | cons a row ih =>
    cases a <;> simp [nils, List.count_cons, ← ih (k + 1)]

theorem length_nils_enum (row : List (Option Node)) :
  (nils row.enum).length = row.count none
  := length_nils_enumFrom 0 row

theorem masterNils_enumFrom_succ (k : Nat) (rows : List (List (Option Node))) :
  masterNils (rows.enumFrom (k + 1)) = []
  := by
  induction rows generalizing k with
  | nil => rfl
  | cons r rows ih => simpa [masterNils] using ih (k + 1)

theorem length_replicaNils_enumFrom_succ (k : Nat) (rows : List (List (Option Node))) :
  (replicaNils (rows.enumFrom (k + 1))).length = rows.flatten.count none
  := by
  induction rows generalizing k with
  | nil => rfl
  | cons r rows ih =>
    have := ih (k + 1)
    simp only [replicaNils] at this ⊢
    simp [this, length_nils_enum, List.count_append]

theorem length_masterNils_enum (rows : List (List (Option Node))) :
  (masterNils rows.enum).length = (rows.headD []).count none
  := by
  cases rows with
  | nil => rfl
  | cons r rows =>
    have := masterNils_enumFrom_succ 0 rows
    simp only [masterNils, Nat.zero_add] at this ⊢
    simp [List.enum_cons, this, length_nils_enum]

theorem length_replicaNils_enum (rows : List (List (Option Node))) :
  (replicaNils rows.enum).length = rows.tail.flatten.count none
  := by
  cases rows with
  | nil => rfl
  | cons r rows =>
    have := length_replicaNils_enumFrom_succ 0 rows
    simp only [replicaNils, Nat.zero_add] at this ⊢
    simpa [List.enum_cons] using this

theorem map_filterMap_entry {f : String × Partitions → Option (String × List Nat)}
    {g : Partitions → List Nat} (hf : ∀ x, f x = if g x.2 = [] then none else some (x.1, g x.2))
    (msg : String → Nat → String) (l : List (String × Partitions)) :
  (l.filterMap f).map (fun e => msg e.1 e.2.length) =
    l.flatMap fun x => if (g x.2).length = 0 then [] else [msg x.1 (g x.2).length]
  := by
  induction l with
  | nil => rfl
  | cons x l ih =>
    rw [List.filterMap_cons, hf, List.flatMap_cons, ← ih]
    by_cases h : g x.2 = [] <;> simp [h]

/-- The messages `validate` reports are the defects of the namespaces, in some order. -/
theorem reportedMsgs_perm (pm : PartitionMap) (masterOrder replicaOrder : RangeOrder) :
  (reportedMsgs _PARTITIONS pm masterOrder replicaOrder).Perm (pm.m.flatMap (defects _PARTITIONS))
  := by
  have hM := @map_filterMap_entry masterEntry (fun p => masterNils p.Replicas.enum) (fun _ => rfl)
    (masterNotDefinedMsg _PARTITIONS) pm.m
  have hR := @map_filterMap_entry replicaEntry (fun p => replicaNils p.Replicas.enum) (fun _ => rfl)
    replicaNotDefinedMsg pm.m
  simp only [length_masterNils_enum, length_replicaNils_enum] at hM hR
  have hD : pm.m.flatMap (defects _PARTITIONS) = pm.m.flatMap fun x => rangeMsgs _PARTITIONS x ++
      ((if (x.2.Replicas.headD []).count none = 0 then []
        else [masterNotDefinedMsg _PARTITIONS x.1 ((x.2.Replicas.headD []).count none)]) ++
      (if x.2.Replicas.tail.flatten.count none = 0 then []
        else [replicaNotDefinedMsg x.1 (x.2.Replicas.tail.flatten.count none)])) := by
    congr 1
    funext x
    simp only [defects, rangeMsgs, rowMsgs, List.append_assoc]
  unfold reportedMsgs
  refine ((((List.reverse_perm _).trans ((replicaOrder.perm _).map _)).append
    ((List.reverse_perm _).trans ((masterOrder.perm _).map _))).append
    (List.reverse_perm _)).trans ?_
  rw [hM, hR, hD]
  exact List.perm_append_comm.trans (((List.perm_append_comm).trans
    (List.flatMap_append_perm _ _ _)).append_left _) |>.trans (List.flatMap_append_perm _ _ _)

/-- A namespace has no defect exactly when its regime count and every row length are
`_PARTITIONS` and no row has a `nil` node. -/
theorem defects_eq_nil_iff (x : String × Partitions) :
  defects _PARTITIONS x = [] ↔ x.2.regimes.length = _PARTITIONS ∧
    ∀ row ∈ x.2.Replicas, row.length = _PARTITIONS ∧ none ∉ row
  := by
  have hrows : (x.2.Replicas.enum.filterMap fun row => if row.2.length ≠ _PARTITIONS then
      some (wrongPartitionsMsg _PARTITIONS x.1 row.1 row.2.length) else none) = [] ↔
      ∀ row ∈ x.2.Replicas, row.length = _PARTITIONS := by
    rw [List.filterMap_eq_nil_iff]
    conv_rhs => rw [← List.enum_map_snd x.2.Replicas]
    rw [List.forall_mem_map]
    simp
  simp only [defects, List.append_eq_nil]
  rw [hrows]
  clear hrows
  obtain ⟨nsName, rows, scMode, regimes⟩ := x
  cases rows with
  | nil => simp
  | cons r rows =>
    simp only [List.headD_cons, List.tail_cons, List.count_eq_zero, List.mem_flatten,
      List.forall_mem_cons, imp_and, forall_and]
    simp
    tauto

/-- `validate` returns `nil` exactly when no namespace has a defect. -/
theorem validate_eq_none_iff (pm : PartitionMap) (masterOrder replicaOrder : RangeOrder) :
  validate types _PARTITIONS pm masterOrder replicaOrder = none ↔
    ∀ x ∈ pm.m, x.2.regimes.length = _PARTITIONS ∧
      ∀ row ∈ x.2.Replicas, row.length = _PARTITIONS ∧ none ∉ row
  := by
  have hp := (reportedMsgs_perm _PARTITIONS pm masterOrder replicaOrder).length_eq
  rw [validate_eq]
  simp only [ite_eq_left_iff, reduceCtorEq, imp_false, not_not]
  rw [← List.length_eq_zero, hp, List.length_eq_zero, List.flatMap_eq_nil_iff]
  exact forall₂_congr fun x _ => defects_eq_nil_iff _PARTITIONS x

/-- `validate` returns `nil` exactly when every namespace has `_PARTITIONS` regimes and replica
rows of `_PARTITIONS` nodes, none of them `nil`; any error it returns is a copy of
`ErrInvalidPartitionMap` over one `COMMON_ERROR` link for each defect of each namespace. -/
theorem validate_spec (pm : PartitionMap) (masterOrder replicaOrder : RangeOrder) :
  (validate types _PARTITIONS pm masterOrder replicaOrder = none ↔
      ∀ x ∈ pm.m, x.2.regimes.length = _PARTITIONS ∧
        ∀ row ∈ x.2.Replicas, row.length = _PARTITIONS ∧ none ∉ row) ∧
    ∀ e, validate types _PARTITIONS pm masterOrder replicaOrder = some e →
      e.resultCode = types.INVALID_CLUSTER_PARTITION_MAP ∧
      e.unwrap.Perm ((pm.m.flatMap (defects _PARTITIONS)).map fun msg =>
        Link.aerospike ⟨msg, none, types.COMMON_ERROR, false, 0⟩)
  := by
  refine ⟨validate_eq_none_iff types _PARTITIONS pm masterOrder replicaOrder, fun e he => ?_⟩
  rw [validate_eq] at he
  split_ifs at he
  cases he
  exact ⟨rfl, (reportedMsgs_perm _PARTITIONS pm masterOrder replicaOrder).map _⟩

theorem aerospikeCodes_map_commonLink (msgs : List String) :
  aerospikeCodes (msgs.map (commonLink types)) = List.replicate msgs.length types.COMMON_ERROR
  := by
  induction msgs with
  | nil => rfl
  | cons m msgs ih => rw [List.map_cons, List.length_cons, List.replicate_succ, ← ih]; rfl

theorem errorCodes_map_commonLink (msgs : List String) :
  errorCodes (msgs.map (commonLink types)) = List.replicate msgs.length types.COMMON_ERROR
  := by
  induction msgs with
  | nil => rfl
  | cons m msgs ih => rw [List.map_cons, List.length_cons, List.replicate_succ, ← ih]; rfl

/-- Every error `validate` returns `Matches` `INVALID_CLUSTER_PARTITION_MAP`, and another code
only if it is `COMMON_ERROR`, and `errors.Is` finds exactly these two codes: below the copy of
`ErrInvalidPartitionMap` there are only common errors, each a `*AerospikeError`, so the two walks
agree on it. -/
theorem validate_matches (pm : PartitionMap) (masterOrder replicaOrder : RangeOrder) {e : Error}
    (h : validate types _PARTITIONS pm masterOrder replicaOrder = some e) :
  (∀ rcs, e.matches rcs = true ↔
    types.INVALID_CLUSTER_PARTITION_MAP ∈ rcs ∨ types.COMMON_ERROR ∈ rcs) ∧
  ∀ rc, errorsIs (codeTarget rc) e.chain = true ↔
    rc = types.INVALID_CLUSTER_PARTITION_MAP ∨ rc = types.COMMON_ERROR
  := by
  rw [validate_eq] at h
  split_ifs at h with hmsgs
  cases h
  have hlen : (reportedMsgs _PARTITIONS pm masterOrder replicaOrder).length ≠ 0 :=
    mt List.length_eq_zero.mp hmsgs
  refine ⟨fun rcs => ?_, fun rc => ?_⟩
  · rw [Error.matches_iff]
    simp [aerospikeCodes_map_commonLink, List.mem_replicate, hlen, ErrInvalidPartitionMap,
      newConstError]
  · rw [errorsIs_code_iff]
    simp [Error.chain, errorCodes, errorCodes_map_commonLink, List.mem_replicate, hlen,
      ErrInvalidPartitionMap, newConstError]

/-- A table whose one partition has no master: the error `validate` returns matches
`INVALID_CLUSTER_PARTITION_MAP` and `COMMON_ERROR`, and nothing else. -/
theorem validate_matches_nil_master :
  ∃ e, validate Types.distinct 1 ⟨[("test", ⟨[[none]], false, [0]⟩)], by decide⟩ .id .id =
      some e ∧
    (∀ rcs, e.matches rcs = true ↔ Types.distinct.INVALID_CLUSTER_PARTITION_MAP ∈ rcs ∨
      Types.distinct.COMMON_ERROR ∈ rcs) ∧
    ∀ rc, errorsIs (codeTarget rc) e.chain = true ↔
      rc = Types.distinct.INVALID_CLUSTER_PARTITION_MAP ∨ rc = Types.distinct.COMMON_ERROR
  := by
  obtain ⟨e, h⟩ : ∃ e,
      validate Types.distinct 1 ⟨[("test", ⟨[[none]], false, [0]⟩)], by decide⟩ .id .id = some e :=
    ⟨_, rfl⟩
  exact ⟨e, h, validate_matches Types.distinct 1 _ .id .id h⟩

/-- When `validate` returns `nil`, the master row of every namespace that has replica rows holds
a node at every partition index. A namespace with no replica row has no master row, and a map
holding only it passes `validate` exactly when it has `_PARTITIONS` regimes. -/
theorem validate_master_row :
  (∀ (pm : PartitionMap) (masterOrder replicaOrder : RangeOrder),
    validate types _PARTITIONS pm masterOrder replicaOrder = none →
      ∀ x ∈ pm.m, ∀ master ∈ x.2.Replicas.head?, ∀ j < _PARTITIONS,
        ∃ node, master[j]? = some (some node)) ∧
  ∀ (nsName : String) (p : Partitions) (masterOrder replicaOrder : RangeOrder),
    p.Replicas = [] →
      (validate types _PARTITIONS ⟨[(nsName, p)], List.nodup_singleton nsName⟩ masterOrder
        replicaOrder = none ↔ p.regimes.length = _PARTITIONS)
  := by
  refine ⟨fun pm mo ro h x hx master hmaster j hj => ?_, fun nsName p mo ro hp => ?_⟩
  · obtain ⟨-, hrows⟩ := (validate_eq_none_iff types _PARTITIONS pm mo ro).mp h x hx
    obtain ⟨hlen, hnil⟩ := hrows master (List.mem_of_mem_head? hmaster)
    have hget : master[j]? = some master[j] := List.getElem?_eq_getElem (by omega)
    cases hj' : master[j] with
    | none => exact absurd (List.getElem?_mem (hj' ▸ hget)) hnil
    | some node => exact ⟨node, hj' ▸ hget⟩
  · simp [validate_eq_none_iff, hp]

/-- A full table of one row passes `validate`, and has a node at its one partition; a table of no
row and two regimes, for one partition, fails it. -/
theorem validate_master_row_single :
  validate Types.distinct 1 ⟨[("test", ⟨[[some ⟨0⟩]], false, [0]⟩)], by decide⟩ .id .id =
      none ∧
    (∀ x ∈ [("test", (⟨[[some ⟨0⟩]], false, [0]⟩ : Partitions))],
      ∀ master ∈ x.2.Replicas.head?, ∀ j < 1, ∃ node, master[j]? = some (some node)) ∧
    (validate Types.distinct 1 ⟨[("test", ⟨[], false, [0, 0]⟩)], by decide⟩ .id .id =
        none ↔ ([0, 0] : List Nat).length = 1)
  := by
  have h : validate Types.distinct 1 ⟨[("test", ⟨[[some ⟨0⟩]], false, [0]⟩)], by decide⟩
      .id .id = none := by decide
  exact ⟨h, (validate_master_row Types.distinct 1).1 _ .id .id h,
    (validate_master_row Types.distinct 1).2 "test" ⟨[], false, [0, 0]⟩ .id .id rfl⟩

end Spec

/-- A namespace with no replica rows passes `validate`: `newPartitions(_PARTITIONS, 0, false)`
has `_PARTITIONS` regimes and no row, so no master row, whatever the orders of the loops. -/
theorem validate_zero_rows :
  (∀ (types : Types) (partitions : Nat) (masterOrder replicaOrder : RangeOrder),
    validate types partitions
      ⟨[("test", Partitions.newPartitions partitions 0 false)], by simp⟩
      masterOrder replicaOrder = none) ∧
    ∀ partitions : Nat, (Partitions.newPartitions partitions 0 false).Replicas.head? = none
  := by
  refine ⟨fun types partitions mo ro => (validate_eq_none_iff types partitions _ mo ro).mpr ?_,
    fun _ => rfl⟩
  simp [Partitions.newPartitions]

end AerospikeClient

import AerospikeClient.Error.Basic

/-!
# What `Matches` finds

`Matches` looks at the receiver's own code and then, through `errors.As`, at the codes of the
`*AerospikeError` links below it, and at nothing else: `matches_iff` says it is true exactly
when one of `ase.ResultCode :: aerospikeCodes w` is among the codes asked for. `errors.Is`
against a fresh `*AerospikeError` with a code instead accepts every link that has an `Is`
method, constants included (`errorsIs_code_iff`), so the two part ways on a chain with a
constant below its head: `chainErrors(newError(COMMON_ERROR), ErrTimeout)` is the smallest
(`matches_chainErrors_const`). One way they agree: a code `Matches` finds is one `errors.Is`
finds (`errorsIs_of_matches`).

`newNodeError` copies the record `errors.As` finds in its argument's chain. For a constant passed
as is, `errors.As` finds nothing and the copy is the zero record (`newNodeError_const`), which for
`ErrTimeout` has lost the code `TIMEOUT` (`newNodeError_ErrTimeout`).
-/

namespace AerospikeClient

/-- The codes of the `*AerospikeError` links of a chain, the links `errors.As` stops at. -/
def aerospikeCodes : List Link → List ResultCode
  | [] => []
  | .aerospike e :: w => e.ResultCode :: aerospikeCodes w
  | .const _ :: w => aerospikeCodes w
  | .foreign :: w => aerospikeCodes w

/-- The codes of the links of a chain that implement `Error`: the `*AerospikeError` and the
`*constAerospikeError` links. -/
def errorCodes : List Link → List ResultCode
  | [] => []
  | .aerospike e :: w => e.ResultCode :: errorCodes w
  | .const e :: w => e.ResultCode :: errorCodes w
  | .foreign :: w => errorCodes w

theorem aerospikeCodes_of_errorsAs_some {l w : List Link} {e : AerospikeError}
    (h : errorsAs l = some (e, w)) :
  aerospikeCodes l = e.ResultCode :: aerospikeCodes w
  := by
  induction l with
  | nil => cases h
  | cons x l ih =>
    cases x with
    | aerospike e' =>
      obtain ⟨rfl, rfl⟩ := Prod.mk.inj (Option.some.inj h)
      rfl
    | const _ => exact ih h
    | foreign => exact ih h

theorem aerospikeCodes_of_errorsAs_none {l : List Link} (h : errorsAs l = none) :
  aerospikeCodes l = []
  := by
  induction l with
  | nil => rfl
  | cons x l ih =>
    cases x with
    | aerospike _ => cases h
    | const _ => exact ih h
    | foreign => exact ih h

/-- `Matches` is true exactly when the receiver's code or the code of a `*AerospikeError` link
below it is asked for. -/
theorem AerospikeError.matches_iff (ase : AerospikeError) (w : List Link)
    (rcs : List AerospikeClient.ResultCode) :
  ase.matches w rcs = true ↔ ∃ c ∈ ase.ResultCode :: aerospikeCodes w, c ∈ rcs
  := by
  induction ase, w, rcs using AerospikeError.matches.induct with
  | case1 ase w rcs hempty =>
    rw [List.isEmpty_iff] at hempty
    subst hempty
    simp [AerospikeError.matches]
  | case2 ase w rcs hempty hany =>
    rw [AerospikeError.matches, if_neg hempty, if_pos hany]
    simp only [List.any_eq_true, beq_iff_eq] at hany
    obtain ⟨rc, hrc, rfl⟩ := hany
    exact iff_of_true rfl ⟨_, List.mem_cons_self _ _, hrc⟩
  | case3 ase w rcs hempty hany ae w' has ih =>
    rw [AerospikeError.matches, if_neg hempty, if_neg hany]
    simp only [List.any_eq_true, beq_iff_eq, not_exists, not_and] at hany
    split
    next ae'' w'' has' =>
      obtain ⟨rfl, rfl⟩ := Prod.mk.inj (Option.some.inj (has.symm.trans has'))
      rw [ih, aerospikeCodes_of_errorsAs_some has]
      simp only [List.mem_cons, exists_eq_or_imp]
      exact ⟨Or.inr, fun h => h.resolve_left fun h' => hany _ h' rfl⟩
    next has' => cases has.symm.trans has'
  | case4 ase w rcs hempty hany hnone =>
    rw [AerospikeError.matches, if_neg hempty, if_neg hany]
    simp only [List.any_eq_true, beq_iff_eq, not_exists, not_and] at hany
    split
    next has' => cases hnone.symm.trans has'
    · simp only [aerospikeCodes_of_errorsAs_none hnone, List.mem_singleton, exists_eq_left,
        Bool.false_eq_true, false_iff]
      exact fun h => hany _ h rfl

theorem Error.matches_iff (x : Error) (rcs : List ResultCode) :
  x.matches rcs = true ↔ ∃ c ∈ x.ae.ResultCode :: aerospikeCodes x.unwrap, c ∈ rcs
  := x.ae.matches_iff x.unwrap rcs

/-- The target `errors.Is` is handed to ask for a code: `&AerospikeError{ResultCode: rc}`. -/
def codeTarget (rc : ResultCode) : AerospikeError := { AerospikeError.zero with ResultCode := rc }

@[simp] theorem is_codeTarget (e : AerospikeError) (rc : ResultCode) :
  e.is (codeTarget rc) = (e.ResultCode == rc)
  := by
  simp [AerospikeError.is, codeTarget, AerospikeError.zero]

/-- `errors.Is(err, &AerospikeError{ResultCode: rc})` accepts a chain exactly when one of its
`Error` links, constants included, has the code `rc`. -/
theorem errorsIs_code_iff (l : List Link) (rc : ResultCode) :
  errorsIs (codeTarget rc) l = true ↔ rc ∈ errorCodes l
  := by
  induction l with
  | nil => simp [errorsIs, errorCodes]
  | cons x l ih =>
    cases x <;> simp only [errorsIs, errorCodes, is_codeTarget, Bool.or_eq_true, beq_iff_eq, ih,
      List.mem_cons, @eq_comm _ rc]

/-! ### Chaining -/

section Chaining

variable (types : Types)

/-- `chainErrors(newError(COMMON_ERROR), ErrTimeout)` with `ErrTimeout` passed as is: `Matches`
finds `TIMEOUT` only if it is the common error's code, where `errors.Is` finds it below. -/
theorem matches_chainErrors_const :
  chainErrors types (some (newError types types.COMMON_ERROR [])) (ErrTimeout types).toError.chain
      = some (.aerospike (newError types types.COMMON_ERROR []).ae [.const (ErrTimeout types).AerospikeError]) ∧
    (Error.aerospike (newError types types.COMMON_ERROR []).ae
      [.const (ErrTimeout types).AerospikeError]).matches [types.TIMEOUT]
      = (types.COMMON_ERROR == types.TIMEOUT) ∧
    errorsIs (codeTarget types.TIMEOUT)
      (Error.aerospike (newError types types.COMMON_ERROR []).ae
        [.const (ErrTimeout types).AerospikeError]).chain = true ∧
    (ErrTimeout types).toError.matches [types.TIMEOUT] = true
  := by
  refine ⟨rfl, ?_, ?_, ?_⟩
  · rw [Bool.eq_iff_iff, Error.matches_iff]
    simp only [Error.ae_aerospike, Error.unwrap_aerospike, aerospikeCodes, newError_ae,
      List.mem_singleton, exists_eq_left, beq_eq_decide, decide_eq_true_iff]
  · rw [errorsIs_code_iff]
    simp [Error.chain, errorCodes, ErrTimeout, newConstError]
  · rw [Error.matches_iff]
    simp [ErrTimeout, newConstError]

end Chaining

/-! ### `Matches` and `errors.Is` -/

theorem aerospikeCodes_subset_errorCodes (l : List Link) : aerospikeCodes l ⊆ errorCodes l := by
  induction l with
  | nil => exact List.nil_subset _
  | cons x l ih =>
    cases x with
    | aerospike e => exact List.cons_subset_cons _ ih
    | const e => exact fun _ ha => List.mem_cons_of_mem _ (ih ha)
    | foreign => exact ih

/-- Whatever `Matches` finds, `errors.Is` finds too: a code it matches is the code of an `Error`
link of the chain. -/
theorem errorsIs_of_matches (x : Error) {rcs : List ResultCode} (h : x.matches rcs = true) :
  ∃ rc ∈ rcs, errorsIs (codeTarget rc) x.chain = true
  := by
  obtain ⟨rc, hrc, hin⟩ := (Error.matches_iff x rcs).mp h
  refine ⟨rc, hin, (errorsIs_code_iff _ rc).mpr ?_⟩
  have hcodes : errorCodes x.chain = x.ae.ResultCode :: errorCodes x.unwrap := by
    cases x <;> rfl
  rw [hcodes]
  rcases List.mem_cons.mp hrc with rfl | hrc
  · exact List.mem_cons_self _ _
  · exact List.mem_cons_of_mem _ (aerospikeCodes_subset_errorCodes _ hrc)

/-- `ErrTimeout.err()` matches `TIMEOUT`, and `errors.Is` finds it. -/
theorem errorsIs_of_matches_ErrTimeout :
  (ErrTimeout Types.distinct).err.matches [Types.distinct.TIMEOUT] = true ∧
    ∃ rc ∈ [Types.distinct.TIMEOUT],
      errorsIs (codeTarget rc) (ErrTimeout Types.distinct).err.chain = true
  := by
  have h : (ErrTimeout Types.distinct).err.matches [Types.distinct.TIMEOUT] = true := by
    rw [Error.matches_iff]
    simp [ErrTimeout, newConstError]
  exact ⟨h, errorsIs_of_matches _ h⟩

/-! ### Attaching a node -/

/-- `newNodeError(node, c)` for a constant `c` passed as is: `errors.As` finds no
`*AerospikeError`, so the copy is the zero record, with code `0`, attributed to `node`. -/
theorem newNodeError_const (node : Option Node) (c : ConstAerospikeError) :
  newNodeError node (some c.toError) =
    some (.aerospike { AerospikeError.zero with Node := node } c.toError.chain)
  := rfl

/-- `newNodeError(node, ErrTimeout)` with the constant passed as is: the copy has code `0` and an
empty message where `ErrTimeout` has `TIMEOUT` and its own, and it matches `TIMEOUT` only if that
code is `0`, where `ErrTimeout` matches it. -/
theorem newNodeError_ErrTimeout (types : Types) (node : Option Node) :
  ∃ x, newNodeError node (some (ErrTimeout types).toError) = some x ∧
    x.resultCode = 0 ∧ x.ae.msg = "" ∧ x.ae.Node = node ∧
    x.unwrap = (ErrTimeout types).toError.chain ∧
    x.matches [types.TIMEOUT] = ((0 : ResultCode) == types.TIMEOUT) ∧
    (ErrTimeout types).toError.resultCode = types.TIMEOUT ∧
    (ErrTimeout types).toError.matches [types.TIMEOUT] = true
  := by
  refine ⟨_, newNodeError_const node _, rfl, rfl, rfl, rfl, ?_, rfl, ?_⟩
  · rw [Bool.eq_iff_iff, Error.matches_iff]
    simp [Error.chain, aerospikeCodes, AerospikeError.zero]
  · rw [Error.matches_iff]
    simp [ErrTimeout, newConstError]

end AerospikeClient

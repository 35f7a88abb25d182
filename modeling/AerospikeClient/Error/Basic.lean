import AerospikeClient.Types
import Mathlib

/-!
# Errors

An error is modelled by the chain its `Unwrap` method walks, outermost link first, each link
named by its dynamic type: a `*AerospikeError`, a `*constAerospikeError` (a package constant
passed as is), or an error of another package. Only the first two implement the `Error`
interface, so a non-nil `Error` is one of them with its record and the chain it wraps; a Go
`Error` that may be `nil` is an `Option Error`.

The constructors (`newError` and its variants, the package constants and their `err`,
`chainErrors`, `newNodeError`, `newInvalidNodeError`) and the context mutators (`iter`,
`setNode`, `setInDoubt`, `markInDoubt`, `markInDoubtIf`, `wrap`) are value updates here; the
sharing of records the mutators make observable is modelled in `AerospikeClient.Error.Store`.
The readers are `errorsAs` and `errorsIs`, the standard library's walks down the chain, and
the methods `Is`, `Matches`, `IsInDoubt` and `Unwrap`.
-/

namespace AerospikeClient

/-- The fields of an `AerospikeError` that the modelled functions read or write, `wrapped`
apart: what a link wraps is the rest of its chain. -/
structure AerospikeError where
  msg : String
  Node : Option Node
  ResultCode : ResultCode
  InDoubt : Bool
  Iteration : Int
deriving DecidableEq, Repr

namespace AerospikeError

/-- The zero value, which `new(AerospikeError)` points to. -/
def zero : AerospikeError := ⟨"", none, 0, false, 0⟩

/-- `(*AerospikeError).Is` against the record of a target: the same code, the same node unless
the target has none, and the same in-doubt flag when the target's is set. -/
def is (ase target : AerospikeError) : Bool :=
  (ase.ResultCode == target.ResultCode && (ase.Node == target.Node || target.Node == none)) &&
    (!target.InDoubt || ase.InDoubt == target.InDoubt)

end AerospikeError

/-- One link of an error chain, by its dynamic type. -/
inductive Link where
  /-- A `*AerospikeError`. -/
  | aerospike (e : AerospikeError)
  /-- A `*constAerospikeError`, with the record it embeds. -/
  | const (e : AerospikeError)
  /-- An error of another package, with neither an `As` nor an `Is` method. -/
  | foreign
deriving DecidableEq, Repr

/-- A non-nil value of the `Error` interface, with its record and the chain it wraps. -/
inductive Error where
  /-- A `*AerospikeError`. -/
  | aerospike (e : AerospikeError) (wrapped : List Link)
  /-- A `*constAerospikeError`; its methods are the promoted ones of the record it embeds. -/
  | const (e : AerospikeError) (wrapped : List Link)
deriving DecidableEq, Repr

namespace Error

/-- The record the methods act on: the receiver's own, or the one a constant embeds. -/
def ae : Error → AerospikeError
  | aerospike e _ | const e _ => e

/-- `Unwrap()`: the chain below the receiver. -/
def unwrap : Error → List Link
  | aerospike _ w | const _ w => w

/-- The receiver as an `error`: the chain it heads. -/
def chain : Error → List Link
  | aerospike e w => .aerospike e :: w
  | const e w => .const e :: w

/-- The type assertion `err.(Error)`. -/
def ofChain? : List Link → Option Error
  | .aerospike e :: w => some (aerospike e w)
  | .const e :: w => some (const e w)
  | _ => none

@[simp] theorem ae_aerospike (e : AerospikeError) (w : List Link) : (aerospike e w).ae = e := rfl
@[simp] theorem ae_const (e : AerospikeError) (w : List Link) : (const e w).ae = e := rfl
@[simp] theorem unwrap_aerospike (e : AerospikeError) (w : List Link) :
  (aerospike e w).unwrap = w
  := rfl
@[simp] theorem unwrap_const (e : AerospikeError) (w : List Link) : (const e w).unwrap = w := rfl

@[simp] theorem ofChain?_chain (x : Error) : ofChain? x.chain = some x := by
  cases x <;> rfl

/-- `resultCode()`. -/
def resultCode (x : Error) : ResultCode := x.ae.ResultCode

/-- `IsInDoubt()`. -/
def isInDoubt (x : Error) : Bool := x.ae.InDoubt

/-! ### Context mutators

Each is a method with a pointer receiver that writes the record and returns the receiver, whose
dynamic type is `*AerospikeError` even when the method is promoted from a constant. -/

/-- The receiver returned after its record is updated by `f`. -/
def update (f : AerospikeError → AerospikeError) (x : Error) : Error :=
  aerospike (f x.ae) x.unwrap

@[simp] theorem update_ae (f : AerospikeError → AerospikeError) (x : Error) :
  (x.update f).ae = f x.ae
  := rfl

@[simp] theorem update_unwrap (f : AerospikeError → AerospikeError) (x : Error) :
  (x.update f).unwrap = x.unwrap
  := rfl

/-- `iter(i)`: the iteration is stored zero-based, as the Go `int` `i - 1`, which wraps at
`MinInt64`. -/
def iter (i : Int) : Error → Error :=
  update fun e => { e with Iteration := (i - 1).bmod (2 ^ 64) }

/-- `setInDoubt(isRead, commandWasSent)`: marks a write whose command was sent. -/
def setInDoubt (isRead commandWasSent : Bool) : Error → Error :=
  update fun e => if !isRead && commandWasSent then { e with InDoubt := true } else e

/-- `setNode(node)`. -/
def setNode (node : Option Node) : Error → Error := update fun e => { e with Node := node }

/-- `markInDoubt(v)`. -/
def markInDoubt (v : Bool) : Error → Error := update fun e => { e with InDoubt := v }

/-- `markInDoubtIf(inDoubt)`, whose body is that of `markInDoubt`. -/
def markInDoubtIf (inDoubt : Bool) : Error → Error := markInDoubt inDoubt

/-- `wrap(err)`. -/
def wrap (err : List Link) (x : Error) : Error := aerospike x.ae err

@[simp] theorem wrap_ae (err : List Link) (x : Error) : (x.wrap err).ae = x.ae := rfl
@[simp] theorem wrap_unwrap (err : List Link) (x : Error) : (x.wrap err).unwrap = err := rfl

end Error

/-! ### Walking the chain -/

/-- `errors.As(err, &ae)` for `ae` a `*AerospikeError`: the first link of the chain whose
dynamic type is `*AerospikeError`, with the chain it wraps. A `*constAerospikeError` is not
assignable to `*AerospikeError`, and the `As` method it promotes asserts its target to be a
`*AerospikeError` where it is handed a `**AerospikeError`, so the walk passes it by. -/
def errorsAs : List Link → Option (AerospikeError × List Link)
  | [] => none
  | .aerospike e :: w => some (e, w)
  | .const _ :: w => errorsAs w
  | .foreign :: w => errorsAs w

theorem errorsAs_length {l w : List Link} {e : AerospikeError}
    (h : errorsAs l = some (e, w)) :
  w.length < l.length
  := by
  induction l with
  | nil => cases h
  | cons x l ih =>
    cases x with
    | aerospike e' =>
      obtain ⟨-, rfl⟩ := Prod.mk.inj (Option.some.inj h)
      exact Nat.lt_succ_self _
    | const _ => exact Nat.lt_succ_of_lt (ih h)
    | foreign => exact Nat.lt_succ_of_lt (ih h)

/-- `errors.Is(err, target)` for a freshly allocated target `*AerospikeError`, which no link is
equal to: whether the `Is` method of some link of the chain accepts the target. -/
def errorsIs (target : AerospikeError) : List Link → Bool
  | [] => false
  | .aerospike e :: w => e.is target || errorsIs target w
  | .const e :: w => e.is target || errorsIs target w
  | .foreign :: w => errorsIs target w

/-- `(*AerospikeError).Matches(rcs...)` on a receiver with record `ase` wrapping `wrapped`:
the receiver's own code is looked up among `rcs`, and the search goes on from the record
`errors.As` finds below it. -/
def AerospikeError.matches (ase : AerospikeError) (wrapped : List Link)
    (rcs : List AerospikeClient.ResultCode) : Bool :=
  if rcs.isEmpty then false
  else if rcs.any (fun rc => ase.ResultCode == rc) then true
  else match h : errorsAs wrapped with
    | some (ae, w) => ae.matches w rcs
    | none => false
termination_by wrapped.length
decreasing_by exact errorsAs_length h

/-- `Matches(rcs...)`. -/
def Error.matches (x : Error) (rcs : List ResultCode) : Bool := x.ae.matches x.unwrap rcs

/-! ### Constructors -/

section Constructors

variable (types : Types)

/-- The message of a new error: the messages joined by blanks, or the code's default message
when there are none. -/
def joinMessages (code : ResultCode) (messages : List String) : String :=
  " ".intercalate (if messages.isEmpty then [types.ResultCodeToString code] else messages)

/-- `newError(code, messages...)`: a fresh `*AerospikeError` wrapping nothing. -/
def newError (code : ResultCode) (messages : List String) : Error :=
  .aerospike ⟨joinMessages types code messages, none, code, false, 0⟩ []

/-- `newErrorAndWrap(e, code, messages...)`. -/
def newErrorAndWrap (e : List Link) (code : ResultCode) (messages : List String) : Error :=
  (newError types code messages).wrap e

/-- `newTimeoutError(e, messages...)`. -/
def newTimeoutError (e : List Link) (messages : List String) : Error :=
  newErrorAndWrap types e types.TIMEOUT messages

/-- `newCommonError(e, messages...)`. -/
def newCommonError (e : List Link) (messages : List String) : Error :=
  newErrorAndWrap types e types.COMMON_ERROR messages

/-- `newWrapNetworkError(err, messages...)`. -/
def newWrapNetworkError (err : List Link) (messages : List String) : Error :=
  newErrorAndWrap types err types.NETWORK_ERROR messages

/-- `newCustomNodeError(node, code, messages...)`. -/
def newCustomNodeError (node : Option Node) (code : ResultCode) (messages : List String) :
    Error :=
  (newError types code messages).setNode node

@[simp] theorem newError_ae (code : ResultCode) (messages : List String) :
  (newError types code messages).ae = ⟨joinMessages types code messages, none, code, false, 0⟩
  := rfl

@[simp] theorem newError_unwrap (code : ResultCode) (messages : List String) :
  (newError types code messages).unwrap = []
  := rfl

end Constructors

/-- A `*constAerospikeError`: a package constant, with the record it embeds. -/
structure ConstAerospikeError where
  AerospikeError : AerospikeError
deriving DecidableEq, Repr

namespace ConstAerospikeError

/-- The constant passed as is, as an `Error`: it wraps nothing. -/
def toError (c : ConstAerospikeError) : Error := .const c.AerospikeError []

/-- `err()`: a copy of the embedded record, as a `*AerospikeError` wrapping nothing. -/
def err (c : ConstAerospikeError) : Error := .aerospike c.AerospikeError []

@[simp] theorem toError_ae (c : ConstAerospikeError) : c.toError.ae = c.AerospikeError := rfl
@[simp] theorem err_ae (c : ConstAerospikeError) : c.err.ae = c.AerospikeError := rfl
@[simp] theorem err_unwrap (c : ConstAerospikeError) : c.err.unwrap = [] := rfl

end ConstAerospikeError

section Constants

variable (types : Types)

/-- `newConstError(code, messages...)`. -/
def newConstError (code : ResultCode) (messages : List String) : ConstAerospikeError :=
  ⟨⟨joinMessages types code messages, none, code, false, 0⟩⟩

def ErrServerNotAvailable := newConstError types types.SERVER_NOT_AVAILABLE []
def ErrInvalidPartitionMap := newConstError types types.INVALID_CLUSTER_PARTITION_MAP
  ["Partition map errors normally occur when the cluster has partitioned due to network anomaly or node crash, or is not configured properly. Refer to https://www.aerospike.com/docs/operations/configure for more information."]
def ErrKeyNotFound := newConstError types types.KEY_NOT_FOUND_ERROR []
def ErrRecordsetClosed := newConstError types types.RECORDSET_CLOSED []
def ErrConnectionPoolEmpty := newConstError types types.NO_AVAILABLE_CONNECTIONS_TO_NODE
  ["connection pool is empty. This happens when no connections were available"]
def ErrConnectionPoolExhausted := newConstError types types.NO_AVAILABLE_CONNECTIONS_TO_NODE
  ["Connection pool is exhausted. This happens when all connection are in-use already, and opening more connections is not allowed due to the limits set in policy.ConnectionQueueSize and policy.LimitConnectionsToQueueSize"]
def ErrTooManyConnectionsForNode := newConstError types types.NO_AVAILABLE_CONNECTIONS_TO_NODE
  ["connection limit reached for this node. This value is controlled via ClientPolicy.LimitConnectionsToQueueSize"]
def ErrTooManyOpeningConnections := newConstError types types.NO_AVAILABLE_CONNECTIONS_TO_NODE
  ["too many connections are trying to open at once. This value is controlled via ClientPolicy.OpeningConnectionThreshold"]
def ErrTimeout := newConstError types types.TIMEOUT
  ["command execution timed out on client: See `Policy.Timeout`"]
def ErrNetTimeout := newConstError types types.TIMEOUT ["network timeout"]
def ErrUDFBadResponse := newConstError types types.UDF_BAD_RESPONSE ["invalid UDF return value"]
def ErrNoOperationsSpecified := newConstError types types.INVALID_COMMAND
  ["no operations were passed to QueryExecute"]
def ErrNoBinNamesAllowedInQueryExecute := newConstError types types.INVALID_COMMAND
  ["`Statement.BinNames` must be empty for QueryExecute"]
def ErrFilteredOut := newConstError types types.FILTERED_OUT []
def ErrPartitionScanQueryNotSupported := newConstError types types.PARAMETER_ERROR
  ["partition Scans/Queries are not supported by all nodes in this cluster"]
def ErrScanTerminated := newConstError types types.SCAN_TERMINATED []
def ErrQueryTerminated := newConstError types types.QUERY_TERMINATED []
def ErrClusterIsEmpty := newConstError types types.INVALID_NODE_ERROR ["cluster is empty"]
def ErrInvalidUser := newConstError types types.INVALID_USER []
def ErrNotAuthenticated := newConstError types types.NOT_AUTHENTICATED []
def ErrNetwork := newConstError types types.NETWORK_ERROR []
def ErrInvalidObjectType := newConstError types types.SERIALIZE_ERROR
  ["invalid type for result object. It should be of type struct pointer or addressable"]
def ErrMaxRetriesExceeded := newConstError types types.MAX_RETRIES_EXCEEDED
  ["command execution timed out on client: Exceeded number of retries. See `Policy.MaxRetries`."]
def ErrInvalidParam := newConstError types types.PARAMETER_ERROR []
def ErrLuaPoolEmpty := newConstError types types.COMMON_ERROR
  ["Error fetching a lua instance from pool"]

/-- The package's constant errors, in the order they are declared. -/
def constants : List ConstAerospikeError :=
  [ErrServerNotAvailable types, ErrInvalidPartitionMap types, ErrKeyNotFound types,
    ErrRecordsetClosed types, ErrConnectionPoolEmpty types, ErrConnectionPoolExhausted types,
    ErrTooManyConnectionsForNode types, ErrTooManyOpeningConnections types, ErrTimeout types,
    ErrNetTimeout types, ErrUDFBadResponse types, ErrNoOperationsSpecified types,
    ErrNoBinNamesAllowedInQueryExecute types, ErrFilteredOut types,
    ErrPartitionScanQueryNotSupported types, ErrScanTerminated types, ErrQueryTerminated types,
    ErrClusterIsEmpty types, ErrInvalidUser types, ErrNotAuthenticated types, ErrNetwork types,
    ErrInvalidObjectType types, ErrMaxRetriesExceeded types, ErrInvalidParam types,
    ErrLuaPoolEmpty types]

end Constants

section Chaining

variable (types : Types)

/-- `chainErrors(outer, inner)`: `outer` itself when `inner` is `nil`; `inner` itself when
`outer` is `nil` and `inner` is an `Error`, else `inner` wrapped in a common error; otherwise a
copy of `outer`'s record, as a `*AerospikeError`, wrapping `inner`. -/
def chainErrors : Option Error → List Link → Option Error
  | none, [] => none
  | some outer, [] => some outer
  | none, inner => some ((Error.ofChain? inner).getD (newCommonError types inner []))
  | some outer, inner => some (.aerospike outer.ae inner)

/-- `newNodeError(node, err)`: a copy of the record `errors.As` finds in `err`'s chain, the zero
record when it finds none, attributed to `node` and wrapping `err`. -/
def newNodeError (node : Option Node) : Option Error → Option Error
  | none => none
  | some err =>
    some (.aerospike { ((errorsAs err.chain).map Prod.fst).getD .zero with Node := node }
      err.chain)

/-- `newInvalidNodeError(clusterSize, partition)`, with `partition.String()` given as a string:
`Partition` is not among the sources. -/
def newInvalidNodeError (clusterSize : Int) (partition : String) : Error :=
  if clusterSize = 0 then (ErrClusterIsEmpty types).err
  else (newError types types.INVALID_NODE_ERROR
    ["Node not found for partition " ++ partition ++ " in partition table."]).wrap []

end Chaining

end AerospikeClient

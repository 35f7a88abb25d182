import Mathlib.Data.Int.Defs

/-!
# Result codes and nodes

The client's `types` package, which is not among the sources, fixes the value of every result
code and the default message of each. The model takes that package as a parameter
`types : Types`, so that `types.TIMEOUT` reads as it does in the source, and every result of the
development holds whatever the values are. A `ResultCode` is a Go `int`: `newGrpcStatusError`
converts a server's status to one unchanged, and `Matches` compares codes as integers.

A `Node` is known to the modelled functions only by identity.
-/

namespace AerospikeClient

/-- `types.ResultCode`, a Go `int`. -/
abbrev ResultCode := Int

/-- The part of the `types` package the modelled functions use: the value of each result code
they name, and `ResultCodeToString`, the default message of a code. -/
structure Types where
  OK : ResultCode
  SERVER_ERROR : ResultCode
  KEY_NOT_FOUND_ERROR : ResultCode
  PARAMETER_ERROR : ResultCode
  TIMEOUT : ResultCode
  FAIL_FORBIDDEN : ResultCode
  FILTERED_OUT : ResultCode
  INVALID_USER : ResultCode
  NOT_AUTHENTICATED : ResultCode
  QUOTA_EXCEEDED : ResultCode
  UDF_BAD_RESPONSE : ResultCode
  INVALID_COMMAND : ResultCode
  GRPC_ERROR : ResultCode
  BATCH_FAILED : ResultCode
  NO_RESPONSE : ResultCode
  NETWORK_ERROR : ResultCode
  COMMON_ERROR : ResultCode
  MAX_RETRIES_EXCEEDED : ResultCode
  MAX_ERROR_RATE : ResultCode
  INVALID_CLUSTER_PARTITION_MAP : ResultCode
  SERVER_NOT_AVAILABLE : ResultCode
  RECORDSET_CLOSED : ResultCode
  NO_AVAILABLE_CONNECTIONS_TO_NODE : ResultCode
  QUERY_TERMINATED : ResultCode
  SCAN_TERMINATED : ResultCode
  INVALID_NODE_ERROR : ResultCode
  PARSE_ERROR : ResultCode
  SERIALIZE_ERROR : ResultCode
  ResultCodeToString : ResultCode → String
deriving Inhabited

/-- A `types` table with pairwise distinct codes, numbered in the order of the fields, for the
examples in which codes must be told apart; the package's own values are not among the
sources. -/
def Types.distinct : Types where
  OK := 0
  SERVER_ERROR := 1
  KEY_NOT_FOUND_ERROR := 2
  PARAMETER_ERROR := 3
  TIMEOUT := 4
  FAIL_FORBIDDEN := 5
  FILTERED_OUT := 6
  INVALID_USER := 7
  NOT_AUTHENTICATED := 8
  QUOTA_EXCEEDED := 9
  UDF_BAD_RESPONSE := 10
  INVALID_COMMAND := 11
  GRPC_ERROR := 12
  BATCH_FAILED := 13
  NO_RESPONSE := 14
  NETWORK_ERROR := 15
  COMMON_ERROR := 16
  MAX_RETRIES_EXCEEDED := 17
  MAX_ERROR_RATE := 18
  INVALID_CLUSTER_PARTITION_MAP := 19
  SERVER_NOT_AVAILABLE := 20
  RECORDSET_CLOSED := 21
  NO_AVAILABLE_CONNECTIONS_TO_NODE := 22
  QUERY_TERMINATED := 23
  SCAN_TERMINATED := 24
  INVALID_NODE_ERROR := 25
  PARSE_ERROR := 26
  SERIALIZE_ERROR := 27
  ResultCodeToString := fun _ => ""

/-- A cluster node. The modelled functions only compare `*Node` pointers and test them for
`nil`, so a node is its identity. -/
structure Node where
  id : Nat
deriving DecidableEq, Repr

end AerospikeClient

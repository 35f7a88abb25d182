import AerospikeClient.Types
import AerospikeClient.Error.Basic
import AerospikeClient.Error.Matches
import AerospikeClient.Error.Grpc
import AerospikeClient.Error.Store
import AerospikeClient.Partitions.Basic
import AerospikeClient.Partitions.Validate
import AerospikeClient.Partitions.Map
import AerospikeClient.Partitions.Client
import AerospikeClient.Partitions.Resize
import AerospikeClient.Rand.Xor128
import AerospikeClient.Rand.Update
import AerospikeClient.Histogram.Basic
import AerospikeClient.Histogram.Invariant
import AerospikeClient.Histogram.Median

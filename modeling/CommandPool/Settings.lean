import CommandPool.Backoff

/-!
# Settings of a pool

How many workers a pool has, how many bytes an upload sends at a time, how often
a throttled node is retried, and how long is waited in between.
-/

namespace CommandPool

/-- The settings of a pool. -/
structure Settings where
  /-- The number of workers. -/
  workers : Nat := 256
  /-- The bytes of one part of an upload. -/
  chunkSize : Nat := 50 * 1024 * 1024
  /-- The most retries of one node.  With none a throttled node fails at once. -/
  maxRetries : Nat := 10
  /-- The delays between the attempts of one node. -/
  backoff : Backoff.Policy := .standard
  deriving DecidableEq, Repr

namespace Settings

/-- Why settings are rejected. -/
inductive Fault where
  /-- There is no worker. -/
  | noWorkers
  /-- The chunk size is zero. -/
  | zeroChunkSize
  /-- The backoff policy is rejected. -/
  | backoff (fault : Backoff.Policy.Fault)
  deriving DecidableEq, Repr

/-- The wording of a fault. -/
def Fault.message : Fault → String
  | .noWorkers => "worker count must be at least 1"
  | .zeroChunkSize => "chunk size must be greater than zero"
  | .backoff fault => "invalid backoff policy: " ++ fault.message

/-- The first fault of settings, if they have one. -/
def validate (s : Settings) : Except Fault Unit :=
  if s.workers = 0 then .error .noWorkers
  else if s.chunkSize = 0 then .error .zeroChunkSize
  else s.backoff.validate.mapError .backoff

end Settings

end CommandPool

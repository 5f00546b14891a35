import CommandPool.Files.Fault
import CommandPool.Job.Error
import CommandPool.Text.Quoted

/-!
# Errors of the store

An error of the store is a missing object or file, a key that names nothing
below the root, a request that was throttled, or any other fault.  As the
failure of an attempt only the throttled one is worth another attempt.

A request may also fail without an error, when there is no memory for a chunk.
-/

namespace CommandPool.Store

/-- Why a request failed. -/
inductive StoreError where
  /-- There is no such object or file. -/
  | notFound (what : String)
  /-- The key names no object. -/
  | invalidKey (key : String)
  /-- The other side asked to slow down. -/
  | throttled (message : String)
  /-- Any other fault, at a key or a path. -/
  | io (context : String) (fault : Files.Fault)
  deriving DecidableEq, Repr

namespace StoreError

/-- The error for a fault at a key or a path. -/
def ofFault (context : String) (fault : Files.Fault) : StoreError :=
  match fault.kind with
  | .notFound => .notFound context
  | .resourceBusy => .throttled (context ++ ": " ++ fault.message)
  | .wouldBlock => .throttled (context ++ ": " ++ fault.message)
  | _ => .io context fault

/-- The wording of an error. -/
def message : StoreError → String
  | .notFound what => "not found: " ++ what
  | .invalidKey key => "invalid object key: " ++ Text.quoted key
  | .throttled m => "throttled: " ++ m
  | .io context fault => context ++ ": " ++ fault.message

/-- The error as the failure of an attempt.  A fault is the cause of its error,
so its wording stands in both. -/
def toJobError : StoreError → JobError
  | .throttled m => .throttled m
  | .io context fault => .other (message (.io context fault)) [fault.message]
  | e => .other e.message []

end StoreError

/-- Why a request has no answer. -/
inductive Failure where
  /-- The store has an error. -/
  | error (e : StoreError)
  /-- A chunk is longer than any buffer can be.  This takes down whoever asks. -/
  | noBuffer
  deriving DecidableEq, Repr

end CommandPool.Store

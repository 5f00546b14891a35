import CommandPool.Text.Blank

/-!
# How an attempt fails

An attempt fails because the other side throttles it, because the run was
cancelled, or for any other cause, told from the outermost description to the
innermost one.  Only a throttled attempt is ever made again.
-/

namespace CommandPool

/-- Why an attempt failed. -/
inductive JobError where
  /-- The other side asked to slow down. -/
  | throttled (message : String)
  /-- The attempt was given up because the run was cancelled. -/
  | cancelled
  /-- Any other failure: the outermost description, and its causes inwards. -/
  | other (outermost : String) (causes : List String)
  deriving DecidableEq, Repr

namespace JobError

/-- The failure with the given message, wrapped in contexts.  Each further
context is put around the ones before it. -/
def wrap (message : String) (contexts : List String) : JobError :=
  match (message :: contexts).reverse with
  | [] => .other message []
  | outermost :: causes => .other outermost causes

/-- The wording of a failure: of several descriptions the outermost. -/
def message : JobError → String
  | .throttled m => "rate limited: " ++ m
  | .cancelled => "operation cancelled"
  | .other outermost _ => outermost

/-- The wording of a failure with all its causes. -/
def fullMessage : JobError → String
  | .other outermost causes => ": ".intercalate (outermost :: causes)
  | e => e.message

/-- The full wording on one line, as failure log lines show it. -/
def tidied (e : JobError) : String := Text.tidy e.fullMessage

/-- The other side throttled the attempt. -/
def isThrottled : JobError → Bool
  | .throttled _ => true
  | _ => false

/-- A node that failed so and was retried `retries` times is retried again, when
it may be retried `maxRetries` times. -/
def mayRetry (e : JobError) (retries maxRetries : Nat) : Bool :=
  e.isThrottled && maxRetries > 0 && retries < maxRetries

end JobError

end CommandPool

import CommandPool.Text.Quoted

/-!
# Jobs and chains

A job is an action with a label and two chains: what follows when the action
succeeds and what follows when it fails.  A chain is empty or begins with a job,
so a job is the root of a finite binary tree, and one run of it visits one path
of that tree from the root to an empty chain.
-/

namespace CommandPool

/-- How a node ended, after all its retries. -/
inductive Outcome where
  | succeeded
  | failed
  deriving DecidableEq, Repr

/-- What follows a node: nothing, or a node with what follows it. -/
inductive Chain (α : Type) where
  /-- The chain ends here. -/
  | done
  /-- A node, then one of two chains. -/
  | node (label : String) (action : α) (onSuccess onFailure : Chain α)
  deriving Repr

/-- A node with what follows it. -/
structure Job (α : Type) where
  /-- The text that stands for the node in log lines. -/
  label : String
  /-- What one attempt does. -/
  action : α
  /-- What follows when the node succeeds. -/
  onSuccess : Chain α
  /-- What follows when the node fails. -/
  onFailure : Chain α
  deriving Repr

namespace Chain

variable {α β : Type}

/-- The number of nodes. -/
def size : Chain α → Nat
  | .done => 0
  | .node _ _ s f => s.size + f.size + 1

/-- The greatest number of nodes on a path. -/
def height : Chain α → Nat
  | .done => 0
  | .node _ _ s f => max s.height f.height + 1

/-- The first node, if the chain has one. -/
def job? : Chain α → Option (Job α)
  | .done => none
  | .node label action s f => some ⟨label, action, s, f⟩

end Chain

namespace Job

variable {α : Type}

/-- A job that nothing follows. -/
def single (label : String) (action : α) : Job α := ⟨label, action, .done, .done⟩

/-- A job as a chain. -/
def toChain (j : Job α) : Chain α := .node j.label j.action j.onSuccess j.onFailure

/-- The job with `next` following its success. -/
def andThen (j next : Job α) : Job α := { j with onSuccess := next.toChain }

/-- The job with `next` following its failure. -/
def orElse (j next : Job α) : Job α := { j with onFailure := next.toChain }

/-- What follows the given outcome. -/
def after (j : Job α) : Outcome → Chain α
  | .succeeded => j.onSuccess
  | .failed => j.onFailure

/-- The number of nodes. -/
def size (j : Job α) : Nat := j.toChain.size

@[simp] theorem job?_toChain (j : Job α) : j.toChain.job? = some j := rfl

end Job

/-! ## Walking a job -/

namespace Chain

variable {α : Type}

/-- What is left of a chain after each of the outcomes in turn.  After the end
nothing is left to walk. -/
def walk : Chain α → List Outcome → List (Chain α)
  | _, [] => []
  | .done, _ :: _ => []
  | .node _ _ s f, o :: os =>
    let next := match o with
      | .succeeded => s
      | .failed => f
    next :: walk next os

end Chain

/-! ## The outline of a job -/

namespace Chain

variable {α : Type}

/-- The outline of a chain: its labels, quoted, as the tree they form.  The
number that a run gives to a node is no part of the tree and is written `*`. -/
def outline : Chain α → String
  | .done => "End"
  | .node label _ s f =>
    "Then(Job \x7b id: JobId(*), label: " ++ Text.quoted label ++ ", on_success: " ++ s.outline
      ++ ", on_failure: " ++ f.outline ++ ", .. \x7d)"

end Chain

/-- The outline of a job: its labels, quoted, as the tree they form. -/
def Job.outline {α : Type} (j : Job α) : String :=
  "Job \x7b id: JobId(*), label: " ++ Text.quoted j.label ++ ", on_success: "
    ++ j.onSuccess.outline ++ ", on_failure: " ++ j.onFailure.outline ++ ", .. \x7d"

end CommandPool

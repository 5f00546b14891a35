import CommandPool.Proofs.Command.Grammar

/-!
# Lines written from their trees

A line is read from its words, and these are all that is kept of it: the label of a node is its
words, which are those of its command as that is written.  So a tree is written as one line again,
and that is read as the same tree.  The continuations come in a fixed order then, whatever their
order was.
-/

namespace CommandPool

namespace Chain

variable {α : Type}

/-- A node of the chain has this label and this action. -/
inductive HasNode (label : String) (action : α) : Chain α → Prop where
  | here {s f : Chain α} : HasNode label action (.node label action s f)
  | success {l : String} {a : α} {s f : Chain α} :
      HasNode label action s → HasNode label action (.node l a s f)
  | failure {l : String} {a : α} {s f : Chain α} :
      HasNode label action f → HasNode label action (.node l a s f)

end Chain

namespace Command

open Store (Operand)

variable {ws : List String} {c : Command}

/-! ## Words of a command -/

/-- An operand in the store is written as the word from which it was read. -/
theorem word_of_object {w key : String} (read : Operand.ofText w = .object key) :
    (Operand.object key).text = w := by
  rw [← read, Operand.text_ofText]

/-- A source and a target are those that the two words are read as. -/
theorem eq_of_readPair {name s t : String} {ends : Operand × Operand} :
    readPair name s t = .ok ends → ends = (Operand.ofText s, Operand.ofText t) := by
  fun_cases readPair name s t
  all_goals intro read
  all_goals cases read
  all_goals rfl

theorem words_of_map {name s t : String} (build : Operand → Operand → Command)
    (named : ∀ src dst, (build src dst).name = name)
    (written : ∀ src dst, (build src dst).operands = [src.text, dst.text])
    (read : (readPair name s t).map (fun p => build p.1 p.2) = .ok c) :
    [name, s, t] = c.name :: c.operands := by
  cases pair : readPair name s t with
  | error e =>
    rw [pair] at read
    cases read
  | ok both =>
    rw [pair, eq_of_readPair pair] at read
    cases read
    rw [named, written, Operand.text_ofText, Operand.text_ofText]

/-- The words that a command is read from are its name and its operands. -/
theorem words_of_ofWords : ofWords ws = .ok c → ws = c.name :: c.operands := by
  fun_cases ofWords ws
  all_goals intro read
  case case2 s t => exact words_of_map .copy (fun _ _ => rfl) (fun _ _ => rfl) read
  case case4 s t _ => exact words_of_map .move (fun _ _ => rfl) (fun _ _ => rfl) read
  case case6 target _ _ =>
    cases read
    rw [operands, Operand.text_ofText]
    rfl
  case case8 stem key object _ _ _ =>
    cases read
    rw [operands, word_of_object object]
    rfl
  -- The other words are refused.
  all_goals cases read

/-- A command is read from the words that it is written with, and written as them again. -/
theorem parse_unwords {line : String} (taken : ws ⊆ Text.words line) (read : ofWords ws = .ok c) :
    Text.unwords ws = c.text ∧ parse (Text.unwords ws) = .ok c := by
  constructor
  · rw [text, ← words_of_ofWords read]
  · rw [parse, Text.words_unwords_of_subset taken, read]

end Command

namespace CommandLine

variable {line : String} {job : Job Command} {head ws : List String} {op : Operator}
  {tail : List (Operator × List String)} {chain : Chain Command}

/-! ## Written lines -/

/-- What is written of a chain behind an operator: the label of its first node.  There may be
none, and then nothing is written. -/
def clause (op : Operator) : Chain Command → List String
  | .done => []
  | .node label _ _ _ => [op.text, label]

/-- A tree as a line: the label of its root, and behind their operators those of what follows
success and of what follows failure, with single spaces between them. -/
def text (job : Job Command) : String :=
  Text.unwords (job.label :: clause .andThen job.onSuccess ++ clause .orElse job.onFailure)

/-- The layout of what is written behind an operator. -/
def layoutOf (op : Operator) : Chain Command → List (Operator × List String)
  | .done => []
  | .node label _ _ _ => [(op, Text.words label)]

/-- The layout of a written line, behind its first command. -/
def tailOf (job : Job Command) : List (Operator × List String) :=
  layoutOf .andThen job.onSuccess ++ layoutOf .orElse job.onFailure

theorem words_operator (op : Operator) : Text.words op.text = [op.text] := by
  cases op <;> decide +kernel

theorem words_clause (op : Operator) (chain : Chain Command) :
    (clause op chain).flatMap Text.words = unsplit (layoutOf op chain) := by
  cases chain with
  | done => rfl
  | node label _ _ _ => simp [clause, layoutOf, unsplit, words_operator]

theorem words_text (job : Job Command) :
    Text.words (text job) = Text.words job.label ++ unsplit (tailOf job) := by
  rw [text, Text.words_unwords, List.cons_append, List.flatMap_cons, List.flatMap_append,
    words_clause, words_clause, tailOf, unsplit, unsplit, unsplit, List.flatMap_append]

/-! ## Lines that are read -/

/-- The words of each command of a line are words of the line. -/
theorem words_of_layout (layout : Layout line head tail) :
    head ⊆ Text.words line ∧ ∀ s ∈ tail, s.2 ⊆ Text.words line := by
  have words : Text.words line = head ++ unsplit tail := Text.words_eq_iff.mpr layout.words
  rw [words]
  refine ⟨List.subset_append_left _ _, fun s member w inside => ?_⟩
  have further : w ∈ unsplit tail :=
    List.mem_flatMap.mpr ⟨s, member, List.mem_cons_of_mem _ inside⟩
  exact List.mem_append_right _ further

/-- What follows an outcome is nothing, or a leaf from words that the line has behind the
operator. -/
inductive Leaf (tail : List (Operator × List String)) (op : Operator) : Chain Command → Prop where
  | none : Leaf tail op .done
  | some {ws : List String} {c : Command} : (op, ws) ∈ tail → Command.ofWords ws = .ok c →
      Leaf tail op (.node (Text.unwords ws) c .done .done)

theorem Hangs.leaf_of_done (hung : Hangs tail op .done chain) : Leaf tail op chain := by
  cases hung with
  | leaf member read => exact .some member read
  | absent _ => exact .none

/-- Each node of a tree that is read is the root or a leaf. -/
theorem Leaf.node {label : String} {c : Command} (leaf : Leaf tail op chain)
    (node : chain.HasNode label c) :
    ∃ ws, (op, ws) ∈ tail ∧ Command.ofWords ws = .ok c ∧ label = Text.unwords ws := by
  cases leaf with
  | none => cases node
  | some member read =>
    cases node with
    | here => exact ⟨_, member, read, rfl⟩
    | success node => cases node
    | failure node => cases node

theorem node_of_reads {label : String} {c : Command} (layout : Layout line head tail)
    (reads : Reads head tail job) (node : job.toChain.HasNode label c) :
    ∃ ws, ws ⊆ Text.words line ∧ Command.ofWords ws = .ok c ∧ label = Text.unwords ws := by
  obtain ⟨front, behind⟩ := words_of_layout layout
  cases node with
  | here => exact ⟨head, front, reads.action, reads.label⟩
  | success node =>
    obtain ⟨ws, member, read, label⟩ := reads.success.leaf_of_done.node node
    exact ⟨ws, behind _ member, read, label⟩
  | failure node =>
    obtain ⟨ws, member, read, label⟩ := reads.failure.leaf_of_done.node node
    exact ⟨ws, behind _ member, read, label⟩

/-! ## Written lines are read -/

theorem operator_of_layoutOf {s : Operator × List String} (member : s ∈ layoutOf op chain) :
    s.1 = op := by
  cases chain with
  | done => cases member
  | node label _ _ _ =>
    cases List.mem_singleton.mp member
    rfl

/-- The words behind an operator of the written line stand behind it in the line that was read. -/
theorem Leaf.layoutOf_subset (leaf : Leaf tail op chain)
    (taken : ∀ s ∈ tail, s.2 ⊆ Text.words line) : layoutOf op chain ⊆ tail := by
  cases leaf with
  | none => exact List.nil_subset tail
  | some member _ =>
    rw [layoutOf, Text.words_unwords_of_subset (taken _ member)]
    exact List.cons_subset.mpr ⟨member, List.nil_subset tail⟩

/-- In a layout with the words of a leaf behind its operator, and nothing else there, the leaf
hangs. -/
theorem Leaf.hangs {tail' : List (Operator × List String)} (leaf : Leaf tail op chain)
    (taken : ∀ s ∈ tail, s.2 ⊆ Text.words line)
    (alone : ∀ ws, (op, ws) ∈ tail' ↔ (op, ws) ∈ layoutOf op chain) :
    Hangs tail' op .done chain := by
  cases leaf with
  | none => exact .absent fun ws member => nomatch (alone ws).mp member
  | some member read =>
    have same := Text.words_unwords_of_subset (taken _ member)
    refine .leaf ((alone _).mpr ?_) read
    rw [layoutOf, same]
    exact List.mem_singleton_self _

theorem nodup_tailOf (job : Job Command) : ((tailOf job).map (·.1)).Nodup := by
  cases job with
  | mk label action onSuccess onFailure =>
    cases onSuccess <;> cases onFailure <;> simp [tailOf, layoutOf]

theorem tailOf_subset (layout : Layout line head tail) (reads : Reads head tail job) :
    tailOf job ⊆ tail := by
  obtain ⟨_, taken⟩ := words_of_layout layout
  exact List.append_subset.mpr ⟨reads.success.leaf_of_done.layoutOf_subset taken,
    reads.failure.leaf_of_done.layoutOf_subset taken⟩

/-- A tree that is read from one layout is read from that of its written line. -/
theorem reads_tailOf (layout : Layout line head tail) (reads : Reads head tail job) :
    Reads head (tailOf job) job := by
  obtain ⟨_, taken⟩ := words_of_layout layout
  have inside := tailOf_subset layout reads
  have success := reads.success.leaf_of_done
  have failure := reads.failure.leaf_of_done
  refine ⟨reads.some, reads.label, reads.action, fun s member => reads.accepted s (inside member),
    nodup_tailOf job, success.hangs taken fun ws => ?_, failure.hangs taken fun ws => ?_⟩
  · have other : (Operator.andThen, ws) ∉ layoutOf .orElse job.onFailure :=
      fun member => nomatch operator_of_layoutOf member
    simp [tailOf, other]
  · have other : (Operator.orElse, ws) ∉ layoutOf .andThen job.onSuccess :=
      fun member => nomatch operator_of_layoutOf member
    simp [tailOf, other]

/-- The written line is laid out as the tree. -/
theorem layout_text (layout : Layout line head tail) (reads : Reads head tail job) :
    Layout (text job) head (tailOf job) := by
  obtain ⟨front, _⟩ := words_of_layout layout
  have inside := tailOf_subset layout reads
  refine ⟨Text.words_eq_iff.mp ?_, layout.plain, fun s member => layout.plains s (inside member)⟩
  rw [words_text, reads.label, Text.words_unwords_of_subset front]

/-- In a tree that is read from a line each label is what is written of the command of the node,
and that command is read from it.  The whole tree is read from the line that is written of it. -/
theorem written_lines_are_read_back {line : String} {job : Job Command}
    (read : parse line = .ok job) :
    (∀ label c, job.toChain.HasNode label c → label = c.text ∧ Command.parse label = .ok c) ∧
      parse (text job) = .ok job := by
  have layout : Layout line (split (Text.words line)).1 (split (Text.words line)).2 :=
    layout_iff.mpr rfl
  have reads := (parse_eq_ok_iff layout).mp read
  constructor
  · intro label c node
    obtain ⟨ws, taken, made, rfl⟩ := node_of_reads layout reads node
    exact Command.parse_unwords taken made
  · exact (parse_eq_ok_iff (layout_text layout reads)).mpr (reads_tailOf layout reads)

/-- A move that is followed by a listing or by a removal. -/
def shelving : Job Command :=
  ⟨"mv a store://b", .move (.file "a") (.object "b"),
    (Job.single "ls store://" (.list "")).toChain,
    (Job.single "rm store://c" (.remove (.object "c"))).toChain⟩

/-- It is read from a line with tabs, with more blanks, and with the removal first. -/
theorem parse_shelving :
    parse " mv\ta  store://b  || rm store://c && ls store://" = .ok shelving := rfl

theorem written_lines_are_read_back_shelving :
    parse " mv\ta  store://b  || rm store://c && ls store://" = .ok shelving ∧
      text shelving = "mv a store://b && ls store:// || rm store://c" ∧
      (∀ label c, shelving.toChain.HasNode label c →
        label = c.text ∧ Command.parse label = .ok c) ∧
      parse (text shelving) = .ok shelving :=
  ⟨parse_shelving, by decide +kernel, written_lines_are_read_back parse_shelving⟩

end CommandLine

end CommandPool

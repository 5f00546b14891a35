import CommandPool.Proofs.Command.Printing
import CommandPool.Proofs.Pool.Reports
import CommandPool.Proofs.Text.Tidy

/-!
# How failures are told

The entry of a node that has failed quotes the label of the node and then tells the failure with all
its causes.  A line or a message may hold any blanks, but of both only the words are told, so the
entry is one line.

A worker stays within the tree of its job.  So whatever happens at a node of a pool, the node is one
of a job that was submitted (`Chronicle.exists_node`), and its label is one that was made from a
line.
-/

namespace CommandPool

namespace JobError

/-! ## Failures with causes -/

/-- Of a message and its contexts the last context is told first. -/
theorem fullMessage_wrap (message : String) (contexts : List String) :
    (wrap message contexts).fullMessage = ": ".intercalate (contexts.reverse ++ [message]) := by
  rw [wrap, List.reverse_cons]
  cases outer : contexts.reverse <;> rfl

/-- The words of a failure are those of its descriptions, each with a colon behind it but for the
innermost one. -/
theorem words_fullMessage_wrap (message : String) (contexts : List String) :
    Text.words (wrap message contexts).fullMessage =
      contexts.reverse.flatMap (fun context => Text.words (context ++ ":")) ++
        Text.words message := by
  rw [fullMessage_wrap]
  induction contexts.reverse with
  | nil => simp
  | cons outermost causes ih =>
    have more : causes ++ [message] ≠ [] := List.append_ne_nil_of_right_ne_nil causes nofun
    have colon : outermost ++ ": " = outermost ++ ":" ++ " " := by
      rw [String.append_assoc]
      rfl
    rw [List.cons_append, String.intercalate_cons_of_ne_nil more, colon, Text.words_append_space,
      ih, List.flatMap_cons, List.append_assoc]

end JobError

namespace Pool

variable {α : Type} {p p' : Pool α} {s : Settings} {w : Nat} {c : Bool} {a b stage : Stage α}
  {t first : Task α} {events new : List Event} {label : String} {action : α}

/-! ## Nodes of a job -/

/-- What follows a node is a part of the job. -/
theorem hasNode_of_after {job : Job α} {outcome : Outcome}
    (node : (job.after outcome).HasNode label action) : job.toChain.HasNode label action := by
  cases outcome with
  | succeeded => exact .success node
  | failed => exact .failure node

theorem Task.hasNode_onward {outcome : Outcome} {next : Task α}
    (found : (t.onward outcome).task? = some next)
    (node : next.job.toChain.HasNode label action) : t.job.toChain.HasNode label action := by
  have inside : (t.job.after outcome).HasNode label action := by
    unfold Task.onward at found
    cases rest : t.job.after outcome with
    | done =>
      rw [rest] at found
      cases found
    | node =>
      rw [rest] at found
      cases found
      exact node
  exact hasNode_of_after inside

/-- A move leads to a node of what the worker had before it. -/
theorem Move.hasNode {next : Task α} (move : Move s w c a new b) (found : b.task? = some next)
    (node : next.job.toChain.HasNode label action) :
    ∃ t, a.task? = some t ∧ t.job.toChain.HasNode label action := by
  cases move with
  | attempt t => cases found; exact ⟨_, rfl, node⟩
  | throttle t => cases found; exact ⟨t, rfl, node⟩
  | wait t => cases found; exact ⟨_, rfl, node⟩
  | panic => cases found
  | succeed t => exact ⟨t, rfl, Task.hasNode_onward found node⟩
  | fail t => exact ⟨t, rfl, Task.hasNode_onward found node⟩
  | cut t => exact ⟨t, rfl, Task.hasNode_onward (t := t.retry.cutShort) found node⟩
  | interrupt t => exact ⟨t, rfl, Task.hasNode_onward (t := t.cutShort) found node⟩

/-- A worker is at a node of its job, and all that has happened was at one. -/
theorem Follows.hasNode (follows : Follows s w first events stage) :
    (∀ t label action, stage.task? = some t → t.job.toChain.HasNode label action →
      first.job.toChain.HasNode label action) ∧
    ∀ e ∈ events, ∃ spot action, e.spot? = some spot ∧
      first.job.toChain.HasNode spot.label action := by
  induction follows with
  | begin =>
    refine ⟨?_, nofun⟩
    rintro _ label action ⟨⟩ node
    exact node
  | move before move ih =>
    obtain ⟨inside, happened⟩ := ih
    refine ⟨fun next label action found node => ?_, fun e member => ?_⟩
    · obtain ⟨t, here, node⟩ := move.hasNode found node
      exact inside t label action here node
    · rcases List.mem_append.mp member with new | old
      · obtain ⟨t, here, spots⟩ := move.at_node
        exact ⟨_, _, spots e new, inside t _ _ here .here⟩
      · exact happened e old

/-- What happens at a node happens at one of a job that was submitted. -/
theorem Chronicle.exists_node {e : Event} {spot : Spot} (chronicle : Chronicle p)
    (member : e ∈ p.history) (about : e.spot? = some spot) :
    ∃ job ∈ p.queue.jobs, ∃ action, job.toChain.HasNode spot.label action := by
  have mine : e ∈ eventsOf p.history spot.ticket :=
    List.mem_filter.mpr ⟨member, by simp [Event.isAbout, about]⟩
  by_cases got : p.queue.Got spot.ticket
  · obtain ⟨w, s, stage, heard⟩ := chronicle.heard _ got
    obtain ⟨_, action, about', node⟩ := heard.follows.hasNode.2 e mine
    cases about.symm.trans about'
    exact ⟨s.job, List.mem_map_of_mem (List.mem_of_getElem? heard.found), action, node⟩
  · rw [(chronicle.silent _ got).events] at mine
    cases mine

/-! ## Messages -/

/-- The labels of a line are tidy. -/
theorem isTidy_label {line label : String} {job : Job Command} {c : Command}
    (read : CommandLine.parse line = .ok job) (node : job.toChain.HasNode label c) :
    Text.IsTidy label.toList := by
  have layout : CommandLine.Layout line (CommandLine.split (Text.words line)).1
      (CommandLine.split (Text.words line)).2 := CommandLine.layout_iff.mpr rfl
  obtain ⟨ws, taken, _, rfl⟩ :=
    CommandLine.node_of_reads layout ((CommandLine.parse_eq_ok_iff layout).mp read) node
  exact Text.isTidy_unwords fun _ member => Text.isWord_of_mem (taken member)

/-- The jobs that were submitted are those of the pieces that submit one. -/
theorem exists_piece_of_job {ls : List (Piece α)} {cancelled : Bool} {job : Job α}
    (run : (started s cancelled).pieces ls = some p) (sent : job ∈ p.queue.jobs) :
    ∃ l ∈ ls, l.job? = some job := by
  rw [jobs_pieces run] at sent
  exact List.mem_filterMap.mp sent

/-- A label that is on one line is quoted on one line, and a failure is told behind it. -/
theorem onOneLine_failed {spot : Spot} {error : JobError} (label : Text.OnOneLine spot.label) :
    Text.OnOneLine ("\"" ++ spot.label ++ "\": " ++ error.tidied) := by
  have opening : Text.OnOneLine "\"" := by decide
  have closing : Text.OnOneLine "\": " := by decide
  exact ((opening.append label).append closing).append (Text.isTidy_tidy _).onOneLine

/-- The labels that are made from a line are tidy, and so is what is told of a failure.  This has
the words of the full wording, in order, and is not changed by tidying it again.  The full wording
of a message with contexts has them from the last one that was put around it inwards.  And in every
run of a pool whose jobs were read from lines, however polls overlap, what attempts report and
whenever it is cancelled, the entry of a node that has failed is on one line. -/
theorem failures_are_told_on_one_line {ρ : Type} {build : Nat → Except (List String) ρ}
    {cancelled : Bool} {p p' : Pool Command} {ls : List (Piece Command)}
    (opened : openWith s build cancelled = .ok p) (run : p.pieces ls = some p')
    (read : ∀ l ∈ ls, ∀ job, l.job? = some job → ∃ line, CommandLine.parse line = .ok job) :
    (∀ line job label c, CommandLine.parse line = .ok job → job.toChain.HasNode label c →
      Text.IsTidy label.toList) ∧
    (∀ e : JobError, Text.IsTidy e.tidied.toList ∧
      (∀ ws : List String, Text.Spaced e.tidied.toList (ws.map String.toList) ↔
        Text.Spaced e.fullMessage.toList (ws.map String.toList)) ∧
      Text.tidy e.tidied = e.tidied) ∧
    (∀ message contexts, (JobError.wrap message contexts).fullMessage =
        ": ".intercalate (contexts.reverse ++ [message]) ∧
      Text.words (JobError.wrap message contexts).tidied =
        contexts.reverse.flatMap (fun context => Text.words (context ++ ":")) ++
          Text.words message) ∧
    ∀ spot retries error, .failed spot retries error ∈ p'.history →
      ∃ entry, Event.entry? (.failed spot retries error) = some entry ∧
        entry.message = "\"" ++ spot.label ++ "\": " ++ error.tidied ∧
        Text.OnOneLine entry.message := by
  refine ⟨fun line job label c => isTidy_label, fun e => ?_, fun message contexts => ?_, ?_⟩
  · exact ⟨Text.isTidy_tidy _, fun ws => Text.spaced_tidy_iff, Text.tidy_tidy _⟩
  · refine ⟨JobError.fullMessage_wrap message contexts, ?_⟩
    rw [JobError.tidied, Text.words_tidy, JobError.words_fullMessage_wrap]
  · intro spot retries error failed
    obtain rfl := openWith_eq_ok opened
    obtain ⟨chronicle, _⟩ := chronicle_pieces (chronicle_started s cancelled) run
    obtain ⟨job, sent, c, node⟩ := chronicle.exists_node failed rfl
    obtain ⟨l, member, submits⟩ := exists_piece_of_job run sent
    obtain ⟨line, made⟩ := read l member job submits
    have told : Event.enquote spot.label ++ ": " ++ error.tidied =
        "\"" ++ spot.label ++ "\": " ++ error.tidied :=
      congrArg (· ++ error.tidied) String.append_assoc
    exact ⟨_, rfl, told, told ▸ onOneLine_failed (isTidy_label made node).onOneLine⟩

/-- A message and a context that are on several lines. -/
def diskFull : JobError := .wrap "disk\n  full" ["writing \t part\u20283"]

/-- A worker takes a job whose line is full of blanks, and its first node fails. -/
def fillUp : List (Piece Command) :=
  [.whole (.submit CommandLine.shelving), .whole (.look 0), .whole (.pollSubmit 0),
    .whole (.start 0), .whole (.finish 0 (.plain (.error diskFull)))]

theorem failures_are_told_on_one_line_fillUp :
    ∃ p : Pool Command, (started pair false).pieces fillUp = some p ∧
      ∃ e ∈ p.history, ∃ entry, Event.entry? e = some entry ∧
        entry.message = "\"mv a store://b\": writing part 3: disk full" ∧
        Text.OnOneLine entry.message := by
  have opened : openWith pair (fun _ => (.ok () : Except (List String) Unit)) false =
      .ok (started pair false : Pool Command) := by
    rfl
  obtain ⟨p, run, failed⟩ : ∃ p, (started pair false).pieces fillUp = some p ∧
      .failed ⟨0, 0, 0, "mv a store://b"⟩ 0 diskFull ∈ p.history := ⟨_, rfl, List.mem_cons_self⟩
  have read : ∀ l ∈ fillUp, ∀ job, l.job? = some job →
      ∃ line, CommandLine.parse line = .ok job := by
    intro l member job submits
    simp only [fillUp, List.mem_cons, List.not_mem_nil, or_false] at member
    rcases member with rfl | rfl | rfl | rfl | rfl <;> cases submits
    exact ⟨_, CommandLine.parse_shelving⟩
  obtain ⟨_, _, _, told⟩ := failures_are_told_on_one_line opened run read
  obtain ⟨entry, written, message, single⟩ := told _ _ _ failed
  exact ⟨p, run, _, failed, entry, written, message.trans (by rfl), single⟩

end Pool

end CommandPool

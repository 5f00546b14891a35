import CommandPool.Cli.Run
import CommandPool.Proofs.Batch

/-!
# What exit code 0 means

The exit code of the program tells only whether something was counted as failed.  A fault
of the input is not counted, and neither is an action that panics.  So with exit code 0
each node that was attempted has succeeded or has taken its worker down, and the lines that
were run are those in front of the first one that cannot be read.  If all workers were taken
down, it says even less: the lines for which there was none left are dropped.

`Runs` are the runs of the program in which its feeder and its workers overlap in any way, and
the files change whenever a command changes them.  What `run` plays out is one of them
(`runs_of_finalPool?`).  A command file is read in them as it is at each moment.  If a command
writes to it, the lines are those that were found; else they are those of the file.
-/

namespace CommandPool.Cli

open Files (FileSystem)
open Lines (Draw linesIn linesOf)
open Pool (Event Fed Intake Supplied Throughout commandsOf countAt IsSpared)

/-! ## Runs of the program -/

/-- The exit code of a run that ends with these counters. -/
def exitCodeOf (c : Counters) : Nat := if c.fail > 0 then 1 else 0

/-- The program when it has opened its input and its pool, if it could. -/
def start? (o : Options) (bytes : List UInt8) (fs : FileSystem) :
    Option (Supplied Command FileSystem) :=
  match openInput fs bytes o.input with
  | .error _ => none
  | .ok (intake, fs) =>
    match Batch.openPool o.settings o.storeRoot fs with
    | .error _ => none
    | .ok pool => some ⟨⟨pool, .new intake⟩, fs⟩

/-- A run of the program from its start to its end: it feeds the pool with the commands of its
input, and waits for all workers.  Nobody interrupts it, and only commands change the files. -/
structure Runs (o : Options) (bytes : List UInt8) (fs : FileSystem)
    (start : Supplied Command FileSystem) (ls : List (Supplied.Label Command FileSystem))
    (s : Supplied Command FileSystem) : Prop where
  started : start? o bytes fs = some start
  steps : start.steps CommandLine.parse Batch.heldFile ls = some s
  own : Throughout (Supplied.step CommandLine.parse Batch.heldFile)
    (Supplied.IsOwn FileSystem.Changes) start ls
  joined : s.fed.pool.isJoined = true

/-- The pool at the end of what `run` plays out, if that could be started. -/
def finalPool? (o : Options) (bytes : List UInt8) (fs : FileSystem) : Option (Pool Command) :=
  (start? o bytes fs).map fun start =>
    (Batch.run o.settings o.storeRoot start.fed.pool start.world start.fed.feeder.intake).pool

variable {o : Options} {bytes : List UInt8} {fs : FileSystem}
variable {start s : Supplied Command FileSystem} {ls : List (Supplied.Label Command FileSystem)}

/-- The program starts with an open pool and has not read anything. -/
theorem exists_opened (start_ : start? o bytes fs = some start) :
    ∃ intake fs', openInput fs bytes o.input = .ok (intake, fs') ∧
      Batch.openPool o.settings o.storeRoot fs' = .ok (Pool.started o.settings false) ∧
      start = ⟨⟨Pool.started o.settings false, .new intake⟩, fs'⟩ := by
  unfold start? at start_
  split at start_
  next => cases start_
  next intake fs' input =>
    split at start_
    next => cases start_
    next pool opened =>
      cases start_
      cases Pool.openWith_eq_ok opened
      exact ⟨intake, fs', input, opened, rfl⟩

theorem exitCode_of_finalPool? {p : Pool Command} (final : finalPool? o bytes fs = some p) :
    (run o bytes fs).exitCode = exitCodeOf p.counters := by
  obtain ⟨start, start_, rfl⟩ := Option.map_eq_some_iff.mp final
  obtain ⟨intake, fs', input, opened, rfl⟩ := exists_opened start_
  rw [run, input]
  simp only [opened]
  rfl

/-! ## Lines of the input -/

/-- The lines of an input in front of the first one that cannot be read.  A file has the
lines of what is drawn of it. -/
def readableLines (input : Input) (bytes : List UInt8) (drawn : List Draw) : List String :=
  match input with
  | .standard => linesIn bytes
  | .file _ => linesOf (Lines.readings [] drawn)
  | .line text => [text]

/-- An input that was opened gives its lines. -/
theorem readings_of_openInput {fs' : FileSystem} {intake : Intake}
    (opened : openInput fs bytes o.input = .ok (intake, fs')) (drawn : List Draw) :
    intake.Settled ∧
      linesOf (intake.readings drawn) = readableLines o.input bytes drawn := by
  cases input : o.input with
  | standard =>
    rw [input] at opened
    cases opened
    exact ⟨⟨rfl, rfl⟩, congrArg linesOf (Batch.readings_ofBytes bytes)⟩
  | file path =>
    rw [input] at opened
    simp only [openInput] at opened
    split at opened
    next found =>
      cases opened
      cases (Batch.drawn_of_openFile found).1
      exact ⟨⟨rfl, nofun⟩, rfl⟩
    next => cases opened
  | line text =>
    rw [input] at opened
    cases opened
    exact ⟨trivial, rfl⟩

/-- The lines of a command file that no draw finds changed are those of its bytes. -/
theorem readableLines_of_undisturbed {path : String} {content : List UInt8}
    (runs : Runs o bytes fs start ls s) (input : o.input = .file path)
    (has : Batch.fileBytes? fs path = some content)
    (undisturbed : Batch.Undisturbed CommandLine.parse start ls) :
    ∃ later, readableLines o.input bytes
      (start.drawn CommandLine.parse Batch.heldFile ls ++ later) = linesIn content := by
  obtain ⟨intake, fs', opened, _, rfl⟩ := exists_opened runs.started
  rw [input, openInput] at opened
  split at opened
  next found =>
    cases opened
    obtain ⟨later, readings⟩ := Batch.readings_of_undisturbed found
      (Batch.ofFile_of_fileBytes? has) runs.steps runs.own undisturbed
    rw [Batch.readings_ofBytes] at readings
    rw [input]
    exact ⟨later, congrArg linesOf readings⟩
  next => cases opened

/-! ## What was run -/

/-- What `run` plays out is one of the runs of the program, if it comes to its end. -/
theorem runs_of_finalPool? {p : Pool Command} (final : finalPool? o bytes fs = some p)
    (joined : p.isJoined = true) :
    ∃ start ls s, Runs o bytes fs start ls s ∧ s.fed.pool = p := by
  obtain ⟨start, start_, rfl⟩ := Option.map_eq_some_iff.mp final
  obtain ⟨intake, fs', input, _, rfl⟩ := exists_opened start_
  have settled := (readings_of_openInput input []).1
  obtain ⟨s, ⟨ls, steps, own⟩, plays⟩ := Pool.Timeline.run_played o.settings
    Batch.heldFile fs' settled (Batch.calm_behave (.of o.storeRoot o.settings))
  exact ⟨_, ls, s, ⟨start_, steps, own, plays.pool ▸ joined⟩, plays.pool.symm⟩

/-- A run of the program is one of its fed pool. -/
theorem Runs.fed (runs : Runs o bytes fs start ls s) :
    ∃ intake ms, intake.Settled ∧
      (∀ drawn, linesOf (intake.readings drawn) = readableLines o.input bytes drawn) ∧
      Fed.steps CommandLine.parse ⟨Pool.started o.settings false, .new intake⟩ ms = some s.fed ∧
      Throughout (Fed.step CommandLine.parse) Fed.IsOwn
        ⟨Pool.started o.settings false, .new intake⟩ ms ∧
      Fed.draws ms = start.drawn CommandLine.parse Batch.heldFile ls := by
  obtain ⟨start_, steps, own, _⟩ := runs
  obtain ⟨intake, fs', input, _, rfl⟩ := exists_opened start_
  obtain ⟨ms, fed, owns, draws⟩ := Supplied.fed_steps steps own
  exact ⟨intake, ms, (readings_of_openInput input []).1,
    fun drawn => (readings_of_openInput input drawn).2, fed, owns, draws⟩

/-- What exit code 0 tells of a run: each node that was attempted has succeeded or has taken
its worker down.  Unless all workers were taken down, each line in front of the first one
that cannot be read, if it is neither blank nor a comment, was read as a job, and these jobs
were accepted and started.

The lines of a command file are those of what was drawn of it, and more that could be drawn
would make no difference.  If no draw finds the file changed, they are those of its bytes. -/
theorem exit_zero_skips_nothing (runs : Runs o bytes fs start ls s)
    (zero : exitCodeOf s.fed.pool.counters = 0) :
    (∀ ticket node, 0 < countAt Event.isAttempt s.fed.pool.history ticket node →
      countAt Event.isSuccess s.fed.pool.history ticket node +
        countAt Event.isPanic s.fed.pool.history ticket node = 1) ∧
    (IsSpared s.fed.pool →
      (∀ later, (commandsOf (readableLines o.input bytes
          (start.drawn CommandLine.parse Batch.heldFile ls ++ later))).map CommandLine.parse =
        s.fed.pool.queue.jobs.map .ok) ∧
      (∀ path content, o.input = .file path → Batch.fileBytes? fs path = some content →
        Batch.Undisturbed CommandLine.parse start ls →
        (commandsOf (linesIn content)).map CommandLine.parse = s.fed.pool.queue.jobs.map .ok) ∧
      ∀ ticket < s.fed.pool.queue.jobs.length,
        s.fed.pool.queue.sendEnd? ticket = some .accepted ∧ s.fed.pool.starts ticket = 1) := by
  obtain ⟨intake, ms, settled, lines, steps, own, draws⟩ := runs.fed
  have joined := runs.joined
  obtain ⟨_, pieces⟩ := Pool.pieces_of_steps steps
  have chronicle := (Pool.chronicle_pieces (Pool.chronicle_started _ false) pieces).1
  have tallied := Pool.tallied_pieces (Pool.tallied_started _ false) pieces
  have tidy := Fed.tidy_steps (Fed.tidy_started _ settled) steps own
  have no_fail : s.fed.pool.counters.fail = 0 := by
    unfold exitCodeOf at zero
    split at zero
    next => cases zero
    next none => exact Nat.eq_zero_of_not_pos none
  obtain ⟨unrejected, nodes⟩ := chronicle.nodes_of_no_fail tallied joined no_fail
  refine ⟨nodes, fun spared => ?_⟩
  have jobs : ∀ later, (commandsOf (readableLines o.input bytes
      (start.drawn CommandLine.parse Batch.heldFile ls ++ later))).map CommandLine.parse =
        s.fed.pool.queue.jobs.map .ok := by
    intro later
    rw [← lines, ← draws]
    exact Fed.jobs_of_isJoined settled steps own joined spared unrejected later
  refine ⟨jobs, fun path content input has undisturbed => ?_, fun ticket inside => ?_⟩
  · obtain ⟨later, same⟩ := readableLines_of_undisturbed runs input has undisturbed
    rw [← same]
    exact jobs later
  · have sent : ticket < s.fed.pool.queue.sends.length := by
      rwa [Handoff.jobs, List.length_map] at inside
    have gone := (chronicle.joined _ (beq_iff_eq.mp joined)).1
    have accepted := tidy.steady.all_accepted spared gone sent
    exact ⟨accepted, (chronicle.starts_iff_of_isJoined joined ticket).mpr accepted⟩

/-- A store that is empty, and beside it a file and one with commands. -/
def besideStore (commands : List UInt8) : FileSystem :=
  ⟨⟨[(["store"], .dir), (["x"], .file [97]), (["c"], .file commands)]⟩, [], none⟩

/-- One worker runs the lines of an input. -/
def oneWorker (chunkSizeMb : Nat) (input : Input) : Options :=
  ⟨1, chunkSizeMb, 0, input, "store", false⟩

/-- The bytes of `rm x`, then a line that is not UTF-8, then the bytes of `rm y`. -/
def faultBetween : List UInt8 := [114, 109, 32, 120, 10, 255, 10, 114, 109, 32, 121, 10]

/-- A run with the command `rm x`.  While the file is removed the feeder meets the line that
cannot be read. -/
def removing : List (Supplied.Label Command FileSystem) :=
  [.draw, .fed .feed, .fed (.pool (.whole (.look 0))), .fed .feed,
    .fed (.pool (.whole (.start 0))), .change gone, .fed .feed, .fed .feed,
    .fed (.pool (.whole (.finish 0 ⟨.ok (), [], 0, 1⟩))), .fed (.pool (.whole (.look 0))),
    .fed (.pool (.whole .beginJoin)), .fed (.pool (.whole (.look 0))), .fed (.pool (.whole .join))]
where
  /-- The files without the one that is removed.  The command file is held. -/
  gone : FileSystem :=
    ⟨⟨[(["store"], .dir), (["c"], .file faultBetween)]⟩, [], some (.present ["c"])⟩

/-- The line in front of the fault was run, and the one behind it is not told of. -/
theorem exit_zero_skips_nothing_fault :
    ∃ start ls s, Runs (oneWorker 1 (.file "c")) [] (besideStore faultBetween) start ls s ∧
      exitCodeOf s.fed.pool.counters = 0 ∧ IsSpared s.fed.pool ∧
      Batch.fileBytes? (besideStore faultBetween) "c" = some faultBetween ∧
      Batch.Undisturbed CommandLine.parse start ls ∧
      0 < countAt Event.isAttempt s.fed.pool.history 0 0 ∧
      countAt Event.isSuccess s.fed.pool.history 0 0 +
        countAt Event.isPanic s.fed.pool.history 0 0 = 1 ∧
      start.drawn CommandLine.parse Batch.heldFile ls = [.ok faultBetween] ∧
      commandsOf (linesIn faultBetween) = ["rm x"] ∧
      [CommandLine.parse "rm x"] = s.fed.pool.queue.jobs.map .ok ∧
      s.fed.pool.queue.sendEnd? 0 = some .accepted ∧ s.fed.pool.starts 0 = 1 := by
  -- The files change only when the command removes the file.
  have ending : ∃ start ∈ start? (oneWorker 1 (.file "c")) [] (besideStore faultBetween),
      ∃ s ∈ start.steps CommandLine.parse Batch.heldFile removing,
        Throughout (Supplied.step CommandLine.parse Batch.heldFile)
          (Supplied.IsOwn fun a b => b = ((FileSystem.removeFile "x").run a).2) start removing ∧
        Batch.Undisturbed CommandLine.parse start removing ∧
        start.drawn CommandLine.parse Batch.heldFile removing = [.ok faultBetween] ∧
        s.fed.pool.isJoined = true ∧ exitCodeOf s.fed.pool.counters = 0 ∧
        IsSpared s.fed.pool ∧ 0 < s.fed.pool.queue.jobs.length ∧
        0 < countAt Event.isAttempt s.fed.pool.history 0 0 := by
    decide +kernel
  obtain ⟨start, start_, s, steps, own, undisturbed, drawn, joined, zero, spared, jobs,
    attempted⟩ := ending
  have changes : ∀ a b, b = ((FileSystem.removeFile "x").run a).2 → FileSystem.Changes a b := by
    rintro a b rfl
    exact .single (.removeFile "x")
  have runs : Runs (oneWorker 1 (.file "c")) [] (besideStore faultBetween) start removing s :=
    ⟨start_, steps, Pool.throughout_imp (Supplied.isOwn_imp changes) own, joined⟩
  have has : Batch.fileBytes? (besideStore faultBetween) "c" = some faultBetween := by
    decide +kernel
  have lines : commandsOf (linesIn faultBetween) = ["rm x"] := by decide +kernel
  obtain ⟨nodes, complete⟩ := exit_zero_skips_nothing runs zero
  obtain ⟨_, parsed, accepted⟩ := complete spared
  have submitted := parsed "c" faultBetween rfl has undisturbed
  rw [lines] at submitted
  obtain ⟨sent, started⟩ := accepted 0 jobs
  exact ⟨start, removing, s, runs, zero, spared, has, undisturbed, attempted,
    nodes 0 0 attempted, drawn, lines, submitted, sent, started⟩

/-- The bytes of `cp x store://x` and of `rm x`, each on a line. -/
def copyThenRemove : List UInt8 :=
  [99, 112, 32, 120, 32, 115, 116, 111, 114, 101, 58, 47, 47, 120, 10, 114, 109, 32, 120, 10]

/-- More mebibytes than any buffer can have. -/
def hugeChunk : Nat := 8796093022208

/-- The exit code is 0, but the line behind one that is not UTF-8 is no job, of the standard
input as of a file.  It is 0 also when the copy of a line took the only worker down, and then
the line behind it is dropped. -/
theorem exit_zero_despite_skips :
    (∀ from_file : Bool,
      let o := oneWorker 1 (if from_file then .file "c" else .standard)
      (run o faultBetween (besideStore faultBetween)).exitCode = 0 ∧
      (finalPool? o faultBetween (besideStore faultBetween)).map (·.queue.jobs.map (·.label)) =
        some ["rm x"]) ∧
    (Lines.pieces faultBetween)[2]?.map (·.reading) = some (.line "rm y") ∧
    Pool.commandOf? "rm y" = some "rm y" ∧
    (run (oneWorker hugeChunk .standard) copyThenRemove (besideStore [])).exitCode = 0 ∧
    (finalPool? (oneWorker hugeChunk .standard) copyThenRemove (besideStore [])).map (fun p =>
      (countAt Event.isAttempt p.history 0 0, countAt Event.isSuccess p.history 0 0,
        p.queue.sendEnd? 1)) = some (1, 0, some (.refused .closed)) := by
  decide +kernel

end CommandPool.Cli

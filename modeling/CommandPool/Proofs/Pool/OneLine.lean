import CommandPool.Proofs.Lines.Arrivals
import CommandPool.Proofs.Pool.Isolation
import CommandPool.Proofs.Pool.Sources
import CommandPool.Proofs.Text.Words

/-!
# A command and a source that holds it as its one line

A pool is given a command as it stands, or a source with that command in its one line.  The
command is at hand at once and may end in a carriage return, which a reader of lines takes off.
The line has to arrive first, and then the end of the source has to be found.

Neither makes a difference.  The feeder trims what it reads, so it takes both for the same
command, and waiting for bytes changes nothing in the pool.  `Parallel` relates a pool that is
given the command to one that is given the source, `Parallel.follows` and `Parallel.leads` say
that each of the two can do what the other does, and in the end every run of one is a run of the
other, but for the arrival of bytes.
-/

namespace CommandPool

/-! ## The line that is read -/

namespace Lines

open Text.Utf8 (encode encode_concat encode_injective)

/-- A text and its line feed are read as that text, but for a carriage return at its end. -/
theorem reading_encode (line : String) : ∃ s, Piece.reading ⟨encode line, true⟩ = .line s ∧
    Text.trim s = Text.trim line := by
  have text : encode (String.ofList (line.toList ++ ['\n'])) =
      (⟨encode line, true⟩ : Piece).whole :=
    encode_concat line (b := lineFeed) (by decide)
  have readAs := readAs_reading ⟨encode line, true⟩
  generalize Piece.reading ⟨encode line, true⟩ = reading at readAs
  cases readAs with
  | fault faulty => exact absurd ⟨_, text⟩ faulty
  | @line s _ content =>
    refine ⟨s, rfl, ?_⟩
    rcases cut ⟨encode line, true⟩ with ⟨unended, _⟩ | ⟨_, whole, _⟩ | ⟨_, whole⟩
    · cases unended
    · rw [← content] at whole
      rw [encode_injective (List.append_cancel_right whole).symm]
    · rw [← content, show encode s ++ [carriageReturn, lineFeed] =
        encode s ++ [carriageReturn] ++ [lineFeed] by simp] at whole
      have same := List.append_cancel_right whole
      rw [← encode_concat s (by decide)] at same
      rw [encode_injective same]
      exact (Text.trim_concat s (by decide)).symm

theorem lineFeed_not_mem_encode {line : String} (unbroken : '\n' ∉ line.toList) :
    lineFeed ∉ encode line :=
  mt (Text.Utf8.mem_encode_iff (by decide)).mp unbroken

/-- Bytes that a line feed ends are all there, or none of those at hand is a line feed. -/
theorem whole_or_unbroken {before unread left : List UInt8} (unbroken : lineFeed ∉ before)
    (whole : unread ++ left = before ++ [lineFeed]) :
    unread = before ++ [lineFeed] ∧ left = [] ∨ lineFeed ∉ unread ∧ left ≠ [] := by
  rcases List.eq_nil_or_concat left with rfl | ⟨front, last, rfl⟩
  · exact Or.inl ⟨by rw [← whole, List.append_nil], rfl⟩
  · rw [List.concat_eq_append, ← List.append_assoc] at whole
    obtain ⟨same, _⟩ := List.append_inj' whole rfl
    refine Or.inr ⟨fun member => unbroken ?_, by simp⟩
    rw [← same]
    exact List.mem_append_left _ member

theorem poll_line {before : List UInt8} (unbroken : lineFeed ∉ before) (rest : List UInt8)
    (atEnd : Bool) : Reader.poll ⟨[], before ++ lineFeed :: rest, atEnd⟩ =
      (some (Piece.reading ⟨before, true⟩), ⟨[], rest, atEnd⟩) := by
  have others : ∀ b ∈ before, (b != lineFeed) = true := fun b member =>
    bne_iff_ne.mpr fun same => unbroken (same ▸ member)
  simp [Reader.poll, List.span_eq_takeWhile_dropWhile, List.takeWhile_append_of_pos others,
    List.dropWhile_append_of_pos others]

theorem poll_unbroken {unread : List UInt8} (unbroken : lineFeed ∉ unread) :
    (Reader.poll ⟨[], unread, false⟩).1 = none := by
  have polls := polls_poll unread false
  generalize Reader.poll ⟨[], unread, false⟩ = result at polls
  cases polls with
  | line same => exact absurd (same ▸ List.mem_append_right _ List.mem_cons_self) unbroken
  | hangs => rfl
  | eof ended => cases ended
  | last ended => cases ended

end Lines

namespace Pool

open Lines (Reader Reading lineFeed)
open Text.Utf8 (encode)

variable {α : Type} {parse : Parse α} {line : String} {left left' : List UInt8}

/-- Texts that are trimmed alike hold the same command. -/
theorem takeLine_of_trim {s t : String} (same : Text.trim s = Text.trim t) (p : Pool α) :
    Feeder.takeLine parse p s = Feeder.takeLine parse p t := by
  rw [Feeder.takeLine, Feeder.takeLine, commandOf?, commandOf?, same]

/-! ## Inputs -/

namespace Intake

/-- The reader of an intake that reads bytes. -/
def reader? : Intake → Option Reader
  | .stream r => some r
  | .drawn r _ => some r
  | _ => none

variable {i : Intake} {r : Reader}

/-- An intake that reads bytes gives what its reader gives.  It may forget that there were no
more bytes. -/
theorem poll_of_reader? (reads : i.reader? = some r) :
    (r.poll.1 = none → i.poll false = none) ∧
      ∀ reading, r.poll.1 = some reading → ∃ i' r', i.poll false = some (reading, i') ∧
        i'.reader? = some r' ∧ r'.front = r.poll.2.front ∧ r'.unread = r.poll.2.unread := by
  cases i with
  | stream r =>
    cases reads
    rcases polled : r.poll with ⟨_ | reading, r'⟩
    · exact ⟨fun _ => by simp [poll, polled], by simp⟩
    · refine ⟨by simp, ?_⟩
      rintro _ ⟨⟩
      exact ⟨.stream r', r', by simp [poll, polled], rfl, rfl, rfl⟩
  | drawn r count =>
    cases reads
    rcases polled : r.poll with ⟨_ | reading, r'⟩
    · exact ⟨fun _ => by simp [poll, polled], by simp⟩
    · refine ⟨by simp, ?_⟩
      rintro _ ⟨⟩
      exact ⟨.drawn r'.reopen count, r'.reopen, by simp [poll, polled], rfl, rfl, rfl⟩
  | _ => cases reads

end Intake

/-- What is still ahead of a feeder that is given the command, and of a reader of the source:
either the command and its line, of which the source still holds a part, or nothing. -/
inductive Ahead (line : String) : List UInt8 → Intake → Reader → Prop where
  | unread {left : List UInt8} {r : Reader} : r.front = [] →
      r.unread ++ left = encode line ++ [lineFeed] → (r.ended = true → left = []) →
      Ahead line left (.single line) r
  | read {r : Reader} : r.front = [] → r.unread = [] → Ahead line [] .spent r

theorem Ahead.deliver {bytes : List UInt8} {j : Intake} {r : Reader}
    (ahead : Ahead line (bytes ++ left) j r) : Ahead line left j (r.deliver bytes) := by
  generalize all : bytes ++ left = held at ahead
  cases ahead with
  | unread front whole ended =>
    subst all
    refine .unread front ?_ fun atEnd => (List.append_eq_nil_iff.mp (ended atEnd)).2
    rw [← whole]
    exact List.append_assoc _ _ _
  | read front unread =>
    obtain ⟨rfl, rfl⟩ := List.append_eq_nil_iff.mp all
    exact .read front ((List.append_nil _).trans unread)

theorem Ahead.finish {j : Intake} {r : Reader} (ahead : Ahead line [] j r) :
    Ahead line [] j r.finish := by
  cases ahead with
  | unread front whole => exact .unread front whole fun _ => rfl
  | read front unread => exact .read front unread

/-- What an intake that reads the source does when it is polled: it hangs until the source has
given more or has ended, or it gives what is taken like the reading of the command, or the end
after both. -/
inductive Meets (line : String) (left : List UInt8) (j i : Intake) (r : Reader) : Prop where
  | hangs : i.poll false = none → r.ended = false → (left = [] → j = .spent) →
      Meets line left j i r
  | gives {reading reading' : Reading} {j' i' : Intake} {r' : Reader} :
      i.poll false = some (reading, i') → j.poll false = some (reading', j') →
      (∀ {α : Type} (parse : Parse α) (p : Pool α),
        Feeder.take parse p reading = Feeder.take parse p reading') →
      i'.reader? = some r' → Ahead line left j' r' → Meets line left j i r

theorem Ahead.meets {j i : Intake} {r : Reader} (ahead : Ahead line left j r)
    (reads : i.reader? = some r) (unbroken : lineFeed ∉ encode line) :
    Meets line left j i r := by
  obtain ⟨hangs, gives⟩ := Intake.poll_of_reader? reads
  obtain ⟨front, unread, atEnd⟩ := r
  cases ahead with
  | unread none whole ended =>
    cases none
    rcases Lines.whole_or_unbroken unbroken whole with ⟨rfl, rfl⟩ | ⟨part, more⟩
    · rw [Lines.poll_line unbroken] at gives
      obtain ⟨s, reading, same⟩ := Lines.reading_encode line
      obtain ⟨i', r', polled, reads', front, unread⟩ := gives _ rfl
      rw [reading] at polled
      exact .gives polled rfl (fun parse p => takeLine_of_trim same p) reads' (.read front unread)
    · cases atEnd with
      | true => exact absurd (ended rfl) more
      | false => exact .hangs (hangs (Lines.poll_unbroken part)) rfl (absurd · more)
  | read none nothing =>
    cases none
    cases nothing
    cases atEnd with
    | false => exact .hangs (hangs rfl) rfl fun _ => rfl
    | true =>
      obtain ⟨i', r', polled, reads', front, unread⟩ := gives _ rfl
      exact .gives polled rfl (fun parse p => rfl) reads' (.read front unread)

namespace Fed

variable {c c' f f' f'' : Fed α} {l : Label α}

/-! ## Runs on a source -/

/-- The label changes what the feeder has to read. -/
def Label.isInput : Label α → Bool
  | .arrive _ => true
  | .inputEnds => true
  | .draw _ => true
  | _ => false

/-- A source gives the bytes that it holds in their order, and ends when it has given all of
them.  It holds the first bytes before the step and the second ones after it. -/
inductive Brings : Intake → List UInt8 → Label α → List UInt8 → Prop where
  | own {i : Intake} {left : List UInt8} {l : Label α} : l.isInput = false → Brings i left l left
  | arrive {i : Intake} {left left' bytes : List UInt8} : left = bytes ++ left' →
      Brings i left (.arrive bytes) left'
  | inputEnds {i : Intake} : Brings i [] .inputEnds []
  | draw {r : Reader} {count : Nat} {left left' bytes : List UInt8} : left = bytes ++ left' →
      (bytes = [] → left' = []) → Brings (.drawn r count) left (.draw (.ok bytes)) left'

theorem Brings.eq_of_own {i : Intake} (brings : Brings i left l left')
    (own : l.isInput = false) : left' = left := by
  cases brings with
  | own => rfl
  | _ => cases own

/-- A run without a cancellation in which the feeder is the only client.  The source holds the
first bytes at its start and the second ones at its end. -/
inductive RunsOn (parse : Parse α) : List UInt8 → Fed α → List (Label α) → List UInt8 → Fed α →
    Prop where
  | refl (left : List UInt8) (f : Fed α) : RunsOn parse left f [] left f
  | step {left left' left'' : List UInt8} {f f' f'' : Fed α} {l : Label α} {ls : List (Label α)} :
      Brings f.feeder.intake left l left' → l.cancels = false → IsAlone f l →
      f.step parse l = some f' → RunsOn parse left' f' ls left'' f'' →
      RunsOn parse left f (l :: ls) left'' f''

theorem RunsOn.trans {left'' : List UInt8} {ls ms : List (Label α)}
    (first : RunsOn parse left f ls left' f') (second : RunsOn parse left' f' ms left'' f'') :
    RunsOn parse left f (ls ++ ms) left'' f'' := by
  induction first with
  | refl => exact second
  | step brings kept alone stepped _ ih => exact .step brings kept alone stepped (ih second)

/-- The labels but for those that change what the feeder has to read. -/
def own (ls : List (Label α)) : List (Label α) := ls.filter (!·.isInput)

theorem own_append (ls ms : List (Label α)) : own (ls ++ ms) = own ls ++ own ms :=
  List.filter_append ls ms

/-- The pools are the same, with all that has happened in them, and their feeders are doing the
same. -/
structure Agree (c f : Fed α) : Prop where
  pool : c.pool = f.pool
  feeding : c.feeder.feeding = f.feeder.feeding

theorem Agree.symm (agree : Agree c f) : Agree f c := ⟨agree.pool.symm, agree.feeding.symm⟩

/-! ## Two runs in parallel -/

/-- The first is given the command, and the second its line. -/
structure Parallel (line : String) (left : List UInt8) (c f : Fed α) : Prop where
  agree : Agree c f
  running : f.pool.cancelled = false
  ahead : ∃ r, f.feeder.intake.reader? = some r ∧ Ahead line left c.feeder.intake r

theorem running_step (running : f.pool.cancelled = false) (kept : l.cancels = false)
    (step : f.step parse l = some f') : f'.pool.cancelled = false := by
  rcases Moves.piece (moves_of_step step) kept with same | ⟨m, kept, piece⟩
  · rw [same, running]
  · rw [cancelled_stepPiece piece, running, kept]
    rfl

/-- A feeder that reads. -/
theorem step_feed_of_reading {reading : Reading} {i : Intake}
    (reads : f.feeder.feeding = .reading) (running : f.pool.cancelled = false)
    (polled : f.feeder.intake.poll false = some (reading, i)) : f.step parse .feed =
      (Feeder.take parse f.pool reading).map fun x => ⟨x.1, ⟨i, x.2⟩⟩ := by
  simp only [step, Feeder.step, reads, running, polled, Option.bind_some, Option.map_map]
  rfl

/-- A feeder that looks at the job that it offers. -/
theorem step_feed_of_offering {ticket : Nat} {text : String}
    (offers : f.feeder.feeding = .offering ticket text) : f.step parse .feed =
      (Feeder.lookAtOffer f.pool ticket text).map fun x => ⟨x.1, ⟨f.feeder.intake, x.2⟩⟩ := by
  simp only [step, Feeder.step, offers, Option.map_map]
  rfl

theorem step_feed_of_finished (finished : f.feeder.feeding = .finished) :
    f.step parse .feed = none := by
  simp only [step, Feeder.step, finished, Option.map_none]

/-- Both feeders do the same, unless the source keeps its one waiting. -/
theorem Parallel.feeds (parse : Parse α) (parallel : Parallel line left c f)
    (unbroken : lineFeed ∉ encode line)
    (ready : f.feeder.feeding = .reading → f.feeder.intake.poll false ≠ none) :
    ∃ (result : Option (Pool α × Feeding)) (j i : Intake) (r : Reader),
      c.step parse .feed = (result.map fun x => ⟨x.1, ⟨j, x.2⟩⟩) ∧
      f.step parse .feed = (result.map fun x => ⟨x.1, ⟨i, x.2⟩⟩) ∧
      i.reader? = some r ∧ Ahead line left j r := by
  obtain ⟨⟨pool, feeding⟩, running, r, reads, ahead⟩ := parallel
  cases doing : f.feeder.feeding with
  | reading =>
    cases ahead.meets reads unbroken with
    | hangs hangs => exact absurd hangs (ready doing)
    | @gives reading reading' j i r' polled polled' same reads' ahead' =>
      refine ⟨_, j, i, r', ?_, step_feed_of_reading doing running polled, reads', ahead'⟩
      rw [same, ← pool]
      exact step_feed_of_reading (feeding.trans doing) (pool ▸ running) polled'
  | offering ticket text =>
    refine ⟨_, _, _, r, ?_, step_feed_of_offering doing, reads, ahead⟩
    rw [← pool]
    exact step_feed_of_offering (feeding.trans doing)
  | finished =>
    exact ⟨none, _, _, r, step_feed_of_finished (feeding.trans doing),
      step_feed_of_finished doing, reads, ahead⟩

/-- Bytes arrive or are drawn, or there are no more, and nothing else happens. -/
theorem Parallel.input (parallel : Parallel line left c f)
    (brings : Brings f.feeder.intake left l left') (input : l.isInput = true)
    (step : f.step parse l = some f') : Parallel line left' c f' := by
  obtain ⟨⟨pool, feeding⟩, running, r, reads, ahead⟩ := parallel
  obtain ⟨p, i, doing⟩ := f
  cases l with
  | pool => cases input
  | feed => cases input
  | arrive bytes =>
    obtain ⟨awaits, same⟩ := Option.ite_none_right_eq_some.mp step
    cases same
    cases brings with
    | own none => cases none
    | arrive all =>
      subst all
      cases i with
      | stream r =>
        cases reads
        exact ⟨⟨pool, feeding⟩, running, _, rfl, ahead.deliver⟩
      | _ => cases awaits
  | inputEnds =>
    obtain ⟨awaits, same⟩ := Option.ite_none_right_eq_some.mp step
    cases same
    cases brings with
    | own none => cases none
    | inputEnds =>
      cases i with
      | stream r =>
        cases reads
        exact ⟨⟨pool, feeding⟩, running, _, rfl, ahead.finish⟩
      | _ => cases awaits
  | draw got =>
    obtain ⟨_, same⟩ := Option.ite_none_right_eq_some.mp step
    cases same
    cases brings with
    | own none => cases none
    | @draw r count _ _ bytes all ends =>
      subst all
      cases reads
      refine ⟨⟨pool, feeding⟩, running, ?_⟩
      cases bytes with
      | nil =>
        cases ends rfl
        exact ⟨_, rfl, ahead.finish⟩
      | cons b bytes => exact ⟨_, rfl, ahead.deliver⟩

/-- Whatever the source still holds may come at once, or else its end. -/
theorem exists_input {r : Reader} (parse : Parse α) (doing : f.feeder.feeding = .reading)
    (running : f.pool.cancelled = false) (hangs : f.feeder.intake.poll false = none)
    (open_ : r.ended = false) (reads : f.feeder.intake.reader? = some r) (left : List UInt8) :
    ∃ l f', l.isInput = true ∧ Brings f.feeder.intake left l [] ∧ f.step parse l = some f' ∧
      f'.feeder.feeding = .reading ∧
      f'.feeder.intake.reader? = some (if left = [] then r.finish else r.deliver left) := by
  obtain ⟨p, i, _⟩ := f
  cases doing
  have all := (List.append_nil left).symm
  cases i with
  | stream r =>
    cases reads
    have awaits : (⟨p, ⟨.stream r, .reading⟩⟩ : Fed α).awaitsBytes = true := by
      simp [awaitsBytes, open_]
    cases left with
    | nil => exact ⟨.inputEnds, _, rfl, .inputEnds, if_pos awaits, rfl, rfl⟩
    | cons b bytes => exact ⟨.arrive (b :: bytes), _, rfl, .arrive all, if_pos awaits, rfl, rfl⟩
  | drawn r count =>
    cases reads
    have hungers : (⟨p, ⟨.drawn r count, .reading⟩⟩ : Fed α).hungers = true := by
      simp only [Fed.hungers, running, hangs]
      rfl
    refine ⟨.draw (.ok left), _, rfl, .draw all fun _ => rfl, if_pos hungers, rfl, ?_⟩
    cases left <;> rfl
  | _ => cases reads

/-- The feeder need not hang: once the source has given all that it holds, the line is there,
and once it has ended the end is. -/
theorem Parallel.ready (parse : Parse α) (parallel : Parallel line left c f)
    (unbroken : lineFeed ∉ encode line) :
    ∃ ls left' f', RunsOn parse left f ls left' f' ∧ own ls = [] ∧ Parallel line left' c f' ∧
      (f'.feeder.feeding = .reading → f'.feeder.intake.poll false ≠ none) := by
  by_cases hangs : f.feeder.feeding = .reading ∧ f.feeder.intake.poll false = none
  · obtain ⟨doing, hangs⟩ := hangs
    obtain ⟨_, running, r, reads, ahead⟩ := id parallel
    cases ahead.meets reads unbroken with
    | gives polled => cases hangs.symm.trans polled
    | hangs _ open_ ended =>
      obtain ⟨l, f', input, brings, step, doing', reads'⟩ :=
        exists_input parse doing running hangs open_ reads left
      have now := parallel.input brings input step
      refine ⟨[l], [], f', .step brings ?_ ?_ step (.refl _ _), ?_, now, fun _ hangs' => ?_⟩
      · cases l <;> first | rfl | cases input
      · cases l <;> trivial
      · simp [own, input]
      · obtain ⟨_, _, r', same, ahead'⟩ := now
        cases reads'.symm.trans same
        cases ahead'.meets reads' unbroken with
        | gives polled => cases hangs'.symm.trans polled
        | hangs _ open' ended' =>
          -- What is ahead is nothing but the end, and that is there now.
          have spent := ended' rfl
          rw [spent] at ahead
          cases ahead
          rw [if_pos rfl] at open'
          cases open'
  · exact ⟨[], left, f, .refl _ _, rfl, parallel, fun doing polled => hangs ⟨doing, polled⟩⟩

/-! ## Each of the two follows the other -/

theorem Parallel.after (parallel : Parallel line left c f) (kept : l.cancels = false)
    (step : f.step parse l = some f') (pool : c'.pool = f'.pool)
    (feeding : c'.feeder.feeding = f'.feeder.feeding) {r : Reader}
    (reads : f'.feeder.intake.reader? = some r) (ahead : Ahead line left c'.feeder.intake r) :
    Parallel line left c' f' :=
  ⟨⟨pool, feeding⟩, running_step parallel.running kept step, r, reads, ahead⟩

/-- The pool that is given the command can do what the other one does. -/
theorem Parallel.follows (parallel : Parallel line left c f) (unbroken : lineFeed ∉ encode line)
    (own : l.isInput = false) (kept : l.cancels = false) (step : f.step parse l = some f') :
    ∃ c', c.step parse l = some c' ∧ Parallel line left c' f' := by
  obtain ⟨⟨pool, feeding⟩, running, r, reads, ahead⟩ := id parallel
  cases l with
  | pool l =>
    obtain ⟨p, piece, rfl⟩ := Option.map_eq_some_iff.mp step
    refine ⟨⟨p, c.feeder⟩, ?_, parallel.after kept step rfl feeding reads ahead⟩
    rw [← pool] at piece
    exact Option.map_eq_some_iff.mpr ⟨p, piece, rfl⟩
  | feed =>
    have ready : f.feeder.feeding = .reading → f.feeder.intake.poll false ≠ none := by
      intro doing hangs
      simp [Fed.step, Feeder.step, doing, running, hangs] at step
    obtain ⟨result, j, i, r', here, there, reads', ahead'⟩ := parallel.feeds parse unbroken ready
    obtain ⟨⟨q, feeding'⟩, taken, same⟩ := Option.map_eq_some_iff.mp (there.symm.trans step)
    cases same
    refine ⟨⟨q, ⟨j, feeding'⟩⟩, ?_, parallel.after kept step rfl rfl reads' ahead'⟩
    rw [here, taken]
    rfl
  | _ => cases own

theorem Agree.isAlone (agree : Agree c f) (alone : IsAlone c l) : IsAlone f l := by
  cases l with
  | pool l => exact alone.imp_right (And.imp_left agree.feeding.symm.trans)
  | _ => trivial

/-- A pool that is given the command does not wait for bytes. -/
theorem Parallel.isInput_of_step (parallel : Parallel line left c f)
    (step : c.step parse l = some c') : l.isInput = false := by
  obtain ⟨_, _, r, _, ahead⟩ := parallel
  obtain ⟨p, i, doing⟩ := c
  cases l with
  | pool => rfl
  | feed => rfl
  | draw got =>
    obtain ⟨hungers, _⟩ := Option.ite_none_right_eq_some.mp step
    cases ahead <;> simp [Fed.hungers, Intake.poll] at hungers
  | _ =>
    obtain ⟨awaits, _⟩ := Option.ite_none_right_eq_some.mp step
    cases ahead <;> cases awaits

/-- The pool that is given the source can do what the other one does, if need be when more of
the source has come. -/
theorem Parallel.leads (parallel : Parallel line left c f) (unbroken : lineFeed ∉ encode line)
    (kept : l.cancels = false) (alone : IsAlone c l) (step : c.step parse l = some c') :
    ∃ ls left' f', RunsOn parse left f ls left' f' ∧ own ls = [l] ∧ Parallel line left' c' f' := by
  have isOwn := parallel.isInput_of_step step
  have mine : own [l] = [l] := by simp [own, isOwn]
  cases l with
  | pool l =>
    obtain ⟨⟨pool, feeding⟩, running, r, reads, ahead⟩ := id parallel
    obtain ⟨p, piece, rfl⟩ := Option.map_eq_some_iff.mp step
    rw [pool] at piece
    have step' : f.step parse (.pool l) = some ⟨p, f.feeder⟩ :=
      Option.map_eq_some_iff.mpr ⟨p, piece, rfl⟩
    exact ⟨_, left, _, .step (.own isOwn) kept (parallel.agree.isAlone alone) step' (.refl _ _),
      mine, parallel.after kept step' rfl feeding reads ahead⟩
  | feed =>
    obtain ⟨ls, left', f', runs, none, parallel', ready⟩ := parallel.ready parse unbroken
    obtain ⟨result, j, i, r', here, there, reads', ahead'⟩ :=
      parallel'.feeds parse unbroken ready
    obtain ⟨⟨q, feeding'⟩, taken, same⟩ := Option.map_eq_some_iff.mp (here.symm.trans step)
    cases same
    rw [taken] at there
    have last : RunsOn parse left' f' [.feed] left' _ :=
      .step (.own isOwn) kept trivial there (.refl _ _)
    refine ⟨ls ++ [.feed], left', _, runs.trans last, ?_,
      parallel'.after kept there rfl rfl reads' ahead'⟩
    rw [own_append, none, mine]
    rfl
  | _ => cases isOwn

/-- What the pool that is given the source does, the other one does too. -/
theorem Parallel.follows_runs {ls : List (Label α)} (parallel : Parallel line left c f)
    (unbroken : lineFeed ∉ encode line) (runs : RunsOn parse left f ls left' f') :
    ∃ c', RunsOn parse [] c (own ls) [] c' ∧ Parallel line left' c' f' := by
  induction runs generalizing c with
  | refl => exact ⟨c, .refl _ _, parallel⟩
  | @step _ _ _ f next _ l ls brings kept alone step _ ih =>
    cases input : l.isInput with
    | true =>
      obtain ⟨c', rest, parallel'⟩ := ih (parallel.input brings input step)
      refine ⟨c', ?_, parallel'⟩
      rwa [own, List.filter_cons_of_neg (by simp [input])]
    | false =>
      cases brings.eq_of_own input
      obtain ⟨now, first, parallel'⟩ := parallel.follows unbroken input kept step
      obtain ⟨c', rest, parallel''⟩ := ih parallel'
      refine ⟨c', ?_, parallel''⟩
      rw [own, List.filter_cons_of_pos (by simp [input])]
      exact .step (.own input) kept (parallel.agree.symm.isAlone alone) first rest

/-- What the pool that is given the command does, the other one does too. -/
theorem Parallel.leads_runs {held held' : List UInt8} {ms : List (Label α)}
    (parallel : Parallel line left c f) (unbroken : lineFeed ∉ encode line)
    (runs : RunsOn parse held c ms held' c') :
    ∃ ls left' f', RunsOn parse left f ls left' f' ∧ own ls = ms ∧ Parallel line left' c' f' := by
  induction runs generalizing left f with
  | refl => exact ⟨[], left, f, .refl _ _, rfl, parallel⟩
  | step _ kept alone step _ ih =>
    obtain ⟨first, _, _, runs, one, parallel'⟩ := parallel.leads unbroken kept alone step
    obtain ⟨later, left', f', runs', rest, parallel''⟩ := ih parallel'
    refine ⟨first ++ later, left', f', runs.trans runs', ?_, parallel''⟩
    rw [own_append, one, rest]
    rfl

theorem parallel_new {p : Pool α} {intake : Intake} (line : String)
    (running : p.cancelled = false) (empty : intake.reader? = some .empty) :
    Parallel line (encode line ++ [lineFeed]) ⟨p, .new (.single line)⟩ ⟨p, .new intake⟩ :=
  ⟨⟨rfl, rfl⟩, running, _, empty, .unread rfl rfl nofun⟩

/-- A text without a line feed is run as a command, and read from a source that holds it and a
line feed.  However the bytes arrive and everything overlaps:

* for every run of the command there is one of the source that takes the same steps and leads to
  the same pool, so to the same jobs, attempts, counters and log,
* for every run of the source there is one of the command in the same way, and from there the
  source can go on as the command can, to the end of both. -/
theorem command_and_line_agree {p : Pool α} {intake : Intake} (unbroken : '\n' ∉ line.toList)
    (running : p.cancelled = false) (empty : intake.reader? = some .empty) :
    (∀ ms c, RunsOn parse [] ⟨p, .new (.single line)⟩ ms [] c →
      ∃ ls left f, RunsOn parse (encode line ++ [lineFeed]) ⟨p, .new intake⟩ ls left f ∧
        own ls = ms ∧ Agree c f) ∧
    (∀ ls left f, RunsOn parse (encode line ++ [lineFeed]) ⟨p, .new intake⟩ ls left f →
      ∃ c, RunsOn parse [] ⟨p, .new (.single line)⟩ (own ls) [] c ∧ Agree c f ∧
        ∀ ms c', RunsOn parse [] c ms [] c' →
          ∃ ls' left' f', RunsOn parse left f ls' left' f' ∧ own ls' = ms ∧ Agree c' f') := by
  have unbroken := Lines.lineFeed_not_mem_encode unbroken
  have start := parallel_new line running empty
  refine ⟨fun ms c runs => ?_, fun ls left f runs => ?_⟩
  · obtain ⟨ls, left, f, runs, same, parallel⟩ := start.leads_runs unbroken runs
    exact ⟨ls, left, f, runs, same, parallel.agree⟩
  · obtain ⟨c, runs, parallel⟩ := start.follows_runs unbroken runs
    refine ⟨c, runs, parallel.agree, fun ms c' runs => ?_⟩
    obtain ⟨ls, left', f', runs, same, parallel⟩ := parallel.leads_runs unbroken runs
    exact ⟨ls, left', f', runs, same, parallel.agree⟩

/-- A line comes in three portions, the last of which is its line feed. -/
def dripping : List (Label Unit) :=
  [.draw (.ok [0x74, 0x72]), .draw (.ok [0x79, 0x0d]), .draw (.ok [0x0a]), .feed,
    .pool (.whole (.look 0)), .feed, .pool (.whole (.start 0)), .feed, .draw (.ok []), .feed,
    .pool (.whole .beginJoin), .pool (.whole (.finish 0 (.plain (.ok ())))),
    .pool (.whole (.look 0)), .pool (.whole (.look 1)), .pool (.whole .join),
    .pool (.whole .join)]

theorem command_and_line_agree_dripping :
    ∃ c f, '\n' ∉ "try\r".toList ∧
      RunsOn labelled (encode "try\r" ++ [lineFeed])
        ⟨started pair false, .new (.drawn .empty 0)⟩ dripping [] f ∧
      RunsOn labelled [] ⟨started pair false, .new (.single "try\r")⟩ (own dripping) [] c ∧
      Agree c f ∧ c.pool.isJoined = true ∧ c.pool.counters = ⟨1, 0, 0, 0, 0⟩ ∧
      c.pool.queue.jobs = [.single "try" ()] := by
  have bytes : encode "try\r" ++ [lineFeed] = [0x74, 0x72, 0x79, 0x0d, 0x0a] := by
    decide +kernel
  obtain ⟨f, runs, joined, counters, jobs⟩ : ∃ f, RunsOn labelled (encode "try\r" ++ [lineFeed])
      ⟨started pair false, .new (.drawn .empty 0)⟩ dripping [] f ∧ f.pool.isJoined = true ∧
      f.pool.counters = ⟨1, 0, 0, 0, 0⟩ ∧ f.pool.queue.jobs = [.single "try" ()] := by
    rw [bytes]
    refine ⟨?f, ?run, ?_⟩
    case run =>
      repeat' first
        | exact .refl _ _
        | refine .step (.draw rfl fun _ => rfl) rfl trivial rfl ?_
        | refine .step (.draw rfl nofun) rfl trivial rfl ?_
        | refine .step (.own rfl) rfl trivial rfl ?_
        | refine .step (.own rfl) rfl (Or.inl rfl) rfl ?_
        | refine .step (.own rfl) rfl (Or.inr ⟨rfl, rfl⟩) rfl ?_
    exact ⟨rfl, rfl, rfl⟩
  have unbroken : '\n' ∉ "try\r".toList := by decide +kernel
  obtain ⟨c, command, agree, _⟩ :=
    (command_and_line_agree (p := started pair false) unbroken rfl rfl).2 dripping [] f runs
  refine ⟨c, f, unbroken, runs, command, agree, ?_⟩
  rw [agree.pool]
  exact ⟨joined, counters, jobs⟩

end Fed

end Pool

end CommandPool

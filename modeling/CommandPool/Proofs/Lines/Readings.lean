import CommandPool.Pool.Feeding
import Mathlib.Data.List.TakeDrop

/-!
# What is read of an input

The lines of an input depend on its bytes alone, and on where it had an end while it was
read, but not on when they are read.  `Intake.readings` is the list of all readings that an
intake has yet to give, and `poll_takesOff` says that a poll takes the first one off.
-/

namespace CommandPool

namespace Lines

/-! ## Bytes in pieces -/

theorem pieces_line {before : List UInt8} (unbroken : lineFeed ∉ before) (rest : List UInt8) :
    pieces (before ++ lineFeed :: rest) = ⟨before, true⟩ :: pieces rest := by
  induction before with
  | nil => rfl
  | cons b before ih =>
    obtain ⟨other, unbroken⟩ := not_or.mp (mt List.mem_cons.mpr unbroken)
    rw [List.cons_append, pieces, if_neg (Ne.symm other), ih unbroken]
    rfl

theorem pieces_of_unbroken {bytes : List UInt8} (unbroken : lineFeed ∉ bytes)
    (some_byte : bytes ≠ []) : pieces bytes = [⟨bytes, false⟩] := by
  induction bytes with
  | nil => exact absurd rfl some_byte
  | cons b bytes ih =>
    obtain ⟨other, unbroken⟩ := not_or.mp (mt List.mem_cons.mpr unbroken)
    rw [pieces, if_neg (Ne.symm other)]
    cases bytes with
    | nil => rfl
    | cons c bytes =>
      rw [ih unbroken (List.cons_ne_nil c bytes)]
      rfl

/-! ## Portions -/

theorem flatten_portionsOf (size budget : Nat) (bytes : List UInt8) :
    (portionsOf size budget bytes).flatten = bytes := by
  induction budget generalizing bytes with
  | zero => cases bytes <;> simp [portionsOf]
  | succ budget ih =>
    cases bytes with
    | nil => rfl
    | cons b bytes =>
      rw [portionsOf, List.flatten_cons, ih]
      · exact List.take_append_drop _ _
      · simp

/-- What is drawn at a time: bytes, or none at an end, or a fault. -/
abbrev Draw := Except Files.Fault (List UInt8)

/-- The readings of the pieces that a line feed ends. -/
def ended (bytes : List UInt8) : List Reading :=
  ((pieces bytes).filter (·.ended)).map (·.reading)

/-- The readings of bytes that are held and of what is drawn after them.  At an end what is
held is read up.  If that ends with a line feed, the end is for good. -/
def readings : (held : List UInt8) → List Draw → List Reading
  | held, [] => ended held
  | held, .error fault :: _ => ended held ++ [.fault fault]
  | held, .ok bytes :: later =>
    if bytes.isEmpty then
      (pieces held).map (·.reading) ++
        if (pieces held).all (·.ended) then [] else readings [] later
    else readings (held ++ bytes) later

theorem ended_line {before : List UInt8} (unbroken : lineFeed ∉ before) (rest : List UInt8) :
    ended (before ++ lineFeed :: rest) = Piece.reading ⟨before, true⟩ :: ended rest := by
  rw [ended, pieces_line unbroken]
  rfl

theorem ended_of_unbroken {bytes : List UInt8} (unbroken : lineFeed ∉ bytes) :
    ended bytes = [] := by
  cases bytes with
  | nil => rfl
  | cons b bytes =>
    rw [ended, pieces_of_unbroken unbroken (List.cons_ne_nil b bytes)]
    rfl

/-- The first line that is held is read first. -/
theorem readings_line {before : List UInt8} (unbroken : lineFeed ∉ before) (rest : List UInt8)
    (later : List Draw) : readings (before ++ lineFeed :: rest) later =
      Piece.reading ⟨before, true⟩ :: readings rest later := by
  induction later generalizing rest with
  | nil => exact ended_line unbroken rest
  | cons draw later ih =>
    cases draw with
    | error fault =>
      rw [readings, ended_line unbroken]
      rfl
    | ok bytes =>
      rw [readings, readings]
      split
      next =>
        rw [pieces_line unbroken]
        rfl
      next =>
        rw [List.append_assoc, List.cons_append]
        exact ih (rest ++ bytes)

/-- The lines in front of the first reading that is none. -/
def linesOf : List Reading → List String
  | .line s :: rest => s :: linesOf rest
  | _ => []

/-- The lines of bytes in front of the first one that cannot be read. -/
def linesIn (bytes : List UInt8) : List String := linesOf ((pieces bytes).map (·.reading))

/-- The reading is the first one of the lines before, if it is a line, and else there are
none. -/
structure TakesOff (reading : Reading) (before after : List Reading) : Prop where
  line : ∀ s, reading = .line s → linesOf before = s :: linesOf after
  other : (∀ s, reading ≠ .line s) → linesOf before = []

theorem takesOff_cons (reading : Reading) (after : List Reading) :
    TakesOff reading (reading :: after) after where
  line := by
    rintro s rfl
    rfl
  other := by
    intro none
    cases reading with
    | line s => exact absurd rfl (none s)
    | _ => rfl

/-- Successive draws are portions of these bytes, none of them empty, and then nothing is left. -/
inductive Portions : List UInt8 → List Draw → Prop where
  | ends : Portions [] [.ok []]
  | still {later : List Draw} : Portions [] later → Portions [] (.ok [] :: later)
  | portion {bytes rest : List UInt8} {later : List Draw} : bytes ≠ [] → Portions rest later →
      Portions (bytes ++ rest) (.ok bytes :: later)

/-- Whatever the bytes, they can be drawn. -/
theorem exists_portions (bytes : List UInt8) : ∃ later, Portions bytes later := by
  cases bytes with
  | nil => exact ⟨_, .ends⟩
  | cons b bytes =>
    have all : Portions ((b :: bytes) ++ []) _ := .portion (List.cons_ne_nil b bytes) .ends
    rw [List.append_nil] at all
    exact ⟨_, all⟩

/-- Bytes that are given in portions are read line by line, whatever the portions. -/
theorem readings_of_portions {bytes : List UInt8} {later : List Draw}
    (portions : Portions bytes later) (held : List UInt8) :
    readings held later = (pieces (held ++ bytes)).map (·.reading) := by
  induction portions generalizing held with
  | ends => simp [readings, ended, pieces]
  | still _ ih => simp [readings, ih, pieces]
  | @portion bytes rest later some_byte _ ih =>
    have filled : bytes.isEmpty = false := by simpa using some_byte
    rw [readings, filled, ← List.append_assoc]
    exact ih (held ++ bytes)

/-! ## Polls -/

/-- What is held is cut at the first line feed. -/
theorem span_lineFeed (bytes : List UInt8) :
    (∃ before rest, bytes.span (· != lineFeed) = (before, lineFeed :: rest) ∧
      bytes = before ++ lineFeed :: rest ∧ lineFeed ∉ before) ∨
    (bytes.span (· != lineFeed) = (bytes, []) ∧ lineFeed ∉ bytes) := by
  have whole : bytes.takeWhile (· != lineFeed) ++ bytes.dropWhile (· != lineFeed) = bytes :=
    List.takeWhile_append_dropWhile
  have unbroken : lineFeed ∉ bytes.takeWhile (· != lineFeed) := by
    intro member
    have other := List.all_eq_true.mp List.all_takeWhile lineFeed member
    cases other
  have first := List.head?_dropWhile_not (· != lineFeed) bytes
  rw [List.span_eq_takeWhile_dropWhile]
  cases back : bytes.dropWhile (· != lineFeed) with
  | nil =>
    rw [back, List.append_nil] at whole
    rw [whole] at unbroken ⊢
    exact Or.inr ⟨rfl, unbroken⟩
  | cons b rest =>
    rw [back] at first whole
    have feed : b = lineFeed := bne_eq_false_iff_eq.mp first
    subst feed
    exact Or.inl ⟨_, rest, rfl, whole.symm, unbroken⟩

/-- A poll of a reader that holds bytes: it gives the line up to the first line feed, or at
an end all that is held. -/
inductive Polls (unread : List UInt8) (atEnd : Bool) : Option Reading × Reader → Prop where
  | line {before rest : List UInt8} : unread = before ++ lineFeed :: rest → lineFeed ∉ before →
      Polls unread atEnd (some (Piece.reading ⟨before, true⟩), ⟨[], rest, atEnd⟩)
  | hangs : atEnd = false → lineFeed ∉ unread → Polls unread atEnd (none, ⟨unread, [], atEnd⟩)
  | eof : atEnd = true → unread = [] → Polls unread atEnd (some .eof, ⟨[], [], atEnd⟩)
  | last : atEnd = true → lineFeed ∉ unread → unread ≠ [] →
      Polls unread atEnd (some (Piece.reading ⟨unread, false⟩), ⟨[], [], atEnd⟩)

theorem polls_poll (unread : List UInt8) (atEnd : Bool) :
    Polls unread atEnd (Reader.poll ⟨[], unread, atEnd⟩) := by
  unfold Reader.poll
  rcases span_lineFeed unread with ⟨before, rest, cut, same, unbroken⟩ | ⟨uncut, unbroken⟩
  · simp only [cut, List.nil_append]
    exact .line same unbroken
  · simp only [uncut, List.nil_append]
    cases atEnd with
    | false => exact .hangs rfl unbroken
    | true =>
      cases unread with
      | nil => exact .eof rfl rfl
      | cons b bytes => exact .last rfl unbroken (List.cons_ne_nil b bytes)

end Lines

namespace Pool

namespace Intake

open Lines (Draw Reading lineFeed)

/-- The readings that an intake has yet to give, if this is what will be drawn. -/
def readings (later : List Draw) : Intake → List Reading
  | .stream r => (Lines.pieces r.unread).map (·.reading)
  | .drawn r _ => Lines.readings r.unread (if r.ended then .ok [] :: later else later)
  | .broken fault => [.fault fault]
  | .single line => [.line line]
  | .spent => []

/-- All bytes of the intake are there, or those at hand were looked at before the end was
found. -/
def Settled : Intake → Prop
  | .stream r => r.front = [] ∧ r.ended = true
  | .drawn r _ => r.front = [] ∧ (r.ended = true → lineFeed ∉ r.unread)
  | _ => True

variable {i i' : Intake} {reading : Reading}

/-- A poll takes off what is read. -/
theorem poll_takesOff (settled : i.Settled) (polled : i.poll false = some (reading, i'))
    (later : List Draw) :
    i'.Settled ∧ Lines.TakesOff reading (i.readings later) (i'.readings later) := by
  have gives : ∀ {i' : Intake}, i'.Settled → i.readings later = reading :: i'.readings later →
      i'.Settled ∧ Lines.TakesOff reading (i.readings later) (i'.readings later) :=
    fun settled same => ⟨settled, same ▸ Lines.takesOff_cons reading _⟩
  cases i with
  | single line => cases polled; exact gives trivial rfl
  | spent => cases polled; exact ⟨trivial, nofun, fun _ => rfl⟩
  | broken fault => cases polled; exact ⟨trivial, nofun, fun _ => rfl⟩
  | stream r =>
    obtain ⟨front, unread, atEnd⟩ := r
    obtain ⟨rfl, rfl⟩ : front = [] ∧ atEnd = true := settled
    have polls := Lines.polls_poll unread true
    simp only [poll, Bool.false_eq_true, if_false] at polled
    generalize Lines.Reader.poll ⟨[], unread, true⟩ = result at polls polled
    cases polls with
    | line same unbroken =>
      cases polled
      exact gives ⟨rfl, rfl⟩ (by rw [readings, same, Lines.pieces_line unbroken]; rfl)
    | hangs => cases polled
    | eof _ none =>
      cases polled
      subst none
      exact ⟨⟨rfl, rfl⟩, by simp, fun _ => rfl⟩
    | last _ unbroken some_byte =>
      cases polled
      exact gives ⟨rfl, rfl⟩
        (by rw [readings, Lines.pieces_of_unbroken unbroken some_byte]; rfl)
  | drawn r count =>
    obtain ⟨front, unread, atEnd⟩ := r
    obtain ⟨rfl, looked⟩ : front = [] ∧ (atEnd = true → lineFeed ∉ unread) := settled
    have polls := Lines.polls_poll unread atEnd
    simp only [poll, Bool.false_eq_true, if_false] at polled
    generalize Lines.Reader.poll ⟨[], unread, atEnd⟩ = result at polls polled
    cases polls with
    | line same unbroken =>
      cases polled
      have running : atEnd = false := by
        refine eq_false_of_ne_true fun ended => looked ended ?_
        rw [same]
        exact List.mem_append_right _ List.mem_cons_self
      subst running
      exact gives ⟨rfl, by simp [Lines.Reader.reopen]⟩
        (by rw [readings, same]; exact Lines.readings_line unbroken _ later)
    | hangs => cases polled
    | eof ended none =>
      cases polled
      subst ended none
      exact ⟨⟨rfl, by simp [Lines.Reader.reopen]⟩, by simp, fun _ => rfl⟩
    | last ended unbroken some_byte =>
      cases polled
      subst ended
      refine gives ⟨rfl, by simp [Lines.Reader.reopen]⟩ ?_
      rw [readings, if_pos rfl, Lines.readings, Lines.pieces_of_unbroken unbroken some_byte]
      rfl

/-- What is drawn belongs to what is read. -/
theorem readings_receive {draw : Draw} (settled : i.Settled) (hungry : i.poll false = none)
    (later : List Draw) :
    (i.receive draw).Settled ∧ (i.receive draw).readings later = i.readings (draw :: later) := by
  cases i with
  | drawn r count =>
    obtain ⟨front, unread, atEnd⟩ := r
    obtain ⟨rfl, _⟩ : front = [] ∧ (atEnd = true → lineFeed ∉ unread) := settled
    have polls := Lines.polls_poll unread atEnd
    simp only [poll, Bool.false_eq_true, if_false] at hungry
    generalize Lines.Reader.poll ⟨[], unread, atEnd⟩ = result at polls hungry
    cases polls with
    | hangs running unbroken =>
      subst running
      cases draw with
      | error fault =>
        refine ⟨trivial, ?_⟩
        rw [readings, if_neg Bool.false_ne_true, Lines.readings, Lines.ended_of_unbroken unbroken]
        rfl
      | ok bytes =>
        cases bytes with
        | nil => exact ⟨⟨rfl, fun _ => unbroken⟩, rfl⟩
        | cons b bytes => exact ⟨⟨rfl, nofun⟩, rfl⟩
    | _ => cases hungry
  | stream r =>
    obtain ⟨front, unread, atEnd⟩ := r
    obtain ⟨rfl, rfl⟩ : front = [] ∧ atEnd = true := settled
    have polls := Lines.polls_poll unread true
    simp only [poll, Bool.false_eq_true, if_false] at hungry
    generalize Lines.Reader.poll ⟨[], unread, true⟩ = result at polls hungry
    cases polls with
    | hangs running => cases running
    | _ => cases hungry
  | _ => cases hungry

end Intake

end Pool

end CommandPool

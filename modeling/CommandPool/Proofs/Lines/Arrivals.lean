import CommandPool.Lines.Inflow
import CommandPool.Proofs.Lines.Readings
import CommandPool.Proofs.Text.Decoding

/-!
# How bytes arrive does not matter

What a reader still holds and what is still to be given to it are one list of bytes to it.  A
poll that gives a reading takes the first piece off this list and leaves the rest as it is
(`Gives`), whatever is appended later; a poll that hangs leaves all of it.  So the readings are
those of the pieces of all bytes, one after the other, for every size of the buffer and however
the bytes are split.
-/

namespace CommandPool.Lines

/-! ## Pieces -/

/-- All bytes of a piece. -/
def Piece.whole (p : Piece) : List UInt8 := p.body ++ if p.ended then [lineFeed] else []

/-- Bytes fall into these pieces: each one but the last is ended by its line feed, and the last
one is that, or some bytes without a line feed. -/
structure Splits (bytes : List UInt8) (ps : List Piece) : Prop where
  whole : ps.flatMap Piece.whole = bytes
  unbroken : ∀ p ∈ ps, lineFeed ∉ p.body
  filled : ∀ p ∈ ps, p.ended = false → p.body ≠ []
  ended : ∀ p ∈ ps.dropLast, p.ended = true

theorem splits_cons {before rest : List UInt8} {ps : List Piece} (unbroken : lineFeed ∉ before)
    (splits : Splits rest ps) : Splits (before ++ lineFeed :: rest) (⟨before, true⟩ :: ps) where
  whole := by
    rw [List.flatMap_cons, splits.whole]
    simp [Piece.whole]
  unbroken := List.forall_mem_cons.mpr ⟨unbroken, splits.unbroken⟩
  filled := List.forall_mem_cons.mpr ⟨nofun, splits.filled⟩
  ended := by
    cases ps with
    | nil => nofun
    | cons p ps => exact List.forall_mem_cons.mpr ⟨rfl, splits.ended⟩

theorem splits_pieces (bytes : List UInt8) : Splits bytes (pieces bytes) := by
  induction n : bytes.length using Nat.strongRecOn generalizing bytes with
  | ind n ih =>
    rcases span_lineFeed bytes with ⟨before, rest, _, rfl, unbroken⟩ | ⟨_, unbroken⟩
    · rw [pieces_line unbroken]
      refine splits_cons unbroken (ih rest.length ?_ rest rfl)
      rw [← n, List.length_append, List.length_cons]
      omega
    · cases bytes with
      | nil => exact ⟨rfl, nofun, nofun, nofun⟩
      | cons b bytes =>
        have filled := List.cons_ne_nil b bytes
        rw [pieces_of_unbroken unbroken filled]
        refine ⟨by simp [Piece.whole], ?_, ?_, nofun⟩
        · exact List.forall_mem_singleton.mpr unbroken
        · exact List.forall_mem_singleton.mpr fun _ => filled

/-! ## What a piece is read as -/

open Text.Utf8 (encode encoded_concat_iff decode_eq_ok_iff)

/-- The end of a piece is cut off: its line feed, and one carriage return before that. -/
inductive Cut (p : Piece) : Prop where
  | unended : p.ended = false → p.content = p.whole → Cut p
  | feed : p.ended = true → p.whole = p.content ++ [lineFeed] →
      p.content.getLast? ≠ some carriageReturn → Cut p
  | returned : p.ended = true → p.whole = p.content ++ [carriageReturn, lineFeed] → Cut p

theorem cut (p : Piece) : Cut p := by
  obtain ⟨body, ended⟩ := p
  cases ended with
  | false => exact .unended rfl (by simp [Piece.content, Piece.whole])
  | true =>
    by_cases last : body.getLast? = some carriageReturn
    · obtain ⟨front, rfl⟩ := List.getLast?_eq_some_iff.mp last
      exact .returned rfl (by simp [Piece.content, Piece.whole, dropReturn])
    · exact .feed rfl (by simp [Piece.content, Piece.whole, dropReturn, last])
        (by simp [Piece.content, dropReturn, last])

/-- A piece is UTF-8 exactly when what is left of it is. -/
theorem encoded_whole_iff (p : Piece) :
    (∃ s, encode s = p.whole) ↔ ∃ s, encode s = p.content := by
  rcases cut p with ⟨_, same⟩ | ⟨_, whole, _⟩ | ⟨_, whole⟩
  · rw [same]
  · rw [whole, encoded_concat_iff (by decide)]
  · rw [whole, show p.content ++ [carriageReturn, lineFeed] =
      p.content ++ [carriageReturn] ++ [lineFeed] by simp, encoded_concat_iff (by decide),
      encoded_concat_iff (by decide)]

/-- A piece that is UTF-8 is read as the text of what is left of it, and any other piece as a
fault. -/
inductive ReadAs (p : Piece) : Reading → Prop where
  | line {s : String} : (∃ t, encode t = p.whole) → encode s = p.content → ReadAs p (.line s)
  | fault {message : String} : (¬ ∃ t, encode t = p.whole) →
      ReadAs p (.fault (.worded .invalidData message))

theorem readAs_reading (p : Piece) : ReadAs p p.reading := by
  unfold Piece.reading
  split
  next s read =>
    have same := decode_eq_ok_iff.mp read
    exact .line ((encoded_whole_iff p).mpr ⟨s, same⟩) same
  next f read =>
    refine .fault fun whole => ?_
    obtain ⟨s, same⟩ := (encoded_whole_iff p).mp whole
    cases read.symm.trans (decode_eq_ok_iff.mpr same)

/-! ## One reading after the other -/

/-- The reading at a place: that of a piece, or behind the last one the end. -/
def readingAt (bytes : List UInt8) (k : Nat) : Reading :=
  ((pieces bytes)[k]?.map Piece.reading).getD .eof

theorem readingAt_line {before rest : List UInt8} (unbroken : lineFeed ∉ before) :
    readingAt (before ++ lineFeed :: rest) 0 = Piece.reading ⟨before, true⟩ ∧
      ∀ k, readingAt (before ++ lineFeed :: rest) (k + 1) = readingAt rest k := by
  simp only [readingAt, pieces_line unbroken]
  exact ⟨rfl, fun k => rfl⟩

theorem readingAt_last {bytes : List UInt8} (unbroken : lineFeed ∉ bytes) (filled : bytes ≠ []) :
    readingAt bytes 0 = Piece.reading ⟨bytes, false⟩ ∧
      ∀ k, readingAt bytes (k + 1) = readingAt [] k := by
  simp only [readingAt, pieces_of_unbroken unbroken filled]
  exact ⟨rfl, fun k => rfl⟩

/-- The first reading of some bytes is given, and the rest is left.  What is appended later
belongs to the rest; at an end nothing is. -/
structure Gives (bytes : List UInt8) (atEnd : Bool) (reading : Reading) (rest : List UInt8) :
    Prop where
  first : ∀ more, (atEnd = true → more = []) → readingAt (bytes ++ more) 0 = reading
  later : ∀ more, (atEnd = true → more = []) →
    ∀ k, readingAt (bytes ++ more) (k + 1) = readingAt (rest ++ more) k
  /-- Unless at an end, a line feed goes with the reading. -/
  feeds : atEnd = false → bytes.count lineFeed = rest.count lineFeed + 1

/-- What a poll comes to: it gives a reading, or it hangs on a line feed that is still to
come. -/
inductive Comes (bytes : List UInt8) (atEnd : Bool) : Option Reading → List UInt8 → Prop where
  | gives {reading : Reading} {rest : List UInt8} : Gives bytes atEnd reading rest →
      Comes bytes atEnd (some reading) rest
  | hangs : atEnd = false → lineFeed ∉ bytes → Comes bytes atEnd none bytes

theorem gives_line {before rest : List UInt8} (unbroken : lineFeed ∉ before) (atEnd : Bool) :
    Gives (before ++ lineFeed :: rest) atEnd (Piece.reading ⟨before, true⟩) rest where
  first more _ := by
    rw [List.append_assoc, List.cons_append]
    exact (readingAt_line unbroken).1
  later more _ := by
    rw [List.append_assoc, List.cons_append]
    exact (readingAt_line unbroken).2
  feeds _ := by
    rw [List.count_append, List.count_cons_self, List.count_eq_zero.mpr unbroken, Nat.zero_add]

/-- What is given is given whatever follows. -/
theorem Gives.append {bytes rest : List UInt8} {reading : Reading}
    (gives : Gives bytes false reading rest) (follows : List UInt8) (atEnd : Bool) :
    Gives (bytes ++ follows) atEnd reading (rest ++ follows) where
  first more _ := by
    rw [List.append_assoc]
    exact gives.first _ nofun
  later more _ := by
    rw [List.append_assoc, List.append_assoc]
    exact gives.later _ nofun
  feeds _ := by
    rw [List.count_append, List.count_append, gives.feeds rfl]
    omega

/-! ## Readers -/

namespace Reader

/-- All bytes that a reader holds. -/
def held (r : Reader) : List UInt8 := r.front ++ r.unread

/-- What was looked at has no line feed, and a reader finds an end only when nothing follows
any more. -/
structure Clean (r : Reader) (atEnd : Bool) (follows : List UInt8) : Prop where
  unbroken : lineFeed ∉ r.front
  ended : r.ended = true → atEnd = true ∧ follows = []

theorem clean_empty (atEnd : Bool) (follows : List UInt8) : Clean .empty atEnd follows :=
  ⟨List.not_mem_nil, nofun⟩

/-- It does not matter what was looked at before. -/
theorem poll_held {r : Reader} (unbroken : lineFeed ∉ r.front) :
    r.poll = Reader.poll ⟨[], r.held, r.ended⟩ := by
  obtain ⟨front, unread, ended⟩ := r
  have whole : (front ++ unread).span (· != lineFeed) =
      (front ++ (unread.span (· != lineFeed)).1, (unread.span (· != lineFeed)).2) := by
    have other : ∀ b ∈ front, (b != lineFeed) = true := fun b member => by
      rw [bne_iff_ne]
      rintro rfl
      exact unbroken member
    rw [List.span_eq_takeWhile_dropWhile, List.span_eq_takeWhile_dropWhile,
      List.takeWhile_append_of_pos other, List.dropWhile_append_of_pos other]
  simp only [poll, held, whole, List.nil_append]
  rcases unread.span (· != lineFeed) with ⟨before, _ | ⟨b, rest⟩⟩ <;> rfl

theorem comes_poll {r : Reader} (unbroken : lineFeed ∉ r.front) :
    Comes r.held r.ended r.poll.1 r.poll.2.held ∧ lineFeed ∉ r.poll.2.front ∧
      r.poll.2.ended = r.ended := by
  rw [poll_held unbroken]
  have polls := polls_poll r.held r.ended
  generalize Reader.poll ⟨[], r.held, r.ended⟩ = result at polls ⊢
  cases polls with
  | line same unbroken =>
    rw [same]
    exact ⟨.gives (gives_line unbroken r.ended), nofun, rfl⟩
  | hangs running unbroken =>
    refine ⟨?_, unbroken, rfl⟩
    show Comes _ _ none (r.held ++ [])
    rw [List.append_nil]
    exact .hangs running unbroken
  | eof ended none =>
    rw [none, ended]
    refine ⟨.gives ⟨fun more last => ?_, fun more last k => ?_, nofun⟩, nofun, rfl⟩
    · rw [last rfl]
      rfl
    · rw [last rfl]
      rfl
  | last ended unbroken filled =>
    rw [ended]
    refine ⟨.gives ⟨fun more last => ?_, fun more last k => ?_, nofun⟩, nofun, rfl⟩
    · rw [last rfl, List.append_nil]
      exact (readingAt_last unbroken filled).1
    · rw [last rfl, List.append_nil]
      exact (readingAt_last unbroken filled).2 k

theorem held_deliver (r : Reader) (bytes : List UInt8) :
    (r.deliver bytes).held = r.held ++ bytes :=
  (List.append_assoc _ _ _).symm

/-- What follows a reader goes with what it holds. -/
theorem comes_read {r : Reader} {atEnd : Bool} {portions : List (List UInt8)}
    (clean : Clean r atEnd portions.flatten) :
    ∃ reading r' left, r.read atEnd portions = (reading, r', left) ∧
      Comes (r.held ++ portions.flatten) atEnd reading (r'.held ++ left.flatten) ∧
      Clean r' atEnd left.flatten := by
  induction portions generalizing r with
  | nil =>
    refine ⟨_, _, [], rfl, ?_⟩
    rw [List.flatten_nil, List.append_nil, List.append_nil]
    cases atEnd with
    | true =>
      obtain ⟨comes, unbroken, _⟩ := comes_poll (r := r.finish) clean.unbroken
      exact ⟨comes, unbroken, fun _ => ⟨rfl, rfl⟩⟩
    | false =>
      have running : r.ended = false :=
        eq_false_of_ne_true fun ended => nomatch (clean.ended ended).1
      obtain ⟨comes, unbroken, same⟩ := comes_poll clean.unbroken
      rw [running] at comes same
      exact ⟨comes, unbroken, fun ended => nomatch same.symm.trans ended⟩
  | cons portion rest ih =>
    obtain ⟨comes, unbroken, same⟩ := comes_poll clean.unbroken
    rw [read]
    generalize r.poll = result at comes unbroken same
    obtain ⟨_ | reading, r'⟩ := result
    · -- It hangs, so it has not found an end.
      generalize unread : r'.held = bytes at comes
      cases comes with
      | hangs running unbroken' =>
        have next : Clean (r'.deliver portion) atEnd rest.flatten :=
          ⟨unbroken, fun ended => nomatch (same.trans running).symm.trans ended⟩
        obtain ⟨reading, r'', left, gave, comes, clean⟩ := ih next
        rw [held_deliver, unread, List.append_assoc, ← List.flatten_cons] at comes
        exact ⟨reading, r'', left, gave, comes, clean⟩
    · refine ⟨some reading, r', portion :: rest, rfl, ?_, unbroken, fun ended =>
        clean.ended (same ▸ ended)⟩
      cases comes with
      | gives gives =>
        cases running : r.ended with
        | false =>
          rw [running] at gives
          exact .gives (gives.append _ atEnd)
        | true =>
          obtain ⟨rfl, none⟩ := clean.ended running
          rw [running] at gives
          rw [none, List.append_nil, List.append_nil]
          exact .gives gives

end Reader

/-! ## Sources -/

/-- The readings of so many calls, without a cancellation. -/
def Source.nexts : Nat → Source → List Reading
  | 0, _ => []
  | n + 1, s =>
    let (reading, s) := s.next false
    reading :: s.nexts n

/-- A source gives the readings of its bytes, whatever the portions. -/
theorem nexts_bytes {r : Reader} {portions : List (List UInt8)}
    (clean : r.Clean true portions.flatten) (n : Nat) :
    Source.nexts n (.bytes r portions) =
      (List.range n).map (readingAt (r.held ++ portions.flatten)) := by
  induction n generalizing r portions with
  | zero => rfl
  | succ n ih =>
    obtain ⟨reading, r', left, gave, comes, clean'⟩ := Reader.comes_read clean
    rw [Source.nexts, Source.next, if_neg Bool.false_ne_true]
    simp only [gave]
    generalize follows : r'.held ++ left.flatten = rest at comes
    cases comes with
    | gives gives =>
      have first := gives.first [] fun _ => rfl
      have later := gives.later [] fun _ => rfl
      simp only [List.append_nil] at first later
      rw [ih clean', follows, List.range_succ_eq_map, List.map_cons, first, List.map_map,
        Option.getD_some]
      exact congrArg _ (List.map_congr_left fun k _ => (later k).symm)
    | hangs running => cases running

theorem nexts_ofBytes {size : Nat} (some_byte : size ≠ 0) (bytes : List UInt8) (n : Nat) :
    Source.nexts n (.ofBytes size bytes) = (List.range n).map (readingAt bytes) := by
  rw [Source.ofBytes, if_neg some_byte, nexts_bytes (Reader.clean_empty true _), flatten_portionsOf]
  rfl

/-! ## Bytes that arrive -/

namespace Inflow

variable {size : Nat} {s t : Inflow} {bytes : List UInt8}

/-- The bytes that arrive with a step. -/
def Label.arriving : Label → List UInt8
  | .arrive bytes => bytes
  | _ => []

/-- All bytes that arrive. -/
def arrived (ls : List Label) : List UInt8 := ls.flatMap Label.arriving

/-- A call is polled. -/
def Label.isPoll : Label → Bool
  | .poll => true
  | _ => false

/-- The bytes that belong to no line that was given. -/
def rest (s : Inflow) : List UInt8 := s.reader.held ++ s.waiting

/-- As long as the run is not cancelled, the readings of the bytes that have arrived are those
that were given, and then those of the rest. -/
structure Reads (bytes : List UInt8) (s : Inflow) : Prop where
  clean : s.reader.Clean s.closed s.waiting
  given : ∀ more, (s.closed = true → more = []) →
    s.given = (List.range s.given.length).map (readingAt (bytes ++ more))
  later : ∀ more, (s.closed = true → more = []) →
    ∀ k, readingAt (bytes ++ more) (s.given.length + k) = readingAt (s.rest ++ more) k
  feeds : s.closed = false → bytes.count lineFeed = s.rest.count lineFeed + s.given.length

theorem reads_new : Reads [] new where
  clean := Reader.clean_empty false _
  given _ _ := rfl
  later more _ k := by rw [show new.given.length + k = k from Nat.zero_add k]; rfl
  feeds _ := rfl

theorem reads_arrive (reads : Reads bytes s) (open_ : s.closed = false) (new : List UInt8) :
    Reads (bytes ++ new) { s with waiting := s.waiting ++ new } where
  clean := ⟨reads.clean.unbroken, fun ended => by
    have closed := (reads.clean.ended ended).1
    rw [open_] at closed
    cases closed⟩
  given more _ := by
    rw [List.append_assoc]
    exact reads.given (new ++ more) fun closed => nomatch open_.symm.trans closed
  later more _ k := by
    rw [List.append_assoc]
    have later := reads.later (new ++ more) (fun closed => nomatch open_.symm.trans closed) k
    simpa only [rest, List.append_assoc] using later
  feeds _ := by
    have feeds := reads.feeds open_
    simp only [rest, List.count_append] at feeds ⊢
    omega

theorem reads_close (reads : Reads bytes s) : Reads bytes { s with closed := true } where
  clean := ⟨reads.clean.unbroken, fun ended => ⟨rfl, (reads.clean.ended ended).2⟩⟩
  given more last := reads.given more fun _ => last rfl
  later more last := reads.later more fun _ => last rfl
  feeds := nofun

/-- What a poll comes to while the run is not cancelled. -/
theorem comes_poll (clean : s.reader.Clean s.closed s.waiting) (running : s.cancelled = false)
    (size : Nat) : ∃ reading r waiting,
      s.poll size = (reading, { s with reader := r, waiting := waiting }) ∧
      Comes s.rest s.closed reading (r.held ++ waiting) ∧ r.Clean s.closed waiting := by
  have whole := flatten_portionsOf (size - 1) s.waiting.length s.waiting
  rw [← whole] at clean
  obtain ⟨reading, r, left, gave, comes, clean'⟩ := Reader.comes_read clean
  rw [whole] at comes
  refine ⟨reading, r, left.flatten, ?_, comes, clean'⟩
  rw [poll, if_neg (by rw [running]; exact Bool.false_ne_true)]
  simp only [gave]

theorem reads_poll (reads : Reads bytes s) (running : s.cancelled = false) :
    Reads bytes { (s.poll size).2 with given := s.given ++ (s.poll size).1.toList } := by
  obtain ⟨reading, r, waiting, gave, comes, clean⟩ := comes_poll reads.clean running size
  rw [gave]
  generalize left : r.held ++ waiting = rest' at comes
  cases comes with
  | hangs open_ unbroken =>
    rw [Option.toList_none, List.append_nil]
    refine ⟨clean, reads.given, ?_, ?_⟩
    · simpa only [rest, left] using reads.later
    · simpa only [rest, left] using reads.feeds
  | @gives reading _ gives =>
    have longer : (s.given ++ [reading]).length = s.given.length + 1 := by simp
    refine ⟨clean, fun more last => ?_, fun more last k => ?_, fun open_ => ?_⟩
    · have here := reads.later more last 0
      rw [gives.first more last] at here
      simp only [Option.toList_some, longer]
      rw [List.range_succ, List.map_append, ← reads.given more last, List.map_singleton]
      rw [show readingAt (bytes ++ more) s.given.length = reading from here]
    · have here := reads.later more last (k + 1)
      simp only [Option.toList_some, longer, rest, left]
      rw [← gives.later more last k, ← here]
      congr 1
      omega
    · have feeds := reads.feeds open_
      have one := gives.feeds open_
      simp only [Option.toList_some, longer, rest, left] at feeds ⊢
      rw [feeds]
      show _ + _ = _
      have same : s.rest.count lineFeed = rest'.count lineFeed + 1 := one
      rw [rest] at same
      omega

/-- Once the run is cancelled a poll reads nothing. -/
theorem poll_cancelled (cancelled : s.cancelled = true) (size : Nat) :
    s.poll size = (some .cancelled, s) := by
  rw [poll, if_pos cancelled]

theorem cancelled_poll (s : Inflow) (size : Nat) : (s.poll size).2.cancelled = s.cancelled := by
  unfold poll
  split <;> rfl

theorem step_poll (s : Inflow) (size : Nat) : s.step size .poll =
    some { (s.poll size).2 with given := s.given ++ (s.poll size).1.toList } := by
  have kept : (s.poll size).2.given = s.given := by
    unfold poll
    split <;> rfl
  rw [step]
  generalize s.poll size = polled at kept ⊢
  rw [← kept]

theorem cancelled_step {l : Label} (step : s.step size l = some t)
    (cancelled : s.cancelled = true) : t.cancelled = true := by
  cases l with
  | arrive bytes =>
    obtain ⟨_, step⟩ := Option.ite_none_left_eq_some.mp step
    cases step
    exact cancelled
  | close => cases step; exact cancelled
  | cancel => cases step; rfl
  | poll =>
    obtain rfl := Option.some.inj (step_poll s size ▸ step)
    exact (cancelled_poll s size).trans cancelled

theorem cancelled_steps {ls : List Label} (run : s.steps size ls = some t)
    (cancelled : s.cancelled = true) : t.cancelled = true := by
  induction ls generalizing s with
  | nil => cases run; exact cancelled
  | cons l ls ih =>
    obtain ⟨next, step, rest⟩ := Option.bind_eq_some_iff.mp run
    exact ih rest (cancelled_step step cancelled)

theorem reads_step {l : Label} (reads : Reads bytes s) (running : s.cancelled = false)
    (step : s.step size l = some t) (still : t.cancelled = false) :
    Reads (bytes ++ l.arriving) t := by
  cases l with
  | arrive new =>
    obtain ⟨open_, step⟩ := Option.ite_none_left_eq_some.mp step
    cases step
    exact reads_arrive reads (eq_false_of_ne_true open_) new
  | close =>
    cases step
    rw [show Label.close.arriving = [] from rfl, List.append_nil]
    exact reads_close reads
  | cancel => cases step; cases still
  | poll =>
    obtain rfl := Option.some.inj (step_poll s size ▸ step)
    rw [show Label.poll.arriving = [] from rfl, List.append_nil]
    exact reads_poll reads running

theorem reads_steps {ls : List Label} (reads : Reads bytes s) (run : s.steps size ls = some t)
    (still : t.cancelled = false) : Reads (bytes ++ arrived ls) t := by
  have before : ∀ {u ms}, Inflow.steps size u ms = some t → u.cancelled = false :=
    fun later => eq_false_of_ne_true fun cancelled =>
      nomatch still.symm.trans (cancelled_steps later cancelled)
  induction ls generalizing s bytes with
  | nil =>
    cases run
    simpa [arrived] using reads
  | cons l ls ih =>
    obtain ⟨next, step, rest⟩ := Option.bind_eq_some_iff.mp run
    rw [arrived, List.flatMap_cons, ← List.append_assoc]
    exact ih (reads_step reads (before run) step (before rest)) rest

/-- After the cancellation every call says so. -/
theorem given_steps {ls : List Label} (run : s.steps size ls = some t)
    (cancelled : s.cancelled = true) :
    t.given = s.given ++ List.replicate (ls.countP Label.isPoll) .cancelled := by
  induction ls generalizing s with
  | nil => cases run; simp
  | cons l ls ih =>
    obtain ⟨next, step, rest⟩ := Option.bind_eq_some_iff.mp run
    rw [ih rest (cancelled_step step cancelled)]
    cases l with
    | arrive bytes =>
      obtain ⟨_, step⟩ := Option.ite_none_left_eq_some.mp step
      cases step
      rfl
    | close => cases step; rfl
    | cancel => cases step; rfl
    | poll =>
      obtain rfl := Option.some.inj (step_poll s size ▸ step)
      rw [poll_cancelled cancelled, List.countP_cons_of_pos rfl, Nat.add_comm,
        ← List.replicate_append_replicate, List.append_assoc]
      rfl

theorem poll_eq_none_iff (reads : Reads bytes s) (running : s.cancelled = false) (size : Nat) :
    (s.poll size).1 = none ↔ s.closed = false ∧ bytes.count lineFeed = s.given.length := by
  obtain ⟨reading, r, waiting, gave, comes, _⟩ := comes_poll reads.clean running size
  rw [gave]
  generalize r.held ++ waiting = rest' at comes
  cases comes with
  | hangs open_ unbroken =>
    have feeds := reads.feeds open_
    rw [List.count_eq_zero.mpr unbroken, Nat.zero_add] at feeds
    exact ⟨fun _ => ⟨open_, feeds⟩, fun _ => rfl⟩
  | gives gives =>
    refine ⟨nofun, fun ⟨open_, same⟩ => ?_⟩
    have feeds := reads.feeds open_
    have one := gives.feeds open_
    omega

end Inflow

/-! ## Lines do not depend on how bytes arrive -/

open Inflow (Label)

/-- In every run, for a buffer of any size and bytes that arrive in any portions:

* without a cancellation the calls that are over gave the first readings of the bytes that have
  arrived and of whatever may follow them,
* a call hangs only before the input is closed, when every line feed that has arrived was given
  with its line,
* after a cancellation, at any moment, every call says so, whatever has arrived.

The readings are those of the pieces of the bytes, one after the other, and then the end for
ever.  A piece is all bytes up to a line feed, or what follows the last one, and it is read as
its text without the line feed and one carriage return before that, if it is UTF-8, and else as
a fault.  A source that has all its bytes gives the same readings. -/
theorem lines_do_not_depend_on_arrival {size : Nat} {ls : List Label} {s : Inflow}
    (run : Inflow.new.steps size ls = some s) :
    (s.cancelled = false → ∀ more, (s.closed = true → more = []) →
      s.given = (List.range s.given.length).map (readingAt (Inflow.arrived ls ++ more))) ∧
    ((s.poll size).1 = none ↔ s.cancelled = false ∧ s.closed = false ∧
      (Inflow.arrived ls).count lineFeed = s.given.length) ∧
    (∀ ms t, s.steps size (.cancel :: ms) = some t →
      t.given = s.given ++ List.replicate (ms.countP Label.isPoll) .cancelled) ∧
    ∀ bytes, Splits bytes (pieces bytes) ∧
      (∀ p ∈ pieces bytes, Cut p ∧ ReadAs p p.reading) ∧
      (∀ k, readingAt bytes k = ((pieces bytes)[k]?.map Piece.reading).getD .eof) ∧
      (∀ portions n, portions.flatten = bytes →
        Source.nexts n (.bytes .empty portions) = (List.range n).map (readingAt bytes)) ∧
      ∀ capacity n, capacity ≠ 0 →
        Source.nexts n (.ofBytes capacity bytes) = (List.range n).map (readingAt bytes) := by
  have reads : s.cancelled = false → Inflow.Reads (Inflow.arrived ls) s :=
    Inflow.reads_steps Inflow.reads_new run
  refine ⟨fun running => (reads running).given, ?_, fun ms t later => ?_, fun bytes =>
    ⟨splits_pieces bytes, fun p _ => ⟨cut p, readAs_reading p⟩, fun _ => rfl, ?_, ?_⟩⟩
  · cases running : s.cancelled with
    | true =>
      rw [Inflow.poll_cancelled running]
      exact iff_of_false nofun nofun
    | false =>
      rw [Inflow.poll_eq_none_iff (reads running) running]
      exact (and_iff_right rfl).symm
  · exact Inflow.given_steps (s := { s with cancelled := true }) later rfl
  · rintro portions n rfl
    exact nexts_bytes (Reader.clean_empty true _) n
  · exact fun capacity n some_byte => nexts_ofBytes some_byte bytes n

/-- A character and the end of its line are split between arrivals, and the next line is not
UTF-8.  The last one is not ended when the input is closed, and then the run is cancelled. -/
def straddling : List Label :=
  [.poll, .arrive [0xC3], .poll, .arrive [0xA9, 13], .poll, .arrive [10, 0xFF, 10, 98], .poll,
    .poll, .poll, .close, .poll]

theorem lines_do_not_depend_on_arrival_straddling :
    ∃ s, Inflow.new.steps 2 straddling = some s ∧
      s.given = [.line "é",
        .fault (.worded .invalidData "invalid utf-8 sequence of 1 bytes from index 0"),
        .line "b"] ∧
      s.given = (List.range 3).map (readingAt [0xC3, 0xA9, 13, 10, 0xFF, 10, 98]) ∧
      (s.poll 2).1 ≠ none ∧
      ∃ t, s.steps 2 [.cancel, .poll, .poll] = some t ∧
        t.given = s.given ++ [.cancelled, .cancelled] := by
  obtain ⟨given, hangs, cancelled, _⟩ := @lines_do_not_depend_on_arrival 2 straddling _ rfl
  refine ⟨_, rfl, by decide, given rfl [] fun _ => rfl, fun none => ?_, _, rfl,
    cancelled [.poll, .poll] _ rfl⟩
  cases (hangs.mp none).2.1

end CommandPool.Lines

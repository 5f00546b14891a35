import CommandPool.Command.Line
import CommandPool.Proofs.Text.Words

/-!
# The grammar of a line

A line is laid out as the words of a command and, after each operator, the words up to the
next one.  Every line has exactly one layout, whether it can be read or not.  `Reads` says
which layouts are read and as which tree, and `Faulty` gives the fault of each of the
others.  Neither is said in the order in which a line is taken apart, so `line_grammar`
holds two descriptions of a line against each other.
-/

namespace CommandPool.CommandLine

/-! ## Layouts -/

/-- None of the words is an operator. -/
def Plain (ws : List String) : Prop := ∀ op : Operator, op.text ∉ ws

/-- The words of operators, each followed by those up to the next one. -/
def unsplit (tail : List (Operator × List String)) : List String :=
  tail.flatMap fun s => s.1.text :: s.2

/-- How the words of a line are laid out: those before the first operator, and after each
operator those up to the next one. -/
structure Layout (line : String) (head : List String) (tail : List (Operator × List String)) :
    Prop where
  words : Text.Spaced line.toList ((head ++ unsplit tail).map String.toList)
  plain : Plain head
  plains : ∀ s ∈ tail, Plain s.2

theorem Operator.ofWord?_eq_some_iff {w : String} {op : Operator} :
    ofWord? w = some op ↔ w = op.text := by
  unfold ofWord?
  cases op with
  | andThen => simp [text]
  | orElse =>
    split
    next equal => simp [equal, text]
    next => simp [text]

theorem Operator.ofWord?_text (op : Operator) : ofWord? op.text = some op :=
  ofWord?_eq_some_iff.mpr rfl

theorem split_operator (op : Operator) (ws : List String) :
    split (op.text :: ws) = ([], (op, (split ws).1) :: (split ws).2) := by
  simp [split, Operator.ofWord?_text]

theorem split_word {w : String} (plain : ∀ op : Operator, w ≠ op.text) (ws : List String) :
    split (w :: ws) = (w :: (split ws).1, (split ws).2) := by
  have absent : Operator.ofWord? w = none :=
    Option.eq_none_iff_forall_ne_some.mpr fun op found =>
      plain op (Operator.ofWord?_eq_some_iff.mp found)
  simp [split, absent]

theorem plain_cons {w : String} {ws : List String} (other : ∀ op : Operator, w ≠ op.text)
    (plain : Plain ws) : Plain (w :: ws) := by
  intro op member
  rcases List.mem_cons.mp member with same | inside
  · exact other op same.symm
  · exact plain op inside

/-- What words are split into is plain, and put together again gives the words. -/
theorem unsplit_split (ws : List String) : (split ws).1 ++ unsplit (split ws).2 = ws ∧
    Plain (split ws).1 ∧ ∀ s ∈ (split ws).2, Plain s.2 := by
  induction ws with
  | nil => exact ⟨rfl, nofun, nofun⟩
  | cons w ws ih =>
    obtain ⟨words, plain, plains⟩ := ih
    by_cases operator : ∃ op : Operator, w = op.text
    · obtain ⟨op, rfl⟩ := operator
      rw [split_operator]
      refine ⟨congrArg (op.text :: ·) words, nofun, ?_⟩
      exact List.forall_mem_cons.mpr ⟨plain, plains⟩
    · have other : ∀ op : Operator, w ≠ op.text := fun op same => operator ⟨op, same⟩
      rw [split_word other]
      exact ⟨congrArg (w :: ·) words, plain_cons other plain, plains⟩

theorem split_append {head : List String} (plain : Plain head) (ws : List String) :
    split (head ++ ws) = (head ++ (split ws).1, (split ws).2) := by
  induction head with
  | nil => rfl
  | cons w head ih =>
    have other : ∀ op : Operator, w ≠ op.text := by
      rintro op rfl
      exact plain op List.mem_cons_self
    have rest : Plain head := fun op inside => plain op (List.mem_cons_of_mem w inside)
    rw [List.cons_append, split_word other, ih rest]
    rfl

theorem split_unsplit {tail : List (Operator × List String)} (plains : ∀ s ∈ tail, Plain s.2) :
    split (unsplit tail) = ([], tail) := by
  induction tail with
  | nil => rfl
  | cons s tail ih =>
    obtain ⟨plain, others⟩ := List.forall_mem_cons.mp plains
    have words : unsplit (s :: tail) = s.1.text :: (s.2 ++ unsplit tail) := rfl
    rw [words, split_operator, split_append plain, ih others, List.append_nil]

/-- A line has one layout, which is found by splitting its words. -/
theorem layout_iff {line : String} {head : List String} {tail : List (Operator × List String)} :
    Layout line head tail ↔ split (Text.words line) = (head, tail) := by
  constructor
  · rintro ⟨words, plain, plains⟩
    rw [Text.words_eq_iff.mpr words, split_append plain, split_unsplit plains, List.append_nil]
  · intro split_eq
    obtain ⟨words, plain, plains⟩ := unsplit_split (Text.words line)
    rw [split_eq] at words plain plains
    exact ⟨Text.words_eq_iff.mp words.symm, plain, plains⟩

/-! ## Lines that are read -/

/-- The outcome that an operator stands for. -/
def Operator.outcome : Operator → Outcome
  | .andThen => .succeeded
  | .orElse => .failed

/-- The words are those of a command. -/
def Accepted (ws : List String) : Prop := ws ≠ [] ∧ ∃ c, Command.ofWords ws = .ok c

/-- What hangs at an operator: the command after it as a leaf, or, where the line has no such
operator, what was there otherwise. -/
inductive Hangs (tail : List (Operator × List String)) (op : Operator)
    (otherwise : Chain Command) : Chain Command → Prop where
  | leaf {ws : List String} {c : Command} : (op, ws) ∈ tail → Command.ofWords ws = .ok c →
      Hangs tail op otherwise (Job.single (Text.unwords ws) c).toChain
  | absent : (∀ ws, (op, ws) ∉ tail) → Hangs tail op otherwise otherwise

/-- A line with this layout is read as this tree: its root is the first command, and the
commands after the operators hang there as leaves. -/
structure Reads (head : List String) (tail : List (Operator × List String))
    (job : Job Command) : Prop where
  some : head ≠ []
  label : job.label = Text.unwords head
  action : Command.ofWords head = .ok job.action
  accepted : ∀ s ∈ tail, Accepted s.2
  /-- Each operator stands at most once. -/
  once : (tail.map (·.1)).Nodup
  success : Hangs tail .andThen .done job.onSuccess
  failure : Hangs tail .orElse .done job.onFailure

/-- There are two operators. -/
theorem length_le_two : ∀ {ops : List Operator}, ops.Nodup → ops.length ≤ 2
  | [], _ => Nat.zero_le 2
  | [_], _ => Nat.le_succ 1
  | [_, _], _ => Nat.le_refl 2
  | a :: b :: c :: _, once => by cases a <;> cases b <;> cases c <;> simp at once

/-- A job with another one hung at an operator. -/
def hang (job : Job Command) (op : Operator) (next : Job Command) : Job Command :=
  match op with
  | .andThen => job.andThen next
  | .orElse => job.orElse next

theorem after_hang (job next : Job Command) (op other : Operator) :
    (hang job op next).after other.outcome =
      if other = op then next.toChain else job.after other.outcome := by
  cases op <;> cases other <;> rfl

theorem root_hang (job next : Job Command) (op : Operator) :
    (hang job op next).label = job.label ∧ (hang job op next).action = job.action := by
  cases op <;> exact ⟨rfl, rfl⟩

variable {job job' : Job Command} {seen : List Operator} {op : Operator} {ws : List String}
  {tail : List (Operator × List String)} {e : ParseError}

theorem attach_missing : attach job seen ((op, []) :: tail) = .error (.operator op.text) := rfl

theorem attach_of_error (some : ws ≠ []) (fault : Command.ofWords ws = .error e) :
    attach job seen ((op, ws) :: tail) = .error e := by
  have full : ¬ ws.isEmpty = true := by simpa using some
  rw [attach, if_neg full, readJob, fault]
  rfl

theorem attach_of_ok {c : Command} (some : ws ≠ []) (read : Command.ofWords ws = .ok c) :
    attach job seen ((op, ws) :: tail) =
      if op ∈ seen then .error (.operator op.text)
      else attach (hang job op (Job.single (Text.unwords ws) c)) (op :: seen) tail := by
  have full : ¬ ws.isEmpty = true := by simpa using some
  rw [attach, if_neg full, readJob, read]
  cases op <;> rfl

/-- What it takes to attach the commands after the operators to a job, when those in `seen`
were used before. -/
structure Attaches (job : Job Command) (seen : List Operator)
    (tail : List (Operator × List String)) (job' : Job Command) : Prop where
  label : job'.label = job.label
  action : job'.action = job.action
  accepted : ∀ s ∈ tail, Accepted s.2
  once : (tail.map (·.1)).Nodup
  unseen : ∀ s ∈ tail, s.1 ∉ seen
  hangs : ∀ op : Operator, Hangs tail op (job.after op.outcome) (job'.after op.outcome)

/-- An operator in front of others: its command hangs there, and the other operators are as
they were. -/
theorem hangs_cons_iff {c : Command} {other : Operator} {chain : Chain Command}
    (read : Command.ofWords ws = .ok c) (alone : ∀ ws', (op, ws') ∉ tail) :
    Hangs ((op, ws) :: tail) other (job.after other.outcome) chain ↔
      Hangs tail other ((hang job op (.single (Text.unwords ws) c)).after other.outcome) chain := by
  rw [after_hang]
  by_cases same : other = op
  · subst same
    rw [if_pos rfl]
    constructor
    · intro hung
      cases hung with
      | leaf member read' =>
        rcases List.mem_cons.mp member with equal | inside
        · cases (Prod.mk.inj equal).2
          cases read.symm.trans read'
          exact .absent alone
        · exact absurd inside (alone _)
      | absent missing => exact absurd List.mem_cons_self (missing ws)
    · intro hung
      cases hung with
      | leaf member _ => exact absurd member (alone _)
      | absent _ => exact .leaf List.mem_cons_self read
  · rw [if_neg same]
    have mem_iff : ∀ ws', (other, ws') ∈ (op, ws) :: tail ↔ (other, ws') ∈ tail := by
      simp [same]
    constructor
    · intro hung
      cases hung with
      | leaf member read' => exact .leaf ((mem_iff _).mp member) read'
      | absent missing => exact .absent fun ws' inside => missing ws' ((mem_iff ws').mpr inside)
    · intro hung
      cases hung with
      | leaf member read' => exact .leaf ((mem_iff _).mpr member) read'
      | absent missing => exact .absent fun ws' inside => missing ws' ((mem_iff ws').mp inside)

theorem attaches_nil_iff : Attaches job seen [] job' ↔ job = job' := by
  constructor
  · rintro ⟨label, action, _, _, _, hangs⟩
    have same : ∀ op : Operator, job'.after op.outcome = job.after op.outcome := by
      intro op
      have hung := hangs op
      generalize job'.after op.outcome = chain at hung ⊢
      cases hung with
      | leaf member _ => cases member
      | absent _ => rfl
    have success : job'.onSuccess = job.onSuccess := same .andThen
    have failure : job'.onFailure = job.onFailure := same .orElse
    cases job
    cases job'
    simp_all
  · rintro rfl
    exact ⟨rfl, rfl, nofun, .nil, nofun, fun _ => .absent nofun⟩

theorem attaches_cons_iff {c : Command} (some : ws ≠ []) (read : Command.ofWords ws = .ok c) :
    Attaches job seen ((op, ws) :: tail) job' ↔ op ∉ seen ∧
      Attaches (hang job op (.single (Text.unwords ws) c)) (op :: seen) tail job' := by
  have root := root_hang job (.single (Text.unwords ws) c) op
  constructor
  · rintro ⟨label, action, accepted, once, unseen, hangs⟩
    obtain ⟨_, accepted⟩ := List.forall_mem_cons.mp accepted
    obtain ⟨alone, once⟩ := List.nodup_cons.mp once
    obtain ⟨fresh, unseen⟩ := List.forall_mem_cons.mp unseen
    have absent : ∀ ws', (op, ws') ∉ tail :=
      fun ws' member => alone (List.mem_map.mpr ⟨_, member, rfl⟩)
    refine ⟨fresh, label.trans root.1.symm, action.trans root.2.symm, accepted, once, ?_, ?_⟩
    · rintro ⟨other, ws'⟩ member
      refine List.not_mem_cons_of_ne_of_not_mem ?_ (unseen _ member)
      rintro rfl
      exact absent ws' member
    · exact fun other => (hangs_cons_iff read absent).mp (hangs other)
  · rintro ⟨fresh, label, action, accepted, once, unseen, hangs⟩
    have absent : ∀ s ∈ tail, s.1 ≠ op ∧ s.1 ∉ seen :=
      fun s member => ⟨List.ne_of_not_mem_cons (unseen s member),
        List.not_mem_of_not_mem_cons (unseen s member)⟩
    refine ⟨label.trans root.1, action.trans root.2, ?_, ?_, ?_, ?_⟩
    · exact List.forall_mem_cons.mpr ⟨⟨some, c, read⟩, accepted⟩
    · refine List.nodup_cons.mpr ⟨fun member => ?_, once⟩
      obtain ⟨s, inside, same⟩ := List.mem_map.mp member
      exact (absent s inside).1 same
    · exact List.forall_mem_cons.mpr ⟨fresh, fun s member => (absent s member).2⟩
    · exact fun other =>
        (hangs_cons_iff read fun ws' inside => (absent _ inside).1 rfl).mpr (hangs other)

theorem attach_eq_ok_iff : attach job seen tail = .ok job' ↔ Attaches job seen tail job' := by
  induction tail generalizing job seen with
  | nil =>
    rw [attaches_nil_iff]
    exact ⟨Except.ok.inj, congrArg _⟩
  | cons s tail ih =>
    obtain ⟨op, ws⟩ := s
    by_cases some : ws = []
    · subst some
      refine iff_of_false nofun fun attaches => ?_
      exact (List.forall_mem_cons.mp attaches.accepted).1.1 rfl
    cases read : Command.ofWords ws with
    | error e =>
      rw [attach_of_error some read]
      refine iff_of_false nofun fun attaches => ?_
      obtain ⟨_, c, accepted⟩ := (List.forall_mem_cons.mp attaches.accepted).1
      cases read.symm.trans accepted
    | ok c =>
      rw [attach_of_ok some read, attaches_cons_iff some read, ← ih]
      split
      next used => exact iff_of_false nofun fun both => both.1 used
      next fresh => exact (and_iff_right fresh).symm

/-! ## Lines that are not read -/

/-- The fault of an operator and the words after it, when the operators in `seen` stand
before. -/
inductive Misplaced (seen : List Operator) (op : Operator) : List String → ParseError → Prop where
  | missing : Misplaced seen op [] (.operator op.text)
  | command {ws : List String} {e : ParseError} : ws ≠ [] → Command.ofWords ws = .error e →
      Misplaced seen op ws e
  | again {ws : List String} : Accepted ws → op ∈ seen → Misplaced seen op ws (.operator op.text)

/-- The fault of a line with this layout is the leftmost one: everything in front of it is
as in a line that is read. -/
inductive Faulty : List String → List (Operator × List String) → ParseError → Prop where
  | empty : Faulty [] [] .empty
  | leading {op : Operator} {ws : List String} {tail : List (Operator × List String)} :
      Faulty [] ((op, ws) :: tail) (.operator op.text)
  | first {head : List String} {tail : List (Operator × List String)} {e : ParseError} :
      head ≠ [] → Command.ofWords head = .error e → Faulty head tail e
  | later {head ws : List String} {before after : List (Operator × List String)} {op : Operator}
      {e : ParseError} : Accepted head → (∀ s ∈ before, Accepted s.2) →
      (before.map (·.1)).Nodup → Misplaced (before.map (·.1)) op ws e →
      Faulty head (before ++ (op, ws) :: after) e

/-- The commands after the operators are attached up to a fault. -/
inductive Stops : List Operator → List (Operator × List String) → ParseError → Prop where
  | here {seen : List Operator} {op : Operator} {ws : List String}
      {after : List (Operator × List String)} {e : ParseError} :
      Misplaced seen op ws e → Stops seen ((op, ws) :: after) e
  | later {seen : List Operator} {op : Operator} {ws : List String}
      {tail : List (Operator × List String)} {e : ParseError} :
      Accepted ws → op ∉ seen → Stops (op :: seen) tail e → Stops seen ((op, ws) :: tail) e

theorem stops_cons_iff : Stops seen ((op, ws) :: tail) e ↔
    Misplaced seen op ws e ∨ Accepted ws ∧ op ∉ seen ∧ Stops (op :: seen) tail e := by
  constructor
  · intro stops
    cases stops with
    | here misplaced => exact Or.inl misplaced
    | later accepted fresh stops => exact Or.inr ⟨accepted, fresh, stops⟩
  · rintro (misplaced | ⟨accepted, fresh, stops⟩)
    · exact .here misplaced
    · exact .later accepted fresh stops

theorem misplaced_nil_iff : Misplaced seen op [] e ↔ e = .operator op.text := by
  constructor
  · intro misplaced
    cases misplaced with
    | missing => rfl
    | command some => exact absurd rfl some
    | again accepted => exact absurd rfl accepted.1
  · rintro rfl
    exact .missing

theorem misplaced_error_iff {fault : ParseError} (some : ws ≠ [])
    (read : Command.ofWords ws = .error fault) : Misplaced seen op ws e ↔ e = fault := by
  constructor
  · intro misplaced
    cases misplaced with
    | missing => exact absurd rfl some
    | command _ found => exact Except.error.inj (found.symm.trans read)
    | again accepted => cases read.symm.trans accepted.2.choose_spec
  · rintro rfl
    exact .command some read

theorem misplaced_accepted_iff (accepted : Accepted ws) :
    Misplaced seen op ws e ↔ op ∈ seen ∧ e = .operator op.text := by
  constructor
  · intro misplaced
    cases misplaced with
    | missing => exact absurd rfl accepted.1
    | command _ fault => cases fault.symm.trans accepted.2.choose_spec
    | again _ used => exact ⟨used, rfl⟩
  · rintro ⟨used, rfl⟩
    exact .again accepted used

theorem attach_eq_error_iff : attach job seen tail = .error e ↔ Stops seen tail e := by
  induction tail generalizing job seen with
  | nil => exact iff_of_false nofun nofun
  | cons s tail ih =>
    obtain ⟨op, ws⟩ := s
    rw [stops_cons_iff]
    by_cases some : ws = []
    · subst some
      have refused : ¬ Accepted [] := fun accepted => accepted.1 rfl
      rw [attach_missing, misplaced_nil_iff, Except.error.injEq, eq_comm]
      exact (or_iff_left fun both => refused both.1).symm
    cases read : Command.ofWords ws with
    | error fault =>
      have refused : ¬ Accepted ws := fun accepted => nomatch read.symm.trans accepted.2.choose_spec
      rw [attach_of_error some read, misplaced_error_iff some read, Except.error.injEq, eq_comm]
      exact (or_iff_left fun both => refused both.1).symm
    | ok c =>
      have accepted : Accepted ws := ⟨some, c, read⟩
      rw [attach_of_ok some read, misplaced_accepted_iff accepted]
      split
      next used => simp [used, eq_comm]
      next fresh => simp [fresh, accepted, ih]

theorem Misplaced.of_subset {seen' : List Operator} (misplaced : Misplaced seen op ws e)
    (subset : seen ⊆ seen') : Misplaced seen' op ws e := by
  cases misplaced with
  | missing => exact .missing
  | command some fault => exact .command some fault
  | again accepted used => exact .again accepted (subset used)

/-- The commands are attached up to the first fault, so everything in front of it is in
order. -/
theorem stops_iff : Stops seen tail e ↔ ∃ before op ws after,
    tail = before ++ (op, ws) :: after ∧ (∀ s ∈ before, Accepted s.2) ∧
    (∀ s ∈ before, s.1 ∉ seen) ∧ (before.map (·.1)).Nodup ∧
    Misplaced (before.map (·.1) ++ seen) op ws e := by
  constructor
  · intro stops
    induction stops with
    | here misplaced => exact ⟨[], _, _, _, rfl, nofun, nofun, .nil, misplaced⟩
    | @later seen op ws tail e accepted fresh _ ih =>
      obtain ⟨before, op', ws', after, rfl, accepts, unseen, once, misplaced⟩ := ih
      refine ⟨(op, ws) :: before, op', ws', after, rfl,
        List.forall_mem_cons.mpr ⟨accepted, accepts⟩, ?_, ?_, misplaced.of_subset ?_⟩
      · exact List.forall_mem_cons.mpr
          ⟨fresh, fun s member => List.not_mem_of_not_mem_cons (unseen s member)⟩
      · refine List.nodup_cons.mpr ⟨fun member => ?_, once⟩
        obtain ⟨s, inside, same⟩ := List.mem_map.mp member
        exact List.ne_of_not_mem_cons (unseen s inside) same
      · exact (List.perm_middle (a := op)).subset
  · rintro ⟨before, op, ws, after, rfl, accepts, unseen, once, misplaced⟩
    induction before generalizing seen with
    | nil => exact .here misplaced
    | cons s before ih =>
      obtain ⟨accepted, accepts⟩ := List.forall_mem_cons.mp accepts
      obtain ⟨fresh, unseen⟩ := List.forall_mem_cons.mp unseen
      obtain ⟨alone, once⟩ := List.nodup_cons.mp once
      refine .later accepted fresh (ih accepts ?_ once (misplaced.of_subset ?_))
      · intro r member
        refine List.not_mem_cons_of_ne_of_not_mem ?_ (unseen r member)
        intro same
        exact alone (List.mem_map.mpr ⟨r, member, same⟩)
      · exact (List.perm_middle (a := s.1)).symm.subset

/-! ## The two descriptions of a line -/

/-- The fault of a line that does not begin with a command. -/
def headless : List (Operator × List String) → ParseError
  | [] => .empty
  | (op, _) :: _ => .operator op.text

theorem faulty_headless_iff : Faulty [] tail e ↔ e = headless tail := by
  constructor
  · intro faulty
    cases faulty with
    | empty => rfl
    | leading => rfl
    | first some => exact absurd rfl some
    | later accepted => exact absurd rfl accepted.1
  · rintro rfl
    cases tail with
    | nil => exact .empty
    | cons s tail => exact .leading

variable {line : String} {head : List String} {c : Command}

theorem parse_headless (layout : Layout line [] tail) : parse line = .error (headless tail) := by
  rw [parse, layout_iff.mp layout]
  cases tail <;> rfl

theorem parse_of_error (layout : Layout line head tail) (some : head ≠ [])
    (fault : Command.ofWords head = .error e) : parse line = .error e := by
  have full : ¬ head.isEmpty = true := by simpa using some
  rw [parse, layout_iff.mp layout]
  dsimp only
  rw [if_neg full, readJob, fault]
  rfl

theorem parse_of_ok (layout : Layout line head tail) (some : head ≠ [])
    (read : Command.ofWords head = .ok c) :
    parse line = attach (.single (Text.unwords head) c) [] tail := by
  have full : ¬ head.isEmpty = true := by simpa using some
  rw [parse, layout_iff.mp layout]
  dsimp only
  rw [if_neg full, readJob, read]
  rfl

/-- The job of the first command has no continuation, so what hangs at it in the end is what
was attached. -/
theorem reads_iff (some : head ≠ []) (read : Command.ofWords head = .ok c) :
    Reads head tail job ↔ Attaches (.single (Text.unwords head) c) [] tail job := by
  constructor
  · rintro ⟨_, label, action, accepted, once, success, failure⟩
    cases read.symm.trans action
    refine ⟨label, rfl, accepted, once, fun _ _ => List.not_mem_nil, fun op => ?_⟩
    cases op with
    | andThen => exact success
    | orElse => exact failure
  · rintro ⟨label, action, accepted, once, _, hangs⟩
    have same : job.action = c := action
    exact ⟨some, label, same ▸ read, accepted, once, hangs .andThen, hangs .orElse⟩

theorem faulty_iff (accepted : Accepted head) : Faulty head tail e ↔ Stops [] tail e := by
  rw [stops_iff]
  constructor
  · intro faulty
    cases faulty with
    | empty => exact absurd rfl accepted.1
    | leading => exact absurd rfl accepted.1
    | first _ fault => cases fault.symm.trans accepted.2.choose_spec
    | @later _ ws before after op _ _ accepts once misplaced =>
      refine ⟨before, op, ws, after, rfl, accepts, fun _ _ => List.not_mem_nil, once, ?_⟩
      rwa [List.append_nil]
  · rintro ⟨before, op, ws, after, rfl, accepts, _, once, misplaced⟩
    rw [List.append_nil] at misplaced
    exact .later accepted accepts once misplaced

theorem faulty_error_iff {fault : ParseError} (some : head ≠ [])
    (found : Command.ofWords head = .error fault) : Faulty head tail e ↔ e = fault := by
  constructor
  · intro faulty
    cases faulty with
    | empty => exact absurd rfl some
    | leading => exact absurd rfl some
    | first _ found' => exact Except.error.inj (found'.symm.trans found)
    | later accepted => cases found.symm.trans accepted.2.choose_spec
  · rintro rfl
    exact .first some found

theorem parse_eq_ok_iff (layout : Layout line head tail) :
    parse line = .ok job ↔ Reads head tail job := by
  by_cases some : head = []
  · subst some
    rw [parse_headless layout]
    exact iff_of_false nofun fun reads => reads.some rfl
  cases read : Command.ofWords head with
  | error fault =>
    rw [parse_of_error layout some read]
    exact iff_of_false nofun fun reads => nomatch read.symm.trans reads.action
  | ok c => rw [parse_of_ok layout some read, attach_eq_ok_iff, reads_iff some read]

theorem parse_eq_error_iff (layout : Layout line head tail) :
    parse line = .error e ↔ Faulty head tail e := by
  by_cases some : head = []
  · subst some
    rw [parse_headless layout, faulty_headless_iff, Except.error.injEq, eq_comm]
  cases read : Command.ofWords head with
  | error fault =>
    rw [parse_of_error layout some read, faulty_error_iff some read, Except.error.injEq, eq_comm]
  | ok c => rw [parse_of_ok layout some read, attach_eq_error_iff, faulty_iff ⟨some, c, read⟩]

/-- A line is read exactly when its words are those of a command and, after it, of at most
one command for each of the two operators, in either order.  The tree that is read has the
first command as its root, and what hangs there are the commands after the operators.  All
other lines have one fault, the leftmost one. -/
theorem line_grammar (line : String) :
    (∀ job, parse line = .ok job ↔
      ∃ head tail, Layout line head tail ∧ tail.length ≤ 2 ∧ Reads head tail job) ∧
    (∀ e, parse line = .error e ↔ ∃ head tail, Layout line head tail ∧ Faulty head tail e) := by
  have layout : Layout line (split (Text.words line)).1 (split (Text.words line)).2 :=
    layout_iff.mpr rfl
  refine ⟨fun job => ⟨fun read => ?_, ?_⟩, fun e => ⟨fun fault => ?_, ?_⟩⟩
  · have reads := (parse_eq_ok_iff layout).mp read
    refine ⟨_, _, layout, ?_, reads⟩
    simpa using length_le_two reads.once
  · rintro ⟨head, tail, layout, _, reads⟩
    exact (parse_eq_ok_iff layout).mpr reads
  · exact ⟨_, _, layout, (parse_eq_error_iff layout).mp fault⟩
  · rintro ⟨head, tail, layout, faulty⟩
    exact (parse_eq_error_iff layout).mpr faulty

end CommandPool.CommandLine

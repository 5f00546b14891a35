import CommandPool.Pool.Supplied
import CommandPool.Proofs.Pool.Thorough

/-!
# What a supplied pool draws

A run of a supplied pool is one of its fed pool (`fed_steps`), so what holds however feeder and
workers overlap holds here too.  What is new is where the draws come from.  As long as what they
are drawn from stays the same, they give its bytes in order, in portions, and then nothing
(`exists_portions`), or all there is is a fault (`exists_fault`).
-/

namespace CommandPool.Pool

open Lines (Draw Portions)
open Timeline (Supply)

variable {α ε : Type} {parse : Parse α} {supply : Supply ε}

namespace Fed

variable {f f' : Fed α} {l : Label α}

/-- A feeder that draws goes on to draw from where it was, unless it draws now. -/
theorem intake_of_step {r : Lines.Reader} {count : Nat} (step : f.step parse l = some f')
    (undrawn : l.draw? = none) (intake : f.feeder.intake = .drawn r count) :
    ∃ r', f'.feeder.intake = .drawn r' count := by
  have full : f.awaitsBytes = false := by rw [awaitsBytes, intake]
  cases l with
  | pool l =>
    obtain ⟨p', _, rfl⟩ := Option.map_eq_some_iff.mp step
    exact ⟨r, intake⟩
  | feed =>
    obtain ⟨⟨p', feeder'⟩, fed, rfl⟩ := Option.map_eq_some_iff.mp step
    obtain ⟨l, feeds, _⟩ := feeds_of_step fed
    cases feeds with
    | read reads polled takes =>
      rw [intake, Intake.poll] at polled
      split at polled
      next => cases polled; exact ⟨r, rfl⟩
      next =>
        split at polled
        next reading r' _ => cases polled; exact ⟨r'.reopen, rfl⟩
        next => cases polled
    | look => exact ⟨r, intake⟩
  | arrive bytes => simp [Fed.step, full] at step
  | inputEnds => simp [Fed.step, full] at step
  | draw got => cases undrawn

theorem intake_of_draw {got : Draw} (step : f.step parse (.draw got) = some f') :
    f'.feeder.intake = f.feeder.intake.receive got := by
  obtain ⟨_, step⟩ := Option.ite_none_right_eq_some.mp step
  cases step
  rfl

end Fed

namespace Supplied

variable {changes : ε → ε → Prop} {s s' : Supplied α ε}

/-- Nobody but the feeder submits jobs, nobody cancels, and the world changes as it may. -/
def IsOwn (changes : ε → ε → Prop) (s : Supplied α ε) : Label α ε → Prop
  | .fed l => Fed.IsOwn s.fed l
  | .draw => True
  | .change world => changes s.world world

instance decidableIsOwn (changes : ε → ε → Prop) [∀ a b, Decidable (changes a b)]
    (s : Supplied α ε) : (l : Label α ε) → Decidable (IsOwn changes s l)
  | .fed l => Fed.decidableIsOwn s.fed l
  | .draw => .isTrue trivial
  | .change world => inferInstanceAs (Decidable (changes s.world world))

theorem isOwn_imp {also : ε → ε → Prop} (imp : ∀ a b, changes a b → also a b)
    (s : Supplied α ε) (l : Label α ε) (own : IsOwn changes s l) : IsOwn also s l := by
  cases l with
  | change world => exact imp _ _ own
  | _ => exact own

/-- What a step does. -/
inductive Steps (parse : Parse α) (supply : Supply ε) (s : Supplied α ε) :
    Label α ε → Supplied α ε → Prop where
  | fed {l : Fed.Label α} {f : Fed α} : l.draw? = none → s.fed.step parse l = some f →
      Steps parse supply s (.fed l) ⟨f, s.world⟩
  | draw {r : Lines.Reader} {count : Nat} {f : Fed α} : s.fed.feeder.intake = .drawn r count →
      s.fed.step parse (.draw (supply.draw s.world count)) = some f →
      Steps parse supply s .draw ⟨f, s.world⟩
  | change (world : ε) : Steps parse supply s (.change world) ⟨s.fed, world⟩

theorem steps_of_step {l : Label α ε} (step : s.step parse supply l = some s') :
    Steps parse supply s l s' := by
  cases l with
  | fed l =>
    cases l with
    | draw got => cases step
    | _ =>
      obtain ⟨f, stepped, rfl⟩ := Option.map_eq_some_iff.mp step
      exact .fed rfl stepped
  | draw =>
    obtain ⟨got, drawn, step⟩ := Option.bind_eq_some_iff.mp step
    obtain ⟨f, stepped, rfl⟩ := Option.map_eq_some_iff.mp step
    unfold draw? at drawn
    split at drawn
    next r count intake =>
      cases drawn
      exact .draw intake stepped
    next => cases drawn
  | change world =>
    cases step
    exact .change world

theorem drawn_draw {r : Lines.Reader} {count : Nat} (ls : List (Label α ε))
    (step : s.step parse supply .draw = some s') (intake : s.fed.feeder.intake = .drawn r count) :
    s.drawn parse supply (.draw :: ls) =
      supply.draw s.world count :: s'.drawn parse supply ls := by
  rw [drawn, step]
  simp only [draw?, intake]
  rfl

theorem drawn_other {l : Label α ε} (ls : List (Label α ε))
    (step : s.step parse supply l = some s') (other : l ≠ .draw) :
    s.drawn parse supply (l :: ls) = s'.drawn parse supply ls := by
  rw [drawn, step]
  cases l with
  | draw => exact absurd rfl other
  | _ => rfl

/-! ## Runs of the fed pool -/

/-- A run of a supplied pool is one of its fed pool. -/
theorem fed_steps {ls : List (Label α ε)} (run : s.steps parse supply ls = some s')
    (own : Throughout (step parse supply) (IsOwn changes) s ls) :
    ∃ ms, s.fed.steps parse ms = some s'.fed ∧
      Throughout (Fed.step parse) Fed.IsOwn s.fed ms ∧
      Fed.draws ms = s.drawn parse supply ls := by
  induction ls generalizing s with
  | nil =>
    cases run
    exact ⟨[], rfl, trivial, rfl⟩
  | cons l ls ih =>
    obtain ⟨next, step, rest⟩ := Option.bind_eq_some_iff.mp run
    obtain ⟨now, later⟩ := own
    obtain ⟨ms, steps, throughout, draws⟩ := ih rest (later next step)
    cases steps_of_step step with
    | @fed l f undrawn stepped =>
      refine ⟨l :: ms, Option.bind_eq_some_iff.mpr ⟨_, stepped, steps⟩,
        throughout_cons now stepped throughout, ?_⟩
      rw [Fed.draws_cons, undrawn, drawn_other ls step nofun]
      exact draws
    | @draw r count f intake stepped =>
      refine ⟨_ :: ms, Option.bind_eq_some_iff.mpr ⟨_, stepped, steps⟩,
        throughout_cons trivial stepped throughout, ?_⟩
      rw [Fed.draws_cons, draws, drawn_draw ls step intake]
      rfl
    | change world =>
      rw [drawn_other ls step nofun]
      exact ⟨ms, steps, throughout, draws⟩

/-! ## Draws from what stays the same -/

section Same

variable {finds : ε → Prop} {r : Lines.Reader} {count : Nat} {ls : List (Label α ε)}

/-- Each draw finds the world so. -/
def Finds (parse : Parse α) (supply : Supply ε) (finds : ε → Prop) :
    Supplied α ε → List (Label α ε) → Prop :=
  Throughout (step parse supply) fun s l => l = .draw → finds s.world

instance decidableFinds [∀ world, Decidable (finds world)] (s : Supplied α ε)
    (ls : List (Label α ε)) : Decidable (Finds parse supply finds s ls) :=
  have (s : Supplied α ε) : (l : Label α ε) → Decidable (l = .draw → finds s.world)
    | .draw => decidable_of_iff (finds s.world) ⟨fun found _ => found, fun found => found rfl⟩
    | .fed _ => .isTrue nofun
    | .change _ => .isTrue nofun
  decidableThroughout _ _ s ls

/-- What holds at first and is kept by the changes of the world is found by each draw. -/
theorem finds_of_own (kept : ∀ {a b}, finds a → changes a b → finds b) (now : finds s.world)
    (run : s.steps parse supply ls = some s')
    (own : Throughout (step parse supply) (IsOwn changes) s ls) :
    Finds parse supply finds s ls := by
  induction ls generalizing s with
  | nil => trivial
  | cons l ls ih =>
    obtain ⟨next, step, rest⟩ := Option.bind_eq_some_iff.mp run
    obtain ⟨goes, later⟩ := own
    refine throughout_cons (fun _ => now) step ?_
    cases steps_of_step step with
    | change world => exact ih (kept now goes) rest (later _ step)
    | _ => exact ih now rest (later _ step)

theorem Finds.and {also : ε → Prop} (one : Finds parse supply finds s ls)
    (other : Finds parse supply also s ls) :
    Finds parse supply (fun world => finds world ∧ also world) s ls := by
  induction ls generalizing s with
  | nil => trivial
  | cons l ls ih =>
    exact ⟨fun draws => ⟨one.1 draws, other.1 draws⟩,
      fun next step => ih (one.2 next step) (other.2 next step)⟩

/-- What can be said of a draw from such a world can be said of all draws. -/
theorem forall_drawn {so : Draw → Prop}
    (draws : ∀ world count, finds world → so (supply.draw world count))
    (run : s.steps parse supply ls = some s') (kept : Finds parse supply finds s ls) :
    ∀ got ∈ s.drawn parse supply ls, so got := by
  induction ls generalizing s with
  | nil => exact nofun
  | cons l ls ih =>
    obtain ⟨next, step, rest⟩ := Option.bind_eq_some_iff.mp run
    obtain ⟨now, later⟩ := kept
    have all := ih rest (later next step)
    cases steps_of_step step with
    | draw intake =>
      rw [drawn_draw ls step intake]
      exact List.forall_mem_cons.mpr ⟨draws s.world _ (now rfl), all⟩
    | fed =>
      rw [drawn_other ls step nofun]
      exact all
    | change world =>
      rw [drawn_other ls step nofun]
      exact all

/-- If each draw finds these bytes, the draws give them from where the feeder is. -/
theorem exists_portions {bytes : List UInt8} {size : Nat} (sized : 0 < size)
    (draws : ∀ world count, finds world →
      supply.draw world count = .ok ((bytes.drop count).take size))
    (intake : s.fed.feeder.intake = .drawn r count) (run : s.steps parse supply ls = some s')
    (kept : Finds parse supply finds s ls) :
    ∃ later, Portions (bytes.drop count) (s.drawn parse supply ls ++ later) := by
  induction ls generalizing s r count with
  | nil => exact Lines.exists_portions _
  | cons l ls ih =>
    obtain ⟨next, step, rest⟩ := Option.bind_eq_some_iff.mp run
    obtain ⟨now, later⟩ := kept
    cases steps_of_step step with
    | fed undrawn stepped =>
      obtain ⟨r', intake'⟩ := Fed.intake_of_step stepped undrawn intake
      rw [drawn_other ls step nofun]
      exact ih intake' rest (later _ step)
    | change world =>
      rw [drawn_other ls step nofun]
      exact ih intake rest (later _ step)
    | @draw r' count' f at_intake stepped =>
      cases intake.symm.trans at_intake
      have got := draws s.world count (now rfl)
      have intake' := Fed.intake_of_draw stepped
      rw [intake, got, Intake.receive] at intake'
      rw [drawn_draw ls step intake, got]
      have whole := List.prefix_iff_eq_append.mp (List.take_prefix size (bytes.drop count))
      rw [List.drop_drop] at whole
      split at intake'
      next ended =>
        -- Nothing is left, and nothing is left later.
        have none_left : bytes.drop count = [] :=
          (List.take_eq_nil_iff.mp (List.isEmpty_iff.mp ended)).resolve_left (Nat.ne_of_gt sized)
        obtain ⟨more, portions⟩ := ih intake' rest (later _ step)
        rw [none_left] at portions ⊢
        rw [List.take_nil]
        exact ⟨more, .still portions⟩
      next filled =>
        obtain ⟨more, portions⟩ := ih intake' rest (later _ step)
        have all := Portions.portion (mt List.isEmpty_iff.mpr filled) portions
        rw [whole] at all
        exact ⟨more, all⟩

/-- If each draw finds a fault, there is nothing else to be drawn. -/
theorem exists_fault {fault : Files.Fault}
    (draws : ∀ world count, finds world → supply.draw world count = .error fault)
    (intake : s.fed.feeder.intake = .drawn r count) (run : s.steps parse supply ls = some s')
    (kept : Finds parse supply finds s ls) :
    ∃ later rest, s.drawn parse supply ls ++ later = .error fault :: rest := by
  induction ls generalizing s r count with
  | nil => exact ⟨_, [], rfl⟩
  | cons l ls ih =>
    obtain ⟨next, step, rest⟩ := Option.bind_eq_some_iff.mp run
    obtain ⟨now, later⟩ := kept
    cases steps_of_step step with
    | fed undrawn stepped =>
      obtain ⟨r', intake'⟩ := Fed.intake_of_step stepped undrawn intake
      rw [drawn_other ls step nofun]
      exact ih intake' rest (later _ step)
    | change world =>
      rw [drawn_other ls step nofun]
      exact ih intake rest (later _ step)
    | draw at_intake stepped =>
      cases intake.symm.trans at_intake
      rw [drawn_draw ls step intake, draws s.world count (now rfl)]
      exact ⟨[], _, List.append_nil _⟩

end Same

end Supplied

end CommandPool.Pool

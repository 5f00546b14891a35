import CommandPool.Proofs.Command.Printing
import CommandPool.Proofs.Store.Transfers

/-!
# Copies and moves as transfers

A copy transfers its source to its target as that is resolved, and a move does the same
before it removes the source.  The parser lets no local file be copied to a local file,
so `Store.ends_transfer` says how every copy and move that is read goes.
-/

namespace CommandPool.Command

open Store (Operand Site Workspace)
open Files (FileSystem)

variable {text root : String} {source target : Operand} {settings : Settings}
  {pace : Nat → Nat} {w w' : Workspace}

/-! ## Operands -/

/-- The source and the target of a command that has both. -/
def ends? : Command → Option (Operand × Operand)
  | .copy source target => some (source, target)
  | .move source target => some (source, target)
  | .remove _ => none
  | .list _ => none

/-- A source and a target that are read are not both local. -/
theorem kinds_of_readPair {name s t : String} {ends : Operand × Operand} :
    readPair name s t = .ok ends → ends.1.isObject = true ∨ ends.2.isObject = true := by
  fun_cases readPair name s t
  all_goals intro read
  case case3 src dst kinds key object _ =>
    cases read
    rw [object]
    exact .inl rfl
  case case4 src dst kinds path file =>
    cases read
    refine .inr ?_
    simpa [file, Operand.isObject] using kinds
  -- The other pairs are refused.
  all_goals cases read

theorem readPair_of_map {name s t : String} {c : Command} {build : Operand × Operand → Command}
    (builds : ∀ ends, (build ends).ends? = some ends)
    (read : (readPair name s t).map build = .ok c) (ends : c.ends? = some (source, target)) :
    readPair name s t = .ok (source, target) := by
  cases pair : readPair name s t with
  | error e =>
    rw [pair] at read
    cases read
  | ok both =>
    rw [pair] at read
    cases read
    rw [builds] at ends
    cases ends
    rfl

/-- The source and the target of a command are read from its second and its third word. -/
theorem exists_readPair {ws : List String} {c : Command} (read : ofWords ws = .ok c)
    (ends : c.ends? = some (source, target)) :
    ∃ name s t, ws = [name, s, t] ∧ readPair name s t = .ok (source, target) := by
  obtain rfl := words_of_ofWords read
  cases c with
  | copy => cases ends; exact ⟨_, _, _, rfl, readPair_of_map (fun _ => rfl) read rfl⟩
  | move => cases ends; exact ⟨_, _, _, rfl, readPair_of_map (fun _ => rfl) read rfl⟩
  | remove => cases ends
  | list => cases ends

/-- A command that is read does not copy from a local file to a local file. -/
theorem kinds_of_parse {c : Command} (parsed : parse text = .ok c)
    (ends : c.ends? = some (source, target)) :
    source.isObject = true ∨ target.isObject = true := by
  obtain ⟨_, _, _, _, read⟩ := exists_readPair parsed ends
  exact kinds_of_readPair read

theorem resolveTarget_isObject (fs : FileSystem) (target source : Operand) :
    (target.resolveTarget fs source).isObject = target.isObject := by
  unfold Operand.resolveTarget
  split
  next => rfl
  next =>
    split
    next => split <;> rfl
    next => split <;> rfl

/-! ## Runs -/

/-- What a command that is read transfers ends as `Store.TransferEnd` says. -/
theorem ends_runCopy {c : Command} (parsed : parse text = .ok c)
    (ends : c.ends? = some (source, target)) (root : String) (settings : Settings)
    (pace : Nat → Nat) (w : Workspace) :
    Store.TransferEnd root w.files source (target.resolveTarget w.files source)
      ((runCopy pace (.of root settings) source target).run w).2.files
      ((runCopy pace (.of root settings) source target).run w).1 := by
  have kinds := kinds_of_parse parsed ends
  rw [← resolveTarget_isObject w.files target source] at kinds
  rw [runCopy, run_bind_ok (run_get w)]
  exact Store.ends_transfer pace (.of root settings) (Nat.le_max_right _ 1) source _ kinds w

/-- A copy ends as its transfer does. -/
theorem run_copy (parsed : parse text = .ok (.copy source target))
    {result : Except Store.Failure Unit}
    (ran : (runAt pace (.of root settings) (.copy source target)).run w = (result, w')) :
    ∃ sent, Store.TransferEnd root w.files source (target.resolveTarget w.files source)
        w'.files sent ∧
      result = sent.map fun _ => () := by
  have ends := ends_runCopy parsed rfl root settings pace w
  rw [runAt, run_bind] at ran
  rcases sent : (runCopy pace (.of root settings) source target).run w with ⟨_ | _, w₁⟩
  all_goals
    rw [sent] at ran ends
    cases ran
    exact ⟨_, ends, rfl⟩

/-- A move goes on to remove its source when the transfer has succeeded, and otherwise
ends as that does. -/
theorem run_move (parsed : parse text = .ok (.move source target))
    {result : Except Store.Failure Unit}
    (ran : (runAt pace (.of root settings) (.move source target)).run w = (result, w')) :
    ∃ sent w₁, Store.TransferEnd root w.files source (target.resolveTarget w.files source)
        w₁.files sent ∧
      ((∃ failure, sent = .error failure ∧ result = .error failure ∧ w' = w₁) ∨
        ∃ n, sent = .ok n ∧ (runRemove (.of root settings) source).run w₁ = (result, w')) := by
  have ends := ends_runCopy parsed rfl root settings pace w
  rw [runAt, run_bind] at ran
  rcases sent : (runCopy pace (.of root settings) source target).run w with ⟨failure | n, w₁⟩
  · rw [sent] at ran ends
    cases ran
    exact ⟨_, _, ends, Or.inl ⟨failure, rfl, rfl, rfl⟩⟩
  · rw [sent] at ran ends
    exact ⟨_, w₁, ends, Or.inr ⟨n, rfl, ran⟩⟩

end CommandPool.Command

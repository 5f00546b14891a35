/-!
# Runs of fallible programs with a state

Operations on files and requests to the store are programs that read and write a state
and may fail, and keep what they changed when they fail.  A run gives the answer or the
failure, and the state afterwards.
-/

namespace CommandPool

variable {ε σ α β : Type}

instance decidableEqExcept [DecidableEq ε] [DecidableEq α] : DecidableEq (Except ε α)
  | .ok a, .ok b => decidable_of_iff (a = b) ⟨congrArg _, Except.ok.inj⟩
  | .error e, .error f => decidable_of_iff (e = f) ⟨congrArg _, Except.error.inj⟩
  | .ok _, .error _ => .isFalse nofun
  | .error _, .ok _ => .isFalse nofun

/-- A run is its answer and the state that it leaves. -/
theorem eq_of_answer {ran : Except ε α × σ} {answer : Except ε α} (gives : ran.1 = answer) :
    ran = (answer, ran.2) := by
  rw [← gives]

theorem run_get (s : σ) : (get : ExceptT ε (StateM σ) σ).run s = (.ok s, s) := rfl

theorem run_modify (f : σ → σ) (s : σ) :
    (modify f : ExceptT ε (StateM σ) Unit).run s = (.ok (), f s) := rfl

theorem run_bind (x : ExceptT ε (StateM σ) α) (f : α → ExceptT ε (StateM σ) β) (s : σ) :
    (x >>= f).run s =
      match x.run s with
      | (.ok a, s') => (f a).run s'
      | (.error e, s') => (.error e, s') := by
  rw [ExceptT.run_bind]
  show StateT.run (_ >>= _) s = _
  rw [StateT.run_bind]
  show (match (x.run s).1 with
    | .ok a => (f a).run
    | .error e => pure (.error e)) (x.run s).2 = _
  rcases x.run s with ⟨_ | _, s'⟩ <;> rfl

/-- After a part that succeeded comes the rest. -/
theorem run_bind_ok {x : ExceptT ε (StateM σ) α} {s s' : σ} {a : α} (ran : x.run s = (.ok a, s'))
    (f : α → ExceptT ε (StateM σ) β) : (x >>= f).run s = (f a).run s' := by
  rw [run_bind, ran]

/-- After a part that failed comes nothing. -/
theorem run_bind_error {x : ExceptT ε (StateM σ) α} {s s' : σ} {e : ε}
    (ran : x.run s = (.error e, s')) (f : α → ExceptT ε (StateM σ) β) :
    (x >>= f).run s = (.error e, s') := by
  rw [run_bind, ran]

/-- A run that succeeds is one of its first part and one of the rest. -/
theorem run_bind_eq_ok {x : ExceptT ε (StateM σ) α} {f : α → ExceptT ε (StateM σ) β} {s s' : σ}
    {b : β} (ran : (x >>= f).run s = (.ok b, s')) :
    ∃ a s₁, x.run s = (.ok a, s₁) ∧ (f a).run s₁ = (.ok b, s') := by
  rw [run_bind] at ran
  split at ran
  next a s₁ first => exact ⟨a, s₁, first, ran⟩
  next => cases ran

/-- After the same part the rest may be exchanged for another one that runs alike. -/
theorem run_bind_congr {x : ExceptT ε (StateM σ) α} {f g : α → ExceptT ε (StateM σ) β} {s : σ}
    (same : ∀ a s', x.run s = (.ok a, s') → (f a).run s' = (g a).run s') :
    (x >>= f).run s = (x >>= g).run s := by
  rcases ran : x.run s with ⟨e | a, s'⟩
  · rw [run_bind_error ran, run_bind_error ran]
  · rw [run_bind_ok ran, run_bind_ok ran]
    exact same a s' ran

theorem run_tryCatch (x : ExceptT ε (StateM σ) α) (f : ε → ExceptT ε (StateM σ) α) (s : σ) :
    (tryCatch x f).run s =
      match x.run s with
      | (.ok a, s') => (.ok a, s')
      | (.error e, s') => (f e).run s' := by
  show (match (x.run s).1 with
    | Except.ok a => pure (Except.ok a)
    | Except.error e => (f e).run) (x.run s).2 = _
  rcases x.run s with ⟨_ | _, s'⟩ <;> rfl

/-! ## Relations that every part of a run respects -/

variable {R : σ → σ → Prop} {x : ExceptT ε (StateM σ) α} {s : σ}

/-- A part and the rest change the state as `R` says, so the whole does. -/
theorem bind_respects (trans : ∀ {a b c}, R a b → R b c → R a c)
    {f : α → ExceptT ε (StateM σ) β} (first : R s (x.run s).2)
    (rest : ∀ a s', x.run s = (.ok a, s') → R s' ((f a).run s').2) :
    R s ((x >>= f).run s).2 := by
  rw [run_bind]
  split
  next a s' ran =>
    rw [ran] at first
    exact trans first (rest a s' ran)
  next e s' ran =>
    rw [ran] at first
    exact first

theorem tryCatch_respects (trans : ∀ {a b c}, R a b → R b c → R a c)
    {f : ε → ExceptT ε (StateM σ) α} (first : R s (x.run s).2)
    (rest : ∀ e s', x.run s = (.error e, s') → R s' ((f e).run s').2) :
    R s ((tryCatch x f).run s).2 := by
  rw [run_tryCatch]
  split
  next a s' ran =>
    rw [ran] at first
    exact first
  next e s' ran =>
    rw [ran] at first
    exact trans first (rest e s' ran)

/-! ## Runs from two states -/

/-- From both states the run has the same answer, and the states that it leaves are related. -/
def Agrees (R : σ → σ → Prop) (x : ExceptT ε (StateM σ) α) (s t : σ) : Prop :=
  (x.run t).1 = (x.run s).1 ∧ R (x.run s).2 (x.run t).2

variable {t : σ}

theorem agrees_pure (related : R s t) (a : α) :
    Agrees R (pure a : ExceptT ε (StateM σ) α) s t := ⟨rfl, related⟩

theorem agrees_throw (related : R s t) (e : ε) :
    Agrees R (throw e : ExceptT ε (StateM σ) α) s t := ⟨rfl, related⟩

theorem Agrees.bind {f : α → ExceptT ε (StateM σ) β} (first : Agrees R x s t)
    (rest : ∀ a s' t', x.run s = (.ok a, s') → x.run t = (.ok a, t') → R s' t' →
      Agrees R (f a) s' t') :
    Agrees R (x >>= f) s t := by
  obtain ⟨answers, related⟩ := first
  rcases ran : x.run s with ⟨answer, s'⟩
  rcases ran' : x.run t with ⟨answer', t'⟩
  rw [ran, ran'] at answers related
  cases answers
  cases answer with
  | error e =>
    rw [Agrees, run_bind_error ran, run_bind_error ran']
    exact ⟨rfl, related⟩
  | ok a =>
    rw [Agrees, run_bind_ok ran, run_bind_ok ran']
    exact rest a s' t' ran ran' related

theorem Agrees.tryCatch {f : ε → ExceptT ε (StateM σ) α} (first : Agrees R x s t)
    (rest : ∀ e s' t', R s' t' → Agrees R (f e) s' t') : Agrees R (tryCatch x f) s t := by
  obtain ⟨answers, related⟩ := first
  rcases ran : x.run s with ⟨answer, s'⟩
  rcases ran' : x.run t with ⟨answer', t'⟩
  rw [ran, ran'] at answers related
  cases answers
  rw [Agrees, run_tryCatch, run_tryCatch, ran, ran']
  cases answer with
  | error e => exact rest e s' t' related
  | ok a => exact ⟨rfl, related⟩

end CommandPool

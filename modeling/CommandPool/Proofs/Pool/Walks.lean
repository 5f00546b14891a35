import CommandPool.Proofs.Pool.OnTour

/-!
# Walking a job

A worker walks its job down one path of the tree, node by node, however the attempts end and
whenever the run is cancelled.  How often a node is attempted depends on the results at that
node only: each begins with all its retries and with the first delay.  When the walk is over,
the worker goes on to the next job, unless a wait was cut short at one of the nodes.
-/

namespace CommandPool.Pool

variable {α : Type} {p q : Pool α} {w ticket : Nat} {stage : Stage α} {answers : Answers}

/-- How the walk of a worker that is at this stage of a job goes on. -/
structure Proceeds (p : Pool α) (answers : Answers) (ticket w : Nat) (job : Job α)
    (stage : Stage α) : Prop where
  /-- Each piece of the worker brings the job nearer to its end, and nothing else touches
  it. -/
  pursues : Pursues p ticket w stage
  /-- The worker alone can bring the walk to its end. -/
  ends : ∃ ms q, p.pieces ms = some q ∧ (∀ l ∈ ms, l.worker? = some w) ∧
    Throughout stepPiece (Gives answers ticket) p ms ∧ ∀ i other, ¬ q.At i other ticket
  /-- The piece that ends the walk leaves a worker that has stopped, if a wait was cut short at
  one of the nodes, and one that is idle otherwise. -/
  reports : ∀ l q, p.stepPiece l = some q → Gives answers ticket p l →
    (∀ other, ¬ q.At w other ticket) → ∃ visits, Along job.toChain visits .done ∧
      (eventsOf q.history ticket).reverse = tour p.settings w ticket 0 visits ∧
      q.phase? w = some (if isCutShort visits then .stopped else .idle)

theorem Heard.reports {l : Piece α} {s : Send (Job α)} {visits : List Visit} {rest : Chain α}
    {here : List Event} (heard : p.Heard ticket w s stage) (chronicle : Chronicle p)
    (gotten : p.queue.Got ticket) (busy : p.At w stage ticket)
    (toured : Toured p.settings w ticket answers s.job.toChain visits rest here
      (eventsOf p.history ticket) stage)
    (step : p.stepPiece l = some q) (gives : Gives answers ticket p l)
    (nobody : ∀ other, ¬ q.At w other ticket) :
    ∃ visits, Along s.job.toChain visits .done ∧
      (eventsOf q.history ticket).reverse = tour p.settings w ticket 0 visits ∧
      q.phase? w = some (if isCutShort visits then .stopped else .idle) := by
  obtain ⟨phase, at_w, at_phase⟩ := Option.bind_eq_some_iff.mp busy.1
  cases heard.plays chronicle gotten step with
  | stays s' _ heard' =>
    exact absurd ((heard'.holder w stage).mpr ⟨rfl, Phase.stage?_shown at_phase⟩) (nobody stage)
  | plays s' new b named here move plays ends heard' events =>
    obtain ⟨visits', rest', here', toured', _⟩ :=
      toured.move move (heard.heeds here step named gives ends)
    have unseen : b.shown = none := by
      refine Option.eq_none_iff_forall_ne_some.mpr fun other shown => ?_
      exact nobody other ((heard'.holder w other).mpr ⟨rfl, shown⟩)
    obtain ⟨rfl, rfl, rfl⟩ := toured'.stands.finished_of_unseen unseen
    refine ⟨visits', toured'.along, ?_, ?_⟩
    · rw [events, toured'.course, List.append_nil]
    · rw [phase?_of_set at_w plays.workers, if_pos rfl]
      rfl

/-- What the attempts at a job give is given by `answers`, and no attempt at it panics.  Then in
every run of a pool, cancelled or not and however polls overlap, what has happened to a job
that a worker has taken is a walk down its tree:

* the worker visits the nodes of one path from the root on, and the outcome of each visit
  picks the continuation to which the next visit is; to each node there is one visit,
* each visit fits the answers of its own node alone, the first attempt being number one and
  the first delay the initial one; unless a wait is cut short it makes the attempts up to the
  first decisive one,
* a wait is cut short only if the run is cancelled,
* there are at most `maxRetries + 1` attempts for each level of the tree,
* in the end nothing is left of the tree and nobody is at the job; before, the worker stands
  at the next node, can go on to the end alone, and by the piece that ends the walk it stops
  exactly if a wait was cut short at one of the nodes. -/
theorem jobs_are_walked_down_one_path {s : Settings} {cancelled : Bool} {ls : List (Piece α)}
    {sent : Send (Job α)} (run : (started s cancelled).pieces ls = some p)
    (given : Throughout stepPiece (Gives answers ticket) (started s cancelled) ls)
    (found : p.queue.sends[ticket]? = some sent) (got : p.queue.Got ticket) :
    ∃ w visits rest here,
      Along sent.job.toChain visits rest ∧
      (eventsOf p.history ticket).reverse = tour s w ticket 0 visits ++ here ∧
      (∀ i v, visits[i]? = some v → v.Fits s.maxRetries (answers i) ∧
        (v.closing.isCut = false → IsLeast (decisive s.maxRetries (answers i)) (v.retries + 1) ∧
          v.events s ⟨w, ticket, i, v.label⟩ =
            trial s ⟨w, ticket, i, v.label⟩ (answers i) (v.retries + 1))) ∧
      (isCutShort visits = true → p.cancelled = true) ∧
      (eventsOf p.history ticket).countP (·.isAttempt) ≤
        (s.maxRetries + 1) * sent.job.toChain.height ∧
      ((rest = .done ∧ here = [] ∧ ∀ i other, ¬ p.At i other ticket) ∨
        ∃ stage, p.At w stage ticket ∧
          Stands s w ticket answers visits.length (isCutShort visits) rest here stage ∧
          Proceeds p answers ticket w sent.job stage) := by
  have begins := chronicle_started (α := α) s cancelled
  have chronicle := (chronicle_pieces begins run).1
  have settings : p.settings = s := (frame_pieces begins.agrees run).1
  obtain ⟨w, sent', visits, rest, here, stage, heard, toured, cut⟩ :=
    onTour_pieces (onTour_started answers ticket s cancelled) begins run given got
  cases heard.found.symm.trans found
  have toured' := toured
  rw [settings] at toured'
  obtain ⟨along, fits, stands, course⟩ := toured'
  refine ⟨w, visits, rest, here, along, course, fun i v at_i => ?_, cut, ?_, ?_⟩
  · have fit := fits i v at_i
    exact ⟨fit, fun uncut => ⟨fit.isLeast uncut, fit.events_eq_trial uncut⟩⟩
  · have few := toured.attempts
    rwa [settings] at few
  · cases shown : stage.shown with
    | none =>
      obtain ⟨rfl, rfl, rfl⟩ := stands.finished_of_unseen shown
      refine Or.inl ⟨rfl, rfl, fun i other busy => ?_⟩
      cases ((heard.holder i other).mp busy).2
    | some other =>
      obtain ⟨rfl, _⟩ := Stage.shown_eq_some_iff.mp shown
      have busy : p.At w other ticket := (heard.holder w other).mpr ⟨rfl, shown⟩
      refine Or.inr ⟨other, busy, stands, pursues_of_at chronicle.agrees busy,
        exists_end answers chronicle busy, fun l q step gives nobody => ?_⟩
      exact heard.reports chronicle got busy toured step gives nobody

/-- The first node is throttled once, and the second succeeds. -/
def throttledFirst : Answers := fun node _ =>
  if node = 0 then .error (.throttled "slow down") else .ok ()

/-- The run is cancelled while a worker waits before a retry.  It goes on with the failure
continuation, and is about to end the walk. -/
def cutWalk : List (Piece Unit) :=
  [.whole (.submit tryFirst), .whole (.look 0), .whole (.pollSubmit 0), .whole (.start 0),
    .whole (.finish 0 (.plain (.error (.throttled "slow down")))), .whole .cancel,
    .whole (.wake 0), .whole (.start 0)]

theorem jobs_are_walked_down_one_path_cut :
    ∃ p q : Pool Unit, (started pair false).pieces cutWalk = some p ∧
      Throughout stepPiece (Gives throttledFirst 0) (started pair false) cutWalk ∧
      p.queue.Got 0 ∧ p.At 0 (.attempting ⟨0, 1, cleanUp, 0, true⟩) 0 ∧
      p.stepPiece (.whole (.finish 0 (.plain (.ok ())))) = some q ∧
      (∀ other, ¬ q.At 0 other 0) ∧ q.phase? 0 = some .stopped ∧
      ∃ w visits rest here, Along tryFirst.toChain visits rest ∧
        (eventsOf p.history 0).reverse = tour pair w 0 0 visits ++ here ∧
        (eventsOf p.history 0).countP (·.isAttempt) ≤ 2 * 2 := by
  have run : (started pair false).pieces cutWalk = some _ := rfl
  have given : Throughout stepPiece (Gives throttledFirst 0) (started pair false) cutWalk := by
    repeat' first
      | exact trivial
      | refine throughout_cons ?_ rfl ?_
      | (intro t here _; cases here; rfl)
  obtain ⟨w, visits, rest, here, along, course, _, _, few, _⟩ :=
    jobs_are_walked_down_one_path run given rfl ⟨0, rfl⟩
  refine ⟨_, _, run, given, ⟨0, rfl⟩, ⟨rfl, _, rfl, rfl⟩, rfl, ?_, rfl, w, visits, rest, here,
    along, course, few⟩
  rintro other ⟨also, _⟩
  cases also

end CommandPool.Pool

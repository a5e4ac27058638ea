import TableRouting.Proofs.CommandLine.Moves

/-!
# Workers stop

A worker has a number of moves left that each of its own moves lowers and that no move of
another worker raises, so it ends after so many turns.  A worker that has ended only rests,
and a worker that sees the flag set has ended.
-/

namespace TableRouting.CommandLine

def BatchQueue.left (queue : BatchQueue) : Nat := queue.batches.size - queue.next

namespace WorkerPhase

/-- How many moves a worker has left at most, when so many batches have not been taken. -/
def rank (left : Nat) : WorkerPhase → Nat
  | .looking => 3 * left + 2
  | .taking => 3 * left + 1
  | .writing _ _ => 3 * left + 3
  | .failing _ _ => 1
  | .ended => 0

theorem rank_mono {fewer left : Nat} (hfewer : fewer ≤ left) (phase : WorkerPhase) :
    phase.rank fewer ≤ phase.rank left := by
  cases phase <;> simp only [rank] <;> omega

theorem eq_ended_of_rank {left : Nat} {phase : WorkerPhase} (hrank : phase.rank left = 0) :
    phase = .ended := by
  cases phase with
  | ended => rfl
  | looking | taking | writing | failing => simp [rank] at hrank

end WorkerPhase

namespace Worker.Makes

variable {worker after : Worker} {queue next : BatchQueue} {move : Move}

theorem left_le (hmakes : worker.Makes queue move after next) : next.left ≤ queue.left := by
  cases hmakes <;> simp only [BatchQueue.left] <;> omega

/-- Every move but resting is one move less. -/
theorem rank_le (hmakes : worker.Makes queue move after next) :
    after.phase.rank next.left ≤ worker.phase.rank queue.left - 1 := by
  cases hmakes with
  | stop hphase | go hphase | succeed hphase | fail hphase | tell hphase | rest hphase =>
      simp [WorkerPhase.rank, hphase]
  | take hphase hbatch =>
      have hnext := (Array.getElem?_eq_some_iff.mp hbatch).1
      simp only [WorkerPhase.rank, BatchQueue.left, hphase]
      omega
  | runOut hphase => simp [WorkerPhase.rank, hphase]

theorem stopped_iff (hmakes : worker.Makes queue move after next) :
    next.stopped = true ↔ queue.stopped = true ∨ move = .tell := by
  cases hmakes <;> simp

/-- A worker that has ended rests. -/
theorem of_ended (hmakes : worker.Makes queue move after next) (hended : worker.phase = .ended) :
    move = .rest ∧ after = worker := by
  cases hmakes with
  | rest hphase => exact ⟨rfl, rfl⟩
  | stop hphase | go hphase | take hphase | runOut hphase | succeed hphase | fail hphase
  | tell hphase => exact nomatch hphase.symm.trans hended

/-- A look shows the flag as it is, and is the last thing a worker does if it is set. -/
theorem of_look {stopped : Bool} (hmakes : worker.Makes queue (.look stopped) after next) :
    queue.stopped = stopped ∧ (stopped = true → after.phase = .ended) := by
  cases hmakes with
  | stop hphase hstopped => exact ⟨hstopped, fun _ => rfl⟩
  | go hphase hstopped => exact ⟨hstopped, nofun⟩

end Worker.Makes

namespace Crew

variable {crew next after : Crew} {number : Nat} {move : Move} {worker : Worker}
  {moves : List (Nat × Move)}

namespace Makes

theorem own (hmakes : crew.Makes number move next) (hworker : crew.workers[number]? = some worker) :
    ∃ moved, next.workers[number]? = some moved ∧
      worker.Makes crew.queue move moved next.queue := by
  cases hmakes with
  | absent habsent => exact nomatch habsent.symm.trans hworker
  | present found moved queue hfound hmakes =>
      obtain rfl : found = worker := Option.some.inj (hfound.symm.trans hworker)
      refine ⟨moved, ?_, hmakes⟩
      obtain ⟨hsize, -⟩ := Array.getElem?_eq_some_iff.mp hworker
      simp [hsize]

theorem others {other : Nat} (hmakes : crew.Makes number move next) (hne : number ≠ other) :
    next.workers[other]? = crew.workers[other]? := by
  cases hmakes with
  | absent habsent => rfl
  | present found moved queue hfound hmakes => exact Array.getElem?_setIfInBounds_ne hne

theorem left_le (hmakes : crew.Makes number move next) : next.queue.left ≤ crew.queue.left := by
  cases hmakes with
  | absent habsent => exact Nat.le_refl _
  | present found moved queue hfound hmakes => exact hmakes.left_le

theorem stopped_iff (hmakes : crew.Makes number move next) :
    next.queue.stopped = true ↔ crew.queue.stopped = true ∨ move = .tell := by
  cases hmakes with
  | absent habsent => simp
  | present found moved queue hfound hmakes => exact hmakes.stopped_iff

theorem size_eq (hmakes : crew.Makes number move next) :
    next.workers.size = crew.workers.size := by
  cases hmakes with
  | absent habsent => rfl
  | present found moved queue hfound hmakes => exact Array.size_setIfInBounds

end Makes

namespace Runs

theorem size_eq (hruns : crew.Runs moves after) : after.workers.size = crew.workers.size := by
  induction hruns with
  | done crew => rfl
  | step hmakes hruns ih => exact ih.trans hmakes.size_eq

/-- The flag is set if it was, or if a worker told of a failure. -/
theorem stopped_iff (hruns : crew.Runs moves after) :
    after.queue.stopped = true ↔
      crew.queue.stopped = true ∨ ∃ number, (number, .tell) ∈ moves := by
  induction hruns with
  | done crew => simp
  | @step crew next after number move moves hmakes hruns ih =>
      rw [ih, hmakes.stopped_iff, or_assoc]
      apply or_congr_right
      constructor
      · rintro (rfl | ⟨teller, htold⟩)
        · exact ⟨number, List.mem_cons_self⟩
        · exact ⟨teller, List.mem_cons_of_mem _ htold⟩
      · rintro ⟨teller, htold⟩
        rcases List.mem_cons.mp htold with hfirst | hlater
        · exact .inl (Prod.mk.inj hfirst).2.symm
        · exact .inr ⟨teller, hlater⟩

/-- Turns of a worker use up the moves that it has left. -/
theorem rank_le (hruns : crew.Runs moves after)
    (hworker : crew.workers[number]? = some worker) :
    ∃ moved, after.workers[number]? = some moved ∧
      moved.phase.rank after.queue.left ≤
        worker.phase.rank crew.queue.left - (moves.map Prod.fst).count number := by
  induction hruns generalizing worker with
  | done crew => exact ⟨worker, hworker, by simp⟩
  | @step crew next after turn move moves hmakes hruns ih =>
      -- An own turn lowers the rank by one, and another one can only leave fewer batches.
      by_cases hown : turn = number
      · subst hown
        obtain ⟨moved, hmoved, hmoves⟩ := hmakes.own hworker
        obtain ⟨ended, hended, hrank⟩ := ih hmoved
        refine ⟨ended, hended, Nat.le_trans hrank ?_⟩
        have hfirst := hmoves.rank_le
        rw [List.map_cons, List.count_cons_self]
        omega
      · rw [← hmakes.others hown] at hworker
        obtain ⟨ended, hended, hrank⟩ := ih hworker
        refine ⟨ended, hended, Nat.le_trans hrank ?_⟩
        have hfirst := worker.phase.rank_mono hmakes.left_le
        rw [List.map_cons, List.count_cons_of_ne hown]
        omega

/-- A worker that has had its turns has ended. -/
theorem ended_of_count {batches : List Batch} {workers : Nat}
    (hruns : (start batches workers).Runs moves after)
    (hworker : after.workers[number]? = some worker)
    (hturns : 3 * batches.length + 2 ≤ (moves.map Prod.fst).count number) :
    worker.phase = .ended := by
  obtain ⟨hbound, -⟩ := Array.getElem?_eq_some_iff.mp hworker
  rw [hruns.size_eq] at hbound
  obtain ⟨begun, hbegun⟩ : ∃ begun, (start batches workers).workers[number]? = some begun :=
    ⟨_, Array.getElem?_eq_getElem hbound⟩
  obtain ⟨moved, hmoved, hrank⟩ := hruns.rank_le hbegun
  obtain rfl : moved = worker := Option.some.inj (hmoved.symm.trans hworker)
  obtain rfl : begun = {} := Array.eq_of_mem_replicate (Array.mem_of_getElem? hbegun)
  have hbudget : ({} : Worker).phase.rank (start batches workers).queue.left =
      3 * batches.length + 2 := by
    simp [WorkerPhase.rank, BatchQueue.left, start]
  exact WorkerPhase.eq_ended_of_rank (by omega : moved.phase.rank after.queue.left = 0)

/-- A worker that has ended only rests. -/
theorem rests (hruns : crew.Runs moves after) (hworker : crew.workers[number]? = some worker)
    (hended : worker.phase = .ended) : ∀ move, (number, move) ∈ moves → move = .rest := by
  induction hruns with
  | done crew => simp
  | @step crew next after turn move moves hmakes hruns ih =>
      intro later hlater
      by_cases hown : turn = number
      · subst hown
        obtain ⟨moved, hmoved, hmoves⟩ := hmakes.own hworker
        obtain ⟨hrest, rfl⟩ := hmoves.of_ended hended
        rcases List.mem_cons.mp hlater with hfirst | hmem
        · exact (Prod.mk.inj hfirst).2.trans hrest
        · exact ih hmoved later hmem
      · rw [← hmakes.others hown] at hworker
        rcases List.mem_cons.mp hlater with hfirst | hmem
        · exact absurd (Prod.mk.inj hfirst).1.symm hown
        · exact ih hworker later hmem

/-- A worker sees the flag as it is, and only rests after it has seen it set. -/
theorem looked {stopped : Bool} (hruns : crew.Runs ((number, .look stopped) :: moves) after) :
    crew.queue.stopped = stopped ∧
      (stopped = true → ∀ move, (number, move) ∈ moves → move = .rest) := by
  cases hruns with
  | step hmakes hruns =>
      cases hmakes with
      | present found moved queue hfound hmakes =>
          obtain ⟨hflag, hlast⟩ := hmakes.of_look
          refine ⟨hflag, fun hstopped => hruns.rests ?_ (hlast hstopped)⟩
          obtain ⟨hsize, -⟩ := Array.getElem?_eq_some_iff.mp hfound
          simp [hsize]

end Runs

end Crew

end TableRouting.CommandLine

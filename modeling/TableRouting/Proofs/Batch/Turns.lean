import TableRouting.Proofs.Batch.Running
import TableRouting.Proofs.Cache.Alone

/-!
# The turns of groups

A group is written when those before it are through, with the cache and on the connection
that they have left.  What comes of it is decided there: its writer is looked up, which may
fail because none could be built, and is asked to write the group, which it refuses if it was
closed in the meantime.
-/

namespace TableRouting

variable {m : Type → Type} [Monad m] {σ κ ω : Type}

/-- The writer that a lookup takes out of the cache, if it had expired. -/
def WriterCache.Lookup.expired? : WriterCache.Lookup → Option Nat
  | .build _ expired => expired
  | _ => none

namespace Workshop

section

variable (workshop : Workshop (CacheT ω m) ω) (table : String)

/-- The first part of a lookup, up to the construction that it may need. -/
def seek : CacheT ω m WriterCache.Lookup := do
  let now ← workshop.now
  let found ← step fun cache : WriterCache ω => cache.lookup table now
  let _ ← workshop.release found.expired?.toList
  pure found

/-- Why the second part of a lookup gives no writer. -/
inductive Misses (runner : Runner m σ) (cache : WriterCache ω) (world : σ) :
    WriterCache.Lookup → Unavailable → Prop
  | refused {flight : Nat} {expired : Option Nat} {e : ConstructionError}
      (hcreate : (runner.run (workshop.create table cache) world).1.1 = .refused e) :
      Misses runner cache world (.build flight expired) (.construction e)
  | panicked {flight : Nat} {expired : Option Nat}
      (hcreate : (runner.run (workshop.create table cache) world).1.1 = .panicked) :
      Misses runner cache world (.build flight expired) .panicked
  /-- The writer was built, but by then its flight had lost the mark of the table. -/
  | detached {flight : Nat} {expired : Option Nat} {writer : ω} {built : WriterCache ω} {later : σ}
      (hcreate : runner.run (workshop.create table cache) world = ((.built writer, built), later))
      (hlost : (runner.run (workshop.now built) later).1.2.isCurrent table flight = false) :
      Misses runner cache world (.build flight expired)
        (.construction (WriterCache.detachedError table))
  | failed {flight : Nat} {e : ConstructionError}
      (houtcome : cache.outcome? flight = some (.error e)) :
      Misses runner cache world (.join flight) (.construction e)
  | unfinished {flight : Nat} (houtcome : cache.outcome? flight = none) :
      Misses runner cache world (.join flight) .unfinished

/-- Why a lookup that is made in a cache and a world gives no writer. -/
def Lacks (runner : Runner m σ) (cache : WriterCache ω) (world : σ) (reason : Unavailable) :
    Prop :=
  let sought := runner.run (workshop.seek table cache) world
  workshop.Misses table runner sought.1.2 sought.2 sought.1.1 reason

end

variable {workshop : Workshop (CacheT ω m) ω} {table : String} {runner : Runner m σ}
  {cache : WriterCache ω} {world : σ}

/-- A lookup has two parts. -/
theorem run_get : runner.run (workshop.get table cache) world =
    runner.run ((workshop.seek table >>= workshop.settle table) cache) world := by
  rw [get, seek]
  simp only [Runner.run_bind_in, Runner.run_step, Runner.run_pure_in]
  generalize (runner.run (workshop.now cache) world).2 = later
  generalize (runner.run (workshop.now cache) world).1.2.lookup table
    (runner.run (workshop.now cache) world).1.1 = found
  obtain ⟨sought, changed⟩ := found
  cases sought with
  | hit handle => simp [WriterCache.Lookup.expired?, release, settle]
  | join flight =>
      cases houtcome : changed.outcome? flight <;>
        simp only [WriterCache.Lookup.expired?, Option.toList_none, release, settle,
          Runner.run_bind_in, Runner.run_pure_in, Runner.run_getThe, houtcome]
  | build flight expired =>
      simp only [WriterCache.Lookup.expired?, Runner.run_bind_in]
      generalize runner.run (workshop.release expired.toList changed) later = released
      cases hbuilt : (runner.run (workshop.create table released.1.2) released.2).1.1 <;>
        simp only [settle, Runner.run_bind_in, hbuilt]

/-- A flight is answered with its outcome, whatever has to be closed for it. -/
theorem answer_complete (flight : Nat) (built : Except ConstructionError ω) :
    (runner.run (workshop.complete table flight built cache) world).1.1 =
      (((runner.run (workshop.now cache) world).1.2.finish table flight built
        (runner.run (workshop.now cache) world).1.1).1).mapError .construction := by
  rw [complete]
  simp

theorem finish_eq_error_iff {flight : Nat} {writer : ω} {now : Nat} {e : ConstructionError} :
    (cache.finish table flight (.ok writer) now).1 = .error e ↔
      cache.isCurrent table flight = false ∧ e = WriterCache.detachedError table := by
  rw [WriterCache.finish]
  cases hcurrent : cache.isCurrent table flight <;> simp [eq_comm]

theorem answer_join (flight : Nat) :
    (runner.run (workshop.settle table (.join flight) cache) world).1.1 =
      match cache.outcome? flight with
      | some outcome => outcome.mapError .construction
      | none => .error .unfinished := by
  rw [settle, Runner.run_bind_in, Runner.run_getThe]
  cases cache.outcome? flight <;> rw [Runner.run_pure_in]

theorem answer_build (flight : Nat) (expired : Option Nat) :
    (runner.run (workshop.settle table (.build flight expired) cache) world).1.1 =
      match (runner.run (workshop.create table cache) world).1.1 with
      | .built writer =>
        (runner.run (workshop.complete table flight (.ok writer)
          (runner.run (workshop.create table cache) world).1.2)
          (runner.run (workshop.create table cache) world).2).1.1
      | .refused e => .error (.construction e)
      | .panicked => .error .panicked := by
  rw [settle, Runner.run_bind_in]
  cases (runner.run (workshop.create table cache) world).1.1 with
  | built writer => rfl
  | refused e => exact answer_complete flight (.error e)
  | panicked => simp [breakOff]

theorem settle_eq_error_iff {found : WriterCache.Lookup} {reason : Unavailable} :
    (runner.run (workshop.settle table found cache) world).1.1 = .error reason ↔
      workshop.Misses table runner cache world found reason := by
  constructor
  · intro hsettle
    cases found with
    | hit handle => simp [settle] at hsettle
    | join flight =>
        rw [answer_join] at hsettle
        split at hsettle
        · rename_i outcome houtcome
          cases outcome with
          | ok handle => cases hsettle
          | error e =>
              cases hsettle
              exact .failed houtcome
        · rename_i houtcome
          cases hsettle
          exact .unfinished houtcome
    | build flight expired =>
        rcases hcreate : runner.run (workshop.create table cache) world with
          ⟨⟨construction, built⟩, later⟩
        rw [answer_build, hcreate] at hsettle
        cases construction with
        | built writer =>
            simp only [answer_complete] at hsettle
            generalize hfinish : (WriterCache.finish ..).1 = outcome at hsettle
            cases outcome with
            | ok handle => cases hsettle
            | error e =>
                obtain ⟨hlost, rfl⟩ := finish_eq_error_iff.mp hfinish
                cases hsettle
                exact .detached hcreate hlost
        | refused e =>
            cases hsettle
            exact .refused (by rw [hcreate])
        | panicked =>
            cases hsettle
            exact .panicked (by rw [hcreate])
  · intro hmisses
    cases hmisses with
    | refused hcreate => rw [answer_build, hcreate]
    | panicked hcreate => rw [answer_build, hcreate]
    | detached hcreate hlost =>
        rw [answer_build, hcreate]
        simp only [answer_complete, finish_eq_error_iff.mpr ⟨hlost, rfl⟩]
        rfl
    | failed houtcome =>
        rw [answer_join, houtcome]
        rfl
    | unfinished houtcome => rw [answer_join, houtcome]

/-- A lookup gives no writer for just these reasons. -/
theorem get_eq_error_iff {reason : Unavailable} :
    (runner.run (workshop.get table cache) world).1.1 = .error reason ↔
      workshop.Lacks table runner cache world reason := by
  rw [run_get, Runner.run_bind_in]
  exact settle_eq_error_iff

theorem run_withWriter {α : Type} (id : Nat) (use : ω → CacheT ω m (α × ω)) :
    runner.run (withWriter id use cache) world =
      match cache.handle? id with
      | none => ((.error (.writerClosed ""), cache), world)
      | some handle =>
        if handle.closed then ((.error (.writerClosed handle.table), cache), world)
        else
          let used := runner.run (use handle.writer cache) world
          ((.ok used.1.1.1, used.1.2.modifyHandle id fun h => { h with writer := used.1.1.2 }),
            used.2) := by
  rw [withWriter, Runner.run_bind_in, Runner.run_getThe]
  cases cache.handle? id with
  | none => rw [Runner.run_pure_in]
  | some handle =>
      simp only
      split
      · rw [Runner.run_pure_in]
      · rw [Runner.run_bind_in, Runner.run_bind_in, Runner.run_modify, Runner.run_pure_in]

end Workshop

/-- The cache, the world and the connection with which a group is written. -/
structure Turn (σ κ ω : Type) where
  cache : WriterCache ω
  world : σ
  connection : κ

def Runner.onTurn {α : Type} (runner : Runner m σ) (x : StateT κ (CacheT ω m) α)
    (turn : Turn σ κ ω) : α × Turn σ κ ω :=
  let ended := runner.run (x turn.connection turn.cache) turn.world
  (ended.1.1.1, ⟨ended.1.2, ended.2, ended.1.1.2⟩)

theorem Runner.onTurn_of_run {α : Type} {runner : Runner m σ} {x : StateT κ (CacheT ω m) α}
    {turn : Turn σ κ ω} {answer : α} {changed : κ} {after : WriterCache ω} {later : σ}
    (hrun : runner.run (x turn.connection turn.cache) turn.world =
      (((answer, changed), after), later)) :
    runner.onTurn x turn = (answer, ⟨after, later, changed⟩) := by
  rw [onTurn, hrun]

namespace Coordinator

def Attempt.result : Attempt → Except Unavailable (Except StoreError WriteReport)
  | .unavailable reason => .error reason
  | .refused e => .ok (.error e)
  | .answered answer => .ok answer

variable (coordinator : Coordinator m κ ω) (runner : Runner m σ) (group : Group)

/-- The turn once the writer of a group was looked up. -/
def lookedUp (turn : Turn σ κ ω) : Turn σ κ ω :=
  let found := runner.run (coordinator.store.get group.1 turn.cache) turn.world
  { turn with cache := found.1.2, world := found.2 }

/-- How an attempt to write a group ends. -/
inductive Tries (turn : Turn σ κ ω) : Attempt → Prop
  | unavailable {reason : Unavailable}
      (hlacks : coordinator.store.Lacks group.1 runner turn.cache turn.world reason) :
      Tries turn (.unavailable reason)
  | released {id : Nat} {handle : WriterHandle ω}
      (hget : (runner.run (coordinator.store.get group.1 turn.cache) turn.world).1.1 = .ok id)
      (hhandle : (coordinator.lookedUp runner group turn).cache.handle? id = some handle)
      (hclosed : handle.closed = true) :
      Tries turn (.refused (.writerClosed handle.table))
  | unknown {id : Nat}
      (hget : (runner.run (coordinator.store.get group.1 turn.cache) turn.world).1.1 = .ok id)
      (hhandle : (coordinator.lookedUp runner group turn).cache.handle? id = none) :
      Tries turn (.refused (.writerClosed ""))
  | answered {id : Nat} {handle : WriterHandle ω} {answer : Except StoreError WriteReport}
      (hget : (runner.run (coordinator.store.get group.1 turn.cache) turn.world).1.1 = .ok id)
      (hhandle : (coordinator.lookedUp runner group turn).cache.handle? id = some handle)
      (hopen : handle.closed = false)
      (hwrite : (runner.run (coordinator.store.write handle.writer group.2 turn.connection)
        (coordinator.lookedUp runner group turn).world).1.1 = answer) :
      Tries turn (.answered answer)

/-- How the writing of a group ends: a writer that refuses is looked up once more. -/
inductive Concludes (turn : Turn σ κ ω) : Attempt → Prop
  | once {attempt : Attempt} (htries : coordinator.Tries runner group turn attempt)
      (hlast : ∀ e, attempt ≠ .refused e) : Concludes turn attempt
  | again {e : StoreError} {attempt : Attempt}
      (hrefused : coordinator.Tries runner group turn (.refused e))
      (htries : coordinator.Tries runner group (coordinator.lookedUp runner group turn) attempt) :
      Concludes turn attempt

variable {coordinator runner group}

theorem run_useWriter (records : List Record) (connection : κ) (writer : ω)
    (cache : WriterCache ω) (world : σ) :
    runner.run (coordinator.useWriter records connection writer cache) world =
      let ended := runner.run (coordinator.store.write writer records connection) world
      ((((ended.1.1, ended.1.2.2), ended.1.2.1), cache), ended.2) := by
  rw [useWriter, Runner.run_bind_in, Runner.run_lift, Runner.run_pure_in]

/-- An attempt ends in one of these ways.  If the writer refuses, nothing has happened since
the lookup. -/
theorem onTurn_writeOnce {turn after : Turn σ κ ω} {attempt : Attempt}
    (hrun : runner.onTurn (coordinator.writeOnce group.1 group.2) turn = (attempt, after)) :
    coordinator.Tries runner group turn attempt ∧
      ∀ e, attempt = .refused e → after = coordinator.lookedUp runner group turn := by
  rcases hget : runner.run (coordinator.store.get group.1 turn.cache) turn.world with
    ⟨⟨found, between⟩, later⟩
  have hfound : (runner.run (coordinator.store.get group.1 turn.cache) turn.world).1.1 = found := by
    rw [hget]
  have hlooked : coordinator.lookedUp runner group turn = ⟨between, later, turn.connection⟩ := by
    rw [lookedUp, hget]
  rw [Runner.onTurn, writeOnce, Runner.run_bind_in, hget] at hrun
  cases found with
  | error reason =>
      rw [Runner.run_pure_in] at hrun
      cases hrun
      exact ⟨.unavailable (Workshop.get_eq_error_iff.mp hfound), by simp⟩
  | ok id =>
      simp only [Runner.run_bind_in, Workshop.run_withWriter] at hrun
      cases hhandle : between.handle? id with
      | none =>
          simp only [hhandle, Runner.run_pure_in] at hrun
          cases hrun
          exact ⟨.unknown hfound (by rw [hlooked]; exact hhandle), fun _ _ => hlooked.symm⟩
      | some handle =>
          cases hclosed : handle.closed with
          | true =>
              simp only [hhandle, hclosed, if_true, Runner.run_pure_in] at hrun
              cases hrun
              exact ⟨.released hfound (by rw [hlooked]; exact hhandle) hclosed,
                fun _ _ => hlooked.symm⟩
          | false =>
              simp only [hhandle, hclosed, Bool.false_eq_true, if_false, run_useWriter,
                Runner.run_pure_in] at hrun
              cases hrun
              refine ⟨.answered hfound (by rw [hlooked]; exact hhandle) hclosed ?_, by simp⟩
              rw [hlooked]

end Coordinator

end TableRouting

import TableRouting.Proofs.Batch.Leftovers

/-!
# Audits of a trail

Of a trail that a coordinator leaves, more can be said if the failures are routed to an error
log and the writers are conscientious: under each policy it is known what the entries do to
the log, and every report accounts for the records of its group.
-/

namespace TableRouting

variable {m : Type → Type} {σ κ ω ρ : Type}

/-- A report on a group that accounts for each of its records, and rejects none twice. -/
structure WriteReport.Conforms (report : WriteReport) (size : Nat) : Prop where
  index_lt : ∀ failure ∈ report.failures, failure.index < size
  once : (report.failures.map RecordFailure.index).Nodup
  count : report.written + report.discarded + report.failures.length = size

/-- Every report of a writer conforms. -/
def Store.Conforms [Monad m] (store : Store m κ ω) (runner : Runner m σ) : Prop :=
  ∀ writer records connection world report,
    (runner.run (store.write writer records connection) world).1.1 = .ok report →
      report.Conforms records.length

/-- Every report in a trail conforms. -/
def Conforming (entries : List (TrailEntry ρ)) : Prop :=
  ∀ records report rows, .wrote records (.ok report) rows ∈ entries →
    report.Conforms records.length

/-- What becomes of an error log along the entries of a trail, whatever its policy. -/
structure ErrorLog.Follows (log : ErrorLog) (entries : List (TrailEntry ρ)) (after : ErrorLog) :
    Prop where
  policy : after.policy = log.policy
  takes : log.policy = .toError → log.Takes entries after
  keeps : log.policy ≠ .toError → after.records = log.records
  stops : log.policy = .stopPipeline → ∀ entry ∈ entries,
    entry.routing? = none ∨ entry.isStop = true

namespace ErrorLog

theorem follows_nil (log : ErrorLog) : log.Follows ([] : List (TrailEntry ρ)) log :=
  ⟨rfl, takes_nil, fun _ => rfl, fun _ _ hentry => absurd hentry List.not_mem_nil⟩

theorem Follows.append {log between after : ErrorLog} {entries more : List (TrailEntry ρ)}
    (hfirst : log.Follows entries between) (hrest : between.Follows more after) :
    log.Follows (entries ++ more) after where
  policy := hrest.policy.trans hfirst.policy
  takes hpolicy := (hfirst.takes hpolicy).append (hrest.takes (hfirst.policy.trans hpolicy))
  keeps hpolicy := (hrest.keeps (hfirst.policy ▸ hpolicy)).trans (hfirst.keeps hpolicy)
  stops hpolicy := List.forall_mem_append.mpr
    ⟨hfirst.stops hpolicy, hrest.stops (hfirst.policy.trans hpolicy)⟩

/-- Every policy routes in its own way. -/
theorem follows_route (log : ErrorLog) (record : Record) (cause : FailureCause) :
    log.Follows ([.routed record cause (log.route record cause).1] : List (TrailEntry ρ))
      (log.route record cause).2 where
  policy := by
    rw [route]
    split <;> rfl
  takes hpolicy := takes_route hpolicy record cause
  keeps hpolicy := by
    rw [route]
    split
    · rfl
    · rename_i hkept
      exact absurd hkept hpolicy
    · rfl
  stops hpolicy := by
    refine List.forall_mem_singleton.mpr (.inr ?_)
    simp [route, hpolicy, TrailEntry.isStop]

/-- An entry that routes nothing leaves the log alone. -/
theorem follows_other (log : ErrorLog) {entry : TrailEntry ρ} (hrouting : entry.routing? = none)
    (hpatient : entry.isStop = false) : log.Follows [entry] log where
  policy := rfl
  takes hpolicy := takes_other hpolicy hrouting hpatient
  keeps _ := rfl
  stops _ := List.forall_mem_singleton.mpr (.inl hrouting)

end ErrorLog

variable [Monad m]

/-- A trail of which it is also known what its entries do to an error log, and that its
reports conform. -/
def Trail.audited (trail : Trail m σ ρ) (errors : σ → ErrorLog) : Trail m σ ρ where
  toRunner := trail.toRunner
  Leads world entries after := trail.Leads world entries after ∧
    (errors world).Follows entries (errors after) ∧ Conforming entries
  refl world := ⟨trail.refl world, ErrorLog.follows_nil _,
    fun _ _ _ hentry => absurd hentry List.not_mem_nil⟩
  trans := by
    rintro world between after entries more ⟨hfirst, hlog, hconforming⟩ ⟨hrest, hmore, hothers⟩
    refine ⟨trail.trans hfirst hrest, hlog.append hmore, fun records report rows hentry => ?_⟩
    rcases List.mem_append.mp hentry with hentry | hentry
    · exact hconforming records report rows hentry
    · exact hothers records report rows hentry

section

variable {coordinator : Coordinator m κ ω} {rows : κ → List ρ} {trail : Trail m σ ρ}
  {errors : σ → ErrorLog}

theorem leads_audited_nil {world after : σ} (hleads : trail.Leads world [] after)
    (hsame : errors after = errors world) : (trail.audited errors).Leads world [] after := by
  refine ⟨hleads, ?_, fun _ _ _ hentry => absurd hentry List.not_mem_nil⟩
  rw [hsame]
  exact ErrorLog.follows_nil _

/-- A trail that a coordinator leaves can be audited. -/
theorem Coordinator.Tracked.audited (htracked : coordinator.Tracked rows trail)
    (hlogs : coordinator.Logs trail.toRunner errors)
    (hconforms : coordinator.store.Conforms trail.toRunner) :
    coordinator.Tracked rows (trail.audited errors) where
  workshop := {
    now := fun cache world =>
      leads_audited_nil (htracked.workshop.now cache world) (hlogs.now cache world)
    create := fun table cache world =>
      leads_audited_nil (htracked.workshop.create table cache world)
        (hlogs.create table cache world)
    close := fun writer cache world =>
      leads_audited_nil (htracked.workshop.close writer cache world)
        (hlogs.close writer cache world) }
  connect world := leads_audited_nil (htracked.connect world) (hlogs.connect world)
  savepoint connection world :=
    leads_audited_nil (htracked.savepoint connection world) (hlogs.savepoint connection world)
  rollbackTo mark connection world :=
    leads_audited_nil (htracked.rollbackTo mark connection world)
      (hlogs.rollbackTo mark connection world)
  rollback connection world :=
    leads_audited_nil (htracked.rollback connection world) (hlogs.rollback connection world)
  route record cause world := by
    have hroute := hlogs.route record cause world
    have hfollows := (errors world).follows_route (ρ := ρ) record cause
    rw [← hroute] at hfollows
    refine ⟨htracked.route record cause world, hfollows, fun records report rows hentry => ?_⟩
    cases List.mem_singleton.mp hentry
  write writer records connection world := by
    obtain ⟨more, hrows, hleads⟩ := htracked.write writer records connection world
    refine ⟨more, hrows, hleads, ?_, fun group report added hentry => ?_⟩
    · have hsame := hlogs.write writer records connection world
      change (errors world).Follows _ (errors (trail.run _ world).2)
      rw [hsame]
      exact ErrorLog.follows_other _ rfl rfl
    · obtain ⟨rfl, hanswer, -⟩ := TrailEntry.wrote.inj (List.mem_singleton.mp hentry)
      exact hconforms writer group connection world report hanswer.symm
  commit connection world := by
    have hsame := hlogs.commit connection world
    refine ⟨htracked.commit connection world, ?_, fun records report rows hentry => ?_⟩
    · change (errors world).Follows _ (errors (trail.run _ world).2)
      rw [hsame]
      exact ErrorLog.follows_other _ rfl rfl
    · cases List.mem_singleton.mp hentry

end

end TableRouting

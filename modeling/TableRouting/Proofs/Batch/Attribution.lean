import TableRouting.Proofs.Batch.Leftovers
import TableRouting.Proofs.Batch.Naming

/-!
# Records without a writer keep their table

An error record that is kept because a table had no writer is of the table that the record
resolves to.  Every function that has part in writing a batch adds only such records.
-/

namespace TableRouting

variable {m : Type → Type} {σ κ ω α β : Type}

namespace Coordinator

variable (coordinator : Coordinator m κ ω)

/-- If an error record is kept for want of a writer, it is with the table of its record. -/
def Attributes (error : ErrorRecord) : Prop :=
  error.code = "TABSINK_02" →
    ∃ table, error.table = some table ∧ coordinator.resolve error.record = .ok table

/-- An error log that keeps records, and has gained none but those with the right table. -/
structure Fair (base : List ErrorRecord) (log : ErrorLog) : Prop where
  policy : log.policy = .toError
  records : ∃ more, log.records.toList = base ++ more ∧
    ∀ error ∈ more, coordinator.Attributes error

variable {coordinator}

theorem attributes_evaluation (record : Record) (e : EvaluationError) :
    coordinator.Attributes (.ofCause record (.evaluation e)) := by
  intro hcode
  simp [ErrorRecord.ofCause, FailureCause.code] at hcode

theorem attributes_store (record : Record) (table : String) (e : StoreError) :
    coordinator.Attributes (.ofCause record (.store table e)) := by
  intro hcode
  cases e <;> simp [ErrorRecord.ofCause, FailureCause.code] at hcode

theorem attributes_unavailable {table : String} {record : Record}
    (hresolve : coordinator.resolve record = .ok table) {reason : Unavailable}
    (hnames : reason.Names table) :
    coordinator.Attributes
      (.ofCause record (.construction (Coordinator.constructionError table reason))) :=
  fun _ => ⟨table, congrArg some hnames, hresolve⟩

end Coordinator

theorem Routes.filterMap_routing {failures : List (Record × FailureCause)} {ρ : Type}
    {result : Except WriteError α} {entries : List (TrailEntry ρ)}
    (hroutes : Routes failures result entries)
    (hpatient : ∀ entry ∈ entries, entry.isStop = false) :
    entries.filterMap TrailEntry.routing? = failures := by
  cases result with
  | ok _ =>
      obtain rfl : entries = TrailEntry.routedAll failures := hroutes
      exact TrailEntry.filterMap_routedAll failures
  | error e =>
      obtain ⟨entry, hentry, hstop⟩ := hroutes
      exact absurd (hpatient entry hentry) (by simp [hstop])

section

variable {coordinator : Coordinator m κ ω} {base : List ErrorRecord}

/-- A log stays fair under failures with the right tables. -/
theorem Coordinator.Fair.takes {log after : ErrorLog} (hfair : coordinator.Fair base log)
    {entries : List (TrailEntry Unit)} (htakes : log.Takes entries after)
    (hentries : ∀ failure ∈ entries.filterMap TrailEntry.routing?,
      coordinator.Attributes (.ofCause failure.1 failure.2)) : coordinator.Fair base after where
  policy := htakes.policy
  records := by
    obtain ⟨more, hmore, hattributes⟩ := hfair.records
    refine ⟨more ++ errorRecords (entries.filterMap TrailEntry.routing?), ?_, ?_⟩
    · rw [htakes.records, hmore, List.append_assoc]
    · refine List.forall_mem_append.mpr ⟨hattributes, fun error herror => ?_⟩
      obtain ⟨failure, hfailure, rfl⟩ := List.mem_map.mp herror
      exact hentries failure hfailure

variable [Monad m] {runner : Runner m σ} {errors : σ → ErrorLog}

/-- What a computation routes leaves the log fair. -/
theorem fair_of_leaves {x : m α} {post : α → List (TrailEntry Unit) → Prop}
    (hleaves : (Trail.ofLog runner errors).Leaves x post)
    (hpost : ∀ answer entries, post answer entries → (∀ entry ∈ entries, entry.isStop = false) →
      ∀ failure ∈ entries.filterMap TrailEntry.routing?,
        coordinator.Attributes (.ofCause failure.1 failure.2))
    {world : σ} (hfair : coordinator.Fair base (errors world)) :
    coordinator.Fair base (errors (runner.run x world).2) := by
  obtain ⟨entries, hleads, hleft⟩ := hleaves world
  have htakes := hleads hfair.policy
  exact hfair.takes htakes (hpost _ entries hleft htakes.patient)

theorem fair_of_leavesFrom {cache : WriterCache ω} {world : σ} {x : CacheT ω m α}
    {post : α → List (TrailEntry Unit) → Prop}
    (hleaves : (Trail.ofLog runner errors).LeavesFrom cache world x post)
    (hnone : ∀ answer entries, post answer entries → entries.filterMap TrailEntry.routing? = [])
    (hfair : coordinator.Fair base (errors world)) :
    coordinator.Fair base (errors (runner.run (x cache) world).2) := by
  obtain ⟨entries, hleads, hleft⟩ := hleaves
  apply hfair.takes (hleads hfair.policy)
  intro failure hfailure
  rw [hnone _ entries hleft] at hfailure
  exact absurd hfailure List.not_mem_nil

variable (coordinator base runner errors) in
/-- A computation hands on failures of the right tables only: to whoever waits for a writer,
and as error records. -/
def Keeps (x : CacheT ω m α) (post : α → Prop) : Prop :=
  ∀ cache world, cache.Candid → runner.Ends cache world x fun answer after later =>
    after.Candid ∧ post answer ∧
      (coordinator.Fair base (errors world) → coordinator.Fair base (errors later))

variable {x : CacheT ω m α}

theorem keeps_pure {post : α → Prop} {answer : α} (hpost : post answer) :
    Keeps coordinator base runner errors (pure answer : CacheT ω m α) post :=
  fun _ _ hcandid => Runner.ends_pure ⟨hcandid, hpost, id⟩

theorem Keeps.bind {f : α → CacheT ω m β} {between : α → Prop} {post : β → Prop}
    (hfirst : Keeps coordinator base runner errors x between)
    (hrest : ∀ answer, between answer → Keeps coordinator base runner errors (f answer) post) :
    Keeps coordinator base runner errors (x >>= f) post := by
  intro cache world hcandid
  apply (hfirst cache world hcandid).bind
  rintro answer after later ⟨hafter, hbetween, hlater⟩
  apply (hrest answer hbetween after later hafter).imp
  exact fun _ _ _ hended => ⟨hended.1, hended.2.1, fun hstart => hended.2.2 (hlater hstart)⟩

/-- Run a computation that has a state of its own, and then another one. -/
theorem Keeps.bind_on {state : κ} {x : StateT κ (CacheT ω m) α}
    {f : α → StateT κ (CacheT ω m) β} {between : α × κ → Prop} {post : β × κ → Prop}
    (hfirst : Keeps coordinator base runner errors (x state) between)
    (hrest : ∀ ended, between ended →
      Keeps coordinator base runner errors (f ended.1 ended.2) post) :
    Keeps coordinator base runner errors ((x >>= f) state) post :=
  hfirst.bind hrest

theorem keeps_lift {x : m α} {post : α → Prop} (hpost : ∀ world, post (runner.run x world).1)
    (hlog : ∀ world, coordinator.Fair base (errors world) →
      coordinator.Fair base (errors (runner.run x world).2)) :
    Keeps coordinator base runner errors (liftM x : CacheT ω m α) post := by
  intro cache world hcandid
  apply (Runner.ends_lift x).imp
  rintro answer after later ⟨hrun, rfl⟩
  have hanswer := hpost world
  have hlater := hlog world
  rw [hrun] at hanswer hlater
  exact ⟨hcandid, hanswer, hlater⟩

/-- An effect that has nothing to do with the log. -/
theorem keeps_quiet {x : m α} (hsame : ∀ world, errors (runner.run x world).2 = errors world) :
    Keeps coordinator base runner errors (liftM x : CacheT ω m α) fun _ => True :=
  keeps_lift (fun _ => trivial) fun world hfair => (hsame world).symm ▸ hfair

variable (coordinator base runner errors) in
/-- A computation on a connection hands on failures of the right tables only. -/
def KeepsOn (x : Coordinator.Writing m κ ω α) : Prop :=
  ∀ connection, Keeps coordinator base runner errors (x.run.run connection) fun _ => True

theorem keepsOn_pure (answer : α) :
    KeepsOn coordinator base runner errors (pure answer : Coordinator.Writing m κ ω α) :=
  fun _ => keeps_pure trivial

theorem keepsOn_throw (e : WriteError) :
    KeepsOn coordinator base runner errors (throw e : Coordinator.Writing m κ ω α) :=
  fun _ => keeps_pure trivial

/-- After a failure nothing happens. -/
theorem keepsOn_throw_bind (e : WriteError) (f : α → Coordinator.Writing m κ ω β) :
    KeepsOn coordinator base runner errors (throw e >>= f) := by
  intro connection
  have hthrow : Keeps coordinator base runner errors
      ((throw e : Coordinator.Writing m κ ω α).run.run connection)
      fun ended => ended.1 = .error e :=
    keeps_pure rfl
  rw [ExceptT.run_bind]
  apply hthrow.bind_on
  rintro ⟨result, changed⟩ hresult
  obtain rfl : result = .error e := hresult
  exact keeps_pure trivial

theorem KeepsOn.bind {x : Coordinator.Writing m κ ω α} {f : α → Coordinator.Writing m κ ω β}
    (hfirst : KeepsOn coordinator base runner errors x)
    (hrest : ∀ answer, KeepsOn coordinator base runner errors (f answer)) :
    KeepsOn coordinator base runner errors (x >>= f) := by
  intro connection
  rw [ExceptT.run_bind]
  apply (hfirst connection).bind_on
  rintro ⟨result, changed⟩ -
  cases result with
  | error e => exact keeps_pure trivial
  | ok answer => exact hrest answer changed

variable [LawfulMonad m]

/-- Go on after an operation of the connection. -/
theorem keepsOn_lift_bind {x : StateT κ (CacheT ω m) α} {f : α → Coordinator.Writing m κ ω β}
    (between : α → Prop)
    (hfirst : ∀ connection,
      Keeps coordinator base runner errors (x connection) fun ended => between ended.1)
    (hrest : ∀ answer, between answer → KeepsOn coordinator base runner errors (f answer)) :
    KeepsOn coordinator base runner errors (liftM x >>= f) := by
  intro connection
  rw [Trail.run_lift_bind]
  apply (hfirst connection).bind
  rintro ⟨answer, changed⟩ hbetween
  exact hrest answer hbetween changed

/-- Carry on or fail with the result of an effect. -/
theorem keepsOn_attempt {x : m (Except WriteError α)} (hlog : ∀ world,
      coordinator.Fair base (errors world) →
        coordinator.Fair base (errors (runner.run x world).2)) :
    KeepsOn coordinator base runner errors
      (Coordinator.attempt x : Coordinator.Writing m κ ω α) := by
  have hlifted (connection : κ) : Keeps coordinator base runner errors
      ((liftM x : StateT κ (CacheT ω m) _) connection) fun _ => True := by
    have hx : Keeps coordinator base runner errors (liftM x : CacheT ω m _) fun _ => True :=
      keeps_lift (fun _ => trivial) hlog
    change Keeps coordinator base runner errors
      ((liftM x : CacheT ω m _) >>= fun result => pure (result, connection)) _
    exact hx.bind fun _ _ => keeps_pure trivial
  rw [Coordinator.attempt]
  apply keepsOn_lift_bind (x := liftM x) (fun _ => True) hlifted
  intro result _
  cases result with
  | error e => exact keepsOn_throw e
  | ok answer => exact keepsOn_pure answer

end

section

variable {coordinator : Coordinator m κ ω} {base : List ErrorRecord} [Monad m]
  {runner : Runner m σ} {errors : σ → ErrorLog} (hlogs : coordinator.Logs runner errors)

section

include hlogs

theorem fair_routeAll {cause : FailureCause} {records : List Record}
    (hcause : ∀ record ∈ records, coordinator.Attributes (.ofCause record cause)) {world : σ}
    (hfair : coordinator.Fair base (errors world)) :
    coordinator.Fair base (errors (runner.run (coordinator.routeAll cause records) world).2) := by
  refine fair_of_leaves (leaves_routeAll hlogs.tracked cause records) ?_ hfair
  intro result entries hroutes hpatient failure hfailure
  rw [hroutes.filterMap_routing hpatient] at hfailure
  obtain ⟨record, hrecord, rfl⟩ := List.mem_map.mp hfailure
  exact hcause record hrecord

theorem fair_applyReport (group : Group) (report : WriteReport) {world : σ}
    (hfair : coordinator.Fair base (errors world)) :
    coordinator.Fair base
      (errors (runner.run (coordinator.applyReport group.1 group.2 report) world).2) := by
  refine fair_of_leaves (leaves_applyReport hlogs.tracked group report []) ?_ hfair
  intro result entries hresult hpatient failure hfailure
  cases result with
  | ok outcome =>
      obtain ⟨-, rfl, -⟩ := hresult
      rw [TrailEntry.filterMap_routedAll] at hfailure
      obtain ⟨rejected, -, hrecord⟩ := List.mem_filterMap.mp hfailure
      obtain ⟨record, -, rfl⟩ := Option.map_eq_some_iff.mp hrecord
      exact Coordinator.attributes_store record group.1 rejected.error
  | error e =>
      rcases hresult with ⟨entry, hentry, hstop⟩ | hnone
      · exact absurd (hpatient entry hentry) (by simp [hstop])
      · rw [hnone] at hfailure
        exact absurd hfailure List.not_mem_nil

theorem fair_group (batch : List Record) {world : σ}
    (hfair : coordinator.Fair base (errors world)) :
    coordinator.Fair base (errors (runner.run (coordinator.group batch) world).2) := by
  refine fair_of_leaves (leaves_group hlogs.tracked batch) ?_ hfair
  rintro grouped entries ⟨hroutes, -⟩ hpatient failure hfailure
  rw [hroutes.filterMap_routing hpatient] at hfailure
  obtain ⟨unresolved, -, rfl⟩ := List.mem_map.mp hfailure
  exact Coordinator.attributes_evaluation unresolved.1 unresolved.2

end

variable (hupright : coordinator.store.toWorkshop.Upright runner)
include hlogs hupright

/-- Writing a group routes nothing, and its failure for want of a writer names the table. -/
theorem keeps_writeGroup (table : String) (records : List Record) (connection : κ) :
    Keeps coordinator base runner errors (coordinator.writeGroup table records connection)
      fun ended => ∀ reason, ended.1 = .error reason → reason.Names table := by
  intro cache world hcandid
  have hends : runner.Ends cache world (coordinator.writeGroup table records connection) _ :=
    ends_writeGroup hupright hcandid table records connection
  obtain ⟨hafter, hnames⟩ := hends
  refine ⟨hafter.candid hcandid, hnames, fun hfair => ?_⟩
  have htracked := hlogs.tracked (ρ := Unit)
  have hleaves := leavesFrom_writeGroup htracked (table, records) ⟨cache, world, connection⟩
  refine fair_of_leavesFrom hleaves ?_ hfair
  rintro ⟨answer, changed⟩ entries ⟨attempt, -, -, hwritten⟩
  cases hwritten <;> rfl

variable [LawfulMonad m]

omit hupright in
theorem keepsOn_failGroup (table : String) {records : List Record} {cause : FailureCause}
    (hcause : ∀ record ∈ records, coordinator.Attributes (.ofCause record cause)) :
    KeepsOn coordinator base runner errors
      (coordinator.failGroup (ω := ω) table records cause) := by
  rw [Coordinator.failGroup]
  exact (keepsOn_attempt fun world hfair => fair_routeAll hlogs hcause hfair).bind
    fun _ => keepsOn_pure _

/-- A group that is given up for want of a writer is given up with its own table. -/
theorem keepsOn_processGroup {group : Group}
    (hgroup : ∀ record ∈ group.2, coordinator.resolve record = .ok group.1) :
    KeepsOn coordinator base runner errors (coordinator.processGroup group.1 group.2) := by
  rw [Coordinator.processGroup]
  apply keepsOn_lift_bind (fun _ => True)
    fun connection => keeps_quiet (hlogs.savepoint connection)
  intro marked _
  cases marked with
  | error e => exact keepsOn_throw_bind _ _
  | ok mark =>
      simp only [pure_bind]
      apply keepsOn_lift_bind (fun written => ∀ reason, written = .error reason →
        reason.Names group.1) (keeps_writeGroup hlogs hupright group.1 group.2)
      intro written hnames
      cases written with
      | error reason =>
          -- Here, and nowhere else, error records are made for want of a writer.
          have hcause (record : Record) (hrecord : record ∈ group.2) :=
            Coordinator.attributes_unavailable (hgroup record hrecord) (hnames reason rfl)
          simp only
          split
          · exact keepsOn_throw _
          · exact keepsOn_failGroup hlogs group.1 hcause
      | ok answer =>
          cases answer with
          | ok report =>
              exact keepsOn_attempt fun world hfair => fair_applyReport hlogs group report hfair
          | error e =>
              simp only
              split
              · exact keepsOn_throw _
              · apply keepsOn_lift_bind (fun _ => True)
                  fun connection => keeps_quiet (hlogs.rollbackTo mark connection)
                intro undone _
                cases undone with
                | error source => exact keepsOn_throw _
                | ok _ =>
                    exact keepsOn_failGroup hlogs group.1
                      fun record _ => Coordinator.attributes_store record group.1 e

theorem keepsOn_processGroups (done : List TableOutcome) {groups : List Group}
    (hgroups : ∀ group ∈ groups, ∀ record ∈ group.2, coordinator.resolve record = .ok group.1) :
    KeepsOn coordinator base runner errors (coordinator.processGroups done groups) := by
  induction groups generalizing done with
  | nil => exact keepsOn_pure _
  | cons group rest ih =>
      obtain ⟨hfirst, hrest⟩ := List.forall_mem_cons.mp hgroups
      rw [Coordinator.processGroups]
      exact (keepsOn_processGroup hlogs hupright hfirst).bind fun outcome => ih _ hrest

theorem keeps_transact (unresolved : Nat) {groups : List Group}
    (hgroups : ∀ group ∈ groups, ∀ record ∈ group.2, coordinator.resolve record = .ok group.1) :
    Keeps coordinator base runner errors (coordinator.transact unresolved groups)
      fun _ => True := by
  have hcommitted :
      KeepsOn coordinator base runner errors (coordinator.writeAndCommit unresolved groups) := by
    rw [Coordinator.writeAndCommit]
    apply (keepsOn_processGroups hlogs hupright [] hgroups).bind
    intro tables
    apply keepsOn_lift_bind (fun _ => True) fun connection => keeps_quiet (hlogs.commit connection)
    intro committed _
    cases committed with
    | error e => exact keepsOn_throw _
    | ok _ => exact keepsOn_pure _
  rw [Coordinator.transact]
  apply (keeps_quiet hlogs.connect).bind
  intro connected _
  cases connected with
  | error e => exact keeps_pure trivial
  | ok connection =>
      apply (hcommitted connection).bind
      rintro ⟨result, changed⟩ -
      cases result with
      | ok outcome => exact keeps_pure trivial
      | error e =>
          apply (keeps_quiet (hlogs.rollback changed)).bind
          exact fun _ _ => keeps_pure trivial

theorem keeps_writeRecords (batch : List Record) :
    Keeps coordinator base runner errors (coordinator.writeRecords batch) fun _ => True := by
  have hgroup : Keeps coordinator base runner errors
      (liftM (coordinator.group batch) : CacheT ω m _) fun grouped =>
        ∀ groups unresolved, grouped = .ok (groups, unresolved) →
          groups = coordinator.groups batch := by
    apply keeps_lift _ fun world => fair_group hlogs batch
    intro world groups unresolved hgrouped
    obtain ⟨entries, -, -, hgroups⟩ := leaves_group (hlogs.tracked (ρ := Unit)) batch world
    exact (hgroups groups unresolved hgrouped).1
  rw [Coordinator.writeRecords]
  apply hgroup.bind
  intro grouped hgroups
  cases grouped with
  | error e => exact keeps_pure trivial
  | ok grouped =>
      obtain ⟨groups, unresolved⟩ := grouped
      obtain rfl := hgroups groups unresolved rfl
      simp only
      split
      · exact keeps_pure trivial
      · exact keeps_transact hlogs hupright unresolved
          fun group hgroup => Coordinator.resolve_of_mem_groups hgroup

/-- A batch hands on failures of the right tables only. -/
theorem keeps_writeBatch (books : Books) (batch : List Record) :
    Keeps coordinator base runner errors (coordinator.writeBatch books batch) fun _ => True := by
  rw [Coordinator.writeBatch]
  split
  · have hmaintain : Keeps coordinator base runner errors
        (books.cleaner.maintain coordinator.store.toWorkshop) fun _ => True := by
      intro cache world hcandid
      refine ⟨(carries_maintain hupright books.cleaner cache world hcandid).candid hcandid, trivial,
        fun hfair => ?_⟩
      have htracked := hlogs.tracked (ρ := Unit)
      have hleaves := Trail.leavesNothing_maintain htracked.workshop books.cleaner
      exact fair_of_leavesFrom (hleaves cache world) (fun _ _ hnone => hnone ▸ rfl) hfair
    exact hmaintain.bind fun _ _ => keeps_pure trivial
  · apply (keeps_writeRecords hlogs hupright batch).bind
    intro result _
    cases result with
    | error e => exact keeps_pure trivial
    | ok outcome => exact keeps_pure trivial

end

/-- A sink hands on failures of the right tables only, with every batch. -/
theorem Sink.keeps_writeBatch [Monad m] [LawfulMonad m] {runner : Runner m σ}
    {errors : σ → ErrorLog} {base : List ErrorRecord} {sink : Sink m κ ω}
    (hopen : sink.isOpen = true) (hlogs : sink.coordinator.Logs runner errors)
    (hupright : sink.coordinator.store.toWorkshop.Upright runner) (batch : List Record) :
    Keeps sink.coordinator base runner errors (sink.writeBatch batch) fun _ => True := by
  rw [Sink.writeBatch, if_pos hopen]
  exact (TableRouting.keeps_writeBatch hlogs hupright sink.books batch).bind
    fun _ _ => keeps_pure trivial

end TableRouting

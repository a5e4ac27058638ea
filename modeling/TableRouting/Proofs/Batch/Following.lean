import TableRouting.Proofs.Batch.Plan
import TableRouting.Proofs.Sink.Lookup

/-!
# A sink follows the plan of a batch

Writing a batch through the cache does what the plan of the batch says: the same
answer, the same error records and the same files, whatever was cached before and
whatever the clock shows on the way.
-/

namespace TableRouting.JsonLines

variable {S α : Type}

def routing (failures : List (Record × FailureCause)) :
    SessionT (StateM S) (Except WriteError Unit) :=
  fun session => pure
    ((session.errors.routeEach failures).1,
      { session with errors := (session.errors.routeEach failures).2 })

theorem routing_bind {failures : List (Record × FailureCause)}
    {f : Except WriteError Unit → SessionT (StateM S) α} (session : Session) (host : S) :
    (routing failures >>= f) session host = f (session.errors.routeEach failures).1
      { session with errors := (session.errors.routeEach failures).2 } host := rfl

theorem routing_cons (record : Record) (cause : FailureCause)
    (rest : List (Record × FailureCause)) :
    (routing ((record, cause) :: rest) : SessionT (StateM S) _) = (do
      match ← route record cause with
      | .error e => pure (.error e)
      | .ok () => routing rest) := by
  funext session
  -- What the first failure leaves, and then what the others do with it.
  change _ = (match (session.errors.route record cause).1 with
    | .error e => pure (.error e)
    | .ok () => routing rest : SessionT (StateM S) _)
      { session with errors := (session.errors.route record cause).2 }
  simp only [routing, ErrorLog.routeEach]
  generalize session.errors.route record cause = routed
  obtain ⟨e | _, log⟩ := routed <;> rfl

variable {world : World S}

/-- What holds in the end of a computation on a connection that may fail the batch. -/
def Writes (world : World S) (connection : Connection)
    (x : Coordinator.Writing (SessionT (StateM S)) Connection TableWriter α)
    (post : Except WriteError α → Connection → World S → Prop) : Prop :=
  world.Ends (x.run.run connection) fun ended after => post ended.1 ended.2 after

theorem Writes.bind {β : Type} {connection : Connection}
    {x : Coordinator.Writing (SessionT (StateM S)) Connection TableWriter β}
    {f : β → Coordinator.Writing (SessionT (StateM S)) Connection TableWriter α}
    {between : Except WriteError β → Connection → World S → Prop}
    {post : Except WriteError α → Connection → World S → Prop}
    (hfirst : Writes world connection x between)
    (herror : ∀ e changed after, between (.error e) changed after → post (.error e) changed after)
    (hok : ∀ answer changed after, between (.ok answer) changed after →
      Writes after changed (f answer) post) :
    Writes world connection (x >>= f) post := by
  rw [Writes, ExceptT.run_bind]
  apply World.Ends.bind_on hfirst
  rintro ⟨answer, changed⟩ after hbetween
  cases answer with
  | error e => exact herror e changed after hbetween
  | ok answer => exact hok answer changed after hbetween

theorem Writes.lift_bind {β : Type} {connection : Connection}
    {x : StateT Connection (Sinking S) β}
    {f : β → Coordinator.Writing (SessionT (StateM S)) Connection TableWriter α}
    {between : β × Connection → World S → Prop}
    {post : Except WriteError α → Connection → World S → Prop}
    (hfirst : world.Ends (x connection) between)
    (hrest : ∀ answer changed after, between (answer, changed) after →
      Writes after changed (f answer) post) :
    Writes world connection (liftM x >>= f) post := by
  have hlifted : Writes world connection (liftM x) fun result changed after =>
      ∃ answer, result = .ok answer ∧ between (answer, changed) after :=
    ⟨_, rfl, hfirst⟩
  apply Writes.bind hlifted
  · rintro e changed after ⟨answer, hresult, -⟩
    simp at hresult
  · rintro answer changed after ⟨given, hresult, hbetween⟩
    obtain rfl := Except.ok.inj hresult
    exact hrest answer changed after hbetween

theorem writes_pure {connection : Connection} {answer : α}
    {post : Except WriteError α → Connection → World S → Prop} :
    Writes world connection (pure answer) post ↔ post (.ok answer) connection world := Iff.rfl

theorem writes_throw {connection : Connection} {e : WriteError}
    {post : Except WriteError α → Connection → World S → Prop} :
    Writes world connection (throw e) post ↔ post (.error e) connection world := Iff.rfl

theorem writes_lift_bind {β : Type} {connection : Connection} {x : SessionT (StateM S) β}
    {f : β → Coordinator.Writing (SessionT (StateM S)) Connection TableWriter α}
    {post : Except WriteError α → Connection → World S → Prop} :
    Writes world connection (liftM x >>= f) post ↔
      Writes ⟨world.cache, (x world.session world.host).1.2, (x world.session world.host).2⟩
        connection (f (x world.session world.host).1.1) post := Iff.rfl

theorem writes_attempt {connection : Connection} {x : SessionT (StateM S) (Except WriteError α)}
    {post : Except WriteError α → Connection → World S → Prop} :
    Writes world connection (Coordinator.attempt x) post ↔
      post (x world.session world.host).1.1 connection
        ⟨world.cache, (x world.session world.host).1.2, (x world.session world.host).2⟩ := by
  rw [Coordinator.attempt, writes_lift_bind]
  generalize (x world.session world.host).1.1 = result
  cases result with
  | error e => exact Iff.rfl
  | ok answer => exact Iff.rfl

/-- Route failures, and carry on unless one of them fails the batch. -/
theorem writes_routing {connection : Connection} {failures : List (Record × FailureCause)}
    {f : Unit → Coordinator.Writing (SessionT (StateM S)) Connection TableWriter α}
    {post : Except WriteError α → Connection → World S → Prop}
    (hrest : ∀ after, after = { world with
        session.errors := (world.session.errors.routeEach failures).2 } →
      match (world.session.errors.routeEach failures).1 with
      | .error e => post (.error e) connection after
      | .ok () => Writes after connection (f ()) post) :
    Writes world connection (Coordinator.attempt (routing failures) >>= f) post := by
  have hafter := hrest _ rfl
  generalize hrouted : world.session.errors.routeEach failures = routed at hafter
  obtain ⟨result, log⟩ := routed
  have hattempt : Writes world connection (Coordinator.attempt (routing failures))
      fun ended changed after => ended = result ∧ changed = connection ∧
        after = { world with session.errors := log } := by
    have hrun : (routing failures : SessionT (StateM S) _) world.session world.host =
        ((result, { world.session with errors := log }), world.host) := by
      rw [routing, hrouted]
      rfl
    rw [writes_attempt, hrun]
    exact ⟨rfl, rfl, rfl⟩
  apply Writes.bind hattempt
  · rintro e changed after ⟨rfl, rfl, rfl⟩
    exact hafter
  · rintro answer changed after ⟨rfl, rfl, rfl⟩
    exact hafter

theorem connect_run (root : String) (session : Session) (host : S) :
    (connect root : SessionT (StateM S) (Except StoreError Connection)) session host =
      ((if session.sourceClosed then .error (.connection "Data source is closed")
        else .ok { root }, session), host) := by
  change (if session.sourceClosed = true then pure _ else pure _ : SessionT (StateM S) _)
    session host = _
  cases session.sourceClosed <;> rfl

variable [Host (StateM S)] (settings : Settings)

theorem routeAll_eq (cause : FailureCause) (records : List Record) :
    (settings.coordinator S).routeAll cause records =
      routing (records.map fun record => (record, cause)) := by
  induction records with
  | nil => rfl
  | cons record rest ih =>
      rw [Coordinator.routeAll, List.map_cons, routing_cons, ← ih]
      rfl

theorem routeUnresolved_eq (failures : List (Record × EvaluationError)) :
    (settings.coordinator S).routeUnresolved failures =
      routing (failures.map fun failure => (failure.1, .evaluation failure.2)) := by
  induction failures with
  | nil => rfl
  | cons failure rest ih =>
      rw [Coordinator.routeUnresolved, List.map_cons, routing_cons, ← ih]
      rfl

theorem routeFailures_eq (table : String) (records : List Record) (errored : Nat)
    (failures : List RecordFailure) :
    (settings.coordinator S).routeFailures table records errored failures = (do
      match ← routing (reported table records failures) with
      | .error e => pure (.error e)
      | .ok () => pure (.ok (errored + (reported table records failures).length))) := by
  induction failures generalizing errored with
  | nil => rfl
  | cons failure rest ih =>
      rw [Coordinator.routeFailures]
      cases hrecord : records[failure.index]? with
      | none =>
          have hreported : reported table records (failure :: rest) =
              reported table records rest := by
            simp [reported, hrecord]
          rw [hreported]
          exact ih errored
      | some record =>
          have hreported : reported table records (failure :: rest) =
              (record, .store table failure.error) :: reported table records rest := by
            simp [reported, hrecord]
          rw [hreported, routing_cons, bind_assoc]
          apply bind_congr
          intro routed
          cases routed with
          | error e => rfl
          | ok routed =>
              have hcount : errored + (reported table records rest).length.succ =
                  errored + 1 + (reported table records rest).length := by omega
              rw [List.length_cons, hcount]
              exact ih (errored + 1)

/-- Applying a report routes the failures that it names. -/
theorem applyReport_eq (table : String) (records : List Record) (report : WriteReport) :
    (settings.coordinator S).applyReport table records report =
      match settings.fatal? report with
      | some failure => pure (.error (.store table failure.error))
      | none => (do
        match ← routing (reported table records report.failures) with
        | .error e => pure (.error e)
        | .ok () => pure (.ok
          { table := table
            written := report.written
            errored := (reported table records report.failures).length
            discarded := report.discarded })) := by
  rw [Coordinator.applyReport, Settings.fatal?]
  cases hfailures : report.failures with
  | nil => cases settings.rollbackOnError <;> rfl
  | cons first rest =>
      cases hrollback : settings.rollbackOnError with
      | true => exact if_pos hrollback
      | false =>
          have hcontinue : ¬ (settings.coordinator S).rollbackOnError = true := by
            simp [Settings.coordinator, hrollback]
          simp only [hcontinue, Bool.false_eq_true, if_false]
          rw [routeFailures_eq, bind_assoc]
          apply bind_congr
          intro routed
          cases routed with
          | error e => rfl
          | ok routed =>
              simp only [Nat.zero_add]
              rfl

variable {σ : Type} [Host (StateM σ)] {view : S → σ} {settings}

/-- What a group gives that is written through the cache once. -/
theorem ends_writeOnce (hmirrors : Mirrors view) (hsettled : Settled settings.spec world.cache)
    (table : String) (records : List Record) (connection : Connection) :
    world.Ends ((settings.coordinator S).writeOnce table records connection) fun ended after =>
      Settled settings.spec after.cache ∧ World.Calm view world after ∧
        match TableWriter.create table settings.spec with
        | .error e => ended = (.unavailable (.construction e), connection)
        | .ok _ => ended = (.answered (.ok (TableWriter.report settings.spec records)),
            connection.appendAll (settings.fileOf table)
              (TableWriter.lines settings.spec table records)) := by
  rw [Coordinator.writeOnce]
  apply World.Ends.bind (ends_get hmirrors settings.root hsettled table)
  rintro answer after ⟨hsettled, hgives, hcalm⟩
  rw [Gives] at hgives
  cases hcreate : TableWriter.create table settings.spec with
  | error e =>
      rw [hcreate] at hgives
      subst hgives
      exact ⟨hsettled, hcalm, rfl⟩
  | ok fresh =>
      rw [hcreate] at hgives
      obtain ⟨id, rfl, -, hopen⟩ := hgives
      apply World.Ends.bind (ends_withWriter view rfl hsettled hopen records connection)
      rintro written last ⟨hsettled, rfl, hcalm'⟩
      exact ⟨hsettled, hcalm.trans hcalm', rfl⟩

/-- What a group gives that is written through the cache: no writer refuses. -/
theorem ends_writeGroup (hmirrors : Mirrors view) (hsettled : Settled settings.spec world.cache)
    (table : String) (records : List Record) (connection : Connection) :
    world.Ends ((settings.coordinator S).writeGroup table records connection) fun ended after =>
      Settled settings.spec after.cache ∧ World.Calm view world after ∧
        match TableWriter.create table settings.spec with
        | .error e => ended = (.error (.construction e), connection)
        | .ok _ => ended = (.ok (.ok (TableWriter.report settings.spec records)),
            connection.appendAll (settings.fileOf table)
              (TableWriter.lines settings.spec table records)) := by
  rw [Coordinator.writeGroup]
  apply World.Ends.bind_on (ends_writeOnce hmirrors hsettled table records connection)
  rintro ended after ⟨hsettled, hcalm, hended⟩
  cases hcreate : TableWriter.create table settings.spec with
  | error e =>
      rw [hcreate] at hended
      subst hended
      exact ⟨hsettled, hcalm, rfl⟩
  | ok fresh =>
      rw [hcreate] at hended
      subst hended
      exact ⟨hsettled, hcalm, rfl⟩

/-- The session has routed failures, and neither the files nor the source changed. -/
structure Routed (view : S → σ) (world after : World S) (log : ErrorLog) : Prop where
  session : after.session = { world.session with errors := log }
  files : view after.host = view world.host

/-- Writing one group follows the plan of the group. -/
theorem writes_processGroup (hmirrors : Mirrors view)
    (hsettled : Settled settings.spec world.cache) (group : Group) (connection : Connection) :
    Writes world connection ((settings.coordinator S).processGroup group.1 group.2)
      fun result changed after =>
        Settled settings.spec after.cache ∧
        Routed view world after (settings.runGroup group world.session.errors).2 ∧
        match (settings.runGroup group world.session.errors).1 with
        | .error e => result = .error e
        | .ok plan => result = .ok plan.outcome ∧
            changed = connection.appendAll (settings.fileOf group.1) plan.lines := by
  rw [Coordinator.processGroup]
  -- The savepoint is always taken, and no group that is written needs it.
  have hmark : world.Ends (Coordinator.onConnection (ω := TableWriter)
      (settings.coordinator S).store.savepoint connection) fun ended after =>
        ended = (.ok connection.savepoint, connection) ∧ after = world := ⟨rfl, rfl⟩
  apply Writes.lift_bind hmark
  rintro mark changed after ⟨hmarked, rfl⟩
  obtain ⟨rfl, rfl⟩ := Prod.mk.inj hmarked
  simp only [pure_bind]
  apply Writes.lift_bind (ends_writeGroup hmirrors hsettled group.1 group.2 changed)
  rintro answer written last ⟨hsettled, hcalm, hanswer⟩
  cases hcreate : TableWriter.create group.1 settings.spec with
  | error e =>
      rw [hcreate] at hanswer
      obtain ⟨rfl, rfl⟩ := Prod.mk.inj hanswer
      simp only [Coordinator.constructionError]
      have hplan : settings.planGroup group = if settings.rollbackOnError then
          .error (.construction e) else .ok (.ofRefusal group e) := by
        rw [Settings.planGroup, hcreate]
      by_cases hrollback : settings.rollbackOnError = true
      · rw [if_pos hrollback] at hplan
        rw [if_pos (show (settings.coordinator S).rollbackOnError = true from hrollback),
          writes_throw, Settings.runGroup, hplan]
        exact ⟨hsettled, ⟨hcalm.session, hcalm.files⟩, rfl⟩
      · rw [if_neg hrollback] at hplan
        rw [if_neg (show ¬ (settings.coordinator S).rollbackOnError = true from hrollback),
          Coordinator.failGroup, routeAll_eq, Settings.runGroup, hplan]
        apply writes_routing
        rintro routed rfl
        rw [hcalm.session]
        simp only [GroupPlan.ofRefusal]
        generalize after.session.errors.routeEach _ = ended
        obtain ⟨e | ⟨⟩, log⟩ := ended
        · exact ⟨hsettled, ⟨rfl, hcalm.files⟩, rfl⟩
        · exact ⟨hsettled, ⟨rfl, hcalm.files⟩, rfl, (written.addPending_nil).symm⟩
  | ok fresh =>
      rw [hcreate] at hanswer
      obtain ⟨rfl, rfl⟩ := Prod.mk.inj hanswer
      simp only
      rw [writes_attempt, applyReport_eq, hcalm.session]
      cases hfatal : settings.fatal? (TableWriter.report settings.spec group.2) with
      | some failure =>
          have hplan : settings.planGroup group = .error (.store group.1 failure.error) := by
            simp only [Settings.planGroup, hcreate, hfatal]
          rw [Settings.runGroup, hplan]
          exact ⟨hsettled, ⟨rfl, hcalm.files⟩, rfl⟩
      | none =>
          have hplan : settings.planGroup group = .ok (.ofReport settings.spec group) := by
            simp only [Settings.planGroup, hcreate, hfatal]
          rw [Settings.runGroup, hplan]
          simp only [GroupPlan.ofReport, routing_bind]
          generalize after.session.errors.routeEach _ = ended
          obtain ⟨e | ⟨⟩, log⟩ := ended
          · exact ⟨hsettled, ⟨rfl, hcalm.files⟩, rfl⟩
          · exact ⟨hsettled, ⟨rfl, hcalm.files⟩, rfl, rfl⟩

/-- Plans of groups stay with the group that they were made for. -/
theorem table_of_planGroup {group : Group} {plan : GroupPlan}
    (hplan : settings.planGroup group = .ok plan) : plan.outcome.table = group.1 := by
  rw [Settings.planGroup] at hplan
  cases hcreate : TableWriter.create group.1 settings.spec with
  | error e =>
      simp only [hcreate] at hplan
      split at hplan
      · simp at hplan
      · rw [← Except.ok.inj hplan]
        rfl
  | ok fresh =>
      simp only [hcreate] at hplan
      split at hplan
      · simp at hplan
      · rw [← Except.ok.inj hplan]
        rfl

theorem planGroup_of_runGroup {group : Group} {log : ErrorLog} {plan : GroupPlan}
    (hrun : (settings.runGroup group log).1 = .ok plan) : settings.planGroup group = .ok plan := by
  rw [Settings.runGroup] at hrun
  cases hplan : settings.planGroup group with
  | error e =>
      rw [hplan] at hrun
      simp at hrun
  | ok planned =>
      simp only [hplan] at hrun
      cases hrouted : (log.routeEach planned.failures).1 with
      | error e =>
          rw [hrouted] at hrun
          simp [Except.map] at hrun
      | ok routed =>
          rw [hrouted] at hrun
          exact hrun

/-- Writing groups follows their plans, one after the other. -/
theorem writes_processGroups (hmirrors : Mirrors view)
    (hsettled : Settled settings.spec world.cache) (done : List TableOutcome)
    (groups : List Group) (connection : Connection) :
    Writes world connection ((settings.coordinator S).processGroups done groups)
      fun result changed after =>
        Settled settings.spec after.cache ∧
        Routed view world after (settings.runGroups groups world.session.errors).2 ∧
        match (settings.runGroups groups world.session.errors).1 with
        | .error e => result = .error e
        | .ok plans => result = .ok (done.reverse ++ plans.map GroupPlan.outcome) ∧
            changed = connection.addPending (settings.pending plans) := by
  induction groups generalizing world done connection with
  | nil =>
      rw [Coordinator.processGroups, writes_pure]
      refine ⟨hsettled, ⟨rfl, rfl⟩, ?_, ?_⟩
      · simp
      · exact connection.addPending_nil.symm
  | cons group rest ih =>
      rw [Coordinator.processGroups]
      have hfirst := writes_processGroup hmirrors hsettled group connection
      rw [Settings.runGroups]
      generalize hran : settings.runGroup group world.session.errors = ran at hfirst
      obtain ⟨e | plan, log⟩ := ran
      · apply Writes.bind hfirst
        · intro e changed after hafter
          exact ⟨hafter.1, hafter.2.1, congrArg _ (Except.error.inj hafter.2.2)⟩
        · intro outcome changed after hafter
          exact absurd hafter.2.2 (by simp)
      · have htable : plan.outcome.table = group.1 :=
          table_of_planGroup (planGroup_of_runGroup (congrArg Prod.fst hran))
        apply Writes.bind hfirst
        · intro e changed after hafter
          exact absurd hafter.2.2.1 (by simp)
        · rintro outcome changed after ⟨hsettled, hrouted, houtcome, rfl⟩
          obtain rfl := Except.ok.inj houtcome
          apply World.Ends.imp (ih hsettled (plan.outcome :: done) _)
          intro ended last hlast
          obtain ⟨hsettled, hrouted', hended⟩ := hlast
          have herrors : after.session.errors = log := congrArg Session.errors hrouted.session
          rw [herrors] at hrouted' hended
          simp only
          generalize settings.runGroups rest log = ran at hrouted' hended
          have hlog (final : ErrorLog) (hfinal : Routed view after last final) :
              Routed view world last final := by
            refine ⟨?_, hfinal.files.trans hrouted.files⟩
            rw [hfinal.session, hrouted.session]
          obtain ⟨e | plans, final⟩ := ran
          · exact ⟨hsettled, hlog final hrouted', hended⟩
          · refine ⟨hsettled, hlog final hrouted', ?_, ?_⟩
            · rw [hended.1]
              simp
            · rw [hended.2, Connection.appendAll, Connection.addPending_addPending, ← htable]
              rfl

theorem agrees_commitFile (hmirrors : Mirrors view) (root : String) (file : TableFile)
    (lines : List String) :
    Agrees view (Connection.commitFile root file lines)
      (Connection.commitFile root file lines) := by
  rw [Connection.commitFile, Connection.commitFile]
  apply Agrees.bind (hmirrors.createDirAll _)
  intro made
  cases made with
  | error e => exact Agrees.pure _
  | ok made =>
      apply Agrees.bind (hmirrors.append _ _)
      intro appended
      cases appended with
      | error e => exact Agrees.pure _
      | ok appended => exact Agrees.pure _

theorem agrees_commitFiles (hmirrors : Mirrors view) (root : String)
    (files : List (TableFile × List String)) :
    Agrees view (Connection.commitFiles root files) (Connection.commitFiles root files) := by
  induction files with
  | nil => exact Agrees.pure _
  | cons entry rest ih =>
      obtain ⟨file, lines⟩ := entry
      rw [Connection.commitFiles, Connection.commitFiles]
      apply Agrees.bind (agrees_commitFile hmirrors root file lines)
      intro committed
      cases committed with
      | error e => exact Agrees.pure _
      | ok committed => exact ih

/-- A computation left what the plan says. -/
structure Follows (view : S → σ) (settings : Settings) (world after : World S)
    (result : Except WriteError WriteOutcome) (left : Settings.Left σ) : Prop where
  settled : Settled settings.spec after.cache
  session : after.session = { world.session with errors := left.2.1 }
  files : view after.host = left.2.2
  result : result = left.1

/-- Committing appends the lines that wait, and nothing else. -/
theorem ends_commit (hmirrors : Mirrors view) (plans : List GroupPlan) :
    world.Ends (Coordinator.onConnection (ω := TableWriter) (settings.coordinator S).store.commit
        (Connection.addPending { root := settings.root } (settings.pending plans)))
      fun ended after => ended.1 = (settings.commit plans (view world.host)).1 ∧
        after.cache = world.cache ∧ after.session = world.session ∧
        view after.host = (settings.commit plans (view world.host)).2 := by
  have hpending : (Connection.addPending { root := settings.root }
      (settings.pending plans)).pending.toList = settings.pending plans := by
    simp [Connection.addPending]
  have hagrees := agrees_commitFiles hmirrors settings.root
    (Connection.byFile (settings.pending plans)) world.host
  have hcommit : (settings.coordinator S).store.commit
      (Connection.addPending { root := settings.root } (settings.pending plans)) =
        liftM (do
          let result ← (Connection.commitFiles settings.root
            (Connection.byFile (settings.pending plans)) : StateM S _)
          pure (result, Connection.rollback
            (Connection.addPending { root := settings.root } (settings.pending plans)))) := by
    change liftM (Connection.commit _) = _
    rw [Connection.commit, hpending]
    rfl
  rw [Coordinator.onConnection, hcommit, Settings.commit, ← hagrees]
  exact ⟨rfl, rfl, rfl, rfl⟩

/-- Writing groups and committing them. -/
theorem writes_writeAndCommit (hmirrors : Mirrors view)
    (hsettled : Settled settings.spec world.cache) (hopen : world.session.sourceClosed = false)
    (unresolved : Nat) (groups : List Group) :
    Writes world { root := settings.root }
      ((settings.coordinator S).writeAndCommit unresolved groups)
      fun result _ after => Follows view settings world after result
        (settings.writeGroups unresolved groups world.session.sourceClosed world.session.errors
          (view world.host)) := by
  rw [Coordinator.writeAndCommit, Settings.writeGroups, hopen]
  have hgroups := writes_processGroups hmirrors hsettled [] groups { root := settings.root }
  generalize settings.runGroups groups world.session.errors = ran at hgroups
  obtain ⟨e | plans, log⟩ := ran
  · apply Writes.bind hgroups
    · intro e changed after hafter
      exact ⟨hafter.1, hafter.2.1.session, hafter.2.1.files,
        congrArg _ (Except.error.inj hafter.2.2)⟩
    · intro tables changed after hafter
      exact absurd hafter.2.2 (by simp)
  · apply Writes.bind hgroups
    · intro e changed after hafter
      exact absurd hafter.2.2.1 (by simp)
    · rintro tables changed after ⟨hsettled, hrouted, htables, rfl⟩
      obtain rfl := Except.ok.inj htables
      apply Writes.lift_bind (ends_commit hmirrors plans)
      rintro committed changed last ⟨hcommitted, hcache, hsession, hfiles⟩
      rw [hrouted.files] at hcommitted hfiles
      simp only [Bool.false_eq_true, if_false] at hcommitted ⊢
      generalize settings.commit plans (view world.host) = ended at hcommitted hfiles
      obtain ⟨result, files⟩ := ended
      subst hcommitted
      cases committed with
      | error e =>
          exact ⟨hcache ▸ hsettled, hsession.trans hrouted.session, hfiles, rfl⟩
      | ok committed =>
          exact ⟨hcache ▸ hsettled, hsession.trans hrouted.session, hfiles, rfl⟩

/-- Writing groups as one transaction. -/
theorem ends_transact (hmirrors : Mirrors view) (hsettled : Settled settings.spec world.cache)
    (unresolved : Nat) (groups : List Group) :
    world.Ends ((settings.coordinator S).transact unresolved groups) fun result after =>
      Follows view settings world after result
        (settings.writeGroups unresolved groups world.session.sourceClosed world.session.errors
          (view world.host)) := by
  have hconnect : (settings.coordinator S).store.connect = connect settings.root := rfl
  rw [Coordinator.transact, World.ends_bind, World.ends_lift, hconnect, connect_run]
  cases hopen : world.session.sourceClosed with
  | true =>
      rw [Settings.writeGroups]
      exact ⟨hsettled, rfl, rfl, rfl⟩
  | false =>
      have hwrites := writes_writeAndCommit hmirrors hsettled hopen unresolved groups
      rw [hopen] at hwrites
      apply World.Ends.bind hwrites
      intro ended after hfollows
      obtain ⟨result, connection⟩ := ended
      cases result with
      | ok outcome => exact hfollows
      | error e => exact ⟨hfollows.settled, hfollows.session, hfollows.files, hfollows.result⟩

/-- Writing a batch that is not empty. -/
theorem ends_writeRecords (hmirrors : Mirrors view) (hsettled : Settled settings.spec world.cache)
    (batch : List Record) (hbatch : batch.isEmpty = false) :
    world.Ends ((settings.coordinator S).writeRecords batch) fun result after =>
      Follows view settings world after result
        (settings.writeBatch batch world.session.sourceClosed world.session.errors
          (view world.host)) := by
  have hunresolved : ((settings.coordinator S).unresolved batch).map
      (fun failure => (failure.1, FailureCause.evaluation failure.2)) =
        settings.unresolved batch := by
    rw [Coordinator.unresolved, Settings.unresolved, List.map_filterMap]
    apply List.filterMap_congr
    intro record _
    have hresolve : (settings.coordinator S).resolve record = settings.resolve record := rfl
    simp only [hresolve]
    cases settings.resolve record <;> rfl
  have hgroup : (settings.coordinator S).group batch = (do
      let routed ← routing (settings.unresolved batch)
      pure (routed.map fun _ => (settings.groups batch, (settings.unresolved batch).length))) := by
    rw [Coordinator.group, routeUnresolved_eq, hunresolved, ← hunresolved, List.length_map]
    congr 1
    funext routed
    cases routed <;> rfl
  rw [Coordinator.writeRecords, World.ends_bind, World.ends_lift, hgroup, routing_bind,
    Settings.writeBatch, hbatch]
  generalize world.session.errors.routeEach (settings.unresolved batch) = routed
  obtain ⟨e | ⟨⟩, log⟩ := routed
  · exact ⟨hsettled, rfl, rfl, rfl⟩
  · have hrouted : Settled settings.spec
        ({ world with session.errors := log } : World S).cache := hsettled
    change ({ world with session.errors := log } : World S).Ends
      (if (settings.groups batch).isEmpty = true then pure (.ok (.ofTables _ []))
        else (settings.coordinator S).transact _ (settings.groups batch)) _
    simp only [Bool.false_eq_true, if_false]
    split
    · exact ⟨hsettled, rfl, rfl, rfl⟩
    · apply World.Ends.imp (ends_transact hmirrors hrouted _ _)
      intro result after hfollows
      exact ⟨hfollows.settled, hfollows.session, hfollows.files, hfollows.result⟩

/-- Writing a batch follows its plan. -/
theorem ends_writeBatch (hmirrors : Mirrors view) (hsettled : Settled settings.spec world.cache)
    (books : Books) (batch : List Record) :
    world.Ends ((settings.coordinator S).writeBatch books batch) fun answer after =>
      Follows view settings world after answer.1
        (settings.writeBatch batch world.session.sourceClosed world.session.errors
          (view world.host)) := by
  rw [Coordinator.writeBatch]
  cases hbatch : batch.isEmpty with
  | true =>
      rw [Settings.writeBatch, hbatch]
      simp only [if_true]
      apply World.Ends.bind (ends_maintain hmirrors settings.root hsettled books.cleaner)
      intro swept after hswept
      exact ⟨hswept.1, hswept.2.session, hswept.2.files, rfl⟩
  | false =>
      simp only [Bool.false_eq_true, if_false]
      apply World.Ends.bind (ends_writeRecords hmirrors hsettled batch hbatch)
      intro result after hfollows
      cases result with
      | error e => exact hfollows
      | ok outcome => exact hfollows

end TableRouting.JsonLines

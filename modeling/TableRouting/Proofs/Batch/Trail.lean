import TableRouting.Proofs.Batch.Turns

/-!
# The trail of a batch

Writing a batch leaves a trail: the failures that are routed, the writes with the rows
that they add to the connection, and the commit.  All else leaves none.  A trail is
given as a relation between worlds, so that it may be a full history as well as one
aspect of the world that some of the entries change.
-/

namespace TableRouting

variable {m : Type → Type} [Monad m] {σ κ ω ρ α β : Type}

/-- An entry of a trail, with the answer of the part that made it. -/
inductive TrailEntry (ρ : Type) where
  | routed (record : Record) (cause : FailureCause) (answer : Except WriteError Unit)
  /-- A writer has added rows to the connection before it answered. -/
  | wrote (records : List Record) (answer : Except StoreError WriteReport) (rows : List ρ)
  /-- These rows were on the connection that was committed. -/
  | committed (rows : List ρ) (answer : Except StoreError Unit)

/-- How entries lead from one world to another. -/
structure Trail (m : Type → Type) [Monad m] (σ ρ : Type) extends Runner m σ where
  Leads : σ → List (TrailEntry ρ) → σ → Prop
  refl : ∀ world, Leads world [] world
  trans : ∀ {world between after : σ} {entries more : List (TrailEntry ρ)},
    Leads world entries between → Leads between more after → Leads world (entries ++ more) after

/-- Building and closing writers leaves no trail, and neither does the clock. -/
structure Workshop.Trackless (workshop : Workshop (CacheT ω m) ω) (trail : Trail m σ ρ) : Prop where
  now : ∀ cache world, trail.Leads world [] (trail.run (workshop.now cache) world).2
  create : ∀ table cache world,
    trail.Leads world [] (trail.run (workshop.create table cache) world).2
  close : ∀ writer cache world,
    trail.Leads world [] (trail.run (workshop.close writer cache) world).2

/-- The parts of a coordinator leave a trail, where `rows` are those on a connection. -/
structure Coordinator.Tracked (coordinator : Coordinator m κ ω) (rows : κ → List ρ)
    (trail : Trail m σ ρ) : Prop where
  workshop : coordinator.store.toWorkshop.Trackless trail
  connect : ∀ world, trail.Leads world [] (trail.run coordinator.store.connect world).2
  savepoint : ∀ connection world,
    trail.Leads world [] (trail.run (coordinator.store.savepoint connection) world).2
  rollbackTo : ∀ mark connection world,
    trail.Leads world [] (trail.run (coordinator.store.rollbackTo mark connection) world).2
  rollback : ∀ connection world,
    trail.Leads world [] (trail.run (coordinator.store.rollback connection) world).2
  route : ∀ record cause world,
    trail.Leads world
      [.routed record cause (trail.run (coordinator.route record cause) world).1]
      (trail.run (coordinator.route record cause) world).2
  write : ∀ writer records connection world, ∃ more,
    rows (trail.run (coordinator.store.write writer records connection) world).1.2.2 =
      rows connection ++ more ∧
    trail.Leads world
      [.wrote records
        (trail.run (coordinator.store.write writer records connection) world).1.1 more]
      (trail.run (coordinator.store.write writer records connection) world).2
  commit : ∀ connection world,
    trail.Leads world
      [.committed (rows connection)
        (trail.run (coordinator.store.commit connection) world).1.1]
      (trail.run (coordinator.store.commit connection) world).2

namespace Trail

variable {trail : Trail m σ ρ}

/-- What holds of the answer of a computation and of the entries that it leaves. -/
def Leaves (trail : Trail m σ ρ) (x : m α) (post : α → List (TrailEntry ρ) → Prop) : Prop :=
  ∀ world, ∃ entries, trail.Leads world entries (trail.run x world).2 ∧
    post (trail.run x world).1 entries

section

variable {x : m α} {post : α → List (TrailEntry ρ) → Prop}

theorem leaves_pure {answer : α} (hpost : post answer []) :
    trail.Leaves (pure answer : m α) post :=
  fun world => ⟨[], by rw [trail.run_pure]; exact ⟨trail.refl world, hpost⟩⟩

theorem Leaves.imp {weaker : α → List (TrailEntry ρ) → Prop} (hleaves : trail.Leaves x post)
    (himp : ∀ answer entries, post answer entries → weaker answer entries) :
    trail.Leaves x weaker := by
  intro world
  obtain ⟨entries, hleads, hpost⟩ := hleaves world
  exact ⟨entries, hleads, himp _ _ hpost⟩

/-- The entries of a computation come first, and then those of the rest. -/
theorem Leaves.bind {f : α → m β} {between : α → List (TrailEntry ρ) → Prop}
    {post : β → List (TrailEntry ρ) → Prop} (hfirst : trail.Leaves x between)
    (hrest : ∀ answer entries, between answer entries →
      trail.Leaves (f answer) fun ended more => post ended (entries ++ more)) :
    trail.Leaves (x >>= f) post := by
  intro world
  obtain ⟨entries, hleads, hbetween⟩ := hfirst world
  obtain ⟨more, hmore, hpost⟩ := hrest _ entries hbetween (trail.run x world).2
  refine ⟨entries ++ more, ?_⟩
  rw [trail.run_bind]
  exact ⟨trail.trans hleads hmore, hpost⟩

end

/-- What holds of the answer of a computation that is begun in a cache and a world, and of its
entries. -/
def LeavesFrom (trail : Trail m σ ρ) (cache : WriterCache ω) (world : σ) (x : CacheT ω m α)
    (post : α → List (TrailEntry ρ) → Prop) : Prop :=
  ∃ entries, trail.Leads world entries (trail.run (x cache) world).2 ∧
    post (trail.run (x cache) world).1.1 entries

/-- What holds of a computation wherever it is begun. -/
def LeavesIn (trail : Trail m σ ρ) (x : CacheT ω m α)
    (post : α → List (TrailEntry ρ) → Prop) : Prop :=
  ∀ cache world, trail.LeavesFrom cache world x post

section

variable {cache : WriterCache ω} {world : σ} {x : CacheT ω m α}
  {post : α → List (TrailEntry ρ) → Prop}

theorem leavesIn_pure {answer : α} (hpost : post answer []) :
    trail.LeavesIn (pure answer : CacheT ω m α) post := by
  intro cache world
  refine ⟨[], ?_⟩
  rw [Runner.run_pure_in]
  exact ⟨trail.refl world, hpost⟩

theorem LeavesFrom.imp {weaker : α → List (TrailEntry ρ) → Prop}
    (hleaves : trail.LeavesFrom cache world x post)
    (himp : ∀ answer entries, post answer entries → weaker answer entries) :
    trail.LeavesFrom cache world x weaker := by
  obtain ⟨entries, hleads, hpost⟩ := hleaves
  exact ⟨entries, hleads, himp _ _ hpost⟩

theorem LeavesIn.imp {weaker : α → List (TrailEntry ρ) → Prop} (hleaves : trail.LeavesIn x post)
    (himp : ∀ answer entries, post answer entries → weaker answer entries) :
    trail.LeavesIn x weaker :=
  fun cache world => (hleaves cache world).imp himp

/-- What is left where a computation ends comes after its own entries. -/
theorem LeavesFrom.bind {f : α → CacheT ω m β} {between : α → List (TrailEntry ρ) → Prop}
    {post : β → List (TrailEntry ρ) → Prop} (hfirst : trail.LeavesFrom cache world x between)
    (hrest : ∀ answer after later entries,
      trail.run (x cache) world = ((answer, after), later) → between answer entries →
        trail.LeavesFrom after later (f answer) fun ended more => post ended (entries ++ more)) :
    trail.LeavesFrom cache world (x >>= f) post := by
  obtain ⟨entries, hleads, hbetween⟩ := hfirst
  obtain ⟨more, hmore, hpost⟩ := hrest _ _ _ entries rfl hbetween
  refine ⟨entries ++ more, ?_⟩
  rw [Runner.run_bind_in]
  exact ⟨trail.trans hleads hmore, hpost⟩

theorem LeavesIn.bind {f : α → CacheT ω m β}
    {between : α → List (TrailEntry ρ) → Prop} {post : β → List (TrailEntry ρ) → Prop}
    (hfirst : trail.LeavesIn x between)
    (hrest : ∀ answer entries, between answer entries →
      trail.LeavesIn (f answer) fun ended more => post ended (entries ++ more)) :
    trail.LeavesIn (x >>= f) post :=
  fun cache world => (hfirst cache world).bind fun answer after later entries _ hbetween =>
    hrest answer entries hbetween after later

/-- A computation that leaves the cache alone. -/
theorem Leaves.lift {x : m α} (hleaves : trail.Leaves x post) :
    trail.LeavesIn (liftM x : CacheT ω m α) post := by
  intro cache world
  obtain ⟨entries, hleads, hpost⟩ := hleaves world
  refine ⟨entries, ?_⟩
  rw [Runner.run_lift]
  exact ⟨hleads, hpost⟩

/-- Go on after a computation that leaves the cache alone. -/
theorem Leaves.lift_bind {cache : WriterCache ω} {world : σ} {x : m α} {f : α → CacheT ω m β}
    {between : α → List (TrailEntry ρ) → Prop} {post : β → List (TrailEntry ρ) → Prop}
    (hfirst : trail.Leaves x between)
    (hrest : ∀ answer later entries, trail.run x world = (answer, later) → between answer entries →
      trail.LeavesFrom cache later (f answer) fun ended more => post ended (entries ++ more)) :
    trail.LeavesFrom cache world (liftM x >>= f) post := by
  apply LeavesFrom.bind (hfirst.lift cache world)
  intro answer after later entries hrun hbetween
  rw [Runner.run_lift] at hrun
  obtain ⟨hboth, rfl⟩ := Prod.mk.inj hrun
  obtain ⟨rfl, rfl⟩ := Prod.mk.inj hboth
  exact hrest _ _ entries rfl hbetween

end

abbrev LeavesNothing (trail : Trail m σ ρ) (x : CacheT ω m α) : Prop :=
  trail.LeavesIn x fun _ entries => entries = []

theorem LeavesNothing.bind {x : CacheT ω m α} {f : α → CacheT ω m β}
    {post : β → List (TrailEntry ρ) → Prop} (hfirst : trail.LeavesNothing x)
    (hrest : ∀ answer, trail.LeavesIn (f answer) post) : trail.LeavesIn (x >>= f) post := by
  apply LeavesIn.bind hfirst
  rintro answer entries rfl
  exact hrest answer

theorem leavesNothing_of_leads {x : CacheT ω m α}
    (hleads : ∀ cache world, trail.Leads world [] (trail.run (x cache) world).2) :
    trail.LeavesNothing x :=
  fun cache world => ⟨[], hleads cache world, rfl⟩

theorem leavesNothing_step (f : WriterCache ω → α × WriterCache ω) :
    trail.LeavesNothing (Workshop.step f : CacheT ω m α) :=
  leavesNothing_of_leads fun _ world => by
    rw [Runner.run_step]
    exact trail.refl world

theorem leavesNothing_modify (f : WriterCache ω → WriterCache ω) :
    trail.LeavesNothing (modify f : CacheT ω m PUnit) :=
  leavesNothing_of_leads fun _ world => by
    rw [Runner.run_modify]
    exact trail.refl world

theorem leavesNothing_getThe :
    trail.LeavesNothing (getThe (WriterCache ω) : CacheT ω m _) :=
  leavesNothing_of_leads fun _ world => by
    rw [Runner.run_getThe]
    exact trail.refl world

section

variable {workshop : Workshop (CacheT ω m) ω} (htrackless : workshop.Trackless trail)
include htrackless

theorem leavesNothing_closeHandle (id : Nat) : trail.LeavesNothing (workshop.closeHandle id) := by
  rw [Workshop.closeHandle]
  apply (leavesNothing_step _).bind
  intro begun
  cases begun with
  | none => exact leavesIn_pure rfl
  | some writer =>
      apply (leavesNothing_of_leads (htrackless.close writer)).bind
      intro closed
      apply (leavesNothing_modify _).bind
      intro _
      cases closed.1 with
      | ok _ => exact leavesIn_pure rfl
      | error e =>
          apply leavesNothing_getThe.bind
          intro cache
          exact leavesIn_pure rfl

theorem leavesNothing_release (released : List Nat) :
    trail.LeavesNothing (workshop.release released) := by
  induction released with
  | nil => exact leavesIn_pure rfl
  | cons id rest ih =>
      rw [Workshop.release]
      apply (leavesNothing_closeHandle htrackless id).bind
      intro closed
      apply ih.bind
      intro more
      split <;> exact leavesIn_pure rfl

theorem leavesNothing_complete (table : String) (flight : Nat)
    (built : Except ConstructionError ω) :
    trail.LeavesNothing (workshop.complete table flight built) := by
  rw [Workshop.complete]
  apply (leavesNothing_of_leads htrackless.now).bind
  intro now
  apply (leavesNothing_step _).bind
  intro finished
  apply (leavesNothing_modify _).bind
  intro _
  apply (leavesNothing_release htrackless _).bind
  intro count
  exact leavesIn_pure rfl

omit htrackless in
theorem leavesNothing_breakOff (table : String) (flight : Nat) :
    trail.LeavesNothing
      (Workshop.breakOff (ω := ω) table flight : CacheT ω m _) := by
  rw [Workshop.breakOff]
  apply (leavesNothing_modify _).bind
  intro _
  apply (leavesNothing_modify _).bind
  intro _
  exact leavesIn_pure rfl

/-- Looking up a writer leaves no trail, even if the writer has to be built. -/
theorem leavesNothing_get (table : String) : trail.LeavesNothing (workshop.get table) := by
  rw [Workshop.get]
  apply (leavesNothing_of_leads htrackless.now).bind
  intro now
  apply (leavesNothing_step _).bind
  intro found
  cases found with
  | hit handle => exact leavesIn_pure rfl
  | join flight =>
      apply leavesNothing_getThe.bind
      intro cache
      cases cache.outcome? flight with
      | none => exact leavesIn_pure rfl
      | some outcome => exact leavesIn_pure rfl
  | build flight expired =>
      apply (leavesNothing_release htrackless _).bind
      intro count
      apply (leavesNothing_of_leads (htrackless.create table)).bind
      intro construction
      cases construction with
      | built writer => exact leavesNothing_complete htrackless table flight (.ok writer)
      | refused e => exact leavesNothing_complete htrackless table flight (.error e)
      | panicked => exact leavesNothing_breakOff table flight

theorem leavesNothing_cleanUp : trail.LeavesNothing workshop.cleanUp := by
  rw [Workshop.cleanUp]
  apply (leavesNothing_of_leads htrackless.now).bind
  intro now
  apply (leavesNothing_step _).bind
  intro released
  apply (leavesNothing_release htrackless released).bind
  intro count
  exact leavesIn_pure rfl

/-- Maintenance leaves no trail. -/
theorem leavesNothing_maintain (cleaner : Cleaner) :
    trail.LeavesNothing (cleaner.maintain workshop) := by
  rw [Cleaner.maintain]
  apply (leavesNothing_of_leads htrackless.now).bind
  intro now
  dsimp only
  split
  · apply (leavesNothing_cleanUp htrackless).bind
    intro removed
    exact leavesIn_pure rfl
  · exact leavesIn_pure rfl

end

/-- Using a writer leaves the trail of what uses it.  A writer that was released refuses,
and then there is none. -/
theorem leavesIn_withWriter {id : Nat} {use : ω → CacheT ω m (α × ω)}
    {post : Except StoreError α → List (TrailEntry ρ) → Prop}
    (huse : ∀ writer, trail.LeavesIn (use writer) fun ended => post (.ok ended.1))
    (hrefused : ∀ e, post (.error e) []) :
    trail.LeavesIn (Workshop.withWriter id use) post := by
  rw [Workshop.withWriter]
  apply leavesNothing_getThe.bind
  intro cache
  cases cache.handle? id with
  | none => exact leavesIn_pure (hrefused _)
  | some handle =>
      dsimp only
      split
      · exact leavesIn_pure (hrefused _)
      · apply (huse handle.writer).bind
        intro used entries hpost
        apply (leavesNothing_modify _).bind
        intro _
        exact leavesIn_pure (by rwa [List.append_nil])

/-- Run a computation that has a state of its own, and then another one. -/
theorem LeavesFrom.bind_on {cache : WriterCache ω} {world : σ} {state : κ}
    {x : StateT κ (CacheT ω m) α} {f : α → StateT κ (CacheT ω m) β}
    {between : α × κ → List (TrailEntry ρ) → Prop} {post : β × κ → List (TrailEntry ρ) → Prop}
    (hfirst : trail.LeavesFrom cache world (x state) between)
    (hrest : ∀ ended after later entries,
      trail.run (x state cache) world = ((ended, after), later) → between ended entries →
        trail.LeavesFrom after later (f ended.1 ended.2) fun last more =>
          post last (entries ++ more)) :
    trail.LeavesFrom cache world ((x >>= f) state) post :=
  hfirst.bind hrest

/-- What holds of the result of a computation that is begun at a turn, of the connection after
it and of its entries. -/
def LeavesAt (trail : Trail m σ ρ) (turn : Turn σ κ ω) (x : Coordinator.Writing m κ ω α)
    (post : Except WriteError α → κ → List (TrailEntry ρ) → Prop) : Prop :=
  trail.LeavesFrom turn.cache turn.world (x.run.run turn.connection) fun ended =>
    post ended.1 ended.2

/-- What holds of a computation whenever it is begun on a connection. -/
def LeavesOn (trail : Trail m σ ρ) (connection : κ) (x : Coordinator.Writing m κ ω α)
    (post : Except WriteError α → κ → List (TrailEntry ρ) → Prop) : Prop :=
  trail.LeavesIn (x.run.run connection) fun ended => post ended.1 ended.2

section

variable {turn : Turn σ κ ω} {connection : κ} {x : Coordinator.Writing m κ ω α}
  {post : Except WriteError α → κ → List (TrailEntry ρ) → Prop}

theorem LeavesOn.leavesAt (hleaves : trail.LeavesOn turn.connection x post) :
    trail.LeavesAt turn x post :=
  hleaves turn.cache turn.world

theorem leavesOn_pure {answer : α} (hpost : post (.ok answer) connection []) :
    trail.LeavesOn connection (pure answer : Coordinator.Writing m κ ω α) post :=
  leavesIn_pure hpost

theorem leavesOn_throw {e : WriteError} (hpost : post (.error e) connection []) :
    trail.LeavesOn connection (throw e : Coordinator.Writing m κ ω α) post :=
  leavesIn_pure hpost

/-- Go on after a computation that may fail the batch. -/
theorem LeavesAt.bind {f : α → Coordinator.Writing m κ ω β}
    {between : Except WriteError α → κ → List (TrailEntry ρ) → Prop}
    {post : Except WriteError β → κ → List (TrailEntry ρ) → Prop}
    (hfirst : trail.LeavesAt turn x between)
    (herror : ∀ e changed entries, between (.error e) changed entries →
      post (.error e) changed entries)
    (hok : ∀ answer after entries, trail.onTurn x.run turn = (.ok answer, after) →
      between (.ok answer) after.connection entries →
        trail.LeavesAt after (f answer) fun result last more =>
          post result last (entries ++ more)) :
    trail.LeavesAt turn (x >>= f) post := by
  rw [LeavesAt, ExceptT.run_bind]
  apply LeavesFrom.bind_on hfirst
  rintro ⟨result, changed⟩ after later entries hrun hbetween
  cases result with
  | error e =>
      exact leavesIn_pure (by rw [List.append_nil]; exact herror e changed entries hbetween) _ _
  | ok answer =>
      exact hok answer ⟨after, later, changed⟩ entries (Runner.onTurn_of_run hrun) hbetween

theorem LeavesOn.bind {f : α → Coordinator.Writing m κ ω β}
    {between : Except WriteError α → κ → List (TrailEntry ρ) → Prop}
    {post : Except WriteError β → κ → List (TrailEntry ρ) → Prop}
    (hfirst : trail.LeavesOn connection x between)
    (herror : ∀ e changed entries, between (.error e) changed entries →
      post (.error e) changed entries)
    (hok : ∀ answer changed entries, between (.ok answer) changed entries →
      trail.LeavesOn changed (f answer) fun result last more =>
        post result last (entries ++ more)) :
    trail.LeavesOn connection (x >>= f) post := by
  intro cache world
  have hat : trail.LeavesAt ⟨cache, world, connection⟩ x between := hfirst cache world
  exact hat.bind herror fun answer after entries _ hbetween =>
    (hok answer after.connection entries hbetween).leavesAt

/-- After a failure nothing happens. -/
theorem leavesOn_throw_bind {e : WriteError} {f : α → Coordinator.Writing m κ ω β}
    {post : Except WriteError β → κ → List (TrailEntry ρ) → Prop}
    (hpost : post (.error e) connection []) :
    trail.LeavesOn connection (throw e >>= f) post := by
  have hthrow : trail.LeavesOn connection (throw e : Coordinator.Writing m κ ω α)
      fun result changed entries => result = .error e ∧ changed = connection ∧ entries = [] :=
    leavesOn_throw ⟨rfl, rfl, rfl⟩
  apply hthrow.bind
  · rintro failed changed entries ⟨hfailed, rfl, rfl⟩
    obtain rfl := Except.error.inj hfailed
    exact hpost
  · rintro answer changed entries ⟨hanswer, -⟩
    cases hanswer

variable [LawfulMonad m]

theorem run_lift_bind (x : StateT κ (CacheT ω m) α) (f : α → Coordinator.Writing m κ ω β)
    (connection : κ) :
    (ExceptT.run (liftM x >>= f : Coordinator.Writing m κ ω β)).run connection =
      x connection >>= fun ended => (f ended.1).run.run ended.2 := by
  have hlift : ExceptT.run (liftM x : Coordinator.Writing m κ ω α) = Except.ok <$> x := rfl
  rw [ExceptT.run_bind, hlift, bind_map_left]
  rfl

/-- Go on after an operation of the connection, which cannot fail the batch by itself. -/
theorem leavesAt_lift_bind {x : StateT κ (CacheT ω m) α}
    {f : α → Coordinator.Writing m κ ω β} (between : α → κ → List (TrailEntry ρ) → Prop)
    {post : Except WriteError β → κ → List (TrailEntry ρ) → Prop}
    (hfirst : trail.LeavesFrom turn.cache turn.world (x turn.connection) fun ended =>
      between ended.1 ended.2)
    (hrest : ∀ answer after entries, trail.onTurn x turn = (answer, after) →
      between answer after.connection entries →
        trail.LeavesAt after (f answer) fun result last more =>
          post result last (entries ++ more)) :
    trail.LeavesAt turn (liftM x >>= f) post := by
  rw [LeavesAt, run_lift_bind]
  apply hfirst.bind
  rintro ⟨answer, changed⟩ after later entries hrun hbetween
  exact hrest answer ⟨after, later, changed⟩ entries (Runner.onTurn_of_run hrun) hbetween

theorem leavesOn_lift_bind {x : StateT κ (CacheT ω m) α}
    {f : α → Coordinator.Writing m κ ω β} (between : α → κ → List (TrailEntry ρ) → Prop)
    {post : Except WriteError β → κ → List (TrailEntry ρ) → Prop}
    (hfirst : trail.LeavesIn (x connection) fun ended => between ended.1 ended.2)
    (hrest : ∀ answer changed entries, between answer changed entries →
      trail.LeavesOn changed (f answer) fun result last more =>
        post result last (entries ++ more)) :
    trail.LeavesOn connection (liftM x >>= f) post := by
  intro cache world
  change trail.LeavesAt ⟨cache, world, connection⟩ (liftM x >>= f) post
  apply leavesAt_lift_bind between (hfirst cache world)
  intro answer after entries _ hbetween
  exact (hrest answer after.connection entries hbetween).leavesAt

/-- Carry on or fail with the result of an effect. -/
theorem leavesOn_attempt {x : m (Except WriteError α)}
    (hleaves : trail.Leaves x fun result => post result connection) :
    trail.LeavesOn connection
      (Coordinator.attempt x : Coordinator.Writing m κ ω α) post := by
  rw [Coordinator.attempt]
  apply leavesOn_lift_bind (x := liftM x) fun result changed entries =>
    changed = connection ∧ post result connection entries
  · change trail.LeavesIn ((liftM x : CacheT ω m _) >>= fun result => pure (result, connection)) _
    apply hleaves.lift.bind
    intro result entries hpost
    exact leavesIn_pure ⟨rfl, by rwa [List.append_nil]⟩
  · rintro result changed entries ⟨rfl, hpost⟩
    cases result with
    | error e => exact leavesOn_throw (by rwa [List.append_nil])
    | ok answer => exact leavesOn_pure (by rwa [List.append_nil])

end

end Trail

end TableRouting

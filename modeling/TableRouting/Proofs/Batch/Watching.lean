import TableRouting.Proofs.Journal

/-!
# Watching a coordinator at work

A store can be watched: every call in which it takes part in writing a batch is
noted with its answer.  Watching changes nothing: a coordinator whose store is
watched does what it does without, and besides it leaves the notes.
-/

namespace TableRouting

variable {m : Type → Type} {σ κ ω α β : Type}

/-- A call of a store, with its answer. -/
inductive Call where
  | connect (answer : Except StoreError Unit)
  | savepoint (answer : Except StoreError Nat)
  | write (records : List Record) (answer : Except StoreError WriteReport)
  | rollbackTo (mark : Nat) (answer : Except StoreError Unit)
  | commit (answer : Except StoreError Unit)
  | rollback (answer : Except StoreError Unit)

/-- Computations that note the calls of a store. -/
abbrev Noting (m : Type → Type) := StateT (List Call) m

def noting [Monad m] (call : α → Call) (x : m α) : Noting m α := do
  let answer ← x
  modify (· ++ [call answer])
  pure answer

def unnoted [Monad m] (x : CacheT ω m α) : CacheT ω (Noting m) α :=
  fun cache => liftM (x cache)

def Workshop.watched [Monad m] (workshop : Workshop (CacheT ω m) ω) :
    Workshop (CacheT ω (Noting m)) ω where
  now := unnoted workshop.now
  create table := unnoted (workshop.create table)
  close writer := unnoted (workshop.close writer)

def Store.watched [Monad m] (store : Store m κ ω) : Store (Noting m) κ ω where
  toWorkshop := store.toWorkshop.watched
  connect := noting (fun answer => .connect (answer.map fun _ => ())) store.connect
  savepoint connection := noting (fun ended => .savepoint ended.1) (store.savepoint connection)
  rollbackTo mark connection :=
    noting (fun ended => .rollbackTo mark ended.1) (store.rollbackTo mark connection)
  commit connection := noting (fun ended => .commit ended.1) (store.commit connection)
  rollback connection := noting (fun ended => .rollback ended.1) (store.rollback connection)
  write writer records connection :=
    noting (fun ended => .write records ended.1) (store.write writer records connection)
  closeSource := liftM store.closeSource

/-- A coordinator whose store is watched. -/
def Coordinator.watched [Monad m] (coordinator : Coordinator m κ ω) :
    Coordinator (Noting m) κ ω where
  resolve := coordinator.resolve
  store := coordinator.store.watched
  route record cause := liftM (coordinator.route record cause)
  rollbackOnError := coordinator.rollbackOnError

/-- A computation does what another one does, and notes calls besides.  This is what
holds of the answer and of the calls. -/
def Notes (x : Noting (StateM σ) α) (y : StateM σ α) (post : α → List Call → Prop) : Prop :=
  ∀ notes world, ∃ calls,
    x notes world = (((y world).1, notes ++ calls), (y world).2) ∧ post (y world).1 calls

variable {x : Noting (StateM σ) α} {y : StateM σ α} {post : α → List Call → Prop}

theorem notes_pure {answer : α} (hpost : post answer []) :
    Notes (pure answer : Noting (StateM σ) α) (pure answer) post :=
  journals_pure hpost

theorem notes_lift (y : StateM σ α) : Notes (liftM y) y fun _ calls => calls = [] :=
  journals_lift y

theorem notes_noting (call : α → Call) (y : StateM σ α) :
    Notes (noting call y) y fun answer calls => calls = [call answer] :=
  journals_enter call y

theorem Notes.imp {weaker : α → List Call → Prop} (hnotes : Notes x y post)
    (himp : ∀ answer calls, post answer calls → weaker answer calls) : Notes x y weaker :=
  Journals.imp hnotes himp

/-- Note the calls of a computation, and then those of the rest. -/
theorem Notes.bind {f : α → Noting (StateM σ) β} {g : α → StateM σ β}
    {between : α → List Call → Prop} {post : β → List Call → Prop} (hfirst : Notes x y between)
    (hrest : ∀ answer calls, between answer calls →
      Notes (f answer) (g answer) fun ended more => post ended (calls ++ more)) :
    Notes (x >>= f) (y >>= g) post :=
  Journals.bind hfirst hrest

/-- After a computation without calls, only the rest matters. -/
theorem Notes.silent_bind {f : α → Noting (StateM σ) β} {g : α → StateM σ β}
    {post : β → List Call → Prop} (hfirst : Notes x y fun _ calls => calls = [])
    (hrest : ∀ answer, Notes (f answer) (g answer) post) : Notes (x >>= f) (y >>= g) post := by
  apply hfirst.bind
  rintro answer calls rfl
  exact hrest answer

/-- What holds of the answer of a computation with a cache, and of its calls. -/
def Watches (x : CacheT ω (Noting (StateM σ)) α) (y : CacheT ω (StateM σ) α)
    (post : α → List Call → Prop) : Prop :=
  ∀ cache, Notes (x cache) (y cache) fun ended => post ended.1

section

variable {x : CacheT ω (Noting (StateM σ)) α} {y : CacheT ω (StateM σ) α}

theorem watches_pure {answer : α} (hpost : post answer []) :
    Watches (pure answer : CacheT ω (Noting (StateM σ)) α) (pure answer) post :=
  fun _ => notes_pure hpost

theorem Watches.imp {weaker : α → List Call → Prop} (hwatches : Watches x y post)
    (himp : ∀ answer calls, post answer calls → weaker answer calls) : Watches x y weaker :=
  fun cache => (hwatches cache).imp fun ended => himp ended.1

theorem Watches.bind {f : α → CacheT ω (Noting (StateM σ)) β} {g : α → CacheT ω (StateM σ) β}
    {between : α → List Call → Prop} {post : β → List Call → Prop} (hfirst : Watches x y between)
    (hrest : ∀ answer calls, between answer calls →
      Watches (f answer) (g answer) fun ended more => post ended (calls ++ more)) :
    Watches (x >>= f) (y >>= g) post :=
  fun cache => (hfirst cache).bind fun ended calls hbetween =>
    hrest ended.1 calls hbetween ended.2

end

/-- A computation that leaves the cache alone. -/
theorem Notes.watches (hnotes : Notes x y post) :
    Watches (liftM x : CacheT ω (Noting (StateM σ)) α) (liftM y) post := by
  intro cache
  change Notes (x >>= fun answer => pure (answer, cache))
    (y >>= fun answer => pure (answer, cache)) _
  apply hnotes.bind
  intro answer calls hpost
  exact notes_pure (by rwa [List.append_nil])

/-- A computation makes no calls. -/
abbrev Silent (x : CacheT ω (Noting (StateM σ)) α) (y : CacheT ω (StateM σ) α) : Prop :=
  Watches x y fun _ calls => calls = []

theorem Silent.bind {x : CacheT ω (Noting (StateM σ)) α} {y : CacheT ω (StateM σ) α}
    {f : α → CacheT ω (Noting (StateM σ)) β} {g : α → CacheT ω (StateM σ) β}
    {post : β → List Call → Prop} (hfirst : Silent x y)
    (hrest : ∀ answer, Watches (f answer) (g answer) post) : Watches (x >>= f) (y >>= g) post :=
  fun cache => (hfirst cache).silent_bind fun ended => hrest ended.1 ended.2

theorem silent_unnoted (y : CacheT ω (StateM σ) α) : Silent (unnoted y) y :=
  fun cache => notes_lift (y cache)

theorem silent_step (f : WriterCache ω → α × WriterCache ω) :
    Silent (Workshop.step f : CacheT ω (Noting (StateM σ)) α) (Workshop.step f) :=
  fun _ => notes_pure rfl

theorem silent_modify (f : WriterCache ω → WriterCache ω) :
    Silent (modify f : CacheT ω (Noting (StateM σ)) PUnit) (modify f) :=
  fun _ => notes_pure rfl

theorem silent_getThe :
    Silent (getThe (WriterCache ω) : CacheT ω (Noting (StateM σ)) _) (getThe (WriterCache ω)) :=
  fun _ => notes_pure rfl

section

variable (workshop : Workshop (CacheT ω (StateM σ)) ω)

theorem silent_closeHandle (id : Nat) :
    Silent (workshop.watched.closeHandle id) (workshop.closeHandle id) := by
  rw [Workshop.closeHandle, Workshop.closeHandle]
  apply (silent_step _).bind
  intro begun
  cases begun with
  | none => exact watches_pure rfl
  | some writer =>
      apply (silent_unnoted _).bind
      rintro ⟨result, writer⟩
      apply (silent_modify _).bind
      intro _
      cases result with
      | ok _ => exact watches_pure rfl
      | error e =>
          apply silent_getThe.bind
          intro cache
          exact watches_pure rfl

theorem silent_release (released : List Nat) :
    Silent (workshop.watched.release released) (workshop.release released) := by
  induction released with
  | nil => exact watches_pure rfl
  | cons id rest ih =>
      rw [Workshop.release, Workshop.release]
      apply (silent_closeHandle workshop id).bind
      intro closed
      apply ih.bind
      intro more
      split <;> exact watches_pure rfl

theorem silent_complete (table : String) (flight : Nat) (built : Except ConstructionError ω) :
    Silent (workshop.watched.complete table flight built)
      (workshop.complete table flight built) := by
  rw [Workshop.complete, Workshop.complete]
  apply (silent_unnoted _).bind
  intro now
  apply (silent_step _).bind
  rintro ⟨outcome, released⟩
  apply (silent_modify _).bind
  intro _
  apply (silent_release workshop released).bind
  intro count
  exact watches_pure rfl

theorem silent_breakOff (table : String) (flight : Nat) :
    Silent (Workshop.breakOff (ω := ω) table flight : CacheT ω (Noting (StateM σ)) _)
      (Workshop.breakOff (ω := ω) table flight) := by
  rw [Workshop.breakOff, Workshop.breakOff]
  apply (silent_modify _).bind
  intro _
  apply (silent_modify _).bind
  intro _
  exact watches_pure rfl

/-- Looking up a writer makes no calls, even if the writer has to be built. -/
theorem silent_get (table : String) :
    Silent (workshop.watched.get table) (workshop.get table) := by
  rw [Workshop.get, Workshop.get]
  apply (silent_unnoted _).bind
  intro now
  apply (silent_step _).bind
  intro found
  cases found with
  | hit handle => exact watches_pure rfl
  | join flight =>
      apply silent_getThe.bind
      intro cache
      cases cache.outcome? flight with
      | none => exact watches_pure rfl
      | some outcome => exact watches_pure rfl
  | build flight expired =>
      apply (silent_release workshop _).bind
      intro count
      apply (silent_unnoted _).bind
      intro construction
      cases construction with
      | built writer => exact silent_complete workshop table flight (.ok writer)
      | refused e => exact silent_complete workshop table flight (.error e)
      | panicked => exact silent_breakOff table flight

theorem silent_cleanUp : Silent workshop.watched.cleanUp workshop.cleanUp := by
  rw [Workshop.cleanUp, Workshop.cleanUp]
  apply (silent_unnoted _).bind
  intro now
  apply (silent_step _).bind
  intro released
  apply (silent_release workshop released).bind
  intro count
  exact watches_pure rfl

/-- Maintenance makes no calls. -/
theorem silent_maintain (cleaner : Cleaner) :
    Silent (cleaner.maintain workshop.watched) (cleaner.maintain workshop) := by
  rw [Cleaner.maintain, Cleaner.maintain]
  apply (silent_unnoted _).bind
  intro now
  dsimp only
  split
  · apply (silent_cleanUp workshop).bind
    intro removed
    exact watches_pure rfl
  · exact watches_pure rfl

end

/-- Using a writer makes the calls of what uses it.  A writer that was released refuses,
and then there are none. -/
theorem watches_withWriter {id : Nat} {used : ω → CacheT ω (Noting (StateM σ)) (α × ω)}
    {use : ω → CacheT ω (StateM σ) (α × ω)} {post : Except StoreError α → List Call → Prop}
    (huse : ∀ writer, Watches (used writer) (use writer) fun ended => post (.ok ended.1))
    (hrefused : ∀ e, post (.error e) []) :
    Watches (Workshop.withWriter id used) (Workshop.withWriter id use) post := by
  rw [Workshop.withWriter, Workshop.withWriter]
  apply silent_getThe.bind
  intro cache
  cases cache.handle? id with
  | none => exact watches_pure (hrefused _)
  | some handle =>
      dsimp only
      split
      · exact watches_pure (hrefused _)
      · apply (huse handle.writer).bind
        rintro ⟨answer, writer⟩ calls hpost
        apply (silent_modify _).bind
        intro _
        exact watches_pure (by rwa [List.append_nil])

/-- Watch a computation that has a state of its own, and then another one. -/
theorem Watches.bind_on {state : κ} {x : StateT κ (CacheT ω (Noting (StateM σ))) α}
    {y : StateT κ (CacheT ω (StateM σ)) α}
    {f : α → StateT κ (CacheT ω (Noting (StateM σ))) β} {g : α → StateT κ (CacheT ω (StateM σ)) β}
    {between : α × κ → List Call → Prop} {post : β × κ → List Call → Prop}
    (hfirst : Watches (x state) (y state) between)
    (hrest : ∀ ended calls, between ended calls →
      Watches (f ended.1 ended.2) (g ended.1 ended.2) fun last more => post last (calls ++ more)) :
    Watches ((x >>= f) state) ((y >>= g) state) post :=
  hfirst.bind hrest

/-- What holds of the result of a computation on a connection, and of its calls. -/
def Conducts (x : Coordinator.Writing (Noting (StateM σ)) κ ω α)
    (y : Coordinator.Writing (StateM σ) κ ω α) (post : Except WriteError α → List Call → Prop) :
    Prop :=
  ∀ connection, Watches (x.run connection) (y.run connection) fun ended => post ended.1

section

variable {x : Coordinator.Writing (Noting (StateM σ)) κ ω α}
  {y : Coordinator.Writing (StateM σ) κ ω α} {post : Except WriteError α → List Call → Prop}

theorem conducts_pure {answer : α} (hpost : post (.ok answer) []) :
    Conducts (pure answer : Coordinator.Writing (Noting (StateM σ)) κ ω α) (pure answer) post :=
  fun _ => watches_pure hpost

theorem conducts_throw {e : WriteError} (hpost : post (.error e) []) :
    Conducts (throw e : Coordinator.Writing (Noting (StateM σ)) κ ω α) (throw e) post :=
  fun _ => watches_pure hpost

theorem Conducts.imp {weaker : Except WriteError α → List Call → Prop}
    (hconducts : Conducts x y post)
    (himp : ∀ result calls, post result calls → weaker result calls) : Conducts x y weaker :=
  fun connection => (hconducts connection).imp fun ended => himp ended.1

/-- Go on after a computation that may fail the batch. -/
theorem Conducts.bind {f : α → Coordinator.Writing (Noting (StateM σ)) κ ω β}
    {g : α → Coordinator.Writing (StateM σ) κ ω β}
    {between : Except WriteError α → List Call → Prop}
    {post : Except WriteError β → List Call → Prop} (hfirst : Conducts x y between)
    (herror : ∀ e calls, between (.error e) calls → post (.error e) calls)
    (hok : ∀ answer calls, between (.ok answer) calls →
      Conducts (f answer) (g answer) fun result more => post result (calls ++ more)) :
    Conducts (x >>= f) (y >>= g) post := by
  intro connection
  rw [ExceptT.run_bind, ExceptT.run_bind]
  apply (hfirst connection).bind_on
  rintro ⟨result, changed⟩ calls hbetween
  cases result with
  | error e => exact watches_pure (by rw [List.append_nil]; exact herror e calls hbetween)
  | ok answer => exact hok answer calls hbetween changed

end

/-- Go on after an operation of the connection, which cannot fail the batch by itself. -/
theorem Conducts.lift_bind {x : StateT κ (CacheT ω (Noting (StateM σ))) α}
    {y : StateT κ (CacheT ω (StateM σ)) α}
    {f : α → Coordinator.Writing (Noting (StateM σ)) κ ω β}
    {g : α → Coordinator.Writing (StateM σ) κ ω β} (between : α → List Call → Prop)
    {post : Except WriteError β → List Call → Prop}
    (hfirst : ∀ connection, Watches (x connection) (y connection) fun ended => between ended.1)
    (hrest : ∀ answer calls, between answer calls →
      Conducts (f answer) (g answer) fun result more => post result (calls ++ more)) :
    Conducts (liftM x >>= f) (liftM y >>= g) post :=
  fun connection => (hfirst connection).bind fun ended calls hbetween =>
    hrest ended.1 calls hbetween ended.2

/-- Go on after a call of the connection. -/
theorem Conducts.call_bind {h : κ → StateM σ (α × κ)} (call : α → Call)
    {f : α → Coordinator.Writing (Noting (StateM σ)) κ ω β}
    {g : α → Coordinator.Writing (StateM σ) κ ω β} {post : Except WriteError β → List Call → Prop}
    (hrest : ∀ answer, Conducts (f answer) (g answer) fun result more =>
      post result (call answer :: more)) :
    Conducts
      (liftM (Coordinator.onConnection (ω := ω) fun connection =>
        noting (fun ended : α × κ => call ended.1) (h connection)) >>= f)
      (liftM (Coordinator.onConnection (ω := ω) h) >>= g) post := by
  apply Conducts.lift_bind fun answer calls => calls = [call answer]
  · intro connection
    exact (notes_noting _ _).watches
  · rintro answer calls rfl
    exact hrest answer

/-- A computation that leaves the cache and the connection alone. -/
theorem Notes.connected {x : Noting (StateM σ) α} {y : StateM σ α} {post : α → List Call → Prop}
    (hnotes : Notes x y post) (connection : κ) :
    Watches ((liftM x : StateT κ (CacheT ω (Noting (StateM σ))) α) connection)
      ((liftM y : StateT κ (CacheT ω (StateM σ)) α) connection) fun ended => post ended.1 := by
  have hcached : Watches (liftM x : CacheT ω (Noting (StateM σ)) α) (liftM y) post :=
    hnotes.watches
  change Watches ((liftM x : CacheT ω (Noting (StateM σ)) α) >>= fun answer =>
    pure (answer, connection)) (liftM y >>= fun answer => pure (answer, connection)) _
  apply hcached.bind
  intro answer calls hpost
  exact watches_pure (by rwa [List.append_nil])

/-- Carry on or fail with the result of an effect. -/
theorem conducts_attempt {x : Noting (StateM σ) (Except WriteError α)}
    {y : StateM σ (Except WriteError α)} {post : Except WriteError α → List Call → Prop}
    (hnotes : Notes x y post) :
    Conducts (Coordinator.attempt x : Coordinator.Writing (Noting (StateM σ)) κ ω α)
      (Coordinator.attempt y) post := by
  rw [Coordinator.attempt, Coordinator.attempt]
  apply Conducts.lift_bind (x := liftM x) (y := liftM y) post hnotes.connected
  intro result calls hpost
  cases result with
  | error e => exact conducts_throw (by rwa [List.append_nil])
  | ok answer => exact conducts_pure (by rwa [List.append_nil])

end TableRouting

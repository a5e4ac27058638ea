import TableRouting.Batch.Coordinator
import TableRouting.JsonLines.Source

/-!
# Running the effects of a coordinator

A world that effects change, and what holds of a computation with a cache that is begun in
one cache and one world.
-/

namespace TableRouting

variable {m : Type → Type} [Monad m] {σ κ ω α β : Type}

/-- How the effects of a coordinator change a world. -/
structure Runner (m : Type → Type) [Monad m] (σ : Type) where
  run : {α : Type} → m α → σ → α × σ
  run_pure : ∀ {α : Type} (answer : α) (world : σ), run (pure answer) world = (answer, world)
  run_bind : ∀ {α β : Type} (x : m α) (f : α → m β) (world : σ),
    run (x >>= f) world = run (f (run x world).1) (run x world).2

/-- Effects that are changes of a world. -/
def Runner.state (σ : Type) : Runner (StateM σ) σ where
  run x := x
  run_pure _ _ := rfl
  run_bind _ _ _ := rfl

/-- Effects of a session on a machine. -/
def Runner.session (S : Type) :
    Runner (JsonLines.SessionT (StateM S)) (JsonLines.Session × S) where
  run x world :=
    let ended := x world.1 world.2
    (ended.1.1, ended.1.2, ended.2)
  run_pure _ _ := rfl
  run_bind _ _ _ := rfl

namespace Runner

variable {runner : Runner m σ} {cache : WriterCache ω} {world : σ}

@[simp]
theorem run_pure_in (answer : α) :
    runner.run ((pure answer : CacheT ω m α) cache) world = ((answer, cache), world) :=
  runner.run_pure (answer, cache) world

@[simp]
theorem run_bind_in (x : CacheT ω m α) (f : α → CacheT ω m β) :
    runner.run ((x >>= f) cache) world =
      runner.run (f (runner.run (x cache) world).1.1 (runner.run (x cache) world).1.2)
        (runner.run (x cache) world).2 :=
  runner.run_bind (x cache) (fun ended => f ended.1 ended.2) world

@[simp]
theorem run_step (f : WriterCache ω → α × WriterCache ω) :
    runner.run ((Workshop.step f : CacheT ω m α) cache) world = (f cache, world) :=
  runner.run_pure (f cache) world

@[simp]
theorem run_modify (f : WriterCache ω → WriterCache ω) :
    runner.run ((modify f : CacheT ω m PUnit) cache) world = ((PUnit.unit, f cache), world) :=
  runner.run_pure (PUnit.unit, f cache) world

@[simp]
theorem run_getThe :
    runner.run ((getThe (WriterCache ω) : CacheT ω m _) cache) world = ((cache, cache), world) :=
  runner.run_pure (cache, cache) world

@[simp]
theorem run_lift (x : m α) :
    runner.run ((liftM x : CacheT ω m α) cache) world =
      (((runner.run x world).1, cache), (runner.run x world).2) := by
  change runner.run (x >>= fun answer => pure (answer, cache)) world = _
  rw [runner.run_bind, runner.run_pure]

/-- What holds of the answer of a computation, and of the cache and the world after it. -/
def Ends (runner : Runner m σ) (cache : WriterCache ω) (world : σ) (x : CacheT ω m α)
    (post : α → WriterCache ω → σ → Prop) : Prop :=
  post (runner.run (x cache) world).1.1 (runner.run (x cache) world).1.2
    (runner.run (x cache) world).2

variable {x : CacheT ω m α} {post : α → WriterCache ω → σ → Prop}

theorem ends_of_run {ended : (α × WriterCache ω) × σ} (hrun : runner.run (x cache) world = ended)
    (hpost : post ended.1.1 ended.1.2 ended.2) : runner.Ends cache world x post := by
  rw [Ends, hrun]
  exact hpost

theorem ends_pure {answer : α} (hpost : post answer cache world) :
    runner.Ends cache world (pure answer) post :=
  ends_of_run (run_pure_in answer) hpost

theorem Ends.imp {weaker : α → WriterCache ω → σ → Prop} (hends : runner.Ends cache world x post)
    (himp : ∀ answer after later, post answer after later → weaker answer after later) :
    runner.Ends cache world x weaker :=
  himp _ _ _ hends

/-- Run a computation, and then another one on what it leaves. -/
theorem Ends.bind {f : α → CacheT ω m β} {between : α → WriterCache ω → σ → Prop}
    {post : β → WriterCache ω → σ → Prop} (hfirst : runner.Ends cache world x between)
    (hrest : ∀ answer after later, between answer after later →
      runner.Ends after later (f answer) post) :
    runner.Ends cache world (x >>= f) post :=
  ends_of_run (run_bind_in x f) (hrest _ _ _ hfirst)

/-- Run a computation that has a state of its own, and then another one. -/
theorem Ends.bind_on {state : κ} {x : StateT κ (CacheT ω m) α}
    {f : α → StateT κ (CacheT ω m) β} {between : α × κ → WriterCache ω → σ → Prop}
    {post : β × κ → WriterCache ω → σ → Prop} (hfirst : runner.Ends cache world (x state) between)
    (hrest : ∀ ended after later, between ended after later →
      runner.Ends after later (f ended.1 ended.2) post) :
    runner.Ends cache world ((x >>= f) state) post :=
  hfirst.bind hrest

theorem ends_step (f : WriterCache ω → α × WriterCache ω) :
    runner.Ends cache world (Workshop.step f : CacheT ω m α) fun answer after _ =>
      answer = (f cache).1 ∧ after = (f cache).2 :=
  ends_of_run (run_step f) ⟨rfl, rfl⟩

theorem ends_modify (f : WriterCache ω → WriterCache ω) :
    runner.Ends cache world (modify f : CacheT ω m PUnit) fun _ after _ => after = f cache :=
  ends_of_run (run_modify f) rfl

theorem ends_getThe :
    runner.Ends cache world (getThe (WriterCache ω) : CacheT ω m _) fun answer after _ =>
      answer = cache ∧ after = cache :=
  ends_of_run run_getThe ⟨rfl, rfl⟩

theorem ends_lift (x : m α) :
    runner.Ends cache world (liftM x) fun answer after later =>
      runner.run x world = (answer, later) ∧ after = cache :=
  ends_of_run (run_lift x) ⟨rfl, rfl⟩

end Runner

end TableRouting

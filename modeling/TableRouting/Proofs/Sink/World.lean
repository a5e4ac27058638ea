import TableRouting.JsonLines.Source
import TableRouting.Proofs.FileTree.Mirror
import TableRouting.Sink.Basic

/-!
# Running a sink over the JSON-lines store

What such a sink works on is the cache of its writers, the session and the machine.
Statements about its computations say what holds of the answer and of the world in
the end; they are put together along `bind`.
-/

namespace TableRouting.JsonLines

/-- What a sink over the JSON-lines store works on. -/
structure World (S : Type) where
  cache : WriterCache TableWriter
  session : Session
  host : S

abbrev Sinking (S : Type) := CacheT TableWriter (SessionT (StateM S))

namespace World

variable {S α β : Type}

def run (world : World S) (x : Sinking S α) : α × World S :=
  let ended := x world.cache world.session world.host
  (ended.1.1.1, ⟨ended.1.1.2, ended.1.2, ended.2⟩)

/-- What holds of the answer of a computation and of the world after it. -/
def Ends (world : World S) (x : Sinking S α) (post : α → World S → Prop) : Prop :=
  post (world.run x).1 (world.run x).2

variable {world : World S} {post : α → World S → Prop}

theorem ends_pure {answer : α} : world.Ends (pure answer) post ↔ post answer world := Iff.rfl

theorem ends_bind {x : Sinking S β} {f : β → Sinking S α} :
    world.Ends (x >>= f) post ↔
      world.Ends x fun answer after => after.Ends (f answer) post := Iff.rfl

theorem Ends.imp {x : Sinking S α} {weaker : α → World S → Prop} (hends : world.Ends x post)
    (himp : ∀ answer after, post answer after → weaker answer after) : world.Ends x weaker :=
  himp _ _ hends

/-- Run a computation, and then another one on what it leaves. -/
theorem Ends.bind {x : Sinking S β} {f : β → Sinking S α} {between : β → World S → Prop}
    (hfirst : world.Ends x between)
    (hrest : ∀ answer after, between answer after → after.Ends (f answer) post) :
    world.Ends (x >>= f) post :=
  hrest _ _ hfirst

/-- Run a computation that has a state of its own, and then another one. -/
theorem Ends.bind_on {κ : Type} {state : κ} {x : StateT κ (Sinking S) β}
    {f : β → StateT κ (Sinking S) α} {between : β × κ → World S → Prop}
    {post : α × κ → World S → Prop} (hfirst : world.Ends (x state) between)
    (hrest : ∀ ended after, between ended after → after.Ends (f ended.1 ended.2) post) :
    world.Ends ((x >>= f) state) post :=
  hrest _ _ hfirst

theorem ends_step {f : WriterCache TableWriter → α × WriterCache TableWriter} :
    world.Ends (Workshop.step f) post ↔
      post (f world.cache).1 { world with cache := (f world.cache).2 } := Iff.rfl

theorem ends_modify {f : WriterCache TableWriter → WriterCache TableWriter}
    {post : Unit → World S → Prop} :
    world.Ends (modify f) post ↔ post () { world with cache := f world.cache } := Iff.rfl

theorem ends_getThe {post : WriterCache TableWriter → World S → Prop} :
    world.Ends (getThe (WriterCache TableWriter)) post ↔ post world.cache world := Iff.rfl

/-- A computation that leaves the cache alone. -/
theorem ends_lift {x : SessionT (StateM S) α} :
    world.Ends (liftM x) post ↔
      post (x world.session world.host).1.1
        ⟨world.cache, (x world.session world.host).1.2, (x world.session world.host).2⟩ :=
  Iff.rfl

/-- Nothing has changed but the cache and the clock. -/
structure Calm {σ : Type} (view : S → σ) (world after : World S) : Prop where
  session : after.session = world.session
  files : view after.host = view world.host

namespace Calm

variable {σ : Type} {view : S → σ} {after last : World S}

theorem refl (world : World S) : Calm view world world := ⟨rfl, rfl⟩

theorem trans (hfirst : Calm view world after) (hsecond : Calm view after last) :
    Calm view world last :=
  ⟨hsecond.session.trans hfirst.session, hsecond.files.trans hfirst.files⟩

end Calm

theorem ends_now [Host (StateM S)] {σ : Type} [Host (StateM σ)] {view : S → σ}
    (hmirrors : Mirrors view) (root : String) (spec : WriterSpec) :
    world.Ends (store root spec).now fun _ after =>
      after.cache = world.cache ∧ Calm view world after :=
  ⟨rfl, rfl, hmirrors.now world.host⟩

end World

end TableRouting.JsonLines

import TableRouting.Batch.Coordinator

/-!
# Keeping a journal

Some calls of a computation can be entered in a journal, in the order in which they are
made.  A journal changes nothing: a computation that keeps one does what it does without,
and besides it makes the entries.
-/

namespace TableRouting

variable {m : Type → Type} {σ κ ω ε α β : Type}

/-- Computations that keep a journal. -/
abbrev JournalT (ε : Type) (m : Type → Type) := StateT (List ε) m

def enter [Monad m] (entry : α → ε) (x : m α) : JournalT ε m α := do
  let answer ← x
  modify (· ++ [entry answer])
  pure answer

def unentered [Monad m] (x : CacheT ω m α) : CacheT ω (JournalT ε m) α :=
  fun cache => liftM (x cache)

def Workshop.inJournal [Monad m] (workshop : Workshop (CacheT ω m) ω) :
    Workshop (CacheT ω (JournalT ε m)) ω where
  now := unentered workshop.now
  create table := unentered (workshop.create table)
  close writer := unentered (workshop.close writer)

/-- A store whose calls are not entered. -/
def Store.inJournal [Monad m] (store : Store m κ ω) : Store (JournalT ε m) κ ω where
  toWorkshop := store.toWorkshop.inJournal
  connect := liftM store.connect
  savepoint connection := liftM (store.savepoint connection)
  rollbackTo mark connection := liftM (store.rollbackTo mark connection)
  commit connection := liftM (store.commit connection)
  rollback connection := liftM (store.rollback connection)
  write writer records connection := liftM (store.write writer records connection)
  closeSource := liftM store.closeSource

/-- A computation does what another one does, and makes entries besides.  This is what
holds of the answer and of the entries. -/
def Journals (x : JournalT ε (StateM σ) α) (y : StateM σ α) (post : α → List ε → Prop) : Prop :=
  ∀ journal world, ∃ entries,
    x journal world = (((y world).1, journal ++ entries), (y world).2) ∧ post (y world).1 entries

variable {x : JournalT ε (StateM σ) α} {y : StateM σ α} {post : α → List ε → Prop}

theorem journals_pure {answer : α} (hpost : post answer []) :
    Journals (pure answer : JournalT ε (StateM σ) α) (pure answer) post := by
  intro journal world
  refine ⟨[], ?_, hpost⟩
  rw [List.append_nil]
  rfl

theorem journals_lift (y : StateM σ α) :
    Journals (liftM y : JournalT ε (StateM σ) α) y fun _ entries => entries = [] := by
  intro journal world
  refine ⟨[], ?_, rfl⟩
  rw [List.append_nil]
  rfl

theorem journals_enter (entry : α → ε) (y : StateM σ α) :
    Journals (enter entry y) y fun answer entries => entries = [entry answer] :=
  fun _ _ => ⟨_, rfl, rfl⟩

theorem Journals.imp {weaker : α → List ε → Prop} (hjournals : Journals x y post)
    (himp : ∀ answer entries, post answer entries → weaker answer entries) :
    Journals x y weaker := by
  intro journal world
  obtain ⟨entries, hrun, hpost⟩ := hjournals journal world
  exact ⟨entries, hrun, himp _ _ hpost⟩

/-- The entries of a computation come first, and then those of the rest. -/
theorem Journals.bind {f : α → JournalT ε (StateM σ) β} {g : α → StateM σ β}
    {between : α → List ε → Prop} {post : β → List ε → Prop} (hfirst : Journals x y between)
    (hrest : ∀ answer entries, between answer entries →
      Journals (f answer) (g answer) fun ended more => post ended (entries ++ more)) :
    Journals (x >>= f) (y >>= g) post := by
  intro journal world
  obtain ⟨entries, hrun, hbetween⟩ := hfirst journal world
  obtain ⟨more, hmore, hpost⟩ := hrest _ entries hbetween (journal ++ entries) (y world).2
  refine ⟨entries ++ more, ?_, hpost⟩
  rw [← List.append_assoc]
  change f (x journal world).1.1 (x journal world).1.2 (x journal world).2 = _
  rw [hrun, hmore]
  rfl

end TableRouting

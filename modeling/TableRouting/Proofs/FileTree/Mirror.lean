import TableRouting.FileTree.Host

/-!
# Machines with the same files

What a program does to files is seen through a view of the states of its machine.
The view leaves out the clock, of which nothing is asked.
-/

namespace TableRouting

/-- The file operations of a machine are those of another one, seen through a view
of its states that the clock does not show in. -/
structure Mirrors {S σ : Type} [Host (StateM S)] [Host (StateM σ)] (view : S → σ) : Prop where
  createDirAll : ∀ path (state : S),
    Prod.map id view ((Host.createDirAll path : StateM S (Except FileError Unit)) state) =
      (Host.createDirAll path : StateM σ (Except FileError Unit)) (view state)
  append : ∀ path text (state : S),
    Prod.map id view ((Host.append path text : StateM S (Except FileError Unit)) state) =
      (Host.append path text : StateM σ (Except FileError Unit)) (view state)
  now : ∀ state : S, view ((Host.now : StateM S Nat) state).2 = view state

section

variable {S σ α β : Type} {view : S → σ}

/-- A computation does the same on both machines. -/
def Agrees (view : S → σ) (x : StateM S α) (y : StateM σ α) : Prop :=
  ∀ state, Prod.map id view (x state) = y (view state)

theorem Agrees.pure (answer : α) :
    Agrees view (Pure.pure answer : StateM S α) (Pure.pure answer : StateM σ α) :=
  fun _ => rfl

theorem Agrees.bind {x : StateM S α} {y : StateM σ α} {f : α → StateM S β} {g : α → StateM σ β}
    (hfirst : Agrees view x y) (hrest : ∀ answer, Agrees view (f answer) (g answer)) :
    Agrees view (x >>= f) (y >>= g) := by
  intro state
  have hx := hfirst state
  calc
    Prod.map id view ((x >>= f) state)
      = Prod.map id view (f (x state).1 (x state).2) := rfl
    _ = g (x state).1 (view (x state).2) := hrest _ _
    _ = (y >>= g) (view state) := by
      change _ = g (y (view state)).1 (y (view state)).2
      rw [← hx]
      rfl

end

/-- A machine whose clock shows one given reading after the other. -/
structure Timed (σ : Type) where
  files : σ
  readings : Nat → Nat

namespace Timed

variable {σ α : Type}

/-- What is done to the files leaves the clock alone. -/
def lift (x : StateM σ α) : StateM (Timed σ) α := fun timed =>
  ((x timed.files).1, { timed with files := (x timed.files).2 })

def read : StateM (Timed σ) Nat := fun timed =>
  (timed.readings 0, { timed with readings := fun index => timed.readings (index + 1) })

instance [Host (StateM σ)] : Host (StateM (Timed σ)) where
  createDirAll path := lift (Host.createDirAll path)
  append path text := lift (Host.append path text)
  truncate path := lift (Host.truncate path)
  read path := lift (Host.read path)
  now := read

/-- The files are all that a clock of any kind leaves of a machine. -/
theorem mirrors_files [Host (StateM σ)] : Mirrors (files : Timed σ → σ) where
  createDirAll _ _ := rfl
  append _ _ _ := rfl
  now _ := rfl

end Timed

end TableRouting

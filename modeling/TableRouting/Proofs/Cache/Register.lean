import TableRouting.Cache.Workshop
import TableRouting.Proofs.Cache.Eviction

/-!
# A cache as a plain list

The simplest account of a writer cache for one caller that has it to itself: a list
of the cached entries, most recently used first, the number of the writers built so
far, and a clock.  There are no slots, no marks and no flights, and what expired is
looked for everywhere.
-/

namespace TableRouting

/-- What a caller asks of a cache, or the time that it lets pass. -/
inductive CacheCommand (ω : Type) where
  /-- Get the writer of a table.  If it has to be built, this is what the
  construction gives, and how long it takes. -/
  | get (table : String) (construction : Construction ω) (duration : Nat)
  | contains (table : String)
  | tables
  | size
  | cleanUp
  | invalidateAll
  | wait (duration : Nat)

/-- What a caller of a cache gets back. -/
inductive CacheAnswer where
  | writer (answer : Except Unavailable Nat)
  | contained (answer : Bool)
  | tables (tables : List String)
  | count (count : Nat)
  | nothing
  deriving DecidableEq

/-- A list of cached entries at a time. -/
structure Register where
  limits : CacheLimits
  /-- The cached entries, most recently used first. -/
  entries : List CacheEntry
  /-- How many writers were built. -/
  built : Nat
  clock : Nat

namespace Register

variable {ω : Type}

def start (limits : CacheLimits) (clock : Nat) : Register where
  limits := limits
  entries := []
  built := 0
  clock := clock

def others (register : Register) (table : String) : List CacheEntry :=
  register.entries.filter fun entry => entry.table ≠ table

def fresh (register : Register) : List CacheEntry :=
  register.entries.filter fun entry => entry.isFresh register.limits register.clock

/-- A new writer enters in front.  What expired leaves, and then what there is no room
for, from the back. -/
def enter (register : Register) (table : String) : Register :=
  { register with
    entries := ⟨table, register.built + 1, register.clock⟩ ::
      register.fresh.take (max register.limits.capacity 1 - 1)
    built := register.built + 1 }

/-- Build the writer of a table, whose entry has expired if there is one. -/
def build (register : Register) (table : String) (construction : Construction ω)
    (duration : Nat) : Except Unavailable Nat × Register :=
  let register :=
    { register with
      entries := register.others table
      clock := register.clock + duration }
  match construction with
  | .built _ => (.ok (register.built + 1), register.enter table)
  | .refused error => (.error (.construction error), register)
  | .panicked => (.error .panicked, register)

def get (register : Register) (table : String) (construction : Construction ω)
    (duration : Nat) : Except Unavailable Nat × Register :=
  match register.entries.find? fun entry => entry.table = table with
  | some entry =>
    if entry.isFresh register.limits register.clock then
      (.ok entry.handle,
        { register with
          entries := { entry with lastAccess := register.clock } :: register.others table })
    else register.build table construction duration
  | none => register.build table construction duration

def perform (register : Register) : CacheCommand ω → CacheAnswer × Register
  | .get table construction duration =>
    let (answer, register) := register.get table construction duration
    (.writer answer, register)
  | .contains table =>
    (.contained (register.entries.any fun entry => entry.table = table), register)
  | .tables => (.tables (register.entries.map CacheEntry.table), register)
  | .size => (.count register.entries.length, register)
  | .cleanUp =>
    (.count (register.entries.countP fun entry =>
        !entry.isFresh register.limits register.clock),
      { register with entries := register.fresh })
  | .invalidateAll => (.count register.entries.length, { register with entries := [] })
  | .wait duration => (.nothing, { register with clock := register.clock + duration })

def performAll (register : Register) : List (CacheCommand ω) → List CacheAnswer × Register
  | [] => ([], register)
  | command :: rest =>
    let (answer, register) := register.perform command
    let (answers, register) := register.performAll rest
    (answer :: answers, register)

theorem limits_get (register : Register) (table : String) (construction : Construction ω)
    (duration : Nat) :
    (register.get table construction duration).2.limits = register.limits := by
  have hbuild : (register.build table construction duration).2.limits = register.limits := by
    cases construction <;> rfl
  rw [get]
  split
  · split
    · rfl
    · exact hbuild
  · exact hbuild

/-- No command changes the limits. -/
theorem limits_perform (register : Register) (command : CacheCommand ω) :
    (register.perform command).2.limits = register.limits := by
  cases command with
  | get table construction duration => exact limits_get register table construction duration
  | contains | tables | size | cleanUp | invalidateAll | wait => rfl

theorem limits_performAll (register : Register) (commands : List (CacheCommand ω)) :
    (register.performAll commands).2.limits = register.limits := by
  induction commands generalizing register with
  | nil => rfl
  | cons command rest ih => exact (ih _).trans (limits_perform register command)

variable {register : Register} {table : String}

/-- A table without an entry is not found, and the other entries are all. -/
theorem find?_eq_none (htable : ∀ entry ∈ register.entries, entry.table ≠ table) :
    (register.entries.find? fun entry => entry.table = table) = none ∧
      register.others table = register.entries := by
  constructor
  · simpa using htable
  · simpa [others] using htable

/-- The one entry of a table is found, and the other entries are those before and
after it. -/
theorem find?_eq_some {newer older : List CacheEntry} {entry : CacheEntry}
    (hentries : register.entries = newer ++ entry :: older)
    (hnodup : (register.entries.map CacheEntry.table).Nodup) :
    (register.entries.find? fun other => other.table = entry.table) = some entry ∧
      register.others entry.table = newer ++ older := by
  rw [hentries] at hnodup
  rw [others, hentries]
  exact find?_filter_of_nodup CacheEntry.table hnodup

/-- A writer that is built for a full cache, in which nothing has expired, takes the
place of the least recently used one. -/
theorem get_full {writer : ω} {duration : Nat}
    (hfull : register.entries.length = max register.limits.capacity 1)
    (htable : ∀ entry ∈ register.entries, entry.table ≠ table)
    (hfresh : ∀ entry ∈ register.entries,
      entry.isFresh register.limits (register.clock + duration) = true) :
    register.get table (.built writer) duration =
      (.ok (register.built + 1),
        { register with
          entries := ⟨table, register.built + 1, register.clock + duration⟩ ::
            register.entries.dropLast
          built := register.built + 1
          clock := register.clock + duration }) := by
  obtain ⟨hfind, hothers⟩ := find?_eq_none htable
  simp only [get, hfind, build, hothers, enter, fresh]
  rw [List.filter_eq_self.mpr hfresh, ← hfull, List.dropLast_eq_take]

example :
    ((Register.start { capacity := 2, ttl := 10 } 0).performAll
      [.get "a" (.built ()) 0, .get "b" (.built ()) 0, .get "a" .panicked 0,
        .get "c" (.built ()) 0, .tables]).1 =
      [.writer (.ok 1), .writer (.ok 2), .writer (.ok 1), .writer (.ok 3),
        .tables ["c", "a"]] := by
  decide

end Register

end TableRouting

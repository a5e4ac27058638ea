import TableRouting.Proofs.Config.Faults
import TableRouting.Proofs.Journal

/-!
# Which sinks open

A sink opens just when its configuration is faultless, its data source can be made and a
connection can be had from it.  A configuration that is at fault is reported as a whole,
before anything is made of it; a data source that was made for a sink that does not open
is closed again, once.
-/

namespace TableRouting

variable {m : Type → Type} {σ κ ω : Type}

/-- A call that concerns the data source of a sink, with its answer. -/
inductive SourceCall where
  | provide (answer : Except ConfigIssue Unit)
  | connect (answer : Except StoreError Unit)
  | close (answer : Except StoreError Unit)
  deriving DecidableEq

@[simp] def SourceCall.isProvide : SourceCall → Bool
  | .provide _ => true
  | _ => false

@[simp] def SourceCall.isClose : SourceCall → Bool
  | .close _ => true
  | _ => false

/-- A store that enters the calls of its data source. -/
def Store.sourceJournal [Monad m] (store : Store m κ ω) : Store (JournalT SourceCall m) κ ω :=
  { store.inJournal with
    connect := enter (fun answer => .connect (answer.map fun _ => ())) store.connect
    closeSource := enter .close store.closeSource }

/-- What makes data sources, for stores or to be refused. -/
abbrev Provider (m : Type → Type) (κ ω : Type) :=
  WriterSpec → ConnectionConfig → m (Except ConfigIssue (Store m κ ω))

/-- A provider that enters its calls and those of the data sources that it makes. -/
def Provider.inJournal [Monad m] (provide : Provider m κ ω) :
    Provider (JournalT SourceCall m) κ ω := fun spec config => do
  let answer ← enter (fun answer => .provide (answer.map fun _ => ())) (provide spec config)
  pure (answer.map Store.sourceJournal)

namespace Sink

def opening [Monad m] (config : Config) (limits : CacheLimits) (provide : Provider m κ ω)
    (route : Record → FailureCause → m (Except WriteError Unit)) :
    CacheT ω m (Except SinkError Unit) :=
  (fun answer => answer.map fun _ => ()) <$> openWith config limits provide route

/-- The issue of a data source from which no connection can be had. -/
def unreachableIssue (e : StoreError) : ConfigIssue :=
  let reason := e.message
  ⟨"connection", "connection_string", s!"Data source is unreachable: {reason}"⟩

/-- Opening a sink as far as its data source goes. -/
theorem opening_eq [Monad m] [LawfulMonad m] (config : Config) (limits : CacheLimits)
    (provide : Provider m κ ω) (route : Record → FailureCause → m (Except WriteError Unit))
    (cache : WriterCache ω) :
    opening config limits provide route cache =
      match checkConfig config with
      | .error issues => pure (.error (.invalidConfig issues), cache)
      | .ok _ => provide (.ofConfig config.sink) config.connection >>= fun
        | .error issue => pure (.error (.invalidConfig [issue]), cache)
        | .ok store => store.connect >>= fun
          | .error e => store.closeSource >>= fun _ =>
            pure (.error (.invalidConfig [unreachableIssue e]), cache)
          | .ok _ => store.now { limits } >>= fun ended => pure (.ok (), ended.2) := by
  have hlift {α β : Type} (x : m α) (f : α → CacheT ω m β) (cache : WriterCache ω) :
      (liftM x >>= f : CacheT ω m β) cache = x >>= fun answer => f answer cache := by
    change (x >>= fun answer => pure (answer, cache)) >>= (fun ended => f ended.1 ended.2) = _
    rw [bind_assoc]
    simp only [pure_bind]
  have hpure {α β : Type} (f : α → β) (answer : α) (cache : WriterCache ω) :
      (f <$> pure answer : CacheT ω m β) cache = pure (f answer, cache) := by
    rw [map_pure]
    rfl
  rw [opening, openWith]
  cases checkConfig config with
  | error issues => exact hpure _ _ _
  | ok template =>
      dsimp only
      rw [map_bind, hlift]
      apply bind_congr
      intro answer
      cases answer with
      | error issue => exact hpure _ _ _
      | ok store =>
          dsimp only
          rw [map_bind, hlift]
          apply bind_congr
          intro answer
          cases answer with
          | error e =>
              dsimp only
              rw [map_bind, hlift]
              apply bind_congr
              intro answer
              exact hpure _ _ _
          | ok connection =>
              dsimp only
              rw [map_bind]
              change pure ((), { limits }) >>= (fun ended : PUnit × WriterCache ω => _) = _
              rw [pure_bind, map_bind]
              apply bind_congr
              intro ended
              exact hpure _ _ _

/-- How opening a sink goes, with the calls on the way. -/
inductive OpeningCourse (config : Config) : Except SinkError Unit → List SourceCall → Prop
  | faulty (hfaulty : ¬ config.Faultless) :
      OpeningCourse config (.error (.invalidConfig config.reported)) []
  | refused (hfaultless : config.Faultless) (issue : ConfigIssue) :
      OpeningCourse config (.error (.invalidConfig [issue])) [.provide (.error issue)]
  | unreachable (hfaultless : config.Faultless) (e : StoreError) (closed : Except StoreError Unit) :
      OpeningCourse config (.error (.invalidConfig [unreachableIssue e]))
        [.provide (.ok ()), .connect (.error e), .close closed]
  | opened (hfaultless : config.Faultless) :
      OpeningCourse config (.ok ()) [.provide (.ok ()), .connect (.ok ())]

theorem journals_opening (config : Config) (limits : CacheLimits)
    (provide : Provider (StateM σ) κ ω)
    (route : Record → FailureCause → StateM σ (Except WriteError Unit)) (cache : WriterCache ω) :
    Journals
      (opening config limits provide.inJournal (fun record cause => liftM (route record cause))
        cache)
      (opening config limits provide route cache)
      fun ended => OpeningCourse config ended.1 := by
  rw [opening_eq, opening_eq]
  by_cases hfaultless : config.Faultless
  · obtain ⟨template, hcheck⟩ := checkConfig_of_faultless hfaultless
    rw [hcheck]
    dsimp only
    rw [Provider.inJournal, bind_assoc]
    apply (journals_enter _ _).bind
    rintro answer calls rfl
    rw [pure_bind]
    cases answer with
    | error issue => exact journals_pure (.refused hfaultless issue)
    | ok store =>
        apply (journals_enter _ store.connect).bind
        rintro answer calls rfl
        cases answer with
        | error e =>
            apply (journals_enter _ store.closeSource).bind
            rintro closed calls rfl
            exact journals_pure (.unreachable hfaultless e closed)
        | ok connection =>
            apply (journals_lift (store.now { limits })).bind
            rintro ended calls rfl
            exact journals_pure (.opened hfaultless)
  · rw [checkConfig_of_faulty hfaultless]
    exact journals_pure (.faulty hfaultless)

/-- What opening a sink answers, and which calls concern its data source on the way. -/
structure Opens (config : Config) (answer : Except SinkError Unit) (calls : List SourceCall) :
    Prop where
  opens_iff : answer = .ok () ↔
    config.Faultless ∧ .provide (.ok ()) ∈ calls ∧ .connect (.ok ()) ∈ calls
  /-- With a faultless configuration a data source is asked for, and it is asked for a
  connection. -/
  asked : config.Faultless → ∃ made, .provide made ∈ calls
  tried : .provide (.ok ()) ∈ calls → ∃ connected, .connect connected ∈ calls
  /-- A configuration that is at fault is reported as a whole, and no data source is made. -/
  reported : ¬ config.Faultless →
    calls = [] ∧ answer = .error (.invalidConfig config.reported)
  refused : ∀ issue, .provide (.error issue) ∈ calls → answer = .error (.invalidConfig [issue])
  unreachable : ∀ e, .connect (.error e) ∈ calls →
    answer = .error (.invalidConfig [unreachableIssue e])
  /-- At most one data source is made, and it is closed, once, if the sink does not open. -/
  provided : calls.countP SourceCall.isProvide ≤ 1
  closed : .provide (.ok ()) ∈ calls → answer ≠ .ok () → calls.countP SourceCall.isClose = 1
  kept : answer = .ok () → calls.countP SourceCall.isClose = 0

theorem OpeningCourse.opens {config : Config} {answer : Except SinkError Unit}
    {calls : List SourceCall} (hcourse : OpeningCourse config answer calls) :
    Opens config answer calls := by
  cases hcourse with
  | faulty hfaulty => constructor <;> simp [hfaulty]
  | refused hfaultless issue => constructor <;> simp [hfaultless]
  | unreachable hfaultless e closed => constructor <;> simp [hfaultless, List.countP_cons]
  | opened hfaultless => constructor <;> simp [hfaultless, List.countP_cons]

end Sink

/-- What is reported of a configuration are its faults. -/
structure Config.ReportsFaults (config : Config) : Prop where
  faultless_iff : config.Faultless ↔ ∀ issue, ¬ config.Fault issue
  /-- Every issue tells of a condition that is violated. -/
  sound : ∀ issue ∈ config.reported, config.Fault issue
  /-- Every condition that is violated has an issue under its group and setting, save that
  where no connections are allowed nothing is said of the idle ones. -/
  complete : ∀ issue, config.Fault issue →
    (issue.setting = "min_idle" → config.connection.maxConnections ≠ 0) →
    ∃ listed ∈ config.reported, listed.group = issue.group ∧ listed.setting = issue.setting

/-- A configuration that allows no connections and asks for an idle one. -/
def Config.withoutConnections : Config where
  sink := { tableNameTemplate := "t" }
  connection := { connectionString := "out", maxConnections := 0 }

/-- That its idle connection exceeds what it allows is violated, and not reported. -/
theorem Config.not_complete_withoutConnections :
    Sink.checkConfig withoutConnections =
        .error [⟨"connection", "max_connections", "At least one connection required"⟩] ∧
      ¬ ∀ issue, withoutConnections.Fault issue →
        ∃ listed ∈ withoutConnections.reported,
          listed.group = issue.group ∧ listed.setting = issue.setting := by
  have hreported : withoutConnections.reported =
      [⟨"connection", "max_connections", "At least one connection required"⟩] := by
    decide
  constructor
  · decide
  · intro hcomplete
    have hidle : withoutConnections.connection.maxConnections <
        withoutConnections.connection.minIdle := by
      decide
    obtain ⟨listed, hlisted, -, hsetting⟩ := hcomplete _ (.idleConnections hidle)
    rw [hreported, List.mem_singleton] at hlisted
    rw [hlisted] at hsetting
    exact absurd hsetting (by decide)

/-- Opening a sink is all or nothing, whatever provides its data source, and reports all
that is wrong with its configuration. -/
theorem Sink.opening_opens (config : Config) (limits : CacheLimits)
    (provide : Provider (StateM σ) κ ω)
    (route : Record → FailureCause → StateM σ (Except WriteError Unit)) (cache : WriterCache ω) :
    config.ReportsFaults ∧
      Journals
        (opening config limits provide.inJournal (fun record cause => liftM (route record cause))
          cache)
        (opening config limits provide route cache)
        fun ended => Opens config ended.1 := by
  constructor
  · exact {
      faultless_iff := by
        rw [← not_iff_not, Config.not_faultless_iff, not_forall_not]
      sound := fun issue => .of_mem_reported
      complete := fun issue hfault => hfault.exists_reported }
  · apply (journals_opening config limits provide route cache).imp
    intro ended calls hcourse
    exact hcourse.opens

end TableRouting

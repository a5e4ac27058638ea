import TableRouting.Proofs.Batch.Following

/-!
# Opening a sink

Whether a sink opens, and what it writes with, depends on its configuration and on
whether its root directory can be made.  A sink that opens has the settings of its
configuration and an empty cache.
-/

namespace TableRouting.JsonLines

/-- A sink over the JSON-lines store. -/
abbrev FileSink (S : Type) := Sink (SessionT (StateM S)) Connection TableWriter

def openSink (S : Type) [Host (StateM S)] (config : Config) (limits : CacheLimits) :
    Sinking S (Except SinkError (FileSink S)) :=
  Sink.openWith config limits provide route

def Settings.ofConfig (config : Config) : Except SinkError Settings :=
  match Sink.checkConfig config with
  | .error issues => .error (.invalidConfig issues)
  | .ok template =>
    match rootOf config.connection.connectionString with
    | .error issue => .error (.invalidConfig [issue])
    | .ok root => .ok
      { resolve := template.resolve
        rollbackOnError := config.sink.rollbackOnError
        root
        spec := .ofConfig config.sink }

theorem spec_of_ofConfig {config : Config} {settings : Settings}
    (hsettings : Settings.ofConfig config = .ok settings) :
    settings.spec = .ofConfig config.sink := by
  rw [Settings.ofConfig] at hsettings
  split at hsettings
  · simp at hsettings
  · split at hsettings
    · simp at hsettings
    · rw [← Except.ok.inj hsettings]

/-- The path that a connection string names is not empty. -/
theorem root_ne_of_rootOf {connectionString root : String}
    (hroot : rootOf connectionString = .ok root) : root ≠ "" := by
  rw [rootOf] at hroot
  simp only at hroot
  generalize (if scheme.isPrefixOf (Text.trimChars connectionString.toList) = true then
    (Text.trimChars connectionString.toList).drop scheme.length
    else Text.trimChars connectionString.toList) = path at hroot
  split at hroot
  · simp at hroot
  · rename_i hempty
    split at hroot
    · simp at hroot
    · rw [← Except.ok.inj hroot]
      intro hnothing
      apply hempty
      rw [String.ofList_eq_empty_iff.mp hnothing]
      rfl

theorem root_ne_of_ofConfig {config : Config} {settings : Settings}
    (hsettings : Settings.ofConfig config = .ok settings) : settings.root ≠ "" := by
  rw [Settings.ofConfig] at hsettings
  split at hsettings
  · simp at hsettings
  · split at hsettings
    · simp at hsettings
    · rename_i root hroot
      rw [← Except.ok.inj hsettings]
      exact root_ne_of_rootOf hroot

/-- The issue of a root directory that cannot be made. -/
def rootIssue (root : String) (e : FileError) : ConfigIssue :=
  let reason := e.message
  ⟨"connection", "connection_string", s!"Cannot create directory '{root}': {reason}"⟩

/-- Make the root directory of a sink, and say what the sink writes with. -/
def Settings.found {σ : Type} [Host (StateM σ)] (config : Config) (files : σ) :
    Except SinkError Settings × σ :=
  match Settings.ofConfig config with
  | .error e => (.error e, files)
  | .ok settings =>
    match (Host.createDirAll settings.root : StateM σ (Except FileError Unit)) files with
    | (.error e, files) => (.error (.invalidConfig [rootIssue settings.root e]), files)
    | (.ok (), files) => (.ok settings, files)

/-- A sink writes with these settings until it is closed. -/
structure Serves {S : Type} [Host (StateM S)] (sink : FileSink S) (settings : Settings) : Prop where
  coordinator : sink.coordinator = settings.coordinator S
  isOpen : sink.isOpen = true

theorem settled_empty (spec : WriterSpec) (limits : CacheLimits) : Settled spec { limits } := by
  refine ⟨⟨AccessList.Represents.empty, ?_, ?_⟩, ?_⟩
  · rw [WriterCache.contents_empty]
    exact CacheContents.Coherent.empty limits
  · rw [WriterCache.contents_empty]
    intro id handle hhandle
    simp [CacheContents.handle?] at hhandle
  · rw [WriterCache.contents_empty]
    intro table flight hmark
    simp at hmark

/-- Making the root directory and the store below it. -/
theorem provide_run {S : Type} [Host (StateM S)] (spec : WriterSpec) {config : ConnectionConfig}
    {root : String} (hroot : rootOf config.connectionString = .ok root) (session : Session)
    {host made : S} {result : Except FileError Unit}
    (hmade : (Host.createDirAll root : StateM S _) host = (result, made)) :
    (provide spec config : SessionT (StateM S) _) session host =
      (((result.mapError (rootIssue root)).map fun _ => store root spec, session), made) := by
  rw [provide, hroot]
  simp only [bind, StateT.bind, liftM, monadLift, MonadLift.monadLift, StateT.lift, hmade]
  cases result <;> rfl

variable {S σ : Type} [Host (StateM S)] [Host (StateM σ)] {view : S → σ} {world : World S}

/-- What opening a sink gives: the settings of the configuration decide, and the
file system. -/
theorem ends_openSink (hmirrors : Mirrors view) (config : Config) (limits : CacheLimits)
    (hsource : world.session.sourceClosed = false) :
    world.Ends (openSink S config limits) fun answer after =>
      after.session = world.session ∧
      view after.host = (Settings.found config (view world.host)).2 ∧
      match (Settings.found config (view world.host)).1 with
      | .error e => answer = .error e
      | .ok settings => Settings.ofConfig config = .ok settings ∧
          Settled settings.spec after.cache ∧
          ∃ sink, answer = .ok sink ∧ Serves sink settings := by
  rw [openSink, Sink.openWith, Settings.found]
  cases hcheck : Sink.checkConfig config with
  | error issues =>
      simp only [Settings.ofConfig, hcheck]
      exact ⟨rfl, rfl, rfl⟩
  | ok template =>
      cases hroot : rootOf config.connection.connectionString with
      | error issue =>
          simp only [Settings.ofConfig, hcheck, hroot]
          rw [World.ends_bind, World.ends_lift, provide, hroot]
          exact ⟨rfl, rfl, rfl⟩
      | ok root =>
          have hmade := hmirrors.createDirAll root world.host
          generalize hmakes : (Host.createDirAll root : StateM S (Except FileError Unit)) world.host
            = made at hmade
          obtain ⟨result, host⟩ := made
          simp only [Settings.ofConfig, hcheck, hroot, ← hmade]
          rw [World.ends_bind, World.ends_lift, provide_run (.ofConfig config.sink) hroot _ hmakes]
          cases result with
          | error e => exact ⟨rfl, rfl, rfl⟩
          | ok made =>
              have hconnect : (store (m := StateM S) root (.ofConfig config.sink)).connect =
                  connect root := rfl
              simp only [Except.mapError, Except.map]
              rw [World.ends_bind, World.ends_lift, hconnect, connect_run, hsource]
              -- The clock is read last, and its reading decides when the first sweep is due.
              exact ⟨rfl, hmirrors.now host, rfl, settled_empty _ limits, _, rfl, rfl, rfl⟩

end TableRouting.JsonLines

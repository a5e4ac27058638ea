import TableRouting.Proofs.Cache.Consistency
import TableRouting.Proofs.Sink.Transparency

/-!
# Sinks in service

An open sink is used by any number of callers, whose steps on its cache are mixed in
any order, while files, error records and counters change as they may.  At every
moment it writes with the settings of its configuration, its cache is sound, and every
writer of the cache fits its table; so a batch that starts while no writer is being
built finds a settled cache.
-/

namespace TableRouting.JsonLines

/-- What may become of the writers of a JSON-lines store. -/
def fileOutside (spec : WriterSpec) : Outside TableWriter where
  builds table construction := construction = .ofResult (TableWriter.create table spec)
  uses before after := ∃ connection records, after = (before.write connection records).2.1
  closes before after := after = before.close

/-- A sink with what it works on, and what the callers of its cache are in the middle
of. -/
structure Service (S : Type) [Host (StateM S)] where
  sink : FileSink S
  world : World S
  callers : Nat → Phase

variable {S : Type} [Host (StateM S)] {config : Config} {settings : Settings}

namespace Service

def system (service : Service S) (clock : Nat) : System TableWriter where
  cache := service.world.cache
  clock := clock
  callers := service.callers

def Quiet (service : Service S) : Prop :=
  ∀ caller table flight, (service.callers caller).flight? ≠ some (table, flight)

theorem quiet_of_idle {service : Service S}
    (hidle : ∀ caller, service.callers caller = .idle) : service.Quiet := by
  intro caller table flight
  simp [hidle, Phase.flight?]

/-- How a sink comes to be in service, and what may happen to it until it is closed. -/
inductive Reachable (config : Config) : Service S → Prop
  | opened {limits : CacheLimits} {log : ErrorLog} {host : S} {sink : FileSink S}
      {world : World S}
      (hopen : World.run ⟨{}, { errors := log }, host⟩ (openSink S config limits) =
        (.ok sink, world)) :
      Reachable config ⟨sink, world, fun _ => .idle⟩
  /-- A caller makes a step, which may be one of a batch. -/
  | stepped {service : Service S} {clock : Nat} {event : Event} {system : System TableWriter}
      (hservice : Reachable config service)
      (hstep : System.Step (fileOutside (.ofConfig config.sink)) (service.system clock) event
        system) :
      Reachable config
        ⟨service.sink, { service.world with cache := system.cache }, system.callers⟩
  /-- A caller does something from beginning to end. -/
  | performed {service : Service S} {command : Command} {results : List BatchResult}
      {sink : FileSink S} {world : World S}
      (hservice : Reachable config service)
      (hidle : ∀ caller, service.callers caller = .idle)
      (hrun : service.world.run (perform service.sink command) = ((results, sink), world)) :
      Reachable config ⟨sink, world, service.callers⟩
  /-- Counters, error records, files and the clock change, or the source is closed. -/
  | disturbed {service : Service S} (hservice : Reachable config service) (books : Books)
      (session : Session) (host : S) :
      Reachable config
        ⟨{ service.sink with books }, ⟨service.world.cache, session, host⟩, service.callers⟩

end Service

/-- A writer that was used is as good as before. -/
theorem GoodHandle.use {spec : WriterSpec} {handle : WriterHandle TableWriter}
    (hgood : GoodHandle spec handle) (connection : Connection) (records : List Record) :
    GoodHandle spec
      { handle with writer := (handle.writer.write connection records).2.1 } := by
  cases hclosed : handle.writer.closed with
  | true =>
      have hsame : (handle.writer.write connection records).2.1 = handle.writer := by
        rw [TableWriter.write, if_pos hclosed]
      rw [hsame]
      exact hgood
  | false =>
      obtain ⟨after, hfits, hopen, hwrite⟩ := hgood.fits.write hclosed connection records
      rw [hwrite]
      exact ⟨hfits, fun _ => hopen, hgood.creatable⟩

namespace AllGood

variable {spec : WriterSpec} {contents after : CacheContents TableWriter}

theorem looks (hgood : AllGood spec contents) {table : String} {now : Nat}
    {found : WriterCache.Lookup} (hlooks : contents.Looks table now found after) :
    AllGood spec after := by
  cases hlooks <;> exact hgood

theorem finishes (hgood : AllGood spec contents) {table : String} {flight now : Nat}
    {outcome : FlightOutcome} {released : List Nat}
    (hfinishes : contents.Finishes table flight now (TableWriter.create table spec) outcome released
      after) :
    AllGood spec after := by
  generalize hcreate : TableWriter.create table spec = built at hfinishes
  cases hfinishes with
  | refused hmark => exact hgood
  | refusedDetached hmark => exact hgood
  | stored hmark hentries hroom hslot => exact hgood.addHandle hcreate
  | detached hmark => exact hgood.addHandle hcreate

/-- A step of a caller leaves every handle good. -/
theorem step {limits : CacheLimits} {system next : System TableWriter}
    (hsound : System.Sound limits system) (hgood : AllGood spec system.cache.contents)
    {event : Event} (hstep : System.Step (fileOutside spec) system event next) :
    AllGood spec next.cache.contents := by
  cases hstep with
  | tick hnow => exact hgood
  | look hphase =>
      exact hgood.looks
        (WriterCache.looks_lookup hsound.linked hsound.coherent.live _ system.clock).1
  | receive hphase houtcome => exact hgood
  | close hphase hfree hbegin hcloses =>
      rename_i caller id phase writer closed cache
      rcases system.cache.beginClose_cases id with ⟨hskip, -⟩ | ⟨handle, hhandle, -, hopen⟩
      · rw [hskip] at hbegin
        simp at hbegin
      · rw [hopen] at hbegin
        obtain ⟨hwriter, rfl⟩ := Prod.mk.inj hbegin
        obtain rfl := Option.some.inj hwriter
        obtain rfl : closed = handle.writer.close := hcloses
        change AllGood spec (((system.cache.modifyHandle id _).modifyHandle id _).contents)
        rw [WriterCache.modifyHandle_modifyHandle, WriterCache.contents_modifyHandle]
        apply hgood.modifyHandle
        intro found hfound
        obtain rfl : found = handle := Option.some.inj (hfound.symm.trans hhandle)
        exact (hgood id found hfound).release
  | skip hphase hfree hbegin =>
      rename_i caller id phase cache
      rcases system.cache.beginClose_cases id with ⟨hskip, -⟩ | ⟨handle, -, -, hopen⟩
      · rw [hskip] at hbegin
        obtain ⟨-, rfl⟩ := Prod.mk.inj hbegin
        exact hgood
      · rw [hopen] at hbegin
        simp at hbegin
  | finish hphase hbuilds hfinish =>
      rename_i caller table flight built outcome released cache
      have hbuilt : built = TableWriter.create table spec :=
        Construction.ofResult_injective hbuilds
      have hfinishes :=
        (WriterCache.finishes_finish hsound.linked table flight built system.clock).1
      rw [hfinish, hbuilt] at hfinishes
      exact hgood.finishes hfinishes
  | panic hphase hbuilds =>
      exact absurd hbuilds (Construction.panicked_ne_ofResult _)
  | publish hphase => exact hgood
  | answer hphase => exact hgood
  | sweep hphase =>
      obtain ⟨kept, dropped, hevicts⟩ := WriterCache.evicts_sweep system.clock hsound.linked
      change AllGood spec (system.cache.sweep system.clock).2.contents
      rw [hevicts.contents]
      exact hgood
  | invalidate hphase =>
      change AllGood spec system.cache.invalidate.2.contents
      rw [WriterCache.contents_invalidate]
      exact hgood
  | enter hphase hfree hhandle hopen => exact hgood
  | leave hphase hhandle huses =>
      rename_i caller id handle writer
      obtain ⟨connection, records, rfl⟩ := huses
      change AllGood spec ((system.cache.modifyHandle id _).contents)
      rw [WriterCache.contents_modifyHandle]
      apply hgood.modifyHandle
      intro found hfound
      rw [WriterCache.handle?_eq] at hhandle
      obtain rfl : found = handle := Option.some.inj (hfound.symm.trans hhandle)
      exact (hgood id found hfound).use connection records
  | peek hphase => exact hgood

end AllGood

/-- What holds of a sink in service at every moment. -/
structure Kept (settings : Settings) (service : Service S) : Prop where
  serves : Serves service.sink settings
  sound : ∀ clock, System.Sound service.world.cache.limits (service.system clock)
  good : AllGood settings.spec service.world.cache.contents

/-- A settled cache whose callers are idle. -/
theorem Settled.sound {spec : WriterSpec} {cache : WriterCache TableWriter}
    (hsettled : Settled spec cache) {system : System TableWriter} (hcache : system.cache = cache)
    (hidle : ∀ caller, system.callers caller = .idle) : System.Sound cache.limits system := by
  subst hcache
  constructor
  · rfl
  · exact hsettled.linked
  · exact hsettled.coherent
  · simp [hidle, Phase.flight?]
  · simp [hidle, Phase.flight?]
  · exact fun table flight hmark => absurd hmark (hsettled.quiet table flight)
  · simp [hidle, Phase.released]

namespace Kept

variable {service : Service S}

/-- While no writer is being built, the cache is settled. -/
theorem settled (hkept : Kept settings service) (hquiet : service.Quiet) :
    Settled settings.spec service.world.cache where
  linked := (hkept.sound 0).linked
  coherent := (hkept.sound 0).coherent
  good := hkept.good
  quiet := by
    intro table flight hmark
    obtain ⟨caller, hcaller⟩ := (hkept.sound 0).owned table flight hmark
    exact hquiet caller table flight hcaller

theorem step (hkept : Kept settings service) {clock : Nat} {event : Event}
    {system : System TableWriter}
    (hstep : System.Step (fileOutside settings.spec) (service.system clock) event system) :
    Kept settings ⟨service.sink, { service.world with cache := system.cache }, system.callers⟩ where
  serves := hkept.serves
  sound := by
    have hsound := (hkept.sound clock).step hstep
    rw [← hsound.limits] at hsound
    exact fun _ => { hsound with }
  good := AllGood.step (hkept.sound clock) hkept.good hstep

end Kept

variable {σ : Type} [Host (StateM σ)] {view : S → σ}

/-- A sink in service keeps to the settings of its configuration. -/
theorem Service.Reachable.kept (hmirrors : Mirrors view) {service : Service S}
    (hservice : service.Reachable config) :
    ∃ settings, Settings.ofConfig config = .ok settings ∧ Kept settings service := by
  induction hservice with
  | opened hopen =>
      rename_i limits log host sink world
      let start : World S := ⟨{}, { errors := log }, host⟩
      have hsource : start.session.sourceClosed = false := rfl
      have hends := ends_openSink hmirrors config limits hsource
      rw [World.Ends, hopen] at hends
      obtain ⟨-, -, hanswer⟩ := hends
      split at hanswer
      · simp at hanswer
      · rename_i settings hfound
        obtain ⟨hsettings, hsettled, opened, hsink, hserves⟩ := hanswer
        obtain rfl := Except.ok.inj hsink
        exact ⟨settings, hsettings, hserves, fun _ => hsettled.sound rfl fun _ => rfl,
          hsettled.good⟩
  | stepped hservice hstep ih =>
      obtain ⟨settings, hsettings, hkept⟩ := ih
      rw [← spec_of_ofConfig hsettings] at hstep
      exact ⟨settings, hsettings, hkept.step hstep⟩
  | performed hservice hidle hrun ih =>
      rename_i service command results sink world
      obtain ⟨settings, hsettings, hkept⟩ := ih
      have hquiet := Service.quiet_of_idle hidle
      have hends := ends_perform hmirrors hkept.serves (hkept.settled hquiet) command
      rw [World.Ends, hrun] at hends
      obtain ⟨hsettled, hserves, -⟩ := hends
      exact ⟨settings, hsettings, hserves, fun _ => hsettled.sound rfl hidle, hsettled.good⟩
  | disturbed hservice books session host ih =>
      obtain ⟨settings, hsettings, hkept⟩ := ih
      refine ⟨settings, hsettings, ⟨hkept.serves.coordinator, hkept.serves.isOpen⟩, ?_, hkept.good⟩
      exact fun clock => { hkept.sound clock with }

/-- A configuration whose root directory can be made has a sink in service. -/
theorem Service.exists_of_found (hmirrors : Mirrors view) (host : S) {made : σ}
    (hfound : Settings.found config (view host) = (.ok settings, made)) :
    ∃ service : Service S, service.Reachable config ∧ service.Quiet ∧
      service.world.session = {} ∧ view service.world.host = made ∧
      Settings.ofConfig config = .ok settings := by
  let start : World S := ⟨{}, {}, host⟩
  have hends : start.Ends (openSink S config {}) _ := ends_openSink hmirrors config {} rfl
  rw [World.Ends, hfound] at hends
  obtain ⟨hsession, hfiles, hsettings, -, sink, hanswer, -⟩ := hends
  refine ⟨⟨sink, (start.run (openSink S config {})).2, fun _ => .idle⟩, ?_, ?_, hsession, hfiles,
    hsettings⟩
  · apply Reachable.opened
    exact Prod.ext hanswer rfl
  · exact quiet_of_idle fun _ => rfl

end TableRouting.JsonLines

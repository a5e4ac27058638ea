import TableRouting.Proofs.Cache.Alone
import TableRouting.Sink.Basic

/-!
# The gate of a sink

Batches and the calls that close a sink are kept apart by a gate.  Any number of batches
hold it together; a call that closes the sink, or its end of life, has it alone and keeps
it until it returns.  What the gate guards says whether the sink is open.

A batch that was let in may do anything to the cache and to the outside, and ends when
the calls that it has made of the cache have returned.  Writers and the source may fail to
close, but to close them is to get an answer.  What a call that closes the sink does when
nobody else is in it is what `Sink.close` does.
-/

namespace TableRouting

variable {ω : Type}

/-- What a batch does besides what it does to the cache. -/
inductive Deed where
  | resolved (record : Record)
  | connected
  /-- Something is done on a connection. -/
  | transacted
  | routed (record : Record)
  /-- The metrics change. -/
  | counted

/-- Where a caller of a sink is. -/
inductive Visit where
  | away
  /-- In a batch that found the sink open. -/
  | admitted
  /-- In a batch that found the sink closed. -/
  | refused

/-- What who has the gate alone has still to do. -/
inductive Closing where
  /-- Empty the cache. -/
  | emptying
  /-- Close the writers that were cached, of which so many are closed by now, and then the
  source. -/
  | releasing (released : Nat)
  | reporting (report : CloseReport)

namespace CloseReport

/-- The report on writers that were released and a source that was closed. -/
def ofRelease (writersReleased : Nat) (result : Except StoreError Unit) : CloseReport where
  writersReleased := writersReleased
  errors := match result with
    | .ok () => []
    | .error e => [.dataSource e.message]

/-- The report on a sink that was closed before. -/
def late : CloseReport := { alreadyClosed := true }

@[simp] theorem alreadyClosed_ofRelease (writersReleased : Nat) (result : Except StoreError Unit) :
    (ofRelease writersReleased result).alreadyClosed = false := rfl

@[simp] theorem alreadyClosed_late : late.alreadyClosed = true := rfl

end CloseReport

/-- What a step of a sink is seen as. -/
inductive SinkEvent (ω : Type) where
  /-- A step of the cache. -/
  | cached (event : CallEvent ω)
  /-- A batch passes the gate, and finds the sink open or not. -/
  | entered (caller : Nat) (admitted : Bool)
  | did (caller : Nat) (deed : Deed)
  | returned (caller : Nat) (answer : Except SinkError WriteOutcome)
  /-- A batch ends without an answer, as a construction that it began broke off. -/
  | brokeOff (caller : Nat)
  /-- A call that closes the sink, or its end of life, passes the gate. -/
  | locked (caller : Nat)
  | sourceClosed (caller : Nat) (result : Except StoreError Unit)
  | reported (caller : Nat) (report : CloseReport)

def SinkEvent.cacheEvent? : SinkEvent ω → Option (CallEvent ω)
  | cached event => some event
  | _ => none

def cacheEvents (events : List (SinkEvent ω)) : List (CallEvent ω) :=
  events.filterMap SinkEvent.cacheEvent?

theorem cacheEvents_append (first rest : List (SinkEvent ω)) :
    cacheEvents (first ++ rest) = cacheEvents first ++ cacheEvents rest :=
  List.filterMap_append

theorem mem_cacheEvents {events : List (SinkEvent ω)} {event : CallEvent ω} :
    event ∈ cacheEvents events ↔ .cached event ∈ events := by
  rw [cacheEvents, List.mem_filterMap]
  constructor
  · rintro ⟨other, hother, hevent⟩
    cases other with
    | cached call =>
        obtain rfl := Option.some.inj hevent
        exact hother
    | _ => simp [SinkEvent.cacheEvent?] at hevent
  · exact fun hevent => ⟨_, hevent, rfl⟩

def CallEvent.closes : CallEvent ω → Nat
  | closed _ _ _ => 1
  | _ => 0

/-- A sink with its callers. -/
structure GatedSink (ω : Type) where
  shared : SharedCache ω
  books : Books
  isOpen : Bool
  visits : Nat → Visit
  /-- Who has the gate alone. -/
  closer : Option (Nat × Closing)

namespace GatedSink

def start (limits : CacheLimits) (clock : Nat) (books : Books) : GatedSink ω where
  shared := .start limits clock
  books := books
  isOpen := true
  visits := fun _ => .away
  closer := none

def visit (gated : GatedSink ω) (caller : Nat) (visit : Visit) : GatedSink ω :=
  { gated with visits := Function.update gated.visits caller visit }

@[simp] theorem shared_visit (gated : GatedSink ω) (caller : Nat) (visit : Visit) :
    (gated.visit caller visit).shared = gated.shared := rfl

theorem visits_visit (gated : GatedSink ω) (caller : Nat) (visit : Visit) (other : Nat) :
    (gated.visit caller visit).visits other =
      if other = caller then visit else gated.visits other :=
  Function.update_apply ..

theorem ne_visit {visit unwanted : Visit} (hvisit : visit ≠ unwanted) {gated : GatedSink ω}
    (hvisits : ∀ other, gated.visits other ≠ unwanted) (caller other : Nat) :
    (gated.visit caller visit).visits other ≠ unwanted := by
  rw [visits_visit]
  split
  · exact hvisit
  · exact hvisits other

theorem idle_of_away_visit {visit : Visit} {caller : Nat} {gated : GatedSink ω}
    (hcaller : visit = .away → gated.shared.callers caller = .idle)
    (hidle : ∀ other, gated.visits other = .away → gated.shared.callers other = .idle)
    (other : Nat) (haway : (gated.visit caller visit).visits other = .away) :
    gated.shared.callers other = .idle := by
  rw [visits_visit] at haway
  split at haway
  · rename_i hsame
    rw [hsame, hcaller haway]
  · exact hidle other haway

/-- One step of a sink. -/
inductive Step (outside : Outside ω) (gated : GatedSink ω) : SinkEvent ω → GatedSink ω → Prop
  | tick {now : Nat} (hnow : gated.shared.clock ≤ now) :
      Step outside gated (.cached (.ticked now))
        { gated with shared := { gated.shared with clock := now } }
  | enter {caller : Nat} (haway : gated.visits caller = .away) (hgate : gated.closer = none) :
      Step outside gated (.entered caller gated.isOpen)
        (gated.visit caller (if gated.isOpen then .admitted else .refused))
  | work {caller : Nat} {event : CallEvent ω} {shared : SharedCache ω}
      (hvisit : gated.visits caller = .admitted) (hcaller : event.caller? = some caller)
      (hstep : SharedCache.Step outside gated.shared event shared) :
      Step outside gated (.cached event) { gated with shared }
  | act {caller : Nat} {deed : Deed} {books : Books} (hvisit : gated.visits caller = .admitted)
      (hbooks : deed = .counted ∨ books = gated.books) :
      Step outside gated (.did caller deed) { gated with books }
  | leave {caller : Nat} {result : Except WriteError WriteOutcome}
      (hvisit : gated.visits caller = .admitted) (hidle : gated.shared.callers caller = .idle) :
      Step outside gated (.returned caller (result.mapError .write)) (gated.visit caller .away)
  | breakOff {caller : Nat} (hvisit : gated.visits caller = .admitted)
      (hidle : gated.shared.callers caller = .idle) :
      Step outside gated (.brokeOff caller) (gated.visit caller .away)
  | turnAway {caller : Nat} (hvisit : gated.visits caller = .refused) :
      Step outside gated (.returned caller (.error .closed)) (gated.visit caller .away)
  | lock {caller : Nat} (haway : ∀ other, gated.visits other = .away)
      (hgate : gated.closer = none) :
      Step outside gated (.locked caller)
        { gated with
          isOpen := false
          closer := some (caller, if gated.isOpen then .emptying else .reporting .late) }
  | empty {caller : Nat} {released : List Nat} {shared : SharedCache ω}
      (hcloser : gated.closer = some (caller, .emptying))
      (hstep : SharedCache.Step outside gated.shared (.invalidated caller released) shared) :
      Step outside gated (.cached (.invalidated caller released))
        { gated with shared, closer := some (caller, .releasing 0) }
  | release {caller released : Nat} {event : CallEvent ω} {shared : SharedCache ω}
      (hcloser : gated.closer = some (caller, .releasing released))
      (hbusy : gated.shared.callers caller ≠ .idle) (hcaller : event.caller? = some caller)
      (hstep : SharedCache.Step outside gated.shared event shared) :
      Step outside gated (.cached event)
        { gated with shared, closer := some (caller, .releasing (released + event.closes)) }
  | closeSource {caller released : Nat} {result : Except StoreError Unit}
      (hcloser : gated.closer = some (caller, .releasing released))
      (hidle : gated.shared.callers caller = .idle) :
      Step outside gated (.sourceClosed caller result)
        { gated with closer := some (caller, .reporting (.ofRelease released result)) }
  | report {caller : Nat} {report : CloseReport}
      (hcloser : gated.closer = some (caller, .reporting report)) :
      Step outside gated (.reported caller report) { gated with closer := none }

/-- The steps that lead from one sink to another. -/
inductive Run (outside : Outside ω) (first : GatedSink ω) :
    List (SinkEvent ω) → GatedSink ω → Prop
  | nil : Run outside first [] first
  | step {events : List (SinkEvent ω)} {event : SinkEvent ω} {gated after : GatedSink ω}
      (hrun : Run outside first events gated) (hstep : Step outside gated event after) :
      Run outside first (events ++ [event]) after

variable {outside : Outside ω} {first gated after last : GatedSink ω}
  {events before more : List (SinkEvent ω)} {event : SinkEvent ω}

theorem Run.append (hrun : Run outside first events gated) (hmore : Run outside gated more after) :
    Run outside first (events ++ more) after := by
  induction hmore with
  | nil => rwa [List.append_nil]
  | step hmore hstep ih =>
      rw [← List.append_assoc]
      exact ih.step hstep

/-- A run comes by each of its steps. -/
theorem Run.split {rest : List (SinkEvent ω)}
    (hrun : Run outside first (before ++ event :: rest) gated) :
    ∃ earlier later, Run outside first before earlier ∧ Step outside earlier event later ∧
      Run outside later rest gated := by
  generalize hevents : before ++ event :: rest = events at hrun
  induction hrun generalizing rest with
  | nil => simp at hevents
  | step hrun hstep ih =>
      rcases List.eq_nil_or_concat' rest with rfl | ⟨front, final, rfl⟩
      · obtain ⟨rfl, hfinal⟩ := List.append_inj' hevents rfl
        obtain rfl := (List.cons.inj hfinal).1
        exact ⟨_, _, hrun, hstep, .nil⟩
      · rw [← List.cons_append, ← List.append_assoc] at hevents
        obtain ⟨hfront, hfinal⟩ := List.append_inj' hevents rfl
        obtain rfl := (List.cons.inj hfinal).1
        obtain ⟨earlier, later, hbefore, hevent, hafter⟩ := ih hfront
        exact ⟨earlier, later, hbefore, hevent, hafter.step hstep⟩

theorem cacheEvents_concat (events : List (SinkEvent ω)) (event : SinkEvent ω) :
    cacheEvents (events ++ [event]) = cacheEvents events ++ cacheEvents [event] :=
  cacheEvents_append events [event]

/-- Seen from its cache, the callers of a sink are those of a shared cache. -/
theorem Run.shared (hrun : Run outside first events gated) :
    SharedCache.Run outside first.shared (cacheEvents events) gated.shared := by
  induction hrun with
  | nil => exact .nil
  | step hrun hstep ih =>
      rw [cacheEvents_concat]
      cases hstep with
      | tick hnow => exact ih.step (.tick hnow)
      | work hvisit hcaller hstep => exact ih.step hstep
      | empty hcloser hstep => exact ih.step hstep
      | release hcloser hbusy hcaller hstep => exact ih.step hstep
      | enter | act | leave | breakOff | turnAway | lock | closeSource | report =>
          simpa [cacheEvents, List.filterMap_cons, SinkEvent.cacheEvent?] using ih

/-- A batch that was let in may do whatever a caller of the cache may do. -/
theorem Run.works {caller : Nat} {calls : List (CallEvent ω)} {shared : SharedCache ω}
    (hvisit : gated.visits caller = .admitted)
    (hcaller : ∀ call ∈ calls, call.caller? = some caller)
    (hrun : SharedCache.Run outside gated.shared calls shared) :
    Run outside gated (calls.map .cached) { gated with shared } := by
  induction hrun with
  | nil => exact .nil
  | step hrun hstep ih =>
      rw [List.map_append]
      exact (ih fun call hcall => hcaller call (List.mem_append_left _ hcall)).step
        (.work hvisit (hcaller _ (List.mem_append_right _ List.mem_cons_self)) hstep)

structure Empty (gated : GatedSink ω) : Prop where
  visits : ∀ caller, gated.visits caller = .away
  idle : ∀ caller, gated.shared.callers caller = .idle
  free : ∀ id, gated.shared.locks id = none
  gate : gated.closer = none

section

variable {σ κ : Type}

/-- Closing a writer of a store does to the writer what the outside may do, and leaves the
cache alone. -/
def Obeys (outside : Outside ω) (store : Store (StateM σ) κ ω) : Prop :=
  ∀ writer cache world, (store.close writer cache world).1.2 = cache ∧
    outside.closes writer (store.close writer cache world).1.1.2

variable {store : Store (StateM σ) κ ω} {caller : Nat}

/-- Who has the gate alone has closed some writers, and is to close those of some handles. -/
structure Clearing (gated : GatedSink ω) (caller released : Nat) (handles : List Nat) : Prop where
  closer : gated.closer = some (caller, .releasing released)
  visits : ∀ other, gated.visits other = .away
  callers : gated.shared.callers =
    Function.update (fun _ => .idle) caller (.releasing handles (.answer none))
  free : ∀ id, gated.shared.locks id = none

/-- What closing a handle comes to: nothing if it was closed before. -/
theorem closeHandle_cases (hobeys : Obeys outside store) (id : Nat) (cache : WriterCache ω)
    (world : σ) :
    (cache.beginClose id = (none, cache) ∧
        store.closeHandle id cache world = ((.ok false, cache), world)) ∨
      ∃ handle writer answer later,
        cache.contents.handle? id = some handle ∧
        cache.beginClose id =
          (some handle.writer, cache.modifyHandle id fun h => { h with closed := true }) ∧
        outside.closes handle.writer writer ∧ answer ≠ .ok false ∧
        store.closeHandle id cache world =
          ((answer, (cache.modifyHandle id fun h => { h with closed := true }).modifyHandle id
            fun h => { h with writer }), later) := by
  rcases store.closeHandle_run id cache world with hskip |
    ⟨handle, answer, hhandle, hbegin, hanswer, hclose⟩
  · exact .inl hskip
  · obtain ⟨hcache, hcloses⟩ := hobeys handle.writer
      (cache.modifyHandle id fun h => { h with closed := true }) world
    rw [hcache] at hclose
    exact .inr ⟨handle, _, answer, _, hhandle, hbegin, hcloses, hanswer, hclose⟩

variable (outside) in
/-- A caller that closes handles passes over one that was closed before. -/
theorem Clearing.skip {released id : Nat} {rest : List Nat}
    (hclearing : Clearing gated caller released (id :: rest))
    (hbegin : gated.shared.cache.beginClose id = (none, gated.shared.cache)) :
    ∃ events after, Run outside gated events after ∧ Clearing after caller released rest ∧
      after.shared.cache = gated.shared.cache ∧ after.isOpen = gated.isOpen := by
  obtain ⟨hcloser, hvisits, hcallers, hfree⟩ := hclearing
  have hactivity : gated.shared.callers caller = .releasing (id :: rest) (.answer none) := by
    rw [hcallers, Function.update_self]
  refine ⟨_, _, Run.nil.step (.release hcloser (by simp [hactivity]) rfl
    (.skip hactivity (hfree id) hbegin)), ⟨rfl, hvisits, ?_, hfree⟩, rfl, rfl⟩
  rw [SharedCache.put, hcallers, Function.update_idem]

/-- A caller that closes handles closes the writer of one, and counts it. -/
theorem Clearing.close {released id : Nat} {rest : List Nat} {handle : WriterHandle ω} {writer : ω}
    (hclearing : Clearing gated caller released (id :: rest))
    (hhandle : gated.shared.cache.contents.handle? id = some handle)
    (hbegin : gated.shared.cache.beginClose id =
      (some handle.writer, gated.shared.cache.modifyHandle id fun h => { h with closed := true }))
    (hcloses : outside.closes handle.writer writer) :
    ∃ events after, Run outside gated events after ∧ Clearing after caller (released + 1) rest ∧
      after.shared.cache =
        (gated.shared.cache.modifyHandle id fun h => { h with closed := true }).modifyHandle id
          (fun h => { h with writer }) ∧
      after.isOpen = gated.isOpen := by
  obtain ⟨hcloser, hvisits, hcallers, hfree⟩ := hclearing
  have hactivity : gated.shared.callers caller = .releasing (id :: rest) (.answer none) := by
    rw [hcallers, Function.update_self]
  have hnothing : Run outside gated [] gated := .nil
  have hbegun := hnothing.step (.release hcloser (by simp [hactivity]) rfl
    (.beginClose hactivity (hfree id) hbegin))
  have hended := hbegun.step (.release rfl (by simp) rfl
    (@SharedCache.Step.endClose _ outside _ caller id rest (.answer none)
      { handle with closed := true } writer (.ok ()) (by simp) ?_ hcloses))
  · refine ⟨_, _, hended, ⟨rfl, hvisits, ?_, ?_⟩, rfl, rfl⟩
    · simp [SharedCache.put, SharedCache.lock, hcallers]
    · intro other
      by_cases hother : other = id <;> simp [SharedCache.put, SharedCache.lock, hother, hfree]
  · rw [SharedCache.cache_lock, SharedCache.cache_put, WriterCache.handle?_eq,
      WriterCache.contents_modifyHandle, CacheContents.handle?_modifyHandle, if_pos rfl, hhandle]
    rfl

/-- Closing the handles of a list, one after the other, is what a call that closes the sink
does with them, and it counts the same. -/
theorem exists_run_release (hobeys : Obeys outside store) {handles : List Nat} {released : Nat}
    (hclearing : Clearing gated caller released handles) (world : σ) :
    let ended := store.release handles gated.shared.cache world
    ∃ events after, Run outside gated events after ∧
      Clearing after caller (released + ended.1.1) [] ∧ after.shared.cache = ended.1.2 ∧
      after.isOpen = gated.isOpen := by
  induction handles generalizing gated released world with
  | nil => exact ⟨[], gated, .nil, hclearing, rfl, rfl⟩
  | cons id rest ih =>
      rw [Workshop.release, Workshop.bind_run]
      rcases closeHandle_cases hobeys id gated.shared.cache world with ⟨hbegin, hclose⟩ |
        ⟨handle, writer, answer, later, hhandle, hbegin, hcloses, hanswer, hclose⟩
      · obtain ⟨events, between, hrun, hbetween, hcache, hopen⟩ :=
          hclearing.skip outside hbegin
        obtain ⟨more, after, hmore, hafter, hlast, hsame⟩ := ih hbetween world
        rw [hcache] at hafter hlast
        rw [hclose]
        exact ⟨_, after, hrun.append hmore, hafter, hlast, hsame.trans hopen⟩
      · obtain ⟨events, between, hrun, hbetween, hcache, hopen⟩ :=
          hclearing.close hhandle hbegin hcloses
        obtain ⟨more, after, hmore, hafter, hlast, hsame⟩ := ih hbetween later
        rw [hcache] at hafter hlast
        rw [Nat.add_assoc, Nat.add_comm 1] at hafter
        rw [hclose]
        refine ⟨_, after, hrun.append hmore, ?_⟩
        cases answer with
        | error e => exact ⟨hafter, hlast, hsame.trans hopen⟩
        | ok closed =>
            cases closed with
            | false => exact absurd rfl hanswer
            | true => exact ⟨hafter, hlast, hsame.trans hopen⟩

variable (outside) in
/-- Who gets the gate of an open sink empties the cache. -/
theorem Empty.clear (hempty : gated.Empty) (hopen : gated.isOpen = true) (caller : Nat) :
    ∃ between,
      Run outside gated
        [.locked caller, .cached (.invalidated caller gated.shared.cache.invalidate.1)] between ∧
      Clearing between caller 0 gated.shared.cache.invalidate.1 ∧
      between.shared.cache = gated.shared.cache.invalidate.2 ∧ between.isOpen = false := by
  obtain ⟨hvisits, hidle, hfree, hgate⟩ := hempty
  have hnothing : Run outside gated [] gated := .nil
  have hlocked := hnothing.step (@Step.lock _ _ _ caller hvisits hgate)
  refine ⟨_, hlocked.step (.empty (by simp [hopen]) (.invalidate (hidle caller))),
    ⟨rfl, hvisits, ?_, hfree⟩, rfl, rfl⟩
  rw [SharedCache.put, funext hidle]

variable (outside) in
/-- Who has closed the writers closes the source and reports. -/
theorem Clearing.settle {released : Nat} (hclearing : Clearing gated caller released [])
    (result : Except StoreError Unit) :
    ∃ after,
      Run outside gated
        ([.cached (.answered caller none), .sourceClosed caller result] ++
          [.reported caller (.ofRelease released result)]) after ∧
      after.Empty ∧ after.shared.cache = gated.shared.cache ∧ after.isOpen = gated.isOpen := by
  obtain ⟨hcloser, hvisits, hcallers, hfree⟩ := hclearing
  have hactivity : gated.shared.callers caller = .releasing [] (.answer none) := by
    rw [hcallers, Function.update_self]
  have hnothing : Run outside gated [] gated := .nil
  have hanswered := hnothing.step (.release hcloser (by simp [hactivity]) rfl (.answer hactivity))
  have hsource := hanswered.step (@Step.closeSource _ _ _ caller _ result rfl (by simp))
  refine ⟨_, hsource.step (.report rfl), ⟨hvisits, ?_, hfree, rfl⟩, rfl, rfl⟩
  intro other
  by_cases hother : other = caller <;> simp [SharedCache.put, hcallers, hother]

/-- What closing an open sink comes to. -/
theorem close_of_open {sink : Sink (StateM σ) κ ω} (hopen : sink.isOpen = true)
    (cache : WriterCache ω) (world : σ) :
    sink.close cache world =
      let ended := sink.coordinator.store.release cache.invalidate.1 cache.invalidate.2 world
      let source := sink.coordinator.store.closeSource ended.2
      (((.ofRelease ended.1.1 source.1, { sink with isOpen := false }), ended.1.2), source.2) := by
  rw [Sink.close, hopen, if_pos rfl, Workshop.invalidateAll, Workshop.bind_run, Workshop.bind_run,
    Workshop.bind_run, Workshop.step_run]
  simp only
  generalize sink.coordinator.store.release _ _ world = ended
  have hlift : (liftM sink.coordinator.store.closeSource : CacheT ω (StateM σ) _) ended.1.2
      ended.2 = (((sink.coordinator.store.closeSource ended.2).1, ended.1.2),
        (sink.coordinator.store.closeSource ended.2).2) := rfl
  rw [hlift]
  generalize sink.coordinator.store.closeSource ended.2 = source
  obtain ⟨e | done, later⟩ := source <;> rfl

/-- Closing a sink that nobody else is in is a run that leads to the same report and leaves
the same cache. -/
theorem exists_run_close (sink : Sink (StateM σ) κ ω)
    (hobeys : Obeys outside sink.coordinator.store) (hopen : gated.isOpen = sink.isOpen)
    (hempty : gated.Empty) (caller : Nat) (world : σ) :
    let ended := sink.close gated.shared.cache world
    ∃ events after, Run outside gated (events ++ [.reported caller ended.1.1.1]) after ∧
      after.Empty ∧ after.shared.cache = ended.1.2 ∧ after.isOpen = ended.1.1.2.isOpen := by
  cases hsink : sink.isOpen with
  | false =>
      obtain ⟨hvisits, hidle, hfree, hgate⟩ := hempty
      have hnothing : Run outside gated [] gated := .nil
      have hlocked := hnothing.step (@Step.lock _ _ _ caller hvisits hgate)
      have hreported := hlocked.step (@Step.report _ _ _ caller .late (by simp [hopen, hsink]))
      have hclose : sink.close gated.shared.cache world =
          (((.late, sink), gated.shared.cache), world) := by
        rw [Sink.close, hsink]
        rfl
      rw [hclose]
      exact ⟨_, _, hreported, ⟨hvisits, hidle, hfree, rfl⟩, rfl, hsink.symm⟩
  | true =>
      obtain ⟨between, hrun, hclearing, hcache, hclosed⟩ :=
        hempty.clear outside (hopen.trans hsink) caller
      obtain ⟨events, cleared, hmore, hcleared, hsame, hstill⟩ :=
        exists_run_release hobeys hclearing world
      rw [hcache] at hcleared hsame
      obtain ⟨after, hlast, hdone, hkept, hlate⟩ := hcleared.settle outside
        (sink.coordinator.store.closeSource
          (sink.coordinator.store.release gated.shared.cache.invalidate.1
            gated.shared.cache.invalidate.2 world).2).1
      have hall := (hrun.append hmore).append hlast
      rw [Nat.zero_add, ← List.append_assoc] at hall
      rw [close_of_open hsink]
      exact ⟨_, after, hall, hdone, hkept.trans hsame, hlate.trans (hstill.trans hclosed)⟩

end

end GatedSink

end TableRouting

import TableRouting.Proofs.Cache.Detachment
import TableRouting.Proofs.Sink.Gate

/-!
# The end of a sink

However batches and calls that close a sink are mixed, one such call finds it open.  When
it gets the gate no batch is in progress, so what it takes out of the cache is all that is
open, and nothing is built or used after it.  It closes these writers and then the source,
and whoever comes later is turned away.
-/

namespace TableRouting

variable {ω : Type}

namespace SinkEvent

def isSourceClosed : SinkEvent ω → Bool
  | sourceClosed _ _ => true
  | _ => false

/-- A call reports that it has closed the sink. -/
def isFirstReport : SinkEvent ω → Bool
  | reported _ report => !report.alreadyClosed
  | _ => false

/-- What may still happen to a sink that was closed. -/
inductive Late : SinkEvent ω → Prop
  | ticked (now : Nat) : Late (.cached (.ticked now))
  | entered (caller : Nat) : Late (.entered caller false)
  | returned (caller : Nat) : Late (.returned caller (.error .closed))
  | locked (caller : Nat) : Late (.locked caller)
  | reported (caller : Nat) : Late (.reported caller .late)

end SinkEvent

/-- How many handles a caller that empties the cache is still to close, the one that it is
closing included. -/
def Activity.left? : Activity ω → Option Nat
  | idle => some 0
  | releasing handles (.answer none) => some handles.length
  | closing _ handles (.answer none) => some (handles.length + 1)
  | _ => none

theorem Activity.answer_of_left? {handles : List Nat} {errand : Errand} {left : Nat}
    (hleft : (releasing handles errand : Activity ω).left? = some left) :
    errand = .answer none ∧ left = handles.length := by
  cases errand with
  | build table flight => simp [left?] at hleft
  | answer answer =>
      cases answer with
      | none => exact ⟨rfl, (Option.some.inj hleft).symm⟩
      | some answer => simp [left?] at hleft

theorem Activity.answer_of_left?_closing {handle : Nat} {rest : List Nat} {errand : Errand}
    {left : Nat} (hleft : (closing handle rest errand : Activity ω).left? = some left) :
    errand = .answer none ∧ left = rest.length + 1 := by
  cases errand with
  | build table flight => simp [left?] at hleft
  | answer answer =>
      cases answer with
      | none => exact ⟨rfl, (Option.some.inj hleft).symm⟩
      | some answer => simp [left?] at hleft

namespace GatedSink

/-- A caller has got the gate of an open sink, which was like this then. -/
def Taken (outside : Outside ω) (first : GatedSink ω) (events : List (SinkEvent ω)) (caller : Nat)
    (taken : GatedSink ω) (later : List (SinkEvent ω)) : Prop :=
  ∃ earlier, events = earlier ++ .locked caller :: later ∧ Run outside first earlier taken ∧
    taken.isOpen = true

/-- What a call reports that has closed the sink: how many writers were cached when it got the
gate, and whether the source could be closed. -/
def Tells (outside : Outside ω) (first : GatedSink ω) (events : List (SinkEvent ω)) (caller : Nat)
    (report : CloseReport) : Prop :=
  ∃ taken later result, Taken outside first events caller taken later ∧
    .sourceClosed caller result ∈ later ∧ report = .ofRelease taken.shared.cache.size result

variable {outside : Outside ω} {first gated after taken : GatedSink ω}
  {events before later : List (SinkEvent ω)} {event : SinkEvent ω} {limits : CacheLimits}
  {caller : Nat} {report : CloseReport}

theorem Taken.concat (htaken : Taken outside first events caller taken later)
    (event : SinkEvent ω) :
    Taken outside first (events ++ [event]) caller taken (later ++ [event]) := by
  obtain ⟨earlier, rfl, hrun, hopen⟩ := htaken
  exact ⟨earlier, by simp, hrun, hopen⟩

theorem Tells.concat (htells : Tells outside first events caller report) (event : SinkEvent ω) :
    Tells outside first (events ++ [event]) caller report := by
  obtain ⟨taken, later, result, htaken, hsource, hreport⟩ := htells
  exact ⟨taken, _, result, htaken.concat event, List.mem_append_left _ hsource, hreport⟩

/-- What a sink is in the middle of. -/
inductive Situation (outside : Outside ω) (first : GatedSink ω) (events : List (SinkEvent ω))
    (gated : GatedSink ω) : Prop
  | serving (hopen : gated.isOpen = true) (hgate : gated.closer = none)
      (hvisits : ∀ caller, gated.visits caller ≠ .refused)
      (hidle : ∀ caller, gated.visits caller = .away → gated.shared.callers caller = .idle)
  | emptying {closer : Nat} {taken : GatedSink ω} {later : List (SinkEvent ω)}
      (hclosed : gated.isOpen = false) (hgate : gated.closer = some (closer, .emptying))
      (hvisits : ∀ caller, gated.visits caller = .away)
      (hidle : ∀ caller, gated.shared.callers caller = .idle)
      (htaken : Taken outside first events closer taken later)
      (hcache : gated.shared.cache = taken.shared.cache)
  | releasing {closer released left : Nat} {taken : GatedSink ω} {later : List (SinkEvent ω)}
      (hclosed : gated.isOpen = false) (hgate : gated.closer = some (closer, .releasing released))
      (hvisits : ∀ caller, gated.visits caller = .away)
      (hidle : ∀ caller, caller ≠ closer → gated.shared.callers caller = .idle)
      (hempty : gated.shared.cache.contents.cached = [])
      (htaken : Taken outside first events closer taken later)
      (hleft : (gated.shared.callers closer).left? = some left)
      (hcount : taken.shared.cache.size = released + left)
  | reporting {closer : Nat} {report : CloseReport} (hclosed : gated.isOpen = false)
      (hgate : gated.closer = some (closer, .reporting report))
      (hvisits : ∀ caller, gated.visits caller = .away)
      (hidle : ∀ caller, gated.shared.callers caller = .idle)
      (hempty : gated.shared.cache.contents.cached = [])
      (hreport : report = .late ∨ Tells outside first events closer report)
  | ended (hclosed : gated.isOpen = false) (hgate : gated.closer = none)
      (hvisits : ∀ caller, gated.visits caller ≠ .admitted)
      (hidle : ∀ caller, gated.shared.callers caller = .idle)
      (hempty : gated.shared.cache.contents.cached = [])

/-- A caller that empties the cache closes what it took out, and nothing else happens to the
cache. -/
theorem left?_step {limits : CacheLimits} {calls : List (CallEvent ω)} {shared next : SharedCache ω}
    {call : CallEvent ω} {left : Nat} (haccounted : SharedCache.Accounted limits calls shared)
    (hstep : SharedCache.Step outside shared call next) (hcaller : call.caller? = some caller)
    (hbusy : shared.callers caller ≠ .idle) (hleft : (shared.callers caller).left? = some left) :
    next.cache.contents.cached = shared.cache.contents.cached ∧
      ∃ rest, (next.callers caller).left? = some rest ∧ left = call.closes + rest := by
  cases hstep with
  | tick hnow => simp [CallEvent.caller?] at hcaller
  | beginClose hreleasing hfree hbegin =>
      rename_i id rest errand writer cache
      obtain rfl := Option.some.inj hcaller
      obtain ⟨handle, -, -, rfl⟩ := WriterCache.beginClose_some hbegin
      rw [hreleasing] at hleft
      obtain ⟨rfl, rfl⟩ := Activity.answer_of_left? hleft
      refine ⟨?_, rest.length + 1, ?_, ?_⟩
      · simp [WriterCache.contents_modifyHandle]
      · simp [Activity.left?]
      · simp [CallEvent.closes]
  | endClose hclosing hhandle hcloses =>
      rename_i id rest errand handle writer result
      obtain rfl := Option.some.inj hcaller
      rw [hclosing] at hleft
      obtain ⟨rfl, rfl⟩ := Activity.answer_of_left?_closing hleft
      refine ⟨?_, rest.length, ?_, ?_⟩
      · simp [WriterCache.contents_modifyHandle]
      · simp [Activity.left?]
      · simp [CallEvent.closes, Nat.add_comm]
  | skip hreleasing hfree hbegin =>
      -- What a caller is to close is open.
      rename_i who id rest errand cache
      obtain rfl := Option.some.inj hcaller
      obtain ⟨-, hclosed⟩ := WriterCache.beginClose_none hbegin
      have hid : id ∈ (shared.callers who).queue := by
        rw [hreleasing]
        exact List.mem_cons_self
      have hopen := haccounted.custody.queued hid
      obtain ⟨handle, hhandle, hstill⟩ := Option.map_eq_some_iff.mp hopen
      simp [hclosed handle hhandle] at hstill
  | answer hreleasing =>
      obtain rfl := Option.some.inj hcaller
      rw [hreleasing] at hleft
      obtain ⟨hnone, rfl⟩ := Activity.answer_of_left? hleft
      obtain rfl := Errand.answer.inj hnone
      exact ⟨rfl, 0, by simp [Activity.left?], rfl⟩
  | look hother | receive hother | call hother | deliver hother | finish hother
  | abandon hother | publish hother | sweep hother | invalidate hother | enter hother
  | refuse hother | leave hother | peek hother =>
      obtain rfl := Option.some.inj hcaller
      simp_all [Activity.left?]

namespace Situation

variable (hsituation : Situation outside first events gated)

include hsituation

/-- While somebody is in a batch that was let in, the sink is open. -/
theorem of_admitted (hvisit : gated.visits caller = .admitted) :
    gated.isOpen = true ∧ gated.closer = none ∧ (∀ other, gated.visits other ≠ .refused) ∧
      ∀ other, gated.visits other = .away → gated.shared.callers other = .idle := by
  cases hsituation with
  | serving hopen hgate hvisits hidle => exact ⟨hopen, hgate, hvisits, hidle⟩
  | ended hclosed hgate hvisits => exact absurd hvisit (hvisits caller)
  | emptying hclosed hgate hvisits | releasing hclosed hgate hvisits
  | reporting hclosed hgate hvisits => simp [hvisits caller] at hvisit

theorem enter (hgate : gated.closer = none) :
    Situation outside first (events ++ [.entered caller gated.isOpen])
      (gated.visit caller (if gated.isOpen then .admitted else .refused)) := by
  cases hsituation with
  | serving hopen hgate hvisits hidle =>
      rw [hopen]
      exact .serving hopen hgate (ne_visit (by simp) hvisits caller)
        (idle_of_away_visit (by simp) hidle)
  | ended hclosed hgate hvisits hidle hempty =>
      rw [hclosed]
      exact .ended hclosed hgate (ne_visit (by simp) hvisits caller) hidle hempty
  | emptying hclosed htaken | releasing hclosed htaken | reporting hclosed htaken =>
      simp [hgate] at htaken

/-- A batch that was let in comes to its end. -/
theorem leave (hvisit : gated.visits caller = .admitted)
    (hidle : gated.shared.callers caller = .idle) (event : SinkEvent ω) :
    Situation outside first (events ++ [event]) (gated.visit caller .away) := by
  obtain ⟨hopen, hgate, hvisits, haway⟩ := hsituation.of_admitted hvisit
  exact .serving hopen hgate (ne_visit (by simp) hvisits caller)
    (idle_of_away_visit (fun _ => hidle) haway)

theorem turnAway (hvisit : gated.visits caller = .refused) :
    Situation outside first (events ++ [.returned caller (.error .closed)])
      (gated.visit caller .away) := by
  cases hsituation with
  | serving hopen hgate hvisits => exact absurd hvisit (hvisits caller)
  | ended hclosed hgate hvisits hidle hempty =>
      exact .ended hclosed hgate (ne_visit (by simp) hvisits caller) hidle hempty
  | emptying hclosed hgate hvisits | releasing hclosed hgate hvisits
  | reporting hclosed hgate hvisits => simp [hvisits caller] at hvisit

/-- The first to get the gate alone finds the cache as the batches have left it. -/
theorem lock (hrun : Run outside first events gated) (haway : ∀ other, gated.visits other = .away)
    (hgate : gated.closer = none) :
    Situation outside first (events ++ [.locked caller])
      { gated with
        isOpen := false
        closer := some (caller, if gated.isOpen then .emptying else .reporting .late) } := by
  cases hsituation with
  | serving hopen hgate hvisits hidle =>
      rw [hopen]
      exact .emptying rfl rfl haway (fun other => hidle other (haway other))
        ⟨events, rfl, hrun, hopen⟩ rfl
  | ended hclosed hgate hvisits hidle hempty =>
      rw [hclosed]
      exact .reporting rfl rfl haway hidle hempty (.inl rfl)
  | emptying hclosed htaken | releasing hclosed htaken | reporting hclosed htaken =>
      simp [hgate] at htaken

theorem empty (haccounted : SharedCache.Accounted limits (cacheEvents events) gated.shared)
    (hgate : gated.closer = some (caller, .emptying)) :
    Situation outside first
      (events ++ [.cached (.invalidated caller gated.shared.cache.invalidate.1)])
      { gated with
        shared := gated.shared.put caller
          (.releasing gated.shared.cache.invalidate.1 (.answer none))
          gated.shared.cache.invalidate.2
        closer := some (caller, .releasing 0) } := by
  cases hsituation with
  | emptying hclosed hgate' hvisits hidle htaken hcache =>
      rename_i closer taken later
      obtain rfl : caller = closer := by simpa using hgate.symm.trans hgate'
      have hcount : taken.shared.cache.size = 0 + gated.shared.cache.invalidate.1.length := by
        rw [← hcache, haccounted.sound.linked.size_eq, WriterCache.invalidate_fst, Nat.zero_add]
      refine .releasing hclosed rfl hvisits ?_ ?_ (htaken.concat _) ?_ hcount
      · intro other hother
        rw [SharedCache.callers_put_of_ne hother]
        exact hidle other
      · rw [SharedCache.cache_put, WriterCache.contents_invalidate]
        rfl
      · rw [SharedCache.callers_put_self]
        rfl
  | serving _ hnone | ended _ hnone => simp [hgate] at hnone
  | releasing _ hother | reporting _ hother => simp [hgate] at hother

theorem release (haccounted : SharedCache.Accounted limits (cacheEvents events) gated.shared)
    {released : Nat} {call : CallEvent ω} {shared : SharedCache ω}
    (hgate : gated.closer = some (caller, .releasing released))
    (hbusy : gated.shared.callers caller ≠ .idle) (hcaller : call.caller? = some caller)
    (hstep : SharedCache.Step outside gated.shared call shared) :
    Situation outside first (events ++ [.cached call])
      { gated with shared, closer := some (caller, .releasing (released + call.closes)) } := by
  cases hsituation with
  | releasing hclosed hgate' hvisits hidle hempty htaken hleft hcount =>
      rename_i closer before left taken later
      obtain ⟨rfl, rfl⟩ : caller = closer ∧ released = before := by
        simpa using hgate.symm.trans hgate'
      obtain ⟨hcached, rest, hrest, rfl⟩ := left?_step haccounted hstep hcaller hbusy hleft
      refine .releasing hclosed rfl hvisits ?_ (hcached.trans hempty) (htaken.concat _) hrest ?_
      · intro other hother
        have hmine : call.caller? ≠ some other := by
          rw [hcaller]
          exact fun hsame => hother (Option.some.inj hsame).symm
        rw [hstep.callers_eq hmine]
        exact hidle other hother
      · rw [hcount, Nat.add_assoc]
  | serving _ hnone | ended _ hnone => simp [hgate] at hnone
  | emptying _ hother | reporting _ hother => simp [hgate] at hother

theorem closeSource {released : Nat} (hgate : gated.closer = some (caller, .releasing released))
    (hdone : gated.shared.callers caller = .idle) (result : Except StoreError Unit) :
    Situation outside first (events ++ [.sourceClosed caller result])
      { gated with closer := some (caller, .reporting (.ofRelease released result)) } := by
  cases hsituation with
  | releasing hclosed hgate' hvisits hidle hempty htaken hleft hcount =>
      rename_i closer before left taken later
      obtain ⟨rfl, rfl⟩ : caller = closer ∧ released = before := by
        simpa using hgate.symm.trans hgate'
      rw [hdone] at hleft
      obtain rfl := Option.some.inj hleft
      refine .reporting hclosed rfl hvisits ?_ hempty (.inr ?_)
      · intro other
        by_cases hother : other = caller
        · rw [hother, hdone]
        · exact hidle other hother
      · exact ⟨taken, _, result, htaken.concat _, List.mem_append_right _ List.mem_cons_self,
          by rw [hcount, Nat.add_zero]⟩
  | serving _ hnone | ended _ hnone => simp [hgate] at hnone
  | emptying _ hother | reporting _ hother => simp [hgate] at hother

theorem of_reporting (hgate : gated.closer = some (caller, .reporting report)) :
    gated.isOpen = false ∧ (∀ other, gated.visits other = .away) ∧
      (∀ other, gated.shared.callers other = .idle) ∧ gated.shared.cache.contents.cached = [] ∧
      (report = .late ∨ Tells outside first events caller report) := by
  cases hsituation with
  | reporting hclosed hgate' hvisits hidle hempty hreport =>
      rename_i closer own
      obtain ⟨rfl, rfl⟩ : caller = closer ∧ report = own := by
        simpa using hgate.symm.trans hgate'
      exact ⟨hclosed, hvisits, hidle, hempty, hreport⟩
  | serving _ hnone | ended _ hnone => simp [hgate] at hnone
  | emptying _ hother | releasing _ hother => simp [hgate] at hother

/-- Every step leads from one situation to one. -/
theorem step (haccounted : SharedCache.Accounted limits (cacheEvents events) gated.shared)
    (hrun : Run outside first events gated) (hstep : Step outside gated event after) :
    Situation outside first (events ++ [event]) after := by
  cases hstep with
  | tick hnow =>
      cases hsituation with
      | serving hopen hgate hvisits hidle => exact .serving hopen hgate hvisits hidle
      | emptying hclosed hgate hvisits hidle htaken hcache =>
          exact .emptying hclosed hgate hvisits hidle (htaken.concat _) hcache
      | releasing hclosed hgate hvisits hidle hempty htaken hleft hcount =>
          exact .releasing hclosed hgate hvisits hidle hempty (htaken.concat _) hleft hcount
      | reporting hclosed hgate hvisits hidle hempty hreport =>
          exact .reporting hclosed hgate hvisits hidle hempty
            (hreport.imp_right fun htells => htells.concat _)
      | ended hclosed hgate hvisits hidle hempty => exact .ended hclosed hgate hvisits hidle hempty
  | enter haway hgate => exact hsituation.enter hgate
  | work hvisit hcaller hstep =>
      obtain ⟨hopen, hgate, hvisits, hidle⟩ := hsituation.of_admitted hvisit
      refine .serving hopen hgate hvisits fun other haway => ?_
      rw [hstep.callers_eq]
      · exact hidle other haway
      · rw [hcaller]
        rintro ⟨⟩
        simp [hvisit] at haway
  | act hvisit hbooks =>
      obtain ⟨hopen, hgate, hvisits, hidle⟩ := hsituation.of_admitted hvisit
      exact .serving hopen hgate hvisits hidle
  | leave hvisit hidle => exact hsituation.leave hvisit hidle _
  | breakOff hvisit hidle => exact hsituation.leave hvisit hidle _
  | turnAway hvisit => exact hsituation.turnAway hvisit
  | lock haway hgate => exact hsituation.lock hrun haway hgate
  | empty hgate hstep =>
      cases hstep
      exact hsituation.empty haccounted hgate
  | release hgate hbusy hcaller hstep =>
      exact hsituation.release haccounted hgate hbusy hcaller hstep
  | closeSource hgate hdone => exact hsituation.closeSource hgate hdone _
  | report hgate =>
      obtain ⟨hclosed, hvisits, hidle, hempty, -⟩ := hsituation.of_reporting hgate
      exact .ended hclosed rfl (fun other => by simp [hvisits other]) hidle hempty

/-- Who has the gate alone has closed the sink. -/
theorem closed_of_gate (hgate : gated.closer ≠ none) : gated.isOpen = false := by
  cases hsituation with
  | serving _ hnone | ended _ hnone => exact absurd hnone hgate
  | emptying hclosed | releasing hclosed | reporting hclosed => exact hclosed

end Situation

/-- A run from an open sink is orderly. -/
theorem Run.orderly {clock : Nat} {books : Books}
    (hrun : Run outside (start limits clock books) events gated) :
    SharedCache.Accounted limits (cacheEvents events) gated.shared ∧
      Situation outside (start limits clock books) events gated := by
  refine ⟨hrun.shared.accounted, ?_⟩
  induction hrun with
  | nil => exact .serving rfl rfl (fun _ => by simp [start]) fun _ _ => rfl
  | step hrun hstep ih => exact ih.step hrun.shared.accounted hrun hstep

/-- How often the source has been closed by now, and how often a call has reported that it
closed the sink. -/
def tally (gated : GatedSink ω) : Nat × Nat :=
  match gated.isOpen, gated.closer with
  | false, some (_, .reporting report) => (1, if report.alreadyClosed then 1 else 0)
  | false, none => (1, 1)
  | _, _ => (0, 0)

theorem tally_le (gated : GatedSink ω) : gated.tally.1 ≤ 1 ∧ gated.tally.2 ≤ 1 := by
  rw [tally]
  split
  · refine ⟨Nat.le_refl 1, ?_⟩
    simp only
    split <;> simp
  · exact ⟨Nat.le_refl 1, Nat.le_refl 1⟩
  · exact ⟨Nat.zero_le 1, Nat.zero_le 1⟩

theorem Step.tally (hsituation : Situation outside first events gated)
    (hstep : Step outside gated event after) :
    after.tally.1 = gated.tally.1 + event.isSourceClosed.toNat ∧
      after.tally.2 = gated.tally.2 + event.isFirstReport.toNat := by
  cases hstep with
  | lock haway hgate =>
      cases hopen : gated.isOpen <;> simp [GatedSink.tally, hopen, hgate, SinkEvent.isSourceClosed,
        SinkEvent.isFirstReport]
  | closeSource hgate hdone =>
      have hclosed := hsituation.closed_of_gate (by simp [hgate])
      simp [GatedSink.tally, hclosed, hgate, SinkEvent.isSourceClosed, SinkEvent.isFirstReport]
  | report hgate =>
      have hclosed := hsituation.closed_of_gate (by simp [hgate])
      rename_i caller report
      cases hlate : report.alreadyClosed <;> simp [GatedSink.tally, hclosed, hgate, hlate,
        SinkEvent.isSourceClosed, SinkEvent.isFirstReport]
  | empty hgate hstep | release hgate hbusy hcaller hstep =>
      have hclosed := hsituation.closed_of_gate (by simp [hgate])
      simp [GatedSink.tally, hclosed, hgate, SinkEvent.isSourceClosed, SinkEvent.isFirstReport]
  | tick | enter | work | act | leave | breakOff | turnAway => exact ⟨rfl, rfl⟩

/-- The source is closed as often as the sink says. -/
theorem Run.tally {clock : Nat} {books : Books}
    (hrun : Run outside (start limits clock books) events gated) :
    events.countP SinkEvent.isSourceClosed = gated.tally.1 ∧
      events.countP SinkEvent.isFirstReport = gated.tally.2 := by
  induction hrun with
  | nil => exact ⟨rfl, rfl⟩
  | step hrun hstep ih =>
      rename_i event gated after
      obtain ⟨hsource, hfirst⟩ := hstep.tally hrun.orderly.2
      rw [List.countP_append, List.countP_append, ih.1, ih.2, hsource, hfirst]
      constructor
      · cases hevent : event.isSourceClosed <;> simp [hevent]
      · cases hevent : event.isFirstReport <;> simp [hevent]

/-- A sink that was closed, and the source with it. -/
structure Over (gated : GatedSink ω) : Prop where
  closed : gated.isOpen = false
  gate : gated.closer = none ∨ ∃ caller, gated.closer = some (caller, .reporting .late)
  visits : ∀ caller, gated.visits caller ≠ .admitted

namespace Over

theorem tally (hover : Over gated) : gated.tally = (1, 1) := by
  obtain ⟨hclosed, hnone | ⟨caller, hlate⟩, -⟩ := hover
  · simp [GatedSink.tally, hclosed, hnone]
  · simp [GatedSink.tally, hclosed, hlate]

/-- Nothing changes any more. -/
theorem step (hover : Over gated) (hstep : Step outside gated event after) :
    event.Late ∧ Over after ∧ after.shared.cache = gated.shared.cache ∧
      after.books = gated.books := by
  obtain ⟨hclosed, hgate, hvisits⟩ := hover
  cases hstep with
  | tick hnow => exact ⟨.ticked _, ⟨hclosed, hgate, hvisits⟩, rfl, rfl⟩
  | enter haway hnone =>
      rw [hclosed]
      exact ⟨.entered _, ⟨hclosed, hgate, ne_visit (by simp) hvisits _⟩, rfl, rfl⟩
  | turnAway hvisit =>
      exact ⟨.returned _, ⟨hclosed, hgate, ne_visit (by simp) hvisits _⟩, rfl, rfl⟩
  | lock haway hnone =>
      rw [hclosed]
      exact ⟨.locked _, ⟨rfl, .inr ⟨_, rfl⟩, hvisits⟩, rfl, rfl⟩
  | report hreport =>
      rcases hgate with hnone | ⟨caller, hlate⟩
      · simp [hreport] at hnone
      · obtain ⟨rfl, rfl⟩ : _ = caller ∧ _ = CloseReport.late := by
          simpa using hreport.symm.trans hlate
        exact ⟨.reported _, ⟨hclosed, .inl rfl, hvisits⟩, rfl, rfl⟩
  | work hvisit | act hvisit | leave hvisit | breakOff hvisit => exact absurd hvisit (hvisits _)
  | empty hother | release hother | closeSource hother =>
      rcases hgate with hnone | ⟨caller, hlate⟩
      · simp [hother] at hnone
      · simp [hother] at hlate

theorem run (hover : Over gated) (hrun : Run outside gated events after) :
    (∀ event ∈ events, event.Late) ∧ Over after ∧ after.shared.cache = gated.shared.cache ∧
      after.books = gated.books := by
  induction hrun with
  | nil => exact ⟨by simp, hover, rfl, rfl⟩
  | step hrun hstep ih =>
      obtain ⟨hevents, hbetween, hcache, hbooks⟩ := ih
      obtain ⟨hevent, hafter, hsame, hkept⟩ := hbetween.step hstep
      refine ⟨?_, hafter, hsame.trans hcache, hkept.trans hbooks⟩
      exact List.forall_mem_append.mpr ⟨hevents, List.forall_mem_singleton.mpr hevent⟩

end Over

theorem Situation.settled_of_over (hsituation : Situation outside first events gated)
    (hover : Over gated) :
    (∀ caller, gated.shared.callers caller = .idle) ∧
      gated.shared.cache.contents.cached = [] := by
  cases hsituation with
  | serving hopen => simp [hover.closed] at hopen
  | reporting _ _ _ hidle hempty | ended _ _ _ hidle hempty => exact ⟨hidle, hempty⟩
  | emptying _ hgate | releasing _ hgate =>
      rcases hover.gate with hnone | ⟨caller, hlate⟩
      · simp [hgate] at hnone
      · simp [hgate] at hlate

/-- When nobody is in the middle of anything and nothing is cached, every writer that was built
has been closed once. -/
theorem closed_of_settled
    (haccounted : SharedCache.Accounted limits (cacheEvents events) gated.shared)
    (hidle : ∀ caller, gated.shared.callers caller = .idle)
    (hempty : gated.shared.cache.contents.cached = []) {flight : Nat}
    (hbuilt : Built (cacheEvents events) flight) :
    ∃ id, Numbered (cacheEvents events) flight id ∧
      SharedCache.closings (cacheEvents events) id = 1 := by
  obtain ⟨id, hnumbered, ⟨hcached, -⟩ | ⟨-, honce⟩⟩ := haccounted.settled hidle hbuilt
  · simp [hempty] at hcached
  · exact ⟨id, hnumbered, honce⟩

/-- What it means that a sink is torn down once, when this has happened to it. -/
structure TornDown (outside : Outside ω) (first : GatedSink ω) (events : List (SinkEvent ω))
    (gated : GatedSink ω) : Prop where
  /-- One call reports that it has closed the sink, and any call that has returned comes to that. -/
  single : events.countP SinkEvent.isFirstReport ≤ 1 ∧
    ∀ caller report, .reported caller report ∈ events →
      events.countP SinkEvent.isFirstReport = 1
  source : events.countP SinkEvent.isSourceClosed ≤ 1 ∧
    ∀ caller report, .reported caller report ∈ events →
      events.countP SinkEvent.isSourceClosed = 1
  /-- When the source is closed nobody is in a batch, no call of the cache is in progress, nothing
  is cached, and every writer that was built has been closed. -/
  ordered : ∀ before caller result rest, events = before ++ .sourceClosed caller result :: rest →
    ∃ earlier, Run outside first before earlier ∧
      (∀ other, earlier.visits other = .away) ∧
      (∀ other, earlier.shared.callers other = .idle) ∧ earlier.shared.cache.size = 0 ∧
      ∀ flight, Built (cacheEvents before) flight →
        ∃ id, Numbered (cacheEvents before) flight id ∧
          SharedCache.closings (cacheEvents before) id = 1
  /-- A call that has closed the sink tells how many writers were cached when it got the gate; any
  other one found the sink closed. -/
  told : ∀ before caller report rest, events = before ++ .reported caller report :: rest →
    report = .late ∨ Tells outside first before caller report
  /-- Once a call has returned, every writer that was ever built has been closed once. -/
  complete : ∀ caller report, .reported caller report ∈ events →
    ∀ flight, Built (cacheEvents events) flight →
      ∃ id, Numbered (cacheEvents events) flight id ∧
        SharedCache.closings (cacheEvents events) id = 1
  /-- After that a batch that passes the gate is turned away, and neither the cache nor the metrics
  change. -/
  lasting : ∀ before caller report rest, events = before ++ .reported caller report :: rest →
    (∀ event ∈ rest, event.Late) ∧
      ∃ returned, Run outside first (before ++ [.reported caller report]) returned ∧
        gated.shared.cache = returned.shared.cache ∧ gated.books = returned.books
  /-- Turning a batch away takes no effect of the outside. -/
  turnsAway : ∀ {m : Type → Type} [Monad m] {κ : Type} (sink : Sink m κ ω) (batch : List Record),
    sink.isOpen = false → sink.writeBatch batch = pure (.error .closed, sink)

section

variable {clock : Nat} {books : Books}

/-- Whoever reports leaves a sink that was closed. -/
theorem over_of_reported (hsituation : Situation outside first events gated)
    (hstep : Step outside gated (.reported caller report) after) : Over after := by
  cases hstep with
  | report hgate =>
      obtain ⟨hclosed, hvisits, -⟩ := hsituation.of_reporting hgate
      exact ⟨hclosed, .inl rfl, fun other => by simp [hvisits other]⟩

theorem Run.over (hrun : Run outside (start limits clock books) events gated)
    (hreported : .reported caller report ∈ events) : Over gated := by
  obtain ⟨before, rest, rfl⟩ := List.append_of_mem hreported
  obtain ⟨earlier, later, hbefore, hstep, hrest⟩ := hrun.split
  exact ((over_of_reported hbefore.orderly.2 hstep).run hrest).2.1

/-- The first writer of a cache is built, and nobody is in the middle of anything. -/
theorem exists_run_first (limits : CacheLimits) (clock : Nat) :
    ∃ (calls : List (CallEvent Unit)) (shared : SharedCache Unit),
      SharedCache.Run ⟨fun _ _ => True, fun _ _ => True, fun _ _ => True⟩ (.start limits clock)
          calls shared ∧
        (∀ call ∈ calls, call.caller? = some 0) ∧ Built calls 0 ∧
        (∀ caller, shared.callers caller = .idle) ∧ (∀ id, shared.locks id = none) ∧
        shared.cache.invalidate.1 = [1] ∧
        shared.cache.contents.handle? 1 = some { table := "orders", writer := () } := by
  let outside : Outside Unit := ⟨fun _ _ => True, fun _ _ => True, fun _ _ => True⟩
  let empty : SharedCache Unit := .start limits clock
  have hlooked := SharedCache.Run.nil.step (@SharedCache.Step.look_unmarked _ outside empty 0
    "orders" rfl (by simp [empty, SharedCache.start]))
  have hcalled := hlooked.step (@SharedCache.Step.call _ _ _ 0 "orders" 0 rfl)
  have hdelivered := hcalled.step (@SharedCache.Step.deliver _ _ _ 0 "orders" 0 (.built ()) rfl
    trivial)
  have hended := hdelivered.step (@SharedCache.Step.finish _ _ _ 0 "orders" 0 (.ok ()) _ _ _ rfl
    (WriterCache.finish_first (by simp [WriterCache.isCurrent, WriterCache.beginFlight,
      WriterCache.count, empty, SharedCache.start]) rfl () _))
  have hpublished := hended.step (@SharedCache.Step.publish _ _ _ 0 0 _ _ _ rfl)
  have hanswered := hpublished.step (@SharedCache.Step.answer _ _ _ 0 _ rfl)
  refine ⟨_, _, hanswered, by simp [CallEvent.caller?], ⟨0, "orders", (), by simp⟩, ?_,
    fun _ => rfl, rfl, rfl⟩
  intro caller
  by_cases hcaller : caller = 0 <;> simp [SharedCache.put, SharedCache.start, empty, hcaller]

end

end GatedSink

end TableRouting

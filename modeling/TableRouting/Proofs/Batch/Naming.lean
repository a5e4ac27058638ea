import TableRouting.Proofs.Batch.Running
import TableRouting.Proofs.Cache.Candor

/-!
# Lookups that fail name the table

A table may have no writer because the construction that its batch began has failed, or
because one did that somebody else had begun.  Either way the failure names the table that
was asked for, whatever else happens to the cache in the meantime.
-/

namespace TableRouting

variable {m : Type → Type} [Monad m] {σ κ ω α β : Type}

namespace Runner

variable {runner : Runner m σ} {x : CacheT ω m α}

/-- A computation that uses the cache no otherwise than its operations do. -/
def Carries (runner : Runner m σ) (x : CacheT ω m α) : Prop :=
  ∀ cache world, cache.Candid → runner.Ends cache world x fun _ after _ => cache.Continues after

theorem carries_pure (answer : α) : runner.Carries (pure answer : CacheT ω m α) :=
  fun cache _ _ => ends_pure (.refl cache)

theorem Carries.bind {f : α → CacheT ω m β} (hfirst : runner.Carries x)
    (hrest : ∀ answer, runner.Carries (f answer)) : runner.Carries (x >>= f) := by
  intro cache world hcandid
  apply (hfirst cache world hcandid).bind
  intro answer after later hafter
  apply (hrest answer after later (hafter.candid hcandid)).imp
  exact fun _ _ _ hlast => hafter.trans hlast

theorem carries_step {f : WriterCache ω → α × WriterCache ω}
    (hf : ∀ cache : WriterCache ω, cache.Continues (f cache).2) :
    runner.Carries (Workshop.step f : CacheT ω m α) :=
  fun cache _ _ => (ends_step f).imp fun _ _ _ hstep => hstep.2 ▸ hf cache

theorem carries_modify {f : WriterCache ω → WriterCache ω}
    (hf : ∀ cache : WriterCache ω, cache.Continues (f cache)) :
    runner.Carries (modify f : CacheT ω m PUnit) :=
  fun cache _ _ => (ends_modify f).imp fun _ _ _ hafter => hafter ▸ hf cache

theorem carries_getThe : runner.Carries (getThe (WriterCache ω) : CacheT ω m _) :=
  fun cache _ _ => ends_getThe.imp fun _ _ _ hsame => hsame.2 ▸ .refl cache

theorem carries_lift (x : m α) : runner.Carries (liftM x : CacheT ω m α) :=
  fun cache _ _ => (ends_lift x).imp fun _ _ _ hlifted => hlifted.2 ▸ .refl cache

end Runner

/-- A workshop that builds writers for the tables that it is asked for, and that uses the
cache no otherwise than the operations of the cache do. -/
structure Workshop.Upright (workshop : Workshop (CacheT ω m) ω) (runner : Runner m σ) :
    Prop where
  now : runner.Carries workshop.now
  /-- A refusal is about the table whose writer was to be built. -/
  create : ∀ table cache world, cache.Candid →
    runner.Ends cache world (workshop.create table) fun construction after _ =>
      cache.Continues after ∧ ∀ e, construction = .refused e → e.table = table
  close : ∀ writer, runner.Carries (workshop.close writer)

/-- The failure for which the records of a table are given up is about the table. -/
def Unavailable.Names (reason : Unavailable) (table : String) : Prop :=
  (Coordinator.constructionError table reason).table = table

/-- What a lookup of a table may come to: the cache goes on, and if there is no writer, then
because of a failure of that table. -/
structure Workshop.Answers (cache : WriterCache ω) (table : String)
    (answer : Except Unavailable Nat) (after : WriterCache ω) : Prop where
  continues : cache.Continues after
  names : ∀ reason, answer = .error reason → reason.Names table

namespace Workshop.Answers

variable {cache between after : WriterCache ω} {table : String}

theorem found (hcontinues : cache.Continues after) (handle : Nat) :
    Answers cache table (.ok handle) after :=
  ⟨hcontinues, by rintro _ ⟨⟩⟩

theorem failed (hcontinues : cache.Continues after) {reason : Unavailable}
    (hnames : reason.Names table) : Answers cache table (.error reason) after where
  continues := hcontinues
  names other hother := by
    rw [← Except.error.inj hother]
    exact hnames

/-- The answer of a flight, which may be shared, is as good as the failure that it met. -/
theorem of_flight (hcontinues : cache.Continues after) {outcome : FlightOutcome}
    (hnames : ∀ e, outcome = .error e → e.table = table) :
    Answers cache table (outcome.mapError .construction) after := by
  cases outcome with
  | ok handle => exact found hcontinues handle
  | error e => exact failed hcontinues (hnames e rfl)

theorem trans {answer : Except Unavailable Nat} (hbefore : cache.Continues between)
    (hanswers : Answers between table answer after) : Answers cache table answer after :=
  ⟨hbefore.trans hanswers.continues, hanswers.names⟩

end Workshop.Answers

section

variable {workshop : Workshop (CacheT ω m) ω} {runner : Runner m σ} {cache : WriterCache ω}
  {world : σ} (hupright : workshop.Upright runner)
include hupright

theorem carries_closeHandle (id : Nat) : runner.Carries (workshop.closeHandle id) := by
  rw [Workshop.closeHandle]
  apply (Runner.carries_step fun cache => (cache.sheds_beginClose id).continues).bind
  intro begun
  cases begun with
  | none => exact Runner.carries_pure _
  | some writer =>
      apply (hupright.close writer).bind
      intro closed
      apply (Runner.carries_modify fun cache => (cache.sheds_modifyHandle id _).continues).bind
      intro _
      cases closed.1 with
      | ok _ => exact Runner.carries_pure _
      | error e => exact Runner.carries_getThe.bind fun _ => Runner.carries_pure _

theorem carries_release (released : List Nat) : runner.Carries (workshop.release released) := by
  induction released with
  | nil => exact Runner.carries_pure _
  | cons id rest ih =>
      rw [Workshop.release]
      apply (carries_closeHandle hupright id).bind
      intro closed
      apply ih.bind
      intro more
      split <;> exact Runner.carries_pure _

/-- A flight ends with a writer, or with a failure of its table. -/
theorem ends_complete (hcandid : cache.Candid) {table : String} {flight : Nat}
    (howns : cache.Owns table flight)
    {built : Except ConstructionError ω} (hbuilt : ∀ e, built = .error e → e.table = table) :
    runner.Ends cache world (workshop.complete table flight built) fun answer after _ =>
      Workshop.Answers cache table answer after := by
  rw [Workshop.complete]
  apply (hupright.now cache world hcandid).bind
  intro now timed _ htimed
  apply (Runner.ends_step _).bind
  rintro ⟨outcome, released⟩ finished _ ⟨hended, rfl⟩
  have hfinished := htimed.trans (timed.sheds_finish table flight built now).continues
  have hnames (e : ConstructionError) (he : outcome = .error e) : e.table = table :=
    WriterCache.table_of_finish_error hbuilt ((Prod.mk.inj hended).1.symm.trans he)
  have hpublished := hfinished.trans ((howns.continues hfinished).continues_publish hnames)
  apply (Runner.ends_modify _).bind
  rintro _ published _ rfl
  apply (carries_release hupright released _ _ (hpublished.candid hcandid)).bind
  intro count after _ hafter
  exact Runner.ends_pure (.of_flight (hpublished.trans hafter) hnames)

omit hupright in
/-- A flight that breaks off ends with a failure of its table. -/
theorem ends_breakOff {table : String} {flight : Nat} (howns : cache.Owns table flight) :
    runner.Ends cache world
      (Workshop.breakOff (ω := ω) table flight : CacheT ω m (Except Unavailable Nat))
      fun answer after _ => Workshop.Answers cache table answer after := by
  rw [Workshop.breakOff]
  apply (Runner.ends_modify _).bind
  rintro _ abandoned _ rfl
  have habandoned := (cache.sheds_abandon table flight).continues
  apply (Runner.ends_modify _).bind
  rintro _ published _ rfl
  have hbroken (e : ConstructionError)
      (he : (.error (WriterCache.brokenError table) : FlightOutcome) = .error e) :
      e.table = table := by
    rw [← Except.error.inj he]
    rfl
  have hpublished := (howns.continues habandoned).continues_publish hbroken
  exact Runner.ends_pure (.failed (habandoned.trans hpublished) rfl)

/-- A lookup that gives no writer fails for the table that was looked up. -/
theorem ends_get (hcandid : cache.Candid) (table : String) :
    runner.Ends cache world (workshop.get table) fun answer after _ =>
      Workshop.Answers cache table answer after := by
  rw [Workshop.get]
  apply (hupright.now cache world hcandid).bind
  intro now timed _ htimed
  apply (Runner.ends_step _).bind
  rintro found looked _ ⟨hfound, hleft⟩
  have hfinds := timed.finds_lookup table now
  rw [← hfound, ← hleft] at hfinds
  have hlooked := htimed.trans hfinds.continues
  cases found with
  | hit handle => exact Runner.ends_pure (.found hlooked handle)
  | join flight =>
      obtain ⟨-, hnames⟩ := hlooked.candid hcandid table flight hfinds.awaits
      apply Runner.ends_getThe.bind
      rintro _ looked _ ⟨rfl, rfl⟩
      cases houtcome : looked.outcome? flight with
      | none => exact Runner.ends_pure (.failed hlooked rfl)
      | some outcome =>
          exact Runner.ends_pure (.of_flight hlooked fun e he => hnames e (he ▸ houtcome))
  | build flight expired =>
      -- No other table awaits the new flight, whatever the construction does with the cache.
      have howns := hfinds.owns (htimed.candid hcandid)
      apply (carries_release hupright expired.toList _ _ (hlooked.candid hcandid)).bind
      intro count released _ hreleased
      have hready := (hlooked.trans hreleased).candid hcandid
      apply (hupright.create table released _ hready).bind
      rintro construction created _ ⟨hcreated, hrefused⟩
      have hbegun := (hlooked.trans hreleased).trans hcreated
      have hbuilt := hbegun.candid hcandid
      have howned := (howns.continues hreleased).continues hcreated
      cases construction with
      | built writer =>
          apply (ends_complete hupright hbuilt howned (by rintro _ ⟨⟩)).imp
          exact fun _ _ _ => .trans hbegun
      | refused e =>
          have hnames (met : ConstructionError)
              (hmet : (Except.error e : Except ConstructionError ω) = .error met) :
              met.table = table := by
            rw [← Except.error.inj hmet]
            exact hrefused e rfl
          apply (ends_complete hupright hbuilt howned hnames).imp
          exact fun _ _ _ => .trans hbegun
      | panicked =>
          apply (ends_breakOff howned).imp
          exact fun _ _ _ => .trans hbegun

theorem carries_cleanUp : runner.Carries workshop.cleanUp := by
  rw [Workshop.cleanUp]
  apply hupright.now.bind
  intro now
  apply (Runner.carries_step fun cache => (cache.sheds_sweep now).continues).bind
  intro released
  exact (carries_release hupright released).bind fun _ => Runner.carries_pure _

theorem carries_maintain (cleaner : Cleaner) : runner.Carries (cleaner.maintain workshop) := by
  rw [Cleaner.maintain]
  apply hupright.now.bind
  intro now
  dsimp only
  split
  · exact (carries_cleanUp hupright).bind fun _ => Runner.carries_pure _
  · exact Runner.carries_pure _

end

theorem Runner.carries_withWriter {runner : Runner m σ} {use : ω → CacheT ω m (α × ω)}
    (huse : ∀ writer, runner.Carries (use writer)) (id : Nat) :
    runner.Carries (Workshop.withWriter id use) := by
  rw [Workshop.withWriter]
  apply carries_getThe.bind
  intro cache
  cases cache.handle? id with
  | none => exact carries_pure _
  | some handle =>
      dsimp only
      split
      · exact carries_pure _
      · apply (huse handle.writer).bind
        intro used
        apply (carries_modify fun cache => (cache.sheds_modifyHandle id _).continues).bind
        exact fun _ => carries_pure _

section

variable {coordinator : Coordinator m κ ω} {runner : Runner m σ} {cache : WriterCache ω}
  {world : σ} (hupright : coordinator.store.toWorkshop.Upright runner)
include hupright

theorem ends_writeOnce (hcandid : cache.Candid) (table : String) (records : List Record)
    (connection : κ) :
    runner.Ends cache world (coordinator.writeOnce table records connection)
      fun ended after _ => cache.Continues after ∧
        ∀ reason, ended.1 = .unavailable reason → reason.Names table := by
  rw [Coordinator.writeOnce]
  apply (ends_get hupright hcandid table).bind
  rintro found got _ ⟨hgot, hnames⟩
  cases found with
  | error reason =>
      apply Runner.ends_pure
      refine ⟨hgot, fun other hother => ?_⟩
      rw [← Coordinator.Attempt.unavailable.inj hother]
      exact hnames reason rfl
  | ok handle =>
      have huse (writer : ω) :
          runner.Carries (coordinator.useWriter records connection writer) := by
        rw [Coordinator.useWriter]
        exact (Runner.carries_lift _).bind fun _ => Runner.carries_pure _
      apply (Runner.carries_withWriter huse handle _ _ (hgot.candid hcandid)).bind
      intro used after _ hused
      cases used with
      | error closed => exact Runner.ends_pure ⟨hgot.trans hused, by rintro _ ⟨⟩⟩
      | ok written => exact Runner.ends_pure ⟨hgot.trans hused, by rintro _ ⟨⟩⟩

/-- If a table has no writer in the end, the failure is about the table. -/
theorem ends_writeGroup (hcandid : cache.Candid) (table : String) (records : List Record)
    (connection : κ) :
    runner.Ends cache world (coordinator.writeGroup table records connection)
      fun ended after _ => cache.Continues after ∧
        ∀ reason, ended.1 = .error reason → reason.Names table := by
  rw [Coordinator.writeGroup]
  apply Runner.Ends.bind_on (ends_writeOnce hupright hcandid table records connection)
  rintro ⟨tried, changed⟩ between _ ⟨hbetween, hnames⟩
  cases tried with
  | unavailable reason =>
      apply Runner.ends_pure
      refine ⟨hbetween, fun other hother => ?_⟩
      rw [← Except.error.inj hother]
      exact hnames reason rfl
  | answered answer => exact Runner.ends_pure ⟨hbetween, by rintro _ ⟨⟩⟩
  | refused closed =>
      apply Runner.Ends.bind_on
        (ends_writeOnce hupright (hbetween.candid hcandid) table records changed)
      rintro ⟨tried, last⟩ after _ ⟨hafter, hnames⟩
      have hagain := hbetween.trans hafter
      cases tried with
      | unavailable reason =>
          apply Runner.ends_pure
          refine ⟨hagain, fun other hother => ?_⟩
          rw [← Except.error.inj hother]
          exact hnames reason rfl
      | answered answer => exact Runner.ends_pure ⟨hagain, by rintro _ ⟨⟩⟩
      | refused again => exact Runner.ends_pure ⟨hagain, by rintro _ ⟨⟩⟩

end

end TableRouting

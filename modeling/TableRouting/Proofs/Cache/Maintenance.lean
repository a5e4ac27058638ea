import Mathlib.Data.List.Chain
import TableRouting.Cache.Cleaner
import TableRouting.Proofs.Cache.Refinement
import TableRouting.Proofs.Cache.Sharing

/-!
# How often a cache is swept

Callers of a shared cache ask for maintenance, at the same time as others and in any
order.  A caller is counted, and then the cleaner turns it away or grants it a sweep, in
one step that also reads the clock; a caller that was granted a sweep is counted as
such, sweeps the cache and closes what it took out.  Sweeps are granted an interval apart,
and none that is due is refused.
-/

namespace TableRouting

variable {ω : Type}

/-- The writer of a handle that left the cache is closed, or was. -/
def CallEvent.isClosing : CallEvent ω → Bool
  | closing _ _ => true
  | closed _ _ _ => true
  | skipped _ _ => true
  | _ => false

namespace SharedCache

variable {outside : Outside ω} {limits : CacheLimits} {shared after : SharedCache ω}

/-- The entries stay in the order of their times. -/
theorem Sound.inOrder_step (hsound : Sound limits shared)
    (horder : shared.cache.contents.InOrder shared.clock) {event : CallEvent ω}
    (hstep : Step outside shared event after) : after.cache.contents.InOrder after.clock := by
  have hsame {cache : WriterCache ω}
      (hentries : cache.contents.entries = shared.cache.contents.entries) :
      cache.contents.InOrder shared.clock := by
    apply horder.sublist (Nat.le_refl _)
    rw [hentries]
  have hmodify (id : Nat) (f : WriterHandle ω → WriterHandle ω) :
      (shared.cache.modifyHandle id f).contents.entries = shared.cache.contents.entries := by
    rw [WriterCache.contents_modifyHandle, CacheContents.entries_modifyHandle]
  cases hstep with
  | tick hnow => exact horder.sublist hnow (List.Sublist.refl _)
  | look hcaller => exact horder.looks (Nat.le_refl _) (hsound.looks _)
  | receive hcaller houtcome => exact horder
  | beginClose hcaller hfree hbegin =>
      obtain ⟨handle, -, -, rfl⟩ := WriterCache.beginClose_some hbegin
      exact hsame (hmodify _ _)
  | endClose hcaller hhandle hcloses => exact hsame (hmodify _ _)
  | skip hcaller hfree hbegin =>
      obtain ⟨rfl, -⟩ := WriterCache.beginClose_none hbegin
      exact horder
  | call hcaller => exact horder
  | deliver hcaller hbuilds => exact horder
  | finish hcaller hfinish => exact horder.finishes (Nat.le_refl _) (hsound.finishes hfinish)
  | abandon hcaller =>
      exact horder.finishes (Nat.le_refl _) (shared.cache.finishes_abandon _ _ shared.clock)
  | publish hcaller => exact hsame rfl
  | answer hcaller => exact horder
  | sweep hcaller =>
      apply horder.sublist (Nat.le_refl _)
      change List.Sublist (shared.cache.sweep shared.clock).2.contents.entries _
      rw [WriterCache.entries_sweep shared.clock hsound.linked horder.ordered]
      exact List.filter_sublist
  | invalidate hcaller =>
      apply horder.sublist (Nat.le_refl _)
      change List.Sublist shared.cache.invalidate.2.contents.entries _
      rw [WriterCache.contents_invalidate]
      exact List.nil_sublist _
  | enter hcaller hfree hhandle hopen => exact horder
  | refuse hcaller hfree hhandle hclosed => exact horder
  | leave hcaller hhandle huses => exact hsame (hmodify _ _)
  | peek hcaller => exact horder

/-- The entries of a cache that is shared are in the order of their times. -/
theorem Run.inOrder {clock : Nat} {events : List (CallEvent ω)}
    (hrun : Run outside (start limits clock) events shared) :
    shared.cache.contents.InOrder shared.clock := by
  induction hrun with
  | nil => exact ⟨List.Pairwise.nil, fun _ _ hitem => absurd hitem List.not_mem_nil⟩
  | step hrun hstep ih => exact ((Sound.start limits clock).run hrun).inOrder_step ih hstep

/-- The clock does not go back. -/
theorem Step.clock_le {event : CallEvent ω} (hstep : Step outside shared event after) :
    shared.clock ≤ after.clock := by
  cases hstep with
  | tick hnow => exact hnow
  | _ => exact Nat.le_refl _

/-- Who closes writers is in the middle of a call. -/
theorem Step.not_idle_of_isClosing {event : CallEvent ω} (hstep : Step outside shared event after)
    (hcloses : event.isClosing = true) {caller : Nat} (hcaller : event.caller? = some caller) :
    shared.callers caller ≠ .idle := by
  cases hstep with
  | beginClose hbusy hfree hbegin =>
      obtain rfl := Option.some.inj hcaller
      simp [hbusy]
  | endClose hbusy hhandle hclose =>
      obtain rfl := Option.some.inj hcaller
      simp [hbusy]
  | skip hbusy hfree hbegin =>
      obtain rfl := Option.some.inj hcaller
      simp [hbusy]
  | _ => exact absurd hcloses Bool.false_ne_true

end SharedCache

namespace Cleaner

def called (cleaner : Cleaner) : Cleaner := { cleaner with attempts := cleaner.attempts + 1 }

def isDue (cleaner : Cleaner) (now : Nat) : Bool :=
  decide (cleaner.interval ≤ now - cleaner.lastSweep)

def granted (cleaner : Cleaner) (now : Nat) : Cleaner := { cleaner with lastSweep := now }

def counted (cleaner : Cleaner) : Cleaner := { cleaner with sweeps := cleaner.sweeps + 1 }

/-- The parts of an attempt, put together. -/
theorem attempt_eq (cleaner : Cleaner) (now : Nat) :
    cleaner.attempt now =
      if cleaner.isDue now then (true, (cleaner.called.granted now).counted)
      else (false, cleaner.called) := by
  rw [attempt, isDue]
  by_cases hdue : cleaner.interval ≤ now - cleaner.lastSweep
  · rw [if_neg (Nat.not_lt.mpr hdue), if_pos (decide_eq_true hdue)]
    rfl
  · rw [if_pos (Nat.not_le.mp hdue), if_neg (by simpa using hdue)]
    rfl

end Cleaner

/-- How far a call for maintenance has come. -/
inductive Upkeep where
  /-- There is no such call. -/
  | away
  | begun
  | granted
  | counted
  /-- The cache is swept, and the writers that left it are being closed. -/
  | sweeping (removed : Nat)
  deriving DecidableEq

/-- What a caller of the cleaner comes by. -/
inductive UpkeepKind where
  | called
  | declined
  | granted
  | counted
  | swept
  | answered
  deriving DecidableEq

def Upkeep.stage? : Upkeep → Option UpkeepKind
  | away => none
  | begun => some .called
  | granted => some .granted
  | counted => some .counted
  | sweeping _ => some .swept

/-- What a call comes by next. -/
inductive UpkeepKind.Moves : Option UpkeepKind → UpkeepKind → Option UpkeepKind → Prop
  | call : Moves none .called (some .called)
  | decline : Moves (some .called) .declined none
  | grant : Moves (some .called) .granted (some .granted)
  | count : Moves (some .granted) .counted (some .counted)
  | sweep : Moves (some .counted) .swept (some .swept)
  | answer : Moves (some .swept) .answered none

/-- What a step of a maintained cache is seen as. -/
inductive UpkeepEvent (ω : Type) where
  /-- A step of the shared cache that is not a sweep of the cleaner. -/
  | worked (event : CallEvent ω)
  | called (caller : Nat)
  | declined (caller now : Nat)
  | granted (caller now : Nat)
  | counted (caller : Nat)
  | swept (caller : Nat) (released : List Nat)
  | answered (caller removed : Nat)

namespace UpkeepEvent

def kind? : UpkeepEvent ω → Option (UpkeepKind × Nat)
  | worked _ => none
  | called caller => some (.called, caller)
  | declined caller _ => some (.declined, caller)
  | granted caller _ => some (.granted, caller)
  | counted caller => some (.counted, caller)
  | swept caller _ => some (.swept, caller)
  | answered caller _ => some (.answered, caller)

def grantedAt? : UpkeepEvent ω → Option Nat
  | granted _ now => some now
  | _ => none

end UpkeepEvent

/-- A shared cache with a cleaner that the callers share. -/
structure MaintainedCache (ω : Type) where
  shared : SharedCache ω
  cleaner : Cleaner
  calls : Nat → Upkeep

namespace MaintainedCache

def create (shared : SharedCache ω) (interval : Nat) : MaintainedCache ω where
  shared := shared
  cleaner := .start interval shared.clock
  calls := fun _ => .away

def go (maintained : MaintainedCache ω) (caller : Nat) (upkeep : Upkeep) (cleaner : Cleaner) :
    MaintainedCache ω :=
  { maintained with cleaner, calls := Function.update maintained.calls caller upkeep }

/-- One step of a maintained cache. -/
inductive Step (outside : Outside ω) (maintained : MaintainedCache ω) :
    UpkeepEvent ω → MaintainedCache ω → Prop
  | work {event : CallEvent ω} {after : SharedCache ω}
      (hfree : ∀ caller, event.caller? = some caller →
        maintained.calls caller = .away ∨ event.isClosing = true)
      (hstep : SharedCache.Step outside maintained.shared event after) :
      Step outside maintained (.worked event) { maintained with shared := after }
  | call {caller : Nat} (haway : maintained.calls caller = .away)
      (hidle : maintained.shared.callers caller = .idle) :
      Step outside maintained (.called caller)
        (maintained.go caller .begun maintained.cleaner.called)
  | decline {caller : Nat} (hcall : maintained.calls caller = .begun)
      (hdue : maintained.cleaner.isDue maintained.shared.clock = false) :
      Step outside maintained (.declined caller maintained.shared.clock)
        (maintained.go caller .away maintained.cleaner)
  | grant {caller : Nat} (hcall : maintained.calls caller = .begun)
      (hdue : maintained.cleaner.isDue maintained.shared.clock = true) :
      Step outside maintained (.granted caller maintained.shared.clock)
        (maintained.go caller .granted (maintained.cleaner.granted maintained.shared.clock))
  | count {caller : Nat} (hcall : maintained.calls caller = .granted) :
      Step outside maintained (.counted caller)
        (maintained.go caller .counted maintained.cleaner.counted)
  | sweep {caller : Nat} {released : List Nat} {after : SharedCache ω}
      (hcall : maintained.calls caller = .counted)
      (hstep : SharedCache.Step outside maintained.shared (.swept caller released) after) :
      Step outside maintained (.swept caller released)
        { maintained.go caller (.sweeping released.length) maintained.cleaner with
          shared := after }
  | answer {caller removed : Nat} {after : SharedCache ω}
      (hcall : maintained.calls caller = .sweeping removed)
      (hstep : SharedCache.Step outside maintained.shared (.answered caller none) after) :
      Step outside maintained (.answered caller removed)
        { maintained.go caller .away maintained.cleaner with shared := after }

/-- The steps that lead from one maintained cache to another. -/
inductive Run (outside : Outside ω) (first : MaintainedCache ω) :
    List (UpkeepEvent ω) → MaintainedCache ω → Prop
  | nil : Run outside first [] first
  | step {events : List (UpkeepEvent ω)} {event : UpkeepEvent ω}
      {maintained after : MaintainedCache ω} (hrun : Run outside first events maintained)
      (hstep : Step outside maintained event after) :
      Run outside first (events ++ [event]) after

def grants (events : List (UpkeepEvent ω)) : List Nat :=
  events.filterMap UpkeepEvent.grantedAt?

/-- When the latest sweep was granted, or the cleaner made if there was none. -/
def latest (created : Nat) (events : List (UpkeepEvent ω)) : Nat :=
  (grants events).getLast?.getD created

def made (kind : UpkeepKind) (events : List (UpkeepEvent ω)) : List Nat :=
  events.filterMap fun event => event.kind?.bind fun made =>
    if made.1 = kind then some made.2 else none

variable {outside : Outside ω} {limits : CacheLimits} {created interval : Nat}
  {first maintained after : MaintainedCache ω} {events : List (UpkeepEvent ω)}
  {event : UpkeepEvent ω}

theorem made_concat (kind : UpkeepKind) (events : List (UpkeepEvent ω)) (event : UpkeepEvent ω) :
    made kind (events ++ [event]) = made kind events ++ made kind [event] :=
  List.filterMap_append

theorem count_made_concat (kind : UpkeepKind) (events : List (UpkeepEvent ω))
    (event : UpkeepEvent ω) (caller : Nat) :
    (made kind (events ++ [event])).count caller =
      (made kind events).count caller + if event.kind? = some (kind, caller) then 1 else 0 := by
  have hlast : (made kind [event]).count caller =
      if event.kind? = some (kind, caller) then 1 else 0 := by
    rw [made, List.filterMap_cons]
    cases event.kind? with
    | none => rfl
    | some last =>
        obtain ⟨other, who⟩ := last
        by_cases hother : other = kind
        · subst hother
          simp [List.count_singleton]
        · simp [hother]
  rw [made_concat, List.count_append, hlast]

theorem grants_concat (events : List (UpkeepEvent ω)) (event : UpkeepEvent ω) :
    grants (events ++ [event]) = grants events ++ event.grantedAt?.toList := by
  rw [grants, List.filterMap_append, grants]
  cases hgranted : event.grantedAt? <;> simp [hgranted]

theorem latest_concat (created : Nat) (events : List (UpkeepEvent ω)) (event : UpkeepEvent ω) :
    latest created (events ++ [event]) = event.grantedAt?.getD (latest created events) := by
  rw [latest, grants_concat]
  cases event.grantedAt? <;> simp [latest]

/-- When sweeps were granted, seen from the cleaner and the clock. -/
structure Timed (created interval : Nat) (events : List (UpkeepEvent ω))
    (maintained : MaintainedCache ω) : Prop where
  interval_eq : maintained.cleaner.interval = interval
  lastSweep_eq : maintained.cleaner.lastSweep = latest created events
  past : latest created events ≤ maintained.shared.clock
  spaced : (created :: grants events).IsChain fun earlier later => earlier + interval ≤ later
  attempts : maintained.cleaner.attempts = .ofNat (made .called events).length
  sweeps : maintained.cleaner.sweeps = .ofNat (made .counted events).length

theorem Timed.start (shared : SharedCache ω) (interval : Nat) :
    Timed shared.clock interval [] (create shared interval) where
  interval_eq := rfl
  lastSweep_eq := rfl
  past := Nat.le_refl _
  spaced := List.isChain_singleton _
  attempts := rfl
  sweeps := rfl

theorem Timed.isDue_iff (htimed : Timed created interval events maintained) :
    maintained.cleaner.isDue maintained.shared.clock = true ↔
      latest created events + interval ≤ maintained.shared.clock := by
  rw [Cleaner.isDue, decide_eq_true_iff, htimed.interval_eq, htimed.lastSweep_eq,
    Nat.le_sub_iff_add_le htimed.past, Nat.add_comm]

theorem length_made_concat (kind : UpkeepKind) (events : List (UpkeepEvent ω))
    (event : UpkeepEvent ω) : (made kind (events ++ [event])).length =
      (made kind events).length + (made kind [event]).length := by
  rw [made_concat, List.length_append]

/-- A step that grants no sweep. -/
theorem Timed.other (htimed : Timed created interval events maintained)
    (hgranted : event.grantedAt? = none)
    (hinterval : after.cleaner.interval = maintained.cleaner.interval)
    (hlast : after.cleaner.lastSweep = maintained.cleaner.lastSweep)
    (hclock : maintained.shared.clock ≤ after.shared.clock)
    (hattempts : after.cleaner.attempts =
      maintained.cleaner.attempts + .ofNat (made .called [event]).length)
    (hsweeps : after.cleaner.sweeps =
      maintained.cleaner.sweeps + .ofNat (made .counted [event]).length) :
    Timed created interval (events ++ [event]) after where
  interval_eq := hinterval.trans htimed.interval_eq
  lastSweep_eq := by
    rw [latest_concat, hgranted]
    exact hlast.trans htimed.lastSweep_eq
  past := by
    rw [latest_concat, hgranted]
    exact htimed.past.trans hclock
  spaced := by
    rw [grants_concat, hgranted]
    simpa using htimed.spaced
  attempts := by rw [hattempts, htimed.attempts, length_made_concat, UInt64.ofNat_add]
  sweeps := by rw [hsweeps, htimed.sweeps, length_made_concat, UInt64.ofNat_add]

/-- A step that grants a sweep does so an interval after the one before. -/
theorem Timed.grant (htimed : Timed created interval events maintained) {caller : Nat}
    (hdue : maintained.cleaner.isDue maintained.shared.clock = true) :
    Timed created interval (events ++ [.granted caller maintained.shared.clock])
      (maintained.go caller .granted (maintained.cleaner.granted maintained.shared.clock)) where
  interval_eq := htimed.interval_eq
  lastSweep_eq := by
    rw [latest_concat]
    rfl
  past := by
    rw [latest_concat]
    exact Nat.le_refl _
  spaced := by
    have hlatest : (created :: grants events).getLast? = some (latest created events) := by
      rw [latest, List.getLast?_cons]
    rw [grants_concat, ← List.cons_append, List.isChain_append]
    refine ⟨htimed.spaced, List.isChain_singleton _, ?_⟩
    intro earlier hearlier later hlater
    obtain rfl := Option.some.inj (hlatest.symm.trans hearlier)
    obtain rfl : maintained.shared.clock = later := Option.some.inj hlater
    exact htimed.isDue_iff.mp hdue
  attempts := by
    rw [length_made_concat]
    exact htimed.attempts
  sweeps := by
    rw [length_made_concat]
    exact htimed.sweeps

theorem Timed.step (htimed : Timed created interval events maintained)
    (hstep : Step outside maintained event after) :
    Timed created interval (events ++ [event]) after := by
  have hnothing (word : UInt64) : word = word + .ofNat 0 := (UInt64.add_zero word).symm
  cases hstep with
  | work hfree hstep => exact htimed.other rfl rfl rfl hstep.clock_le (hnothing _) (hnothing _)
  | call haway hidle => exact htimed.other rfl rfl rfl (Nat.le_refl _) rfl (hnothing _)
  | decline hcall hdue =>
      exact htimed.other rfl rfl rfl (Nat.le_refl _) (hnothing _) (hnothing _)
  | grant hcall hdue => exact htimed.grant hdue
  | count hcall => exact htimed.other rfl rfl rfl (Nat.le_refl _) (hnothing _) rfl
  | sweep hcall hstep => exact htimed.other rfl rfl rfl hstep.clock_le (hnothing _) (hnothing _)
  | answer hcall hstep => exact htimed.other rfl rfl rfl hstep.clock_le (hnothing _) (hnothing _)

theorem Timed.run {shared : SharedCache ω}
    (hrun : Run outside (create shared interval) events maintained) :
    Timed shared.clock interval events maintained := by
  induction hrun with
  | nil => exact .start shared interval
  | step hrun hstep ih => exact ih.step hstep

/-- Sweeps that are spaced have taken their time. -/
theorem length_mul_le {times : List Nat}
    (hspaced : (created :: times).IsChain fun earlier later => earlier + interval ≤ later) :
    created + times.length * interval ≤ times.getLast?.getD created := by
  induction times generalizing created with
  | nil => simp
  | cons time rest ih =>
      obtain ⟨hfirst, hrest⟩ := List.isChain_cons_cons.mp hspaced
      have hlast := ih hrest
      rw [List.getLast?_cons, Option.getD_some, List.length_cons, Nat.add_mul, Nat.one_mul]
      omega

/-- No more sweeps are granted than intervals have passed. -/
theorem Timed.rate (htimed : Timed created interval events maintained) (hinterval : 0 < interval) :
    (grants events).length ≤ (maintained.shared.clock - created) / interval := by
  rw [Nat.le_div_iff_mul_le hinterval]
  have hspaced := length_mul_le htimed.spaced
  have hpast := htimed.past
  rw [latest] at hpast
  omega

/-- Whenever a caller came by something, it has come by what is next, or that is where it
is. -/
structure Staged (caller : Nat) (events : List (UpkeepEvent ω)) (stage? : Option UpkeepKind) :
    Prop where
  called : (made .called events).count caller = (made .declined events).count caller +
    (made .granted events).count caller + if stage? = some .called then 1 else 0
  granted : (made .granted events).count caller = (made .counted events).count caller +
    if stage? = some .granted then 1 else 0
  counted : (made .counted events).count caller = (made .swept events).count caller +
    if stage? = some .counted then 1 else 0
  swept : (made .swept events).count caller = (made .answered events).count caller +
    if stage? = some .swept then 1 else 0

variable {caller : Nat} {stage? later? : Option UpkeepKind}

theorem Staged.start (caller : Nat) : Staged (ω := ω) caller [] none :=
  ⟨rfl, rfl, rfl, rfl⟩

theorem Staged.move (hstaged : Staged caller events stage?) {kind : UpkeepKind}
    (hkind : event.kind? = some (kind, caller)) (hmoves : kind.Moves stage? later?) :
    Staged caller (events ++ [event]) later? := by
  obtain ⟨hcalled, hgranted, hcounted, hswept⟩ := hstaged
  -- All counts come to those of the calls that are over and what their callers are about to do.
  cases hmoves
  all_goals
    constructor <;>
      simp [count_made_concat, hkind, hcalled, hgranted, hcounted, hswept] <;>
      omega

theorem Staged.stay (hstaged : Staged caller events stage?)
    (hkind : ∀ kind, event.kind? ≠ some (kind, caller)) :
    Staged caller (events ++ [event]) stage? := by
  obtain ⟨hcalled, hgranted, hcounted, hswept⟩ := hstaged
  constructor <;> simpa [count_made_concat, hkind]

/-- One caller moves on, and no other one. -/
theorem Staged.go (hstaged : ∀ caller, Staged caller events (maintained.calls caller).stage?)
    {kind : UpkeepKind} {upkeep : Upkeep} (hkind : event.kind? = some (kind, caller))
    (hmoves : kind.Moves (maintained.calls caller).stage? upkeep.stage?) (other : Nat) :
    Staged other (events ++ [event])
      (Function.update maintained.calls caller upkeep other).stage? := by
  rcases eq_or_ne other caller with rfl | hother
  · rw [Function.update_self]
    exact (hstaged other).move hkind hmoves
  · rw [Function.update_of_ne hother]
    apply (hstaged other).stay
    intro last hlast
    rw [hkind] at hlast
    exact hother (Prod.mk.inj (Option.some.inj hlast)).2.symm

theorem Staged.step (hstaged : ∀ caller, Staged caller events (maintained.calls caller).stage?)
    (hstep : Step outside maintained event after) (caller : Nat) :
    Staged caller (events ++ [event]) (after.calls caller).stage? := by
  cases hstep with
  | work hfree hstep => exact (hstaged caller).stay fun _ hnone => nomatch hnone
  | call haway hidle => exact Staged.go hstaged rfl (haway ▸ .call) caller
  | decline hcall hdue => exact Staged.go hstaged rfl (hcall ▸ .decline) caller
  | grant hcall hdue => exact Staged.go hstaged rfl (hcall ▸ .grant) caller
  | count hcall => exact Staged.go hstaged rfl (hcall ▸ .count) caller
  | sweep hcall hstep => exact Staged.go hstaged rfl (hcall ▸ .sweep) caller
  | answer hcall hstep => exact Staged.go hstaged rfl (hcall ▸ .answer) caller

theorem Staged.run {shared : SharedCache ω}
    (hrun : Run outside (create shared interval) events maintained) (caller : Nat) :
    Staged caller events (maintained.calls caller).stage? := by
  induction hrun generalizing caller with
  | nil => exact .start caller
  | step hrun hstep ih => exact Staged.step ih hstep caller

/-- A caller that is not through with its call has swept, if a sweep was granted to it. -/
theorem Staged.over (hstaged : Staged caller events none) :
    (made .granted events).count caller = (made .swept events).count caller ∧
      (made .swept events).count caller = (made .answered events).count caller := by
  obtain ⟨-, hgranted, hcounted, hswept⟩ := hstaged
  exact ⟨hgranted.trans hcounted, hswept⟩

/-- When no call is in progress, the calls that were counted as sweeps are those that have
returned a number. -/
theorem perm_of_staged (hstaged : ∀ caller, Staged caller events none) :
    (made .counted events).Perm (made .answered events) := by
  rw [List.perm_iff_count]
  exact fun caller => (hstaged caller).counted.trans (hstaged caller).swept

/-- What there is of the cache for a call that has not yet swept. -/
def Rests (maintained : MaintainedCache ω) : Prop :=
  ∀ caller, maintained.calls caller ∈ [.begun, .granted, .counted] →
    maintained.shared.callers caller = .idle

theorem Rests.start (shared : SharedCache ω) (interval : Nat) :
    Rests (create shared interval) :=
  fun _ hcall => nomatch hcall

/-- A caller moves on, and the other ones go on with what they do. -/
theorem Rests.go (hrests : Rests maintained) {upkeep : Upkeep}
    (hcalls : after.calls = Function.update maintained.calls caller upkeep)
    (hothers : ∀ other ≠ caller, after.shared.callers other = maintained.shared.callers other)
    (hcaller : upkeep ∈ [.begun, .granted, .counted] → after.shared.callers caller = .idle) :
    Rests after := by
  intro other hother
  rw [hcalls] at hother
  rcases eq_or_ne other caller with rfl | hne
  · rw [Function.update_self] at hother
    exact hcaller hother
  · rw [Function.update_of_ne hne] at hother
    exact (hothers other hne).trans (hrests other hother)

theorem Rests.step (hrests : Rests maintained) (hstep : Step outside maintained event after) :
    Rests after := by
  have hothers {last : CallEvent ω} {shared : SharedCache ω} {caller : Nat}
      (hstep : SharedCache.Step outside maintained.shared last shared)
      (hcaller : last.caller? = some caller) (other : Nat) (hother : other ≠ caller) :
      shared.callers other = maintained.shared.callers other := by
    apply hstep.callers_eq
    rw [hcaller]
    exact fun hsame => hother (Option.some.inj hsame).symm
  cases hstep with
  | work hfree hstep =>
      intro caller hcall
      have hidle := hrests caller hcall
      rw [hstep.callers_eq]
      · exact hidle
      · intro hcaller
        rcases hfree caller hcaller with haway | hcloses
        · simp [haway] at hcall
        · exact hstep.not_idle_of_isClosing hcloses hcaller hidle
  | call haway hidle => exact hrests.go rfl (fun _ _ => rfl) fun _ => hidle
  | decline hcall hdue => exact hrests.go rfl (fun _ _ => rfl) fun hlater => by simp at hlater
  | grant hcall hdue =>
      exact hrests.go rfl (fun _ _ => rfl) fun _ => hrests _ (by simp [hcall])
  | count hcall => exact hrests.go rfl (fun _ _ => rfl) fun _ => hrests _ (by simp [hcall])
  | sweep hcall hstep => exact hrests.go rfl (hothers hstep rfl) fun hlater => by simp at hlater
  | answer hcall hstep => exact hrests.go rfl (hothers hstep rfl) fun hlater => by simp at hlater

theorem Rests.run {shared : SharedCache ω}
    (hrun : Run outside (create shared interval) events maintained) : Rests maintained := by
  induction hrun with
  | nil => exact .start shared interval
  | step hrun hstep ih => exact ih.step hstep

/-- Maintenance makes no difference to what else may happen to the cache. -/
theorem Run.shared {start shared : SharedCache ω} {before : List (CallEvent ω)}
    (hbefore : SharedCache.Run outside start before shared)
    (hrun : Run outside (create shared interval) events maintained) :
    ∃ all, SharedCache.Run outside start all maintained.shared := by
  induction hrun with
  | nil => exact ⟨before, hbefore⟩
  | step hrun hstep ih =>
      obtain ⟨all, hall⟩ := ih
      cases hstep with
      | work hfree hstep => exact ⟨_, hall.step hstep⟩
      | call haway hidle => exact ⟨all, hall⟩
      | decline hcall hdue => exact ⟨all, hall⟩
      | grant hcall hdue => exact ⟨all, hall⟩
      | count hcall => exact ⟨all, hall⟩
      | sweep hcall hstep => exact ⟨_, hall.step hstep⟩
      | answer hcall hstep => exact ⟨_, hall.step hstep⟩

end MaintainedCache

namespace Solo

variable {cache : WriterCache ω} {clock : Nat} (close : ω → Except StoreError Unit × ω)
  (construction : Construction ω) (duration : Nat)

/-- Closing a handle moves no entry. -/
theorem ends_closeHandle_entries (id : Nat) :
    Ends cache clock ((attend close construction duration).closeHandle id)
      fun _ after later => later = clock ∧ after.contents.entries = cache.contents.entries := by
  have hmodify (cache : WriterCache ω) (f : WriterHandle ω → WriterHandle ω) :
      (cache.modifyHandle id f).contents.entries = cache.contents.entries := by
    rw [WriterCache.contents_modifyHandle, CacheContents.entries_modifyHandle]
  rw [Workshop.closeHandle, ends_bind, ends_step]
  rcases cache.beginClose_cases id with ⟨hskip, -⟩ | ⟨handle, -, -, hopen⟩
  · rw [hskip]
    exact ⟨rfl, rfl⟩
  · rw [hopen]
    cases hclose : close handle.writer with
    | mk result writer =>
        have hboth := (hmodify (cache.modifyHandle id fun h => { h with closed := true })
          fun h => { h with writer }).trans (hmodify cache _)
        cases result with
        | ok _ =>
            simp only [attend, hclose]
            exact ⟨rfl, hboth⟩
        | error e =>
            simp only [attend, hclose]
            exact ⟨rfl, hboth⟩

theorem ends_release_entries (released : List Nat) :
    Ends cache clock ((attend close construction duration).release released)
      fun _ after later => later = clock ∧ after.contents.entries = cache.contents.entries := by
  induction released generalizing cache with
  | nil => exact ⟨rfl, rfl⟩
  | cons id rest ih =>
      rw [Workshop.release]
      apply Ends.bind (ends_closeHandle_entries close construction duration id)
      rintro result between later ⟨rfl, hbetween⟩
      apply Ends.bind ih
      rintro more after last ⟨rfl, hafter⟩
      split
      · exact ⟨rfl, hafter.trans hbetween⟩
      · exact ⟨rfl, hafter.trans hbetween⟩

/-- A call for maintenance that nothing disturbs sweeps if a sweep is due, and leaves the
cache alone if not. -/
theorem ends_maintain (hlinked : cache.Linked) (horder : cache.contents.InOrder clock)
    (cleaner : Cleaner) :
    Ends cache clock (cleaner.maintain (attend close construction duration))
      fun answer after later => later = clock ∧ answer.2 = (cleaner.attempt clock).2 ∧
        (cleaner.isDue clock = true →
          answer.1 = some (cache.order.toList.countP fun entry =>
            !entry.isFresh cache.limits clock) ∧
          after.order.toList = cache.order.toList.filter fun entry =>
            entry.isFresh cache.limits clock) ∧
        (cleaner.isDue clock = false → answer.1 = none ∧ after = cache) := by
  rw [Cleaner.maintain, ends_bind, ends_now]
  simp only [Cleaner.attempt_eq]
  cases hdue : cleaner.isDue clock with
  | false => exact ⟨rfl, rfl, fun hdue => absurd hdue Bool.false_ne_true, fun _ => ⟨rfl, rfl⟩⟩
  | true =>
      simp only [if_true, Workshop.cleanUp]
      rw [ends_bind, ends_bind, ends_now, ends_bind, ends_step]
      apply Ends.bind (ends_release_entries close construction duration _)
      rintro count after later ⟨rfl, hentries⟩
      refine ⟨rfl, rfl, fun _ => ⟨?_, ?_⟩, fun hdue => absurd hdue.symm Bool.false_ne_true⟩
      · exact congrArg some (WriterCache.length_sweep later hlinked horder.ordered)
      · exact WriterCache.toList_eq_filter
          (hentries.trans (WriterCache.entries_sweep later hlinked horder.ordered))

end Solo

namespace MaintainedCache

variable {outside : Outside ω} {limits : CacheLimits} {clock interval : Nat}
  {maintained after : MaintainedCache ω} {events : List (UpkeepEvent ω)}

/-- What holds of the sweeps of a cleaner, made at a time with an interval.  A sweep is of
the time at which it was granted. -/
structure RateLimited (outside : Outside ω) (created interval : Nat)
    (events : List (UpkeepEvent ω)) (maintained : MaintainedCache ω) : Prop where
  /-- The first sweep is an interval after the creation, and each later one an interval
  after the one before. -/
  spaced : (created :: grants events).IsChain fun earlier later => earlier + interval ≤ later
  rate : 0 < interval →
    (grants events).length ≤ (maintained.shared.clock - created) / interval
  /-- Whoever was turned away had come too early. -/
  declined : ∀ before caller now rest, events = before ++ .declined caller now :: rest →
    now < latest created before + interval
  /-- A call that has not come too early is not turned away but granted a sweep. -/
  granted : ∀ caller, maintained.calls caller = .begun →
    latest created events + interval ≤ maintained.shared.clock →
      (∃ after, Step outside maintained (.granted caller maintained.shared.clock) after) ∧
        ∀ now after, ¬ Step outside maintained (.declined caller now) after
  /-- Nothing can keep a call from the sweep that was granted to it. -/
  unhindered : ∀ caller, maintained.calls caller = .granted →
    ∃ between released after, Step outside maintained (.counted caller) between ∧
      Step outside between (.swept caller released) after
  /-- Who is through with its calls has swept as often as sweeps were granted to it, and
  returned a number each time. -/
  completed : ∀ caller, maintained.calls caller = .away →
    (made .granted events).count caller = (made .swept events).count caller ∧
      (made .swept events).count caller = (made .answered events).count caller
  attempts : maintained.cleaner.attempts = .ofNat (made .called events).length
  sweeps : maintained.cleaner.sweeps = .ofNat (made .counted events).length
  /-- When no call is in progress, the sweeps are the calls that returned a number. -/
  settled : (∀ caller, maintained.calls caller = .away) →
    maintained.cleaner.sweeps = .ofNat (made .answered events).length
  /-- A sweep leaves the fresh entries in their order, and counts the others. -/
  swept : ∀ caller released after, Step outside maintained (.swept caller released) after →
    after.shared.cache.order.toList = (maintained.shared.cache.order.toList.filter fun entry =>
      entry.isFresh maintained.shared.cache.limits maintained.shared.clock) ∧
    after.calls caller = .sweeping (maintained.shared.cache.order.toList.countP fun entry =>
      !entry.isFresh maintained.shared.cache.limits maintained.shared.clock)
  /-- The steps of a call that is turned away leave the cache and its callers alone. -/
  untouched : ∀ caller event after, Step outside maintained event after →
    event.kind? = some (.called, caller) ∨ event.kind? = some (.declined, caller) →
      after.shared = maintained.shared
  /-- A call that nothing disturbs: what it returns, with the cleaner that goes on from it, and
  what it leaves in the cache. -/
  alone : ∀ close : ω → Except StoreError Unit × ω,
    Solo.Ends maintained.shared.cache maintained.shared.clock
      (maintained.cleaner.maintain (attend close .panicked 0))
      fun answer cache later => later = maintained.shared.clock ∧
        (latest created events + interval ≤ maintained.shared.clock →
          answer = (some (maintained.shared.cache.order.toList.countP fun entry =>
            !entry.isFresh maintained.shared.cache.limits maintained.shared.clock),
            { maintained.cleaner with
              lastSweep := maintained.shared.clock
              attempts := maintained.cleaner.attempts + 1
              sweeps := maintained.cleaner.sweeps + 1 }) ∧
          cache.order.toList = maintained.shared.cache.order.toList.filter fun entry =>
            entry.isFresh maintained.shared.cache.limits maintained.shared.clock) ∧
        (maintained.shared.clock < latest created events + interval →
          answer = (none,
            { maintained.cleaner with attempts := maintained.cleaner.attempts + 1 }) ∧
          cache = maintained.shared.cache)

/-- Whoever is turned away comes too early. -/
theorem Run.declined {shared : SharedCache ω}
    (hrun : Run outside (create shared interval) events maintained) {caller now : Nat}
    {before rest : List (UpkeepEvent ω)}
    (hevents : events = before ++ .declined caller now :: rest) :
    now < latest shared.clock before + interval := by
  induction hrun generalizing rest with
  | nil => simp at hevents
  | step hrun hstep ih =>
      rcases List.eq_nil_or_concat' rest with rfl | ⟨front, last, rfl⟩
      · obtain ⟨rfl, hlast⟩ := List.append_inj' hevents rfl
        obtain rfl := (List.cons.inj hlast).1
        cases hstep with
        | decline hcall hdue =>
            rw [← Nat.not_le, ← (Timed.run hrun).isDue_iff, hdue]
            exact Bool.false_ne_true
      · rw [← List.cons_append, ← List.append_assoc] at hevents
        exact ih (List.append_inj' hevents rfl).1

/-- A cleaner limits how often a cache is swept, and skips no sweep that is due. -/
theorem Run.rateLimited {shared : SharedCache ω} {before : List (CallEvent ω)}
    (hbefore : SharedCache.Run outside (.start limits clock) before shared)
    (hrun : Run outside (create shared interval) events maintained) :
    RateLimited outside shared.clock interval events maintained := by
  have htimed := Timed.run hrun
  have hstaged := Staged.run hrun
  have hrests := Rests.run hrun
  obtain ⟨all, hall⟩ := hrun.shared hbefore
  have hlinked := ((SharedCache.Sound.start limits clock).run hall).linked
  have horder := hall.inOrder
  have haway {caller : Nat} (hcall : maintained.calls caller = .away) :
      Staged caller events none := by
    have hcaller := hstaged caller
    rwa [hcall] at hcaller
  constructor
  · exact htimed.spaced
  · exact htimed.rate
  · exact fun earlier caller now rest hevents => hrun.declined hevents
  · intro caller hcall hlate
    have hdue := htimed.isDue_iff.mpr hlate
    refine ⟨⟨_, .grant hcall hdue⟩, ?_⟩
    intro now after hstep
    cases hstep with
    | decline _ hnot => exact absurd (hnot.symm.trans hdue) Bool.false_ne_true
  · intro caller hcall
    have hidle := hrests caller (by simp [hcall])
    refine ⟨_, _, _, .count hcall, .sweep ?_ (.sweep hidle)⟩
    exact Function.update_self ..
  · exact fun caller hcall => (haway hcall).over
  · exact htimed.attempts
  · exact htimed.sweeps
  · intro hcalls
    rw [htimed.sweeps, (perm_of_staged fun caller => haway (hcalls caller)).length_eq]
  · intro caller released after hstep
    cases hstep with
    | sweep hcall hstep =>
        cases hstep with
        | sweep hidle =>
            refine ⟨WriterCache.toList_eq_filter
              (WriterCache.entries_sweep _ hlinked horder.ordered), ?_⟩
            rw [← WriterCache.length_sweep _ hlinked horder.ordered]
            exact Function.update_self ..
  · rintro caller event after hstep (hkind | hkind)
    · cases hstep <;> first | rfl | simp [UpkeepEvent.kind?] at hkind
    · cases hstep <;> first | rfl | simp [UpkeepEvent.kind?] at hkind
  · intro close
    apply Solo.Ends.imp (Solo.ends_maintain close .panicked 0 hlinked horder _)
    rintro answer cache later ⟨rfl, hcleaner, hdue, hnot⟩
    refine ⟨rfl, fun hlate => ?_, fun hearly => ?_⟩
    · have hnow := htimed.isDue_iff.mpr hlate
      rw [Cleaner.attempt_eq, if_pos hnow] at hcleaner
      exact ⟨Prod.ext (hdue hnow).1 hcleaner, (hdue hnow).2⟩
    · have hnow : maintained.cleaner.isDue maintained.shared.clock = false := by
        rw [← Bool.not_eq_true, htimed.isDue_iff]
        exact Nat.not_le.mpr hearly
      rw [Cleaner.attempt_eq, hnow, if_neg Bool.false_ne_true] at hcleaner
      exact ⟨Prod.ext (hnot hnow).1 hcleaner, (hnot hnow).2⟩

/-- Two callers that ask at the same time, one of which sweeps. -/
def twoCalls : List (UpkeepEvent Unit) :=
  [.worked (.ticked 10), .called 1, .called 2, .granted 1 10, .declined 2 10, .counted 1,
    .swept 1 [], .answered 1 0]

theorem Run.rateLimited_twoCalls :
    ∃ (outside : Outside Unit) (maintained : MaintainedCache Unit),
      Run outside (create (.start {} 0) 10) twoCalls maintained ∧
        RateLimited outside 0 10 twoCalls maintained := by
  let outside : Outside Unit := ⟨fun _ _ => True, fun _ _ => True, fun _ _ => True⟩
  let empty : SharedCache Unit := .start {} 0
  have hnothing : Run outside (create empty 10) [] (create empty 10) := .nil
  have hlater := hnothing.step (.work (by simp [CallEvent.caller?])
    (@SharedCache.Step.tick _ outside empty 10 (Nat.zero_le _)))
  have hfirst := hlater.step (@Step.call _ outside _ 1 rfl rfl)
  have hsecond := hfirst.step (@Step.call _ outside _ 2 rfl rfl)
  have hgranted := hsecond.step (@Step.grant _ outside _ 1 rfl rfl)
  have hdeclined := hgranted.step (@Step.decline _ outside _ 2 rfl rfl)
  have hcounted := hdeclined.step (@Step.count _ outside _ 1 rfl)
  have hswept := hcounted.step (.sweep rfl (@SharedCache.Step.sweep _ outside _ 1 rfl))
  have hanswered := hswept.step (.answer rfl (@SharedCache.Step.answer _ outside _ 1 none rfl))
  have hrun : Run outside (create empty 10) twoCalls _ := hanswered
  exact ⟨outside, _, hrun, hrun.rateLimited .nil⟩

end MaintainedCache

end TableRouting

import TableRouting.Proofs.Batch.Fates
import TableRouting.Proofs.Batch.Transaction

/-!
# The course of a batch

The trail of a batch begins with the records that do not resolve.  Then come the fates
of its groups, in the order in which the tables first appear, and at last the commit.
A batch that fails has left a part of this trail behind: rolling back the connection
takes no failure back that was routed before.
-/

namespace TableRouting

variable {m : Type → Type} {σ κ ω ρ : Type}

/-- The records of a batch that do not resolve, with the causes that they are routed for. -/
def Coordinator.unroutable (coordinator : Coordinator m κ ω) (batch : List Record) :
    List (Record × FailureCause) :=
  (coordinator.unresolved batch).map fun failure => (failure.1, .evaluation failure.2)

/-- A record resolves or does not. -/
theorem length_resolved_add (coordinator : Coordinator m κ ω) (batch : List Record) :
    (coordinator.resolved batch).length + (coordinator.unresolved batch).length =
      batch.length := by
  induction batch with
  | nil => rfl
  | cons record rest ih =>
      rw [Coordinator.resolved, Coordinator.unresolved] at ih ⊢
      rw [List.filterMap_cons, List.filterMap_cons, List.length_cons]
      cases coordinator.resolve record with
      | ok table => simp only [List.length_cons]; omega
      | error e => simp only [List.length_cons]; omega

/-- What the fates of groups have in common: with rollback on error no failure of a group
is routed. -/
def Clean (coordinator : Coordinator m κ ω) (fates : List (Fate ρ)) : Prop :=
  coordinator.rollbackOnError = true → ∀ fate ∈ fates, fate.failures = []

section

variable {coordinator : Coordinator m κ ω}

theorem clean_nil : Clean coordinator ([] : List (Fate ρ)) :=
  fun _ _ hfate => absurd hfate List.not_mem_nil

theorem clean_cons {group : Group} {ending : Ending ρ} {fates : List (Fate ρ)}
    (hfirst : coordinator.rollbackOnError = true → (Fate.mk group ending).failures = [])
    (hrest : Clean coordinator fates) : Clean coordinator (⟨group, ending⟩ :: fates) :=
  fun hrollback => List.forall_mem_cons.mpr ⟨hfirst hrollback, hrest hrollback⟩

end

variable [Monad m]

namespace Coordinator

variable (coordinator : Coordinator m κ ω) (runner : Runner m σ)

def nextTurn (group : Group) (turn : Turn σ κ ω) : Turn σ κ ω :=
  (runner.onTurn (coordinator.processGroup group.1 group.2).run turn).2

/-- Groups meet their fates one after the other, each where the one before it has ended. -/
def Meets : Turn σ κ ω → List (Fate ρ) → Prop
  | _, [] => True
  | turn, fate :: rest =>
    fate.Met coordinator runner turn ∧ Meets (coordinator.nextTurn runner fate.group turn) rest

/-- The first turn on a connection that is obtained in a cache and a world. -/
def opening (cache : WriterCache ω) (world : σ) : Except StoreError (Turn σ κ ω) :=
  let connected := runner.run coordinator.store.connect world
  connected.1.map fun connection => ⟨cache, connected.2, connection⟩

/-- The first turn of a batch: the records that do not resolve are routed before it. -/
def firstTurn (batch : List Record) (cache : WriterCache ω) (world : σ) :
    Except StoreError (Turn σ κ ω) :=
  coordinator.opening runner cache (runner.run (coordinator.group batch) world).2

/-- The fates of groups begin at this turn, if there are any. -/
def MeetsFrom (first : Except StoreError (Turn σ κ ω)) (fates : List (Fate ρ)) : Prop :=
  fates = [] ∨ ∃ turn, first = .ok turn ∧ coordinator.Meets runner turn fates

end Coordinator

/-- How writing groups ends from a turn on, given what became of those before them. -/
inductive GroupsEnd (coordinator : Coordinator m κ ω) (runner : Runner m σ) (rows : κ → List ρ)
    (done : List TableOutcome) (groups : List Group) (turn : Turn σ κ ω) :
    Except WriteError (List TableOutcome) → κ → List (TrailEntry ρ) → Prop
  | met (fates : List (Fate ρ)) {changed : κ} (hgroups : fates.map Fate.group = groups)
      (hmeets : coordinator.Meets runner turn fates) (hclean : Clean coordinator fates)
      (hkept : coordinator.store.Marks runner rows →
        rows changed = rows turn.connection ++ fates.flatMap Fate.kept) :
      GroupsEnd coordinator runner rows done groups turn
        (.ok (done.reverse ++ fates.map Fate.outcome)) changed (fates.flatMap Fate.entries)
  | halted (e : WriteError) (changed : κ) (fates : List (Fate ρ)) {last : List (TrailEntry ρ)}
      (hgroups : fates.map Fate.group <+: groups) (hmeets : coordinator.Meets runner turn fates)
      (hclean : Clean coordinator fates) (hhalts : Halts last) :
      GroupsEnd coordinator runner rows done groups turn (.error e) changed
        (fates.flatMap Fate.entries ++ last)

def commitEntries (fates : List (Fate ρ)) (kept : List ρ) : List (TrailEntry ρ) :=
  if fates.isEmpty then [] else [.committed kept (.ok ())]

/-- The trail of groups that are written from a first turn on and committed. -/
inductive GroupsTrail (coordinator : Coordinator m κ ω) (runner : Runner m σ) (rows : κ → List ρ)
    (unresolved : Nat) (groups : List Group) (first : Except StoreError (Turn σ κ ω)) :
    Except WriteError WriteOutcome → List (TrailEntry ρ) → Prop
  | committed (fates : List (Fate ρ)) (kept : List ρ) (hgroups : fates.map Fate.group = groups)
      (hmeets : coordinator.MeetsFrom runner first fates) (hclean : Clean coordinator fates)
      (hkept : coordinator.store.Marks runner rows → kept = fates.flatMap Fate.kept) :
      GroupsTrail coordinator runner rows unresolved groups first
        (.ok (.ofTables unresolved (fates.map Fate.outcome)))
        (fates.flatMap Fate.entries ++ commitEntries fates kept)
  | failed (e : WriteError) (fates : List (Fate ρ)) {last : List (TrailEntry ρ)}
      (hgroups : fates.map Fate.group <+: groups)
      (hmeets : coordinator.MeetsFrom runner first fates) (hclean : Clean coordinator fates)
      (hhalts : Halts last) :
      GroupsTrail coordinator runner rows unresolved groups first (.error e)
        (fates.flatMap Fate.entries ++ last)

/-- The trail of a batch that is written in a cache and a world. -/
inductive BatchTrail (coordinator : Coordinator m κ ω) (runner : Runner m σ) (rows : κ → List ρ)
    (batch : List Record) (cache : WriterCache ω) (world : σ) :
    Except WriteError WriteOutcome → List (TrailEntry ρ) → Prop
  /-- Routing a record that does not resolve has failed the batch. -/
  | stopped (e : WriteError) {entries : List (TrailEntry ρ)}
      (hstop : ∃ entry ∈ entries, entry.isStop = true) :
      BatchTrail coordinator runner rows batch cache world (.error e) entries
  | grouped {result : Except WriteError WriteOutcome} {entries : List (TrailEntry ρ)}
      (hgroups : GroupsTrail coordinator runner rows (coordinator.unresolved batch).length
        (coordinator.groups batch) (coordinator.firstTurn runner batch cache world) result
        entries) :
      BatchTrail coordinator runner rows batch cache world result
        (TrailEntry.routedAll (coordinator.unroutable batch) ++ entries)

section

variable {coordinator : Coordinator m κ ω} {rows : κ → List ρ}
  {trail : Trail m σ ρ}

variable (htracked : coordinator.Tracked rows trail)
include htracked

theorem leavesIn_commit (connection : κ) :
    trail.LeavesIn (Coordinator.onConnection (ω := ω) coordinator.store.commit connection)
      fun ended entries => entries = [.committed (rows connection) ended.1] := by
  apply Trail.Leaves.lift
  exact fun world => ⟨_, htracked.commit connection world, rfl⟩

theorem leaves_rollback (connection : κ) :
    trail.Leaves (coordinator.store.rollback connection) fun _ entries => entries = [] :=
  fun world => ⟨[], htracked.rollback connection world, rfl⟩

theorem leaves_group (batch : List Record) :
    trail.Leaves (coordinator.group batch) fun grouped entries =>
      Routes (coordinator.unroutable batch) grouped entries ∧
        ∀ groups unresolved, grouped = .ok (groups, unresolved) →
          groups = coordinator.groups batch ∧
            unresolved = (coordinator.unresolved batch).length := by
  rw [Coordinator.group]
  apply (leaves_routeUnresolved htracked _).bind
  intro routed entries hroutes
  cases routed with
  | error e => exact Trail.leaves_pure ⟨by rw [List.append_nil]; exact hroutes, by simp⟩
  | ok _ =>
      refine Trail.leaves_pure ⟨by rw [List.append_nil]; exact hroutes, ?_⟩
      intro groups unresolved hgrouped
      obtain ⟨hgroups, hunresolved⟩ := Prod.mk.inj (Except.ok.inj hgrouped)
      exact ⟨hgroups.symm, hunresolved.symm⟩

variable [LawfulMonad m]

/-- Groups meet their fates one after the other, up to one that fails the batch. -/
theorem leavesAt_processGroups (done : List TableOutcome) (groups : List Group)
    (turn : Turn σ κ ω) :
    trail.LeavesAt turn (coordinator.processGroups done groups)
      (GroupsEnd coordinator trail.toRunner rows done groups turn) := by
  induction groups generalizing done turn with
  | nil =>
      have hmet : GroupsEnd coordinator trail.toRunner rows done [] turn
          (.ok (done.reverse ++ [])) turn.connection [] :=
        .met [] rfl trivial clean_nil fun _ => (List.append_nil _).symm
      rw [List.append_nil] at hmet
      exact (Trail.leavesOn_pure hmet).leavesAt
  | cons group rest ih =>
      rw [Coordinator.processGroups]
      apply (leavesAt_processGroup htracked group turn).bind
      · intro e changed entries hends
        cases hends with
        | halted _ _ hhalts =>
            exact .halted e changed [] List.nil_prefix trivial clean_nil hhalts
      · intro outcome after entries hrun hends
        have hnext : after = coordinator.nextTurn trail.toRunner group turn := by
          rw [Coordinator.nextTurn, hrun]
        cases hends with
        | met ending hmet hclean hkept =>
            apply Trail.LeavesFrom.imp (ih _ after)
            rintro ⟨result, last⟩ more hrest
            cases hrest with
            | met fates hgroups hmeets hrestClean hrestKept =>
                have hmet : GroupsEnd coordinator trail.toRunner rows done (group :: rest)
                    turn _ last _ :=
                  .met (⟨group, ending⟩ :: fates) (congrArg (group :: ·) hgroups)
                    ⟨hmet, hnext ▸ hmeets⟩ (clean_cons hclean hrestClean) fun hmarks => by
                      rw [hrestKept hmarks, hkept hmarks, List.append_assoc, List.flatMap_cons]
                have houtcomes : (Fate.mk group ending).outcome :: done =
                    [(Fate.mk group ending).outcome] ++ done := rfl
                rw [houtcomes, List.reverse_append, List.append_assoc]
                exact hmet
            | halted e _ fates hgroups hmeets hrestClean hhalts =>
                rw [← List.append_assoc]
                exact .halted e last (⟨group, ending⟩ :: fates)
                  (List.prefix_cons_inj group |>.mpr hgroups) ⟨hmet, hnext ▸ hmeets⟩
                  (clean_cons hclean hrestClean) hhalts

/-- The groups of a connection are committed together. -/
theorem leavesAt_writeAndCommit (unresolved : Nat) {groups : List Group} (hgroups : groups ≠ [])
    (turn : Turn σ κ ω)
    (hnew : coordinator.store.Marks trail.toRunner rows → rows turn.connection = []) :
    trail.LeavesAt turn (coordinator.writeAndCommit unresolved groups) fun result _ =>
      GroupsTrail coordinator trail.toRunner rows unresolved groups (.ok turn) result := by
  rw [Coordinator.writeAndCommit]
  apply (leavesAt_processGroups htracked [] groups turn).bind
  · intro e changed entries hends
    cases hends with
    | halted _ _ fates hprefix hmeets hclean hhalts =>
        exact .failed e fates hprefix (.inr ⟨turn, rfl, hmeets⟩) hclean hhalts
  · rintro tables ⟨cache, world, changed⟩ entries _ hends
    apply Trail.LeavesOn.leavesAt
    cases hends with
    | met fates hall hmeets hclean hkept =>
        have hfrom : coordinator.MeetsFrom trail.toRunner (.ok turn) fates :=
          .inr ⟨turn, rfl, hmeets⟩
        apply Trail.leavesOn_lift_bind (fun committed _ entries =>
          entries = [.committed (rows changed) committed]) (leavesIn_commit htracked changed)
        rintro committed last _ rfl
        cases committed with
        | error e =>
            apply Trail.leavesOn_throw
            rw [List.append_nil]
            exact .failed _ fates (hall ▸ List.prefix_refl _) hfrom hclean (.inr rfl)
        | ok _ =>
            apply Trail.leavesOn_pure
            have hsome : fates.isEmpty = false := by
              rw [List.isEmpty_eq_false_iff]
              rintro rfl
              exact hgroups hall.symm
            have hcommit : commitEntries fates (rows changed) =
                [.committed (rows changed) (.ok ())] := by
              rw [commitEntries, hsome]
              rfl
            rw [List.append_nil, ← hcommit]
            exact .committed fates _ hall hfrom hclean fun hmarks => by
              rw [hkept hmarks, hnew hmarks, List.nil_append]

/-- A transaction leaves the trail of its groups, also when it is rolled back. -/
theorem leavesFrom_transact (unresolved : Nat) {groups : List Group} (hgroups : groups ≠ [])
    (cache : WriterCache ω) (world : σ) :
    trail.LeavesFrom cache world (coordinator.transact unresolved groups)
      (GroupsTrail coordinator trail.toRunner rows unresolved groups
        (coordinator.opening trail.toRunner cache world)) := by
  have hconnect : trail.Leaves coordinator.store.connect fun answer entries => entries = [] ∧
      ∀ connection, answer = .ok connection →
        coordinator.store.Marks trail.toRunner rows → rows connection = [] :=
    fun world => ⟨[], htracked.connect world, rfl, fun connection hanswer hmarks =>
      hmarks.connect world connection hanswer⟩
  rw [Coordinator.transact]
  apply hconnect.lift_bind
  rintro connected later _ hconnected ⟨rfl, hnew⟩
  cases connected with
  | error e =>
      exact Trail.leavesIn_pure
        (.failed _ [] List.nil_prefix (.inl rfl) clean_nil (.inr rfl)) _ _
  | ok connection =>
      rw [Coordinator.opening, hconnected]
      apply Trail.LeavesFrom.bind (leavesAt_writeAndCommit htracked unresolved hgroups
        ⟨cache, later, connection⟩ (hnew connection rfl))
      rintro ⟨result, changed⟩ last final entries _ htrail
      cases result with
      | ok outcome =>
          exact Trail.leavesIn_pure (by rw [List.append_nil]; exact htrail) _ _
      | error e =>
          apply (leaves_rollback htracked changed).lift_bind
          rintro undone _ _ _ rfl
          exact Trail.leavesIn_pure (by
            rw [List.append_nil, List.append_nil]
            exact htrail) _ _

theorem leavesFrom_writeRecords (batch : List Record) (cache : WriterCache ω) (world : σ) :
    trail.LeavesFrom cache world (coordinator.writeRecords batch)
      (BatchTrail coordinator trail.toRunner rows batch cache world) := by
  rw [Coordinator.writeRecords]
  apply (leaves_group htracked batch).lift_bind
  rintro grouped later entries hgroup ⟨hroutes, hgrouped⟩
  cases grouped with
  | error e =>
      refine Trail.leavesIn_pure ?_ _ _
      rw [List.append_nil]
      exact .stopped e hroutes
  | ok grouped =>
      obtain ⟨groups, unresolved⟩ := grouped
      obtain ⟨rfl, rfl⟩ := hgrouped groups unresolved rfl
      obtain rfl : entries = TrailEntry.routedAll (coordinator.unroutable batch) := hroutes
      simp only
      split
      · rename_i hempty
        refine Trail.leavesIn_pure (.grouped ?_) _ _
        exact .committed [] [] (List.isEmpty_iff.mp hempty).symm (.inl rfl) clean_nil fun _ => rfl
      · rename_i hsome
        apply (leavesFrom_transact htracked _ (mt List.isEmpty_iff.mpr hsome) _ _).imp
        intro result entries htrail
        apply BatchTrail.grouped
        rwa [Coordinator.firstTurn, hgroup]

/-- Writing a batch leaves the trail of the batch. -/
theorem leavesFrom_writeBatch (books : Books) (batch : List Record) (cache : WriterCache ω)
    (world : σ) :
    trail.LeavesFrom cache world (coordinator.writeBatch books batch) fun answer =>
      BatchTrail coordinator trail.toRunner rows batch cache world answer.1 := by
  rw [Coordinator.writeBatch]
  cases hempty : batch.isEmpty with
  | true =>
      simp only [if_true]
      obtain rfl := List.isEmpty_iff.mp hempty
      refine (Trail.leavesNothing_maintain htracked.workshop books.cleaner).bind ?_ cache world
      intro swept
      apply Trail.leavesIn_pure
      have htrail : GroupsTrail coordinator trail.toRunner rows 0 (coordinator.groups [])
          (coordinator.firstTurn trail.toRunner [] cache world) (.ok {}) [] :=
        .committed [] [] (Coordinator.groups_eq_nil (by simp)).symm (.inl rfl) clean_nil
          fun _ => rfl
      exact .grouped htrail
  | false =>
      simp only [Bool.false_eq_true, if_false]
      apply (leavesFrom_writeRecords htracked batch cache world).bind
      intro result after later entries _ htrail
      cases result with
      | error e => exact Trail.leavesIn_pure (by rw [List.append_nil]; exact htrail) _ _
      | ok outcome => exact Trail.leavesIn_pure (by rw [List.append_nil]; exact htrail) _ _

end

end TableRouting

import TableRouting.Proofs.Batch.Course
import TableRouting.Proofs.Grouping
import TableRouting.Proofs.Journal

/-!
# Grouping a batch in one pass

A batch can be grouped in one pass over its records: a record goes to the group of its
table, which a map of places finds, or begins a group at the end, and a record that does
not resolve is routed where it stands.  This is the same as routing first and grouping
afterwards.  The groups are a stable partition of the records that resolve.
-/

namespace TableRouting

variable {m : Type → Type} {σ κ ω ρ : Type}

/-- Groups that are being filled, with the place of each table among them. -/
structure Sorting where
  groups : Array Group := #[]
  places : Std.HashMap String Nat := {}
  errored : Nat := 0

namespace Sorting

def put (sorting : Sorting) (table : String) (record : Record) : Sorting :=
  match sorting.places[table]? with
  | some place =>
    { sorting with
      groups := sorting.groups.modify place fun group => (group.1, group.2 ++ [record]) }
  | none =>
    { sorting with
      groups := sorting.groups.push (table, [record])
      places := sorting.places.insert table sorting.groups.size }

def putAll (sorting : Sorting) (pairs : List (String × Record)) : Sorting :=
  pairs.foldl (fun sorting pair => sorting.put pair.1 pair.2) sorting

def countErrored (sorting : Sorting) (count : Nat) : Sorting :=
  { sorting with errored := sorting.errored + count }

@[simp] theorem countErrored_zero (sorting : Sorting) : sorting.countErrored 0 = sorting := rfl

theorem countErrored_countErrored (sorting : Sorting) (first second : Nat) :
    (sorting.countErrored first).countErrored second = sorting.countErrored (first + second) := by
  simp [countErrored, Nat.add_assoc]

@[simp] theorem groups_countErrored (sorting : Sorting) (count : Nat) :
    (sorting.countErrored count).groups = sorting.groups := rfl

theorem put_countErrored (sorting : Sorting) (count : Nat) (table : String) (record : Record) :
    (sorting.countErrored count).put table record =
      (sorting.put table record).countErrored count := by
  simp only [put, countErrored]
  split <;> rfl

@[simp] theorem errored_put (sorting : Sorting) (table : String) (record : Record) :
    (sorting.put table record).errored = sorting.errored := by
  rw [put]
  split <;> rfl

@[simp] theorem errored_putAll (sorting : Sorting) (pairs : List (String × Record)) :
    (sorting.putAll pairs).errored = sorting.errored := by
  induction pairs generalizing sorting with
  | nil => rfl
  | cons pair rest ih => exact (ih _).trans (errored_put _ _ _)

theorem putAll_countErrored (sorting : Sorting) (count : Nat) (pairs : List (String × Record)) :
    (sorting.countErrored count).putAll pairs = (sorting.putAll pairs).countErrored count := by
  induction pairs generalizing sorting with
  | nil => rfl
  | cons pair rest ih =>
      rw [putAll, List.foldl_cons, put_countErrored]
      exact ih _

/-- The groups are those of the records that were put in, and the map is in step with
them: it has each table, and no other, at the place of its group. -/
structure Shows (sorting : Sorting) (pairs : List (String × Record)) : Prop where
  groups_eq : sorting.groups.toList = Coordinator.groupByTable pairs
  place_iff : ∀ (table : String) (place : Nat), sorting.places[table]? = some place ↔
    (sorting.groups[place]?).map Prod.fst = some table

theorem shows_empty : ({} : Sorting).Shows [] where
  groups_eq := by simp [Coordinator.groupByTable, Grouping.group_eq]
  place_iff table place := by simp

section

variable {sorting : Sorting} {pairs : List (String × Record)}

theorem Shows.map_fst (hshows : sorting.Shows pairs) :
    sorting.groups.toList.map Prod.fst = (pairs.map Prod.fst).eraseDups := by
  rw [hshows.groups_eq]
  exact Grouping.map_fst_group pairs

/-- A table without a place has no record yet. -/
theorem Shows.not_mem_of_places (hshows : sorting.Shows pairs) {table : String}
    (hplace : sorting.places[table]? = none) : table ∉ pairs.map Prod.fst := by
  intro htable
  rw [← List.mem_eraseDups, ← hshows.map_fst, List.mem_map] at htable
  obtain ⟨group, hgroup, rfl⟩ := htable
  obtain ⟨place, hfound⟩ := List.getElem?_of_mem hgroup
  rw [Array.getElem?_toList] at hfound
  have hknown := (hshows.place_iff group.1 place).mpr (by rw [hfound, Option.map_some])
  rw [hplace] at hknown
  exact nomatch hknown

/-- What is at the place of a table is its group, and nothing else is. -/
theorem Shows.modify_eq (hshows : sorting.Shows pairs) {table : String} {place : Nat}
    (hplace : sorting.places[table]? = some place) (f : Group → Group) :
    sorting.groups.toList.modify place f =
      sorting.groups.toList.map fun group => if group.1 == table then f group else group := by
  apply List.ext_getElem?
  intro other
  rw [List.getElem?_modify, List.getElem?_map]
  cases hother : sorting.groups.toList[other]? with
  | none => rfl
  | some group =>
      rw [Array.getElem?_toList] at hother
      by_cases hsame : place = other
      · have hnamed := (hshows.place_iff table place).mp hplace
        rw [hsame, hother, Option.map_some, Option.some.injEq] at hnamed
        simp [hsame, hnamed]
      · have hne : group.1 ≠ table := by
          rintro rfl
          have hfound := (hshows.place_iff group.1 other).mpr (by rw [hother, Option.map_some])
          exact hsame (Option.some.inj (hplace.symm.trans hfound))
        simp [hsame, hne]

/-- One record more leaves the groups and the map in step. -/
theorem Shows.put (hshows : sorting.Shows pairs) (table : String) (record : Record) :
    (sorting.put table record).Shows (pairs ++ [(table, record)]) := by
  rw [Sorting.put]
  split
  · rename_i place hplace
    have hknown : table ∈ pairs.map Prod.fst := by
      obtain ⟨group, hgroup, hname⟩ :=
        Option.map_eq_some_iff.mp ((hshows.place_iff table place).mp hplace)
      rw [← List.mem_eraseDups, ← hshows.map_fst, ← hname]
      exact List.mem_map_of_mem (Array.mem_toList_iff.mpr (Array.mem_of_getElem? hgroup))
    constructor
    · rw [Array.toList_modify, hshows.modify_eq hplace, hshows.groups_eq]
      exact (Grouping.group_concat_of_mem hknown record).symm
    · intro other position
      rw [hshows.place_iff, Array.getElem?_modify]
      split <;> simp [Function.comp_def]
  · rename_i hplace
    have hnew := hshows.not_mem_of_places hplace
    constructor
    · rw [Array.toList_push, hshows.groups_eq]
      exact (Grouping.group_concat_of_not_mem hnew record).symm
    · intro other position
      rw [Std.HashMap.getElem?_insert, Array.getElem?_push]
      by_cases hother : table = other
      · have hunused : ∀ earlier, (sorting.groups[earlier]?).map Prod.fst ≠ some table :=
          fun earlier hfound =>
            nomatch hplace.symm.trans ((hshows.place_iff table earlier).mpr hfound)
        by_cases hlast : position = sorting.groups.size
        · simp [hother, hlast]
        · rw [if_neg hlast, ← hother, beq_self_eq_true, if_pos rfl]
          exact iff_of_false (fun hsize => hlast (Option.some.inj hsize).symm) (hunused position)
      · rw [beq_false_of_ne hother, if_neg Bool.false_ne_true, hshows.place_iff]
        by_cases hlast : position = sorting.groups.size
        · simp [hother, hlast]
        · rw [if_neg hlast]

theorem Shows.putAll (hshows : sorting.Shows pairs) (more : List (String × Record)) :
    (sorting.putAll more).Shows (pairs ++ more) := by
  induction more generalizing sorting pairs with
  | nil => rwa [List.append_nil]
  | cons pair rest ih =>
      have hrest := ih (hshows.put pair.1 pair.2)
      rwa [List.append_assoc] at hrest

end

end Sorting

namespace Coordinator

def sort [Monad m] (coordinator : Coordinator m κ ω) (sorting : Sorting) :
    List Record → m (Except WriteError Sorting)
  | [] => pure (.ok sorting)
  | record :: rest =>
    match coordinator.resolve record with
    | .ok table => coordinator.sort (sorting.put table record) rest
    | .error e => do
      match ← coordinator.route record (.evaluation e) with
      | .error e => pure (.error e)
      | .ok () => coordinator.sort (sorting.countErrored 1) rest

section

variable (coordinator : Coordinator m κ ω) {record : Record} {table : String}
  {e : EvaluationError} (rest : List Record)

theorem resolved_cons_ok (hresolve : coordinator.resolve record = .ok table) :
    coordinator.resolved (record :: rest) = (table, record) :: coordinator.resolved rest := by
  simp [resolved, hresolve]

theorem resolved_cons_error (hresolve : coordinator.resolve record = .error e) :
    coordinator.resolved (record :: rest) = coordinator.resolved rest := by
  simp [resolved, hresolve]

theorem unresolved_cons_ok (hresolve : coordinator.resolve record = .ok table) :
    coordinator.unresolved (record :: rest) = coordinator.unresolved rest := by
  simp [unresolved, hresolve]

theorem unresolved_cons_error (hresolve : coordinator.resolve record = .error e) :
    coordinator.unresolved (record :: rest) = (record, e) :: coordinator.unresolved rest := by
  simp [unresolved, hresolve]

theorem resolved_append (first : List Record) :
    coordinator.resolved (first ++ rest) =
      coordinator.resolved first ++ coordinator.resolved rest :=
  List.filterMap_append

end

section

variable [Monad m] [LawfulMonad m] (coordinator : Coordinator m κ ω)

/-- Sorting routes the records that do not resolve, in their order, and puts the others
into their groups. -/
theorem sort_eq (sorting : Sorting) (batch : List Record) :
    coordinator.sort sorting batch =
      coordinator.routeUnresolved (coordinator.unresolved batch) >>= fun
      | .error e => pure (.error e)
      | .ok () => pure (.ok ((sorting.putAll (coordinator.resolved batch)).countErrored
          (coordinator.unresolved batch).length)) := by
  induction batch generalizing sorting with
  | nil => simp [sort, unresolved, resolved, routeUnresolved, Sorting.putAll]
  | cons record rest ih =>
      rw [sort]
      cases hresolve : coordinator.resolve record with
      | ok table =>
          rw [unresolved_cons_ok _ _ hresolve, resolved_cons_ok _ _ hresolve]
          exact ih _
      | error e =>
          rw [unresolved_cons_error _ _ hresolve, resolved_cons_error _ _ hresolve,
            routeUnresolved, bind_assoc]
          apply bind_congr
          intro answer
          cases answer with
          | error e => rw [pure_bind]
          | ok _ =>
              simp only [ih, Sorting.putAll_countErrored, Sorting.countErrored_countErrored,
                List.length_cons, Nat.add_comm 1]

/-- Grouping is sorting from the start. -/
theorem group_eq_sort (batch : List Record) :
    coordinator.group batch = coordinator.sort {} batch >>= fun
      | .error e => pure (.error e)
      | .ok sorting => pure (.ok (sorting.groups.toList, sorting.errored)) := by
  have hgroups := (Sorting.shows_empty.putAll (coordinator.resolved batch)).groups_eq
  rw [List.nil_append] at hgroups
  rw [group, sort_eq, bind_assoc]
  apply bind_congr
  intro answer
  cases answer with
  | error e => rw [pure_bind]
  | ok _ =>
      rw [pure_bind]
      simp [Sorting.countErrored, hgroups]

end

/-- A coordinator that enters the failures that it routes in a journal. -/
def routingJournal [Monad m] (coordinator : Coordinator m κ ω) (ρ : Type) :
    Coordinator (JournalT (TrailEntry ρ) m) κ ω where
  resolve := coordinator.resolve
  store := coordinator.store.inJournal
  route record cause := enter (.routed record cause) (coordinator.route record cause)
  rollbackOnError := coordinator.rollbackOnError

def resolvesTo (coordinator : Coordinator m κ ω) (table : String) (record : Record) : Bool :=
  (coordinator.resolve record).toOption == some table

/-- The groups of a batch are a stable partition of the records that resolve. -/
structure Partitions (coordinator : Coordinator m κ ω) (batch : List Record) (groups : List Group)
    (errored : Nat) (routed : List (Record × FailureCause)) : Prop where
  distinct : (groups.map Prod.fst).Nodup
  /-- The groups are in the order in which their tables first appear. -/
  ordered : groups.Pairwise fun earlier later =>
    batch.findIdx (coordinator.resolvesTo earlier.1) <
      batch.findIdx (coordinator.resolvesTo later.1)
  nonempty : ∀ group ∈ groups, group.2 ≠ []
  /-- A group has the records that are for its table, in their order. -/
  records_eq : ∀ group ∈ groups, group.2 = batch.filter (coordinator.resolvesTo group.1)
  /-- The records in no group are those that do not resolve. -/
  left : ∀ record ∈ batch,
    (∀ group ∈ groups, record ∉ group.2) ↔ ∃ e, coordinator.resolve record = .error e
  /-- They are routed once each, in their order. -/
  routed_eq : routed = coordinator.unroutable batch
  errored_eq : errored = routed.length
  total : errored + (groups.map fun group => group.2.length).sum = batch.length

/-- What grouping a batch leaves: groups, or a failure that was not taken. -/
def Grouped (coordinator : Coordinator m κ ω) (batch : List Record) :
    Except WriteError (List Group × Nat) → List (TrailEntry ρ) → Prop
  | .ok (groups, errored), entries => ∃ routed, entries = TrailEntry.routedAll routed ∧
      coordinator.Partitions batch groups errored routed
  | .error e, entries => ∃ before last,
      entries = TrailEntry.routedAll before ++ [.routed last.1 last.2 (.error e)] ∧
        before ++ [last] <+: coordinator.unroutable batch

/-- The groups, the map and the count are those of the records that were seen, and what
was routed are the records among them that do not resolve. -/
structure Sorts (coordinator : Coordinator m κ ω) (seen : List Record) (sorting : Sorting)
    (routed : List (Record × FailureCause)) : Prop where
  shows : sorting.Shows (coordinator.resolved seen)
  routed_eq : routed = coordinator.unroutable seen
  errored_eq : sorting.errored = routed.length

section

variable {coordinator : Coordinator m κ ω} {seen : List Record} {sorting : Sorting}
  {routed : List (Record × FailureCause)} {record : Record}

theorem sorts_empty (coordinator : Coordinator m κ ω) : coordinator.Sorts [] {} [] where
  shows := Sorting.shows_empty
  routed_eq := rfl
  errored_eq := rfl

theorem unroutable_append (coordinator : Coordinator m κ ω) (first rest : List Record) :
    coordinator.unroutable (first ++ rest) =
      coordinator.unroutable first ++ coordinator.unroutable rest := by
  rw [unroutable, unresolved, List.filterMap_append, List.map_append]
  rfl

theorem unroutable_of_ok {table : String} (hresolve : coordinator.resolve record = .ok table) :
    coordinator.unroutable [record] = [] := by
  rw [unroutable, unresolved_cons_ok _ _ hresolve]
  rfl

theorem unroutable_of_error {e : EvaluationError}
    (hresolve : coordinator.resolve record = .error e) :
    coordinator.unroutable [record] = [(record, .evaluation e)] := by
  rw [unroutable, unresolved_cons_error _ _ hresolve]
  rfl

theorem Sorts.put (hsorts : coordinator.Sorts seen sorting routed) {table : String}
    (hresolve : coordinator.resolve record = .ok table) :
    coordinator.Sorts (seen ++ [record]) (sorting.put table record) routed where
  shows := by
    rw [resolved_append, resolved_cons_ok _ _ hresolve]
    exact hsorts.shows.put table record
  routed_eq := by
    rw [unroutable_append, unroutable_of_ok hresolve, List.append_nil, hsorts.routed_eq]
  errored_eq := (Sorting.errored_put _ _ _).trans hsorts.errored_eq

theorem Sorts.route (hsorts : coordinator.Sorts seen sorting routed) {e : EvaluationError}
    (hresolve : coordinator.resolve record = .error e) :
    coordinator.Sorts (seen ++ [record]) (sorting.countErrored 1)
      (routed ++ [(record, .evaluation e)]) where
  shows := by
    rw [resolved_append, resolved_cons_error _ _ hresolve]
    exact ⟨by simpa [resolved] using hsorts.shows.groups_eq, hsorts.shows.place_iff⟩
  routed_eq := by rw [unroutable_append, unroutable_of_error hresolve, hsorts.routed_eq]
  errored_eq := by simp [Sorting.countErrored, hsorts.errored_eq]

end

/-- What is left of a run of sorting: the groups, or a failure that was not taken. -/
def SortsOn (coordinator : Coordinator m κ ω) (seen rest : List Record)
    (routed : List (Record × FailureCause)) :
    Except WriteError Sorting → List (TrailEntry ρ) → Prop
  | .ok sorting, entries => ∃ more, entries = TrailEntry.routedAll more ∧
      coordinator.Sorts (seen ++ rest) sorting (routed ++ more)
  | .error e, entries => ∃ before last,
      entries = TrailEntry.routedAll before ++ [.routed last.1 last.2 (.error e)] ∧
        routed ++ (before ++ [last]) <+: coordinator.unroutable (seen ++ rest)

section

variable {coordinator : Coordinator m κ ω} {seen rest : List Record} {record : Record}
  {routed : List (Record × FailureCause)} {result : Except WriteError Sorting}
  {entries : List (TrailEntry ρ)}

theorem SortsOn.cons (hsorts : coordinator.SortsOn (seen ++ [record]) rest routed result entries) :
    coordinator.SortsOn seen (record :: rest) routed result entries := by
  have hseen : seen ++ record :: rest = seen ++ [record] ++ rest := by simp
  cases result <;> rwa [SortsOn, hseen]

theorem SortsOn.cons_routed {cause : FailureCause}
    (hsorts : coordinator.SortsOn seen rest (routed ++ [(record, cause)]) result entries) :
    coordinator.SortsOn seen rest routed result (.routed record cause (.ok ()) :: entries) := by
  cases result with
  | ok sorting =>
      obtain ⟨more, hentries, hsorted⟩ := hsorts
      refine ⟨(record, cause) :: more, congrArg _ hentries, ?_⟩
      rwa [List.append_assoc] at hsorted
  | error e =>
      obtain ⟨before, last, hentries, hpart⟩ := hsorts
      refine ⟨(record, cause) :: before, last, congrArg _ hentries, ?_⟩
      rwa [List.append_assoc] at hpart

end

/-- Each record keeps the groups, the map, the count and the journal in step. -/
theorem journals_sort (coordinator : Coordinator (StateM σ) κ ω) {seen : List Record}
    {sorting : Sorting} {routed : List (Record × FailureCause)}
    (hsorts : coordinator.Sorts seen sorting routed) (rest : List Record) :
    Journals ((coordinator.routingJournal ρ).sort sorting rest)
      (coordinator.sort sorting rest) (coordinator.SortsOn seen rest routed) := by
  induction rest generalizing seen sorting routed with
  | nil =>
      refine journals_pure ⟨[], rfl, ?_⟩
      rwa [List.append_nil, List.append_nil]
  | cons record rest ih =>
      have hsame : (coordinator.routingJournal ρ).resolve record =
          coordinator.resolve record := rfl
      rw [sort, sort, hsame]
      cases hresolve : coordinator.resolve record with
      | ok table => exact (ih (hsorts.put hresolve)).imp fun _ _ => SortsOn.cons
      | error e =>
          apply (journals_enter _ _).bind
          rintro answer entries rfl
          cases answer with
          | ok _ =>
              apply (ih (hsorts.route hresolve)).imp
              intro result more hmore
              exact hmore.cons_routed.cons
          | error refusal =>
              refine journals_pure ⟨[], (record, .evaluation e), rfl, ?_⟩
              have hseen : seen ++ record :: rest = seen ++ [record] ++ rest := by simp
              rw [hseen, unroutable_append, unroutable_append, List.nil_append, hsorts.routed_eq,
                unroutable_of_error hresolve]
              exact List.prefix_append _ _

section

variable {coordinator : Coordinator m κ ω} {batch : List Record} {sorting : Sorting}
  {routed : List (Record × FailureCause)}

theorem filter_resolved (coordinator : Coordinator m κ ω) (batch : List Record) (table : String) :
    ((coordinator.resolved batch).filter fun pair => pair.1 == table).map Prod.snd =
      batch.filter (coordinator.resolvesTo table) := by
  induction batch with
  | nil => rfl
  | cons record rest ih =>
      rw [List.filter_cons, resolvesTo]
      cases hresolve : coordinator.resolve record with
      | error e =>
          rw [resolved_cons_error _ _ hresolve, ih]
          rfl
      | ok name =>
          rw [resolved_cons_ok _ _ hresolve, List.filter_cons]
          by_cases hname : name = table
          · simp [hname, ih, Except.toOption]
          · simp [hname, ih, Except.toOption]

theorem resolvesTo_iff {table : String} {record : Record} :
    coordinator.resolvesTo table record = true ↔ coordinator.resolve record = .ok table := by
  rw [resolvesTo]
  cases coordinator.resolve record <;> simp [Except.toOption]

theorem map_fst_resolved (coordinator : Coordinator m κ ω) (batch : List Record) :
    (coordinator.resolved batch).map Prod.fst =
      batch.filterMap fun record => (coordinator.resolve record).toOption := by
  rw [resolved, List.map_filterMap]
  congr 1
  funext record
  cases coordinator.resolve record <;> rfl

/-- The records of a group are those that are for its table. -/
theorem records_of_mem_groups {group : Group} (hgroup : group ∈ coordinator.groups batch) :
    group.2 = batch.filter (coordinator.resolvesTo group.1) := by
  rw [(Grouping.mem_group.mp hgroup).2, filter_resolved]

/-- The records that resolve are in groups, and no others are. -/
theorem exists_group_iff (coordinator : Coordinator m κ ω) {record : Record}
    (hrecord : record ∈ batch) :
    (∃ group ∈ coordinator.groups batch, record ∈ group.2) ↔
      ∃ table, coordinator.resolve record = .ok table := by
  constructor
  · rintro ⟨group, hgroup, hmem⟩
    exact ⟨group.1, resolve_of_mem_groups hgroup record hmem⟩
  · rintro ⟨table, hresolve⟩
    refine ⟨(table, batch.filter (coordinator.resolvesTo table)), ?_, ?_⟩
    · refine Grouping.mem_group.mpr ⟨?_, (filter_resolved _ _ _).symm⟩
      exact List.mem_map_of_mem (mem_resolved.mpr ⟨hrecord, hresolve⟩)
    · exact List.mem_filter.mpr ⟨hrecord, resolvesTo_iff.mpr hresolve⟩

/-- Sorting a whole batch partitions it. -/
theorem Sorts.partitions (hsorts : coordinator.Sorts batch sorting routed) :
    coordinator.Partitions batch sorting.groups.toList sorting.errored routed := by
  have hgroups : sorting.groups.toList = coordinator.groups batch := hsorts.shows.groups_eq
  rw [hgroups]
  exact {
    distinct := Grouping.nodup_group _
    ordered := by
      have hordered := Grouping.pairwise_findIdx
        (fun record => (coordinator.resolve record).toOption) batch
      rw [← map_fst_resolved, ← Grouping.map_fst_group, List.pairwise_map] at hordered
      exact hordered
    nonempty := fun group hgroup => Grouping.group_ne_nil hgroup
    records_eq := fun group hgroup => records_of_mem_groups hgroup
    left := by
      intro record hrecord
      have hgrouped := coordinator.exists_group_iff hrecord
      cases hresolve : coordinator.resolve record with
      | ok table =>
          obtain ⟨group, hgroup, hmem⟩ := hgrouped.mpr ⟨table, hresolve⟩
          exact iff_of_false (fun hnone => hnone group hgroup hmem) nofun
      | error e =>
          refine iff_of_true (fun group hgroup hmem => ?_) ⟨e, rfl⟩
          obtain ⟨table, hok⟩ := hgrouped.mp ⟨group, hgroup, hmem⟩
          exact nomatch hresolve.symm.trans hok
    routed_eq := hsorts.routed_eq
    errored_eq := hsorts.errored_eq
    total := by
      rw [hsorts.errored_eq, hsorts.routed_eq, unroutable, List.length_map, groups, groupByTable,
        Grouping.sum_length_group, Nat.add_comm, length_resolved_add] }

end

/-- Grouping a batch partitions it, whatever resolves and takes its records. -/
theorem group_partitions (coordinator : Coordinator (StateM σ) κ ω) (batch : List Record) :
    Journals ((coordinator.routingJournal ρ).group batch) (coordinator.group batch)
      (coordinator.Grouped batch) := by
  rw [group_eq_sort, group_eq_sort]
  apply (journals_sort coordinator (sorts_empty coordinator) batch).bind
  intro result entries hsorted
  cases result with
  | ok sorting =>
      obtain ⟨routed, rfl, hsorts⟩ := hsorted
      exact journals_pure ⟨routed, List.append_nil _, hsorts.partitions⟩
  | error e =>
      obtain ⟨before, last, rfl, hpart⟩ := hsorted
      exact journals_pure ⟨before, last, by rw [List.append_nil], hpart⟩

end Coordinator

end TableRouting

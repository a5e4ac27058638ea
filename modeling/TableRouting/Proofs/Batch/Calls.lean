import TableRouting.Proofs.Batch.Watching

/-!
# The calls of a batch

In what order a store is called when a batch is written: there is a connection, on it
one group after the other is written behind a savepoint, and in the end there is a
commit or a rollback.
-/

namespace TableRouting

variable {α : Type}

namespace Call

def isConnect : Call → Bool
  | .connect _ => true
  | _ => false

def isSavepoint : Call → Bool
  | .savepoint _ => true
  | _ => false

def isCommit : Call → Bool
  | .commit _ => true
  | _ => false

def isRollback : Call → Bool
  | .rollback _ => true
  | _ => false

def written? : Call → Option (List Record)
  | .write records _ => some records
  | _ => none

def isInside : Call → Bool
  | .savepoint _ | .write _ _ | .rollbackTo _ _ => true
  | .connect _ | .commit _ | .rollback _ => false

variable {call : Call}

theorem isConnect_eq_false (hcall : call.isInside = true) : call.isConnect = false := by
  cases call <;> trivial

theorem isCommit_eq_false (hcall : call.isInside = true) : call.isCommit = false := by
  cases call <;> trivial

theorem isRollback_eq_false (hcall : call.isInside = true) : call.isRollback = false := by
  cases call <;> trivial

end Call

/-- The calls in which the writer of a group is used, and what comes of it. -/
inductive WriteCalls (records : List Record) :
    Except Unavailable (Except StoreError WriteReport) → List Call → Prop
  | unwritten (result : Except Unavailable (Except StoreError WriteReport)) :
      WriteCalls records result []
  | written (answer : Except StoreError WriteReport) :
      WriteCalls records (.ok answer) [.write records answer]

theorem WriteCalls.atMostOnce {records : List Record}
    {result : Except Unavailable (Except StoreError WriteReport)} {calls : List Call}
    (hcalls : WriteCalls records result calls) :
    calls = [] ∨ ∃ answer, calls = [.write records answer] := by
  cases hcalls with
  | unwritten => exact .inl rfl
  | written answer => exact .inr ⟨answer, rfl⟩

/-- The calls in which a group is written. -/
inductive GroupCalls (records : List Record) : List Call → Prop
  | unmarked (e : StoreError) : GroupCalls records [.savepoint (.error e)]
  | marked (mark : Nat) {written undone : List Call}
      (hwritten : written = [] ∨ ∃ answer, written = [.write records answer])
      (hundone : undone = [] ∨ ∃ answer, undone = [.rollbackTo mark answer]) :
      GroupCalls records (.savepoint (.ok mark) :: (written ++ undone))

/-- The calls in which groups are written, up to one that fails the batch. -/
inductive GroupsCalls : List Group → List Call → Prop
  | nil (groups : List Group) : GroupsCalls groups []
  | cons {group : Group} {rest : List Group} {calls more : List Call}
      (hcalls : GroupCalls group.2 calls) (hmore : GroupsCalls rest more) :
      GroupsCalls (group :: rest) (calls ++ more)

/-- The calls in which groups are written and committed, and what comes of it. -/
inductive CommitCalls (groups : List Group) : Except WriteError α → List Call → Prop
  | committed (answer : α) {calls : List Call} (hcalls : GroupsCalls groups calls)
      (hall : calls.countP Call.isSavepoint = groups.length) :
      CommitCalls groups (.ok answer) (calls ++ [.commit (.ok ())])
  | failed (e : WriteError) {calls refused : List Call} (hcalls : GroupsCalls groups calls)
      (hrefused : refused = [] ∨ ∃ refusal, refused = [.commit (.error refusal)]) :
      CommitCalls groups (.error e) (calls ++ refused)

/-- The calls of a transaction, and what comes of it. -/
inductive Transaction (groups : List Group) : Except WriteError α → List Call → Prop
  | refused (e : WriteError) (refusal : StoreError) :
      Transaction groups (.error e) [.connect (.error refusal)]
  | committed (answer : α) {calls : List Call} (hcalls : CommitCalls groups (.ok answer) calls) :
      Transaction groups (.ok answer) (.connect (.ok ()) :: calls)
  | rolledBack (e : WriteError) {calls : List Call}
      (hcalls : CommitCalls (α := α) groups (.error e) calls)
      (undone : Except StoreError Unit) :
      Transaction groups (.error e) (.connect (.ok ()) :: (calls ++ [.rollback undone]))

/-- The calls of a batch: at most one transaction, and none without groups. -/
inductive BatchCalls (groups : List Group) : Except WriteError α → List Call → Prop
  | none {result : Except WriteError α} (hnone : ∀ answer, result = .ok answer → groups = []) :
      BatchCalls groups result []
  | one {result : Except WriteError α} {calls : List Call} (hgroups : groups ≠ [])
      (hcalls : Transaction groups result calls) : BatchCalls groups result calls

/-- Whatever is written is written right behind a savepoint, the one of its group: before
it there is one savepoint for each group that comes before. -/
def Marked (groups : List Group) (calls : List Call) : Prop :=
  ∀ before records answer after, calls = before ++ .write records answer :: after →
    ∃ earlier mark table, before = earlier ++ [.savepoint (.ok mark)] ∧
      groups[earlier.countP Call.isSavepoint]? = some (table, records)

section

variable {groups : List Group} {records : List Record} {calls tail : List Call}

theorem GroupCalls.inside (hcalls : GroupCalls records calls) :
    ∀ call ∈ calls, call.isInside = true := by
  cases hcalls with
  | unmarked e => simp [Call.isInside]
  | marked mark hwritten hundone =>
      rcases hwritten with rfl | ⟨answer, rfl⟩ <;> rcases hundone with rfl | ⟨undone, rfl⟩ <;>
        simp [Call.isInside]

theorem GroupCalls.countP_isSavepoint (hcalls : GroupCalls records calls) :
    calls.countP Call.isSavepoint = 1 := by
  cases hcalls with
  | unmarked e => rfl
  | marked mark hwritten hundone =>
      rcases hwritten with rfl | ⟨answer, rfl⟩ <;> rcases hundone with rfl | ⟨undone, rfl⟩ <;> rfl

theorem GroupCalls.written_sublist (hcalls : GroupCalls records calls) :
    (calls.filterMap Call.written?).Sublist [records] := by
  cases hcalls with
  | unmarked e => exact List.nil_sublist _
  | @marked mark written undone hwritten hundone =>
      have hlast : undone.filterMap Call.written? = [] := by
        rcases hundone with rfl | ⟨undone, rfl⟩ <;> rfl
      rw [List.filterMap_cons, List.filterMap_append, hlast, List.append_nil]
      rcases hwritten with rfl | ⟨answer, rfl⟩
      · exact List.nil_sublist _
      · exact List.Sublist.refl _

/-- What is written for a group are its records, behind its savepoint. -/
theorem GroupCalls.eq_of_write {before after : List Call} {written : List Record}
    {answer : Except StoreError WriteReport}
    (hcalls : GroupCalls records (before ++ .write written answer :: after)) :
    written = records ∧ ∃ mark, before = [.savepoint (.ok mark)] := by
  generalize hall : before ++ .write written answer :: after = calls at hcalls
  cases hcalls with
  | unmarked e => simp [List.append_eq_cons_iff] at hall
  | @marked mark first undone hwritten hundone =>
      have hnone (later : List Call) : later ++ .write written answer :: after ≠ undone := by
        rintro rfl
        rcases hundone with hundone | ⟨undone, hundone⟩ <;>
          simp [List.append_eq_cons_iff] at hundone
      rcases List.append_eq_cons_iff.mp hall with ⟨-, hfirst⟩ | ⟨later, rfl, hlater⟩
      · simp at hfirst
      · rcases hwritten with rfl | ⟨report, rfl⟩
        · exact absurd hlater.symm (hnone later)
        · rcases List.append_eq_cons_iff.mp hlater.symm with ⟨rfl, hsame⟩ | ⟨more, -, hmore⟩
          · obtain ⟨hrecords, -⟩ := Call.write.inj (List.cons.inj hsame).1
            exact ⟨hrecords, mark, rfl⟩
          · exact absurd hmore.symm (hnone more)

theorem GroupsCalls.inside (hcalls : GroupsCalls groups calls) :
    ∀ call ∈ calls, call.isInside = true := by
  induction hcalls with
  | nil => simp
  | cons hcalls _ ih =>
      intro call hcall
      rcases List.mem_append.mp hcall with hfirst | hmore
      · exact hcalls.inside call hfirst
      · exact ih call hmore

theorem GroupsCalls.written_sublist (hcalls : GroupsCalls groups calls) :
    (calls.filterMap Call.written?).Sublist (groups.map Prod.snd) := by
  induction hcalls with
  | nil => exact List.nil_sublist _
  | cons hcalls _ ih =>
      rw [List.filterMap_append, List.map_cons]
      exact hcalls.written_sublist.append ih

theorem GroupsCalls.marked (hcalls : GroupsCalls groups calls) : Marked groups calls := by
  induction hcalls with
  | nil => simp [Marked]
  | @cons group rest calls more hcalls _ ih =>
      intro before records answer after hall
      rcases List.append_eq_append_iff.mp hall with
        ⟨between, rfl, hbetween⟩ | ⟨later, hlater, hrest⟩
      · obtain ⟨earlier, mark, table, rfl, hgroup⟩ := ih between records answer after hbetween
        refine ⟨calls ++ earlier, mark, table, (List.append_assoc ..).symm, ?_⟩
        rw [List.countP_append, hcalls.countP_isSavepoint, Nat.add_comm, List.getElem?_cons_succ]
        exact hgroup
      · cases later with
        | nil =>
            obtain ⟨earlier, mark, table, hnil, -⟩ := ih [] records answer after hrest.symm
            simp at hnil
        | cons first later =>
            obtain ⟨rfl, -⟩ := List.cons.inj hrest
            rw [hlater] at hcalls
            obtain ⟨rfl, mark, rfl⟩ := hcalls.eq_of_write
            exact ⟨[], mark, group.1, rfl, rfl⟩

theorem Marked.append (hmarked : Marked groups calls)
    (htail : ∀ call ∈ tail, call.isInside = false) : Marked groups (calls ++ tail) := by
  intro before records answer after hall
  rcases List.append_eq_append_iff.mp hall with ⟨between, rfl, hbetween⟩ | ⟨later, rfl, hlater⟩
  · have hwrite := htail (.write records answer) (by rw [hbetween]; simp)
    simp [Call.isInside] at hwrite
  · cases later with
    | nil =>
        rw [List.nil_append] at hlater
        have hwrite := htail (.write records answer) (hlater ▸ List.mem_cons_self)
        simp [Call.isInside] at hwrite
    | cons first later =>
        obtain ⟨rfl, -⟩ := List.cons.inj hlater
        exact hmarked before records answer later rfl

theorem Marked.connect (hmarked : Marked groups calls) (answer : Except StoreError Unit) :
    Marked groups (.connect answer :: calls) := by
  intro before records written after hall
  rcases List.append_eq_cons_iff.mp hall.symm with ⟨-, hwritten⟩ | ⟨later, rfl, hlater⟩
  · simp at hwritten
  · obtain ⟨earlier, mark, table, rfl, hgroup⟩ := hmarked later records written after hlater
    refine ⟨.connect answer :: earlier, mark, table, rfl, ?_⟩
    rw [List.countP_cons_of_neg (by simp [Call.isSavepoint])]
    exact hgroup

/-- What is counted on a connection is counted before and after the groups. -/
theorem GroupsCalls.countP_opened (hcalls : GroupsCalls groups calls) (p : Call → Bool)
    (hp : ∀ call, call.isInside = true → p call = false) (opened : Call) (tail : List Call) :
    (opened :: (calls ++ tail)).countP p = [opened].countP p + tail.countP p := by
  have hinside : calls.countP p = 0 := by
    rw [List.countP_eq_zero]
    intro call hcall
    rw [hp call (hcalls.inside call hcall)]
    exact Bool.false_ne_true
  rw [← List.singleton_append, List.countP_append, List.countP_append, hinside, Nat.zero_add]

end

/-- How a store is called when the groups of a batch are written. -/
structure Disciplined (groups : List Group) (result : Except WriteError α) (calls : List Call) :
    Prop where
  connectedOnce : calls.countP Call.isConnect ≤ 1
  /-- Whatever succeeds on a connection was committed at last, and only then. -/
  committed : .connect (.ok ()) ∈ calls → ∀ answer, result = .ok answer →
    calls.countP Call.isCommit = 1 ∧ calls.getLast? = some (.commit (.ok ())) ∧
      calls.countP Call.isRollback = 0
  /-- Whatever fails on a connection was rolled back at last, and not committed. -/
  rolledBack : .connect (.ok ()) ∈ calls → ∀ e, result = .error e →
    calls.countP Call.isRollback = 1 ∧ (∃ answer, calls.getLast? = some (.rollback answer)) ∧
      .commit (.ok ()) ∉ calls
  /-- Whatever succeeds has come to every group. -/
  complete : ∀ answer, result = .ok answer → groups ≠ [] →
    .connect (.ok ()) ∈ calls ∧ calls.countP Call.isSavepoint = groups.length
  /-- What is written are the records of groups, one group after the other. -/
  written : (calls.filterMap Call.written?).Sublist (groups.map Prod.snd)
  marked : Marked groups calls

section

variable {groups : List Group} {calls : List Call}

theorem Disciplined.none {result : Except WriteError α}
    (hnone : ∀ answer, result = .ok answer → groups = []) : Disciplined groups result [] where
  connectedOnce := Nat.zero_le _
  committed hmem := absurd hmem List.not_mem_nil
  rolledBack hmem := absurd hmem List.not_mem_nil
  complete answer hanswer hgroups := absurd (hnone answer hanswer) hgroups
  written := List.nil_sublist _
  marked := (GroupsCalls.nil groups).marked

theorem Disciplined.refused (groups : List Group) (e : WriteError) (refusal : StoreError) :
    Disciplined (α := α) groups (.error e) [.connect (.error refusal)] where
  connectedOnce := Nat.le_refl _
  committed hmem := by simp at hmem
  rolledBack hmem := by simp at hmem
  complete answer hanswer := by simp at hanswer
  written := List.nil_sublist _
  marked := (GroupsCalls.nil groups).marked.connect _

theorem GroupsCalls.written_opened (hcalls : GroupsCalls groups calls)
    (answer : Except StoreError Unit) {tail : List Call}
    (htail : tail.filterMap Call.written? = []) :
    ((.connect answer :: (calls ++ tail)).filterMap Call.written?).Sublist
      (groups.map Prod.snd) := by
  rw [List.filterMap_cons, List.filterMap_append, htail, List.append_nil]
  exact hcalls.written_sublist

theorem GroupsCalls.committed (hcalls : GroupsCalls groups calls)
    (hall : calls.countP Call.isSavepoint = groups.length) (answer : α) :
    Disciplined groups (.ok answer) (.connect (.ok ()) :: (calls ++ [.commit (.ok ())])) where
  connectedOnce :=
    Nat.le_of_eq (hcalls.countP_opened _ (fun _ => Call.isConnect_eq_false) _ _)
  committed _ _ _ := by
    refine ⟨hcalls.countP_opened _ (fun _ => Call.isCommit_eq_false) _ _, ?_,
      hcalls.countP_opened _ (fun _ => Call.isRollback_eq_false) _ _⟩
    rw [← List.cons_append, List.getLast?_concat]
  rolledBack _ e he := by simp at he
  complete _ _ _ := by
    refine ⟨List.mem_cons_self, ?_⟩
    rw [List.countP_cons_of_neg (by simp [Call.isSavepoint]), List.countP_append, hall]
    rfl
  written := hcalls.written_opened _ rfl
  marked := (hcalls.marked.append (by simp [Call.isInside])).connect _

theorem GroupsCalls.rolledBack (hcalls : GroupsCalls groups calls) {refused : List Call}
    (hrefused : refused = [] ∨ ∃ refusal, refused = [.commit (.error refusal)]) (e : WriteError)
    (undone : Except StoreError Unit) :
    Disciplined (α := α) groups (.error e)
      (.connect (.ok ()) :: (calls ++ refused ++ [.rollback undone])) where
  connectedOnce := by
    rw [List.append_assoc, hcalls.countP_opened _ (fun _ => Call.isConnect_eq_false)]
    rcases hrefused with rfl | ⟨refusal, rfl⟩ <;> exact Nat.le_refl _
  committed _ answer hanswer := by simp at hanswer
  rolledBack _ _ _ := by
    refine ⟨?_, ⟨undone, ?_⟩, ?_⟩
    · rw [List.append_assoc, hcalls.countP_opened _ (fun _ => Call.isRollback_eq_false)]
      rcases hrefused with rfl | ⟨refusal, rfl⟩ <;> rfl
    · rw [← List.cons_append, List.getLast?_concat]
    · have hinside : .commit (.ok ()) ∉ calls := fun hmem => by
        simpa [Call.isInside] using hcalls.inside _ hmem
      rcases hrefused with rfl | ⟨refusal, rfl⟩ <;> simp [hinside]
  complete answer hanswer := by simp at hanswer
  written := by
    rw [List.append_assoc]
    apply hcalls.written_opened
    rcases hrefused with rfl | ⟨refusal, rfl⟩ <;> rfl
  marked := by
    rw [List.append_assoc]
    apply Marked.connect
    apply hcalls.marked.append
    rcases hrefused with rfl | ⟨refusal, rfl⟩ <;> simp [Call.isInside]

end

/-- The calls of a batch are as they should be. -/
theorem BatchCalls.disciplined {groups : List Group} {result : Except WriteError α}
    {calls : List Call} (hbatch : BatchCalls groups result calls) :
    Disciplined groups result calls := by
  cases hbatch with
  | none hnone => exact .none hnone
  | one _ hcalls =>
      cases hcalls with
      | refused e refusal => exact .refused groups e refusal
      | committed answer hcalls =>
          cases hcalls with
          | committed _ hcalls hall => exact hcalls.committed hall answer
      | rolledBack e hcalls undone =>
          cases hcalls with
          | failed _ hcalls hrefused => exact hcalls.rolledBack hrefused e undone

end TableRouting

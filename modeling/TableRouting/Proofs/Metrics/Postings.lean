import Mathlib.Algebra.BigOperators.Group.List.Basic
import Mathlib.Data.UInt
import TableRouting.Metrics.Basic

/-!
# Postings to counters

The counters of a sink change by postings, each of an amount to one counter.  What a
counter shows, and what the counters of all tables show together, grows with every posting
by the amount that is posted to it; so the order of postings does not matter, and every
counter shows the sum of the amounts that were posted to it, modulo the size of a word.
-/

namespace TableRouting

/-- The counters of a sink. -/
inductive Counter where
  | batches
  | emptyBatches
  | fatalBatches
  | written
  | errored
  | discarded
  | tableWritten (table : String)
  | tableErrored (table : String)
  deriving DecidableEq

namespace Counter

def isTableWritten : Counter → Bool
  | tableWritten _ => true
  | _ => false

def isTableErrored : Counter → Bool
  | tableErrored _ => true
  | _ => false

end Counter

/-- An amount that is added to a counter. -/
structure Posting where
  counter : Counter
  amount : Nat
  deriving DecidableEq

namespace Posting

/-- The sum of what is posted to some counters. -/
def amountTo (counters : Counter → Bool) (postings : List Posting) : Nat :=
  ((postings.filter fun posting => counters posting.counter).map amount).sum

variable {counters : Counter → Bool} {postings others : List Posting}

@[simp] theorem amountTo_nil : amountTo counters [] = 0 := rfl

@[simp] theorem amountTo_cons (posting : Posting) :
    amountTo counters (posting :: postings) =
      (if counters posting.counter then posting.amount else 0) + amountTo counters postings := by
  rw [amountTo, amountTo, List.filter_cons]
  split
  · rw [List.map_cons, List.sum_cons]
  · rw [Nat.zero_add]

@[simp] theorem amountTo_append :
    amountTo counters (postings ++ others) =
      amountTo counters postings + amountTo counters others := by
  rw [amountTo, List.filter_append, List.map_append, List.sum_append]
  rfl

theorem amountTo_perm (hperm : postings.Perm others) :
    amountTo counters postings = amountTo counters others :=
  ((hperm.filter _).map _).sum_eq

theorem amountTo_flatMap {α : Type} (made : α → List Posting) (sources : List α) :
    amountTo counters (sources.flatMap made) =
      (sources.map fun source => amountTo counters (made source)).sum := by
  induction sources with
  | nil => rfl
  | cons source rest ih =>
      rw [List.flatMap_cons, amountTo_append, ih, List.map_cons, List.sum_cons]

end Posting

namespace Metrics

def post (metrics : Metrics) (posting : Posting) : Metrics :=
  let amount := UInt64.ofNat posting.amount
  match posting.counter with
  | .batches => { metrics with batches := metrics.batches + amount }
  | .emptyBatches => { metrics with emptyBatches := metrics.emptyBatches + amount }
  | .fatalBatches => { metrics with fatalBatches := metrics.fatalBatches + amount }
  | .written => { metrics with written := metrics.written + amount }
  | .errored => { metrics with errored := metrics.errored + amount }
  | .discarded => { metrics with discarded := metrics.discarded + amount }
  | .tableWritten table => metrics.addTableWritten table amount
  | .tableErrored table => metrics.addTableErrored table amount

def postAll (metrics : Metrics) (postings : List Posting) : Metrics := postings.foldl post metrics

theorem postAll_append (metrics : Metrics) (first second : List Posting) :
    metrics.postAll (first ++ second) = (metrics.postAll first).postAll second :=
  List.foldl_append

def shown (metrics : Metrics) : Counter → UInt64
  | .batches => metrics.batches
  | .emptyBatches => metrics.emptyBatches
  | .fatalBatches => metrics.fatalBatches
  | .written => metrics.written
  | .errored => metrics.errored
  | .discarded => metrics.discarded
  | .tableWritten table => metrics.writtenTo table
  | .tableErrored table => metrics.erroredIn table

def total (counters : Std.TreeMap String UInt64) : UInt64 := (counters.toList.map Prod.snd).sum

/-- One of several values with distinct keys, and the others. -/
theorem sum_map_snd {pairs : List (String × UInt64)}
    (hdistinct : pairs.Pairwise fun first second => first.1 ≠ second.1) {key : String}
    {value : UInt64} (hmem : (key, value) ∈ pairs) :
    (pairs.map Prod.snd).sum =
      value + ((pairs.filter fun pair => ¬ (key == pair.1) = true).map Prod.snd).sum := by
  induction pairs with
  | nil => exact absurd hmem List.not_mem_nil
  | cons pair rest ih =>
      obtain ⟨hfirst, hrest⟩ := List.pairwise_cons.mp hdistinct
      rcases List.mem_cons.mp hmem with rfl | hlater
      · have hothers : (rest.filter fun pair => ¬ (key == pair.1) = true) = rest := by
          apply List.filter_eq_self.mpr
          intro other hother
          simpa using hfirst other hother
        rw [List.filter_cons_of_neg (by simp), hothers, List.map_cons, List.sum_cons]
      · have hother : ¬ (key == pair.1) = true := by simpa using (hfirst _ hlater).symm
        rw [List.filter_cons_of_pos (by exact decide_eq_true hother), List.map_cons, List.map_cons,
          List.sum_cons, List.sum_cons, ih hrest hlater, add_left_comm]

variable {counters : Std.TreeMap String UInt64} {table : String}

theorem total_of_getElem? {value : UInt64} (hvalue : counters[table]? = some value) :
    total counters = value +
      ((counters.toList.filter fun pair => ¬ (table == pair.1) = true).map Prod.snd).sum := by
  apply sum_map_snd
  · exact Std.TreeMap.distinct_keys_toList.imp fun hne heq =>
      hne (Std.LawfulEqCmp.compare_eq_iff_eq.mpr heq)
  · exact Std.TreeMap.mem_toList_iff_getElem?_eq_some.mpr hvalue

/-- Adding to the counter of a table adds to what the counters show together. -/
theorem total_addTo (count : UInt64) :
    total (addTo counters table count) = total counters + count := by
  rw [addTo]
  split
  · rename_i hzero
    rw [hzero, add_zero]
  · -- The entry comes before those of all other tables, in place of the one the table had.
    have hadded := (Std.TreeMap.toList_insert_perm (t := counters) (k := table)
      (v := counters.getD table 0 + count)).map Prod.snd
    rw [total, hadded.sum_eq, List.map_cons, List.sum_cons, Std.TreeMap.getD_eq_getD_getElem?]
    cases hvalue : counters[table]? with
    | none =>
        have hothers : (counters.toList.filter fun pair => ¬ (table == pair.1) = true) =
            counters.toList := by
          apply List.filter_eq_self.mpr
          intro pair hpair
          have hpresent := Std.TreeMap.mem_toList_iff_getElem?_eq_some.mp hpair
          have hne : ¬ table = pair.1 := by
            rintro rfl
            cases hvalue.symm.trans hpresent
          simpa using hne
        rw [hothers, Option.getD_none, zero_add, add_comm]
        rfl
    | some value => rw [total_of_getElem? hvalue, Option.getD_some, add_right_comm]

theorem total_empty : total {} = 0 := rfl

/-- A posting changes what its counter shows, and no other counter. -/
theorem shown_post (metrics : Metrics) (posting : Posting) (counter : Counter) :
    (metrics.post posting).shown counter = metrics.shown counter +
      if posting.counter = counter then UInt64.ofNat posting.amount else 0 := by
  obtain ⟨posted, amount⟩ := posting
  cases posted <;> cases counter <;>
    simp [post, shown, addTableWritten, addTableErrored, writtenTo, erroredIn, getD_addTo]

theorem totalWritten_post (metrics : Metrics) (posting : Posting) :
    total (metrics.post posting).tableWritten = total metrics.tableWritten +
      if posting.counter.isTableWritten then UInt64.ofNat posting.amount else 0 := by
  obtain ⟨posted, amount⟩ := posting
  cases posted <;>
    simp [post, Counter.isTableWritten, addTableWritten, addTableErrored, total_addTo]

theorem totalErrored_post (metrics : Metrics) (posting : Posting) :
    total (metrics.post posting).tableErrored = total metrics.tableErrored +
      if posting.counter.isTableErrored then UInt64.ofNat posting.amount else 0 := by
  obtain ⟨posted, amount⟩ := posting
  cases posted <;>
    simp [post, Counter.isTableErrored, addTableWritten, addTableErrored, total_addTo]

/-- What grows with every posting to some counters by the amount that is posted. -/
structure Reading where
  value : Metrics → UInt64
  counters : Counter → Bool
  value_empty : value {} = 0
  value_post : ∀ metrics posting, value (metrics.post posting) =
    value metrics + if counters posting.counter then UInt64.ofNat posting.amount else 0

namespace Reading

def one (counter : Counter) : Reading where
  value := (shown · counter)
  counters posted := posted = counter
  value_empty := by cases counter <;> rfl
  value_post metrics posting := by simpa using shown_post metrics posting counter

def written : Reading where
  value metrics := total metrics.tableWritten
  counters := Counter.isTableWritten
  value_empty := total_empty
  value_post := totalWritten_post

def errored : Reading where
  value metrics := total metrics.tableErrored
  counters := Counter.isTableErrored
  value_empty := total_empty
  value_post := totalErrored_post

/-- After some postings a reading shows what they add up to. -/
theorem value_postAll (reading : Reading) (metrics : Metrics) (postings : List Posting) :
    reading.value (metrics.postAll postings) =
      reading.value metrics + UInt64.ofNat (Posting.amountTo reading.counters postings) := by
  induction postings generalizing metrics with
  | nil => exact (add_zero _).symm
  | cons posting rest ih =>
      have hrest : metrics.postAll (posting :: rest) = (metrics.post posting).postAll rest := rfl
      rw [hrest, ih, reading.value_post, Posting.amountTo_cons, UInt64.ofNat_add, add_assoc]
      split <;> rfl

end Reading

end Metrics

end TableRouting

import Mathlib.Data.List.Basic
import TableRouting.Proofs.Grouping

/-!
# Regrouping a list

Putting the values of a list together by their keys keeps the values, and the order
of those that share a key.  It changes the order of a list unless the values of every
key stand together already.  Whatever is done with the values one after the other
comes to the same if values of different keys commute.
-/

namespace TableRouting.Grouping

variable {κ α σ : Type} [BEq κ] {key : α → κ} {values : List α}

/-- Values put together by their keys: the keys in the order of their first appearance,
and the values of each in their own order. -/
def regroup (key : α → κ) (values : List α) : List α :=
  (values.map key).eraseDups.flatMap fun shared => values.filter fun value => key value == shared

/-- The values of every key stand together. -/
def Together (key : α → κ) (values : List α) : Prop :=
  ∀ first between last, [first, between, last].Sublist values →
    key first = key last → key between = key first

@[simp] theorem regroup_nil (key : α → κ) : regroup key [] = [] := rfl

omit [BEq κ] in
theorem Together.sublist {fewer : List α} (htogether : Together key values)
    (hsublist : fewer.Sublist values) : Together key fewer :=
  fun first between last hthree => htogether first between last (hthree.trans hsublist)

/-- A list is taken apart key by key: the first value with those that share its key, and
then the others. -/
theorem regroupInduction (key : α → κ) {motive : List α → Prop} (nil : motive [])
    (cons : ∀ value rest, motive (rest.filter fun other => !key other == key value) →
      motive (value :: rest)) (values : List α) : motive values := by
  induction hlength : values.length using Nat.strongRecOn generalizing values with
  | ind length ih =>
      cases values with
      | nil => exact nil
      | cons value rest =>
          apply cons
          apply ih _ _ _ rfl
          rw [← hlength]
          exact Nat.lt_succ_of_le (List.length_filter_le _ _)

/-- Doing something before a list of things that it commutes with. -/
theorem foldl_apply (apply : σ → α → σ) {value : α} (state : σ)
    (hcommutes : ∀ other ∈ values, ∀ state,
      apply (apply state value) other = apply (apply state other) value) :
    values.foldl apply (apply state value) = apply (values.foldl apply state) value := by
  induction values generalizing state with
  | nil => rfl
  | cons other rest ih =>
      rw [List.foldl_cons, List.foldl_cons, hcommutes other List.mem_cons_self]
      exact ih (apply state other) fun later hlater =>
        hcommutes later (List.mem_cons_of_mem other hlater)

/-- Some values can go first if the others commute with them. -/
theorem foldl_filter_append (apply : σ → α → σ) (p : α → Bool) (state : σ)
    (hcommutes : ∀ value ∈ values, ∀ other ∈ values, p value = false → p other = true →
      ∀ state, apply (apply state value) other = apply (apply state other) value) :
    (values.filter p ++ values.filter fun value => !p value).foldl apply state =
      values.foldl apply state := by
  induction values generalizing state with
  | nil => rfl
  | cons value rest ih =>
      have hrest := fun state => ih state fun first hfirst second hsecond =>
        hcommutes first (List.mem_cons_of_mem value hfirst) second
          (List.mem_cons_of_mem value hsecond)
      cases hvalue : p value with
      | true =>
          simp only [List.filter_cons, hvalue, Bool.not_true, if_true, Bool.false_eq_true, if_false]
          exact hrest (apply state value)
      | false =>
          have hbefore : ∀ other ∈ rest.filter p, ∀ state,
              apply (apply state value) other = apply (apply state other) value := by
            intro other hother
            obtain ⟨hmem, hp⟩ := List.mem_filter.mp hother
            exact hcommutes value List.mem_cons_self other (List.mem_cons_of_mem value hmem)
              hvalue hp
          simp only [List.filter_cons, hvalue, Bool.not_false, if_true, Bool.false_eq_true,
            if_false]
          calc
            (rest.filter p ++ value :: rest.filter fun other => !p other).foldl apply state
              = (rest.filter fun other => !p other).foldl apply
                  (apply ((rest.filter p).foldl apply state) value) := by
                rw [List.foldl_append, List.foldl_cons]
            _ = (rest.filter fun other => !p other).foldl apply
                  ((rest.filter p).foldl apply (apply state value)) := by
                rw [foldl_apply apply state hbefore]
            _ = (rest.filter p ++ rest.filter fun other => !p other).foldl apply
                  (apply state value) := by
                rw [List.foldl_append]
            _ = rest.foldl apply (apply state value) := hrest _

variable [LawfulBEq κ]

theorem regroup_cons (key : α → κ) (value : α) (rest : List α) :
    regroup key (value :: rest) =
      value :: ((rest.filter fun other => key other == key value) ++
        regroup key (rest.filter fun other => !key other == key value)) := by
  have hkeys : ((rest.map key).filter fun other => !other == key value) =
      (rest.filter fun other => !key other == key value).map key := by
    rw [List.filter_map]
    rfl
  have hown : (value :: rest).filter (fun other => key other == key value) =
      value :: rest.filter fun other => key other == key value :=
    List.filter_cons_of_pos (beq_self_eq_true (key value))
  rw [regroup, List.map_cons, List.eraseDups_cons, List.flatMap_cons, hown, List.cons_append, hkeys]
  congr 2
  apply List.flatMap_congr
  intro shared hshared
  -- The keys that are left are those of other values.
  obtain ⟨other, hother, hsame⟩ := List.mem_map.mp (List.mem_eraseDups.mp hshared)
  have hne : (key value == shared) = false := by
    have hdistinct := (List.mem_filter.mp hother).2
    rw [hsame] at hdistinct
    rw [Bool.beq_comm]
    simpa using hdistinct
  rw [List.filter_cons_of_neg (by simp [hne]), List.filter_filter]
  apply List.filter_congr
  intro later _
  by_cases hlater : key later = shared
  · rw [hlater, beq_self_eq_true, Bool.beq_comm, hne]
    rfl
  · rw [beq_eq_false_iff_ne.mpr hlater]
    rfl

/-- Regrouping a list keeps its values. -/
theorem regroup_perm (key : α → κ) (values : List α) : (regroup key values).Perm values := by
  induction values using regroupInduction key with
  | nil => exact List.Perm.refl _
  | cons value rest ih =>
      rw [regroup_cons]
      apply List.Perm.cons
      exact (ih.append_left _).trans
        (List.filter_append_perm (fun other => key other == key value) rest)

/-- Regrouping a list keeps the order of the values that share a key. -/
theorem filter_regroup (key : α → κ) (values : List α) (shared : κ) :
    (regroup key values).filter (fun value => key value == shared) =
      values.filter fun value => key value == shared := by
  induction values using regroupInduction key with
  | nil => rfl
  | cons value rest ih =>
      rw [regroup_cons, List.filter_cons, List.filter_cons, List.filter_append, ih,
        List.filter_filter, List.filter_filter]
      by_cases hvalue : key value = shared
      · subst hvalue
        simp
      · have hothers : ∀ other : α, (key other == shared && key other == key value) = false := by
          intro other
          by_cases hother : key other = shared
          · simp [hother, Ne.symm hvalue]
          · simp [hother]
        have hkept : ∀ other : α,
            (key other == shared && !key other == key value) = (key other == shared) := by
          intro other
          by_cases hother : key other = shared
          · simp [hother, Ne.symm hvalue]
          · simp [hother]
        simp only [hothers, hkept, List.filter_false, List.nil_append]

theorem together_regroup (key : α → κ) (values : List α) : Together key (regroup key values) := by
  induction values using regroupInduction key with
  | nil =>
      intro first between last hthree
      exact absurd hthree.length_le (by simp)
  | cons value rest ih =>
      rw [regroup_cons, ← List.cons_append]
      intro first between last hthree hends
      obtain ⟨before, after, hsplit, hbefore, hafter⟩ := List.sublist_append_iff.mp hthree
      have hshared : ∀ other ∈ before, key other = key value := by
        intro other hother
        rcases List.mem_cons.mp (hbefore.subset hother) with rfl | hmem
        · rfl
        · exact eq_of_beq (List.mem_filter.mp hmem).2
      have hdistinct : ∀ other ∈ after, key other ≠ key value := by
        intro other hother hsame
        have hmem := (regroup_perm key _).subset (hafter.subset hother)
        simpa [hsame] using (List.mem_filter.mp hmem).2
      cases before with
      | nil =>
          rw [List.nil_append] at hsplit
          exact ih first between last (hsplit ▸ hafter) hends
      | cons head more =>
          obtain rfl : first = head := (List.cons.inj hsplit).1
          have hmore : [between, last] = more ++ after := (List.cons.inj hsplit).2
          have hfirst := hshared first List.mem_cons_self
          -- The last one is not among the others, so that they have none of the three.
          have hnone : after = [] := by
            rcases List.eq_nil_or_concat after with hnil | ⟨init, other, rfl⟩
            · exact hnil
            · rw [List.concat_eq_append, ← List.append_assoc] at hmore
              have hends' := congrArg List.getLast? hmore
              rw [List.getLast?_concat] at hends'
              obtain rfl : last = other := Option.some.inj hends'
              exact absurd (hends.symm.trans hfirst) (hdistinct last (by simp))
          rw [hnone, List.append_nil] at hmore
          rw [hfirst]
          exact hshared between (List.mem_cons_of_mem first (hmore ▸ List.mem_cons_self))

theorem Together.filter_append {value : α} {rest : List α}
    (htogether : Together key (value :: rest)) :
    (rest.filter fun other => key other == key value) ++
      (rest.filter fun other => !key other == key value) = rest := by
  induction rest with
  | nil => rfl
  | cons other more ih =>
      by_cases hother : key other = key value
      · have hmore := ih (htogether.sublist ((List.sublist_cons_self other more).cons_cons value))
        have hown : (key other == key value) = true := beq_iff_eq.mpr hother
        simp only [List.filter_cons, hown, Bool.not_true, if_true, Bool.false_eq_true, if_false,
          List.cons_append, hmore]
      · have hlater : ∀ later ∈ more, key later ≠ key value := by
          intro later hmem hsame
          apply hother
          apply htogether value other later _ hsame.symm
          exact ((List.singleton_sublist.mpr hmem).cons_cons other).cons_cons value
        have hnone : (more.filter fun later => key later == key value) = [] := by
          rw [List.filter_eq_nil_iff]
          intro later hmem hsame
          exact hlater later hmem (eq_of_beq hsame)
        have hall : (more.filter fun later => !key later == key value) = more := by
          rw [List.filter_eq_self]
          intro later hmem
          simpa using hlater later hmem
        have hother : (key other == key value) = false := beq_eq_false_iff_ne.mpr hother
        simp only [List.filter_cons, hother, Bool.not_false, if_true, Bool.false_eq_true, if_false,
          hnone, hall, List.nil_append]

/-- Regrouping changes nothing just when the values of every key stand together. -/
theorem regroup_eq_self_iff : regroup key values = values ↔ Together key values := by
  constructor
  · intro hsame
    rw [← hsame]
    exact together_regroup key values
  · intro htogether
    induction values using regroupInduction key with
    | nil => rfl
    | cons value rest ih =>
        have hrest := ih (htogether.sublist
          ((List.filter_sublist (l := rest)).trans (List.sublist_cons_self value rest)))
        rw [regroup_cons, hrest, htogether.filter_append]

/-- What is done with the values one after the other comes to the same in the new order,
if values of different keys commute. -/
theorem foldl_regroup (apply : σ → α → σ) (state : σ)
    (hcommutes : ∀ value ∈ values, ∀ other ∈ values, key value ≠ key other →
      ∀ state, apply (apply state value) other = apply (apply state other) value) :
    (regroup key values).foldl apply state = values.foldl apply state := by
  induction values using regroupInduction key generalizing state with
  | nil => rfl
  | cons value rest ih =>
      have hrest : ∀ first ∈ rest, ∀ second ∈ rest, key first ≠ key second →
          ∀ state, apply (apply state first) second = apply (apply state second) first :=
        fun first hfirst second hsecond => hcommutes first (List.mem_cons_of_mem value hfirst)
          second (List.mem_cons_of_mem value hsecond)
      rw [regroup_cons, List.foldl_cons, List.foldl_append, ih, ← List.foldl_append,
        foldl_filter_append, List.foldl_cons]
      · intro first hfirst second hsecond hfalse htrue
        apply hrest first hfirst second hsecond
        intro hsame
        rw [hsame, htrue] at hfalse
        exact Bool.noConfusion hfalse
      · intro first hfirst second hsecond
        exact hrest first (List.mem_of_mem_filter hfirst) second (List.mem_of_mem_filter hsecond)

/-- The values of groups, group after group, are the values of the list regrouped. -/
theorem flatMap_snd_group [Hashable κ] (pairs : List (κ × α)) :
    (group pairs).flatMap Prod.snd = (regroup Prod.fst pairs).map Prod.snd := by
  rw [group_eq, List.flatMap_map, regroup, List.map_flatMap]

end TableRouting.Grouping

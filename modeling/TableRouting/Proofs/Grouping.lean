import Mathlib.Algebra.Ring.Nat
import Mathlib.Data.List.Basic
import Mathlib.Data.List.Induction
import TableRouting.Grouping

/-!
# Groups partition

The groups of a list of keyed values have distinct keys, in the order of their first
appearance, none is empty, and their sizes add up to the length of the list.
-/

namespace TableRouting.Grouping

variable {κ α : Type} [BEq κ] [LawfulBEq κ]

theorem nodup_eraseDups (keys : List κ) : keys.eraseDups.Nodup := by
  induction hlength : keys.length using Nat.strongRecOn generalizing keys with
  | ind n ih =>
      cases keys with
      | nil => exact List.nodup_nil
      | cons key rest =>
          rw [List.eraseDups_cons, List.nodup_cons]
          constructor
          · simp [List.mem_eraseDups]
          · have hshorter : (rest.filter fun other => !other == key).length < n := by
              rw [← hlength]
              exact Nat.lt_succ_of_le (List.length_filter_le _ _)
            exact ih _ hshorter _ rfl

theorem eraseDups_map {ι : Type} [BEq ι] [LawfulBEq ι] {f : ι → κ} (hinjective : f.Injective)
    (values : List ι) : (values.map f).eraseDups = values.eraseDups.map f := by
  induction hlength : values.length using Nat.strongRecOn generalizing values with
  | ind n ih =>
      cases values with
      | nil => rfl
      | cons value rest =>
          have hothers : (fun key => !key == f value) ∘ f = fun other => !other == value := by
            funext other
            exact congrArg (!·) (Bool.eq_iff_iff.mpr (by simp [hinjective.eq_iff]))
          have hshorter : (rest.filter fun other => !other == value).length < n := by
            rw [← hlength]
            exact Nat.lt_succ_of_le (List.length_filter_le _ _)
          rw [List.map_cons, List.eraseDups_cons, List.filter_map, hothers, ih _ hshorter _ rfl,
            List.eraseDups_cons, List.map_cons]

/-- Values sorted by keys that cover them are counted once each. -/
theorem sum_length_filter {keys : List κ} (hnodup : keys.Nodup) (pairs : List (κ × α))
    (hcover : ∀ pair ∈ pairs, pair.1 ∈ keys) :
    (keys.map fun key => (pairs.filter fun pair => pair.1 == key).length).sum = pairs.length := by
  induction keys generalizing pairs with
  | nil =>
      have hnil : pairs = [] := List.eq_nil_iff_forall_not_mem.mpr fun pair hpair =>
        absurd (hcover pair hpair) List.not_mem_nil
      rw [hnil]
      rfl
  | cons key rest ih =>
      obtain ⟨hfresh, hrest⟩ := List.nodup_cons.mp hnodup
      have hothers : (rest.map fun other => (pairs.filter fun pair => pair.1 == other).length) =
          rest.map fun other => ((pairs.filter fun pair => !pair.1 == key).filter
            fun pair => pair.1 == other).length := by
        apply List.map_congr_left
        intro other hother
        rw [List.filter_filter]
        congr 1
        apply List.filter_congr
        intro pair _
        by_cases h : pair.1 = other
        · have hne : pair.1 ≠ key := by
            rintro rfl
            exact hfresh (h ▸ hother)
          simp [h, h ▸ hne]
        · simp [h]
      have hremaining : ∀ pair ∈ pairs.filter fun pair => !pair.1 == key, pair.1 ∈ rest := by
        intro pair hpair
        obtain ⟨hmem, hne⟩ := List.mem_filter.mp hpair
        rcases List.mem_cons.mp (hcover pair hmem) with h | h
        · simp [h] at hne
        · exact h
      rw [List.map_cons, List.sum_cons, hothers, ih hrest _ hremaining]
      exact (List.length_eq_length_filter_add fun pair : κ × α => pair.1 == key).symm

theorem eraseDups_concat_of_mem {keys : List κ} {key : κ} (hkey : key ∈ keys) :
    (keys ++ [key]).eraseDups = keys.eraseDups := by
  have hnone : [key].removeAll keys = [] := by simpa [List.removeAll] using hkey
  rw [List.eraseDups_append, hnone, List.eraseDups_nil, List.append_nil]

theorem eraseDups_concat_of_not_mem {keys : List κ} {key : κ} (hkey : key ∉ keys) :
    (keys ++ [key]).eraseDups = keys.eraseDups ++ [key] := by
  have hnew : [key].removeAll keys = [key] := by simpa [List.removeAll] using hkey
  rw [List.eraseDups_append, hnew]
  rfl

/-- A key that was seen is found at the same place when values are added behind. -/
theorem findIdx_append_of_mem {ι : Type} {f : ι → Option κ} {values : List ι} {key : κ}
    (hkey : key ∈ values.filterMap f) (more : List ι) :
    (values ++ more).findIdx (f · == some key) = values.findIdx (f · == some key) ∧
      values.findIdx (f · == some key) < values.length := by
  have hseen : values.findIdx (f · == some key) < values.length := by
    obtain ⟨value, hvalue, hsome⟩ := List.mem_filterMap.mp hkey
    exact List.findIdx_lt_length_of_exists ⟨value, hvalue, beq_iff_eq.mpr hsome⟩
  exact ⟨by rw [List.findIdx_append, if_pos hseen], hseen⟩

/-- A key that was not seen is found at the first value behind. -/
theorem findIdx_concat_of_not_mem {ι : Type} {f : ι → Option κ} {values : List ι} {value : ι}
    {key : κ} (hkey : key ∉ values.filterMap f) (hvalue : f value = some key) :
    (values ++ [value]).findIdx (f · == some key) = values.length := by
  have hlate : values.findIdx (f · == some key) = values.length := by
    rw [List.findIdx_eq_length]
    intro earlier hearlier
    rw [beq_eq_false_iff_ne]
    intro hsome
    exact hkey (List.mem_filterMap.mpr ⟨earlier, hearlier, hsome⟩)
  rw [List.findIdx_append, hlate, if_neg (Nat.lt_irrefl _), List.findIdx_cons, hvalue]
  simp

/-- Keys without repetitions are in the order of their first appearance. -/
theorem pairwise_findIdx {ι : Type} (f : ι → Option κ) (values : List ι) :
    (values.filterMap f).eraseDups.Pairwise fun earlier later =>
      values.findIdx (f · == some earlier) < values.findIdx (f · == some later) := by
  induction values using List.reverseRecOn with
  | nil => exact List.Pairwise.nil
  | append_singleton values value ih =>
      have hbefore : (values.filterMap f).eraseDups.Pairwise fun earlier later =>
          (values ++ [value]).findIdx (f · == some earlier) <
            (values ++ [value]).findIdx (f · == some later) := by
        apply ih.imp_of_mem
        intro earlier later hearlier hlater hlt
        rwa [(findIdx_append_of_mem (List.mem_eraseDups.mp hearlier) _).1,
          (findIdx_append_of_mem (List.mem_eraseDups.mp hlater) _).1]
      cases hvalue : f value with
      | none => simpa [hvalue] using hbefore
      | some key =>
          rw [List.filterMap_append, List.filterMap_cons_some hvalue, List.filterMap_nil]
          by_cases hkey : key ∈ values.filterMap f
          · rwa [eraseDups_concat_of_mem hkey]
          · rw [eraseDups_concat_of_not_mem hkey]
            refine List.pairwise_append.mpr ⟨hbefore, List.pairwise_singleton _ _, ?_⟩
            intro earlier hearlier later hlater
            obtain rfl := List.mem_singleton.mp hlater
            obtain ⟨hsame, hearly⟩ :=
              findIdx_append_of_mem (List.mem_eraseDups.mp hearlier) [value]
            rwa [hsame, findIdx_concat_of_not_mem hkey hvalue]

variable [Hashable κ]

theorem map_fst_group (pairs : List (κ × α)) :
    (group pairs).map Prod.fst = (pairs.map Prod.fst).eraseDups := by
  rw [group_eq, List.map_map]
  exact List.map_id _

theorem nodup_group (pairs : List (κ × α)) : ((group pairs).map Prod.fst).Nodup := by
  rw [map_fst_group]
  exact nodup_eraseDups _

theorem sum_length_group (pairs : List (κ × α)) :
    ((group pairs).map fun g => g.2.length).sum = pairs.length := by
  rw [group_eq, List.map_map]
  have hcover : ∀ pair ∈ pairs, pair.1 ∈ (pairs.map Prod.fst).eraseDups := by
    intro pair hpair
    rw [List.mem_eraseDups]
    exact List.mem_map_of_mem hpair
  rw [← sum_length_filter (nodup_eraseDups _) pairs hcover]
  simp [Function.comp_def]

theorem mem_group {pairs : List (κ × α)} {key : κ} {values : List α} :
    (key, values) ∈ group pairs ↔ key ∈ pairs.map Prod.fst ∧
      values = (pairs.filter fun pair => pair.1 == key).map Prod.snd := by
  rw [group_eq, List.mem_map]
  constructor
  · rintro ⟨other, hother, hsame⟩
    obtain ⟨rfl, rfl⟩ := Prod.mk.inj hsame
    exact ⟨List.mem_eraseDups.mp hother, rfl⟩
  · rintro ⟨hkey, rfl⟩
    exact ⟨key, List.mem_eraseDups.mpr hkey, rfl⟩

/-- No group is empty. -/
theorem group_ne_nil {pairs : List (κ × α)} {key : κ} {values : List α}
    (hgroup : (key, values) ∈ group pairs) : values ≠ [] := by
  obtain ⟨hkey, rfl⟩ := mem_group.mp hgroup
  obtain ⟨pair, hpair, rfl⟩ := List.mem_map.mp hkey
  apply List.ne_nil_of_mem
  exact List.mem_map_of_mem (List.mem_filter.mpr ⟨hpair, beq_self_eq_true _⟩)

/-- A value of a known key goes to the end of its group. -/
theorem group_concat_of_mem {pairs : List (κ × α)} {key : κ} (hkey : key ∈ pairs.map Prod.fst)
    (value : α) :
    group (pairs ++ [(key, value)]) = (group pairs).map fun g =>
      if g.1 == key then (g.1, g.2 ++ [value]) else g := by
  rw [group_eq, group_eq, List.map_append, List.map_singleton, eraseDups_concat_of_mem hkey,
    List.map_map]
  apply List.map_congr_left
  intro other _
  rw [Function.comp_apply, List.filter_append, List.filter_singleton]
  by_cases hsame : key = other
  · simp [hsame]
  · have hother : (key == other) = false := beq_false_of_ne hsame
    simp [hother, Ne.symm hsame]

/-- A value of a new key makes a group at the end. -/
theorem group_concat_of_not_mem {pairs : List (κ × α)} {key : κ}
    (hkey : key ∉ pairs.map Prod.fst) (value : α) :
    group (pairs ++ [(key, value)]) = group pairs ++ [(key, [value])] := by
  have hnone : pairs.filter (fun pair => pair.1 == key) = [] := by
    rw [List.filter_eq_nil_iff]
    intro pair hpair hsame
    exact hkey (List.mem_map.mpr ⟨pair, hpair, eq_of_beq hsame⟩)
  rw [group_eq, group_eq, List.map_append, List.map_singleton, eraseDups_concat_of_not_mem hkey,
    List.map_append, List.map_singleton, List.filter_append, hnone]
  congr 1
  · apply List.map_congr_left
    intro other hother
    have hne : key ≠ other := by
      rintro rfl
      exact hkey (List.mem_eraseDups.mp hother)
    simp [List.filter_append, hne]
  · simp

end TableRouting.Grouping

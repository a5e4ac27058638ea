import TableRouting.Config.Decode
import TableRouting.Proofs.Json.RoundTrip

/-!
# Structures and their fields

A structure is given as an object, by name, or as an array, by position.  What may be given
for it is said field by field: how the field is called, which values it may have, and
whether it may be left out.  Reading a structure and writing one are each followed through
field by field in the same way.
-/

namespace TableRouting

namespace Json

/-- An entry of a list without repeated keys is found. -/
theorem lookup?_eq_some_iff {α : Type} {key : String} {value : α} {entries : List (String × α)}
    (hkeys : (entries.map Prod.fst).Nodup) :
    lookup? key entries = some value ↔ (key, value) ∈ entries := by
  refine ⟨mem_of_lookup?, fun hmem => ?_⟩
  induction entries with
  | nil => simp at hmem
  | cons entry rest ih =>
      obtain ⟨k, v⟩ := entry
      obtain ⟨hfresh, hrest⟩ := List.nodup_cons.mp hkeys
      rcases List.mem_cons.mp hmem with hfirst | hlater
      · obtain ⟨rfl, rfl⟩ := Prod.mk.inj hfirst
        rw [lookup?, if_pos rfl]
      · have hne : k ≠ key := by
          rintro rfl
          exact hfresh (List.mem_map.mpr ⟨_, hlater, rfl⟩)
        rw [lookup?, if_neg hne]
        exact ih hrest hlater

/-- The order of entries does not count when no key is repeated. -/
theorem lookup?_of_perm {α : Type} {key : String} {entries others : List (String × α)}
    (hperm : entries.Perm others) (hkeys : (others.map Prod.fst).Nodup) :
    lookup? key entries = lookup? key others := by
  have hsame : (entries.map Prod.fst).Nodup := (hperm.map Prod.fst).nodup_iff.mpr hkeys
  apply Option.ext
  intro value
  rw [lookup?_eq_some_iff hsame, lookup?_eq_some_iff hkeys, hperm.mem_iff]

end Json

namespace Config

/-- What may be given for a field of a structure. -/
structure FieldForm where
  name : String
  spells : Json → Prop
  /-- The field may be left out. -/
  omissible : Prop

namespace FieldForm

def exactly (name : String) (value : Json) (omissible : Prop) : FieldForm where
  name
  spells := (· = value)
  omissible

/-- What is given for a field is right, or nothing is and it may be left out. -/
def Fits (form : FieldForm) : Option Json → Prop
  | some value => form.spells value
  | none => form.omissible

end FieldForm

/-- What a value gives for a field of a structure, by name or by position. -/
def fieldOf? (position : Nat) (name : String) : Json → Option Json
  | .obj fields => Json.lookup? name fields
  | .arr items => items[position]?
  | _ => none

/-- A value gives a structure with fields of these forms.  By name, the order is free and there
may be other keys; by position, fields can be left out at the end. -/
structure SpellsFields (forms : List FieldForm) (value : Json) : Prop where
  shaped : (∃ fields, value = .obj fields ∧ (fields.map Prod.fst).Nodup) ∨
    ∃ items, value = .arr items ∧ items.length ≤ forms.length
  fits : ∀ (position : Nat) (form : FieldForm), forms[position]? = some form →
    form.Fits (fieldOf? position form.name value)

/-! ## Reading -/

variable {α : Type} {reading : Reading} {count position : Nat} {name : String} {value : Json}
  {given : Given} {forms : List FieldForm} {form : FieldForm} {decode : Json → Option α}
  {content default : α}

theorem field?_of_given? (hgiven : given? reading count value = some given) (position : Nat)
    (name : String) : given.field? position name = fieldOf? position name value := by
  cases value with
  | obj fields =>
      obtain rfl := Option.some.inj hgiven
      rfl
  | arr items =>
      rw [given?] at hgiven
      split at hgiven
      · exact nomatch hgiven
      · obtain rfl := Option.some.inj hgiven
        rfl
  | null | bool | num | str => exact nomatch hgiven

theorem SpellsFields.exists_given (hspells : SpellsFields forms value) (reading : Reading) :
    ∃ given, given? reading forms.length value = some given ∧
      ∀ (position : Nat) (form : FieldForm), forms[position]? = some form →
        form.Fits (given.field? position form.name) := by
  have hgiven : ∃ given, given? reading forms.length value = some given := by
    rcases hspells.shaped with ⟨fields, rfl, -⟩ | ⟨items, rfl, hlength⟩
    · exact ⟨_, rfl⟩
    · refine ⟨.byPosition items, ?_⟩
      rw [given?, if_neg fun hlong => Nat.not_lt_of_le hlength hlong.1]
  obtain ⟨given, hgiven⟩ := hgiven
  refine ⟨given, hgiven, fun position form hform => ?_⟩
  rw [field?_of_given? hgiven]
  exact hspells.fits position form hform

/-- A field that must be given is read. -/
theorem FieldForm.Fits.required (hfits : form.Fits (given.field? position form.name))
    (hneeded : ¬ form.omissible)
    (hdecode : ∀ value, form.spells value → decode value = some content) :
    given.required position form.name decode = some content := by
  rw [Given.required]
  cases hfield : given.field? position form.name with
  | none =>
      rw [hfield] at hfits
      exact absurd hfits hneeded
  | some value =>
      rw [hfield] at hfits
      exact hdecode value hfits

/-- A field that has a default is read, or has the default. -/
theorem FieldForm.Fits.optional (hfits : form.Fits (given.field? position form.name))
    (hdecode : ∀ value, form.spells value → decode value = some content)
    (hdefault : form.omissible → content = default) :
    given.optional position form.name decode default = some content := by
  rw [Given.optional]
  cases hfield : given.field? position form.name with
  | none =>
      rw [hfield] at hfits
      exact congrArg some (hdefault hfits).symm
  | some value =>
      rw [hfield] at hfits
      exact hdecode value hfits

/-- A field that must be given is missed. -/
theorem required_of_fieldOf? (hgiven : given? reading count value = some given)
    (hfield : fieldOf? position name value = none) :
    given.required position name decode = none := by
  rw [Given.required, field?_of_given? hgiven, hfield]
  rfl

/-- What is not read from any structure is not read. -/
theorem given?_bind_eq_none {read : Given → Option α}
    (hread : ∀ given, given? reading count value = some given → read given = none) :
    (given? reading count value >>= read) = none := by
  cases hgiven : given? reading count value with
  | none => rfl
  | some given => exact hread given hgiven

theorem mapM_eq_some {Spells : α → Json → Prop} {contents : List α} {items : List Json}
    (hdecode : ∀ content value, Spells content value → decode value = some content)
    (hitems : List.Forall₂ Spells contents items) : items.mapM decode = some contents := by
  induction hitems with
  | nil => rfl
  | cons hfirst hrest ih =>
      rw [List.mapM_cons, hdecode _ _ hfirst, ih]
      rfl

theorem mapM_eq_none {items : List Json} {item : Json} (hitem : item ∈ items)
    (hdecode : decode item = none) : items.mapM decode = none := by
  induction items with
  | nil => exact nomatch hitem
  | cons first rest ih =>
      rw [List.mapM_cons]
      rcases List.mem_cons.mp hitem with rfl | hlater
      · rw [hdecode]
        rfl
      · rw [ih hlater]
        cases decode first <;> rfl

/-! ## Writing -/

/-- A value is of a kind, and so is what its text is read as. -/
structure Encodes (depth : Nat) (spells : Json → Prop) (value : Json) : Prop where
  spelled : spells value
  read : ∃ read, Json.Reads depth value.chars read ∧ spells read

theorem encodes_readable {depth : Nat} (hreadable : Json.Readable depth value) :
    Encodes depth (· = value) value :=
  ⟨rfl, value, hreadable.reads, rfl⟩

theorem spellsFields_obj {fields : List (String × Json)}
    (hfields : List.Forall₂ (fun form field => form.name = field.1 ∧ form.spells field.2)
      forms fields)
    (hnames : (forms.map FieldForm.name).Nodup) : SpellsFields forms (.obj fields) := by
  have hsame : forms.map FieldForm.name = fields.map Prod.fst := by
    clear hnames
    induction hfields with
    | nil => rfl
    | cons hfirst hrest ih => rw [List.map_cons, List.map_cons, hfirst.1, ih]
  have hkeys : (fields.map Prod.fst).Nodup := hsame ▸ hnames
  refine ⟨.inl ⟨fields, rfl, hkeys⟩, fun position form hform => ?_⟩
  obtain ⟨hbound, rfl⟩ := List.getElem?_eq_some_iff.mp hform
  obtain ⟨hlength, hget⟩ := List.forall₂_iff_get.mp hfields
  obtain ⟨hname, hspells⟩ := hget position hbound (hlength ▸ hbound)
  have hfound : Json.lookup? forms[position].name fields =
      some (fields.get ⟨position, hlength ▸ hbound⟩).2 := by
    rw [Json.lookup?_eq_some_iff hkeys]
    exact hname ▸ List.get_mem fields _
  rw [fieldOf?, hfound]
  exact hspells

/-- The order in which the fields of an object come does not count. -/
theorem SpellsFields.of_perm {fields others : List (String × Json)}
    (hspells : SpellsFields forms (.obj others)) (hperm : fields.Perm others)
    (hkeys : (others.map Prod.fst).Nodup) : SpellsFields forms (.obj fields) := by
  refine ⟨.inl ⟨fields, rfl, (hperm.map Prod.fst).nodup_iff.mpr hkeys⟩, ?_⟩
  intro position form hform
  rw [fieldOf?, Json.lookup?_of_perm hperm hkeys]
  exact hspells.fits position form hform

/-- An object encodes a structure if its fields do. -/
theorem Encodes.obj {depth : Nat} {fields : List (String × Json)}
    (hfields : List.Forall₂
      (fun form field => form.name = field.1 ∧ Encodes depth form.spells field.2) forms fields)
    (hnames : (forms.map FieldForm.name).Nodup) :
    Encodes (depth + 1) (SpellsFields forms) (.obj fields) := by
  have hspelled : List.Forall₂ (fun form field => form.name = field.1 ∧ form.spells field.2)
      forms fields := hfields.imp fun form field hfield => ⟨hfield.1, hfield.2.spelled⟩
  refine ⟨spellsFields_obj hspelled hnames, ?_⟩
  -- The text is read with its fields sorted, so the forms are met in another order.
  have hread : ∃ values, List.Forall₂ (Json.ReadsField depth) fields values ∧
      List.Forall₂ (fun form field => form.name = field.1 ∧ form.spells field.2) forms values := by
    clear hnames hspelled
    induction hfields with
    | nil => exact ⟨[], .nil, .nil⟩
    | cons hfirst hrest ih =>
        obtain ⟨values, hreads, hspells⟩ := ih
        obtain ⟨hname, -, value, hread, hspelled⟩ := hfirst
        exact ⟨(_, value) :: values, .cons ⟨rfl, hread⟩ hreads, .cons ⟨hname, hspelled⟩ hspells⟩
  obtain ⟨values, hreads, hspells⟩ := hread
  have hkeys : (values.map Prod.fst).Nodup := by
    rcases (spellsFields_obj hspells hnames).shaped with ⟨fields, hsame, hkeys⟩ | ⟨items, hsame, -⟩
    · exact Json.obj.inj hsame ▸ hkeys
    · exact nomatch hsame
  exact ⟨_, .obj hreads,
    (spellsFields_obj hspells hnames).of_perm (Json.sortFields_spec hkeys).1 hkeys⟩

/-- An array encodes a list if its items encode what the list holds. -/
theorem Encodes.arr {depth : Nat} {Spells : α → Json → Prop} {encode : α → Json}
    {contents : List α}
    (hitems : ∀ content ∈ contents, Encodes depth (Spells content) (encode content)) :
    Encodes (depth + 1) (fun value => ∃ items, value = .arr items ∧
      List.Forall₂ Spells contents items) (.arr (contents.map encode)) := by
  have hread : ∃ values,
      List.Forall₂ (fun item value => Json.Reads depth item.chars value) (contents.map encode)
        values ∧
      List.Forall₂ Spells contents values := by
    induction contents with
    | nil => exact ⟨[], .nil, .nil⟩
    | cons content rest ih =>
        obtain ⟨hfirst, hrest⟩ := List.forall_mem_cons.mp hitems
        obtain ⟨values, hreads, hspells⟩ := ih hrest
        obtain ⟨-, value, hread, hspelled⟩ := hfirst
        exact ⟨value :: values, .cons hread hreads, .cons hspelled hspells⟩
  obtain ⟨values, hreads, hspells⟩ := hread
  refine ⟨⟨_, rfl, ?_⟩, .arr values, .arr hreads, values, rfl, hspells⟩
  rw [List.forall₂_map_right_iff, List.forall₂_same]
  exact fun content hcontent => (hitems content hcontent).spelled

end Config

end TableRouting

import Mathlib.Data.String.Basic
import TableRouting.Json.Pointer
import TableRouting.RecordFile

/-!
# Objects with sorted keys

Reading a value keeps the fields of every object in the order of their keys, one field
for each key.  So the keys of an object that was read are distinct, and listing its
fields lists them by key.
-/

namespace TableRouting

namespace Json

/-- Every object in a value has its fields in the order of their keys, each key once. -/
inductive Ordered : Json → Prop where
  | null : Ordered .null
  | bool (b : Bool) : Ordered (.bool b)
  | num (n : Json.Number) : Ordered (.num n)
  | str (s : String) : Ordered (.str s)
  | arr {items : List Json} (hitems : ∀ item ∈ items, Ordered item) : Ordered (.arr items)
  | obj {fields : List (String × Json)} (hkeys : (fields.map Prod.fst).Pairwise (· < ·))
      (hvalues : ∀ field ∈ fields, Ordered field.2) : Ordered (.obj fields)

theorem mem_of_lookup? {α : Type} {key : String} {value : α} {entries : List (String × α)}
    (hlookup : lookup? key entries = some value) : (key, value) ∈ entries := by
  induction entries with
  | nil => simp at hlookup
  | cons entry rest ih =>
      obtain ⟨k, v⟩ := entry
      rw [lookup?] at hlookup
      split at hlookup
      · rename_i hkey
        rw [hkey, Option.some.inj hlookup]
        exact List.mem_cons_self
      · exact List.mem_cons_of_mem _ (ih hlookup)

/-- A field of an ordered value is ordered. -/
theorem Ordered.get? {value part : Json} (hordered : value.Ordered) {key : String}
    (hpart : value.get? key = some part) : part.Ordered := by
  cases hordered with
  | obj hkeys hvalues => exact hvalues _ (mem_of_lookup? hpart)
  | null | bool | num | str | arr => exact nomatch hpart

theorem mem_insertSorted {α : Type} {key : String} {value : α} {entries : List (String × α)}
    {entry : String × α} (hentry : entry ∈ insertSorted key value entries) :
    entry = (key, value) ∨ entry ∈ entries := by
  induction entries with
  | nil => exact .inl (List.mem_singleton.mp hentry)
  | cons first rest ih =>
      obtain ⟨k, v⟩ := first
      rw [insertSorted] at hentry
      split at hentry
      · exact List.mem_cons.mp hentry
      · split at hentry
        · exact (List.mem_cons.mp hentry).imp_right (List.mem_cons_of_mem _)
        · rcases List.mem_cons.mp hentry with rfl | hrest
          · exact .inr List.mem_cons_self
          · exact (ih hrest).imp_right (List.mem_cons_of_mem _)

/-- An insertion keeps the keys in order. -/
theorem pairwise_insertSorted {α : Type} (key : String) (value : α) {entries : List (String × α)}
    (hkeys : (entries.map Prod.fst).Pairwise (· < ·)) :
    ((insertSorted key value entries).map Prod.fst).Pairwise (· < ·) := by
  induction entries with
  | nil => exact List.pairwise_singleton _ _
  | cons first rest ih =>
      obtain ⟨k, v⟩ := first
      rw [List.map_cons] at hkeys
      obtain ⟨hfirst, hrest⟩ := List.pairwise_cons.mp hkeys
      rw [insertSorted]
      by_cases hbefore : key < k
      · rw [if_pos hbefore]
        refine List.pairwise_cons.mpr ⟨?_, hkeys⟩
        intro other hother
        rcases List.mem_cons.mp hother with rfl | hlater
        · exact hbefore
        · exact String.lt_trans hbefore (hfirst other hlater)
      · rw [if_neg hbefore]
        by_cases hsame : key = k
        · rw [if_pos hsame, hsame]
          exact List.pairwise_cons.mpr ⟨hfirst, hrest⟩
        · rw [if_neg hsame]
          refine List.pairwise_cons.mpr ⟨?_, ih hrest⟩
          intro other hother
          obtain ⟨entry, hentry, rfl⟩ := List.mem_map.mp hother
          rcases mem_insertSorted hentry with rfl | hold
          · exact lt_of_le_of_ne (not_lt.mp hbefore) (Ne.symm hsame)
          · exact hfirst entry.1 (List.mem_map_of_mem hold)

/-- An object stays ordered when a field is put in its place. -/
theorem Ordered.insertSorted {fields : List (String × Json)} (hfields : (Json.obj fields).Ordered)
    (key : String) {value : Json} (hvalue : value.Ordered) :
    (Json.obj (insertSorted key value fields)).Ordered := by
  obtain ⟨hkeys, hvalues⟩ : (fields.map Prod.fst).Pairwise (· < ·) ∧
      ∀ field ∈ fields, field.2.Ordered := by
    cases hfields with
    | obj hkeys hvalues => exact ⟨hkeys, hvalues⟩
  refine .obj (pairwise_insertSorted key value hkeys) ?_
  intro field hfield
  rcases mem_insertSorted hfield with rfl | hold
  · exact hvalue
  · exact hvalues field hold

/-- A value that one token spells. -/
def Token.Ordered : Token → Prop
  | .literal value => value.Ordered
  | _ => True

theorem ordered_of_wordValue? {word : List Char} {value : Json}
    (hvalue : wordValue? word = some value) : value.Ordered := by
  rw [wordValue?] at hvalue
  split at hvalue
  · rw [← Option.some.inj hvalue]
    exact .null
  · split at hvalue
    · rw [← Option.some.inj hvalue]
      exact .bool true
    · split at hvalue
      · rw [← Option.some.inj hvalue]
        exact .bool false
      · obtain ⟨number, -, rfl⟩ := Option.map_eq_some_iff.mp hvalue
        exact .num number

theorem ordered_of_noToken {scan after : Scan} {tokens : List Token}
    (hstep : (scan, ([] : List Token)) = (after, tokens)) : ∀ token ∈ tokens, token.Ordered := by
  obtain ⟨-, rfl⟩ := Prod.mk.inj hstep
  exact List.forall_mem_nil _

theorem ordered_of_stepBetween {c : Char} {scan : Scan} {tokens : List Token}
    (hstep : Scan.stepBetween c = some (scan, tokens)) : ∀ token ∈ tokens, token.Ordered := by
  have hpunctuation : ∀ token, punctuation? c = some token → token.Ordered := by
    intro token htoken
    unfold punctuation? at htoken
    repeat' split at htoken
    all_goals (cases htoken <;> trivial)
  rw [Scan.stepBetween] at hstep
  split at hstep
  · exact ordered_of_noToken (Option.some.inj hstep)
  · split at hstep
    · exact ordered_of_noToken (Option.some.inj hstep)
    · split at hstep
      · exact ordered_of_noToken (Option.some.inj hstep)
      · obtain ⟨token, htoken, hpair⟩ := Option.map_eq_some_iff.mp hstep
        obtain ⟨-, rfl⟩ := Prod.mk.inj hpair
        exact List.forall_mem_singleton.mpr (hpunctuation token htoken)

/-- The scanner spells values without fields only. -/
theorem Scan.ordered_of_step {scan after : Scan} {c : Char} {tokens : List Token}
    (hstep : scan.step c = some (after, tokens)) : ∀ token ∈ tokens, token.Ordered := by
  cases scan with
  | between => exact ordered_of_stepBetween hstep
  | word text =>
      rw [Scan.step] at hstep
      split at hstep
      · exact ordered_of_noToken (Option.some.inj hstep)
      · obtain ⟨value, hvalue, hrest⟩ := Option.bind_eq_some_iff.mp hstep
        obtain ⟨⟨scan, more⟩, hmore, hpair⟩ := Option.bind_eq_some_iff.mp hrest
        obtain ⟨-, rfl⟩ := Prod.mk.inj (Option.some.inj hpair)
        exact List.forall_mem_cons.mpr
          ⟨ordered_of_wordValue? hvalue, ordered_of_stepBetween hmore⟩
  | string text =>
      rw [Scan.step] at hstep
      split at hstep
      · obtain ⟨-, rfl⟩ := Prod.mk.inj (Option.some.inj hstep)
        exact List.forall_mem_singleton.mpr (.str _)
      · split at hstep
        · exact ordered_of_noToken (Option.some.inj hstep)
        · split at hstep
          · exact nomatch hstep
          · exact ordered_of_noToken (Option.some.inj hstep)
  | escape text =>
      rw [Scan.step] at hstep
      split at hstep
      · exact ordered_of_noToken (Option.some.inj hstep)
      · obtain ⟨escaped, -, hpair⟩ := Option.map_eq_some_iff.mp hstep
        exact ordered_of_noToken hpair
  | unicode text high owed value =>
      rw [Scan.step] at hstep
      obtain ⟨digit, -, hrest⟩ := Option.bind_eq_some_iff.mp hstep
      simp only at hrest
      split at hrest
      · obtain ⟨ended, -, hpair⟩ := Option.map_eq_some_iff.mp hrest
        exact ordered_of_noToken hpair
      · exact ordered_of_noToken (Option.some.inj hrest)
  | halfPair text high =>
      rw [Scan.step] at hstep
      split at hstep
      · exact ordered_of_noToken (Option.some.inj hstep)
      · exact nomatch hstep
  | halfPairEscape text high =>
      rw [Scan.step] at hstep
      split at hstep
      · exact ordered_of_noToken (Option.some.inj hstep)
      · exact nomatch hstep

theorem Scan.ordered_of_finish? {scan : Scan} {tokens : List Token}
    (hfinish : scan.finish? = some tokens) : ∀ token ∈ tokens, token.Ordered := by
  cases scan with
  | between =>
      rw [← Option.some.inj hfinish]
      exact List.forall_mem_nil _
  | word text =>
      obtain ⟨value, hvalue, rfl⟩ := Option.map_eq_some_iff.mp hfinish
      exact List.forall_mem_singleton.mpr (ordered_of_wordValue? hvalue)
  | string | escape | unicode | halfPair | halfPairEscape => exact nomatch hfinish

/-- What is read of an open array or object is ordered. -/
def Frame.Ordered : Frame → Prop
  | .array items => ∀ item ∈ items, item.Ordered
  | .object fields _ => (Json.obj fields).Ordered

def Build.Ordered : Build → Prop
  | .value _ stack => ∀ frame ∈ stack, frame.Ordered
  | .key _ fields stack | .colon fields _ stack =>
    (Json.obj fields).Ordered ∧ ∀ frame ∈ stack, frame.Ordered
  | .next json frame stack => json.Ordered ∧ frame.Ordered ∧ ∀ frame ∈ stack, frame.Ordered
  | .done json => json.Ordered

theorem Build.ordered_complete {json : Json} {stack : List Frame} (hjson : json.Ordered)
    (hstack : ∀ frame ∈ stack, frame.Ordered) : (complete json stack).Ordered := by
  cases stack with
  | nil => exact hjson
  | cons frame rest => exact ⟨hjson, List.forall_mem_cons.mp hstack⟩

theorem ordered_emptyObject : (Json.obj []).Ordered :=
  .obj List.Pairwise.nil (List.forall_mem_nil _)

theorem Build.ordered_start {stack : List Frame} {token : Token} {after : Build}
    (hstack : ∀ frame ∈ stack, frame.Ordered) (htoken : token.Ordered)
    (hstart : Build.start stack token = some after) : after.Ordered := by
  cases token with
  | openArray =>
      rw [Build.start] at hstart
      split at hstart
      · rw [← Option.some.inj hstart]
        exact List.forall_mem_cons.mpr ⟨List.forall_mem_nil _, hstack⟩
      · exact nomatch hstart
  | openObject =>
      rw [Build.start] at hstart
      split at hstart
      · rw [← Option.some.inj hstart]
        exact ⟨ordered_emptyObject, hstack⟩
      · exact nomatch hstart
  | literal value =>
      rw [← Option.some.inj hstart]
      exact ordered_complete htoken hstack
  | closeArray | closeObject | comma | colon => exact nomatch hstart

/-- A token leaves what is read ordered. -/
theorem Build.Ordered.step {build after : Build} (hbuild : build.Ordered) {token : Token}
    (htoken : token.Ordered) (hstep : build.step token = some after) : after.Ordered := by
  unfold Build.step at hstep
  split at hstep
  · rw [← Option.some.inj hstep]
    exact ordered_complete (.arr (List.forall_mem_nil _)) (List.forall_mem_cons.mp hbuild).2
  · exact ordered_start hbuild htoken hstep
  · rw [← Option.some.inj hstep]
    exact ordered_complete ordered_emptyObject hbuild.2
  · rw [← Option.some.inj hstep]
    exact hbuild
  · rw [← Option.some.inj hstep]
    exact List.forall_mem_cons.mpr hbuild
  · obtain ⟨hvalue, hframe, hstack⟩ := hbuild
    rw [← Option.some.inj hstep]
    exact List.forall_mem_cons.mpr ⟨List.forall_mem_cons.mpr ⟨hvalue, hframe⟩, hstack⟩
  · obtain ⟨hvalue, hframe, hstack⟩ := hbuild
    rw [← Option.some.inj hstep]
    refine ordered_complete (.arr ?_) hstack
    intro item hitem
    exact List.forall_mem_cons.mpr ⟨hvalue, hframe⟩ item (List.mem_reverse.mp hitem)
  · obtain ⟨hvalue, hframe, hstack⟩ := hbuild
    rw [← Option.some.inj hstep]
    exact ⟨hframe.insertSorted _ hvalue, hstack⟩
  · obtain ⟨hvalue, hframe, hstack⟩ := hbuild
    rw [← Option.some.inj hstep]
    exact ordered_complete (hframe.insertSorted _ hvalue) hstack
  · exact nomatch hstep

theorem Build.Ordered.run {build after : Build} (hbuild : build.Ordered) {tokens : List Token}
    (htokens : ∀ token ∈ tokens, token.Ordered) (hrun : build.run tokens = some after) :
    after.Ordered := by
  induction tokens generalizing build with
  | nil =>
      rw [← Option.some.inj hrun]
      exact hbuild
  | cons token rest ih =>
      obtain ⟨htoken, hrest⟩ := List.forall_mem_cons.mp htokens
      rw [Build.run] at hrun
      cases hstep : build.step token with
      | none =>
          rw [hstep] at hrun
          cases hrun
      | some next =>
          rw [hstep] at hrun
          exact ih (hbuild.step htoken hstep) hrest hrun

theorem ordered_of_readFrom {scan scanAfter : Scan} {build after : Build} {text : List Char}
    (hbuild : build.Ordered) (hread : readFrom scan build text = some (scanAfter, after)) :
    after.Ordered := by
  induction text generalizing scan build with
  | nil =>
      obtain ⟨-, rfl⟩ := Prod.mk.inj (Option.some.inj hread)
      exact hbuild
  | cons c rest ih =>
      rw [readFrom] at hread
      split at hread
      · exact nomatch hread
      · rename_i next tokens hstep
        split at hread
        · exact nomatch hread
        · rename_i hrun
          exact ih (hbuild.run (Scan.ordered_of_step hstep) hrun) hread

/-- A value that is read from a text is ordered. -/
theorem ordered_of_parse? {text : String} {value : Json} (hparse : parse? text = some value) :
    value.Ordered := by
  rw [parse?, ofChars?] at hparse
  obtain ⟨⟨scan, build⟩, hread, hrest⟩ := Option.bind_eq_some_iff.mp hparse
  obtain ⟨tokens, hfinish, hrest⟩ := Option.bind_eq_some_iff.mp hrest
  obtain ⟨last, hrun, hdone⟩ := Option.bind_eq_some_iff.mp hrest
  have hempty : (Build.value false []).Ordered := List.forall_mem_nil _
  have hordered := (ordered_of_readFrom hempty hread).run
    (Scan.ordered_of_finish? hfinish) hrun
  split at hdone
  · rw [← Option.some.inj hdone]
    exact hordered
  · exact nomatch hdone

end Json

namespace RecordFile

/-- The body of a record is ordered if the value that it was read from is. -/
theorem ordered_of_ofJson? {value : Json} {record : Record} (hvalue : value.Ordered)
    (hrecord : Record.ofJson? value = some record) : record.value.Ordered := by
  unfold Record.ofJson? at hrecord
  split at hrecord
  · rename_i fields
    obtain ⟨id, -, hrest⟩ := Option.bind_eq_some_iff.mp hrecord
    obtain ⟨body, hbody, hrest⟩ := Option.bind_eq_some_iff.mp hrest
    simp only at hrest
    split at hrest
    all_goals
      obtain ⟨headers, -, hmade⟩ := Option.bind_eq_some_iff.mp hrest
      rw [← Option.some.inj hmade]
      exact hvalue.get? hbody
  · rw [← Option.some.inj hrecord]
    cases hvalue with
    | arr hitems => exact hitems _ (by simp)
  · obtain ⟨headers, -, rfl⟩ := Option.map_eq_some_iff.mp hrecord
    cases hvalue with
    | arr hitems => exact hitems _ (by simp)
  · exact nomatch hrecord

theorem ordered_of_ofLine {line : Nat} {bytes : List UInt8} {record : Record}
    (hrecord : ofLine line bytes = .ok (some record)) : record.value.Ordered := by
  rw [ofLine] at hrecord
  split at hrecord
  · exact nomatch hrecord
  · split at hrecord
    · exact nomatch hrecord
    · split at hrecord
      · exact nomatch hrecord
      · rename_i value hparse
        have hvalue := Json.ordered_of_parse? hparse
        rw [ofValue] at hrecord
        split at hrecord
        · split at hrecord
          · rename_i made hmade
            rw [← Option.some.inj (Except.ok.inj hrecord)]
            exact ordered_of_ofJson? hvalue hmade
          · exact nomatch hrecord
        · rw [← Option.some.inj (Except.ok.inj hrecord)]
          exact hvalue

theorem ordered_of_ofLines {line : Nat} {pieces : List (List UInt8)} {records : List Record}
    (hrecords : ofLines line pieces = .ok records) :
    ∀ record ∈ records, record.value.Ordered := by
  induction pieces generalizing line records with
  | nil =>
      rw [← Except.ok.inj hrecords]
      exact List.forall_mem_nil _
  | cons bytes rest ih =>
      rw [ofLines] at hrecords
      split at hrecords
      · exact nomatch hrecords
      · exact ih hrecords
      · rename_i record hline
        cases hrest : ofLines (line + 1) rest with
        | error e => rw [hrest] at hrecords; exact nomatch hrecords
        | ok more =>
            rw [hrest] at hrecords
            rw [← Except.ok.inj hrecords]
            exact List.forall_mem_cons.mpr ⟨ordered_of_ofLine hline, ih hrest⟩

/-- Every record of a file has an ordered body. -/
theorem ordered_of_records {bytes : ByteArray} {records : List Record}
    (hrecords : RecordFile.records bytes = .ok records) :
    ∀ record ∈ records, record.value.Ordered := ordered_of_ofLines hrecords

end RecordFile

end TableRouting

import Mathlib.Algebra.Ring.Int.Defs
import Mathlib.Data.List.Forall2
import Mathlib.Data.List.TakeWhile
import TableRouting.Json.Printer
import TableRouting.Proofs.Json.Ordered

/-!
# What is written is read back

The text of a value is read as that value: its strings come back from their escapes, its
integers from their digits, and its fields in the order of their keys, in whatever order
they were written.  Integers have at most 64 bits, and no more arrays and objects are open
at once than the reader allows.
-/

namespace TableRouting.Json

/-! ## Numbers -/

namespace Number

/-- The integers that are read back as integers. -/
structure Fits (n : Int) : Prop where
  low : -2 ^ 63 ≤ n
  high : n < 2 ^ 64

theorem isDigit_of_mem_natText {n : Nat} {c : Char} (hc : c ∈ natText n) : c.isDigit = true :=
  Nat.isDigit_of_mem_toDigits (by decide) (by decide) hc

theorem natText_ne_nil (n : Nat) : natText n ≠ [] := Nat.toDigits_ne_nil

theorem digitsValue_natText (n : Nat) : digitsValue (natText n) = n :=
  Nat.ofDigitChars_ten_toDigits

/-- Only zero begins with a zero. -/
theorem head?_natText {n : Nat} (hn : 0 < n) : (natText n).head? ≠ some '0' := by
  induction n using Nat.strongRecOn with
  | ind n ih =>
      rcases Nat.lt_or_ge n 10 with hsmall | hlarge
      · rw [natText, Nat.toDigits_of_lt_base hsmall]
        have hall : ∀ m : Fin 10, 0 < m.val → [m.val.digitChar].head? ≠ some '0' := by decide
        exact hall ⟨n, hsmall⟩ hn
      · have hshorter := ih (n / 10) (Nat.div_lt_self hn (by decide)) (by omega)
        rw [natText, Nat.toDigits_of_base_le (by decide) hlarge,
          List.head?_append_of_ne_nil _ Nat.toDigits_ne_nil]
        exact hshorter

/-- The parts of an integer without a sign. -/
theorem ofChars?_digits {digits : List Char} (hdigits : ∀ c ∈ digits, c.isDigit = true)
    (hne : digits ≠ []) (hzero : digits.head? = some '0' → digits.length ≤ 1) :
    Literal.ofChars? digits = some ⟨false, digits, [], none⟩ ∧
      Literal.ofChars? ('-' :: digits) = some ⟨true, digits, [], none⟩ := by
  have htake : digits.takeWhile Char.isDigit = digits := List.takeWhile_eq_self_iff.mpr hdigits
  have hdrop : digits.dropWhile Char.isDigit = [] := List.dropWhile_eq_nil_iff.mpr hdigits
  have hwhole : ¬ (digits.isEmpty = true ∨ digits.head? = some '0' ∧ 1 < digits.length) := by
    rintro (hempty | ⟨hhead, hlength⟩)
    · exact hne (List.isEmpty_iff.mp hempty)
    · exact absurd (hzero hhead) (Nat.not_le.mpr hlength)
  constructor
  · cases digits with
    | nil => exact absurd rfl hne
    | cons c rest =>
        have hc : c ≠ '-' := by
          rintro rfl
          exact absurd (hdigits '-' List.mem_cons_self) (by decide)
        unfold Literal.ofChars?
        split
        rename_i hsign
        split at hsign
        · rename_i hcons
          exact absurd (List.cons.inj hcons).1 hc
        · obtain ⟨rfl, rfl⟩ := Prod.mk.inj hsign
          simp only [htake, hdrop, if_neg hwhole]
          rfl
  · simp only [Literal.ofChars?, htake, hdrop, if_neg hwhole]
    rfl

theorem ofChars?_integerText {n : Int} (hfits : Fits n) :
    ofChars? (integerText n) = some (.integer n) := by
  obtain ⟨hlow, hhigh⟩ := hfits
  have hparts (m : Nat) := ofChars?_digits (fun _ => isDigit_of_mem_natText (n := m))
    (natText_ne_nil m) fun hzero => by
      cases m with
      | zero => exact Nat.le_refl 1
      | succ m => exact absurd hzero (head?_natText (Nat.succ_pos m))
  cases n with
  | ofNat m =>
      have hm : m < UInt64.size := by
        rw [UInt64.size]
        simp only [Int.ofNat_eq_natCast] at hhigh
        omega
      rw [ofChars?, integerText, (hparts m).1]
      simp [Literal.number?, digitsValue_natText, hm]
  | negSucc m =>
      have hm : m + 1 ≤ UInt64.size / 2 := by
        rw [UInt64.size]
        omega
      rw [ofChars?, integerText, (hparts (m + 1)).2]
      simp [Literal.number?, digitsValue_natText, hm, Int.negSucc_eq]

end Number

/-! ## One character after the other -/

variable {depth : Nat} {text : List Char} {value written : Json} {scan : Scan} {late : List Token}
  {build built : Build} {token : Token} {c : Char}

theorem readFrom_append (scan : Scan) (build : Build) (first second : List Char) :
    readFrom scan build (first ++ second) =
      (readFrom scan build first).bind fun (scan, build) => readFrom scan build second := by
  induction first generalizing scan build with
  | nil => rfl
  | cons c rest ih =>
      rw [List.cons_append, readFrom, readFrom]
      cases scan.step c with
      | none => rfl
      | some stepped =>
          simp only
          cases build.run stepped.2 with
          | none => rfl
          | some next => exact ih stepped.1 next

/-- A character that ends no token. -/
theorem readFrom_silent (after : Scan) (hstep : scan.step c = some (after, [])) (build : Build)
    (rest : List Char) : readFrom scan build (c :: rest) = readFrom after build rest := by
  rw [readFrom, hstep]
  rfl

/-- Brackets, commas and colons stand alone. -/
theorem plain_of_punctuation? (htoken : punctuation? c = some token) :
    isGap c = false ∧ c ≠ '"' ∧ isWordChar c = false := by
  unfold punctuation? at htoken
  repeat' split at htoken
  all_goals first
    | (rename_i hc; subst hc; decide)
    | cases htoken

theorem stepBetween_of_punctuation? (htoken : punctuation? c = some token) :
    Scan.stepBetween c = some (.between, [token]) := by
  obtain ⟨hgap, hquote, hword⟩ := plain_of_punctuation? htoken
  rw [Scan.stepBetween, hgap, if_neg Bool.false_ne_true, if_neg hquote, hword,
    if_neg Bool.false_ne_true, htoken]
  rfl

/-- A bracket, a comma or a colon ends the token before it. -/
theorem readFrom_punctuation (hlate : scan.finish? = some late) (hrun : build.run late = some built)
    (htoken : punctuation? c = some token) (rest : List Char) :
    readFrom scan build (c :: rest) =
      (built.step token).bind fun next => readFrom .between next rest := by
  have hstep : ∃ tokens, scan.step c = some (.between, tokens ++ [token]) ∧
      build.run tokens = some built := by
    cases scan with
    | between =>
        obtain rfl := Option.some.inj hlate
        exact ⟨[], stepBetween_of_punctuation? htoken, hrun⟩
    | word word =>
        obtain ⟨value, hvalue, rfl⟩ := Option.map_eq_some_iff.mp hlate
        refine ⟨_, ?_, hrun⟩
        rw [Scan.step, (plain_of_punctuation? htoken).2.2, if_neg Bool.false_ne_true, hvalue,
          stepBetween_of_punctuation? htoken]
        rfl
    | string | escape | unicode | halfPair | halfPairEscape => cases hlate
  obtain ⟨tokens, hstep, htokens⟩ := hstep
  rw [readFrom, hstep]
  simp only [Build.run_append, htokens, Option.bind_some, Build.run]
  cases built.step token <;> rfl

theorem readFrom_between (token : Token) (htoken : punctuation? c = some token) (build : Build)
    (rest : List Char) :
    readFrom .between build (c :: rest) =
      (build.step token).bind fun next => readFrom .between next rest :=
  readFrom_punctuation rfl rfl htoken rest

/-- A token where a value may start begins one, unless it closes an array. -/
theorem Build.step_value (token : Token) (hclose : token ≠ .closeArray) (closable : Bool)
    (stack : List Frame) :
    (Build.value closable stack).step token = start stack token := by
  rw [Build.step]
  intro rest htoken
  exact absurd htoken hclose

theorem Build.step_literal (value : Json) (closable : Bool) (stack : List Frame) :
    (Build.value closable stack).step (.literal value) = some (complete value stack) :=
  step_value (.literal value) nofun closable stack

/-! ## Values -/

/-- A text is read as a value wherever a value may start and no more than so many arrays and
objects are to be opened. -/
def Reads (depth : Nat) (text : List Char) (value : Json) : Prop :=
  ∀ closable stack, stack.length + depth ≤ nestingLimit →
    ∃ scan late build, readFrom .between (.value closable stack) text = some (scan, build) ∧
      scan.finish? = some late ∧ build.run late = some (.complete value stack)

theorem Reads.mono {more : Nat} (hreads : Reads depth text value) (hmore : depth ≤ more) :
    Reads more text value :=
  fun closable stack hstack => hreads closable stack (by omega)

/-- A value is read up to the bracket or the comma after it. -/
theorem Reads.readFrom_append (hreads : Reads depth text value) (closable : Bool)
    {stack : List Frame} (hstack : stack.length + depth ≤ nestingLimit) (token : Token)
    (htoken : punctuation? c = some token) (rest : List Char) :
    readFrom .between (.value closable stack) (text ++ c :: rest) =
      ((Build.complete value stack).step token).bind fun next => readFrom .between next rest := by
  obtain ⟨scan, late, build, hread, hlate, hrun⟩ := hreads closable stack hstack
  rw [Json.readFrom_append, hread, Option.bind_some]
  exact readFrom_punctuation hlate hrun htoken rest

/-- A text that is read to its end. -/
theorem Reads.of_readFrom (hread : ∀ closable stack, stack.length + depth ≤ nestingLimit →
    readFrom .between (.value closable stack) text = some (.between, .complete value stack)) :
    Reads depth text value :=
  fun closable stack hstack => ⟨.between, [], _, hread closable stack hstack, rfl, rfl⟩

/-- What is read as a value is the value of the whole text. -/
theorem Reads.parse? (hreads : Reads depth text value) (hdepth : depth ≤ nestingLimit) :
    parse? (String.ofList text) = some value := by
  have hempty : ([] : List Frame).length + depth ≤ nestingLimit := by simpa using hdepth
  obtain ⟨scan, late, build, hread, hlate, hrun⟩ := hreads false [] hempty
  rw [Json.parse?, String.toList_ofList, ofChars?, hread]
  simp only [Option.bind_eq_bind, Option.bind_some, hlate, hrun]
  rfl

/-- A bare word is one token. -/
theorem reads_word (hword : ∀ c ∈ text, isWordChar c = true) (hne : text ≠ [])
    (hvalue : wordValue? text = some value) : Reads 0 text value := by
  have hplain : ∀ c, isWordChar c = true → isGap c = false ∧ c ≠ '"' := by
    intro c hc
    constructor
    · by_contra hgap
      rw [Bool.not_eq_false, isGap] at hgap
      simp only [Bool.or_eq_true, beq_iff_eq] at hgap
      rcases hgap with ((rfl | rfl) | rfl) | rfl <;> exact absurd hc (by decide)
    · rintro rfl
      exact absurd hc (by decide)
  have hmore (build : Build) (seen rest : List Char) (hrest : ∀ c ∈ rest, isWordChar c = true) :
      readFrom (.word seen) build rest = some (.word (rest.reverse ++ seen), build) := by
    induction rest generalizing seen with
    | nil => rfl
    | cons c rest ih =>
        obtain ⟨hc, hrest⟩ := List.forall_mem_cons.mp hrest
        rw [readFrom_silent (.word (c :: seen)), ih _ hrest]
        · simp
        · rw [Scan.step, if_pos hc]
  intro closable stack hstack
  cases text with
  | nil => exact absurd rfl hne
  | cons c rest =>
      obtain ⟨hc, hrest⟩ := List.forall_mem_cons.mp hword
      have hstep : Scan.step .between c = some (.word [c], []) := by
        rw [Scan.step, Scan.stepBetween, (hplain c hc).1, if_neg Bool.false_ne_true,
          if_neg (hplain c hc).2, if_pos hc]
      refine ⟨.word (rest.reverse ++ [c]), [.literal value], .value closable stack, ?_, ?_, ?_⟩
      · rw [readFrom_silent _ hstep, hmore _ _ _ hrest]
      · rw [Scan.finish?]
        simp [hvalue]
      · rw [Build.run, Build.step_literal]
        rfl

theorem reads_integer {n : Int} (hfits : Number.Fits n) :
    Reads 0 (Json.num (.integer n)).chars (.num (.integer n)) := by
  have hchars : ∀ c ∈ Number.integerText n, isWordChar c = true := by
    intro c hc
    have hdigit {m : Nat} (hc : c ∈ Number.natText m) : isWordChar c = true := by
      have hdigit := Number.isDigit_of_mem_natText hc
      simp [isWordChar, Char.isAlphanum, hdigit]
    cases n with
    | ofNat m => exact hdigit hc
    | negSucc m =>
        rcases List.mem_cons.mp hc with rfl | hc
        · rfl
        · exact hdigit hc
  have hne : Number.integerText n ≠ [] := by
    cases n with
    | ofNat m => exact Number.natText_ne_nil m
    | negSucc m => exact List.cons_ne_nil _ _
  rw [chars, Number.text]
  refine reads_word hchars hne ?_
  -- A number has no letters.
  have hletter {word : List Char} (hword : ∃ c ∈ word, c.isDigit = false ∧ c ≠ '-') :
      Number.integerText n ≠ word := by
    rintro rfl
    obtain ⟨c, hc, hdigit, hminus⟩ := hword
    cases n with
    | ofNat m => simp [Number.isDigit_of_mem_natText hc] at hdigit
    | negSucc m =>
        have hc := (List.mem_cons.mp hc).resolve_left hminus
        simp [Number.isDigit_of_mem_natText hc] at hdigit
  rw [wordValue?, if_neg (hletter ⟨'n', by decide⟩), if_neg (hletter ⟨'t', by decide⟩),
    if_neg (hletter ⟨'f', by decide⟩), Number.ofChars?_integerText hfits]
  rfl

/-! ## Strings -/

theorem hexValue?_hexDigit {n : Nat} (hn : n < 16) : hexValue? (hexDigit n) = some n := by
  have hall : ∀ m : Fin 16, hexValue? (hexDigit m.val) = some m.val := by decide
  exact hall ⟨n, hn⟩

/-- A control character comes back from its four digits. -/
theorem readFrom_control (hc : c.toNat < 0x20) (build : Build) (seen rest : List Char) :
    readFrom (.string seen) build
        ('\\' :: 'u' :: '0' :: '0' :: hexDigit (c.toNat / 16) :: hexDigit (c.toNat % 16) :: rest) =
      readFrom (.string (c :: seen)) build rest := by
  have hhigh := hexValue?_hexDigit (n := c.toNat / 16) (by omega)
  have hlow := hexValue?_hexDigit (n := c.toNat % 16) (by omega)
  have hvalue : 16 * (c.toNat / 16) + c.toNat % 16 = c.toNat := by omega
  have hunit : endUnicode seen none c.toNat = some (.string (c :: seen)) := by
    rw [endUnicode, if_neg (by omega), if_neg (by omega), Char.ofNat_toNat]
  rw [readFrom_silent (.escape seen) rfl,
    readFrom_silent (.unicode seen none 4 0) rfl,
    readFrom_silent (.unicode seen none 3 0) rfl,
    readFrom_silent (.unicode seen none 2 0) rfl,
    readFrom_silent (.unicode seen none 1 (c.toNat / 16)),
    readFrom_silent (.string (c :: seen))]
  · simp [Scan.step, hlow, hvalue, hunit]
  · simp [Scan.step, hhigh]

/-- A character comes back from the way it is written. -/
theorem readFrom_escapeChar (c : Char) (build : Build) (seen rest : List Char) :
    readFrom (.string seen) build (escapeChar c ++ rest) =
      readFrom (.string (c :: seen)) build rest := by
  have hescape (letter : Char) (hletter : escaped? letter = some c) (hu : letter ≠ 'u') :
      readFrom (.string seen) build ('\\' :: letter :: rest) =
        readFrom (.string (c :: seen)) build rest := by
    rw [readFrom_silent (.escape seen) rfl,
      readFrom_silent (.string (c :: seen))]
    rw [Scan.step, if_neg hu, hletter]
    rfl
  have hsame {other : Char} (hval : c.val = other.val) : other = c := Char.ext hval.symm
  unfold escapeChar
  split
  · exact hescape _ rfl (by decide)
  · exact hescape _ rfl (by decide)
  · exact hescape _ rfl (by decide)
  · exact hescape _ rfl (by decide)
  · exact hescape _ rfl (by decide)
  · rename_i hquote hbackslash hn hr ht
    split
    · rename_i hval
      exact hescape 'b' (congrArg some (hsame hval)) (by decide)
    · split
      · rename_i hval
        exact hescape 'f' (congrArg some (hsame hval)) (by decide)
      · split
        · rename_i hcontrol
          exact readFrom_control (UInt32.lt_iff_toNat_lt.mp hcontrol) build seen rest
        · rename_i hcontrol
          apply readFrom_silent
          rw [Scan.step, if_neg hquote, if_neg hbackslash, if_neg hcontrol]

/-- A string in quotes is one token. -/
theorem readFrom_stringChars (s : String) (build : Build) (rest : List Char) :
    readFrom .between build (stringChars s ++ rest) =
      (build.step (.literal (.str s))).bind fun next => readFrom .between next rest := by
  have hinside (seen text : List Char) :
      readFrom (.string seen) build (text.flatMap escapeChar ++ '"' :: rest) =
        readFrom (.string (text.reverse ++ seen)) build ('"' :: rest) := by
    induction text generalizing seen with
    | nil => rfl
    | cons c text ih =>
        rw [List.flatMap_cons, List.append_assoc, readFrom_escapeChar, ih, List.reverse_cons,
          List.append_assoc, List.singleton_append]
  rw [stringChars, List.cons_append, List.append_assoc, List.singleton_append,
    readFrom_silent (.string []) rfl, hinside, readFrom]
  simp only [Scan.step, if_true, List.append_nil, List.reverse_reverse, String.ofList_toList,
    Build.run]
  cases build.step (.literal (.str s)) <;> rfl

theorem reads_str (s : String) : Reads 0 (Json.str s).chars (.str s) := by
  apply Reads.of_readFrom
  intro closable stack hstack
  have hread := readFrom_stringChars s (.value closable stack) []
  rw [List.append_nil, Build.step_literal] at hread
  rw [chars, hread]
  rfl

/-! ## Arrays -/

/-- Items are read into an open array, up to its end. -/
theorem readFrom_itemsChars {item first : Json} {items values : List Json} {stack : List Frame}
    (hfirst : Reads depth item.chars first)
    (hitems : List.Forall₂ (fun item value => Reads depth item.chars value) items values)
    (hstack : stack.length + (depth + 1) ≤ nestingLimit) (closable : Bool) (before : List Json)
    (rest : List Char) :
    readFrom .between (.value closable (.array before :: stack))
        (itemsChars (item :: items) ++ ']' :: rest) =
      readFrom .between (.complete (.arr (before.reverse ++ first :: values)) stack) rest := by
  have hopen : (Frame.array before :: stack).length + depth ≤ nestingLimit := by
    rw [List.length_cons]
    omega
  induction hitems generalizing item first closable before with
  | nil =>
      rw [itemsChars, hfirst.readFrom_append closable hopen .closeArray rfl,
        ← List.reverse_cons]
      rfl
  | cons hnext hlater ih =>
      rename_i next second items values
      rw [itemsChars, List.append_assoc, List.cons_append,
        hfirst.readFrom_append closable hopen .comma rfl]
      · have hnext := ih hnext false (first :: before) hopen
        rwa [List.reverse_cons, List.append_assoc, List.singleton_append] at hnext
      · exact List.cons_ne_nil _ _

/-- An array is read item by item. -/
theorem Reads.arr {items values : List Json}
    (hitems : List.Forall₂ (fun item value => Reads depth item.chars value) items values) :
    Reads (depth + 1) (Json.arr items).chars (.arr values) := by
  apply Reads.of_readFrom
  intro closable stack hstack
  have hroom : stack.length < nestingLimit := by omega
  have hopen (rest : List Char) :
      readFrom .between (.value closable stack) ('[' :: rest) =
        readFrom .between (.value true (.array [] :: stack)) rest := by
    rw [readFrom_between .openArray rfl,
      Build.step_value .openArray nofun, Build.start, if_pos hroom]
    rfl
  rw [chars, hopen]
  cases hitems with
  | nil => rfl
  | cons hfirst hrest => exact readFrom_itemsChars hfirst hrest hstack true [] []

/-! ## Objects -/

def sortFields {α : Type} (fields : List (String × α)) : List (String × α) :=
  fields.foldl (fun sorted field => insertSorted field.1 field.2 sorted) []

/-- A field is read as a field of the same key. -/
structure ReadsField (depth : Nat) (written read : String × Json) : Prop where
  key : written.1 = read.1
  value : Reads depth written.2.chars read.2

/-- Fields are read into an open object, up to its end. -/
theorem readFrom_fieldsChars {field first : String × Json} {fields values : List (String × Json)}
    {stack : List Frame} (hfirst : ReadsField depth field first)
    (hfields : List.Forall₂ (ReadsField depth) fields values)
    (hstack : stack.length + (depth + 1) ≤ nestingLimit) (closable : Bool)
    (before : List (String × Json)) (rest : List Char) :
    readFrom .between (.key closable before stack)
        (fieldsChars (field :: fields) ++ '\x7d' :: rest) =
      readFrom .between (.complete (.obj ((first :: values).foldl
        (fun sorted field => insertSorted field.1 field.2 sorted) before)) stack) rest := by
  have hopen (fields : List (String × Json)) (key : String) :
      (Frame.object fields key :: stack).length + depth ≤ nestingLimit := by
    rw [List.length_cons]
    omega
  have hcolon (closable : Bool) (before : List (String × Json)) (key : String)
      (rest : List Char) :
      readFrom .between (.key closable before stack) (stringChars key ++ ':' :: rest) =
        readFrom .between (.value false (.object before key :: stack)) rest := by
    have hname : (Build.key closable before stack).step (.literal (.str key)) =
        some (.colon before key stack) := by
      cases closable <;> rfl
    rw [readFrom_stringChars, hname, Option.bind_some,
      readFrom_between .colon rfl]
    rfl
  induction hfields generalizing field first closable before with
  | nil =>
      obtain ⟨key, written⟩ := field
      obtain ⟨name, value⟩ := first
      obtain ⟨rfl, hvalue⟩ := hfirst
      rw [fieldsChars, List.append_assoc, List.cons_append, hcolon,
        hvalue.readFrom_append false (hopen before key) .closeObject rfl]
      rfl
  | cons hnext hlater ih =>
      rename_i next second fields values
      obtain ⟨key, written⟩ := field
      obtain ⟨name, value⟩ := first
      obtain ⟨rfl, hvalue⟩ := hfirst
      rw [fieldsChars, List.append_assoc, List.cons_append, List.append_assoc, List.cons_append,
        hcolon, hvalue.readFrom_append false (hopen before key) .comma rfl]
      · exact ih hnext false (insertSorted key value before)
      · exact List.cons_ne_nil _ _

/-- An object is read field by field. -/
theorem Reads.obj {fields values : List (String × Json)}
    (hfields : List.Forall₂ (ReadsField depth) fields values) :
    Reads (depth + 1) (Json.obj fields).chars (.obj (sortFields values)) := by
  apply Reads.of_readFrom
  intro closable stack hstack
  have hroom : stack.length < nestingLimit := by omega
  have hopen (rest : List Char) :
      readFrom .between (.value closable stack) ('\x7b' :: rest) =
        readFrom .between (.key true [] stack) rest := by
    rw [readFrom_between .openObject rfl,
      Build.step_value .openObject nofun, Build.start, if_pos hroom]
    rfl
  rw [chars, hopen]
  cases hfields with
  | nil => rfl
  | cons hfirst hrest => exact readFrom_fieldsChars hfirst hrest hstack true [] []

theorem perm_insertSorted {α : Type} {key : String} (value : α) {entries : List (String × α)}
    (hkey : key ∉ entries.map Prod.fst) :
    (insertSorted key value entries).Perm ((key, value) :: entries) := by
  induction entries with
  | nil => exact List.Perm.refl _
  | cons entry rest ih =>
      obtain ⟨k, v⟩ := entry
      obtain ⟨hne, hrest⟩ := List.ne_and_not_mem_of_not_mem_cons hkey
      rw [insertSorted, if_neg hne]
      split
      · exact List.Perm.refl _
      · exact ((ih hrest).cons _).trans (List.Perm.swap _ _ _)

/-- Fields with distinct keys are kept, in the order of their keys. -/
theorem sortFields_spec {α : Type} {fields : List (String × α)}
    (hkeys : (fields.map Prod.fst).Nodup) :
    (sortFields fields).Perm fields ∧ ((sortFields fields).map Prod.fst).Pairwise (· < ·) := by
  have hfold (before : List (String × α)) (hbefore : (before.map Prod.fst).Pairwise (· < ·))
      (hapart : ((before ++ fields).map Prod.fst).Nodup) :
      (fields.foldl (fun sorted field => insertSorted field.1 field.2 sorted) before).Perm
          (before ++ fields) ∧
        ((fields.foldl (fun sorted field => insertSorted field.1 field.2 sorted) before).map
          Prod.fst).Pairwise (· < ·) := by
    induction fields generalizing before with
    | nil => exact ⟨by simp, hbefore⟩
    | cons field rest ih =>
        have hfresh : field.1 ∉ before.map Prod.fst := by
          intro hmem
          rw [List.map_append, List.nodup_append] at hapart
          exact hapart.2.2 field.1 hmem field.1 List.mem_cons_self rfl
        have hperm : (insertSorted field.1 field.2 before ++ rest).Perm
            (before ++ field :: rest) :=
          ((perm_insertSorted field.2 hfresh).append_right rest).trans List.perm_middle.symm
        obtain ⟨hrest, hsorted⟩ := ih (List.nodup_cons.mp hkeys).2
          (insertSorted field.1 field.2 before) (pairwise_insertSorted field.1 field.2 hbefore)
          ((hperm.map Prod.fst).nodup_iff.mpr hapart)
        exact ⟨hrest.trans hperm, hsorted⟩
  exact hfold [] List.Pairwise.nil hkeys

/-- Fields that were written in another order are read in the order of their keys. -/
theorem sortFields_of_perm {α : Type} {fields sorted : List (String × α)}
    (hperm : fields.Perm sorted) (hkeys : (sorted.map Prod.fst).Pairwise (· < ·)) :
    sortFields fields = sorted := by
  have hnodup : (fields.map Prod.fst).Nodup :=
    (hperm.map Prod.fst).nodup_iff.mpr (hkeys.imp fun hlt => ne_of_lt hlt)
  obtain ⟨hsame, hsorted⟩ := sortFields_spec hnodup
  rw [List.pairwise_map] at hkeys hsorted
  refine List.Perm.eq_of_pairwise ?_ hsorted hkeys (hsame.trans hperm)
  exact fun first second _ _ hlt hgt => absurd hgt (lt_asymm hlt)

/-! ## Whole values -/

/-- A value that is read back: its numbers are integers of at most 64 bits, the fields of its
objects are in the order of their keys, and so many arrays and objects are in one another. -/
inductive Readable : Nat → Json → Prop
  | null (depth : Nat) : Readable depth .null
  | bool (depth : Nat) (b : Bool) : Readable depth (.bool b)
  | integer (depth : Nat) {n : Int} (hfits : Number.Fits n) :
      Readable depth (.num (.integer n))
  | str (depth : Nat) (s : String) : Readable depth (.str s)
  | arr {depth : Nat} {items : List Json} (hitems : ∀ item ∈ items, Readable depth item) :
      Readable (depth + 1) (.arr items)
  | obj {depth : Nat} {fields : List (String × Json)}
      (hkeys : (fields.map Prod.fst).Pairwise (· < ·))
      (hvalues : ∀ field ∈ fields, Readable depth field.2) : Readable (depth + 1) (.obj fields)

theorem Readable.reads (hreadable : Readable depth value) : Reads depth value.chars value := by
  induction hreadable with
  | null depth =>
      exact .mono (reads_word (List.all_eq_true.mp rfl) (by decide) rfl) (Nat.zero_le depth)
  | bool depth b =>
      cases b with
      | true =>
          exact .mono (reads_word (List.all_eq_true.mp rfl) (by decide) rfl) (Nat.zero_le depth)
      | false =>
          exact .mono (reads_word (List.all_eq_true.mp rfl) (by decide) rfl) (Nat.zero_le depth)
  | integer depth hfits => exact (reads_integer hfits).mono (Nat.zero_le depth)
  | str depth s => exact (reads_str s).mono (Nat.zero_le depth)
  | arr hitems ih => exact .arr (List.forall₂_same.mpr ih)
  | obj hkeys hvalues ih =>
      rename_i depth fields
      have hfields : List.Forall₂ (ReadsField depth) fields fields :=
        List.forall₂_same.mpr fun field hfield => ⟨rfl, ih field hfield⟩
      have hreads := Reads.obj hfields
      rwa [sortFields_of_perm (List.Perm.refl fields) hkeys] at hreads

/-- The text of a value is read as that value. -/
theorem Readable.parse?_render (hreadable : Readable depth value) (hdepth : depth ≤ nestingLimit) :
    parse? value.render = some value :=
  hreadable.reads.parse? hdepth

/-- The text of an object is read with its fields in the order of their keys. -/
theorem parse?_obj {fields : List (String × Json)}
    (hvalues : ∀ field ∈ fields, field.2.Readable depth) (hdepth : depth + 1 ≤ nestingLimit) :
    parse? (Json.obj fields).render = some (.obj (sortFields fields)) := by
  have hfields : List.Forall₂ (ReadsField depth) fields fields :=
    List.forall₂_same.mpr fun field hfield => ⟨rfl, (hvalues field hfield).reads⟩
  exact (Reads.obj hfields).parse? hdepth

end TableRouting.Json

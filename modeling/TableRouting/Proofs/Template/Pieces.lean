import Mathlib.Data.List.Chain
import TableRouting.Proofs.Text.Trimming
import TableRouting.Template.Basic

/-!
# Pieces of a template

A template text is literal text interleaved with references.  A text without an opening
is literal; otherwise the first opening ends a literal and begins a reference, which the
next closing brace ends.  There is only one way to take a text apart like that, and none
if a reference is not closed.
-/

namespace TableRouting.Template

/-- What opens a reference. -/
def opening : List Char := ['$', '{']

/-- A text in which no reference opens. -/
def Plain (text : List Char) : Prop := ¬ opening <:+: text

/-- A piece of a template: literal text, or what stands between the braces of a reference. -/
inductive Piece where
  | literal (text : List Char)
  | reference (text : List Char)

namespace Piece

def source : Piece → List Char
  | .literal text => text
  | .reference text => opening ++ text ++ ['}']

def IsLiteral : Piece → Prop
  | .literal _ => True
  | .reference _ => False

def text (pieces : List Piece) : List Char := pieces.flatMap source

/-- The piece for a literal, unless it would be empty. -/
def ofLiteral (text : List Char) : List Piece :=
  if text.isEmpty then [] else [.literal text]

@[simp] theorem text_nil : text [] = [] := rfl

@[simp] theorem text_cons (piece : Piece) (pieces : List Piece) :
    text (piece :: pieces) = piece.source ++ text pieces := rfl

@[simp] theorem text_append (first second : List Piece) :
    text (first ++ second) = text first ++ text second := List.flatMap_append

@[simp] theorem text_ofLiteral (literal : List Char) : text (ofLiteral literal) = literal := by
  rw [ofLiteral]
  split
  · rename_i hempty
    exact (List.isEmpty_iff.mp hempty).symm
  · exact List.append_nil literal

end Piece

/-- Pieces that a text is made of: no literal is empty or has an opening in it, literals do not
stand side by side, and a reference ends at the first closing brace. -/
structure Decomposes (pieces : List Piece) (text : List Char) : Prop where
  text_eq : Piece.text pieces = text
  literals : ∀ literal, Piece.literal literal ∈ pieces → literal ≠ [] ∧ Plain literal
  apart : pieces.IsChain fun first second => first.IsLiteral → ¬ second.IsLiteral
  closed : ∀ reference, Piece.reference reference ∈ pieces → '}' ∉ reference

theorem plain_nil : Plain [] := by
  intro hopening
  exact absurd (List.infix_nil.mp hopening) (List.cons_ne_nil _ _)

theorem Plain.tail {c : Char} {text : List Char} (hplain : Plain (c :: text)) : Plain text :=
  fun hopening => hplain (hopening.trans (List.suffix_cons c text).isInfix)

theorem not_plain_append (before after : List Char) : ¬ Plain (before ++ (opening ++ after)) := by
  intro hplain
  apply hplain
  rw [← List.append_assoc]
  exact List.infix_append before opening after

/-- A text that is not plain opens a first reference. -/
theorem exists_opening {text : List Char} (hopens : ¬ Plain text) :
    ∃ literal after, Plain literal ∧ text = literal ++ (opening ++ after) := by
  induction text with
  | nil => exact absurd plain_nil hopens
  | cons c rest ih =>
      by_cases hhere : opening <+: c :: rest
      · obtain ⟨after, hafter⟩ := hhere
        exact ⟨[], after, plain_nil, hafter.symm⟩
      · have hrest : ¬ Plain rest := by
          intro hplain
          apply hopens
          intro hopening
          rcases List.infix_cons_iff.mp hopening with hbegins | hlater
          · exact hhere hbegins
          · exact hplain hlater
        obtain ⟨literal, after, hplain, rfl⟩ := ih hrest
        refine ⟨c :: literal, after, ?_, rfl⟩
        intro hopening
        rcases List.infix_cons_iff.mp hopening with hbegins | hlater
        · exact hhere (hbegins.trans (List.prefix_append (c :: literal) (opening ++ after)))
        · exact hplain hlater

/-- The first opening of a text is where it is. -/
theorem append_opening_inj {first second after rest : List Char} (hfirst : Plain first)
    (hsecond : Plain second)
    (hsame : first ++ (opening ++ after) = second ++ (opening ++ rest)) :
    first = second ∧ after = rest := by
  induction first generalizing second with
  | nil =>
      rcases second with _ | ⟨c, _ | ⟨d, second⟩⟩
      · exact ⟨rfl, List.append_cancel_left hsame⟩
      · simp [opening] at hsame
      · exfalso
        -- The second text would begin with an opening.
        simp only [opening, List.nil_append, List.cons_append, List.cons.injEq] at hsame
        obtain ⟨rfl, rfl, -⟩ := hsame
        exact hsecond (List.prefix_append opening second).isInfix
  | cons c first ih =>
      rcases second with _ | ⟨d, second⟩
      · exfalso
        rcases first with _ | ⟨d, first⟩
        · simp [opening] at hsame
        · simp only [opening, List.nil_append, List.cons_append, List.cons.injEq] at hsame
          obtain ⟨rfl, rfl, -⟩ := hsame
          exact hfirst (List.prefix_append opening first).isInfix
      · obtain ⟨rfl, htail⟩ := List.cons_eq_cons.mp hsame
        obtain ⟨rfl, hafter⟩ := ih hfirst.tail hsecond.tail htail
        exact ⟨rfl, hafter⟩

/-- A text is taken apart at its references: it has none, its first one is not closed, or
its first one is closed and what follows is taken apart. -/
theorem scanInduction {motive : List Char → Prop}
    (plain : ∀ text, Plain text → motive text)
    (unclosed : ∀ literal after, Plain literal → '}' ∉ after →
      motive (literal ++ (opening ++ after)))
    (closed : ∀ literal reference rest, Plain literal → '}' ∉ reference → motive rest →
      motive (literal ++ (opening ++ (reference ++ '}' :: rest))))
    (text : List Char) : motive text := by
  induction hlength : text.length using Nat.strongRecOn generalizing text with
  | ind length ih =>
      -- On the length: a reference that is closed leaves a shorter text after it.
      by_cases hplain : Plain text
      · exact plain text hplain
      · obtain ⟨literal, after, hliteral, rfl⟩ := exists_opening hplain
        by_cases hclosed : '}' ∈ after
        · obtain ⟨reference, rest, rfl, hreference⟩ := List.eq_append_cons_of_mem hclosed
          refine closed literal reference rest hliteral hreference (ih _ ?_ rest rfl)
          rw [← hlength]
          simp only [List.length_append, List.length_cons]
          omega
        · exact unclosed literal after hliteral hclosed

/-- Pieces are a literal alone, or begin with a reference after a literal. -/
theorem Decomposes.cases {pieces : List Piece} {text : List Char}
    (hpieces : Decomposes pieces text) :
    (Plain text ∧ pieces = Piece.ofLiteral text) ∨
      ∃ literal reference more rest, Plain literal ∧ '}' ∉ reference ∧
        pieces = Piece.ofLiteral literal ++ .reference reference :: more ∧
        text = literal ++ (opening ++ (reference ++ '}' :: rest)) ∧ Decomposes more rest := by
  obtain ⟨rfl, hliterals, hapart, hclosed⟩ := hpieces
  rcases pieces with _ | ⟨literal | reference, more⟩
  · exact .inl ⟨plain_nil, rfl⟩
  · obtain ⟨hne, hplain⟩ := hliterals literal List.mem_cons_self
    have hpiece : Piece.ofLiteral literal = [.literal literal] :=
      if_neg fun hempty => hne (List.isEmpty_iff.mp hempty)
    rcases more with _ | ⟨other | reference, more⟩
    · left
      simp only [Piece.text_cons, Piece.text_nil, Piece.source, List.append_nil]
      exact ⟨hplain, hpiece.symm⟩
    · -- Two literals side by side.
      exact absurd trivial ((List.isChain_cons_cons.mp hapart).1 trivial)
    · right
      refine ⟨literal, reference, more, Piece.text more, hplain, ?_, ?_, ?_, rfl, ?_, ?_, ?_⟩
      · exact hclosed reference (by simp)
      · rw [hpiece]
        rfl
      · simp [Piece.source]
      · intro literal hmem
        exact hliterals literal (by simp [hmem])
      · exact (List.isChain_cons_cons.mp hapart).2.tail
      · intro reference hmem
        exact hclosed reference (by simp [hmem])
  · right
    refine ⟨[], reference, more, Piece.text more, plain_nil, ?_, rfl, ?_, rfl, ?_, ?_, ?_⟩
    · exact hclosed reference List.mem_cons_self
    · simp [Piece.source]
    · intro literal hmem
      exact hliterals literal (List.mem_cons_of_mem _ hmem)
    · exact hapart.tail
    · intro reference hmem
      exact hclosed reference (List.mem_cons_of_mem _ hmem)

theorem decomposes_ofLiteral {text : List Char} (hplain : Plain text) :
    Decomposes (Piece.ofLiteral text) text := by
  refine ⟨Piece.text_ofLiteral text, ?_, ?_, ?_⟩
  all_goals
    rw [Piece.ofLiteral]
    split
  · simp
  · rename_i hne
    intro literal hmem
    obtain rfl := Piece.literal.inj (List.mem_singleton.mp hmem)
    exact ⟨fun hnil => hne (List.isEmpty_iff.mpr hnil), hplain⟩
  · exact List.isChain_nil
  · exact List.isChain_singleton _
  · simp
  · intro reference hmem
    exact nomatch List.mem_singleton.mp hmem

theorem Decomposes.cons_reference {more : List Piece} {rest literal reference : List Char}
    (hmore : Decomposes more rest) (hplain : Plain literal) (hreference : '}' ∉ reference) :
    Decomposes (Piece.ofLiteral literal ++ .reference reference :: more)
      (literal ++ (opening ++ (reference ++ '}' :: rest))) := by
  obtain ⟨rfl, hliterals, hapart, hclosed⟩ := hmore
  obtain ⟨-, hliteral, hsingle, hnone⟩ := decomposes_ofLiteral hplain
  refine ⟨by simp [Piece.source], ?_, ?_, ?_⟩
  · intro other hmem
    rcases List.mem_append.mp hmem with hfirst | hlater
    · exact hliteral other hfirst
    · exact hliterals other (List.mem_of_ne_of_mem (by simp) hlater)
  · have hlater : (Piece.reference reference :: more).IsChain
        fun first second => first.IsLiteral → ¬ second.IsLiteral :=
      List.isChain_cons.mpr ⟨fun _ _ himpossible => himpossible.elim, hapart⟩
    apply List.isChain_append.mpr
    refine ⟨hsingle, hlater, ?_⟩
    intro first _ second hsecond _
    obtain rfl := Option.some.inj hsecond
    exact not_false
  · intro other hmem
    rcases List.mem_append.mp hmem with hfirst | hlater
    · exact hnone other hfirst
    · rcases List.mem_cons.mp hlater with hhere | hthere
      · rwa [Piece.reference.inj hhere]
      · exact hclosed other hthere

variable {pieces : List Piece} {text literal reference rest after : List Char}

theorem decomposes_plain_iff (hplain : Plain text) :
    Decomposes pieces text ↔ pieces = Piece.ofLiteral text := by
  constructor
  · intro hpieces
    rcases hpieces.cases with ⟨-, hsingle⟩ | ⟨literal, reference, more, rest, -, -, -, rfl, -⟩
    · exact hsingle
    · exact absurd hplain (not_plain_append literal _)
  · rintro rfl
    exact decomposes_ofLiteral hplain

theorem not_decomposes_unclosed (hplain : Plain literal) (hafter : '}' ∉ after) :
    ¬ Decomposes pieces (literal ++ (opening ++ after)) := by
  intro hpieces
  rcases hpieces.cases with ⟨htext, -⟩ | ⟨other, reference, more, rest, hother, -, -, hsame, -⟩
  · exact not_plain_append literal after htext
  · obtain ⟨-, rfl⟩ := append_opening_inj hplain hother hsame
    exact hafter (by simp)

theorem decomposes_closed_iff (hplain : Plain literal) (hreference : '}' ∉ reference) :
    Decomposes pieces (literal ++ (opening ++ (reference ++ '}' :: rest))) ↔
      ∃ more, pieces = Piece.ofLiteral literal ++ .reference reference :: more ∧
        Decomposes more rest := by
  constructor
  · intro hpieces
    rcases hpieces.cases with ⟨htext, -⟩ |
      ⟨other, name, more, others, hother, hname, hsplit, hsame, hmore⟩
    · exact absurd htext (not_plain_append literal _)
    · obtain ⟨rfl, hafter⟩ := append_opening_inj hplain hother hsame
      obtain ⟨rfl, rfl⟩ := Text.append_cons_inj hreference hname hafter
      exact ⟨more, hsplit, hmore⟩
  · rintro ⟨more, rfl, hmore⟩
    exact hmore.cons_reference hplain hreference

/-- There is only one way to take a text apart. -/
theorem Decomposes.unique {others : List Piece} (hpieces : Decomposes pieces text)
    (hothers : Decomposes others text) : pieces = others := by
  induction text using scanInduction generalizing pieces others with
  | plain text hplain =>
      rw [(decomposes_plain_iff hplain).mp hpieces, (decomposes_plain_iff hplain).mp hothers]
  | unclosed literal after hplain hafter =>
      exact absurd hpieces (not_decomposes_unclosed hplain hafter)
  | closed literal reference rest hplain hreference ih =>
      obtain ⟨more, rfl, hmore⟩ := (decomposes_closed_iff hplain hreference).mp hpieces
      obtain ⟨others, rfl, hrest⟩ := (decomposes_closed_iff hplain hreference).mp hothers
      rw [ih hmore hrest]

/-- Every reference takes up three characters at least. -/
theorem Decomposes.three_mul_le (hpieces : Decomposes pieces text) :
    3 * (pieces.countP fun piece => piece matches .reference _) ≤ text.length := by
  rw [← hpieces.text_eq]
  clear hpieces
  induction pieces with
  | nil => exact Nat.zero_le _
  | cons piece rest ih =>
      cases piece <;>
        simp only [List.countP_cons, Piece.text_cons, Piece.source, opening, List.length_append,
          List.length_cons, List.length_nil, if_true, Bool.false_eq_true, if_false] <;>
        omega

end TableRouting.Template

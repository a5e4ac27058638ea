import TableRouting.Proofs.Text.Cutting
import TableRouting.RecordFile

/-!
# The lines of a file

A file is made of lines in one way only.  A line ends at a line feed, together with one
carriage return if that stands right before it; what follows the last line feed is a line
of its own if it is not empty.
-/

namespace TableRouting.RecordFile

variable {bytes line piece : List UInt8} {pieces : List (List UInt8)}

/-- A file is made of these lines. -/
inductive Layout : List (List UInt8) → List UInt8 → Prop
  | nil : Layout [] []
  /-- The last line needs no end. -/
  | last (line : List UInt8) (hne : line ≠ []) (hfree : lineFeed ∉ line) : Layout [line] line
  | feed {pieces : List (List UInt8)} {bytes : List UInt8} (line : List UInt8)
      (hfree : lineFeed ∉ line) (hreturn : line.getLast? ≠ some carriageReturn)
      (hmore : Layout pieces bytes) : Layout (line :: pieces) (line ++ lineFeed :: bytes)
  | returnFeed {pieces : List (List UInt8)} {bytes : List UInt8} (line : List UInt8)
      (hfree : lineFeed ∉ line) (hmore : Layout pieces bytes) :
      Layout (line :: pieces) (line ++ carriageReturn :: lineFeed :: bytes)

theorem lines_of_not_mem (hfree : lineFeed ∉ bytes) :
    lines bytes = if bytes.isEmpty then [] else [bytes] := by
  rw [lines, Text.cut_of_not_mem hfree, linesOfPieces]

theorem lines_append (hfree : lineFeed ∉ piece) (bytes : List UInt8) :
    lines (piece ++ lineFeed :: bytes) = dropReturn piece :: lines bytes := by
  obtain ⟨first, more, hcut⟩ :=
    List.exists_cons_of_ne_nil (Text.cutFrom_ne_nil lineFeed [] bytes)
  rw [lines, Text.cut_append, Text.cut_of_not_mem hfree, List.singleton_append, lines, Text.cut,
    hcut, linesOfPieces]
  exact List.cons_ne_nil _ _

theorem dropReturn_of_ne (hreturn : line.getLast? ≠ some carriageReturn) :
    dropReturn line = line := if_neg hreturn

theorem dropReturn_concat (line : List UInt8) : dropReturn (line ++ [carriageReturn]) = line := by
  rw [dropReturn, if_pos List.getLast?_concat, List.dropLast_concat]

/-- The lines that a file is made of are those that are read. -/
theorem Layout.lines_eq (hlayout : Layout pieces bytes) : lines bytes = pieces := by
  induction hlayout with
  | nil => rfl
  | last line hne hfree =>
      rw [lines_of_not_mem hfree, if_neg (mt List.isEmpty_iff.mp hne)]
  | feed line hfree hreturn hmore ih => rw [lines_append hfree, dropReturn_of_ne hreturn, ih]
  | returnFeed line hfree hmore ih =>
      have hmark : lineFeed ∉ line ++ [carriageReturn] := by
        simpa using ⟨hfree, show lineFeed ≠ carriageReturn by decide⟩
      rw [← List.singleton_append, ← List.append_assoc, lines_append hmark, dropReturn_concat, ih]

/-- A file is made of its lines. -/
theorem layout_lines (bytes : List UInt8) : Layout (lines bytes) bytes := by
  -- On the length of the file: a line is taken off together with its end.
  induction hlength : bytes.length using Nat.strongRecOn generalizing bytes with
  | ind length ih =>
      by_cases hfeed : lineFeed ∈ bytes
      · obtain ⟨piece, rest, rfl, hfree⟩ := List.eq_append_cons_of_mem hfeed
        have hmore : Layout (lines rest) rest := by
          apply ih rest.length _ rest rfl
          rw [← hlength, List.length_append, List.length_cons]
          omega
        rw [lines_append hfree]
        by_cases hreturn : piece.getLast? = some carriageReturn
        · obtain ⟨line, rfl⟩ := List.getLast?_eq_some_iff.mp hreturn
          rw [dropReturn_concat, List.append_assoc, List.singleton_append]
          exact .returnFeed line (fun hmem => hfree (List.mem_append_left _ hmem)) hmore
        · rw [dropReturn_of_ne hreturn]
          exact .feed piece hfree hreturn hmore
      · rw [lines_of_not_mem hfeed]
        split
        · rename_i hempty
          rw [List.isEmpty_iff.mp hempty]
          exact .nil
        · rename_i hempty
          exact .last bytes (mt List.isEmpty_iff.mpr hempty) hfeed

theorem layout_iff : Layout pieces bytes ↔ pieces = lines bytes := by
  constructor
  · exact fun hlayout => hlayout.lines_eq.symm
  · rintro rfl
    exact layout_lines bytes

/-- A carriage return counts as part of the end only, an empty line counts, and the last line
needs no end. -/
example : lines [97, 13, 13, 10, 10, 98, 13] = [[97, 13], [], [98, 13]] := by decide

end TableRouting.RecordFile

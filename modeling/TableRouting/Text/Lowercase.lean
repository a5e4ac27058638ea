import TableRouting.Text.CaseTable

/-!
# Lower-casing

Table and column names are folded by Unicode's full lower-case mapping. It is
the mapping of single characters with two exceptions: a capital I with a dot
above becomes two characters, and a capital sigma depends on its neighbours.
-/

namespace TableRouting.Text

def lowerChar (c : Char) : List Char :=
  if c.val < 0x80 then
    [c.toLower]
  else if c.val == 0x130 then
    ['i', '\u0307']
  else
    match caseShifts.find? fun r =>
        r.first ≤ c.toNat && c.toNat ≤ r.last && (c.toNat - r.first) % r.stride == 0 with
    | some r => [Char.ofNat ((c.toNat : Int) + r.shift).toNat]
    | none => [c]

private def inRanges (ranges : List (Nat × Nat)) (c : Char) : Bool :=
  ranges.any fun (first, last) => first ≤ c.toNat && c.toNat ≤ last

/-- Letters with case, less those that are also ignorable. -/
def isCased (c : Char) : Bool := inRanges casedRanges c

/-- Marks and signs that neither end nor continue a word for the sigma rule. -/
def isCaseIgnorable (c : Char) : Bool := inRanges caseIgnorableRanges c

private def meetsCased (text : List Char) : Bool :=
  (text.dropWhile isCaseIgnorable).head?.any isCased

/-- A sigma ends a word when a cased character precedes it and none follows.
The text before it is given nearest character first. -/
def endsWord (before after : List Char) : Bool :=
  meetsCased before && !meetsCased after

/-- Lower-case a text, given what stands before it, nearest character first. -/
def lowerFrom (before : List Char) : List Char → List Char
  | [] => []
  | c :: rest =>
    (if c = 'Σ' then [if endsWord before rest then 'ς' else 'σ'] else lowerChar c) ++
      lowerFrom (c :: before) rest

def lowerChars (text : List Char) : List Char := lowerFrom [] text

def lower (text : String) : String :=
  String.ofList (lowerChars text.toList)

@[simp] theorem toList_lower (text : String) :
    (lower text).toList = lowerChars text.toList := by
  simp [lower]

end TableRouting.Text

/-!
# Blank characters

Names, headers and connection strings are trimmed before they are used. What
trimming removes is Unicode's property `White_Space`, which is wider than the
ASCII blanks: a no-break space or an ideographic space at either end goes too.
-/

namespace TableRouting.Text

/-- Unicode's property `White_Space`. -/
def isBlank (c : Char) : Bool :=
  (0x09 ≤ c.val && c.val ≤ 0x0D) || c.val == 0x20 || c.val == 0x85 || c.val == 0xA0 ||
    c.val == 0x1680 || (0x2000 ≤ c.val && c.val ≤ 0x200A) || c.val == 0x2028 ||
    c.val == 0x2029 || c.val == 0x202F || c.val == 0x205F || c.val == 0x3000

def trimEnd (text : List Char) : List Char :=
  (text.reverse.dropWhile isBlank).reverse

def trimChars (text : List Char) : List Char :=
  trimEnd (text.dropWhile isBlank)

def trim (text : String) : String :=
  String.ofList (trimChars text.toList)

@[simp] theorem toList_trim (text : String) :
    (trim text).toList = trimChars text.toList := by
  simp [trim]

/-- A text of blanks alone, the empty text included. -/
def isBlankText (text : String) : Bool :=
  text.toList.all isBlank

end TableRouting.Text

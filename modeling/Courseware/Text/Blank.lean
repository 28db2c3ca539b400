import Courseware.Text.Basic

/-!
White space: the characters with the Unicode property of that name, trimming, and the words
of a text.
-/

namespace Courseware.Text

/-- The Unicode property White_Space. -/
def isBlank (c : Char) : Bool :=
  let n := c.toNat
  n == 32 || (9 ≤ n && n ≤ 13) || n == 0x85 || n == 0xA0 || n == 0x1680 ||
    (0x2000 ≤ n && n ≤ 0x200A) || n == 0x2028 || n == 0x2029 || n == 0x202F || n == 0x205F ||
    n == 0x3000

def trimStart (t : Text) : Text := t.dropWhile isBlank

def trimEnd (t : Text) : Text := (t.reverse.dropWhile isBlank).reverse

/-- Removes white space at both ends. -/
def trim (t : Text) : Text := trimEnd (trimStart t)

/-- Only white space, or nothing at all. -/
def isBlankText (t : Text) : Bool := t.all isBlank

/-- The maximal runs of characters other than white space. -/
def words (t : Text) : List Text := (pieces isBlank t).filter (· ≠ [])

/-- The first word, or the empty text. -/
def firstWord (t : Text) : Text := (words t).headD []

/-- The form in which names of variables, labels and procedures are compared. -/
def canonical (t : Text) : Text := upper (trim t)

end Courseware.Text

/-!
# Blank characters

The characters of the Unicode property `White_Space`, and trimming them off both ends of a
text.

* `trimChars_eq_self` — trimming leaves a text alone that neither starts nor ends with a
  blank.
-/

namespace FormulaTable.Text

/-- The Unicode property `White_Space`. -/
def isBlank (c : Char) : Bool :=
  let n := c.toNat
  (0x09 ≤ n && n ≤ 0x0D) || n == 0x20 || n == 0x85 || n == 0xA0 || n == 0x1680 ||
  (0x2000 ≤ n && n ≤ 0x200A) || n == 0x2028 || n == 0x2029 || n == 0x202F || n == 0x205F ||
  n == 0x3000

/-- The characters left when the blanks at both ends are dropped. -/
def trimChars (cs : List Char) : List Char :=
  ((cs.dropWhile isBlank).reverse.dropWhile isBlank).reverse

/-- The text without the blanks at its two ends. -/
def trim (s : String) : String :=
  String.ofList (trimChars s.toList)

/-- Does the text hold nothing but blanks? -/
def isBlankText (s : String) : Bool :=
  s.toList.all isBlank

/-- Trimming leaves a list alone whose two ends are no blanks. -/
theorem trimChars_eq_self {cs : List Char} (first : ∀ c ∈ cs.head?, isBlank c = false)
    (last : ∀ c ∈ cs.getLast?, isBlank c = false) : trimChars cs = cs := by
  have hfirst : cs.dropWhile isBlank = cs := by
    cases cs with
    | nil => rfl
    | cons c rest => simp [List.dropWhile, first c (by simp)]
  have hlast : cs.reverse.dropWhile isBlank = cs.reverse := by
    cases hrev : cs.reverse with
    | nil => rfl
    | cons c rest =>
      have hc : cs.getLast? = some c := by
        rw [← List.head?_reverse, hrev]
        rfl
      simp [List.dropWhile, last c hc]
  rw [trimChars, hfirst, hlast, List.reverse_reverse]

end FormulaTable.Text

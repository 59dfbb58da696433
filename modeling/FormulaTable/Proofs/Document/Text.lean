import FormulaTable.Document.Printer
import FormulaTable.Document.Token

/-!
# Texts in documents

A text is written in quotes, with quotes, backslashes and control characters escaped, and is
read as code units whose surrogate pairs are joined. What is written for a character is read
as the character: no character is half of a surrogate pair, so that there is nothing to
join.

* `takeUnits?_writeChar` — one character is read off the front of a text.
* `joinPairs_map_toNat` — the code units of characters are those characters.
* `take?_writeText` — a written text is one token.
-/

namespace FormulaTable.Document

namespace Token

variable {c : Char} {cs rest : List Char}

/-! ### Escaped characters -/

/-- A digit in base 16 is read as its value. -/
theorem hexDigit?_digitChar {n : Nat} (h : n < 16) :
    hexDigit? (Nat.digitChar n) = some n := by
  revert n
  decide

/-- The code unit of a control character is read off its four digits. -/
theorem unit?_hexPair {n : Nat} (h : n < 256) :
    unit? '0' '0' (Nat.digitChar (n / 16)) (Nat.digitChar (n % 16)) = some n := by
  have hzero : hexDigit? '0' = some 0 := rfl
  have hhigh := hexDigit?_digitChar (n := n / 16) (by omega)
  have hlow := hexDigit?_digitChar (n := n % 16) (by omega)
  simp only [unit?, hzero, hhigh, hlow, Option.bind_eq_bind, Option.bind_some,
    Option.pure_def, Option.some.injEq]
  omega

/-- A letter that is written after a backslash is read as the character that it stands
for. -/
theorem lookup_escapes {letter : Char} (h : escapeLetters.lookup c = some letter) :
    escapes.lookup letter = some c ∧ letter ≠ 'u' := by
  have hall : ∀ e ∈ escapeLetters, escapes.lookup e.2 = some e.1 ∧ e.2 ≠ 'u' := by decide
  obtain ⟨before, after, hsplit, -⟩ := List.lookup_eq_some_iff.1 h
  exact hall (c, letter) (hsplit ▸ List.mem_append_right _ List.mem_cons_self)

/-- A character that is neither escaped by a letter nor a control character needs no
escape. -/
theorem ne_of_lookup_eq_none (h : escapeLetters.lookup c = none) : c ≠ '"' ∧ c ≠ '\\' := by
  constructor <;> rintro rfl <;> cases h

/-- **What is written for a character** is read as its code unit. -/
theorem takeUnits?_writeChar (c : Char) (rest : List Char) :
    takeUnits? (writeChar c ++ rest) = (takeUnits? rest).map fun read =>
      (c.toNat :: read.1, read.2) := by
  rw [writeChar]
  split
  · next letter hletter =>
    obtain ⟨hescape, hu⟩ := lookup_escapes hletter
    cases hrest : takeUnits? rest <;> simp [takeUnits?, hescape, hu, hrest]
  · next hnone =>
    obtain ⟨hquote, hslash⟩ := ne_of_lookup_eq_none hnone
    split
    · next hcontrol =>
      have hunit := unit?_hexPair (n := c.toNat) (by omega)
      cases hrest : takeUnits? rest <;> simp [hexPair, takeUnits?, hunit, hrest]
    · next hplain =>
      cases hrest : takeUnits? rest <;> simp [takeUnits?, hslash, hplain, hrest]

/-- Characters that are written are taken back, up to the closing mark. -/
theorem takeUnits?_flatMap (cs rest : List Char) :
    takeUnits? (cs.flatMap writeChar ++ '"' :: rest) = some (cs.map Char.toNat, rest) := by
  induction cs with
  | nil => rw [List.flatMap_nil, List.nil_append, takeUnits?, List.map_nil]
  | cons c cs ih =>
    rw [List.flatMap_cons, List.append_assoc, takeUnits?_writeChar, ih]
    rfl

/-! ### Code units -/

/-- No character is half of a surrogate pair. -/
theorem isHighHalf_or_isLowHalf_toNat (c : Char) :
    (isHighHalf c.toNat || isLowHalf c.toNat) = false := by
  have hvalid : c.toNat < 0xD800 ∨ 0xDFFF < c.toNat ∧ c.toNat < 0x110000 := c.valid
  simp only [isHighHalf, isLowHalf, Bool.or_eq_false_iff, Bool.and_eq_false_iff,
    decide_eq_false_iff_not]
  omega

/-- **The code units of characters** are those characters. -/
theorem joinPairs_map_toNat (cs : List Char) : joinPairs (cs.map Char.toNat) = some cs := by
  induction cs with
  | nil => rfl
  | cons c cs ih =>
    have hhalf := isHighHalf_or_isLowHalf_toNat c
    obtain ⟨hhigh, hlow⟩ := Bool.or_eq_false_iff.1 hhalf
    cases cs with
    | nil => simp [joinPairs, hhigh, hlow]
    | cons d ds =>
      rw [List.map_cons, List.map_cons, joinPairs, if_neg (by simp [hhigh]),
        if_neg (by simp [hlow]), ← List.map_cons, ih, Char.ofNat_toNat]
      rfl

/-- **A written text** is one token. -/
theorem take?_writeText (s : String) (rest : List Char) :
    take? (writeText s ++ rest) = some (text (some s), rest) := by
  have hunits := takeUnits?_flatMap s.toList rest
  have hmark : ofMark? '"' = none := rfl
  rw [writeText, List.append_assoc, List.cons_append, List.singleton_append, take?, hmark]
  dsimp only
  rw [if_pos rfl, hunits, Option.map_some, joinPairs_map_toNat, Option.map_some,
    String.ofList_toList]

end Token

end FormulaTable.Document

import FormulaTable.Proofs.Formula.Lexing

/-!
# Spelling tokens

Every token has a canonical spelling: operators are written with their symbols, texts
between double quotes with every backslash and double quote escaped, and names of columns
between back-quotes. Spellings with a blank before each of them, and one at the end, are cut
into the tokens that they were made from.

* `ofText_spell` — reading what is spelled gives the tokens back.
-/

namespace FormulaTable

/-! ### Spellings -/

/-- A text as it stands between double quotes. -/
def escape (cs : List Char) : List Char :=
  cs.flatMap fun c => if c = '\\' || c = '"' then ['\\', c] else [c]

/-- The spelling of a constant. Numbers with a fraction are not spelled. -/
def Literal.spelling : Literal → List Char
  | null => ['n', 'u', 'l', 'l']
  | bool true => ['t', 'r', 'u', 'e']
  | bool false => ['f', 'a', 'l', 's', 'e']
  | int n => Nat.toDigits 10 n.toInt.toNat
  | float _ => []
  | text s => '"' :: (escape s.toList ++ ['"'])

namespace Token

/-- The canonical spelling of a token. -/
def spelling : Token → List Char
  | literal (.integer digits) => digits
  | literal (.known l) => l.spelling
  | word name => name.toList
  | quotedName name => '\x60' :: (name.toList ++ ['\x60'])
  | operator op => op.symbol.toList
  | not => ['!']
  | question => ['?']
  | colon => [':']
  | comma => [',']
  | openBracket => ['(']
  | closeBracket => [')']
  | illegal => []

/-- The spellings of tokens with a blank around each. -/
def spell (tokens : List Token) : List Char :=
  (tokens.flatMap fun t => ' ' :: t.spelling) ++ [' ']

/-- The token is what is read from its spelling. -/
def IsSpelled (t : Token) : Prop :=
  t ≠ illegal ∧ ∃ c rest, t.spelling = c :: rest ∧ isSpace c = false ∧ take c rest = (t, [])

/-- A spelling is read as its token before a blank or a closing bracket. -/
theorem ofText_of_isSpelled {t : Token} (h : t.IsSpelled) {after : List Char}
    (hends : EndsTokens after) :
    ofText (t.spelling ++ after) = t :: ofText after := by
  obtain ⟨hlegal, c, rest, hspelling, hspace, htake⟩ := h
  have hfirst : take c (rest ++ after) = (t, after) := by
    rw [hends.take_append (by rwa [htake]), htake, List.nil_append]
  rw [hspelling, List.cons_append, ofText_of_take hspace hfirst]

/-- Reading what is spelled gives the tokens back. -/
theorem ofText_spell {tokens : List Token} (h : ∀ t ∈ tokens, t.IsSpelled) :
    ofText (spell tokens) = tokens := by
  induction tokens with
  | nil => exact ofText_eq_nil rfl
  | cons t tokens ih =>
      obtain ⟨ht, h⟩ := List.forall_mem_cons.1 h
      have hends : EndsTokens (spell tokens) := by
        cases tokens <;> (rintro _ ⟨⟩; exact .inl rfl)
      have hspell : spell (t :: tokens) = ' ' :: (t.spelling ++ spell tokens) := by
        simp only [spell, List.flatMap_cons, List.cons_append, List.append_assoc]
      rw [hspell, ofText_space, ofText_of_isSpelled ht hends, ih h]

/-! ### The tokens with spellings -/

/-- The tokens that are neither constants nor names. -/
def isMark : Token → Bool
  | operator _ | not | question | colon | comma | openBracket | closeBracket => true
  | _ => false

/-- A mark is read from its spelling. -/
theorem isSpelled_mark {t : Token} (h : t.isMark = true) : t.IsSpelled := by
  cases t with
  | operator op => cases op <;> exact ⟨by decide, _, _, rfl, rfl, rfl⟩
  | not | question | colon | comma | openBracket | closeBracket =>
      exact ⟨by decide, _, _, rfl, rfl, rfl⟩
  | literal _ | word _ | quotedName _ | illegal => cases h

/-- Whatever is true of a character and of no blank tells it from the blanks. -/
theorem isSpace_eq_false {p : Char → Bool} {c : Char} (hc : p c = true)
    (hp : [' ', '\t', '\r', '\n'].any p = false) : isSpace c = false := by
  by_contra h
  have hmem : c ∈ [' ', '\t', '\r', '\n'] := by
    simp only [isSpace, Bool.not_eq_false, Bool.or_eq_true, decide_eq_true_eq, or_assoc]
      at h
    simpa using h
  rw [List.any_eq_true.2 ⟨c, hmem, hc⟩] at hp
  cases hp

/-- Digits spell an integer. -/
theorem isSpelled_integer {digits : List Char} (hne : digits ≠ [])
    (hdigits : ∀ c ∈ digits, c.isDigit = true) : (literal (.integer digits)).IsSpelled := by
  cases digits with
  | nil => exact absurd rfl hne
  | cons c rest =>
      obtain ⟨hc, hrest⟩ := List.forall_mem_cons.1 hdigits
      refine ⟨by simp, c, rest, rfl, isSpace_eq_false hc (by decide), ?_⟩
      · rw [take, if_pos hc, List.takeWhile_eq_self_iff.2 hrest,
          List.dropWhile_eq_nil_iff.2 hrest]
        rfl

/-- The words that do not stand for a name, in lower case. -/
def keywords : List String := ["and", "or", "not", "true", "false", "null"]

/-- Is the name a word that is no keyword in any case? -/
def isFunctionName (name : String) : Bool :=
  name.toList.head?.any isWordStart && name.toList.all isWordChar &&
    !keywords.contains (Text.foldName name)

/-- A word that is no keyword stands for itself. -/
theorem ofWord_eq_word {name : String} (h : Text.foldName name ∉ keywords) :
    ofWord name = word name := by
  rw [ofWord]
  split
  all_goals first | rfl | (next heq => exact absurd (heq ▸ by decide) h)

/-- No word starts with a digit. -/
theorem isDigit_of_isWordStart {c : Char} (h : isWordStart c = true) :
    c.isDigit = false := by
  rw [isWordStart, Bool.or_eq_true, decide_eq_true_eq] at h
  rcases h with h | rfl
  · have hletter := toNat_of_isAlpha h
    refine Bool.eq_false_iff.2 fun hdigit => ?_
    have hhigh : c.toNat ≤ 57 := (Char.isDigit_iff_toNat.1 hdigit).2
    omega
  · rfl

/-- A name that is no keyword spells a word. -/
theorem isSpelled_word {name : String} (h : isFunctionName name = true) :
    (word name).IsSpelled := by
  rw [isFunctionName, Bool.and_eq_true, Bool.and_eq_true] at h
  obtain ⟨⟨hstart, hall⟩, hkeyword⟩ := h
  have hofWord : ofWord name = word name := ofWord_eq_word (by simpa using hkeyword)
  cases hname : name.toList with
  | nil =>
      rw [hname] at hstart
      cases hstart
  | cons c rest =>
      rw [hname] at hstart hall
      have hc : isWordStart c = true := by simpa using hstart
      have hrest : ∀ d ∈ rest, isWordChar d = true := fun d hd =>
        List.all_eq_true.1 hall d (List.mem_cons_of_mem c hd)
      refine ⟨by simp, c, rest, hname, isSpace_eq_false hc (by decide), ?_⟩
      rw [take, isDigit_of_isWordStart hc, if_neg (by decide), if_pos hc,
        List.takeWhile_eq_self_iff.2 hrest, List.dropWhile_eq_nil_iff.2 hrest, ← hname,
        String.ofList_toList, hofWord]

/-- An escaped text is read back up to its closing mark. -/
theorem takeText?_escape (cs : List Char) :
    takeText? '"' (escape cs ++ ['"']) = some (cs, []) := by
  induction cs with
  | nil => rfl
  | cons c cs ih =>
      rw [escape, List.flatMap_cons, List.append_assoc, ← escape]
      split
      · next hc =>
        rw [List.cons_append, List.cons_append, List.nil_append, takeText?, ih]
        have hsame : unescape c = c := by
          rw [Bool.or_eq_true, decide_eq_true_eq, decide_eq_true_eq] at hc
          rcases hc with rfl | rfl <;> rfl
        rw [hsame]
        rfl
      · next hc =>
        rw [Bool.or_eq_true, decide_eq_true_eq, decide_eq_true_eq, not_or] at hc
        rw [List.cons_append, List.nil_append, takeText?, if_neg hc.2, if_neg hc.1, ih]
        · rfl
        · intro _ _ hslash
          exact absurd hslash hc.1

/-- An escaped text between double quotes spells a text. -/
theorem isSpelled_text (s : String) : (literal (.known (.text s))).IsSpelled := by
  refine ⟨by simp, '"', escape s.toList ++ ['"'], rfl, rfl, ?_⟩
  rw [take, if_neg (by decide), if_neg (by decide), if_pos (by decide), takeText?_escape]
  simp

/-- A name without back-quotes spells the column between back-quotes. -/
theorem isSpelled_quotedName {name : String} (hne : name ≠ "")
    (hquote : '\x60' ∉ name.toList) :
    (quotedName name).IsSpelled := by
  refine ⟨by simp, '\x60', name.toList ++ ['\x60'], rfl, rfl, ?_⟩
  have hall : ∀ c ∈ name.toList, (c != '\x60') = true := by
    intro c hc
    rw [bne_iff_ne]
    rintro rfl
    exact hquote hc
  have hname : takeQuotedName? (name.toList ++ ['\x60']) = some (name.toList, []) := by
    rw [takeQuotedName?, List.takeWhile_append_of_pos hall,
      List.dropWhile_append_of_pos hall]
    simp [hne]
  rw [take, if_neg (by decide), if_neg (by decide), if_neg (by decide), if_pos rfl, hname]
  simp

end Token

end FormulaTable

import FormulaTable.Formula.Token
import FormulaTable.Text.Blank
import Mathlib.Data.List.DropRight
import Mathlib.Data.List.TakeWhile

/-!
# Tokens of joined texts

A text is cut into tokens from the front, and every token ends before a blank and before a
closing bracket. So the tokens of a text that such a character follows are the tokens of the
text by itself and then those of what follows; nothing runs together. Only a text in which
no token starts somewhere is an exception, because nothing is read behind that place.

* `take_append` — a token does not change when a blank or a closing bracket follows.
* `ofText_append` — nor do the tokens of a text.
-/

namespace FormulaTable

/-! ### Lists cut in two -/

section Cut

variable {α : Type} {p : α → Bool} {after : List α} (h : ∀ a ∈ after.head?, p a = false)

include h

/-- A prefix ends where it ended, if what is appended does not go on with it. -/
theorem takeWhile_append_of_head (l : List α) :
    (l ++ after).takeWhile p = l.takeWhile p := by
  have hafter : after.takeWhile p = [] := by
    cases after with
    | nil => rfl
    | cons a after => exact List.takeWhile_cons_of_neg (by simp [h a rfl])
  rw [List.takeWhile_append, hafter, List.append_nil]
  split
  · next heq => exact ((List.takeWhile_prefix p).eq_of_length heq).symm
  · rfl

/-- What is left behind a prefix keeps what is appended. -/
theorem dropWhile_append_of_head (l : List α) :
    (l ++ after).dropWhile p = l.dropWhile p ++ after := by
  have hafter : after.dropWhile p = after := by
    cases after with
    | nil => rfl
    | cons a after => exact List.dropWhile_cons_of_neg (by simp [h a rfl])
  rw [List.dropWhile_append, hafter]
  split
  · next hempty => rw [List.isEmpty_iff.1 hempty, List.nil_append]
  · rfl

end Cut

/-- What is behind a prefix is left when the prefix is dropped. -/
theorem drop_length_takeWhile {α : Type} (p : α → Bool) (l : List α) :
    l.drop (l.takeWhile p).length = l.dropWhile p := by
  conv_lhs => arg 2; rw [← List.takeWhile_append_dropWhile (p := p) (l := l)]
  exact List.drop_left

/-- The first result depends on the results of the elements only. -/
theorem findSome?_congr {α β : Type} {f g : α → Option β} {l : List α}
    (h : ∀ a ∈ l, f a = g a) :
    l.findSome? f = l.findSome? g := by
  induction l with
  | nil => rfl
  | cons a l ih =>
      rw [List.findSome?_cons, List.findSome?_cons, h a List.mem_cons_self,
        ih fun b hb => h b (List.mem_cons_of_mem a hb)]

namespace Token

/-- A token ends before a blank and before a closing bracket. -/
def EndsTokens (after : List Char) : Prop := ∀ c ∈ after.head?, c = ' ' ∨ c = ')'

/-- A quoted text does not depend on what is behind its closing mark. -/
theorem takeText?_append {mark : Char} (hmark : mark ≠ '\\') {rest body tail : List Char}
    (htext : takeText? mark rest = some (body, tail)) (after : List Char) :
    takeText? mark (rest ++ after) = some (body, tail ++ after) := by
  fun_induction takeText? mark rest generalizing body with
  | case1 => cases htext
  | case2 c rest ih =>
      obtain ⟨⟨b, t⟩, hb, heq⟩ := Option.map_eq_some_iff.1 htext
      cases heq
      rw [List.cons_append, List.cons_append, takeText?, ih hb]
      rfl
  | case3 rest hescape =>
      cases htext
      rw [List.cons_append, takeText?, if_pos rfl]
      rintro c' rest' rfl
      exact absurd rfl hmark
  | case4 => cases htext
  | case5 c rest hescape hc hslash ih =>
      obtain ⟨⟨b, t⟩, hb, heq⟩ := Option.map_eq_some_iff.1 htext
      cases heq
      rw [List.cons_append, takeText?, if_neg hc, if_neg hslash, ih hb]
      · rfl
      · rintro c' rest' rfl
        exact absurd rfl hslash

/-- A quoted name does not depend on what is behind its closing mark. -/
theorem takeQuotedName?_append {rest name tail : List Char}
    (hname : takeQuotedName? rest = some (name, tail)) (after : List Char) :
    takeQuotedName? (rest ++ after) = some (name, tail ++ after) := by
  rw [takeQuotedName?] at hname
  split at hname
  · next c rest' hdrop =>
    split at hname
    · cases hname
    · next hne =>
      cases hname
      -- The closing mark is in the text itself, so that both cuts happen before its end.
      have htake : (rest.takeWhile (· != '\x60')).length ≠ rest.length := by
        intro hlength
        have htotal : (rest.takeWhile (· != '\x60') ++
              rest.dropWhile (· != '\x60')).length = rest.length :=
          congrArg List.length List.takeWhile_append_dropWhile
        rw [List.length_append, hlength, hdrop, List.length_cons] at htotal
        omega
      rw [takeQuotedName?, List.takeWhile_append, if_neg htake,
        List.dropWhile_append, hdrop]
      simp only [List.isEmpty_cons, Bool.false_eq_true, if_false,
        List.cons_append, if_neg hne]
  · cases hname

/-- The digits of a fraction come after a point. -/
theorem fractionDigits_cases (rest : List Char) :
    (∃ tail, rest = '.' :: tail ∧ fractionDigits rest = tail.takeWhile Char.isDigit) ∨
      (∀ tail, rest ≠ '.' :: tail) ∧ fractionDigits rest = [] := by
  rw [fractionDigits.eq_def]
  split
  · next tail => exact .inl ⟨tail, rfl, rfl⟩
  · next hpoint => exact .inr ⟨hpoint, rfl⟩

/-- The digits of a fraction are shorter than the fraction with its point. -/
theorem length_fractionDigits_lt {rest : List Char}
    (hne : (fractionDigits rest).isEmpty = false) :
    (fractionDigits rest).length < rest.length := by
  rcases fractionDigits_cases rest with ⟨tail, rfl, hdigits⟩ | ⟨-, hnil⟩
  · rw [hdigits]
    exact Nat.lt_succ_of_le (List.takeWhile_prefix _).length_le
  · rw [hnil] at hne
    cases hne

namespace EndsTokens

variable {after : List Char} (h : EndsTokens after)

include h

/-- What is false of the two characters is false of the first character. -/
theorem head_eq_false {p : Char → Bool} (hblank : p ' ' = false) (hclose : p ')' = false) :
    ∀ c ∈ after.head?, p c = false := by
  intro c hc
  rcases h c hc with rfl | rfl
  · exact hblank
  · exact hclose

/-- The digits of a fraction do not depend on what is behind them. -/
theorem fractionDigits_append (rest : List Char) :
    fractionDigits (rest ++ after) = fractionDigits rest := by
  cases rest with
  | nil =>
      cases after with
      | nil => rfl
      | cons c after =>
          rcases h c rfl with rfl | rfl <;> rfl
  | cons c tail =>
      rw [List.cons_append]
      by_cases hc : c = '.'
      · rw [hc]
        exact takeWhile_append_of_head (h.head_eq_false rfl rfl) tail
      · rw [fractionDigits, fractionDigits]
        · rintro _ ⟨⟩
          exact hc rfl
        · rintro _ ⟨⟩
          exact hc rfl

/-- A sign does not depend on what is behind the text. -/
theorem takeSign_append (rest : List Char) :
    Decimal.takeSign (rest ++ after) =
      ((Decimal.takeSign rest).1, (Decimal.takeSign rest).2 ++ after) := by
  cases rest with
  | nil =>
      cases after with
      | nil => rfl
      | cons c after =>
          rcases h c rfl with rfl | rfl <;> rfl
  | cons c tail =>
      rw [List.cons_append, Decimal.takeSign.eq_def, Decimal.takeSign.eq_def (c :: tail)]
      split <;> simp_all

/-- An exponent does not depend on what is behind it. -/
theorem takeExponent?_append (rest : List Char) :
    takeExponent? (rest ++ after) = (takeExponent? rest).map fun (n, tail) =>
      (n, tail ++ after) := by
  cases rest with
  | nil =>
      cases after with
      | nil => rfl
      | cons c after =>
          rcases h c rfl with rfl | rfl <;> rfl
  | cons c tail =>
      have hdigit := h.head_eq_false (p := Char.isDigit) rfl rfl
      rw [List.cons_append, takeExponent?, takeExponent?, h.takeSign_append]
      simp only [takeWhile_append_of_head hdigit, dropWhile_append_of_head hdigit]
      split
      · split <;> rfl
      · rfl

/-- A legal number does not depend on what is behind it. -/
theorem takeNumber_append {whole rest : List Char}
    (hlegal : (takeNumber whole rest).1 ≠ illegal) :
    takeNumber whole (rest ++ after) =
      ((takeNumber whole rest).1, (takeNumber whole rest).2 ++ after) := by
  have hword := h.head_eq_false (p := isWordChar) rfl rfl
  rw [takeNumber] at hlegal
  rw [takeNumber, takeNumber, h.fractionDigits_append]
  simp only at hlegal ⊢
  cases hempty : (fractionDigits rest).isEmpty with
  | true =>
      rw [hempty, if_pos rfl] at hlegal
      rw [if_pos rfl, if_pos rfl, h.takeExponent?_append]
      cases hexponent : takeExponent? rest with
      | some found => rfl
      | none =>
          rw [hexponent] at hlegal
          simp only [Option.map_none] at hlegal ⊢
          cases hrest : rest.head?.any isWordChar with
          | true =>
              rw [hrest] at hlegal
              exact absurd rfl hlegal
          | false =>
              have happend : (rest ++ after).head?.any isWordChar = false := by
                cases rest with
                | nil =>
                    rw [List.nil_append, Option.any_eq_false]
                    exact hword
                | cons c rest => exact hrest
              rw [happend]
              rfl
  | false =>
      have hlength : (fractionDigits rest).length + 1 ≤ rest.length :=
        length_fractionDigits_lt hempty
      rw [if_neg (by decide), if_neg (by decide), List.drop_append_of_le_length hlength,
        h.takeExponent?_append]
      cases takeExponent? (rest.drop ((fractionDigits rest).length + 1)) <;> rfl

/-- A symbol without blanks and closing brackets does not depend on what is behind it. -/
theorem takeChars?_append {symbol : List Char} (hsymbol : ∀ c ∈ symbol, c ≠ ' ' ∧ c ≠ ')')
    (rest : List Char) :
    takeChars? symbol (rest ++ after) = (takeChars? symbol rest).map (· ++ after) := by
  induction symbol generalizing rest with
  | nil => rfl
  | cons s symbol ih =>
      obtain ⟨hs, hsymbol⟩ := List.forall_mem_cons.1 hsymbol
      cases rest with
      | nil =>
          cases after with
          | nil => rfl
          | cons c after =>
              rw [List.nil_append, takeChars?, if_neg]
              · rfl
              · rintro rfl
                rcases h s rfl with rfl | rfl
                · exact hs.1 rfl
                · exact hs.2 rfl
      | cons c rest =>
          rw [List.cons_append, takeChars?, takeChars?]
          split
          · exact ih hsymbol rest
          · rfl

/-- Only the first character of a symbol may be a bracket. -/
theorem takeSymbol?_append (c : Char) (rest : List Char) :
    takeSymbol? (c :: (rest ++ after)) =
      (takeSymbol? (c :: rest)).map fun (token, tail) => (token, tail ++ after) := by
  have htail : symbols.all
      (fun s => s.1.tail.all fun c => c != ' ' && c != ')') = true := by
    decide
  rw [takeSymbol?, takeSymbol?, List.map_findSome?]
  refine findSome?_congr fun ⟨symbol, token⟩ hmem => ?_
  cases symbol with
  | nil => rfl
  | cons s symbol =>
      simp only [takeChars?, Function.comp_apply, Option.map_map]
      split
      · have hsymbol : ∀ c ∈ symbol, c ≠ ' ' ∧ c ≠ ')' := by
          simpa using List.all_eq_true.1 htail _ hmem
        rw [h.takeChars?_append hsymbol, Option.map_map]
        rfl
      · rfl

/-- A token does not change when a blank or a closing bracket follows. -/
theorem take_append {c : Char} {rest : List Char} (hlegal : (take c rest).1 ≠ illegal) :
    take c (rest ++ after) = ((take c rest).1, (take c rest).2 ++ after) := by
  have hdigit := h.head_eq_false (p := Char.isDigit) rfl rfl
  have hword := h.head_eq_false (p := isWordChar) rfl rfl
  rw [take] at hlegal ⊢
  rw [take]
  split
  · next hc =>
    rw [if_pos hc] at hlegal
    rw [takeWhile_append_of_head hdigit, dropWhile_append_of_head hdigit,
      h.takeNumber_append hlegal]
  · next hc =>
    rw [if_neg hc] at hlegal
    split
    · rw [takeWhile_append_of_head hword, dropWhile_append_of_head hword]
    · next hstart =>
      rw [if_neg hstart] at hlegal
      split
      · next hquote =>
        rw [if_pos hquote] at hlegal
        cases htext : takeText? c rest with
        | none =>
            rw [htext] at hlegal
            exact absurd rfl hlegal
        | some found =>
            have hmark : c ≠ '\\' := by
              rintro rfl
              exact absurd hquote (by decide)
            rw [takeText?_append hmark htext]
      · next hquote =>
        rw [if_neg hquote] at hlegal
        split
        · next hback =>
          rw [if_pos hback] at hlegal
          cases hname : takeQuotedName? rest with
          | none =>
              rw [hname] at hlegal
              exact absurd rfl hlegal
          | some found => rw [takeQuotedName?_append hname]
        · next hback =>
          rw [if_neg hback] at hlegal
          rw [h.takeSymbol?_append]
          cases hsymbol : takeSymbol? (c :: rest) with
          | none =>
              rw [hsymbol] at hlegal
              exact absurd rfl hlegal
          | some found => rfl

end EndsTokens

/-! ### The tokens of a text -/

variable {cs rest : List Char} {c : Char}

/-- A text of blanks has no tokens. -/
theorem ofText_eq_nil (h : cs.dropWhile isSpace = []) : ofText cs = [] := by
  rw [ofText, lexemes]
  split
  · rfl
  · next heq =>
    rw [h] at heq
    cases heq

/-- The first token starts at the first character that is no blank. -/
theorem ofText_eq_cons (h : cs.dropWhile isSpace = c :: rest) :
    ofText cs = (take c rest).1 :: ofText (take c rest).2 := by
  rw [ofText, lexemes]
  split
  · next heq =>
    rw [h] at heq
    cases heq
  · next heq =>
    rw [h] at heq
    cases heq
    rfl

/-- The blanks at the front of a text make no difference. -/
theorem ofText_dropWhile (cs : List Char) : ofText (cs.dropWhile isSpace) = ofText cs := by
  cases h : cs.dropWhile isSpace with
  | nil => rw [ofText_eq_nil h, ofText_eq_nil rfl]
  | cons c rest =>
      rw [ofText_eq_cons h]
      refine ofText_eq_cons ?_
      rw [← h, List.dropWhile_idempotent]

/-- The tokens of a text do not change when a blank or a closing bracket follows. -/
theorem ofText_append {cs after : List Char} (hafter : EndsTokens after)
    (h : illegal ∉ ofText cs) :
    ofText (cs ++ after) = ofText cs ++ ofText after := by
  cases hdrop : cs.dropWhile isSpace with
  | nil =>
      rw [ofText_eq_nil hdrop, List.nil_append, ← ofText_dropWhile (cs ++ after),
        List.dropWhile_append, hdrop, List.isEmpty_nil, if_pos rfl, ofText_dropWhile]
  | cons c rest =>
      have hdrop' : (cs ++ after).dropWhile isSpace = c :: (rest ++ after) := by
        rw [List.dropWhile_append, hdrop]
        rfl
      have hshorter : (take c rest).2.length < cs.length := by
        have hcs := length_dropWhile_le isSpace cs
        rw [hdrop, List.length_cons] at hcs
        exact Nat.lt_of_le_of_lt (length_take_le c rest) hcs
      rw [ofText_eq_cons hdrop] at h
      obtain ⟨hfirst, hrest⟩ := not_or.1 (mt List.mem_cons.2 h)
      rw [ofText_eq_cons hdrop, ofText_eq_cons hdrop', hafter.take_append (Ne.symm hfirst),
        ofText_append hafter hrest, List.cons_append]
termination_by cs.length

/-- A blank is no token. -/
theorem ofText_space (cs : List Char) : ofText (' ' :: cs) = ofText cs := by
  rw [← ofText_dropWhile (' ' :: cs), ← ofText_dropWhile cs]
  rfl

/-- A token at the front of a text is its first one. -/
theorem ofText_of_take {t : Token} {tail : List Char} (hspace : isSpace c = false)
    (htake : take c rest = (t, tail)) : ofText (c :: rest) = t :: ofText tail := by
  rw [ofText_eq_cons (List.dropWhile_cons_of_neg (by rw [hspace]; decide)), htake]

/-! ### Blank texts -/

/-- The codes of blanks are outside the range of visible ASCII characters. -/
theorem toNat_of_isBlank (h : Text.isBlank c = true) : c.toNat ≤ 32 ∨ 126 < c.toNat := by
  simp only [Text.isBlank, Bool.or_eq_true, Bool.and_eq_true, decide_eq_true_eq, beq_iff_eq]
    at h
  omega

/-- Digits are visible characters. -/
theorem toNat_of_isDigit (h : c.isDigit = true) : 32 < c.toNat ∧ c.toNat ≤ 126 := by
  rw [Char.isDigit, Bool.and_eq_true, decide_eq_true_eq, decide_eq_true_eq] at h
  have hlow : 48 ≤ c.toNat := h.1
  have hhigh : c.toNat ≤ 57 := h.2
  omega

/-- The letters are those of ASCII. -/
theorem toNat_of_isAlpha (h : c.isAlpha = true) :
    65 ≤ c.toNat ∧ c.toNat ≤ 90 ∨ 97 ≤ c.toNat ∧ c.toNat ≤ 122 := by
  rcases Bool.or_eq_true_iff.1 h with hupper | hlower
  · exact .inl (of_decide_eq_true hupper)
  · obtain ⟨hlow, hhigh⟩ := Bool.and_eq_true_iff.1 hlower
    exact .inr ⟨of_decide_eq_true hlow, of_decide_eq_true hhigh⟩

/-- What words start with are visible characters. -/
theorem toNat_of_isWordStart (h : isWordStart c = true) : 32 < c.toNat ∧ c.toNat ≤ 126 := by
  rw [isWordStart, Bool.or_eq_true, decide_eq_true_eq] at h
  rcases h with h | rfl
  · have hletter := toNat_of_isAlpha h
    omega
  · decide

/-- No token starts with a blank. -/
theorem take_of_isBlank (h : Text.isBlank c = true) (rest : List Char) :
    take c rest = (illegal, []) := by
  have hcode := toNat_of_isBlank h
  have hdigit : c.isDigit = false := by
    by_contra hc
    have := toNat_of_isDigit (Bool.not_eq_false _ ▸ hc)
    omega
  have hword : isWordStart c = false := by
    by_contra hc
    have := toNat_of_isWordStart (Bool.not_eq_false _ ▸ hc)
    omega
  have hne (d : Char) (hd : 32 < d.toNat ∧ d.toNat ≤ 126) : c ≠ d := by
    rintro rfl
    omega
  have hstart : symbols.all
      (fun s => s.1.head?.any fun d => 32 < d.toNat && d.toNat ≤ 126) = true := by
    decide
  have hsymbol : takeSymbol? (c :: rest) = none := by
    rw [takeSymbol?, List.findSome?_eq_none_iff]
    rintro ⟨symbol, token⟩ hmem
    have hhead := List.all_eq_true.1 hstart _ hmem
    cases symbol with
    | nil => cases hhead
    | cons s symbol =>
        have hcode : 32 < s.toNat ∧ s.toNat ≤ 126 := by simpa using hhead
        simp only [takeChars?, if_neg (hne _ hcode).symm, Option.map_none]
  rw [take, hdigit, hword, hsymbol]
  simp [hne]

/-- A text of blanks has no tokens, or an illegal one. -/
theorem ofText_of_isBlank (h : ∀ c ∈ cs, Text.isBlank c = true) :
    ofText cs = [] ∨ illegal ∈ ofText cs := by
  cases hdrop : cs.dropWhile isSpace with
  | nil => exact .inl (ofText_eq_nil hdrop)
  | cons c rest =>
      have hmem : c ∈ cs := (List.dropWhile_suffix _).subset (hdrop ▸ List.mem_cons_self)
      rw [ofText_eq_cons hdrop, take_of_isBlank (h c hmem)]
      exact .inr List.mem_cons_self

/-! ### Brackets -/

/-- An opening bracket is a token of its own. -/
theorem ofText_openBracket (cs : List Char) :
    ofText ('(' :: cs) = openBracket :: ofText cs :=
  ofText_of_take rfl rfl

/-- A closing bracket is a token of its own. -/
theorem ofText_closeBracket (cs : List Char) :
    ofText (')' :: cs) = closeBracket :: ofText cs :=
  ofText_of_take rfl rfl

end Token

end FormulaTable

import FormulaTable.Proofs.Formula.Nesting
import FormulaTable.Proofs.Formula.Terminals

/-!
# The scan goes from token to token

The scan of a text's nesting knows nothing of tokens. It still agrees with the reader about
where quoted texts and names end, that `??` is one symbol, and which brackets and commas
stand outside of quotes: a token changes the levels by what it is alone, and the scan goes
on right behind it.

* `Levels.afterToken` — what a token opens and closes.
* `Accepted.next` — the scan of a text is the scan of its first token and of what is behind
  it.
-/

namespace FormulaTable.Nesting

open Token (isSpace isWordChar isWordStart take takeText? takeQuotedName? takeExponent?
    takeNumber takeSymbol?
  takeChars? symbols fractionDigits)
open Matching (Next)

/-- The levels after a token. -/
def Levels.afterToken (l : Levels) : Token → Levels
  | .openBracket => l.openBracket
  | .question => l.openTernary
  | .closeBracket => l.closeBracket
  | .comma => l.comma
  | _ => l

variable {limit : Nat} {l : Levels} {c : Char} {cs rest tail : List Char} {t : Token}

/-- The scan has not exceeded the limit, and accepts the text that is left. -/
def Accepted (limit : Nat) (l : Levels) (cs : List Char) : Prop :=
  l.depth ≤ limit ∧ scan limit .plain l cs = true

/-! ### Characters that open and close nothing -/

/-- The characters that quote, or open or close something. -/
def active : List Char := ['\'', '"', '\x60', '(', '?', ')', ',']

/-- Does the character neither open nor close anything, nor quote? -/
def isInert (c : Char) : Bool := !active.contains c

/-- Whatever is true of a character and of none of the others tells it from them. -/
theorem isInert_of {p : Char → Bool} (hp : active.any p = false)
    (hc : p c = true) : isInert c = true := by
  rw [isInert, Bool.not_eq_true', ← Bool.not_eq_true]
  intro hmem
  rw [List.any_eq_true.2 ⟨c, List.contains_iff_mem.1 hmem, hc⟩] at hp
  cases hp

/-- The scan passes over a character that neither opens nor closes anything. -/
theorem scan_inert_cons (hc : isInert c = true) :
    scan limit .plain l (c :: rest) = true ↔ scan limit .plain l rest = true := by
  simp only [isInert, active, Bool.not_eq_true', List.contains_cons, List.contains_nil,
    Bool.or_eq_false_iff, beq_eq_false_iff_ne] at hc
  obtain ⟨hsingle, hdouble, hback, hopen, hquestion, hclose, hcomma, -⟩ := hc
  have hquote : isQuote c = false := by simp [isQuote, hsingle, hdouble, hback]
  rw [scan_cons fun _ h => absurd h hquestion,
    l.after_eq_self hopen hquestion hclose hcomma, modeAfter, hquote]
  exact and_iff_right fun h => absurd h (Nat.lt_irrefl _)

/-- The scan passes over characters that neither open nor close anything. -/
theorem scan_inert {front : List Char} (hfront : ∀ c ∈ front, isInert c = true) :
    scan limit .plain l (front ++ rest) = true ↔ scan limit .plain l rest = true := by
  induction front with
  | nil => exact .rfl
  | cons c front ih =>
      obtain ⟨hc, hfront⟩ := List.forall_mem_cons.1 hfront
      rw [List.cons_append, scan_inert_cons hc, ih hfront]

/-- The scan passes over a prefix of such characters. -/
theorem scan_dropWhile {p : Char → Bool} (hp : active.any p = false) (cs : List Char) :
    scan limit .plain l cs = true ↔ scan limit .plain l (cs.dropWhile p) = true := by
  conv_lhs => rw [← List.takeWhile_append_dropWhile (p := p) (l := cs)]
  exact scan_inert fun c hc => isInert_of hp (List.mem_takeWhile_imp hc)

/-! ### Numbers and quotes -/

/-- The scan passes over a sign. -/
theorem scan_takeSign (cs : List Char) :
    scan limit .plain l cs = true ↔ scan limit .plain l (Decimal.takeSign cs).2 = true := by
  rw [Decimal.takeSign.eq_def]
  split
  · exact scan_inert_cons rfl
  · exact scan_inert_cons rfl
  · exact .rfl

/-- The scan passes over an exponent. -/
theorem scan_takeExponent? {n : Int} (h : takeExponent? cs = some (n, tail)) :
    scan limit .plain l cs = true ↔ scan limit .plain l tail = true := by
  cases cs with
  | nil => cases h
  | cons c rest =>
      simp only [takeExponent?] at h
      split at h
      · next hc =>
        split at h
        · cases h
        · cases h
          rw [scan_inert_cons (isInert_of (p := fun c => c = 'e' || c = 'E') rfl hc),
            scan_takeSign, scan_dropWhile (p := Char.isDigit) rfl]
      · cases h

/-- The scan passes over a fraction. -/
theorem scan_fractionDigits (h : (fractionDigits cs).isEmpty = false) :
    scan limit .plain l cs = true ↔
      scan limit .plain l (cs.drop ((fractionDigits cs).length + 1)) = true := by
  rcases Token.fractionDigits_cases cs with ⟨tail, rfl, hdigits⟩ | ⟨-, hnil⟩
  · rw [hdigits, List.drop_succ_cons, drop_length_takeWhile, scan_inert_cons rfl,
      scan_dropWhile (p := Char.isDigit) rfl]
  · rw [hnil] at h
    cases h

/-- The scan passes over a number. -/
theorem scan_takeNumber (whole : List Char) (h : scan limit .plain l cs = true) :
    scan limit .plain l (takeNumber whole cs).2 = true := by
  rw [takeNumber]
  simp only
  split
  · split
    · next hexponent => exact (scan_takeExponent? hexponent).1 h
    · split
      · rw [scan]
      · exact h
  · next hfraction =>
    rw [scan_fractionDigits (by simpa using hfraction)] at h
    split
    · next hexponent => exact (scan_takeExponent? hexponent).1 h
    · exact h

/-- A text ends for the scan where it ends for the reader. -/
theorem scan_takeText? {mark : Char} (hslash : mark ≠ '\\') (hback : mark ≠ '\x60')
    {body : List Char} (h : takeText? mark cs = some (body, tail)) :
    scan limit (.quoted mark) l cs = scan limit .plain l tail := by
  fun_induction takeText? mark cs generalizing body with
  | case1 => cases h
  | case2 c rest ih =>
      obtain ⟨⟨b, t⟩, hb, heq⟩ := Option.map_eq_some_iff.1 h
      cases heq
      have hescape : insideQuotes mark '\\' = .escaped mark := by simp [insideQuotes, hback]
      rw [scan, hescape, scan, ih hb]
  | case3 rest _ =>
      cases h
      have hends : insideQuotes mark mark = .plain := by simp [insideQuotes, hslash]
      rw [scan, hends]
  | case4 => cases h
  | case5 c rest _ hmark hc ih =>
      obtain ⟨⟨b, t⟩, hb, heq⟩ := Option.map_eq_some_iff.1 h
      cases heq
      have hgoes : insideQuotes mark c = .quoted mark := by simp [insideQuotes, hmark, hc]
      rw [scan, hgoes, ih hb]

/-- The scan passes over a quoted name. -/
theorem scan_takeQuotedName? {name : List Char}
    (h : takeQuotedName? cs = some (name, tail)) :
    scan limit (.quoted '\x60') l cs = scan limit .plain l tail := by
  have hends : ∀ cs : List Char, ∀ c tail, cs.dropWhile (· != '\x60') = c :: tail →
      scan limit (.quoted '\x60') l cs = scan limit .plain l tail := by
    intro cs c tail hdrop
    induction cs with
    | nil => cases hdrop
    | cons d cs ih =>
        by_cases hd : d = '\x60'
        · subst hd
          cases hdrop
          rfl
        · rw [List.dropWhile_cons_of_pos (by simp [hd])] at hdrop
          have hgoes : insideQuotes '\x60' d = .quoted '\x60' := by simp [insideQuotes, hd]
          rw [scan, hgoes, ih hdrop]
  rw [takeQuotedName?] at h
  split at h
  · next hdrop =>
    split at h
    · cases h
    · cases h
      exact hends _ _ _ hdrop
  · cases h

/-! ### Tokens -/

/-- The tokens that open or close something. -/
def turns : List Token := [.openBracket, .question, .closeBracket, .comma]

/-- A token that neither opens nor closes anything leaves the levels as they are. -/
theorem Levels.afterToken_eq_self (h : t ∉ turns) : l.afterToken t = l := by
  cases t with
  | openBracket | question | closeBracket | comma => exact absurd (by decide) h
  | literal _ | word _ | quotedName _ | operator _ | not | colon | illegal => rfl

/-- A word neither opens nor closes anything. -/
theorem ofWord_notMem_turns (name : String) : Token.ofWord name ∉ turns := by
  rw [Token.ofWord]
  split <;> simp [turns]

/-- The symbols that are not made of inert characters: those of the tokens that open or
close something, and two question marks. -/
theorem mem_symbols {s : List Char × Token} (hs : s ∈ symbols) :
    s.1.all isInert = true ∧ s.2 ∉ turns ∨
      s ∈ [(['?', '?'], Token.operator .coalesce), (['?'], .question),
        (['('], .openBracket), ([')'], .closeBracket), ([','], .comma)] := by
  revert s
  decide

/-- A character outside quoted sections may open a level if there is room. -/
theorem Accepted.after (h : Accepted limit l (c :: rest))
    (hpair : ∀ tail, c = '?' → rest = '?' :: tail → False) (hquote : isQuote c = false) :
    Accepted limit (l.after c) rest := by
  obtain ⟨hdepth, hscan⟩ := h
  obtain ⟨hopens, hscan⟩ := (scan_cons hpair).1 hscan
  rw [modeAfter, hquote] at hscan
  refine ⟨?_, hscan⟩
  rcases Nat.lt_or_ge l.depth (l.after c).depth with hlt | hge
  · exact hopens hlt
  · exact Nat.le_trans hge hdepth

/-- The scan accepts what is behind a symbol. -/
theorem Accepted.symbol (h : Accepted limit l cs)
    (htake : takeSymbol? cs = some (t, tail)) :
    Accepted limit (l.afterToken t) tail := by
  obtain ⟨⟨symbol, t'⟩, hmem, hfound⟩ := List.exists_of_findSome?_eq_some htake
  obtain ⟨tail', hchars, heq⟩ := Option.map_eq_some_iff.1 hfound
  cases heq
  obtain rfl := Token.append_of_takeChars? hchars
  rcases mem_symbols hmem with ⟨hinert, hturn⟩ | hmem
  · rw [Levels.afterToken_eq_self hturn]
    exact ⟨h.1, (scan_inert (List.all_eq_true.1 hinert)).1 h.2⟩
  -- A single question mark opens a ternary: before another one it would have been read with
  -- it.
  have hsingle : symbol = ['?'] → ∀ more, tail ≠ '?' :: more := by
    rintro rfl more rfl
    cases htake
  simp only [List.mem_cons, Prod.mk.injEq, List.not_mem_nil, or_false] at hmem
  rcases hmem with ⟨rfl, rfl⟩ | ⟨rfl, rfl⟩ | ⟨rfl, rfl⟩ | ⟨rfl, rfl⟩ | ⟨rfl, rfl⟩
  · exact h
  · exact h.after (fun more _ heq => hsingle rfl more heq) rfl
  · exact h.after (fun _ hc => nomatch hc) rfl
  · exact h.after (fun _ hc => nomatch hc) rfl
  · exact h.after (fun _ hc => nomatch hc) rfl

/-- The scan accepts the end of the text. -/
theorem accepted_nil (hl : l.depth ≤ limit) : Accepted limit l [] := ⟨hl, by rw [scan]⟩

/-- The scan accepts what is behind a number. -/
theorem Accepted.number (h : Accepted limit l cs) (whole : List Char) :
    Accepted limit (l.afterToken (takeNumber whole cs).1) (takeNumber whole cs).2 := by
  have hsame : l.afterToken (takeNumber whole cs).1 = l := by
    rcases Matching.Terminal.takeNumber_fst whole cs with
      hnumber | ⟨_, hnumber⟩ <;> (rw [hnumber]; rfl)
  rw [hsame]
  exact ⟨h.1, scan_takeNumber whole h.2⟩

/-- A quote opens and closes nothing; the scan goes on inside the quotes. -/
theorem scan_quote (hc : isQuote c = true) (h : scan limit .plain l (c :: rest) = true) :
    scan limit (.quoted c) l rest = true := by
  have hquestion : c ≠ '?' := by
    rintro rfl
    cases hc
  have hscan := ((scan_cons fun _ hc => absurd hc hquestion).1 h).2
  rwa [l.after_of_isQuote hc, modeAfter, if_pos hc] at hscan

/-- The scan accepts what is behind a token. -/
theorem Accepted.take (h : Accepted limit l (c :: rest)) :
    Accepted limit (l.afterToken (take c rest).1) (take c rest).2 := by
  rw [Token.take]
  split
  · next hdigit =>
    refine Accepted.number ⟨h.1, ?_⟩ _
    rw [← scan_dropWhile (p := Char.isDigit) rfl]
    exact (scan_inert_cons (isInert_of (p := Char.isDigit) rfl hdigit)).1 h.2
  split
  · next hword =>
    rw [Levels.afterToken_eq_self (ofWord_notMem_turns _)]
    refine ⟨h.1, ?_⟩
    rw [← scan_dropWhile (p := isWordChar) rfl]
    exact (scan_inert_cons (isInert_of (p := isWordStart) rfl hword)).1 h.2
  split
  · next hquote =>
    have hc : c = '"' ∨ c = '\'' := by simpa using hquote
    split
    · next htext =>
      refine ⟨h.1, ?_⟩
      rw [Levels.afterToken_eq_self (by simp [turns]), ← scan_takeText? _ _ htext]
      · exact scan_quote (by rcases hc with rfl | rfl <;> rfl) h.2
      · rcases hc with rfl | rfl <;> decide
      · rcases hc with rfl | rfl <;> decide
    · exact accepted_nil h.1
  split
  · next hc =>
    subst hc
    split
    · next hname =>
      refine ⟨h.1, ?_⟩
      rw [Levels.afterToken_eq_self (by simp [turns]), ← scan_takeQuotedName? hname]
      exact scan_quote rfl h.2
    · exact accepted_nil h.1
  · split
    · next hsymbol => exact h.symbol hsymbol
    · exact accepted_nil h.1

/-- **The scan goes from token to token.** -/
theorem Accepted.next (h : Accepted limit l cs) (hnext : Next cs t rest) :
    Accepted limit (l.afterToken t) rest := by
  obtain ⟨c, tail, hdrop, htake⟩ := hnext
  have hc : Accepted limit l (c :: tail) := by
    rw [← hdrop]
    exact ⟨h.1, (scan_dropWhile (p := isSpace) (by decide) cs).1 h.2⟩
  have hnext := hc.take
  rwa [htake] at hnext

end FormulaTable.Nesting

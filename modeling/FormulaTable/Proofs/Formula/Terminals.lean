import FormulaTable.Formula.Matching
import FormulaTable.Proofs.Formula.Spelling

/-!
# Terminals read tokens

The rules of the grammar read characters, and the running reader reads tokens. Every
terminal matches a text exactly when the first token of the text is one that the terminal
stands for, and reads just that token.

* `Terminal.ofToken` — a terminal by the tokens that it stands for.
* `literal_eq`, `identifier_eq`, … — one equation for each terminal.
-/

namespace FormulaTable.Matching.Terminal

open Token (take takeSymbol? takeChars? takeText? takeQuotedName? takeExponent? takeNumber
    symbols isWordChar
  isWordStart fractionDigits ofWord)

variable {α : Type} {c : Char} {rest text : List Char}

/-- The terminal that reads one token, if something is made of it. -/
def ofToken (want : Token → Option α) : Terminal α
  | [] => none
  | c :: rest => (want (take c rest).1).map fun a => (a, (take c rest).2)

/-! ### Symbols -/

/-- A symbol is not matched where its characters do not stand. -/
theorem symbol_eq_none (h : takeChars? cs text = none) (a : α) :
    symbol cs a text = none := by
  rw [symbol, h]
  rfl

/-- The wanted symbols of a table find what the first symbol of the whole table stands for,
unless they are the beginning of another one that the text starts with. -/
theorem findSome?_table {want : Token → Option α} {table : List (List Char × Token)}
    (hordered : table.Pairwise fun s s' => ¬ s.1 <+: s'.1)
    (hclosed : ∀ s ∈ table, ∀ s' ∈ table, (want s.2).isSome → want s'.2 = none →
        s.1 <+: s'.1 → takeChars? s'.1 text = none) :
    (table.filterMap fun s => (want s.2).map (s.1, ·)).findSome?
      (fun s => symbol s.1 s.2 text) =
      (table.findSome? fun s => (takeChars? s.1 text).map (s.2, ·)).bind fun found =>
        (want found.1).map (·, found.2) := by
  induction table with
  | nil => rfl
  | cons s table ih =>
      obtain ⟨hs, hordered⟩ := List.pairwise_cons.1 hordered
      have ih := ih hordered fun s hs s' hs' =>
        hclosed s (List.mem_cons_of_mem _ hs) s' (List.mem_cons_of_mem _ hs')
      rw [List.filterMap_cons, List.findSome?_cons]
      cases htake : takeChars? s.1 text with
      | none =>
          rw [Option.map_none]
          cases hwant : want s.2 with
          | none => exact ih
          | some a =>
              rw [Option.map_some]
              simp only
              rw [List.findSome?_cons, symbol_eq_none htake]
              exact ih
      | some tail =>
          cases hwant : want s.2 with
          | some a =>
              rw [Option.map_some]
              simp only
              rw [List.findSome?_cons, symbol, htake]
              simp [hwant]
          | none =>
              simp only [Option.map_none, Option.map_some, Option.bind_some, hwant]
              -- A later symbol that the text begins with would begin this one, or this one
              -- would begin it.
              rw [List.findSome?_eq_none_iff]
              rintro ⟨cs, a⟩ hmem
              obtain ⟨s', hs', hmap⟩ := List.mem_filterMap.1 hmem
              obtain ⟨a', ha', heq⟩ := Option.map_eq_some_iff.1 hmap
              cases heq
              refine symbol_eq_none ?_ a
              by_contra hfound
              obtain ⟨tail', htail'⟩ := Option.ne_none_iff_exists'.1 hfound
              have hprefix : s.1 <+: text := ⟨tail, Token.append_of_takeChars? htake⟩
              have hprefix' : s'.1 <+: text := ⟨tail', Token.append_of_takeChars? htail'⟩
              rcases List.prefix_or_prefix_of_prefix hprefix hprefix' with h | h
              · exact hs s' hs' h
              · have hnone := hclosed s' (List.mem_cons_of_mem _ hs') s List.mem_cons_self
                  (by rw [ha']; rfl)
                  hwant h
                rw [htake] at hnone
                cases hnone

/-- The terminal reads the symbols that something is made of. -/
def ReadsSymbols (p : Terminal α) (want : Token → Option α) : Prop :=
  ∀ text, p text = (takeSymbol? text).bind fun found => (want found.1).map (·, found.2)

/-- A table of the wanted symbols, none of which is the beginning of another symbol. -/
theorem readsSymbols_table {want : Token → Option α} (table : List (List Char × α))
    (htable : table = symbols.filterMap fun s => (want s.2).map (s.1, ·))
    (hclosed : ∀ s ∈ symbols, ∀ s' ∈ symbols, (want s.2).isSome → want s'.2 = none →
        ¬ s.1 <+: s'.1) :
    ReadsSymbols (firstOf (table.map fun s => symbol s.1 s.2)) want := by
  intro text
  rw [firstOf, List.findSome?_map, htable]
  refine findSome?_table (by decide) fun s hs s' hs' hwant hnone hprefix => ?_
  exact absurd hprefix (hclosed s hs s' hs' hwant hnone)

/-- A choice of one terminal is the terminal. -/
theorem firstOf_singleton (p : Terminal α) : firstOf [p] = p := by
  funext text
  rw [firstOf, List.findSome?_cons, List.findSome?_nil]
  cases p text <;> rfl

/-- One wanted symbol, which is no beginning of another symbol. -/
theorem readsSymbols_symbol {want : Token → Option α} {cs : List Char} {a : α}
    (htable : [(cs, a)] = symbols.filterMap fun s => (want s.2).map (s.1, ·))
    (hclosed : ∀ s ∈ symbols, ∀ s' ∈ symbols, (want s.2).isSome → want s'.2 = none →
        ¬ s.1 <+: s'.1) :
    ReadsSymbols (symbol cs a) want := by
  rw [← firstOf_singleton (symbol cs a)]
  exact readsSymbols_table [(cs, a)] htable hclosed

/-- One wanted symbol, which is the beginning of one other symbol. -/
theorem readsSymbols_symbolUnless {want : Token → Option α} {longer cs : List Char} {a : α}
    (htable : [(cs, a)] = symbols.filterMap fun s => (want s.2).map (s.1, ·))
    (hclosed : ∀ s ∈ symbols, ∀ s' ∈ symbols, (want s.2).isSome → want s'.2 = none →
        s.1 <+: s'.1 → s'.1 = longer)
    (hlonger : ∀ tail, ∃ t, takeSymbol? (longer ++ tail) = some (t, tail) ∧ want t = none) :
    ReadsSymbols (symbolUnless longer cs a) want := by
  intro text
  rw [symbolUnless]
  cases htake : takeChars? longer text with
  | some tail =>
      obtain ⟨t, ht, hwant⟩ := hlonger tail
      rw [← Token.append_of_takeChars? htake, ht, Option.bind_some, hwant]
      rfl
  | none =>
      rw [Option.isSome_none, if_neg (by decide), ← firstOf_singleton (symbol cs a)]
      have hmap : [symbol cs a] = [(cs, a)].map fun s => symbol s.1 s.2 := rfl
      rw [hmap, firstOf, List.findSome?_map, htable]
      refine findSome?_table (by decide) fun s hs s' hs' hwant hnone hprefix => ?_
      rw [hclosed s hs s' hs' hwant hnone hprefix, htake]

/-! ### The first character -/

/-- Does a symbol start with the character? -/
def isSymbolStart (c : Char) : Bool := symbols.any fun s => s.1.head? = some c

/-- A symbol does not start with another character. -/
theorem takeChars?_eq_none {s : Char} (h : s ≠ c) (cs : List Char) :
    takeChars? (s :: cs) (c :: rest) = none := by
  rw [takeChars?, if_neg h]

/-- No symbol starts with any other character. -/
theorem takeSymbol?_eq_none (h : isSymbolStart c = false) (rest : List Char) :
    takeSymbol? (c :: rest) = none := by
  rw [takeSymbol?, List.findSome?_eq_none_iff]
  rintro ⟨cs, t⟩ hmem
  have hhead := List.any_eq_false.1 h _ hmem
  have hne : symbols.all (fun s => s.1 ≠ []) = true := by decide
  cases cs with
  | nil => exact absurd (List.all_eq_true.1 hne _ hmem) (by simp)
  | cons s cs =>
      have hs : s ≠ c := by simpa using hhead
      simp only [takeChars?_eq_none hs, Option.map_none]

/-- Symbols start with neither digits, letters nor quotes. -/
theorem isSymbolStart_spec (h : isSymbolStart c = true) :
    c.isDigit = false ∧ isWordStart c = false ∧ c ≠ '"' ∧ c ≠ '\'' ∧ c ≠ '\x60' := by
  have hall : symbols.all (fun s => s.1.head?.all fun c =>
      !c.isDigit && !isWordStart c && c != '"' && c != '\'' &&
        c != '\x60') = true := by decide
  obtain ⟨s, hs, hc⟩ := List.any_eq_true.1 h
  have hstart := List.all_eq_true.1 hall s hs
  rw [of_decide_eq_true hc] at hstart
  simpa [and_assoc] using hstart

/-- What starts like a symbol is one, or no legal token. -/
theorem take_of_isSymbolStart (h : isSymbolStart c = true) (rest : List Char) :
    take c rest = (takeSymbol? (c :: rest)).getD (.illegal, []) := by
  obtain ⟨hdigit, hword, hdouble, hsingle, hback⟩ := isSymbolStart_spec h
  rw [take, hdigit, if_neg (by decide), hword, if_neg (by decide),
    if_neg (by simp [hdouble, hsingle]), if_neg hback]
  cases takeSymbol? (c :: rest) <;> rfl

/-- What starts like a word is one, as far as it goes. -/
theorem take_of_isWordStart (h : isWordStart c = true) (rest : List Char) :
    take c rest = (ofWord (String.ofList (c :: rest.takeWhile isWordChar)),
        rest.dropWhile isWordChar) := by
  rw [take, Token.isDigit_of_isWordStart h, if_neg (by decide), if_pos h]

/-- What starts with a digit is a number. -/
theorem take_of_isDigit (h : c.isDigit = true) (rest : List Char) :
    take c rest = takeNumber (c :: rest.takeWhile Char.isDigit)
      (rest.dropWhile Char.isDigit) := by
  rw [take, if_pos h]

/-- Symbols are marks. -/
theorem isMark_of_takeSymbol? {t : Token} {tail : List Char}
    (h : takeSymbol? text = some (t, tail)) :
    t.isMark = true := by
  have hmarks : ∀ s ∈ symbols, s.2.isMark = true := by decide
  obtain ⟨s, hs, hfound⟩ := List.exists_of_findSome?_eq_some h
  obtain ⟨tail', -, heq⟩ := Option.map_eq_some_iff.1 hfound
  cases heq
  exact hmarks s hs

/-- What is taken as a number is a constant, or no legal token. -/
theorem takeNumber_fst (whole rest : List Char) :
    (takeNumber whole rest).1 = .illegal ∨ ∃ l, (takeNumber whole rest).1 = .literal l := by
  rw [takeNumber]
  simp only
  split
  · split
    · exact .inr ⟨_, rfl⟩
    · split
      · exact .inl rfl
      · exact .inr ⟨_, rfl⟩
  · split <;> exact .inr ⟨_, rfl⟩

/-- **What kind of token** a character may start. -/
theorem take_fst {P : Token → Prop} (hillegal : P .illegal)
    (hliteral : c.isDigit = true ∨ c = '"' ∨ c = '\'' → ∀ l, P (.literal l))
    (hword : isWordStart c = true → ∀ name, P (ofWord name))
    (hname : c = '\x60' → ∀ name, P (.quotedName name))
    (hmark : isSymbolStart c = true → ∀ t, t.isMark = true → P t) (rest : List Char) :
    P (take c rest).1 := by
  rw [take]
  split
  · next h =>
    rcases takeNumber_fst (c :: rest.takeWhile Char.isDigit) (rest.dropWhile Char.isDigit)
      with hnumber | ⟨l, hnumber⟩
    · rwa [hnumber]
    · rw [hnumber]
      exact hliteral (.inl h) l
  split
  · next h => exact hword h _
  split
  · next h =>
    have hquote : c = '"' ∨ c = '\'' := by simpa using h
    split
    · exact hliteral (.inr hquote) _
    · exact hillegal
  split
  · next h =>
    split
    · exact hname h _
    · exact hillegal
  · split
    · next h =>
      refine hmark ?_ _ (isMark_of_takeSymbol? h)
      by_contra hstart
      rw [takeSymbol?_eq_none (by simpa using hstart)] at h
      cases h
    · exact hillegal

/-- What starts neither like a symbol nor like a word is no mark. -/
theorem isMark_take (hsymbol : isSymbolStart c = false) (hword : isWordStart c = false)
    (rest : List Char) :
    (take c rest).1.isMark = false :=
  take_fst (P := fun t => t.isMark = false) rfl (fun _ _ => rfl)
    (fun h => by rw [hword] at h; cases h)
    (fun _ _ => rfl) (fun h => by rw [hsymbol] at h; cases h) rest

/-- **Terminals that are symbols or words** read the tokens that something is made of. -/
theorem or_eq_ofToken {want : Token → Option α} {marks : Terminal α} (words : Terminal α)
    (hmarks : ReadsSymbols marks want) (hmark : ∀ t, t.isMark = false → want t = none)
    (hwords : ∀ c rest, words (c :: rest) = if isWordStart c then
        (want (ofWord (String.ofList (c :: rest.takeWhile isWordChar)))).map (·,
        rest.dropWhile isWordChar) else none)
    (hnil : words [] = none) :
    (fun text => (marks text).or (words text)) = ofToken want := by
  funext text
  rw [hmarks]
  cases text with
  | nil => rw [hnil]; rfl
  | cons c rest =>
      rw [ofToken, hwords]
      cases hsymbol : isSymbolStart c with
      | true =>
          rw [take_of_isSymbolStart hsymbol, (isSymbolStart_spec hsymbol).2.1,
            if_neg (by decide), Option.or_none]
          cases takeSymbol? (c :: rest) with
          | none =>
              rw [Option.bind_none, Option.getD_none, hmark .illegal rfl, Option.map_none]
          | some found => rfl
      | false =>
          rw [takeSymbol?_eq_none hsymbol, Option.bind_none, Option.none_or]
          split
          · next hword => rw [take_of_isWordStart hword]
          · next hword =>
            rw [hmark _ (isMark_take hsymbol (by simpa using hword) rest), Option.map_none]

/-- Terminals that are symbols, none of which is also a word. -/
theorem ReadsSymbols.eq_ofToken {want : Token → Option α} {marks : Terminal α}
    (hmarks : ReadsSymbols marks want) (hmark : ∀ t, t.isMark = false → want t = none)
    (hwords : ∀ name, want (ofWord name) = none) :
    marks = ofToken want := by
  rw [← or_eq_ofToken (fun _ => none) hmarks hmark
    (fun c rest => by rw [hwords, Option.map_none, ite_self]) rfl]
  funext text
  rw [Option.or_none]

/-! ### Words -/

/-- Names are folded letter by letter. -/
theorem foldName_ofList (cs : List Char) :
    Text.foldName (String.ofList cs) = String.ofList (cs.map Char.toLower) := by
  rw [Text.foldName, ← String.toList_inj, String.toList_map, String.toList_ofList,
    String.toList_ofList]

/-- What a lower-case letter is the lower case of is a letter. -/
theorem isAlpha_of_toLower (h : c.toLower.isLower = true) : c.isAlpha = true := by
  refine Bool.or_eq_true_iff.2 ?_
  by_cases hupper : c.isUpper = true
  · exact .inl hupper
  · have hsame : c.toLower = c := dif_neg fun hrange => hupper (decide_eq_true hrange)
    rw [hsame] at h
    exact .inr h

/-- Letters go on with words. -/
theorem isWordChar_of_isAlpha (h : c.isAlpha = true) : isWordChar c = true := by
  rw [isWordChar, Char.isAlphanum, h]
  rfl

/-- What starts a word also goes on with it. -/
theorem isWordChar_of_isWordStart (h : isWordStart c = true) : isWordChar c = true := by
  rw [isWordStart, Bool.or_eq_true] at h
  rw [isWordChar, Char.isAlphanum, Bool.or_eq_true, Bool.or_eq_true]
  exact h.imp_left .inl

/-- A word in any case is a whole word. -/
theorem word_eq {cs : List Char} (hcs : ∀ s ∈ cs, s.isLower = true) (a : α)
    (text : List Char) :
    word cs a text =
      if (text.takeWhile isWordChar).map Char.toLower = cs then
        some (a, text.dropWhile isWordChar)
      else none := by
  induction cs generalizing text with
  | nil =>
      cases text with
      | nil => rfl
      | cons c rest =>
          cases hc : isWordChar c with
          | true => simp [word, takeFolded?, endsWord, hc]
          | false => simp [word, takeFolded?, endsWord, hc]
  | cons s cs ih =>
      obtain ⟨hs, hcs⟩ := List.forall_mem_cons.1 hcs
      cases text with
      | nil => rfl
      | cons c rest =>
          by_cases hc : c.toLower = s
          · have hword : isWordChar c = true :=
              isWordChar_of_isAlpha (isAlpha_of_toLower (hc ▸ hs))
            have hstep : word (s :: cs) a (c :: rest) = word cs a rest := by
              rw [word, takeFolded?, if_pos hc, word]
            rw [hstep, ih hcs, List.takeWhile_cons_of_pos hword,
              List.dropWhile_cons_of_pos hword, List.map_cons, hc]
            simp only [List.cons.injEq, true_and]
          · have hstep : word (s :: cs) a (c :: rest) = none := by
              rw [word, takeFolded?, if_neg hc]
            rw [hstep, if_neg]
            cases hword : isWordChar c with
            | true =>
                rw [List.takeWhile_cons_of_pos hword, List.map_cons]
                exact fun h => hc (List.cons.inj h).1
            | false =>
                rw [List.takeWhile_cons_of_neg (by simp [hword])]
                exact List.cons_ne_nil _ _ ∘ Eq.symm

/-- A word that starts with a letter is a whole word. -/
theorem word_cons {s : Char} {cs : List Char} (hcs : ∀ s' ∈ s :: cs, s'.isLower = true)
    (a : α) (c : Char) (rest : List Char) :
    word (s :: cs) a (c :: rest) =
      if isWordStart c then
        if (c :: rest.takeWhile isWordChar).map Char.toLower = s :: cs then
          some (a, rest.dropWhile isWordChar)
        else none
      else none := by
  rw [word_eq hcs]
  cases hstart : isWordStart c with
  | true =>
      have hword := isWordChar_of_isWordStart hstart
      rw [List.takeWhile_cons_of_pos hword, List.dropWhile_cons_of_pos hword]
      rfl
  | false =>
      have hs := hcs s List.mem_cons_self
      rw [if_neg (by decide : ¬ false = true), if_neg]
      intro h
      cases hword : isWordChar c with
      | false =>
          rw [List.takeWhile_cons_of_neg (by simp [hword])] at h
          cases h
      | true =>
          rw [List.takeWhile_cons_of_pos hword, List.map_cons] at h
          have halpha := isAlpha_of_toLower ((List.cons.inj h).1 ▸ hs)
          rw [isWordStart, halpha] at hstart
          cases hstart

/-- The words that do not stand for a name, in lower case, and the tokens that they stand
for. -/
def keywordTokens : List (List Char × Token) :=
  [(['a', 'n', 'd'], .operator .and), (['o', 'r'], .operator .or), (['n', 'o', 't'], .not),
    (['t', 'r', 'u', 'e'], .literal (.known (.bool true))),
    (['f', 'a', 'l', 's', 'e'], .literal (.known (.bool false))),
    (['n', 'u', 'l', 'l'], .literal (.known .null))]

/-- The token of a word, looked up by its lower case. -/
theorem ofWord_eq (cs : List Char) :
    ofWord (String.ofList cs) =
      (keywordTokens.lookup (cs.map Char.toLower)).getD (.word (String.ofList cs)) := by
  rw [ofWord, foldName_ofList]
  generalize cs.map Char.toLower = folded
  have hne {key : List Char} (h : ¬ String.ofList folded = String.ofList key) :
      (folded == key) = false := by
    rw [beq_eq_false_iff_ne]
    rintro rfl
    exact h rfl
  split
  all_goals first
    | (next heq => obtain rfl := String.ofList_inj.1 heq; rfl)
    | skip
  next hand hor hnot htrue hfalse hnull =>
    simp only [keywordTokens, List.lookup_cons, hne hand, hne hor, hne hnot, hne htrue,
      hne hfalse, hne hnull]
    rfl

/-- The wanted words of a table find what the word stands for in the whole table. -/
theorem lookup_filterMap {want : Token → Option α} {table : List (List Char × Token)}
    (hnodup : table.Pairwise fun e e' => e.1 ≠ e'.1) (key : List Char) :
    (table.filterMap fun e => (want e.2).map (e.1, ·)).lookup key =
      (table.lookup key).bind want := by
  induction table with
  | nil => rfl
  | cons e table ih =>
      obtain ⟨word, t⟩ := e
      obtain ⟨he, hnodup⟩ := List.pairwise_cons.1 hnodup
      rw [List.filterMap_cons, List.lookup_cons]
      cases hkey : key == word with
      | false =>
          simp only
          rw [← ih hnodup]
          cases want t with
          | none => rfl
          | some a => simp only [Option.map_some, List.lookup_cons, hkey]
      | true =>
          simp only [Option.bind_some]
          cases hwant : want t with
          | some a => simp only [Option.map_some, List.lookup_cons, hkey]
          | none =>
              simp only [Option.map_none]
              rw [List.lookup_eq_none_iff]
              rintro ⟨word', a⟩ hmem
              obtain ⟨e', he', hmap⟩ := List.mem_filterMap.1 hmem
              obtain ⟨a', -, heq⟩ := Option.map_eq_some_iff.1 hmap
              cases heq
              rw [beq_iff_eq.1 hkey, bne_iff_ne]
              exact he e' he'

/-- The words of a table read a whole word that is among them. -/
theorem firstOf_words {table : List (List Char × α)}
    (htable : ∀ e ∈ table, e.1 ≠ [] ∧ ∀ s ∈ e.1, s.isLower = true) (c : Char)
    (rest : List Char) :
    firstOf (table.map fun e => word e.1 e.2) (c :: rest) =
      if isWordStart c then
        (table.lookup ((c :: rest.takeWhile isWordChar).map Char.toLower)).map
          (·, rest.dropWhile isWordChar)
      else none := by
  induction table with
  | nil => exact (ite_self _).symm
  | cons e table ih =>
      obtain ⟨key, a⟩ := e
      obtain ⟨⟨hne, hlower⟩, hothers⟩ := List.forall_mem_cons.1 htable
      obtain ⟨s, key, rfl⟩ := List.exists_cons_of_ne_nil hne
      have ih := ih hothers
      rw [firstOf] at ih ⊢
      rw [List.map_cons, List.findSome?_cons, ih, word_cons hlower, List.lookup_cons]
      cases isWordStart c with
      | false => rfl
      | true =>
          simp only [if_true]
          by_cases hfound : (c :: rest.takeWhile isWordChar).map Char.toLower = s :: key
          · rw [if_pos hfound, beq_iff_eq.2 hfound]
            rfl
          · rw [if_neg hfound, beq_eq_false_iff_ne.2 hfound]

/-- **The words that something is made of** read the tokens of just these words. -/
theorem firstOf_words_of_want {want : Token → Option α} (table : List (List Char × α))
    (htable : table = keywordTokens.filterMap fun e => (want e.2).map (e.1, ·))
    (hname : ∀ name, want (.word name) = none) (c : Char) (rest : List Char) :
    firstOf (table.map fun e => word e.1 e.2) (c :: rest) =
      if isWordStart c then
        (want (ofWord (String.ofList (c :: rest.takeWhile isWordChar)))).map
          (·, rest.dropWhile isWordChar)
      else none := by
  have hwords : ∀ e ∈ keywordTokens, e.1 ≠ [] ∧ e.1.all Char.isLower = true := by decide
  rw [firstOf_words, ofWord_eq, htable, lookup_filterMap (by decide)]
  · cases keywordTokens.lookup ((c :: rest.takeWhile isWordChar).map Char.toLower) with
    | none => rw [Option.getD_none, hname, Option.bind_none]
    | some t => rfl
  · intro e he
    rw [htable] at he
    obtain ⟨e', he', hmap⟩ := List.mem_filterMap.1 he
    obtain ⟨a, -, rfl⟩ := Option.map_eq_some_iff.1 hmap
    exact ⟨(hwords e' he').1, List.all_eq_true.1 (hwords e' he').2⟩

/-! ### The operators -/

/-- A symbol, and a keyword that stands for the same. -/
theorem symbolOrWord_eq_ofToken {want : Token → Option α} {mark : Terminal α}
    {key : List Char} {a : α} (hmarks : ReadsSymbols mark want)
    (hmark : ∀ t, t.isMark = false → want t = none)
    (hkey : [(key, a)] = keywordTokens.filterMap fun e => (want e.2).map (e.1, ·)) :
    firstOf [mark, word key a] = ofToken want := by
  have hword : firstOf ([(key, a)].map fun e => word e.1 e.2) = word key a :=
    firstOf_singleton _
  rw [← or_eq_ofToken (word key a) hmarks hmark]
  · funext text
    rw [firstOf, List.findSome?_cons, List.findSome?_cons, List.findSome?_nil]
    cases mark text <;> cases word key a text <;> rfl
  · intro c rest
    rw [← hword, firstOf_words_of_want [(key, a)] hkey fun name => hmark _ rfl]
  · cases key with
    | nil =>
        have hne : ∀ e ∈ keywordTokens, e.1 ≠ [] := by decide
        obtain ⟨e, he, hmap⟩ :=
          List.mem_filterMap.1 (hkey ▸ List.mem_singleton_self ([], a))
        obtain ⟨a', -, heq⟩ := Option.map_eq_some_iff.1 hmap
        exact absurd (congrArg Prod.fst heq) (hne e he)
    | cons s key => rfl

open Grammar (operatorIn isMultiplicative isAdditive)

/-- What is no mark is no operator. -/
theorem operatorIn_of_isMark {level : BinaryOp → Bool} :
    ∀ t : Token, t.isMark = false → operatorIn level t = none
  | .operator _, h => nomatch h
  | .literal _, _ | .word _, _ | .quotedName _, _ | .not, _ | .question, _ | .colon,
    _ | .comma, _
  | .openBracket, _ | .closeBracket, _ | .illegal, _ => rfl

/-- Words are read as the operators of two levels only. -/
theorem operatorIn_ofWord {level : BinaryOp → Bool} (hand : level .and = false)
    (hor : level .or = false) (name : String) : operatorIn level (ofWord name) = none := by
  rw [ofWord]
  split <;> simp [operatorIn, hand, hor]

/-- The rule for comparison operators takes them as tokens. -/
theorem comparisonOp_eq : comparisonOp = ofToken (operatorIn BinaryOp.isComparison) :=
  have h : ReadsSymbols comparisonOp (operatorIn BinaryOp.isComparison) :=
    readsSymbols_table [(['=', '='], BinaryOp.eq), (['!', '='], BinaryOp.ne),
      (['<', '>'], BinaryOp.ne),
      (['<', '='], BinaryOp.le), (['>', '='], BinaryOp.ge), (['<'], BinaryOp.lt),
      (['>'], BinaryOp.gt), (['='], BinaryOp.eq)] rfl (by decide)
  h.eq_ofToken operatorIn_of_isMark (operatorIn_ofWord rfl rfl)

/-- The rule for `+` and `-` takes them as tokens. -/
theorem additiveOp_eq : additiveOp = ofToken (operatorIn isAdditive) :=
  have h : ReadsSymbols additiveOp (operatorIn isAdditive) :=
    readsSymbols_table [(['+'], BinaryOp.add), (['-'], BinaryOp.sub)] rfl (by decide)
  h.eq_ofToken operatorIn_of_isMark (operatorIn_ofWord rfl rfl)

/-- The rule for `*`, `/` and `%` takes them as tokens. -/
theorem multiplicativeOp_eq : multiplicativeOp = ofToken (operatorIn isMultiplicative) :=
  have h : ReadsSymbols multiplicativeOp (operatorIn isMultiplicative) :=
    readsSymbols_table [(['*'], BinaryOp.mul), (['/'], BinaryOp.div),
      (['%'], BinaryOp.mod)] rfl
      (by decide)
  h.eq_ofToken operatorIn_of_isMark (operatorIn_ofWord rfl rfl)

/-- The rule for `??` takes it as a token. -/
theorem coalesceOp_eq : coalesceOp = ofToken (operatorIn (· = .coalesce)) :=
  have h : ReadsSymbols coalesceOp (operatorIn (· = .coalesce)) :=
    readsSymbols_symbol rfl (by decide)
  h.eq_ofToken operatorIn_of_isMark (operatorIn_ofWord rfl rfl)

/-- The rule for disjunction takes it as a token, in each of its spellings. -/
theorem orOp_eq : orOp = ofToken (operatorIn (· = .or)) :=
  symbolOrWord_eq_ofToken
    (readsSymbols_symbol rfl (by decide)) operatorIn_of_isMark (by decide)

/-- The rule for conjunction takes it as a token, in each of its spellings. -/
theorem andOp_eq : andOp = ofToken (operatorIn (· = .and)) :=
  symbolOrWord_eq_ofToken
    (readsSymbols_symbol rfl (by decide)) operatorIn_of_isMark (by decide)

/-- Is this the token? -/
def isToken (t u : Token) : Option Unit := if u = t then some () else none

/-- A mark is not found among other tokens. -/
theorem isToken_of_isMark {t : Token} (ht : t.isMark = true) (u : Token)
    (hu : u.isMark = false) :
    isToken t u = none := by
  refine if_neg ?_
  rintro rfl
  rw [ht] at hu
  cases hu

/-- Words are read as keywords and names only. -/
theorem isToken_ofWord {t : Token} (ht : t.isMark = true)
    (hkey : ∀ e ∈ keywordTokens, e.2 ≠ t) (name : String) :
    isToken t (ofWord name) = none := by
  refine if_neg ?_
  rw [← String.ofList_toList (s := name), ofWord_eq]
  cases hlookup : keywordTokens.lookup (name.toList.map Char.toLower) with
  | none =>
      rintro rfl
      cases ht
  | some u =>
      obtain ⟨front, back, heq, -⟩ := List.lookup_eq_some_iff.1 hlookup
      exact hkey (name.toList.map Char.toLower, u) (heq ▸ by simp)

/-- The rule for negation takes it as a token, in each of its spellings. -/
theorem notOp_eq : notOp = ofToken (isToken .not) :=
  symbolOrWord_eq_ofToken
    (readsSymbols_symbolUnless rfl (by decide) fun tail => ⟨_, rfl, rfl⟩)
    (isToken_of_isMark rfl) (by decide)

/-- The rule for the question mark takes it as a token, and not as one half of `??`. -/
theorem question_eq : question = ofToken (isToken .question) :=
  have h : ReadsSymbols question (isToken .question) :=
    readsSymbols_symbolUnless rfl (by decide) fun tail => ⟨_, rfl, rfl⟩
  h.eq_ofToken (isToken_of_isMark rfl) (isToken_ofWord rfl (by decide))

/-- A symbol of one token only, which begins no other symbol. -/
theorem symbol_eq {t : Token} {cs : List Char}
    (htable : [(cs, ())] = symbols.filterMap fun s => (isToken t s.2).map (s.1, ·))
    (hclosed : ∀ s ∈ symbols, ∀ s' ∈ symbols, (isToken t s.2).isSome →
        isToken t s'.2 = none → ¬ s.1 <+: s'.1)
    (ht : t.isMark = true) (hkey : ∀ e ∈ keywordTokens, e.2 ≠ t) :
    symbol cs () = ofToken (isToken t) :=
  (readsSymbols_symbol htable hclosed).eq_ofToken (isToken_of_isMark ht)
    (isToken_ofWord ht hkey)

/-- The rule for the minus sign takes it as a token. -/
theorem negOp_eq : negOp = ofToken (isToken (.operator .sub)) :=
  symbol_eq rfl (by decide) rfl (by decide)

/-- The rule for an opening bracket takes it as a token. -/
theorem openBracket_eq : symbol ['('] () = ofToken (isToken .openBracket) :=
  symbol_eq rfl (by decide) rfl (by decide)

/-- The rule for a closing bracket takes it as a token. -/
theorem closeBracket_eq : symbol [')'] () = ofToken (isToken .closeBracket) :=
  symbol_eq rfl (by decide) rfl (by decide)

/-- The rule for a comma takes it as a token. -/
theorem comma_eq : symbol [','] () = ofToken (isToken .comma) :=
  symbol_eq rfl (by decide) rfl (by decide)

/-- The rule for a colon takes it as a token. -/
theorem colon_eq : symbol [':'] () = ofToken (isToken .colon) :=
  symbol_eq rfl (by decide) rfl (by decide)

end FormulaTable.Matching.Terminal

/-! ### The first token -/

namespace FormulaTable.Matching

open Terminal (ofToken)

variable {α : Type} {want : Token → Option α} {cs rest : List Char} {a : α} {t : Token}

/-- The first token of a text, and what is behind it. -/
def Next (cs : List Char) (t : Token) (rest : List Char) : Prop :=
  ∃ c tail, cs.dropWhile Token.isSpace = c :: tail ∧ Token.take c tail = (t, rest)

/-- The tokens of a text are the next one and those behind it. -/
theorem Next.ofText_eq (h : Next cs t rest) : Token.ofText cs = t :: Token.ofText rest := by
  obtain ⟨c, tail, hdrop, htake⟩ := h
  rw [Token.ofText_eq_cons hdrop, htake]

/-- The next token is taken off the front of the text. -/
theorem Next.length_lt (h : Next cs t rest) : rest.length < cs.length := by
  obtain ⟨c, tail, hdrop, htake⟩ := h
  have htail := Token.length_take_le c tail
  have hcs := Token.length_dropWhile_le Token.isSpace cs
  rw [htake] at htail
  rw [hdrop, List.length_cons] at hcs
  exact Nat.lt_of_le_of_lt htail hcs

/-- A text is blank or has a first token. -/
theorem ofText_eq_nil_or_next (cs : List Char) :
    Token.ofText cs = [] ∨ ∃ t rest, Next cs t rest := by
  cases hdrop : cs.dropWhile Token.isSpace with
  | nil => exact .inl (Token.ofText_eq_nil hdrop)
  | cons c tail => exact .inr ⟨_, _, c, tail, hdrop, rfl⟩

/-- **A terminal matches** the first token of a text, if something is made of it. -/
theorem terminal_of_next (h : Next cs t rest) (want : Token → Option α) :
    terminal (ofToken want) cs = ((want t).map (·, rest)).elim (.error .mismatch) .ok := by
  obtain ⟨c, tail, hdrop, htake⟩ := h
  rw [terminal, hdrop, ofToken, htake]
  cases want t <;> rfl

/-- No terminal matches where there is no token. -/
theorem terminal_of_nil (h : Token.ofText cs = []) (want : Token → Option α) :
    terminal (ofToken want) cs = .error .mismatch := by
  cases hdrop : cs.dropWhile Token.isSpace with
  | nil =>
      rw [terminal, hdrop]
      rfl
  | cons c tail =>
      rw [Token.ofText_eq_cons hdrop] at h
      cases h

end FormulaTable.Matching

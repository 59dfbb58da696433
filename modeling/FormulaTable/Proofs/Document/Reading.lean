import FormulaTable.Document.Reader
import FormulaTable.Proofs.Document.Double
import FormulaTable.Proofs.Document.Text

/-!
# Written documents are read back

The text of a document is cut into the tokens that the document is made of, and these are
read as a document of the same shape. Only numbers may come back as others: integers beyond
64 bits, and doubles that are rounded on the way. What has no text of its own, a NaN or an
infinity for one, is written as `null` and read as `null`.

* `reread` — what a document is read as.
* `ofChars_write` — the tokens of a written document.
* `document_tokens` — a reader takes these tokens, and nothing behind them.
* `parse?_toText` — every document is read back as what it is read as.
-/

namespace FormulaTable.Document

/-! ### Documents as trees -/

/-- What holds of documents when it holds of those inside holds of all documents. -/
theorem tree_induction {P : Document → Prop}
    (leaf : ∀ d, (∀ items, d ≠ .array items) → (∀ fields, d ≠ .object fields) → P d)
    (array : ∀ items, (∀ d ∈ items, P d) → P (.array items))
    (object : ∀ fields, (∀ f ∈ fields, P f.2) → P (.object fields)) (d : Document) :
    P d := by
  refine @Document.rec P (fun items => ∀ d ∈ items, P d) (fun fields => ∀ f ∈ fields, P f.2)
    (fun f => P f.2)
    (leaf _ nofun nofun) (fun _ => leaf _ nofun nofun) (fun _ => leaf _ nofun nofun)
      (fun _ => leaf _ nofun nofun)
    (fun _ => leaf _ nofun nofun) array object (leaf _ nofun nofun) nofun ?_ nofun ?_
      (fun _ _ h => h) d
  · exact fun _ _ hfirst hrest => List.forall_mem_cons.2 ⟨hfirst, hrest⟩
  · exact fun _ _ hfirst hrest => List.forall_mem_cons.2 ⟨hfirst, hrest⟩

mutual

/-- What a document is read as after it was written. -/
def reread : Document → Document
  | null => null
  | bool b => bool b
  | integer n => (WrittenNumber.ofInt n).toDocument
  | number x => (reread? x).elim null number
  | text s => text s
  | array items => array (rereadAll items)
  | object fields => object (rereadFields fields)
  | unreadable => null

/-- What several documents are read as. -/
def rereadAll : List Document → List Document
  | [] => []
  | d :: rest => d.reread :: rereadAll rest

/-- What the fields of an object are read as. -/
def rereadFields : List (String × Document) → List (String × Document)
  | [] => []
  | (key, d) :: rest => (key, d.reread) :: rereadFields rest

end

/-- Tokens with commas between them. -/
def commaSeparated : List (List Token) → List Token
  | [] => []
  | [part] => part
  | part :: rest => part ++ .comma :: commaSeparated rest

/-- A comma stands behind every part but the last one. -/
theorem commaSeparated_cons_cons (part next : List Token) (rest : List (List Token)) :
    commaSeparated (part :: next :: rest) = part ++ .comma ::
      commaSeparated (next :: rest) := rfl

/-- A comma stands behind every part but the last one. -/
theorem separated_cons_cons (part next : List Char) (rest : List (List Char)) :
    separated (part :: next :: rest) = part ++ ',' :: separated (next :: rest) := rfl

mutual

/-- The tokens of a written document. -/
def tokens : Document → List Token
  | array items => .openBracket :: commaSeparated (tokensAll items) ++ [.closeBracket]
  | object fields => .openBrace :: commaSeparated (tokensFields fields) ++ [.closeBrace]
  | text s => [.text (some s)]
  | d => [.scalar d.reread]

/-- The tokens of several documents. -/
def tokensAll : List Document → List (List Token)
  | [] => []
  | d :: rest => d.tokens :: tokensAll rest

/-- The tokens of the fields of an object. -/
def tokensFields : List (String × Document) → List (List Token)
  | [] => []
  | (key, d) :: rest => (.text (some key) :: .colon :: d.tokens) :: tokensFields rest

end

section Maps

variable (items : List Document) (fields : List (String × Document))

/-- Items are reread one by one. -/
theorem rereadAll_eq_map : rereadAll items = items.map reread := by
  induction items with
  | nil => rfl
  | cons d rest ih => rw [rereadAll, ih, List.map_cons]

/-- Fields are reread one by one, under their names. -/
theorem rereadFields_eq_map :
    rereadFields fields = fields.map fun f => (f.1, f.2.reread) := by
  induction fields with
  | nil => rfl
  | cons f rest ih => rw [rereadFields, ih, List.map_cons]

/-- Items are written one by one. -/
theorem writeAll_eq_map : writeAll items = items.map write := by
  induction items with
  | nil => rfl
  | cons d rest ih => rw [writeAll, ih, List.map_cons]

/-- Fields are written one by one, each behind its name. -/
theorem writeFields_eq_map :
    writeFields fields = fields.map fun f => writeText f.1 ++ ':' :: f.2.write := by
  induction fields with
  | nil => rfl
  | cons f rest ih => rw [writeFields, ih, List.map_cons]

/-- Items have their tokens one by one. -/
theorem tokensAll_eq_map : tokensAll items = items.map tokens := by
  induction items with
  | nil => rfl
  | cons d rest ih => rw [tokensAll, ih, List.map_cons]

/-- Fields have their tokens one by one, each behind its name. -/
theorem tokensFields_eq_map :
    tokensFields fields = fields.map fun f => .text (some f.1) :: .colon :: f.2.tokens := by
  induction fields with
  | nil => rfl
  | cons f rest ih => rw [tokensFields, ih, List.map_cons]

end Maps

/-! ### The tokens of a text -/

namespace Token

variable {c : Char} {cs rest : List Char} {t : Token}

/-- A token at the front of a text is the first of its tokens. -/
theorem ofChars_cons (hc : isSpace c = false) (h : take? (c :: cs) = some (t, rest))
    (hlength : rest.length ≤ cs.length) : ofChars (c :: cs) = t :: ofChars rest := by
  have hnext : takeNext? (c :: cs) = some (t, rest) := by
    rw [takeNext?, List.dropWhile_cons_of_neg (by simp [hc])]
    exact congrArg (fun taken => some (taken.getD (illegal, []))) h
  rw [ofChars, hnext]
  exact if_pos (Nat.lt_succ_of_le hlength)

/-- A mark is a token of its own. -/
theorem ofChars_mark (h : ofMark? c = some t) : ofChars (c :: cs) = t :: ofChars cs := by
  refine ofChars_cons ?_ ?_ le_rfl
  · rw [← Bool.not_eq_true]
    intro hspace
    simp only [isSpace, Bool.or_eq_true, decide_eq_true_iff, or_assoc] at hspace
    rcases hspace with rfl | rfl | rfl | rfl <;> cases h
  · rw [take?, h]

/-- A text that is written is one token. -/
theorem ofChars_writeText (s : String) (rest : List Char) :
    ofChars (writeText s ++ rest) = text (some s) :: ofChars rest := by
  have htake := take?_writeText s rest
  rw [writeText, List.append_assoc, List.cons_append] at htake ⊢
  refine ofChars_cons rfl htake ?_
  simp only [List.length_append]
  omega

/-- A number that is written is one token. -/
theorem ofChars_number {w : WrittenNumber} (h : w.WellFormed) (hrest : EndsNumber rest) :
    ofChars (w.write ++ rest) = scalar w.toDocument :: ofChars rest := by
  obtain ⟨c, cs, hcons, hc⟩ := exists_write_eq_cons h
  have htake := take?_write h hrest
  rw [hcons, List.cons_append] at htake ⊢
  refine ofChars_cons (take?_of_number hc []).1 htake ?_
  rw [List.length_append]
  omega

/-- A null that is written is one token. -/
theorem ofChars_null (rest : List Char) :
    ofChars (['n', 'u', 'l', 'l'] ++ rest) = scalar null :: ofChars rest :=
  ofChars_cons rfl rfl (Nat.le_add_right _ 3)

/-- A truth value that is written is one token. -/
theorem ofChars_bool (b : Bool) (rest : List Char) :
    ofChars ((if b then ['t', 'r', 'u', 'e'] else ['f', 'a', 'l', 's', 'e']) ++ rest) =
      scalar (bool b) :: ofChars rest := by
  cases b
  · exact ofChars_cons rfl rfl (Nat.le_add_right _ 4)
  · exact ofChars_cons rfl rfl (Nat.le_add_right _ 3)

/-- Parts with commas between them are cut one after another. -/
theorem ofChars_separated {α : Type} (write : α → List Char) (tokens : α → List Token)
    {parts : List α}
    (hpart : ∀ a ∈ parts, ∀ rest, EndsNumber rest →
        ofChars (write a ++ rest) = tokens a ++ ofChars rest)
    (hrest : EndsNumber rest) :
    ofChars (separated (parts.map write) ++ rest) = commaSeparated (parts.map tokens) ++
      ofChars rest := by
  induction parts with
  | nil => rfl
  | cons first others ih =>
    have hfirst := hpart first List.mem_cons_self
    cases others with
    | nil => exact hfirst rest hrest
    | cons second others =>
      have hcomma (cs : List Char) : EndsNumber (',' :: cs) := by
        rintro c ⟨⟩
        decide
      have hothers := ih fun a ha => hpart a (List.mem_cons_of_mem _ ha)
      simp only [List.map_cons, separated_cons_cons, commaSeparated_cons_cons,
        List.append_assoc, List.cons_append] at hothers ⊢
      rw [hfirst _ (hcomma _), ofChars_mark rfl, hothers]

end Token

section Written

open FormulaTable.Document.Token

/-- A double is written as a number, or as `null`. -/
theorem ofChars_writeFloat (x : Float) {rest : List Char} (hrest : EndsNumber rest) :
    ofChars (writeFloat x ++ rest) = scalar ((reread? x).elim null number) ::
      ofChars rest := by
  cases hx : Binary.parts x with
  | finite negative m e =>
    obtain ⟨y, hy⟩ := Option.isSome_iff_exists.1 (isSome_reread? hx)
    have hread := ofChars_number (wellFormed_ofFinite hx) hrest
    rw [toDocument_ofFinite hx, ← WrittenNumber.writeFloat_eq hx, hy] at hread
    rw [hy]
    exact hread
  | nan | infinite =>
    have hnone : reread? x = none := by
      rw [reread?, WrittenNumber.ofFloat?, hx]
      rfl
    rw [hnone, writeFloat, hx]
    exact ofChars_null rest

/-- What closes an array or an object does not belong to a number before it. -/
theorem endsNumber_close (rest : List Char) :
    EndsNumber (']' :: rest) ∧ EndsNumber ('\x7d' :: rest) := by
  constructor <;> rintro c ⟨⟩ <;> decide

/-- **The tokens of a written document.** -/
theorem ofChars_write (d : Document) :
    ∀ rest, EndsNumber rest → ofChars (d.write ++ rest) = d.tokens ++ ofChars rest := by
  induction d using tree_induction with
  | leaf d harray hobject =>
    intro rest hrest
    cases d with
    | null | unreadable => exact ofChars_null rest
    | bool b => exact ofChars_bool b rest
    | text s => exact ofChars_writeText s rest
    | array items => exact absurd rfl (harray items)
    | object fields => exact absurd rfl (hobject fields)
    | integer n =>
      rw [write, ← WrittenNumber.write_ofInt]
      exact ofChars_number (WrittenNumber.wellFormed_ofInt n) hrest
    | number x => exact ofChars_writeFloat x hrest
  | array items ih =>
    intro rest hrest
    have hitems := ofChars_separated write tokens ih (endsNumber_close rest).1
    have hopen (cs : List Char) : ofChars ('[' :: cs) = openBracket :: ofChars cs :=
      ofChars_mark rfl
    have hclose : ofChars (']' :: rest) = closeBracket :: ofChars rest := ofChars_mark rfl
    rw [write, tokens, writeAll_eq_map, tokensAll_eq_map]
    simp only [List.append_assoc, List.cons_append, List.nil_append]
    rw [hopen, hitems, hclose]
  | object fields ih =>
    intro rest hrest
    have hfield : ∀ f ∈ fields, ∀ rest, EndsNumber rest →
        ofChars (writeText f.1 ++ ':' :: f.2.write ++ rest) =
        Token.text (some f.1) :: Token.colon :: f.2.tokens ++ ofChars rest := by
      intro f hf rest hrest
      have hcolon (cs : List Char) : ofChars (':' :: cs) = colon :: ofChars cs :=
        ofChars_mark rfl
      rw [List.append_assoc, List.cons_append, ofChars_writeText, hcolon,
        ih f hf rest hrest]
      rfl
    have hfields := ofChars_separated _ _ hfield (endsNumber_close rest).2
    have hopen (cs : List Char) : ofChars ('\x7b' :: cs) = openBrace :: ofChars cs :=
      ofChars_mark rfl
    have hclose : ofChars ('\x7d' :: rest) = closeBrace :: ofChars rest := ofChars_mark rfl
    rw [write, tokens, writeFields_eq_map, tokensFields_eq_map]
    simp only [List.append_assoc, List.cons_append, List.nil_append] at hfields ⊢
    rw [hopen, hfields, hclose]

end Written

/-! ### Documents of tokens -/

section Items

variable {α β : Type} {isClose : Token → Bool} {close spare : Token}
  {item : Reader α} {a : α}
  {budget cut rest : List Token}

/-- The item before the closing mark is the last one. -/
theorem itemsWithin_last (h : item cut = some (a, close :: rest))
    (hclose : isClose close = true) (hcomma : close ≠ .comma) :
    itemsWithin isClose item (spare :: budget) cut = some ([a], rest) := by
  rw [itemsWithin, h]
  cases close <;> first | exact absurd rfl hcomma | exact if_pos hclose

/-- Behind a comma there are more items. -/
theorem itemsWithin_comma (h : item cut = some (a, .comma :: rest)) :
    itemsWithin isClose item (spare :: budget) cut =
      (itemsWithin isClose item budget rest).map fun others =>
        (a :: others.1, others.2) := by
  rw [itemsWithin, h, Option.map_eq_bind]
  rfl

/-- Parts of which the first one is not empty start with its first token. -/
theorem exists_commaSeparated_eq_cons (t : Token) (ts : List Token)
    (parts : List (List Token)) :
    ∃ us, commaSeparated ((t :: ts) :: parts) = t :: us := by
  cases parts with
  | nil => exact ⟨ts, rfl⟩
  | cons next parts => exact ⟨_, rfl⟩

/-- Joined parts that are not empty have at least one token each. -/
theorem length_le_commaSeparated {parts : List (List Token)}
    (h : ∀ part ∈ parts, part ≠ []) :
    parts.length ≤ (commaSeparated parts).length := by
  induction parts with
  | nil => exact Nat.zero_le _
  | cons part parts ih =>
    have hpart := List.length_pos_iff.2 (h part List.mem_cons_self)
    have hparts := ih fun p hp => h p (List.mem_cons_of_mem _ hp)
    cases parts with
    | nil => exact hpart
    | cons next parts =>
      simp only [commaSeparated_cons_cons, List.length_append, List.length_cons] at hparts ⊢
      omega

/-- Joined parts are at least as long as each of them. -/
theorem length_le_of_mem {part : List Token} {parts : List (List Token)}
    (h : part ∈ parts) :
    part.length ≤ (commaSeparated parts).length := by
  induction parts with
  | nil => cases h
  | cons first parts ih =>
    cases parts with
    | nil => rw [List.mem_singleton.1 h, commaSeparated]
    | cons next parts =>
      rw [commaSeparated_cons_cons, List.length_append, List.length_cons]
      rcases List.mem_cons.1 h with rfl | h
      · omega
      · have := ih h
        omega

/-- Items with commas between them are read one after another, if each of them is. -/
theorem itemsWithin_commaSeparated {value : β → α} {tokens : β → List Token}
    {parts : List β} (hne : parts ≠ [])
    (hitem : ∀ b ∈ parts, ∀ rest, item (tokens b ++ rest) = some (value b, rest))
    (hclose : isClose close = true) (hcomma : close ≠ .comma)
    (hbudget : parts.length ≤ budget.length) :
    itemsWithin isClose item budget (commaSeparated (parts.map tokens) ++ close :: rest) =
      some (parts.map value, rest) := by
  induction parts generalizing budget with
  | nil => exact absurd rfl hne
  | cons first others ih =>
    obtain ⟨spare, budget, rfl⟩ :=
      List.exists_cons_of_length_pos (Nat.lt_of_lt_of_le (Nat.succ_pos _) hbudget)
    have hfirst := hitem first List.mem_cons_self
    cases others with
    | nil => exact itemsWithin_last (hfirst _) hclose hcomma
    | cons second others =>
      have hothers :=
        ih (List.cons_ne_nil _ _) (fun b hb => hitem b (List.mem_cons_of_mem _ hb))
        (Nat.le_of_succ_le_succ hbudget)
      simp only [List.map_cons, commaSeparated_cons_cons, List.append_assoc,
        List.cons_append] at hothers ⊢
      rw [itemsWithin_comma (hfirst _), hothers]
      rfl

/-- Items up to a closing token are read, if none of them begins with a closing token. -/
theorem items_commaSeparated {value : β → α} {tokens : β → List Token} {parts : List β}
    (hitem : ∀ b ∈ parts, ∀ rest, item (tokens b ++ rest) = some (value b, rest))
    (hopen : ∀ b ∈ parts, ∃ t ts, tokens b = t :: ts ∧ isClose t = false)
    (hclose : isClose close = true) (hcomma : close ≠ .comma) :
    items isClose item (commaSeparated (parts.map tokens) ++ close :: rest) =
      some (parts.map value, rest) := by
  cases parts with
  | nil => exact if_pos hclose
  | cons first others =>
    obtain ⟨t, ts, hfirst, ht⟩ := hopen first List.mem_cons_self
    have hne : ∀ part ∈ (first :: others).map tokens, part ≠ [] := by
      intro part hpart
      obtain ⟨b, hb, rfl⟩ := List.mem_map.1 hpart
      obtain ⟨t, ts, hcons, -⟩ := hopen b hb
      rw [hcons]
      exact List.cons_ne_nil _ _
    have hlength := length_le_commaSeparated hne
    rw [List.length_map] at hlength
    obtain ⟨us, hus⟩ := exists_commaSeparated_eq_cons t ts (others.map tokens)
    rw [← hfirst, ← List.map_cons] at hus
    -- The tokens that are read are the budget, and there are more of them than items.
    have hwithin : itemsWithin isClose item (t :: (us ++ close :: rest))
        (commaSeparated ((first :: others).map tokens) ++ close :: rest) =
          some ((first :: others).map value, rest) := by
      refine itemsWithin_commaSeparated (List.cons_ne_nil _ _) hitem hclose hcomma ?_
      rw [← List.cons_append, ← hus, List.length_append]
      omega
    rw [hus, List.cons_append] at hwithin ⊢
    rw [items, if_neg (by simp [ht])]
    exact hwithin

end Items

section Parsing

/-- A document begins with a token that closes nothing. -/
theorem exists_tokens_eq_cons (d : Document) :
    ∃ t ts, d.tokens = t :: ts ∧ closesArray t = false := by
  cases d <;> exact ⟨_, _, rfl, rfl⟩

/-- What succeeds for every element succeeds for a list of them. -/
theorem mapM_map_eq_some {α β γ : Type} {f : β → Option γ} {g : α → β} {h : α → γ}
    (hfg : ∀ a, f (g a) = some (h a)) (as : List α) :
    (as.map g).mapM f = some (as.map h) := by
  induction as with
  | nil => rfl
  | cons a as ih =>
    rw [List.map_cons, List.mapM_cons, hfg, ih]
    rfl

/-- Keys that are texts do no harm to an object. -/
theorem ofFields_map (fields : List (String × Document)) :
    ofFields (fields.map fun f => (some f.1, f.2.reread)) =
      .object (rereadFields fields) := by
  rw [ofFields, mapM_map_eq_some (h := fun f : String × Document => (f.1, f.2.reread)),
    rereadFields_eq_map]
  exact fun _ => rfl

/-- **The tokens of a document** are read as what it is read as, and nothing behind them is
taken. -/
theorem document_tokens (d : Document) :
    ∀ budget rest, d.tokens.length ≤ budget →
      document budget (d.tokens ++ rest) = some (d.reread, rest) := by
  induction d using tree_induction with
  | leaf d harray hobject =>
    intro budget rest hbudget
    obtain ⟨t, ts, hcons, -⟩ := exists_tokens_eq_cons d
    obtain ⟨budget, rfl⟩ := Nat.exists_eq_succ_of_ne_zero (show budget ≠ 0 by
      rintro rfl
      rw [hcons] at hbudget
      exact Nat.not_succ_le_zero _ hbudget)
    cases d with
    | array items => exact absurd rfl (harray items)
    | object fields => exact absurd rfl (hobject fields)
    | _ => rfl
  | array docs ih =>
    intro budget rest hbudget
    rw [tokens, tokensAll_eq_map] at hbudget ⊢
    cases budget with
    | zero => exact absurd hbudget (Nat.not_succ_le_zero _)
    | succ budget =>
      have hitem : ∀ d ∈ docs, ∀ rest,
          document budget (d.tokens ++ rest) = some (d.reread, rest) := by
        intro d hd rest
        have hlength := length_le_of_mem (List.mem_map_of_mem (f := tokens) hd)
        refine ih d hd budget rest ?_
        simp only [List.length_append, List.length_cons] at hbudget
        omega
      have hitems : items closesArray (document budget)
          (commaSeparated (docs.map tokens) ++ .closeBracket :: rest) =
          some (docs.map reread, rest) :=
        items_commaSeparated hitem (fun d _ => exists_tokens_eq_cons d) rfl nofun
      simp only [List.cons_append, List.append_assoc, List.nil_append]
      rw [document, hitems, reread, rereadAll_eq_map]
      rfl
  | object fields ih =>
    intro budget rest hbudget
    rw [tokens, tokensFields_eq_map] at hbudget ⊢
    cases budget with
    | zero => exact absurd hbudget (Nat.not_succ_le_zero _)
    | succ budget =>
      have hfield : ∀ f ∈ fields, ∀ rest,
          field (document budget) (Token.text (some f.1) :: .colon :: f.2.tokens ++ rest) =
            some ((some f.1, f.2.reread), rest) := by
        intro f hf rest
        have hlength := length_le_of_mem
          (List.mem_map_of_mem (f := fun f : String × Document => Token.text (some f.1) ::
              .colon :: f.2.tokens) hf)
        have hvalue := ih f hf budget rest (by
          simp only [List.length_append, List.length_cons] at hbudget hlength
          omega)
        rw [List.cons_append, List.cons_append, field, hvalue]
        rfl
      have hfields : items closesObject (field (document budget))
          (commaSeparated (fields.map fun f => .text (some f.1) :: .colon :: f.2.tokens) ++
              .closeBrace :: rest) =
            some (fields.map fun f => (some f.1, f.2.reread), rest) :=
        items_commaSeparated hfield (fun f _ => ⟨_, _, rfl, rfl⟩) rfl nofun
      simp only [List.cons_append, List.append_assoc, List.nil_append]
      rw [document, hfields, reread, ← ofFields_map]
      rfl

/-- **Every document** is read back as what it is read as. -/
theorem parse?_toText (d : Document) : parse? d.toText = some d.reread := by
  have htokens := ofChars_write d [] nofun
  have hread := document_tokens d (d.tokens.length + 1) [] (Nat.le_succ _)
  have hempty : Token.ofChars [] = [] := by
    rw [Token.ofChars]
    rfl
  rw [List.append_nil, hempty, List.append_nil] at htokens
  rw [List.append_nil] at hread
  rw [parse?, toText, String.toList_ofList, htokens, ofTokens?, hread]

end Parsing

end FormulaTable.Document

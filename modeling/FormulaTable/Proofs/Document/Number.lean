import FormulaTable.Document.Token
import FormulaTable.Proofs.Decimal.Digits

/-!
# Numbers in documents

A number that is written in the form that documents ask for is read as it was written, as
long as nothing behind it could belong to it. Its digits make up the significand, unless
there are too many of them for 64 bits.

* `take?_write` — a written number is one token.
* `significand_eq` — all the digits are taken, if the number that they write fits.
* `toDocument_ofInt` — an integer that fits is read as it was written.
-/

namespace FormulaTable.Document

open Decimal (AllDigits digitsValue)

/-- One or more decimal digits. -/
structure IsRow (cs : List Char) : Prop where
  ne_nil : cs ≠ []
  digits : AllDigits cs

/-- A zero is a row of digits. -/
theorem isRow_zero : IsRow ['0'] :=
  ⟨List.cons_ne_nil _ _, Decimal.allDigits_replicate_zero 1⟩

/-- Nothing that follows belongs to a number that ends here. -/
def EndsNumber (rest : List Char) : Prop :=
  ∀ c ∈ rest.head?, c.isDigit = false ∧ c ≠ '.' ∧ c ≠ 'e' ∧ c ≠ 'E'

/-- The characters of a fraction. -/
def writeFraction : Option (List Char) → List Char
  | none => []
  | some digits => '.' :: digits

/-- The characters of an exponent. -/
def writeExponent : Option (Bool × List Char) → List Char
  | none => []
  | some (negative, digits) => 'e' :: if negative then '-' :: digits else digits

namespace WrittenNumber

/-- The characters of a number as it is written. -/
def write (w : WrittenNumber) : List Char :=
  (if w.negative then ['-'] else []) ++
    (w.whole ++ (writeFraction w.fraction ++ writeExponent w.exponent))

/-- Is the number written in the form that documents ask for? -/
structure WellFormed (w : WrittenNumber) : Prop where
  whole : IsRow w.whole
  /-- The digits do not start with a zero, unless that is the only one. -/
  leading : w.whole.head? = some '0' → w.whole.length = 1
  fraction : ∀ digits ∈ w.fraction, IsRow digits
  exponent : ∀ e ∈ w.exponent, IsRow e.2

end WrittenNumber

/-! ### Reading what is written -/

namespace Token

variable {digits rest : List Char} {w : WrittenNumber}

/-- Digits are scanned up to the first character that is none. -/
theorem spanDigits_append (h : AllDigits digits)
    (hrest : ∀ c ∈ rest.head?, c.isDigit = false) :
    spanDigits (digits ++ rest) = (digits, rest) := by
  have hstop : rest.takeWhile Char.isDigit = [] ∧ rest.dropWhile Char.isDigit = rest := by
    cases rest with
    | nil => exact ⟨rfl, rfl⟩
    | cons c rest =>
      have hc : ¬ c.isDigit = true := by simp [hrest c rfl]
      exact ⟨List.takeWhile_cons_of_neg hc, List.dropWhile_cons_of_neg hc⟩
  rw [spanDigits, List.takeWhile_append_of_pos h, List.dropWhile_append_of_pos h, hstop.1,
    hstop.2, List.append_nil]

/-- An exponent that is written is taken back, if what follows does not go on with the
number. -/
theorem takeExponent?_append {e : Option (Bool × List Char)} (he : ∀ d ∈ e, IsRow d.2)
    (hrest : EndsNumber rest) :
    takeExponent? (writeExponent e ++ rest) = some (e, rest) := by
  have hdigit : ∀ c ∈ rest.head?, c.isDigit = false := fun c hc => (hrest c hc).1
  cases e with
  | none =>
    cases rest with
    | nil => rfl
    | cons c rest =>
      obtain ⟨-, -, hlower, hupper⟩ := hrest c rfl
      rw [writeExponent, List.nil_append, takeExponent?, if_neg (by simp [hlower, hupper])]
  | some d =>
    obtain ⟨negative, digits⟩ := d
    obtain ⟨hne, hall⟩ := he _ rfl
    have hsign : Decimal.takeSign ((if negative then '-' :: digits else digits) ++ rest) =
        (negative, digits ++ rest) := by
      cases negative with
      | true => rfl
      | false =>
        obtain ⟨c, cs, rfl⟩ := List.exists_cons_of_ne_nil hne
        exact Decimal.takeSign_digit (hall c List.mem_cons_self)
    rw [writeExponent, List.cons_append, takeExponent?, if_pos (.inl rfl), hsign]
    dsimp only
    rw [spanDigits_append hall hdigit]
    dsimp only
    rw [if_neg (by simpa using hne)]

/-- What follows a fraction or the digits before it is no digit. -/
theorem isDigit_writeExponent {e : Option (Bool × List Char)} (hrest : EndsNumber rest) :
    ∀ c ∈ (writeExponent e ++ rest).head?, c.isDigit = false ∧ c ≠ '.' := by
  cases e with
  | none => exact fun c hc => ⟨(hrest c hc).1, (hrest c hc).2.1⟩
  | some d =>
    rintro c ⟨⟩
    exact ⟨rfl, by decide⟩

/-- A fraction that is written is taken back, with what follows left over. -/
theorem takeFraction?_append {f : Option (List Char)} {e : Option (Bool × List Char)}
    (hf : ∀ d ∈ f, IsRow d) (hrest : EndsNumber rest) :
    takeFraction? (writeFraction f ++ (writeExponent e ++ rest)) =
      some (f, writeExponent e ++ rest) := by
  have hnext := isDigit_writeExponent (e := e) hrest
  cases f with
  | none =>
    rw [writeFraction, List.nil_append]
    generalize writeExponent e ++ rest = tail at hnext
    unfold takeFraction?
    split
    · exact absurd rfl (hnext '.' rfl).2
    · rfl
  | some digits =>
    obtain ⟨hne, hall⟩ := hf _ rfl
    rw [writeFraction, List.cons_append, takeFraction?,
      spanDigits_append hall fun c hc => (hnext c hc).1]
    dsimp only
    rw [if_neg (by simpa using hne)]

/-- What follows the first digits of a number is no digit. -/
theorem isDigit_writeFraction {f : Option (List Char)} {e : Option (Bool × List Char)}
    (hrest : EndsNumber rest) :
    ∀ c ∈ (writeFraction f ++ (writeExponent e ++ rest)).head?, c.isDigit = false := by
  cases f with
  | none => exact fun c hc => (isDigit_writeExponent (e := e) hrest c hc).1
  | some digits =>
    rintro c ⟨⟩
    rfl

/-- Reads a number after its sign. -/
def takeMagnitude? (negative : Bool) (cs : List Char) :
    Option (WrittenNumber × List Char) :=
  let (whole, rest) := spanDigits cs
  if whole.isEmpty ∨ (whole.head? = some '0' ∧ whole.length ≠ 1) then none
  else do
    let (fraction, rest) ← takeFraction? rest
    let (exponent, rest) ← takeExponent? rest
    return (⟨negative, whole, fraction, exponent⟩, rest)

/-- A number that starts with a digit has no sign. -/
theorem takeNumber?_digit {c : Char} (h : c.isDigit = true) (cs : List Char) :
    takeNumber? (c :: cs) = takeMagnitude? false (c :: cs) := by
  rw [takeNumber?, takeMagnitude?]
  rintro rest ⟨⟩
  cases h

/-- A magnitude that is written is taken back, if what follows does not go on with the
number. -/
theorem takeMagnitude?_append (h : w.WellFormed) (hrest : EndsNumber rest) :
    takeMagnitude? w.negative
      (w.whole ++ (writeFraction w.fraction ++ (writeExponent w.exponent ++ rest))) =
      some (w, rest) := by
  obtain ⟨⟨hne, hall⟩, hleading, hfraction, hexponent⟩ := h
  have hwhole : ¬ (w.whole.isEmpty = true ∨ w.whole.head? = some '0' ∧
        w.whole.length ≠ 1) := by
    rintro (hempty | ⟨hzero, hlength⟩)
    · exact hne (List.isEmpty_iff.1 hempty)
    · exact hlength (hleading hzero)
  rw [takeMagnitude?, spanDigits_append hall (isDigit_writeFraction hrest)]
  dsimp only
  rw [if_neg hwhole, takeFraction?_append hfraction hrest]
  dsimp only [Option.bind_eq_bind, Option.bind_some]
  rw [takeExponent?_append hexponent hrest]
  rfl

/-- **A written number** is read as it was written. -/
theorem takeNumber?_write (h : w.WellFormed) (hrest : EndsNumber rest) :
    takeNumber? (w.write ++ rest) = some (w, rest) := by
  have hread := takeMagnitude?_append h hrest
  obtain ⟨negative, whole, fraction, exponent⟩ := w
  rw [WrittenNumber.write]
  simp only [List.append_assoc]
  cases negative with
  | true => exact hread
  | false =>
    obtain ⟨c, cs, rfl⟩ := List.exists_cons_of_ne_nil h.whole.ne_nil
    exact (takeNumber?_digit (h.whole.digits c List.mem_cons_self) _).trans hread

/-! ### One token -/

/-- What a written number begins with: a minus sign or a digit. -/
theorem exists_write_eq_cons (h : w.WellFormed) :
    ∃ c cs, w.write = c :: cs ∧ (c = '-' ∨ c.isDigit = true) := by
  obtain ⟨negative, whole, fraction, exponent⟩ := w
  cases negative with
  | true => exact ⟨_, _, rfl, .inl rfl⟩
  | false =>
    obtain ⟨c, cs, rfl⟩ := List.exists_cons_of_ne_nil h.whole.ne_nil
    exact ⟨_, _, rfl, .inr (h.whole.digits c List.mem_cons_self)⟩

/-- What begins with a minus sign or a digit can only be a number. -/
theorem take?_of_number {c : Char} (h : c = '-' ∨ c.isDigit = true) (cs : List Char) :
    isSpace c = false ∧
      take? (c :: cs) = (takeNumber? (c :: cs)).map fun read =>
        (scalar read.1.toDocument, read.2) := by
  have hother : ∀ d : Char, d.isDigit = false → d ≠ '-' → c ≠ d := by
    rintro d hd hminus rfl
    rcases h with rfl | h
    · exact hminus rfl
    · rw [hd] at h
      cases h
  have hmark : ofMark? c = none := by
    unfold ofMark?
    split
    all_goals first | rfl | exact absurd rfl (hother _ rfl (by decide))
  have hwords : (words.find? fun w => w.1.isPrefixOf (c :: cs)) = none := by
    simp [words, (hother 't' rfl (by decide)).symm, (hother 'f' rfl (by decide)).symm,
      (hother 'n' rfl (by decide)).symm]
  constructor
  · simp [isSpace, hother ' ' rfl (by decide), hother '\t' rfl (by decide),
      hother '\r' rfl (by decide), hother '\n' rfl (by decide)]
  · rw [take?, hmark]
    dsimp only
    rw [if_neg (hother '"' rfl (by decide)), hwords]

/-- **A written number** is one token. -/
theorem take?_write (h : w.WellFormed) (hrest : EndsNumber rest) :
    take? (w.write ++ rest) = some (scalar w.toDocument, rest) := by
  obtain ⟨c, cs, hcons, hc⟩ := exists_write_eq_cons h
  have htake := (take?_of_number hc (cs ++ rest)).2
  have hread := takeNumber?_write h hrest
  rw [hcons, List.cons_append] at hread ⊢
  rw [htake, hread]
  rfl

end Token

/-! ### The significand -/

/-- Further digits do not make a value smaller. -/
theorem digitsValue_le_append (cs ds : List Char) :
    digitsValue cs ≤ digitsValue (cs ++ ds) := by
  rw [Decimal.digitsValue_append]
  exact (Nat.le_mul_of_pos_left _ (Nat.pow_pos (by decide))).trans (Nat.le_add_right _ _)

/-- All the digits are taken, if the number that they write with those before them fits. -/
theorem takeDigits_go {ds : List Char} (cs : List Char) (taken : Nat)
    (h : digitsValue (cs ++ ds) < 0x10000000000000000) :
    takeDigits.go (digitsValue cs) taken ds =
      (digitsValue (cs ++ ds), taken + ds.length) := by
  induction ds generalizing cs taken with
  | nil => rw [takeDigits.go, List.append_nil, List.length_nil, Nat.add_zero]
  | cons d ds ih =>
    have hnext : 10 * digitsValue cs + (d.toNat - '0'.toNat) = digitsValue (cs ++ [d]) := by
      rw [digitsValue, digitsValue, List.foldl_append]
      rfl
    have hsplit : cs ++ d :: ds = cs ++ [d] ++ ds := by
      rw [List.append_assoc, List.singleton_append]
    rw [hsplit] at h ⊢
    rw [takeDigits.go, hnext, if_pos ((digitsValue_le_append _ _).trans_lt h), ih _ _ h,
      List.length_cons, Nat.add_assoc, Nat.add_comm 1]

namespace WrittenNumber

variable {w : WrittenNumber}

/-- The digits before the point and after it. -/
def digits (w : WrittenNumber) : List Char := w.whole ++ w.fraction.getD []

/-- The power of ten that the last digit stands for. -/
def power (w : WrittenNumber) : Int := w.tenExponent - (w.fraction.getD []).length

/-- **All the digits** are taken, if the number that they write fits. -/
theorem significand_eq (h : digitsValue w.digits < 0x10000000000000000) :
    w.significand = (digitsValue w.digits, -((w.fraction.getD []).length : Int)) := by
  have hwhole : takeDigits 0 w.whole = (digitsValue w.whole, w.whole.length) := by
    refine (takeDigits_go [] 0 ?_).trans (by rw [List.nil_append, Nat.zero_add])
    exact (digitsValue_le_append _ _).trans_lt h
  rw [significand, hwhole]
  dsimp only
  rw [digits] at h ⊢
  generalize w.fraction = fraction at h ⊢
  cases fraction with
  | none => simp
  | some ds =>
    have hfraction : takeDigits (digitsValue w.whole) ds =
        (digitsValue (w.whole ++ ds), ds.length) :=
      (takeDigits_go w.whole 0 h).trans (by rw [Nat.zero_add, Option.getD_some])
    dsimp only
    rw [hfraction, Nat.sub_self]
    simp

/-- What a number with a point or an exponent is read as, if its digits fit and its exponent
is not far away. -/
theorem toDocument_eq (hpoint : w.fraction.isSome = true ∨ w.exponent.isSome = true)
    (h : digitsValue w.digits < 0x10000000000000000)
    (hten : w.tenExponent.natAbs < 0x80000000) :
    w.toDocument = (scaled? (Float.ofNat (digitsValue w.digits)) w.power).elim .unreadable
      fun x => .number (if w.negative then -x else x) := by
  have hinteger : w.integer? = none := by rw [integer?, if_pos hpoint]
  rw [toDocument, hinteger, magnitude?, significand_eq h]
  dsimp only
  rw [if_pos hten, neg_add_eq_sub, ← power]
  cases scaled? _ _ <;> rfl

end WrittenNumber

/-! ### Integers -/

namespace WrittenNumber

/-- An integer as it is written. -/
def ofInt (n : Int) : WrittenNumber := ⟨n < 0, Nat.toDigits 10 n.natAbs, none, none⟩

/-- An integer is written as its text. -/
theorem write_ofInt (n : Int) : (ofInt n).write = (toString n).toList := by
  rw [Decimal.toList_toString, write, ofInt]
  by_cases h : n < 0
  · simp [h, writeFraction, writeExponent, not_le.2 h]
  · simp [h, writeFraction, writeExponent, not_lt.1 h]

/-- The written form of an integer is well formed. -/
theorem wellFormed_ofInt (n : Int) : (ofInt n).WellFormed where
  whole := ⟨Nat.toDigits_ne_nil, Decimal.allDigits_toDigits _⟩
  leading h := by
    rw [ofInt, Decimal.eq_zero_of_head?_toDigits h, Nat.toDigits_zero,
      List.length_singleton]
  fraction := by simp [ofInt]
  exponent := by simp [ofInt]

/-- **An integer** that fits 64 bits is read as it was written. -/
theorem toDocument_ofInt {n : Int} (hlow : -0x8000000000000000 ≤ n)
    (hhigh : n < 0x10000000000000000) :
    (ofInt n).toDocument = .integer n := by
  have hinteger : (ofInt n).integer? = some n := by
    rw [integer?, ofInt]
    dsimp only
    rw [if_neg (by simp), Decimal.digitsValue_toDigits]
    by_cases h : n < 0
    · rw [if_pos (by simpa using h), if_pos (by omega)]
      congr 1
      omega
    · rw [if_neg (by simpa using h), if_pos (by omega)]
      congr 1
      omega
  rw [toDocument, hinteger]

end WrittenNumber

end FormulaTable.Document

import FormulaTable.Decimal.Reader
import FormulaTable.Text.Blank
import Mathlib.Algebra.Order.Ring.Int
import Mathlib.Tactic.SplitIfs

/-!
# Rows of digits

What a number looks like in decimal, and that it is read back: digits are no blanks, a row
of them stands for a number below the power of ten that its length gives, and the digits
that a number is written with stand for it.

* `digitsValue_toDigits`, `digitsValue_lt` — the number of a row of digits.
* `readInt?_toString` — an integer is read back from its digits and its sign.
-/

namespace FormulaTable.Decimal

/-- Are these decimal digits only? -/
def AllDigits (cs : List Char) : Prop := ∀ c ∈ cs, c.isDigit = true

variable {cs ds : List Char} {c : Char}

/-- The digits of a number are digits. -/
theorem allDigits_toDigits (n : Nat) : AllDigits (Nat.toDigits 10 n) :=
  fun _ hc => Nat.isDigit_of_mem_toDigits (by decide) (by decide) hc

/-- A text consists of digits if its first character is one and the rest consists of
digits. -/
theorem allDigits_cons : AllDigits (c :: cs) ↔ c.isDigit = true ∧ AllDigits cs :=
  List.forall_mem_cons

/-- A joined text consists of digits if both parts do. -/
theorem allDigits_append : AllDigits (cs ++ ds) ↔ AllDigits cs ∧ AllDigits ds :=
  List.forall_mem_append

/-- The digits are the characters from 48 to 57. -/
theorem isDigit_iff : c.isDigit = true ↔ 48 ≤ c.toNat ∧ c.toNat ≤ 57 :=
  Char.isDigit_iff_toNat

/-- A digit is no character that is not one. -/
theorem ne_of_isDigit {d : Char} (hc : c.isDigit = true) (hd : d.isDigit = false) :
    c ≠ d := by
  rintro rfl
  rw [hd] at hc
  cases hc

/-- No digit is blank. -/
theorem isBlank_eq_false_of_isDigit (h : c.isDigit = true) : Text.isBlank c = false := by
  rw [isDigit_iff] at h
  simp [Text.isBlank]
  omega

/-- The digits of a number have its value. -/
theorem digitsValue_toDigits (n : Nat) : digitsValue (Nat.toDigits 10 n) = n :=
  Nat.ofDigitChars_ten_toDigits

/-- Digits behind others are worth the less, by a factor of ten for each of them. -/
theorem digitsValue_append (cs ds : List Char) :
    digitsValue (cs ++ ds) = 10 ^ ds.length * digitsValue cs + digitsValue ds :=
  (Nat.ofDigitChars_append 0).trans Nat.ofDigitChars_eq_ofDigitChars_zero

/-- Zeros are worth nothing. -/
theorem digitsValue_replicate_zero (k : Nat) : digitsValue (List.replicate k '0') = 0 :=
  Nat.ofDigitChars_replicate_zero

/-- Zeros are digits. -/
theorem allDigits_replicate_zero (k : Nat) : AllDigits (List.replicate k '0') := by
  intro c hc
  rw [List.eq_of_mem_replicate hc]
  rfl

/-- The value of digits is below the power of ten of their number. -/
theorem digitsValue_lt (h : AllDigits cs) : digitsValue cs < 10 ^ cs.length := by
  induction cs with
  | nil => exact Nat.one_pos
  | cons c cs ih =>
    obtain ⟨hc, hcs⟩ := allDigits_cons.mp h
    have hdigit : digitsValue [c] ≤ 9 := by
      have := isDigit_iff.mp hc
      change 10 * 0 + (c.toNat - 48) ≤ 9
      omega
    calc digitsValue (c :: cs) = 10 ^ cs.length * digitsValue [c] + digitsValue cs :=
           digitsValue_append [c] cs
      _ < 10 ^ cs.length * 9 + 10 ^ cs.length :=
        Nat.add_lt_add_of_le_of_lt (Nat.mul_le_mul_left _ hdigit) (ih hcs)
      _ = 10 ^ (c :: cs).length := by rw [List.length_cons, Nat.pow_succ]; omega

/-- A number is below the power of ten of the number of its digits. -/
theorem lt_ten_pow_length (n : Nat) : n < 10 ^ (Nat.toDigits 10 n).length :=
  (Nat.length_toDigits_le_iff (by decide) (List.length_pos_iff.mpr Nat.toDigits_ne_nil)).mp
    le_rfl

/-- A number is not below the power of ten of one digit less. -/
theorem ten_pow_length_le {n : Nat} (hn : n ≠ 0) :
    10 ^ ((Nat.toDigits 10 n).length - 1) ≤ n := by
  rcases Nat.eq_zero_or_pos ((Nat.toDigits 10 n).length - 1) with hone | hpos
  · rw [hone, Nat.pow_zero]
    omega
  · refine not_lt.mp (mt (Nat.length_toDigits_le_iff (by decide) hpos).mpr ?_)
    omega

/-- The digits of a number start with a zero only if it is zero. -/
theorem eq_zero_of_head?_toDigits {n : Nat} (h : (Nat.toDigits 10 n).head? = some '0') :
    n = 0 := by
  obtain ⟨cs, hcs⟩ := List.head?_eq_some_iff.mp h
  have hall : AllDigits cs := fun c hc =>
    allDigits_toDigits n c (hcs ▸ List.mem_cons_of_mem _ hc)
  have hvalue : n = digitsValue cs := by
    calc n = digitsValue ('0' :: cs) := by rw [← hcs, digitsValue_toDigits]
      _ = 10 ^ cs.length * digitsValue ['0'] + digitsValue cs := digitsValue_append ['0'] cs
      _ = digitsValue cs := by
        rw [show digitsValue ['0'] = 0 from rfl, Nat.mul_zero, Nat.zero_add]
  rcases Nat.eq_zero_or_pos cs.length with hnil | hpos
  · rw [hvalue, List.length_eq_zero_iff.mp hnil]
    rfl
  · -- A number below a power of ten is not written with more digits than that.
    have hlength :=
      (Nat.length_toDigits_le_iff (by decide) hpos).mpr (hvalue ▸ digitsValue_lt hall)
    rw [hcs, List.length_cons] at hlength
    omega

/-- What begins with digits does not begin with a blank. -/
theorem head_not_blank (h : AllDigits ds) (hne : ds ≠ []) (hfront : ds <+: cs) :
    ∀ c ∈ cs.head?, Text.isBlank c = false := by
  obtain ⟨d, ds, rfl⟩ := List.exists_cons_of_ne_nil hne
  obtain ⟨rest, rfl⟩ := hfront
  rintro c ⟨⟩
  exact isBlank_eq_false_of_isDigit (h _ List.mem_cons_self)

/-- What ends in digits does not end in a blank. -/
theorem last_not_blank (h : AllDigits ds) (hne : ds ≠ []) (hend : ds <:+ cs) :
    ∀ c ∈ cs.getLast?, Text.isBlank c = false := by
  obtain ⟨front, rfl⟩ := hend
  intro c hc
  rw [List.getLast?_append, List.getLast?_eq_some_getLast hne] at hc
  obtain rfl := Option.some.inj hc
  exact isBlank_eq_false_of_isDigit (h _ (List.getLast_mem hne))

/-! ### Integers -/

/-- An integer is written with its digits, after a minus if it is negative. -/
theorem toList_toString (n : Int) : (toString n).toList =
    if 0 ≤ n then Nat.toDigits 10 n.natAbs else '-' :: Nat.toDigits 10 n.natAbs := by
  rw [Int.toString_eq_repr, Int.repr_eq_if]
  split_ifs with h
  · rw [Nat.repr_eq_ofList_toDigits, String.toList_ofList, show n.toNat = n.natAbs by omega]
  · rw [String.toList_append, Nat.repr_eq_ofList_toDigits, String.toList_ofList,
      String.toList_ofList, show (-n).toNat = n.natAbs by omega]
    exact List.singleton_append

/-- Digits have no sign in front. -/
theorem takeSign_digit (h : c.isDigit = true) : takeSign (c :: cs) = (false, c :: cs) := by
  unfold takeSign
  split
  · next heq => exact absurd (List.cons.inj heq).1 (ne_of_isDigit h rfl)
  · next heq => exact absurd (List.cons.inj heq).1 (ne_of_isDigit h rfl)
  · rfl

/-- The digits of a number are read as the number. -/
theorem readNat?_toDigits (n : Nat) : readNat? (Nat.toDigits 10 n) = some n := by
  have hall : (Nat.toDigits 10 n).all Char.isDigit = true :=
    List.all_eq_true.mpr (allDigits_toDigits n)
  simp [readNat?, Nat.toDigits_ne_nil, hall, digitsValue_toDigits]

/-- An integer is read back from its text. -/
theorem readInt?_toString (n : Int) : readInt? (toString n).toList = some n := by
  rw [toList_toString]
  split_ifs with h
  · obtain ⟨c, cs, hcs⟩ :=
      List.exists_cons_of_ne_nil (Nat.toDigits_ne_nil (b := 10) (n := n.natAbs))
    have hc : c.isDigit = true := allDigits_toDigits n.natAbs c (by simp [hcs])
    rw [readInt?, hcs, takeSign_digit hc, ← hcs]
    dsimp only
    rw [readNat?_toDigits]
    exact congrArg some (Int.natAbs_of_nonneg h)
  · rw [readInt?, takeSign]
    dsimp only
    rw [readNat?_toDigits]
    exact congrArg some (show -(n.natAbs : Int) = n by omega)

/-- The text of an integer has no blanks at its ends. -/
theorem trimChars_toString (n : Int) :
    Text.trimChars (toString n).toList = (toString n).toList := by
  have hdigits := allDigits_toDigits n.natAbs
  have hne : Nat.toDigits 10 n.natAbs ≠ [] := Nat.toDigits_ne_nil
  rw [toList_toString]
  split_ifs with h
  · exact Text.trimChars_eq_self (head_not_blank hdigits hne (List.prefix_refl _))
      (last_not_blank hdigits hne (List.suffix_refl _))
  · refine Text.trimChars_eq_self ?_ (last_not_blank hdigits hne (List.suffix_cons _ _))
    rintro c ⟨⟩
    rfl

end FormulaTable.Decimal

import FormulaTable.Formula.Nesting

/-!
# The scan of a text's nesting

The scan accepts a text when no state on its way has more levels than the limit. In every
state the depth is the number of open brackets and open ternaries, so that closing some
never takes away more than there is.

* `within_iff` — what the scan accepts, by the states on its way.
* `Levels.Balanced` — the depth counts what is open; `balanced_of_mem_states` says so of
  every state.
-/

namespace FormulaTable.Nesting

namespace Levels

/-- The levels after a character that stands outside quoted sections. -/
def after (l : Levels) (c : Char) : Levels :=
  if c = '(' then l.openBracket
  else if c = '?' then l.openTernary
  else if c = ')' then l.closeBracket
  else if c = ',' then l.comma
  else l

/-- A closing bracket does not lead deeper. -/
theorem depth_closeBracket_le (l : Levels) : l.closeBracket.depth ≤ l.depth := by
  rw [closeBracket]
  split
  · exact Nat.sub_le ..
  · exact Nat.le_refl _

/-- A comma does not lead deeper. -/
theorem depth_comma_le (l : Levels) : l.comma.depth ≤ l.depth := Nat.sub_le ..

end Levels

/-- The mode after such a character. -/
def modeAfter (c : Char) : Mode := if isQuote c then .quoted c else .plain

/-- The levels after each step of the scan, whatever their depth. -/
def visited : Mode → Levels → List Char → List Levels
  | _, _, [] => []
  | .escaped mark, l, _ :: rest => l :: visited (.quoted mark) l rest
  | .quoted mark, l, c :: rest => l :: visited (insideQuotes mark c) l rest
  | .plain, l, '?' :: '?' :: rest => l :: visited .plain l rest
  | .plain, l, c :: rest => l.after c :: visited (modeAfter c) (l.after c) rest

/-- The levels before the scan of a text, and after each step. -/
def states (text : List Char) : List Levels := .start :: visited .plain .start text

/-! ### What the scan accepts -/

/-- A quote opens and closes nothing. -/
theorem Levels.after_of_isQuote {c : Char} (hc : isQuote c = true) (l : Levels) :
    l.after c = l := by
  simp only [isQuote, Bool.or_eq_true, decide_eq_true_eq] at hc
  rcases hc with (rfl | rfl) | rfl <;> rfl

/-- Other characters leave the levels as they are. -/
theorem Levels.after_eq_self {l : Levels} {c : Char} (hopen : c ≠ '(') (hquestion : c ≠ '?')
    (hclose : c ≠ ')') (hcomma : c ≠ ',') : l.after c = l := by
  rw [after, if_neg hopen, if_neg hquestion, if_neg hclose, if_neg hcomma]

variable {limit limit' : Nat} {mode : Mode} {l : Levels} {c : Char} {rest text : List Char}

/-- Outside quoted sections the scan goes on after a character, unless it opens a level too
many. -/
theorem scan_cons (hpair : ∀ tail, c = '?' → rest = '?' :: tail → False) :
    scan limit .plain l (c :: rest) = true ↔
      (l.depth < (l.after c).depth → (l.after c).depth ≤ limit) ∧
        scan limit (modeAfter c) (l.after c) rest = true := by
  rw [scan.eq_5 _ _ _ _ hpair, modeAfter]
  split
  · next hquote =>
    rw [l.after_of_isQuote hquote]
    exact ⟨fun h => ⟨fun hlt => absurd hlt (Nat.lt_irrefl _), h⟩, And.right⟩
  split
  · next hopen =>
    subst hopen
    rw [Bool.and_eq_true, decide_eq_true_eq]
    exact and_congr_left fun _ => ⟨fun h _ => h, fun h => h (Nat.lt_succ_self _)⟩
  split
  · next hquestion =>
    subst hquestion
    rw [Bool.and_eq_true, decide_eq_true_eq]
    exact and_congr_left fun _ => ⟨fun h _ => h, fun h => h (Nat.lt_succ_self _)⟩
  split
  · next hclose =>
    subst hclose
    exact ⟨fun h => ⟨fun hlt => absurd hlt (Nat.not_lt.2 l.depth_closeBracket_le), h⟩,
      And.right⟩
  split
  · next hcomma =>
    subst hcomma
    exact ⟨fun h => ⟨fun hlt => absurd hlt (Nat.not_lt.2 l.depth_comma_le), h⟩, And.right⟩
  · next hopen hquestion hclose hcomma =>
    rw [Levels.after_eq_self hopen hquestion hclose hcomma]
    exact ⟨fun h => ⟨fun hlt => absurd hlt (Nat.lt_irrefl _), h⟩, And.right⟩

/-- From a state within the limit the scan accepts what leads to states within the limit. -/
theorem scan_eq_true (hl : l.depth ≤ limit) :
    scan limit mode l text = true ↔ ∀ l' ∈ visited mode l text, l'.depth ≤ limit := by
  fun_induction visited mode l text with
  | case1 => exact ⟨fun _ l' hl' => (nomatch hl'), fun _ => by rw [scan]⟩
  | case2 mark l c rest ih => rw [scan, ih hl, List.forall_mem_cons, and_iff_right hl]
  | case3 mark l c rest ih => rw [scan, ih hl, List.forall_mem_cons, and_iff_right hl]
  | case4 l rest ih => rw [scan, ih hl, List.forall_mem_cons, and_iff_right hl]
  | case5 l c rest hpair ih =>
      rw [scan_cons hpair, List.forall_mem_cons]
      by_cases hafter : (l.after c).depth ≤ limit
      · rw [ih hafter]
        exact and_congr_left fun _ => ⟨fun _ => hafter, fun _ _ => hafter⟩
      · exact ⟨fun h => absurd (h.1 (by omega)) hafter, fun h => absurd h.1 hafter⟩

/-- **A text stays within the limit** when every state of its scan does. -/
theorem within_iff : within limit text = true ↔ ∀ l ∈ states text, l.depth ≤ limit := by
  rw [within, scan_eq_true (Nat.zero_le _), states, List.forall_mem_cons]
  exact (and_iff_right (Nat.zero_le _)).symm

/-- What stays within a limit stays within a larger one. -/
theorem within_of_le (hle : limit ≤ limit') (h : within limit text = true) :
    within limit' text = true :=
  within_iff.2 fun l hl => Nat.le_trans (within_iff.1 h l hl) hle

/-- Every step opens at most one level. -/
theorem Levels.depth_after_le (l : Levels) (c : Char) :
    (l.after c).depth ≤ l.depth + 1 := by
  rw [after]
  split
  · exact Nat.le_refl _
  split
  · exact Nat.le_refl _
  split
  · exact Nat.le_succ_of_le l.depth_closeBracket_le
  split
  · exact Nat.le_succ_of_le l.depth_comma_le
  · exact Nat.le_succ _

/-- No state is deeper than the text is long. -/
theorem depth_le_of_mem_visited {l' : Levels} (h : l' ∈ visited mode l text) :
    l'.depth ≤ l.depth + text.length := by
  fun_induction visited mode l text with
  | case1 => cases h
  | case2 mark l c rest ih =>
      rw [List.length_cons]
      rcases List.mem_cons.1 h with rfl | h
      · omega
      · have := ih h
        omega
  | case3 mark l c rest ih =>
      rw [List.length_cons]
      rcases List.mem_cons.1 h with rfl | h
      · omega
      · have := ih h
        omega
  | case4 l rest ih =>
      simp only [List.length_cons]
      rcases List.mem_cons.1 h with rfl | h
      · omega
      · have := ih h
        omega
  | case5 l c rest hpair ih =>
      have := l.depth_after_le c
      rw [List.length_cons]
      rcases List.mem_cons.1 h with rfl | h
      · omega
      · have := ih h
        omega

/-- The nesting of a text is at most its length. -/
theorem within_of_length_le (h : text.length ≤ limit) : within limit text = true := by
  refine within_iff.2 fun l hl => Nat.le_trans ?_ h
  rcases List.mem_cons.1 hl with rfl | hl
  · exact Nat.zero_le _
  · exact Nat.le_trans (depth_le_of_mem_visited hl) (Nat.le_of_eq (Nat.zero_add _))

/-! ### What the depth counts -/

/-- The depth is the number of open brackets and of open ternaries, those of all
brackets. -/
def Levels.Balanced (l : Levels) : Prop :=
  l.depth = l.outer.length + (l.inner + l.outer.foldr (· + ·) 0)

namespace Levels.Balanced

/-- A further bracket is counted. -/
theorem openBracket (h : l.Balanced) : l.openBracket.Balanced := by
  simp only [Balanced, Levels.openBracket, List.length_cons, List.foldr_cons] at h ⊢
  omega

/-- A further ternary is counted. -/
theorem openTernary (h : l.Balanced) : l.openTernary.Balanced := by
  simp only [Balanced, Levels.openTernary] at h ⊢
  omega

/-- A bracket that closes is no longer counted, nor are the ternaries in it. -/
theorem closeBracket (h : l.Balanced) : l.closeBracket.Balanced := by
  rw [Levels.closeBracket]
  split
  · next inner outer houter =>
    simp only [Balanced, houter, List.length_cons, List.foldr_cons] at h ⊢
    omega
  · exact h

/-- A comma takes the ternaries out of the count that it closes. -/
theorem comma (h : l.Balanced) : l.comma.Balanced := by
  simp only [Balanced, Levels.comma] at h ⊢
  omega

/-- Every character keeps the count right. -/
theorem after (h : l.Balanced) (c : Char) : (l.after c).Balanced := by
  rw [Levels.after]
  split
  · exact h.openBracket
  split
  · exact h.openTernary
  split
  · exact h.closeBracket
  split
  · exact h.comma
  · exact h

/-- Closing takes no more away than the depth counts. -/
theorem le_depth (h : l.Balanced) :
    l.inner ≤ l.depth ∧ (l.outer ≠ [] → l.inner + 1 ≤ l.depth) := by
  rw [Balanced] at h
  refine ⟨by omega, fun houter => ?_⟩
  have := List.length_pos_iff.2 houter
  omega

end Levels.Balanced

/-- The scan counts right at every character. -/
theorem balanced_of_mem_visited (hl : l.Balanced) {l' : Levels}
    (h : l' ∈ visited mode l text) :
    l'.Balanced := by
  fun_induction visited mode l text with
  | case1 => cases h
  | case2 mark l c rest ih => exact (List.mem_cons.1 h).elim (fun h => h ▸ hl) (ih hl)
  | case3 mark l c rest ih => exact (List.mem_cons.1 h).elim (fun h => h ▸ hl) (ih hl)
  | case4 l rest ih => exact (List.mem_cons.1 h).elim (fun h => h ▸ hl) (ih hl)
  | case5 l c rest hpair ih =>
      exact (List.mem_cons.1 h).elim (fun h => h ▸ hl.after c) (ih (hl.after c))

/-- **The depth counts what is open**, in every state of every scan. -/
theorem balanced_of_mem_states (h : l ∈ states text) : l.Balanced := by
  have hstart : Levels.start.Balanced := rfl
  exact (List.mem_cons.1 h).elim (fun h => h ▸ hstart) (balanced_of_mem_visited hstart)

end FormulaTable.Nesting

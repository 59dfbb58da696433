import FormulaTable.Proofs.Formula.Nesting
import FormulaTable.Proofs.Formula.Reading
import FormulaTable.Proofs.Program.Check

/-!
# The depth limit of a formula

A text is read with a limit, which bounds the nesting of the text and the depth of the
formula. With a lower limit the reader gives the same result or says that the nesting is too
deep, and nothing else; it says so exactly when the text or the formula exceeds the limit.

* `Grammar.resolve_lowers` — one formula with two limits, by induction on the formula.
* `Grammar.resolve_of_resolve` — what one limit allows, another one does exactly if the
  depth does.
* `Formula.depthExact` — the limit of the reader.
-/

namespace FormulaTable

/-! ### The depth of a formula while it is resolved -/

/-- A tree has a root. -/
theorem Tree.depth_pos {α : Type} (t : Tree α) : 0 < t.depth := by
  cases t <;> exact Nat.succ_pos _

/-- A constant is not refused for its depth. -/
theorem WrittenLiteral.resolve_ne_tooDeep (l : WrittenLiteral) :
    l.resolve ≠ .error .tooDeep := by
  -- The range check would be run on an unknown number when the constant is opened, so it is
  -- hidden before.
  obtain ⟨value, hvalue⟩ : ∃ value : List Char → Option Int64,
      ∀ ds, int64? (Decimal.digitsValue ds) = value ds := ⟨_, fun _ => rfl⟩
  rw [resolve.eq_def]
  simp only [hvalue]
  split
  · rintro ⟨⟩
  · split <;> rintro ⟨⟩

namespace Grammar

variable {limit limit' depth : Nat}

/-- A node below the lower limit is too deep; above it both limits go on. -/
theorem sameUnless_guard (hle : limit ≤ limit') {k k' : PUnit → Except SketchFault Formula}
    (h : SameUnless .tooDeep (k ⟨⟩) (k' ⟨⟩)) :
    SameUnless .tooDeep (if limit < depth then throw SketchFault.tooDeep >>= k else k ⟨⟩)
      (if limit' < depth then throw SketchFault.tooDeep >>= k' else k' ⟨⟩) := by
  by_cases hdepth : limit < depth
  · rw [if_pos hdepth]
    exact .inl rfl
  · rwa [if_neg hdepth, if_neg (by omega)]

/-- **A lower limit** makes a formula too deep, or makes no difference. -/
theorem resolve_lowers (hle : limit ≤ limit') (depth : Nat) (s : Sketch) :
    SameUnless .tooDeep (resolve limit depth s) (resolve limit' depth s) := by
  induction s using Tree.induction generalizing depth with
  | literal l =>
      rw [resolve, resolve]
      exact sameUnless_guard hle (.refl _)
  | column name =>
      rw [resolve, resolve]
      exact sameUnless_guard hle (.refl _)
  | unary op s ih =>
      rw [resolve, resolve]
      exact sameUnless_guard hle ((ih _).bind fun _ => .refl _)
  | binary op l r hl hr =>
      rw [resolve, resolve]
      exact sameUnless_guard hle ((hl _).bind fun _ => (hr _).bind fun _ => .refl _)
  | conditional c y n hc hy hn =>
      rw [resolve, resolve]
      exact sameUnless_guard hle
        ((hc _).bind fun _ => (hy _).bind fun _ => (hn _).bind fun _ => .refl _)
  | call name args ih =>
      rw [resolve, resolve, resolveAll_eq, resolveAll_eq]
      exact sameUnless_guard hle
        ((SameUnless.mapM fun s hs => ih s hs _).bind fun _ => .refl _)

/-- A formula that is resolved at some depth stays within the limit, and is as deep as what
was read. -/
theorem depth_of_resolve {s : Sketch} {f : Formula} (h : resolve limit depth s = .ok f) :
    f.depth = s.depth ∧ depth + s.depth ≤ limit + 1 := by
  induction s using Tree.induction generalizing depth f with
  | literal l =>
      rw [resolve, guard_eq_ok, bind_eq_ok] at h
      obtain ⟨hdepth, v, -, ⟨⟩⟩ := h
      exact ⟨rfl, Nat.succ_le_succ hdepth⟩
  | column name =>
      rw [resolve, guard_eq_ok] at h
      obtain ⟨hdepth, ⟨⟩⟩ := h
      exact ⟨rfl, Nat.succ_le_succ hdepth⟩
  | unary op s ih =>
      rw [resolve, guard_eq_ok, bind_eq_ok] at h
      obtain ⟨-, g, hg, ⟨⟩⟩ := h
      have := ih hg
      simp only [Tree.depth]
      omega
  | binary op l r hl hr =>
      rw [resolve, guard_eq_ok, bind_eq_ok] at h
      obtain ⟨-, fl, hfl, h⟩ := h
      obtain ⟨fr, hfr, ⟨⟩⟩ := bind_eq_ok.1 h
      have := hl hfl
      have := hr hfr
      simp only [Tree.depth]
      omega
  | conditional c y n hc hy hn =>
      rw [resolve, guard_eq_ok, bind_eq_ok] at h
      obtain ⟨-, fc, hfc, h⟩ := h
      obtain ⟨fy, hfy, h⟩ := bind_eq_ok.1 h
      obtain ⟨fn, hfn, ⟨⟩⟩ := bind_eq_ok.1 h
      have := hc hfc
      have := hy hfy
      have := hn hfn
      simp only [Tree.depth]
      omega
  | call name args ih =>
      rw [resolve, guard_eq_ok, bind_eq_ok, resolveAll_eq] at h
      obtain ⟨hdepth, fs, hfs, ⟨⟩⟩ := h
      have hall : List.Forall₂
          (fun s f => f.depth = s.depth ∧ depth + 1 + s.depth ≤ limit + 1) args fs :=
        List.forall₂_iff_get.2 ⟨(mapM_eq_ok.1 hfs).length_eq, fun i hi hi' =>
          ih _ (List.get_mem args ⟨i, hi⟩)
            ((List.forall₂_iff_get.1 (mapM_eq_ok.1 hfs)).2 i hi hi')⟩
      have hdepths : Tree.depthOfAll fs = Tree.depthOfAll args ∧
          depth + (Tree.depthOfAll args + 1) ≤ limit + 1 := by
        clear ih hfs
        induction hall with
        | nil => exact ⟨rfl, Nat.succ_le_succ hdepth⟩
        | cons hhead _ ih =>
            simp only [Tree.depthOfAll]
            omega
      simp only [Tree.depth]
      omega

/-- Behind a guard for the depth, a fault of depth is that of the guard or of what
follows. -/
theorem tooDeep_of_guard {k : PUnit → Except SketchFault Formula}
    (h : (if limit < depth then throw SketchFault.tooDeep >>= k else k ⟨⟩) =
        .error .tooDeep) :
    limit < depth ∨ k ⟨⟩ = .error .tooDeep := by
  split at h
  · next hdepth => exact .inl hdepth
  · exact .inr h

/-- What is too deep has a node below the limit. -/
theorem lt_depth_of_tooDeep {s : Sketch} (h : resolve limit depth s = .error .tooDeep) :
    limit + 1 < depth + s.depth := by
  have hpos : ∀ s : Sketch, 0 < s.depth := Tree.depth_pos
  induction s using Tree.induction generalizing depth with
  | literal l =>
      rw [resolve] at h
      rcases tooDeep_of_guard h with hdepth | h
      · exact Nat.succ_lt_succ hdepth
      rcases bind_eq_error.1 h with h | ⟨_, -, ⟨⟩⟩
      exact absurd h (WrittenLiteral.resolve_ne_tooDeep l)
  | column name =>
      rw [resolve] at h
      rcases tooDeep_of_guard h with hdepth | ⟨⟨⟩⟩
      exact Nat.succ_lt_succ hdepth
  | unary op s ih =>
      have := hpos s
      rw [resolve] at h
      simp only [Tree.depth]
      rcases tooDeep_of_guard h with hdepth | h
      · omega
      rcases bind_eq_error.1 h with h | ⟨_, -, ⟨⟩⟩
      have := ih h
      omega
  | binary op l r hl hr =>
      have := hpos l
      rw [resolve] at h
      simp only [Tree.depth]
      rcases tooDeep_of_guard h with hdepth | h
      · omega
      rcases bind_eq_error.1 h with h | ⟨_, -, h⟩
      · have := hl h
        omega
      rcases bind_eq_error.1 h with h | ⟨_, -, ⟨⟩⟩
      have := hr h
      omega
  | conditional c y n hc hy hn =>
      have := hpos c
      rw [resolve] at h
      simp only [Tree.depth]
      rcases tooDeep_of_guard h with hdepth | h
      · omega
      rcases bind_eq_error.1 h with h | ⟨_, -, h⟩
      · have := hc h
        omega
      rcases bind_eq_error.1 h with h | ⟨_, -, h⟩
      · have := hy h
        omega
      rcases bind_eq_error.1 h with h | ⟨_, -, ⟨⟩⟩
      have := hn h
      omega
  | call name args ih =>
      rw [resolve, resolveAll_eq] at h
      simp only [Tree.depth]
      rcases tooDeep_of_guard h with hdepth | h
      · omega
      rcases bind_eq_error.1 h with h | ⟨_, -, ⟨⟩⟩
      obtain ⟨s, hs, h⟩ := exists_of_mapM_eq_error h
      have := ih s hs h
      have := Tree.depthOfAll_le.1 (Nat.le_refl _) s hs
      omega

/-- **What is resolved with one limit** is resolved with another one exactly if it is not
too deep. -/
theorem resolve_of_resolve {s : Sketch} {f : Formula} {depth' : Nat}
    (h : resolve limit' depth' s = .ok f) :
    resolve limit depth s = .ok f ↔ depth + f.depth ≤ limit + 1 := by
  have hsame := (depth_of_resolve h).1
  constructor
  · intro h'
    have := (depth_of_resolve h').2
    omega
  · intro hdepth
    cases h' : resolve limit depth s with
    | ok g => rw [resolve_unique h h']
    | error e =>
        obtain rfl := tooDeep_of_resolve h h'
        have := lt_depth_of_tooDeep h'
        omega

end Grammar

/-! ### The check of a formula -/

namespace Formula

variable {env : Environment} {limit limit' depth : Nat}

/-- What is refused for its depth is below the limit. -/
theorem lt_of_checkDepth {e : Error} (h : checkDepth limit depth = .error e) :
    limit < depth := by
  rw [checkDepth] at h
  split at h
  · next hdepth => exact hdepth
  · cases h

/-- A call is not refused for its depth. -/
theorem checkCall_ne_tooDeep {name : String} {count reported : Nat} :
    checkCall env name count ≠ .error (.nestingTooDeep reported) := by
  rw [checkCall]
  split
  · rintro ⟨⟩
  · split <;> rintro ⟨⟩

/-- What the check refuses among several formulas, it refuses in one of them. -/
theorem exists_of_checkAllAt {ts : List Formula} {e : Error}
    (h : checkAllAt env limit depth ts = .error e) :
    ∃ t ∈ ts, checkAt env limit depth t = .error e := by
  induction ts with
  | nil => cases h
  | cons t ts ih =>
      rw [checkAllAt] at h
      rcases bind_eq_error.1 h with h | ⟨_, -, h⟩
      · obtain ⟨u, hu, h⟩ := ih h
        exact ⟨u, List.mem_cons_of_mem t hu, h⟩
      · exact ⟨t, List.mem_cons_self, h⟩

/-- The check says that a formula is too deep only if it has a node below the limit. -/
theorem lt_depth_of_checkAt {f : Formula} {reported : Nat}
    (h : checkAt env limit depth f = .error (.nestingTooDeep reported)) :
    limit + 1 < depth + f.depth := by
  have hpos : ∀ f : Formula, 0 < f.depth := Tree.depth_pos
  induction f using Tree.induction generalizing depth with
  | literal l => exact Nat.succ_lt_succ (lt_of_checkDepth h)
  | column name => exact Nat.succ_lt_succ (lt_of_checkDepth h)
  | unary op t ih =>
      have := hpos t
      rw [checkAt] at h
      simp only [Tree.depth]
      rcases bind_eq_error.1 h with h | ⟨_, -, h⟩
      · have := lt_of_checkDepth h
        omega
      · have := ih h
        omega
  | binary op l r hl hr =>
      have := hpos l
      rw [checkAt] at h
      simp only [Tree.depth]
      rcases bind_eq_error.1 h with h | ⟨_, -, h⟩
      · have := lt_of_checkDepth h
        omega
      rcases bind_eq_error.1 h with h | ⟨_, -, h⟩
      · have := hr h
        omega
      · have := hl h
        omega
  | conditional c y n hc hy hn =>
      have := hpos c
      rw [checkAt] at h
      simp only [Tree.depth]
      rcases bind_eq_error.1 h with h | ⟨_, -, h⟩
      · have := lt_of_checkDepth h
        omega
      rcases bind_eq_error.1 h with h | ⟨_, -, h⟩
      · have := hn h
        omega
      rcases bind_eq_error.1 h with h | ⟨_, -, h⟩
      · have := hy h
        omega
      · have := hc h
        omega
  | call name args ih =>
      rw [checkAt] at h
      simp only [Tree.depth]
      rcases bind_eq_error.1 h with h | ⟨_, -, h⟩
      · have := lt_of_checkDepth h
        omega
      rcases bind_eq_error.1 h with h | ⟨_, -, h⟩
      · exact absurd h checkCall_ne_tooDeep
      · obtain ⟨t, ht, h⟩ := exists_of_checkAllAt h
        have := ih t ht h
        have := Tree.depthOfAll_le.1 (Nat.le_refl _) t ht
        omega

end Formula

/-! ### The limit of the reader -/

namespace Formula

/-- What the limit of the reader does to a text. -/
structure DepthExact (text : String) : Prop where
  /-- A lower limit gives the same result, or says that the nesting is too deep for it. -/
  lower : ∀ limit limit', limit ≤ limit' →
    parse limit text = parse limit' text ∨ parse limit text = .error (.nestingTooDeep limit)
  /-- What a limit allows, a lower one allows exactly if neither the text nor the formula
  exceeds it. -/
  exact : ∀ limit limit' f, limit ≤ limit' → parse limit' text = .ok f →
    (parse limit text = .ok f ↔ Nesting.within limit text.toList = true ∧ f.depth ≤ limit)
  /-- The result is no deeper than the limit. -/
  depth_le : ∀ limit f, parse limit text = .ok f → f.depth ≤ limit
  /-- The check that comes after the reader does not find the result too deep for the same
  limit. -/
  check : ∀ limit f, parse limit text = .ok f → ∀ env reported,
    f.check env limit ≠ .error (.nestingTooDeep reported)

/-- A text that the scan does not accept is nested too deeply. -/
theorem parse_of_not_within {limit : Nat} {text : String}
    (h : Nesting.within limit text.toList = false) :
    parse limit text = .error (.nestingTooDeep limit) := by
  rw [parse, parseChars, h]
  rfl

/-- Once the nesting is accepted, the limit matters only while the formula is resolved. -/
theorem parse_lowers {limit limit' : Nat} {text : String} (hle : limit ≤ limit') :
    parse limit text = parse limit' text ∨
      parse limit text = .error (.nestingTooDeep limit) := by
  cases hwithin : Nesting.within limit text.toList with
  | false => exact .inr (parse_of_not_within hwithin)
  | true =>
      have hwithin' := Nesting.within_of_le hle hwithin
      simp only [parse, parseChars, hwithin, hwithin', Bool.not_true,
        Bool.false_eq_true, if_false]
      cases Grammar.read ((Token.lexemes text.toList).map (·.token)) with
      | error stop =>
          cases stop with
          | stuck remaining => exact .inl rfl
          | overBudget => exact .inr rfl
      | ok sketch =>
          dsimp only
          rcases Grammar.resolve_lowers hle 1 sketch with h | h
          · rw [h]
            exact .inr rfl
          · rw [← h]
            cases Grammar.resolve limit 1 sketch with
            | ok f => exact .inl rfl
            | error fault =>
                cases fault with
                | tooDeep => exact .inr rfl
                | integerOutOfRange digits => exact .inl rfl

/-- A formula that is read is no deeper than the limit. -/
theorem depth_le_of_parse {limit : Nat} {text : String} {f : Formula}
    (h : parse limit text = .ok f) :
    f.depth ≤ limit := by
  obtain ⟨-, sketch, -, hresolve⟩ := parse_eq_ok.1 h
  have := Grammar.depth_of_resolve hresolve
  omega

/-- **The depth limit is exact**, and adds one kind of error only. -/
theorem depthExact (text : String) : DepthExact text where
  lower limit limit' hle := parse_lowers hle
  exact limit limit' f hle h := by
    obtain ⟨-, sketch, hread, hresolve⟩ := parse_eq_ok.1 h
    rw [parse_eq_ok]
    refine and_congr_right fun _ => ?_
    simp only [hread, Except.ok.injEq, exists_eq_left']
    rw [Grammar.resolve_of_resolve hresolve]
    omega
  depth_le limit f h := depth_le_of_parse h
  check limit f h env reported hcheck := by
    have := lt_depth_of_checkAt hcheck
    have := depth_le_of_parse h
    omega

end Formula

end FormulaTable

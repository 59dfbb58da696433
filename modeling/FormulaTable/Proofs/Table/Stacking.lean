import FormulaTable.Proofs.Dependency.Appending
import FormulaTable.Proofs.Table.Flattening
import FormulaTable.Proofs.Table.InPlace
import FormulaTable.Proofs.Table.ReadPaths

/-!
# Stacks and flat tables

Columns can be added to one computed table, or block by block, each block to a computed
table over the one before. Nobody who reads the tables can tell which was done: a column
that is added in a lower table is shown by all above it, and what is computed from it there
is what would be computed in one table. Neither can who adds the columns: whether a column
is accepted, and what is wrong with it, depends on the names that are there. Reads in
between, and requests to keep or forget results, make no difference on any level.

* `ComputedTable.on_addInPlace_eq` — what comes of adding a column, by the names that are
  there.
* `Stack.Built` — the tables that calls lead to, flat or in levels, with the answers to the
  calls.
* `Stack.Built.levelled` — each of them shows what the flat table with the same columns
  shows.
* `Stack.Built.same` — any two of them gave the same answers, and show the same.
-/

namespace FormulaTable

open Access

/-! ### Answers to calls -/

namespace ComputedTable

variable {σ : Type} {t : ComputedTable σ}

/-- The answer to a call that adds a computed column behind columns of the given names. -/
def answer (names : List String) (name : String) (x : Computation) : Except Error Nat :=
  if Text.isBlankText name then .error (.invalidDefinition .blankName)
  else
    match Graph.faultOf? names name x.inputs with
    | some e => .error e
    | none => .ok names.length

/-- A call that is accepted has no fault in its graph. -/
theorem faultOf?_of_answer_eq_ok {names : List String} {name : String} {x : Computation}
    {n : Nat} (h : answer names name x = .ok n) :
    Graph.faultOf? names name x.inputs = none := by
  rw [answer] at h
  split at h
  case isTrue => cases h
  case isFalse =>
    cases hfault : Graph.faultOf? names name x.inputs with
    | none => rfl
    | some e =>
        rw [hfault] at h
        cases h

/-- **Adding a column** gives the answer that follows from the names. If that is an error,
the table stays as it was. -/
theorem on_addInPlace_eq (ht : t.graph.Describes t.columns) (name : String)
    (x : Computation) :
    match answer (t.columns.map (·.name)) name x with
    | .error e => (addInPlace name x).on t = (.error e, t)
    | .ok n => ∃ g : Graph, g.Describes (t.columns ++ [.computed name x]) ∧
        (addInPlace name x).on t = (.ok n, t.appended (.computed name x) g) := by
  have hbuild := Graph.build_append_eq ht (c := .computed name x)
  have hfault : Graph.faultOf? (t.columns.map (·.name)) (Column.computed name x).name
      (Column.computed name x).dependencies =
          Graph.faultOf? (t.columns.map (·.name)) name x.inputs := rfl
  rw [hfault] at hbuild
  rw [answer, on_addInPlace]
  cases hblank : Text.isBlankText name with
  | true =>
      have hadd : t.addColumn name x = .error (.invalidDefinition .blankName) := by
        rw [addColumn, Column.define, hblank]
        rfl
      rw [if_pos rfl, hadd]
  | false =>
      rw [if_neg Bool.false_ne_true]
      cases hnames : Graph.faultOf? (t.columns.map (·.name)) name x.inputs with
      | some e =>
          rw [hnames] at hbuild
          have hadd : t.addColumn name x = .error e := by
            rw [addColumn, Column.define_computed_eq_ok.2 ⟨hblank, rfl⟩]
            show (t.install (t.columns ++ [Column.computed name x]) >>= _) = _
            rw [install, hbuild]
            rfl
          simp only [hadd]
      | none =>
          rw [hnames] at hbuild
          obtain ⟨g, hg⟩ := hbuild
          refine ⟨g, hg, ?_⟩
          rw [addColumn_eq_ok.2 ⟨hblank, rfl, g, hg, rfl⟩, List.length_map]

/-- The columns of a flat table after a call, and the answers so far. -/
def answerNext (state : List Column × List (Except Error Nat))
    (call : String × Computation) :
    List Column × List (Except Error Nat) :=
  let result := answer (state.1.map (·.name)) call.1 call.2
  (match result with
    | .ok _ => state.1 ++ [.computed call.1 call.2]
    | .error _ => state.1,
    state.2 ++ [result])

/-- The columns of a flat table after some calls, and the answers. -/
def answers (columns : List Column) (calls : List (String × Computation)) :
    List Column × List (Except Error Nat) :=
  calls.foldl answerNext (columns, [])

end ComputedTable

/-! ### Columns over a view of columns -/

/-- The columns of a table over a view, and the columns of a flat table over the base of
that view: there is nothing in between, or there are columns of which the table shows the
results. -/
inductive View.Over (base : View) : View → List Column → List Column → Prop
  | bottom {columns : List Column} : Over base base columns columns
  | above {columns more : List Column} {g : Graph} : g.Describes columns →
      (∀ c ∈ more, c.source? = none) →
      Over base (base.computed columns)
        (storedColumns (base.computed columns).schema ++ more) (columns ++ more)

namespace View.Over

variable {base v : View} {columns flat : List Column} (h : Over base v columns flat)

include h

/-- The columns of both are of the same names. -/
theorem map_name_eq : columns.map (·.name) = flat.map (·.name) := by
  cases h with
  | bottom => rfl
  | @above columns more =>
      rw [List.map_append, List.map_append, map_name_storedColumns]
      exact congrArg (· ++ _) (Stack.map_name_computed base columns)

/-- A computed column may be put on top of both. -/
theorem append {c : Column} (hc : c.source? = none) :
    Over base v (columns ++ [c]) (flat ++ [c]) := by
  cases h with
  | bottom => exact .bottom
  | above hg hmore =>
      rw [List.append_assoc, List.append_assoc]
      exact .above hg (List.forall_mem_append.2 ⟨hmore, List.forall_mem_singleton.2 hc⟩)

/-- What is shown is the same. -/
theorem computed_eq {g gFlat : Graph} (hg : g.Describes columns)
    (hflat : gFlat.Describes flat) :
    v.computed columns = base.computed flat := by
  cases h with
  | bottom => rfl
  | above hlower hmore => exact computed_stored_append hlower hflat hg hmore

omit h in
/-- A further level, with nothing added to it. -/
theorem level {g : Graph} (hg : g.Describes flat) :
    Over base (base.computed flat) (storedColumns (base.computed flat).schema) flat := by
  have h : Over base (base.computed flat) (_ ++ []) (flat ++ []) :=
    .above hg (List.forall_mem_nil _)
  rwa [List.append_nil, List.append_nil] at h

end View.Over

/-! ### Tables in levels -/

/-- The name and kind of a column are those of the schema. -/
theorem Tabular.columnAt_congr {σ τ : Type} [Tabular σ] [Tabular τ] {s : σ} {t : τ}
    (h : schema s = schema t) (column : Nat) : columnAt s column = columnAt t column := by
  rw [columnAt, columnAt, columnCount, columnCount, h]

namespace Stack

/-- The tables that calls to add columns lead to, with the answers to the calls. Before any
call, and between them, the table may be put under another one, to which the further calls
go; and results may be read, kept and forgotten on every level. The number is that of the
computed tables below. -/
inductive Built (s : BaseTable) :
    (n : Nat) → ComputedTable (Stack n) → List (String × Computation) →
    List (Except Error Nat) → Prop
  | first {t : ComputedTable (Stack 0)} (registry : Registry) (config : Config)
      (create : ComputedTable.create (σ := Stack 0) s registry config = .ok t) :
        Built s 0 t [] []
  | level {n : Nat} {t : ComputedTable (Stack n)} {calls : List (String × Computation)}
      {results : List (Except Error Nat)} {u : ComputedTable (Stack (n + 1))}
        (registry : Registry)
      (config : Config) (before : Built s n t calls results)
      (create : ComputedTable.create (σ := Stack (n + 1)) t registry config = .ok u) :
      Built s (n + 1) u calls results
  | call {n : Nat} {t : ComputedTable (Stack n)} {calls : List (String × Computation)}
      {results : List (Except Error Nat)} (name : String) (x : Computation)
          (before : Built s n t calls results) :
      Built s n ((ComputedTable.addInPlace name x).on t).2 (calls ++ [(name, x)])
        (results ++ [((ComputedTable.addInPlace name x).on t).1])
  | use {n : Nat} {t : ComputedTable (Stack n)} {calls : List (String × Computation)}
      {results : List (Except Error Nat)} (depth : Nat) {op : Operation}
        (noEdit : ∀ e, op ≠ .edit e)
      (before : Built s n t calls results) :
        Built s n (perform (n + 1) depth op t) calls results

/-- The top of the stack displays what the flat columns show over the base. -/
def Levelled (s : BaseTable) (n : Nat) (t : ComputedTable (Stack n)) (flat : List Column) :
    Prop :=
  ∃ P v, Displays n P v ∧ t.Faithful P v ∧ View.Over s.view v t.columns flat ∧ ∃ g : Graph,
    g.Describes flat

variable {s : BaseTable} {n : Nat} {t : ComputedTable (Stack n)} {flat : List Column}

namespace Levelled

/-- It displays that as one more layer, over which others can be put. -/
theorem displays (h : Levelled s n t flat) :
    ∃ P, Displays (n + 1) P (s.view.computed flat) ∧ P t := by
  obtain ⟨P, v, hdisplays, ht, hover, g, hg⟩ := h
  refine ⟨ComputedTable.ReadyFor P v t.columns, ?_, ht, rfl⟩
  rw [← hover.computed_eq ht.wellFormed.describes hg]
  exact hdisplays.layer ht

/-- A stack of one table is flattened to its columns. -/
theorem first (hs : s.Typed) {t : ComputedTable (Stack 0)} {registry : Registry}
    {config : Config} (h : ComputedTable.create (σ := Stack 0) s registry config = .ok t) :
    Levelled s 0 t (ComputedTable.sourceColumns (σ := Stack 0) s) := by
  have hdescribes := (ComputedTable.wellFormed_of_create h).describes
  have hcolumns := ComputedTable.columns_of_create h
  rw [hcolumns] at hdescribes
  have hnames : ((Tabular.schema s).map (·.1)).Nodup :=
    ComputedTable.map_name_sourceColumns (σ := Stack 0) s ▸ hdescribes.nodup
  have hdisplays := displays_base hs hnames
  refine ⟨_, _, hdisplays, ComputedTable.faithful_of_create hdisplays.shows rfl h, ?_,
    _, hdescribes⟩
  rw [hcolumns]
  exact .bottom

/-- A further table on a stack is flattened to the same columns. -/
theorem level (h : Levelled s n t flat) {u : ComputedTable (Stack (n + 1))}
    {registry : Registry} {config : Config}
    (hcreate : ComputedTable.create (σ := Stack (n + 1)) t registry config = .ok u) :
    Levelled s (n + 1) u flat := by
  obtain ⟨P, hdisplays, ht⟩ := h.displays
  obtain ⟨-, -, -, -, -, g, hg⟩ := h
  refine ⟨P, _, hdisplays,
    ComputedTable.faithful_of_create hdisplays.shows ht hcreate, ?_, g, hg⟩
  rw [ComputedTable.columns_of_create hcreate]
  show View.Over _ _ (storedColumns (Tabular.schema (σ := Stack (n + 1)) t)) flat
  rw [hdisplays.shows.schema_eq t ht]
  exact .level hg

/-- A further level can always be put over it. -/
theorem exists_create_eq_ok (h : Levelled s n t flat) (registry : Registry)
    {config : Config} (hconfig : config.validate = .ok ()) :
    ∃ u, ComputedTable.create (σ := Stack (n + 1)) t registry config = .ok u := by
  obtain ⟨P, hdisplays, ht⟩ := h.displays
  refine ComputedTable.exists_create_eq_ok ?_ hconfig
  rw [hdisplays.shows.schema_eq t ht]
  exact hdisplays.nodup

/-- A call does to the flat columns what it does to the table. -/
theorem call (h : Levelled s n t flat) (name : String) (x : Computation) :
    Levelled s n ((ComputedTable.addInPlace name x).on t).2
        (match ComputedTable.answer (flat.map (·.name)) name x with
          | .ok _ => flat ++ [.computed name x]
          | .error _ => flat) ∧
      ((ComputedTable.addInPlace name x).on t).1 = ComputedTable.answer
        (flat.map (·.name)) name x := by
  obtain ⟨P, v, hdisplays, ht, hover, g, hg⟩ := h
  have hadd := ComputedTable.on_addInPlace_eq ht.wellFormed.describes name x
  rw [hover.map_name_eq] at hadd
  cases hanswer : ComputedTable.answer (flat.map (·.name)) name x with
  | error e =>
      rw [hanswer] at hadd
      rw [hadd]
      exact ⟨⟨P, v, hdisplays, ht, hover, g, hg⟩, rfl⟩
  | ok k =>
      rw [hanswer] at hadd
      obtain ⟨g', hg', hadd⟩ := hadd
      rw [hadd]
      refine ⟨⟨P, v, hdisplays, ht.edited (.added _ g' rfl hg'), ?_, ?_⟩, rfl⟩
      · rw [ComputedTable.columns_appended]
        exact hover.append rfl
      · have hbuild := Graph.build_append_eq hg (c := .computed name x)
        have hfault : Graph.faultOf? (flat.map (·.name)) (Column.computed name x).name
            (Column.computed name x).dependencies = none :=
              ComputedTable.faultOf?_of_answer_eq_ok hanswer
        rwa [hfault] at hbuild

/-- Operations other than edits leave a flattened stack as it is. -/
theorem use (h : Levelled s n t flat) (depth : Nat) {op : Operation}
    (hop : ∀ e, op ≠ .edit e) :
    Levelled s n (perform (n + 1) depth op t) flat := by
  obtain ⟨P, v, hdisplays, ht, hover, hg⟩ := h
  obtain ⟨ht', hcolumns⟩ := (hdisplays.layer ht).perform t ⟨ht, rfl⟩ depth op hop
  exact ⟨P, v, hdisplays, ht', hcolumns ▸ hover, hg⟩

end Levelled

/-- **Every table that calls lead to** shows what the flat table with the same columns
shows, and the answers are those of the flat table. -/
theorem Built.levelled (hs : s.Typed) {calls : List (String × Computation)}
    {results : List (Except Error Nat)} (h : Built s n t calls results) :
    Levelled s n t (ComputedTable.answers (ComputedTable.sourceColumns s) calls).1 ∧
      results = (ComputedTable.answers (ComputedTable.sourceColumns s) calls).2 := by
  induction h with
  | first registry config hcreate => exact ⟨.first hs hcreate, rfl⟩
  | level registry config _ hcreate ih => exact ⟨ih.1.level hcreate, ih.2⟩
  | call name x _ ih =>
      obtain ⟨hlevelled, rfl⟩ := ih
      obtain ⟨hnext, hanswer⟩ := hlevelled.call name x
      rw [ComputedTable.answers, List.foldl_concat, ← ComputedTable.answers, hanswer]
      exact ⟨hnext, rfl⟩
  | use depth noEdit _ ih => exact ⟨ih.1.use depth noEdit, ih.2⟩

/-! ### The same to all who read -/

/-- Two stacks show the same. -/
structure SameReads {n m : Nat} (s : Stack n) (t : Stack m) : Prop where
  rowCount : Tabular.rowCount s = Tabular.rowCount t
  columnCount : Tabular.columnCount s = Tabular.columnCount t
  columnName : ∀ column, Tabular.columnName s column = Tabular.columnName t column
  columnKind : ∀ column, Tabular.columnKind s column = Tabular.columnKind t column
  position : ∀ name, position? n s name = position? m t name
  /-- The values, their texts and the messages, and the errors where there is no cell. -/
  cell : ∀ row column, ((Tabular.readCell row column).on s).1 =
    ((Tabular.readCell row column).on t).1
  series : ∀ column, ((Tabular.readColumn column).on s).1 =
    ((Tabular.readColumn column).on t).1

/-- The position of a name is that among the names of the columns. -/
theorem Levelled.position?_eq (h : Levelled s n t flat) (name : String) :
    position? (n + 1) t name = (flat.map (·.name)).idxOf? name := by
  obtain ⟨P, v, -, ht, hover, -⟩ := h
  show t.graph.names.idxOf? name = _
  rw [ht.wellFormed.describes.names_eq, hover.map_name_eq]

/-- Stacks that display the same columns over the same base show the same. -/
theorem Levelled.sameReads {m : Nat} {t' : ComputedTable (Stack m)}
    (h : Levelled s n t flat) (h' : Levelled s m t' flat) :
    SameReads (n := n + 1) (m := m + 1) t t' := by
  obtain ⟨P, hdisplays, ht⟩ := h.displays
  obtain ⟨P', hdisplays', ht'⟩ := h'.displays
  have hschema : Tabular.schema (σ := Stack (n + 1)) t =
      Tabular.schema (σ := Stack (m + 1)) t' :=
    (hdisplays.shows.schema_eq t ht).trans (hdisplays'.shows.schema_eq t' ht').symm
  have hcolumn := Tabular.columnAt_congr hschema
  constructor
  · exact (hdisplays.shows.rowCount_eq t ht).trans
      (hdisplays'.shows.rowCount_eq t' ht').symm
  · exact congrArg List.length hschema
  · exact fun column => congrArg (Except.map _) (hcolumn column)
  · exact fun column => congrArg (Except.map _) (hcolumn column)
  · exact fun name => (h.position?_eq name).trans (h'.position?_eq name).symm
  · exact fun row column => (hdisplays.shows.readCell_eq t ht row column).trans
      (hdisplays'.shows.readCell_eq t' ht' row column).symm
  · exact fun column => (hdisplays.shows.readColumn_eq t ht column).trans
      (hdisplays'.shows.readColumn_eq t' ht' column).symm

/-- **Stacking is flattening**: if the same calls are made on a flat table and level by
level, or in levels that are cut in different ways, they get the same answers, and in the
end both tables show the same, whatever was read, kept or forgotten on any level. A further
level can be put over each of them. -/
theorem Built.same (hs : s.Typed) {m : Nat} {t' : ComputedTable (Stack m)}
    {calls : List (String × Computation)} {results results' : List (Except Error Nat)}
    (h : Built s n t calls results) (h' : Built s m t' calls results') :
    results = results' ∧ SameReads (n := n + 1) (m := m + 1) t t' ∧
      ∀ (registry : Registry) (config : Config), config.validate = .ok () →
        ∃ u, ComputedTable.create (σ := Stack (n + 1)) t registry config = .ok u := by
  obtain ⟨hlevelled, rfl⟩ := h.levelled hs
  obtain ⟨hlevelled', rfl⟩ := h'.levelled hs
  exact ⟨rfl, hlevelled.sameReads hlevelled', fun registry _ hconfig =>
    hlevelled.exists_create_eq_ok registry hconfig⟩

/-- Calls over a table with one column: the first new column fails in every row, the next
one reads it, and two more are refused. -/
def callsOver : List (String × Computation) :=
  [("b", .applied .mod "a" 0 .standard), ("c", .applied .add "b" 1 .standard),
    ("c", .applied .add "a" 1 .standard), ("d", .applied .add "e" 1 .standard)]

/-- One table that is read after the first call, and two levels, of which the lower one
keeps the first new column for a while. -/
theorem Built.same_callsOver : BaseTable.singleColumn.Typed ∧
    ∃ (t : ComputedTable (Stack 0)) (t' : ComputedTable (Stack 1))
        (results : List (Except Error Nat)),
      results = [.ok 1, .ok 2, .error (.duplicateColumn "c"), .error (.unknownColumn "e")] ∧
      Built .singleColumn 0 t callsOver results ∧
      Built .singleColumn 1 t' callsOver results ∧ SameReads (n := 1) (m := 2) t t' := by
  have hs : BaseTable.singleColumn.Typed := trivial
  have hread : ∀ e, Operation.readCell 0 1 ≠ .edit e := fun _ h => nomatch h
  have hkeep : ∀ e, Operation.materializeAll ≠ .edit e := fun _ h => nomatch h
  have hforget : ∀ e, Operation.release ≠ .edit e := fun _ h => nomatch h
  have hfirst : Built .singleColumn 0 (ComputedTable.singleColumn .standard) [] [] :=
    .first .standard .standard (ComputedTable.create_singleColumn rfl)
  have hlower := (hfirst.call "b" (.applied .mod "a" 0 .standard)).use 0 hkeep
  obtain ⟨u, hu⟩ := (hlower.same hs hlower).2.2 .standard .standard rfl
  have hflat := ((((hfirst.call "b" (.applied .mod "a" 0 .standard)).use 0 hread).call "c"
    (.applied .add "b" 1 .standard)).call "c" (.applied .add "a" 1 .standard)).call "d"
    (.applied .add "e" 1 .standard)
  have hstacked := (((((hlower.level .standard .standard hu).call "c"
      (.applied .add "b" 1 .standard)).use 1
    hforget).call "c" (.applied .add "a" 1 .standard)).use 0 hread).call "d"
      (.applied .add "e" 1 .standard)
  obtain ⟨hresults, hsame, -⟩ := hflat.same hs hstacked
  exact ⟨hs, _, _, _, (hflat.levelled hs).2, hflat, hresults ▸ hstacked, hsame⟩

end Stack

end FormulaTable

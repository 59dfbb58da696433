import FormulaTable.Function.Standard
import FormulaTable.Program.Callable
import FormulaTable.Proofs.Result
import FormulaTable.Series.Builder

/-!
# Functions row by row

A registered function works on whole columns, but a formula calls it for one row: with a
column of one element, and not at all when the value is null. For the standard functions
that formulas may call this makes no difference. Each of them has an image for every element
that is present, or fails the column; missing elements stay missing, and no element has any
influence on the image of another one.

* `Pointwise` — a function that makes of a column what it makes of the elements one by one.
* `Pointwise.rowByRow` — such a function gives on a column what it gives on the values of
  its rows.
* `pointwise_math`, `pointwise_negate`, `pointwise_text`, `pointwise_length`,
  `pointwise_cast` — the standard functions are pointwise on the columns that they accept.
* `rowByRow_standard` — both together.
-/

namespace FormulaTable

/-- Where each member of a list is related to something, the members are related to a
list. -/
theorem exists_forall₂ {α β : Type} {R : α → β → Prop} {as : List α}
    (h : ∀ a ∈ as, ∃ b, R a b) :
    ∃ bs, List.Forall₂ R as bs := by
  induction as with
  | nil => exact ⟨[], .nil⟩
  | cons a as ih =>
      obtain ⟨b, hb⟩ := h a List.mem_cons_self
      obtain ⟨bs, hbs⟩ := ih fun a' ha' => h a' (List.mem_cons_of_mem a ha')
      exact ⟨b :: bs, .cons hb hbs⟩

/-! ### Values of elements -/

/-- A value that is read from an element is not null. -/
theorem ElementType.ne_null_of_read? {t : ElementType} {x : t.Carrier} {v : Value}
    (h : t.read? x = some v) :
    v ≠ .null := by
  rintro rfl
  cases t <;> simp [read?] at h

/-- Every element of a column of a kind can be read. -/
theorem Kind.exists_read?_eq_some (k : Kind) (x : k.elementType.Carrier) :
    ∃ v, k.elementType.read? x = some v := by
  cases k <;> exact ⟨_, rfl⟩

/-- Columns of every kind can be read. -/
theorem Kind.isReadable_elementType (k : Kind) : k.elementType.isReadable :=
  ElementType.isReadable_of_kind? (ElementType.kind?_elementType k)

/-- The value of an element makes a column of the type of the element. -/
theorem Value.toSeries_of_read? {k : Kind} {x : k.elementType.Carrier} {v : Value}
    (h : k.elementType.read? x = some v) : v.toSeries = .ofCells k #[some x] := by
  cases k <;> cases h <;> rfl

namespace Series

variable {s : Series} {i : Nat}

/-- A missing element is read as null. -/
theorem value?_of_none (hreadable : s.type.isReadable) (h : s.cells[i]? = some none) :
    s.value? i = some .null := by
  rw [value?, if_pos hreadable, h]

/-- An element that is there is read as its value. -/
theorem value?_of_some (hreadable : s.type.isReadable) {x : s.type.Carrier}
    (h : s.cells[i]? = some (some x)) :
    s.value? i = s.type.read? x := by
  rw [value?, if_pos hreadable, h]

end Series

namespace SeriesFunction

/-! ### Element by element -/

/-- A function that makes of a column of a kind what it makes of the elements one by one: a
column of the type `result`, with an image for each element that is present. It fails if one
of them has none. -/
structure Pointwise (f : SeriesFunction) (k : Kind) (result : ElementType)
    (Image : k.elementType.Carrier → result.Carrier → Prop) : Prop where
  isReadable : result.isReadable
  exists_read?_eq_some : ∀ y : result.Carrier, ∃ w, result.read? y = some w
  run_eq_ok : ∀ (cells : Array (Option k.elementType.Carrier)) (r : Series),
    f.run [.ofCells k cells] = .ok r ↔
    ∃ images, List.Forall₂ (Option.Rel Image) cells.toList images ∧
      r = ⟨result, images.toArray⟩

/-- What a function makes of a column is what it makes of the values of its rows. -/
structure RowByRow (f : SeriesFunction) (s : Series) : Prop where
  succeeds_iff : (∃ r, f.run [s] = .ok r) ↔ ∀ i < s.size, ∃ v w, s.value? i = some v ∧
    f.onRow [v] = .ok w
  size_eq : ∀ r, f.run [s] = .ok r → r.size = s.size
  /-- Each value of the result is that of its row, and null exactly where the column is. -/
  value_eq : ∀ r, f.run [s] = .ok r → ∀ i < s.size, ∃ v w, s.value? i = some v ∧
    f.onRow [v] = .ok w ∧ r.value? i = some w ∧ (w = .null ↔ v = .null)

/-- The value of a function is the one in the first row of its result. -/
theorem firstValue_eq_ok (f : SeriesFunction) {r : Series} {w : Value} (hsize : r.size ≠ 0)
    (hw : r.value? 0 = some w) : f.firstValue r = .ok w := by
  rw [firstValue, if_neg hsize, hw]

/-- On null a function is not called. -/
theorem onRow_null (f : SeriesFunction) : f.onRow [.null] = .ok .null := rfl

/-- On any other value the function is called with a column of one element. -/
theorem onRow_of_read? {f : SeriesFunction} {k : Kind}
    (haccept : f.accept [k.elementType] = .ok ()) {x : k.elementType.Carrier} {v : Value}
    (hv : k.elementType.read? x = some v) :
    f.onRow [v] = f.rowFailure (f.run [.ofCells k #[some x]]) >>= f.firstValue := by
  have hnull : [v].any Value.isNull = false := by
    have hne := ElementType.ne_null_of_read? hv
    cases v <;> first | rfl | exact absurd rfl hne
  rw [onRow, if_neg (by rw [hnull]; exact Bool.false_ne_true), List.map_singleton,
    Value.toSeries_of_read? hv]
  show (f.rowFailure (f.accept [k.elementType]) >>= _) = _
  rw [haccept]
  rfl

namespace Pointwise

variable {f : SeriesFunction} {k : Kind} {result : ElementType}
  {Image : k.elementType.Carrier → result.Carrier → Prop} (h : f.Pointwise k result Image)

include h

/-- A result of one element has its value. -/
theorem firstValue_singleton {y : result.Carrier} {w : Value} :
    f.firstValue ⟨result, [some y].toArray⟩ = .ok w ↔ result.read? y = some w := by
  obtain ⟨w', hw'⟩ := h.exists_read?_eq_some y
  have hvalue : Series.value? ⟨result, [some y].toArray⟩ 0 = some w' :=
    (Series.value?_of_some h.isReadable rfl).trans hw'
  have hsize : Series.size ⟨result, [some y].toArray⟩ ≠ 0 := Nat.one_ne_zero
  rw [f.firstValue_eq_ok hsize hvalue, hw', Except.ok.injEq, Option.some.injEq]

variable (haccept : f.accept [k.elementType] = .ok ())

include haccept

/-- **One row**: the value of the image, if there is one. -/
theorem onRow_eq_ok {x : k.elementType.Carrier} {v w : Value}
    (hv : k.elementType.read? x = some v) :
    f.onRow [v] = .ok w ↔ ∃ y, Image x y ∧ result.read? y = some w := by
  rw [onRow_of_read? haccept hv, bind_eq_ok]
  constructor
  · rintro ⟨r, hr, hw⟩
    cases hf : f.run [.ofCells k #[some x]] with
    | error e =>
        rw [hf] at hr
        cases hr
    | ok r' =>
        rw [hf] at hr
        cases hr
        obtain ⟨images, himages, rfl⟩ := (h.run_eq_ok _ _).1 hf
        cases himages with
        | cons hxy hnil =>
            cases hnil
            cases hxy with
            | some hxy => exact ⟨_, hxy, h.firstValue_singleton.1 hw⟩
  · rintro ⟨y, hxy, hw⟩
    refine ⟨⟨result, [some y].toArray⟩, ?_, h.firstValue_singleton.2 hw⟩
    rw [(h.run_eq_ok #[some x] _).2 ⟨[some y], .cons (.some hxy) .nil, rfl⟩]
    rfl

/-- The value of a row is that of the image of its element, and null where the element is
missing. -/
theorem exists_onRow_eq_ok {cells : Array (Option k.elementType.Carrier)} {i : Nat}
    {cell : Option k.elementType.Carrier} (hcell : cells[i]? = some cell)
    {image : Option result.Carrier} (himage : Option.Rel Image cell image)
    {images : List (Option result.Carrier)} (hi : images[i]? = some image) :
    ∃ v w, (Series.ofCells k cells).value? i = some v ∧ f.onRow [v] = .ok w ∧
      Series.value? ⟨result, images.toArray⟩ i = some w ∧ (w = .null ↔ v = .null) := by
  have hget : (images.toArray)[i]? = some image := List.getElem?_toArray.trans hi
  cases himage with
  | none =>
      exact ⟨.null, .null, Series.value?_of_none k.isReadable_elementType hcell,
        f.onRow_null, Series.value?_of_none h.isReadable hget, Iff.rfl⟩
  | @some x y hxy =>
      obtain ⟨v, hv⟩ := k.exists_read?_eq_some x
      obtain ⟨w, hw⟩ := h.exists_read?_eq_some y
      refine ⟨v, w, (Series.value?_of_some k.isReadable_elementType hcell).trans hv,
        (h.onRow_eq_ok haccept hv).2 ⟨y, hxy, hw⟩,
        (Series.value?_of_some h.isReadable hget).trans hw, ?_⟩
      exact iff_of_false (ElementType.ne_null_of_read? hw) (ElementType.ne_null_of_read? hv)

/-- **A pointwise function** makes of a column what it makes of the values of its rows. -/
theorem rowByRow (cells : Array (Option k.elementType.Carrier)) :
    f.RowByRow (.ofCells k cells) := by
  have hrows : ∀ r, f.run [.ofCells k cells] = .ok r →
      r.size = cells.size ∧ ∀ i < cells.size, ∃ v w,
      (Series.ofCells k cells).value? i = some v ∧ f.onRow [v] = .ok w ∧
        r.value? i = some w ∧ (w = .null ↔ v = .null) := by
    intro r hr
    obtain ⟨images, himages, rfl⟩ := (h.run_eq_ok cells r).1 hr
    refine ⟨himages.length_eq.symm, fun i hi => ?_⟩
    have hi' : i < images.length := himages.length_eq ▸ hi
    exact h.exists_onRow_eq_ok haccept (Array.getElem?_eq_getElem hi)
      ((List.forall₂_iff_get.1 himages).2 i hi hi') (List.getElem?_eq_getElem hi')
  refine ⟨⟨?_, fun hall => ?_⟩, fun r hr => (hrows r hr).1, fun r hr => (hrows r hr).2⟩
  · rintro ⟨r, hr⟩ i hi
    obtain ⟨v, w, hv, hw, -⟩ := (hrows r hr).2 i hi
    exact ⟨v, w, hv, hw⟩
  · -- Each element that is present has an image, since its row has a value.
    have himage : ∀ cell ∈ cells.toList, ∃ image, Option.Rel Image cell image := by
      intro cell hmem
      cases cell with
      | none => exact ⟨none, .none⟩
      | some x =>
          obtain ⟨i, hi⟩ := List.mem_iff_getElem?.1 hmem
          rw [Array.getElem?_toList] at hi
          obtain ⟨v, w, hv, hw⟩ := hall i (Array.getElem?_eq_some_iff.1 hi).1
          have hread := (Series.value?_of_some k.isReadable_elementType hi).symm.trans hv
          obtain ⟨y, hxy, -⟩ := (h.onRow_eq_ok haccept hread).1 hw
          exact ⟨some y, .some hxy⟩
    obtain ⟨images, himages⟩ := exists_forall₂ himage
    exact ⟨_, (h.run_eq_ok cells _).2 ⟨images, himages, rfl⟩⟩

end Pointwise

/-! ### The standard functions -/

/-- A function with an image for every element that is present. -/
theorem pointwise_of_map {f : SeriesFunction} {k : Kind} (result : ElementType)
    (image : k.elementType.Carrier → result.Carrier) (hreadable : result.isReadable)
    (hread : ∀ y : result.Carrier, ∃ w, result.read? y = some w)
    (hrun : ∀ cells : Array (Option k.elementType.Carrier),
      f.run [.ofCells k cells] = .ok ⟨result, (cells.toList.map (·.map image)).toArray⟩) :
    f.Pointwise k result fun x y => image x = y where
  isReadable := hreadable
  exists_read?_eq_some := hread
  run_eq_ok cells r := by
    have hrel : Option.Rel (fun x y => image x = y) = fun cell out =>
        cell.map image = out := by
      ext cell out
      constructor
      · rintro (⟨rfl⟩ | _) <;> rfl
      · rintro rfl
        cases cell with
        | none => exact .none
        | some x => exact .some rfl
    have hall : ∀ images,
        List.Forall₂ (Option.Rel fun x y => image x = y) cells.toList images ↔
        cells.toList.map (·.map image) = images := by
      intro images
      calc List.Forall₂ (Option.Rel fun x y => image x = y) cells.toList images
          ↔ List.Forall₂ (fun cell out => cell.map image = out) cells.toList images := by
            rw [hrel]
        _ ↔ List.Forall₂ Eq (cells.toList.map (·.map image)) images :=
          List.forall₂_map_left_iff.symm
        _ ↔ cells.toList.map (·.map image) = images := by rw [List.forall₂_eq_eq_eq]
    simp only [hrun, hall, exists_eq_left', Except.ok.injEq]
    exact eq_comm

/-- A function that fails on the first element without an image. -/
theorem pointwise_of_mapM {ε : Type} {f : SeriesFunction} {k : Kind} {result : ElementType}
    (image : k.elementType.Carrier → Except ε result.Carrier)
    (imageCell : Option k.elementType.Carrier → Except ε (Option result.Carrier))
      (hreadable : result.isReadable)
    (hread : ∀ y : result.Carrier, ∃ w, result.read? y = some w)
    (hnone : imageCell none = .ok none)
      (hsome : ∀ x, imageCell (some x) = (image x).map some)
    (hrun : ∀ (cells : Array (Option k.elementType.Carrier)) (r : Series),
        f.run [.ofCells k cells] = .ok r ↔
      (cells.toList.mapM imageCell).map (fun images => ⟨result, images.toArray⟩) = .ok r) :
    f.Pointwise k result fun x y => image x = .ok y where
  isReadable := hreadable
  exists_read?_eq_some := hread
  run_eq_ok cells r := by
    have hrel : ∀ cell out, imageCell cell = .ok out ↔
        Option.Rel (fun x y => image x = .ok y) cell out := by
      intro cell out
      cases cell with
      | none =>
          rw [hnone]
          constructor
          · rintro ⟨⟩
            exact .none
          · rintro ⟨⟩
            rfl
      | some x =>
          rw [hsome, map_eq_ok]
          constructor
          · rintro ⟨y, hy, rfl⟩
            exact .some hy
          · rintro (⟨hy⟩ | _)
            exact ⟨_, hy, rfl⟩
    simp only [hrun, map_eq_ok, mapM_eq_ok, hrel]
    exact exists_congr fun images => and_congr_right fun _ => eq_comm

/-- Elements of numeric kinds are doubles, or become doubles. -/
theorem exists_toFloat?_of_isNumeric {k : Kind} (h : k.elementType.isNumeric) :
    ∃ number : k.elementType.Carrier → Float, ∀ x,
      (k.elementType.element x).toFloat? = some (number x) := by
  cases k with
  | int64 => exact ⟨fun n : Int64 => Float.ofInt n.toInt, fun _ => rfl⟩
  | float64 => exact ⟨fun x : Float => x, fun _ => rfl⟩
  | _ => cases h

/-- Numeric functions take numeric arrays only. -/
theorem requireNumeric_eq_ok {name : String} {t : ElementType} :
    requireNumeric name t = .ok () ↔ t.isNumeric := by
  rw [requireNumeric]
  cases t.isNumeric with
  | false => exact ⟨fun h => (nomatch h), fun h => (nomatch h)⟩
  | true => exact ⟨fun _ => rfl, fun _ => rfl⟩

/-- A function on doubles is pointwise. -/
theorem pointwise_math (name : String) (f : Float → Float) {k : Kind}
    (haccept : (math name f).accept [k.elementType] = .ok ()) :
    ∃ result Image, (math name f).Pointwise k result Image := by
  obtain ⟨number, hnumber⟩ := exists_toFloat?_of_isNumeric (requireNumeric_eq_ok.1 haccept)
  refine ⟨.float64, _, pointwise_of_map .float64 (fun x => f (number x)) rfl
    (fun y => ⟨_, rfl⟩) fun cells => ?_⟩
  have hcell : ∀ cell : Option k.elementType.Carrier,
      ((cell.map k.elementType.element).bind Element.toFloat?).map f = cell.map fun x =>
        f (number x) := by
    intro cell
    cases cell with
    | none => rfl
    | some x =>
        show (k.elementType.element x).toFloat?.map f = _
        rw [hnumber]
        rfl
  show (requireNumeric name k.elementType >>= fun _ => _) = _
  rw [show requireNumeric name k.elementType = .ok () from haccept]
  show Except.ok (Series.ofFloats _) = _
  rw [Series.floats, Series.elements, List.map_map, List.map_map]
  exact congrArg (fun l => Except.ok (Series.ofFloats l))
    (List.map_congr_left fun cell _ => hcell cell)

/-- What fails exactly when `x` does, and has the results of `x`. -/
theorem eq_ok_of_reported {ε α : Type} {x : Except ε α} {y : Except Error α}
    (hok : ∀ a, x = .ok a → y = .ok a) (herror : ∀ e, x = .error e → ∃ e', y = .error e')
    (a : α) :
    y = .ok a ↔ x = .ok a := by
  cases hx : x with
  | ok b => rw [hok b hx, Except.ok.injEq, Except.ok.injEq]
  | error e =>
      obtain ⟨e', he'⟩ := herror e hx
      rw [he']
      constructor <;> (intro h; cases h)

/-- The negation is pointwise: the least integer has no image. -/
theorem pointwise_negate {k : Kind} (haccept : negate.accept [k.elementType] = .ok ()) :
    ∃ result Image, negate.Pointwise k result Image := by
  refine ⟨k.elementType, _,
    pointwise_of_mapM k.elementType.opposite (Series.oppositeCell k.elementType)
    k.isReadable_elementType k.exists_read?_eq_some rfl (fun x => rfl) fun cells r => ?_⟩
  have hsigned : k.elementType.isUnsigned = false := by cases k <;> rfl
  have hnegate : (Series.ofCells k cells).negate =
      (cells.toList.mapM (Series.oppositeCell k.elementType)).map fun images =>
        ⟨k.elementType, images.toArray⟩ := by
    show (if k.elementType.isUnsigned then _ else _ : Except DataFault Series) = _
    rw [hsigned]
    rfl
  rw [← hnegate]
  have hrun : negate.run [.ofCells k cells] = requireNumeric "negate" k.elementType >>=
      fun _ => _ := rfl
  rw [hrun, show requireNumeric "negate" k.elementType = .ok () from haccept]
  refine eq_ok_of_reported (fun r hr => ?_) (fun fault hfault => ⟨.data fault, ?_⟩) r
  · rw [hr]
    rfl
  · rw [hfault]
    rfl

/-- The texts of a column of texts. -/
theorem textsOf_ofCells (cells : Array (Option String)) :
    textsOf (.ofCells .string cells) = cells.toList := by
  rw [textsOf, Series.elements, List.map_map]
  refine (List.map_congr_left fun cell _ => ?_).trans (List.map_id _)
  cases cell <;> rfl

/-- Text functions take texts only. -/
theorem eq_string_of_requireText {name : String} {k : Kind}
    (h : requireText name k.elementType = .ok ()) :
    k = .string := by
  cases k <;> first | rfl | cases h

/-- A function on texts is pointwise. -/
theorem pointwise_text (name : String) (f : String → String) {k : Kind}
    (haccept : (text name f).accept [k.elementType] = .ok ()) :
    ∃ result Image, (text name f).Pointwise k result Image := by
  obtain rfl := eq_string_of_requireText haccept
  refine ⟨.utf8, _, pointwise_of_map (k := .string) .utf8 f rfl (fun y => ⟨_, rfl⟩)
    fun cells => ?_⟩
  exact congrArg (fun texts : List (Option String) =>
      Except.ok (Series.mk .utf8 (texts.map (·.map f)).toArray))
    (textsOf_ofCells cells)

/-- The number of bytes is pointwise. -/
theorem pointwise_length {k : Kind} (haccept : length.accept [k.elementType] = .ok ()) :
    ∃ result Image, length.Pointwise k result Image := by
  obtain rfl := eq_string_of_requireText haccept
  let size (t : String) : Int32 := Int32.ofNat t.utf8ByteSize
  refine ⟨.int32, _, pointwise_of_map (k := .string) .int32 size rfl (fun y => ⟨_, rfl⟩)
    fun cells => ?_⟩
  exact congrArg (fun texts : List (Option String) =>
      Except.ok (Series.mk .int32 (texts.map (·.map size)).toArray))
    (textsOf_ofCells cells)

/-- Different kinds are stored in different types. -/
theorem eq_of_elementType_eq {k k' : Kind} (h : k.elementType = k'.elementType) :
    k = k' := by
  cases k <;> cases k' <;> first | rfl | cases h

/-- A column of a kind has no time zone that could be unknown. -/
theorem checkZone_elementType (k target : Kind) :
    ∃ seconds, Series.cast.checkZone k.elementType target = .ok seconds := by
  cases k <;> cases target <;> exact ⟨0, rfl⟩

/-- The cast of a column to another kind is that of its elements. -/
theorem cast_ofCells {k target : Kind} (hne : k ≠ target)
    (hcasts : k.elementType.castsTo target) (cells : Array (Option k.elementType.Carrier)) :
    (Series.ofCells k cells).cast target =
      (cells.toList.mapM fun cell =>
          Series.castCell k.elementType target (cell.map k.elementType.element)).map
        fun images => .ofCells target images.toArray := by
  obtain ⟨seconds, hzone⟩ := checkZone_elementType k target
  have hcast : (Series.ofCells k cells).cast target = (do
      let _ ← Series.cast.checkZone k.elementType target
      let images ← (Series.ofCells k cells).elements.mapM
        (Series.castCell k.elementType target)
      return .ofCells target images.toArray) := by
    show (if k.elementType = target.elementType then _
        else if !k.elementType.castsTo target then _ else _) = _
    rw [if_neg (mt eq_of_elementType_eq hne), hcasts]
    rfl
  have hmap : ∀ x : Except CastFault (List (Option target.elementType.Carrier)),
      (x >>= fun images => .ok (.ofCells target images.toArray)) =
        x.map fun images => Series.ofCells target images.toArray := by
    intro x
    cases x <;> rfl
  have helements : (Series.ofCells k cells).elements =
      cells.toList.map fun cell => cell.map k.elementType.element := rfl
  rw [hcast, hzone, helements, List.mapM_map]
  exact hmap _

/-- A cast takes arrays that can be cast. -/
theorem castsTo_of_accept {name : String} {target : Kind} {t : ElementType}
    (h : (cast name target).accept [t] = .ok ()) : t.castsTo target := by
  by_contra hno
  have hfails : (cast name target).accept [t] =
      failed name ("cannot cast " ++ t.name ++ " to " ++ target.elementType.name) :=
        if_neg hno
  rw [hfails] at h
  cases h

/-- A cast is pointwise: what it makes of an element does not depend on the other ones, and
a column of the right type is left alone. -/
theorem pointwise_cast (name : String) (target : Kind) {k : Kind}
    (haccept : (cast name target).accept [k.elementType] = .ok ()) :
    ∃ result Image, (cast name target).Pointwise k result Image := by
  have hrun : ∀ s r : Series, (cast name target).run [s] = .ok r ↔
      s.cast target = .ok r := by
    intro s r
    refine eq_ok_of_reported (fun r hr => ?_)
      (fun fault hfault => ⟨.functionFailed name fault.message, ?_⟩) r
    · refine bind_eq_ok.2 ⟨s, rfl, ?_⟩
      simp only [hr]
    · refine bind_eq_error.2 (.inr ⟨s, rfl, ?_⟩)
      simp only [hfault]
      rfl
  by_cases hsame : k = target
  · subst hsame
    refine ⟨k.elementType, _,
      pointwise_of_map k.elementType id k.isReadable_elementType k.exists_read?_eq_some
      fun cells => (hrun _ _).2 ?_⟩
    have hself : (Series.ofCells k cells).cast k = .ok (.ofCells k cells) := if_pos rfl
    rw [hself]
    simp only [Option.map_id_fun, id_eq, List.map_id_fun']
    rfl
  · refine ⟨target.elementType, _, pointwise_of_mapM
      (fun x => (k.elementType.element x).castTo k.elementType target)
      (fun cell => Series.castCell k.elementType target (cell.map k.elementType.element))
      target.isReadable_elementType target.exists_read?_eq_some rfl (fun x => rfl)
        fun cells r =>
        (hrun _ _).trans ?_⟩
    rw [cast_ofCells hsame (castsTo_of_accept haccept)]
    rfl

/-- A registry holds what was put into it. -/
theorem mem_of_mem_insertEntry {key : String} {f : SeriesFunction}
    {e : String × SeriesFunction} {entries : List (String × SeriesFunction)}
    (h : e ∈ Registry.insertEntry key f entries) :
    e = (key, f) ∨ e ∈ entries := by
  induction entries with
  | nil => exact .inl (List.mem_singleton.1 h)
  | cons first rest ih =>
      rw [Registry.insertEntry] at h
      split at h
      · exact (List.mem_cons.1 h).imp_right (List.mem_cons_of_mem first)
      · split at h
        · exact List.mem_cons.1 h
        · rcases List.mem_cons.1 h with rfl | h
          · exact .inr List.mem_cons_self
          · exact (ih h).imp_right (List.mem_cons_of_mem first)

/-- A registry that is made from a list holds nothing else. -/
theorem mem_of_mem_ofList {functions : List SeriesFunction} {e : String × SeriesFunction}
    (h : e ∈ (Registry.ofList functions).entries) : e.2 ∈ functions := by
  suffices hfold : ∀ r : Registry, e ∈ (functions.foldl Registry.register r).entries →
      e ∈ r.entries ∨ e.2 ∈ functions from (hfold .empty h).resolve_left List.not_mem_nil
  clear h
  induction functions with
  | nil => exact fun _ h => .inl h
  | cons f rest ih =>
      intro r h
      rcases ih _ h with h | h
      · rcases mem_of_mem_insertEntry h with rfl | h
        · exact .inr List.mem_cons_self
        · exact .inl h
      · exact .inr (List.mem_cons_of_mem f h)

/-- The functions that formulas may call, when they may call the standard ones. -/
theorem mem_standard_of_mem_elementwise {f : SeriesFunction}
    (h : f ∈ Registry.standard.elementwise) :
    f ∈ standard ∧ f.category.isElementwise := by
  rw [Registry.elementwise, List.mem_filter, List.mem_map] at h
  obtain ⟨⟨e, he, rfl⟩, hcategory⟩ := h
  exact ⟨mem_of_mem_ofList he, hcategory⟩

/-- Each of them is pointwise on the columns that it accepts. -/
theorem exists_pointwise_standard {f : SeriesFunction}
    (hf : f ∈ Registry.standard.elementwise) {k : Kind}
    (haccept : f.accept [k.elementType] = .ok ()) :
    ∃ result Image, f.Pointwise k result Image := by
  obtain ⟨hmem, helementwise⟩ := mem_standard_of_mem_elementwise hf
  simp only [standard, List.mem_cons, List.not_mem_nil, or_false] at hmem
  rcases hmem with
    rfl | rfl | rfl | rfl | rfl | rfl | rfl | rfl | rfl | rfl | rfl | rfl | rfl | hreduction
  · exact pointwise_math _ _ haccept
  · exact pointwise_math _ _ haccept
  · exact pointwise_math _ _ haccept
  · exact pointwise_math _ _ haccept
  · exact pointwise_negate haccept
  · exact pointwise_text _ _ haccept
  · exact pointwise_text _ _ haccept
  · exact pointwise_text _ _ haccept
  · exact pointwise_length haccept
  · exact pointwise_cast _ _ haccept
  · exact pointwise_cast _ _ haccept
  · exact pointwise_cast _ _ haccept
  · exact pointwise_cast _ _ haccept
  · rcases hreduction with rfl | rfl | rfl | rfl | rfl <;> cases helementwise

/-- **Formulas call the standard functions row by row** without a difference: on a column of
a type that columns of a kind are stored in, a function that accepts it succeeds if it does
on the value of each row, and gives these values. -/
theorem rowByRow_standard {f : SeriesFunction} (hf : f ∈ Registry.standard.elementwise)
    {s : Series} {k : Kind} (htype : s.type = k.elementType)
    (haccept : f.accept [s.type] = .ok ()) : f.RowByRow s := by
  obtain ⟨t, cells⟩ := s
  obtain rfl : t = k.elementType := htype
  obtain ⟨result, Image, h⟩ := exists_pointwise_standard hf haccept
  exact h.rowByRow haccept cells

/-- Numbers, one of which is missing and the last of which has no opposite. -/
def leastLast : Series := ⟨.int64, #[some (5 : Int64), none, some Int64.minValue]⟩

/-- No other standard function has the name of the negation. -/
theorem eq_negate_of_name {f : SeriesFunction} (hf : f ∈ standard)
    (hname : f.name = "negate") : f = negate := by
  have honly : standard.filter (fun g => g.name == "negate") = [negate] := rfl
  have hmem : f ∈ standard.filter fun g => g.name == "negate" :=
    List.mem_filter.2 ⟨hf, beq_iff_eq.2 hname⟩
  rw [honly] at hmem
  exact List.mem_singleton.1 hmem

/-- The negation fails on the last row, and so on the column. -/
theorem rowByRow_standard_negate :
    negate ∈ Registry.standard.elementwise ∧ leastLast.type = Kind.int64.elementType ∧
      negate.accept [leastLast.type] = .ok () ∧ negate.RowByRow leastLast ∧
      negate.onRow [.int 5] = .ok (.int (-5)) ∧ ¬ ∃ r, negate.run [leastLast] = .ok r := by
  have hf : negate ∈ Registry.standard.elementwise := by
    obtain ⟨f, hf, hname⟩ : ∃ f ∈ Registry.standard.elementwise, f.name = "negate" :=
      List.mem_map.1 (List.contains_iff_mem.1 (by decide +kernel))
    rwa [← eq_negate_of_name (mem_standard_of_mem_elementwise hf).1 hname]
  have hrows := rowByRow_standard hf (s := leastLast) (k := .int64) rfl rfl
  have hlast : (negate.onRow [.int Int64.minValue]).toOption = none := rfl
  refine ⟨hf, rfl, rfl, hrows, rfl, fun hrun => ?_⟩
  obtain ⟨v, w, hv, hw⟩ := hrows.succeeds_iff.1 hrun 2 (by decide)
  cases hv
  rw [hw] at hlast
  cases hlast

end SeriesFunction

end FormulaTable

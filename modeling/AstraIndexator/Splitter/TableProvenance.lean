import AstraIndexator.Splitter.Placement
import AstraIndexator.Splitter.Tables

/-!
# Rows of a fragment

A fragment reports the smallest and the largest row of its units.  These are rows of one
table exactly when no unit of a table joins a buffer that holds units of another one.
-/

namespace AstraIndexator

open Transaction

/-- The unit holds text of the row. -/
def SplitUnit.Covers (unit : SplitUnit) (row : Nat) : Prop :=
  ∃ first last, unit.tableRowFrom = some first ∧ unit.tableRowTo = some last ∧ first ≤ row ∧
    row ≤ last

/-- The unit comes from the rows of a table, or from no rows. -/
def SplitUnit.RowsKept (unit : SplitUnit) : Prop :=
  unit.tableRowFrom = none ∧ unit.tableRowTo = none ∨
    unit.elementType = .table ∧
      ∃ first last, unit.tableRowFrom = some first ∧ unit.tableRowTo = some last ∧ first ≤ last

/-- Two units from rows come from the same element. -/
def SameTable (entry other : PlacedUnit) : Prop :=
  entry.2.tableRowFrom ≠ none → other.2.tableRowFrom ≠ none → entry.1 = other.1

instance : Std.Symm SameTable := ⟨fun _ _ h hother hentry => (h hentry hother).symm⟩

/-- The rows a fragment reports are those of one table whose text is in it. -/
def RowsOfOneTable (part : List PlacedUnit) (fragment : LogicalFragment) : Prop :=
  ∀ first last, fragment.source.tableRowFrom = some first →
    fragment.source.tableRowTo = some last →
    (∃ table, ∀ entry ∈ part, ∀ row, entry.2.Covers row → entry.1 = table) ∧
    (∃ entry ∈ part, entry.2.Covers first) ∧ (∃ entry ∈ part, entry.2.Covers last) ∧
    ∀ entry ∈ part, ∀ row, entry.2.Covers row → first ≤ row ∧ row ≤ last

namespace LogicalSplitter

/-! ## Smallest and largest rows -/

theorem foldl_min_spec (rest : List Nat) (n : Nat) :
    rest.foldl min n ∈ n :: rest ∧ ∀ m ∈ n :: rest, rest.foldl min n ≤ m := by
  induction rest generalizing n with
  | nil =>
    refine ⟨List.mem_singleton_self n, fun m hm => ?_⟩
    exact Nat.le_of_eq (List.mem_singleton.mp hm).symm
  | cons k rest ih =>
    obtain ⟨hmem, hle⟩ := ih (min n k)
    rw [List.foldl_cons]
    refine ⟨?_, fun m hm => ?_⟩
    · rcases List.mem_cons.mp hmem with heq | hmem
      · rw [heq]
        rcases Nat.le_total n k with h | h
        · rw [Nat.min_eq_left h]
          exact List.mem_cons_self
        · rw [Nat.min_eq_right h]
          exact List.mem_cons_of_mem n List.mem_cons_self
      · exact List.mem_cons_of_mem n (List.mem_cons_of_mem k hmem)
    · have hfirst := hle (min n k) List.mem_cons_self
      rcases List.mem_cons.mp hm with rfl | hm
      · omega
      · rcases List.mem_cons.mp hm with rfl | hm
        · omega
        · exact hle m (List.mem_cons_of_mem _ hm)

theorem foldl_max_spec (rest : List Nat) (n : Nat) :
    rest.foldl max n ∈ n :: rest ∧ ∀ m ∈ n :: rest, m ≤ rest.foldl max n := by
  induction rest generalizing n with
  | nil =>
    refine ⟨List.mem_singleton_self n, fun m hm => ?_⟩
    exact Nat.le_of_eq (List.mem_singleton.mp hm)
  | cons k rest ih =>
    obtain ⟨hmem, hle⟩ := ih (max n k)
    rw [List.foldl_cons]
    refine ⟨?_, fun m hm => ?_⟩
    · rcases List.mem_cons.mp hmem with heq | hmem
      · rw [heq]
        rcases Nat.le_total n k with h | h
        · rw [Nat.max_eq_right h]
          exact List.mem_cons_of_mem n List.mem_cons_self
        · rw [Nat.max_eq_left h]
          exact List.mem_cons_self
      · exact List.mem_cons_of_mem n (List.mem_cons_of_mem k hmem)
    · have hfirst := hle (max n k) List.mem_cons_self
      rcases List.mem_cons.mp hm with rfl | hm
      · omega
      · rcases List.mem_cons.mp hm with rfl | hm
        · omega
        · exact hle m (List.mem_cons_of_mem _ hm)

theorem minimumOf_spec {rows : List Nat} {n : Nat} (h : minimumOf rows = some n) :
    n ∈ rows ∧ ∀ m ∈ rows, n ≤ m := by
  cases rows with
  | nil => cases h
  | cons k rest =>
    obtain rfl := Option.some.inj h
    exact foldl_min_spec rest k

theorem maximumOf_spec {rows : List Nat} {n : Nat} (h : maximumOf rows = some n) :
    n ∈ rows ∧ ∀ m ∈ rows, m ≤ n := by
  cases rows with
  | nil => cases h
  | cons k rest =>
    obtain rfl := Option.some.inj h
    exact foldl_max_spec rest k

theorem exists_minimumOf {rows : List Nat} (h : rows ≠ []) : ∃ n, minimumOf rows = some n := by
  obtain ⟨k, rest, rfl⟩ := List.exists_cons_of_ne_nil h
  exact ⟨_, rfl⟩

theorem exists_maximumOf {rows : List Nat} (h : rows ≠ []) : ∃ n, maximumOf rows = some n := by
  obtain ⟨k, rest, rfl⟩ := List.exists_cons_of_ne_nil h
  exact ⟨_, rfl⟩

/-! ## Units from rows -/

variable {splitter : LogicalSplitter}

theorem rowsKept_textUnits {element : NormalizedElement} {text : List Char}
    {hierarchy : List (List Char)} {context : List Char} {units : List SplitUnit}
    (h : splitter.textUnits element text hierarchy context = .ok units) :
    ∀ unit ∈ units, unit.RowsKept := by
  rw [textUnits] at h
  obtain ⟨chunks, -, h⟩ := except_bind_ok.mp h
  obtain rfl := Except.ok.inj h
  intro unit hunit
  obtain ⟨i, hi, rfl⟩ := List.mem_mapIdx.mp hunit
  exact .inl ⟨rfl, rfl⟩

theorem rowsKept_tableUnits {element : NormalizedElement} {hierarchy : List (List Char)}
    {units : List SplitUnit} (h : splitter.tableUnits element hierarchy = .ok units) :
    ∀ unit ∈ units, unit.RowsKept := by
  rw [tableUnits] at h
  split at h
  · split at h
    · obtain rfl := Except.ok.inj h
      exact List.forall_mem_nil _
    · exact rowsKept_textUnits h
  · obtain ⟨pieces, hpieces, h⟩ := except_bind_ok.mp h
    obtain rfl := Except.ok.inj h
    intro unit hunit
    obtain ⟨i, hi, rfl⟩ := List.mem_mapIdx.mp hunit
    have hrange := (tablePieces_law hpieces).ranges _ (List.getElem_mem hi)
    exact .inr ⟨rfl, _, _, rfl, rfl, hrange.1⟩

theorem rowsKept_elementUnits {element : NormalizedElement} {hierarchy : List (List Char)}
    {listIntro : Option (List Char)} {units : List SplitUnit}
    (h : splitter.elementUnits element hierarchy listIntro = .ok units) :
    ∀ unit ∈ units, unit.RowsKept := by
  rw [elementUnits] at h
  split at h
  · exact rowsKept_tableUnits h
  · split at h
    · obtain rfl := Except.ok.inj h
      exact List.forall_mem_nil _
    · exact rowsKept_textUnits h

theorem rowsKept_placedUnits {document : NormalizedDocument} {read : List (List SplitUnit)}
    (h : splitter.iterUnits document = read.map Except.ok) :
    ∀ entry ∈ placedUnits read, entry.2.RowsKept := by
  intro entry hentry
  obtain ⟨units, hget, hunit, -⟩ := mem_placedUnits.mp hentry
  obtain ⟨element, -, hmade⟩ := iterUnits_getElem? h hget
  exact rowsKept_elementUnits hmade entry.2 hunit

theorem covers_of_rowsKept {unit : SplitUnit} (h : unit.RowsKept) :
    (∀ n, unit.tableRowFrom = some n → unit.Covers n) ∧
      (∀ n, unit.tableRowTo = some n → unit.Covers n) ∧
      (unit.tableRowFrom ≠ none ↔ ∃ row, unit.Covers row) := by
  rcases h with ⟨hfrom, hto⟩ | ⟨-, first, last, hfrom, hto, hle⟩
  · refine ⟨fun n hn => ?_, fun n hn => ?_, fun hne => absurd hfrom hne, ?_⟩
    · rw [hfrom] at hn
      cases hn
    · rw [hto] at hn
      cases hn
    · rintro ⟨row, first, last, hsome, -⟩
      rw [hfrom] at hsome
      cases hsome
  · refine ⟨fun n hn => ?_, fun n hn => ?_, fun _ => ?_, fun _ => ?_⟩
    · obtain rfl := Option.some.inj (hfrom.symm.trans hn)
      exact ⟨first, last, hfrom, hto, le_refl first, hle⟩
    · obtain rfl := Option.some.inj (hto.symm.trans hn)
      exact ⟨first, last, hfrom, hto, hle, le_refl last⟩
    · exact ⟨first, first, last, hfrom, hto, le_refl first, hle⟩
    · rw [hfrom]
      exact Option.some_ne_none first

/-- The rows a fragment reports bound those in it, and it reports rows if it has some. -/
theorem reported_rows {document : NormalizedDocument} {part : List PlacedUnit}
    {fragment : LogicalFragment} (hmade : splitter.IsMadeOf document part fragment)
    (hkept : ∀ entry ∈ part, entry.2.RowsKept) :
    (∀ first last, fragment.source.tableRowFrom = some first →
      fragment.source.tableRowTo = some last →
      (∃ entry ∈ part, entry.2.Covers first) ∧ (∃ entry ∈ part, entry.2.Covers last) ∧
      ∀ entry ∈ part, ∀ row, entry.2.Covers row → first ≤ row ∧ row ≤ last) ∧
    ∀ entry ∈ part, entry.2.tableRowFrom ≠ none →
      ∃ first last, fragment.source.tableRowFrom = some first ∧
        fragment.source.tableRowTo = some last := by
  obtain ⟨index, group, rfl, hunits⟩ := hmade
  have hfrom : (splitter.makeFragment document index group).source.tableRowFrom =
      minimumOf ((unitsOf part).filterMap SplitUnit.tableRowFrom) := by rw [← hunits]; rfl
  have hto : (splitter.makeFragment document index group).source.tableRowTo =
      maximumOf ((unitsOf part).filterMap SplitUnit.tableRowTo) := by rw [← hunits]; rfl
  rw [hfrom, hto]
  refine ⟨fun first last hfirst hlast => ?_, fun entry hentry hrows => ?_⟩
  · obtain ⟨hmin, hle⟩ := minimumOf_spec hfirst
    obtain ⟨hmax, hge⟩ := maximumOf_spec hlast
    obtain ⟨unit, hunit, hrow⟩ := List.mem_filterMap.mp hmin
    obtain ⟨entry, hentry, rfl⟩ := List.mem_map.mp hunit
    obtain ⟨unit', hunit', hrow'⟩ := List.mem_filterMap.mp hmax
    obtain ⟨entry', hentry', rfl⟩ := List.mem_map.mp hunit'
    refine ⟨⟨entry, hentry, (covers_of_rowsKept (hkept entry hentry)).1 first hrow⟩,
      ⟨entry', hentry', (covers_of_rowsKept (hkept entry' hentry')).2.1 last hrow'⟩, ?_⟩
    rintro other hother row ⟨low, high, hlow, hhigh, hlowrow, hrowhigh⟩
    have hmem : other.2 ∈ unitsOf part := List.mem_map_of_mem hother
    have := hle low (List.mem_filterMap.mpr ⟨other.2, hmem, hlow⟩)
    have := hge high (List.mem_filterMap.mpr ⟨other.2, hmem, hhigh⟩)
    omega
  · have hmem : entry.2 ∈ unitsOf part := List.mem_map_of_mem hentry
    obtain ⟨row, first, last, hfirst, hlast, -⟩ :=
      (covers_of_rowsKept (hkept entry hentry)).2.2.mp hrows
    obtain ⟨n, hn⟩ := exists_minimumOf (List.ne_nil_of_mem
      (List.mem_filterMap.mpr ⟨entry.2, hmem, hfirst⟩))
    obtain ⟨m, hm⟩ := exists_maximumOf (List.ne_nil_of_mem
      (List.mem_filterMap.mpr ⟨entry.2, hmem, hlast⟩))
    exact ⟨n, m, hn, hm⟩

/-- A fragment keeps to one table exactly when its units from rows do. -/
theorem rowsOfOneTable_iff_pairwise {document : NormalizedDocument} {part : List PlacedUnit}
    {fragment : LogicalFragment} (hmade : splitter.IsMadeOf document part fragment)
    (hkept : ∀ entry ∈ part, entry.2.RowsKept) :
    RowsOfOneTable part fragment ↔ part.Pairwise SameTable := by
  obtain ⟨hbounds, hreports⟩ := reported_rows hmade hkept
  constructor
  · intro hone
    apply List.pairwise_of_forall_mem_list
    intro entry hentry other hother hrows hrows'
    obtain ⟨first, last, hfirst, hlast⟩ := hreports entry hentry hrows
    obtain ⟨⟨table, htable⟩, -⟩ := hone first last hfirst hlast
    obtain ⟨row, hrow⟩ := (covers_of_rowsKept (hkept entry hentry)).2.2.mp hrows
    obtain ⟨row', hrow'⟩ := (covers_of_rowsKept (hkept other hother)).2.2.mp hrows'
    exact (htable entry hentry row hrow).trans (htable other hother row' hrow').symm
  · intro hsame first last hfirst hlast
    obtain ⟨⟨source, hsource, hcovers⟩, hrest⟩ := hbounds first last hfirst hlast
    refine ⟨⟨source.1, fun entry hentry row hrow => ?_⟩, ⟨source, hsource, hcovers⟩, hrest⟩
    have hrows := (covers_of_rowsKept (hkept entry hentry)).2.2.mpr ⟨row, hrow⟩
    have hrows' := (covers_of_rowsKept (hkept source hsource)).2.2.mpr ⟨first, hcovers⟩
    exact List.Pairwise.forall_of_forall (fun _ _ _ _ => rfl) hsame hentry hsource hrows hrows'

/-! ## Tables that meet in a buffer -/

/-- A unit from rows that joins the buffer finds no units of another table there. -/
def TablesKeptApart (splitter : LogicalSplitter) (read : List (List SplitUnit)) : Prop :=
  ∀ before entry after, placedUnits read = before ++ entry :: after →
    splitter.endsPart (Buffered.run splitter.endsPart before).buffer entry = false →
    ∀ earlier ∈ (Buffered.run splitter.endsPart before).buffer, SameTable earlier entry

/-- Merging does not bring tables together. -/
theorem pairwise_runs_iff {document : NormalizedDocument} {read : List (List SplitUnit)}
    {runs : List (List (List PlacedUnit))} (h : splitter.Places document read runs) :
    (∀ part ∈ runs.map List.flatten, part.Pairwise SameTable) ↔
      splitter.TablesKeptApart read := by
  rw [TablesKeptApart, ← Buffered.forall_parts_pairwise_iff, ← h.parts]
  have hkept : ∀ run ∈ runs, ∀ part ∈ run, ∀ entry ∈ part, entry.2.RowsKept := by
    intro run hrun part hpart entry hentry
    apply rowsKept_placedUnits h.units
    rw [← Buffered.flatten_parts splitter.endsPart (placedUnits read), ← h.parts]
    exact List.mem_flatten_of_mem (List.mem_flatten_of_mem hrun hpart) hentry
  constructor
  · intro hall part hpart
    obtain ⟨run, hrun, hpart⟩ := List.mem_flatten.mp hpart
    exact (hall run.flatten (List.mem_map_of_mem hrun)).sublist (List.sublist_flatten_of_mem hpart)
  · intro hall part hpart
    obtain ⟨run, hrun, rfl⟩ := List.mem_map.mp hpart
    rcases h.merged run hrun with hone | hnone
    · rw [List.length_map] at hone
      match run, hone with
      | [], _ => exact List.Pairwise.nil
      | [part], _ =>
        rw [List.flatten_singleton]
        exact hall part (List.mem_flatten_of_mem hrun (List.mem_singleton_self part))
    · apply List.pairwise_of_forall_mem_list
      intro entry hentry other _ hrows
      obtain ⟨part, hpart, hentry⟩ := List.mem_flatten.mp hentry
      have htype := (hnone (unitsOf part) (List.mem_map_of_mem hpart) entry.2
        (List.mem_map_of_mem hentry)).1
      rcases hkept run hrun part hpart entry hentry with ⟨hnil, -⟩ | ⟨htable, -⟩
      · exact absurd hnil hrows
      · exact absurd htable htype

theorem rowsOfOneTable_iff_apart {document : NormalizedDocument} {read : List (List SplitUnit)}
    {runs : List (List (List PlacedUnit))} {fragments : List LogicalFragment}
    (h : splitter.Places document read runs)
    (hmade : List.Forall₂ (splitter.IsMadeOf document) (runs.map List.flatten) fragments) :
    List.Forall₂ RowsOfOneTable (runs.map List.flatten) fragments ↔
      splitter.TablesKeptApart read := by
  rw [← pairwise_runs_iff h]
  have hkept : ∀ part ∈ runs.map List.flatten, ∀ entry ∈ part, entry.2.RowsKept := by
    intro part hpart entry hentry
    obtain ⟨run, hrun, rfl⟩ := List.mem_map.mp hpart
    obtain ⟨part, hpart, hentry⟩ := List.mem_flatten.mp hentry
    apply rowsKept_placedUnits h.units
    rw [← Buffered.flatten_parts splitter.endsPart (placedUnits read), ← h.parts]
    exact List.mem_flatten_of_mem (List.mem_flatten_of_mem hrun hpart) hentry
  generalize runs.map List.flatten = parts at hmade hkept
  induction hmade with
  | nil => exact ⟨fun _ => List.forall_mem_nil _, fun _ => .nil⟩
  | @cons part fragment parts fragments hfirst _ ih =>
    obtain ⟨hpart, hparts⟩ := List.forall_mem_cons.mp hkept
    rw [List.forall₂_cons, List.forall_mem_cons]
    exact and_congr (rowsOfOneTable_iff_pairwise hfirst hpart) (ih hparts)

/-- Every fragment reports rows of one table exactly when no unit from rows joins a buffer
with units of another table. -/
theorem rowsOfOneTable_iff (splitter : LogicalSplitter) (document : NormalizedDocument)
    (fragments : List LogicalFragment) (h : splitter.split document = .ok fragments) :
    ∃ read runs, splitter.Places document read runs ∧
      List.Forall₂ (splitter.IsMadeOf document) (runs.map List.flatten) fragments ∧
      (List.Forall₂ RowsOfOneTable (runs.map List.flatten) fragments ↔
        splitter.TablesKeptApart read) := by
  obtain ⟨read, runs, hplaces, hmade⟩ := exists_places h
  exact ⟨read, runs, hplaces, hmade, rowsOfOneTable_iff_apart hplaces hmade⟩

theorem rowsOfOneTable_iff_mixed :
    ∃ fragments read runs, narrowSplitter.split mixedDocument = .ok fragments ∧
      narrowSplitter.Places mixedDocument read runs ∧
      (List.Forall₂ RowsOfOneTable (runs.map List.flatten) fragments ↔
        narrowSplitter.TablesKeptApart read) := by
  have hok : (narrowSplitter.split mixedDocument).isOk = true := by decide +kernel
  obtain ⟨fragments, hsplit⟩ := except_isOk.mp hok
  obtain ⟨read, runs, hplaces, -, hiff⟩ :=
    rowsOfOneTable_iff narrowSplitter mixedDocument fragments hsplit
  exact ⟨fragments, read, runs, hsplit, hplaces, hiff⟩

/-- Two tables of one column, one behind the other. -/
def twoTables : NormalizedDocument where
  documentId := 0
  documentVersion := 1
  normalizerProfile := "general"
  normalizerVersion := "1"
  processingFingerprint := "f"
  elements := [
    ⟨"a", .table, 0, none, none, none, none, none, some [["x"]], false⟩,
    ⟨"b", .table, 1, none, none, none, none, none, some [["y"], ["z"]], false⟩]

/-- Of two units, the second begins a new part. -/
def secondEndsPart (splitter : LogicalSplitter) : List PlacedUnit → Bool
  | [first, second] => splitter.endsPart [first] second
  | _ => true

/-- The fragment of two small tables reports the rows of both as one range. -/
theorem not_rowsOfOneTable_two : ¬ ∀ (splitter : LogicalSplitter) (document : NormalizedDocument)
    (fragments : List LogicalFragment) (read : List (List SplitUnit))
    (runs : List (List (List PlacedUnit))),
    splitter.split document = .ok fragments → splitter.Places document read runs →
    List.Forall₂ (splitter.IsMadeOf document) (runs.map List.flatten) fragments →
    List.Forall₂ RowsOfOneTable (runs.map List.flatten) fragments := by
  intro hall
  have hok : (plainSplitter.split twoTables).isOk = true := by decide +kernel
  obtain ⟨fragments, hsplit⟩ := except_isOk.mp hok
  obtain ⟨read, runs, hplaces, hmade⟩ := exists_places hsplit
  have hapart := (rowsOfOneTable_iff_apart hplaces hmade).mp
    (hall _ _ _ _ _ hsplit hplaces hmade)
  have hread : (plainSplitter.iterUnits twoTables).filterMap Except.toOption = read := by
    rw [hplaces.units, List.filterMap_map]
    exact List.filterMap_some
  have hmet : (placedUnits ((plainSplitter.iterUnits twoTables).filterMap Except.toOption)).map
      (fun entry => (entry.1, entry.2.tableRowFrom)) = [(0, some 0), (1, some 0)] := by
    decide +kernel
  have hjoins : plainSplitter.secondEndsPart (placedUnits
      ((plainSplitter.iterUnits twoTables).filterMap Except.toOption)) = false := by
    decide +kernel
  rw [hread] at hmet hjoins
  obtain ⟨first, rest, hplaced, hfirst, hrest⟩ := List.map_eq_cons_iff.mp hmet
  obtain ⟨second, rest, rfl, hsecond, hrest⟩ := List.map_eq_cons_iff.mp hrest
  obtain rfl := List.map_eq_nil_iff.mp hrest
  rw [hplaced] at hjoins
  have hsame := hapart [first] second [] hplaced hjoins first (List.mem_singleton_self first)
  obtain ⟨htable, hrows⟩ := Prod.mk.inj hfirst
  obtain ⟨htable', hrows'⟩ := Prod.mk.inj hsecond
  have heq := hsame (by rw [hrows]; exact Option.some_ne_none 0)
    (by rw [hrows']; exact Option.some_ne_none 0)
  rw [htable, htable'] at heq
  exact absurd heq (by decide)

end LogicalSplitter

end AstraIndexator

import Mathlib.Data.List.Forall2
import MarketMaking.Decimal.Reading
import MarketMaking.Proofs.FixedPoint
import MarketMaking.Proofs.Reopening
import MarketMaking.Recorder.StatsFile

/-!
# Tables of statistics read back

A table is appended to in sessions, each of which opens the file, records some steps and closes it.
However the steps are spread over sessions, the file is one header and one line a step in their
order, and each line splits into cells that tell what was recorded.
-/

namespace MarketMaking

/-! ### Lines -/

section Lines

variable {α : Type} {x : α}

/-- Parts that each end in a separator are parts between separators, with nothing behind the last
one. -/
theorem flatMap_concat_eq_intercalate (parts : List (List α)) :
    parts.flatMap (· ++ [x]) = [x].intercalate (parts ++ [[]]) := by
  induction parts with
  | nil => rfl
  | cons part parts ih =>
    rw [List.flatMap_cons, ih]
    cases parts with
    | nil => simp
    | cons next parts => simp [List.intercalate_cons_cons]

private theorem splitOn_flatMap_concat [BEq α] [LawfulBEq α] {parts : List (List α)}
    (free : ∀ part ∈ parts, x ∉ part) : (parts.flatMap (· ++ [x])).splitOn x = parts ++ [[]] := by
  rw [flatMap_concat_eq_intercalate]
  apply List.splitOn_intercalate
  · simpa [or_imp, forall_and] using free
  · simp

private theorem mem_intercalate {parts : List (List α)} {y : α} (mem : y ∈ [x].intercalate parts) :
    y = x ∨ ∃ part ∈ parts, y ∈ part := by
  induction parts with
  | nil => cases mem
  | cons part parts ih =>
    cases parts with
    | nil => exact .inr ⟨part, List.mem_cons_self, by simpa using mem⟩
    | cons next parts =>
      rw [List.intercalate_cons_cons, List.mem_append, List.mem_append, List.mem_singleton] at mem
      rcases mem with (hpart | heq) | hrest
      · exact .inr ⟨part, List.mem_cons_self, hpart⟩
      · exact .inl heq
      · rcases ih hrest with heq | ⟨other, hother, hmem⟩
        · exact .inl heq
        · exact .inr ⟨other, List.mem_cons_of_mem _ hother, hmem⟩

end Lines

private theorem Decimal.readNat?_digitChars {n : Nat} (lt : n < pow2 64) :
    Decimal.readNat? (String.ofList (Decimal.digitChars n)) = some n := by
  obtain ⟨c, cs, hdigits⟩ := List.exists_cons_of_ne_nil (l := Decimal.digitChars n)
    Nat.toDigits_ne_nil
  have hall : (c :: cs).all Char.isDigit = true := by
    rw [← hdigits, List.all_eq_true]
    exact fun _ ↦ Decimal.isDigit_of_mem_digitChars
  have hsign : c ≠ '+' := by
    rintro rfl
    cases hall
  have hread := Decimal.ofDigitChars_digitChars n
  rw [hdigits] at hread
  unfold Decimal.readNat?
  rw [String.toList_ofList, hdigits]
  split
  · next ds heq => exact absurd (List.cons.inj heq).1 hsign
  · simp [hall, hread, lt]

/-! ### Cells -/

/-- The numbers of a record, in the order of their columns. -/
def StepRecord.values {R : Type} (row : StepRecord R) : List R :=
  [row.halfSpread, row.skew, row.volatility, row.a, row.k, row.bidPrice, row.askPrice, row.position]

namespace Csv

/-- A cell tells of a value: it is empty exactly for a value that is not finite, and a plain decimal
with six places otherwise, at most half a unit of the last place away. -/
structure CellTells (cell : List Char) (x : Float) : Prop where
  eq_nil_iff : cell = [] ↔ x.isFinite = false
  plain : x.isFinite = true → ∃ d : Decimal.Plain 6, cell = d.chars ∧
    |d.value - Binary64.value x| ≤ 5 / 10 ^ 7

/-- A line tells of a row: it splits into nine cells, of which the first is read as the step and the
others tell of the values. -/
structure LineTells (line : List Char) (row : StepRecord Float) : Prop where
  length_eq : (line.splitOn ',').length = 9
  step : ((line.splitOn ',').head?.bind fun cell ↦ Decimal.readNat? (String.ofList cell)) =
    some row.step
  values : List.Forall₂ CellTells (line.splitOn ',').tail row.values

/-- The cell of a value tells of it. -/
theorem cell_tells (x : Float) : CellTells (cell x).toList x := by
  unfold cell
  rw [String.toList_ofList]
  cases hx : x.isFinite with
  | false =>
    rw [Decimal.fixedPoint?_of_isFinite_eq_false hx]
    exact ⟨by simp [hx], by simp [hx]⟩
  | true =>
    obtain ⟨d, hd, hnear⟩ := Decimal.exists_plain_of_isFinite (show 0 < 6 by decide) hx
    rw [hd, Option.getD_some]
    refine ⟨by simp [hx, d.chars_ne_nil], fun _ ↦ ⟨d, rfl, ?_⟩⟩
    norm_num at hnear ⊢
    exact hnear

private theorem map_toList_cells (row : StepRecord Float) : (cells row).map String.toList =
    Decimal.digitChars row.step :: row.values.map fun x ↦ (cell x).toList := by
  rw [cells, List.map_cons, String.toList_ofList, List.map_map]
  rfl

private theorem mem_cells {row : StepRecord Float} {cell : List Char} {c : Char}
    (mem : cell ∈ (cells row).map String.toList) (hc : c ∈ cell) :
    c = '-' ∨ c = '.' ∨ c.isDigit = true := by
  rw [map_toList_cells, List.mem_cons, List.mem_map] at mem
  rcases mem with rfl | ⟨x, -, rfl⟩
  · exact .inr (.inr (Decimal.isDigit_of_mem_digitChars hc))
  · have tells := cell_tells x
    cases hx : x.isFinite with
    | false =>
      rw [tells.eq_nil_iff.mpr hx] at hc
      cases hc
    | true =>
      obtain ⟨d, hd, -⟩ := tells.plain hx
      rw [hd] at hc
      exact d.mem_chars hc

/-- The text of a row without the end of its line. -/
def rowChars (row : StepRecord Float) : List Char := (",".intercalate (cells row)).toList

/-- A row splits into its cells. -/
theorem splitOn_rowChars (row : StepRecord Float) : (rowChars row).splitOn ',' =
    Decimal.digitChars row.step :: row.values.map fun x ↦ (cell x).toList := by
  rw [rowChars, String.toList_intercalate, ← map_toList_cells]
  apply List.splitOn_intercalate
  · intro cell hcell hcomma
    have hkind := mem_cells hcell hcomma
    revert hkind
    decide
  · rw [map_toList_cells]
    exact List.cons_ne_nil _ _

private theorem mem_rowChars {row : StepRecord Float} {c : Char} (mem : c ∈ rowChars row) :
    c = ',' ∨ c = '-' ∨ c = '.' ∨ c.isDigit = true := by
  rw [rowChars, String.toList_intercalate] at mem
  rcases mem_intercalate mem with heq | ⟨cell, hcell, hmem⟩
  · exact .inl heq
  · exact .inr (mem_cells hcell hmem)

private theorem newline_not_mem_rowChars (row : StepRecord Float) : '\n' ∉ rowChars row := by
  intro mem
  have hkind := mem_rowChars mem
  revert hkind
  decide

/-- The header is no row. -/
theorem header_ne_rowChars (row : StepRecord Float) :
    (",".intercalate columns).toList ≠ rowChars row := by
  intro heq
  have hletter : 's' ∈ (",".intercalate columns).toList := by decide +kernel
  rw [heq] at hletter
  have hkind := mem_rowChars hletter
  revert hkind
  decide

/-- The line of a row tells of it. -/
theorem rowChars_tells {row : StepRecord Float} (lt : row.step < pow2 64) :
    LineTells (rowChars row) row where
  length_eq := by simp [splitOn_rowChars, StepRecord.values]
  step := by simp [splitOn_rowChars, Decimal.readNat?_digitChars lt]
  values := by
    rw [splitOn_rowChars, List.tail_cons, List.forall₂_map_left_iff, List.forall₂_same]
    exact fun x _ ↦ cell_tells x

/-! ### Writers -/

private theorem Writer.closed_flush (w : Writer) : w.flush.closed = w.closed := by
  simp [closed, flush]

private theorem Writer.closed_foldl_append (w : Writer) (rows : List (StepRecord Float)) :
    (rows.foldl append w).closed = w.closed ++ String.join (rows.map line) := by
  induction rows generalizing w with
  | nil => simp
  | cons row rows ih =>
    have hrow : (w.append row).closed = w.closed ++ line row := by
      simp [closed, flush, append, String.append_assoc]
    rw [List.foldl_cons, ih, hrow, List.map_cons, String.join_cons, String.append_assoc]

/-- The text of a table: its header and the lines of some rows. -/
def table (rows : List (StepRecord Float)) : String := header ++ String.join (rows.map line)

private theorem toList_table (rows : List (StepRecord Float)) : (table rows).toList =
    ((",".intercalate columns).toList :: rows.map rowChars).flatMap (· ++ ['\n']) := by
  have hrows : (String.join (rows.map line)).toList =
      (rows.map rowChars).flatMap (· ++ ['\n']) := by
    rw [String.toList_join, List.flatMap_map, List.flatMap_map]
    simp [line, rowChars]
  rw [table, header, String.toList_append, String.toList_append, hrows, List.flatMap_cons]
  rfl

end Csv

namespace StatsFile

/-! ### Sessions -/

/-- Sessions with a table, one after another, up to the first that fails. -/
def appendSessions (tree : FileTree) (path : String) :
    List (List (StepRecord Float)) → Except (Error Float) Unit × FileTree
  | [] => (.ok (), tree)
  | rows :: sessions =>
      match appendRows tree path rows with
      | (.ok (), tree) => appendSessions tree path sessions
      | failed => failed

/-- A path leads to a file with a content, and the directories on the way to it are there. -/
structure Leads (tree : FileTree) (path content : String) : Prop where
  ne : path ≠ ""
  made : tree.makeDirectories (Path.mk path).parent = .ok tree
  opens : ∃ parts, tree.Opens ⟨path⟩ parts (some content.toUTF8)

variable {tree u : FileTree} {path : String}

private theorem openAt_eq {format : StatsFormat} {target : FileTree.Target} (ne : path ≠ "")
    (made : tree.makeDirectories (Path.mk path).parent = .ok u)
    (opened : u.openForWriting ⟨path⟩ = .ok target) :
    openAt tree path format = (.ok ⟨target, writerFor format target⟩, u) := by
  unfold openAt
  rw [Path.ofString?, if_neg ne]
  simp only [made, opened]

/-- A session writes its rows behind what the file holds, and behind a header when the file is
new. -/
theorem appendRows_of_opened (existing : Option String) {parts : List String} (ne : path ≠ "")
    (made : tree.makeDirectories (Path.mk path).parent = .ok u)
    (opened : u.openForWriting ⟨path⟩ = .ok (.file parts (existing.map String.toUTF8)))
    (rows : List (StepRecord Float)) :
    ∃ v, appendRows tree path rows = (.ok (), v) ∧
      Leads v path (existing.getD Csv.header ++ String.join (rows.map Csv.line)) := by
  have hopen : openAt tree path .csv =
      (.ok ⟨.file parts (existing.map String.toUTF8), .csv (.opened existing.isNone)⟩, u) := by
    rw [openAt_eq ne made opened]
    cases existing <;> rfl
  have hsession : appendRows tree path rows = (.ok (), u.write parts
      ((existing.map String.toUTF8).getD ByteArray.empty ++
        (rows.foldl Csv.Writer.append (.opened existing.isNone)).flush.closed.toUTF8)) := by
    unfold appendRows
    rw [hopen]
    simp only [StatsWriter.appendAll_csv]
    rfl
  have hcontent : (existing.map String.toUTF8).getD ByteArray.empty ++
      ((Csv.Writer.opened existing.isNone).closed ++ String.join (rows.map Csv.line)).toUTF8 =
        (existing.getD Csv.header ++ String.join (rows.map Csv.line)).toUTF8 := by
    cases existing <;> simp [Csv.Writer.opened, Csv.Writer.closed, Csv.Writer.flush]
  refine ⟨_, hsession, ne, ?_, parts, ?_⟩
  · exact (FileTree.extends_write u parts _).makeDirectories_eq made
  · rw [Csv.Writer.closed_flush, Csv.Writer.closed_foldl_append, hcontent]
    exact (FileTree.opens_of_openForWriting opened).write _

namespace Leads

variable {content : String}

/-- The file is read with its content. -/
theorem read?_eq (leads : Leads tree path content) : tree.read? path = some content.toUTF8 := by
  obtain ⟨parts, hopens⟩ := leads.opens
  exact hopens.read?_eq leads.ne

/-- A session writes its rows behind what the file holds. -/
theorem appendRows (leads : Leads tree path content) (rows : List (StepRecord Float)) :
    ∃ v, appendRows tree path rows = (.ok (), v) ∧
      Leads v path (content ++ String.join (rows.map Csv.line)) := by
  obtain ⟨parts, hopens⟩ := leads.opens
  exact appendRows_of_opened (some content) leads.ne leads.made hopens.openForWriting_eq rows

/-- Sessions write their rows behind what the file holds. -/
theorem appendSessions (leads : Leads tree path content)
    (sessions : List (List (StepRecord Float))) :
    ∃ v, appendSessions tree path sessions = (.ok (), v) ∧
      Leads v path (content ++ String.join (sessions.flatten.map Csv.line)) := by
  induction sessions generalizing tree content with
  | nil => exact ⟨tree, rfl, by simpa using leads⟩
  | cons rows sessions ih =>
    obtain ⟨v, hsession, hleads⟩ := leads.appendRows rows
    obtain ⟨w, hsessions, hleads'⟩ := ih hleads
    refine ⟨w, ?_, ?_⟩
    · rw [StatsFile.appendSessions, hsession]
      exact hsessions
    · simpa [String.append_assoc] using hleads'

end Leads

private theorem appendRows_of_new {parts : List String} {writer : StatsWriter}
    (opened : (openAt tree path .csv).1 = .ok ⟨.file parts none, writer⟩)
    (rows : List (StepRecord Float)) :
    ∃ v, appendRows tree path rows = (.ok (), v) ∧ Leads v path (Csv.table rows) := by
  unfold openAt at opened
  by_cases hne : path = ""
  · simp [Path.ofString?, hne] at opened
  · simp only [Path.ofString?, if_neg hne] at opened
    cases hmade : tree.makeDirectories (Path.mk path).parent with
    | error e => simp [hmade] at opened
    | ok u =>
      cases hfile : u.openForWriting ⟨path⟩ with
      | error e => simp [hmade, hfile] at opened
      | ok target =>
        simp only [hmade, hfile, Except.ok.injEq, mk.injEq] at opened
        obtain ⟨rfl, -⟩ := opened
        exact appendRows_of_opened none hne hmade hfile rows

/-- However rows are spread over one session or more with a new file, all sessions succeed, and the
file is a table of the rows in their order: its lines are the header, which is no line of a row,
and one line for each row, which tells of it. -/
theorem appendSessions_decode {parts : List String} {writer : StatsWriter}
    (opened : (openAt tree path .csv).1 = .ok ⟨.file parts none, writer⟩)
    {sessions : List (List (StepRecord Float))} (ne : sessions ≠ [])
    (fit : ∀ row ∈ sessions.flatten, row.step < pow2 64) :
    ∃ (v : FileTree) (text : String) (lines : List (List Char)),
      appendSessions tree path sessions = (.ok (), v) ∧ v.read? path = some text.toUTF8 ∧
      text.toList.splitOn '\n' = (",".intercalate Csv.columns).toList :: lines ++ [[]] ∧
      (",".intercalate Csv.columns).toList ∉ lines ∧
      List.Forall₂ Csv.LineTells lines sessions.flatten := by
  obtain ⟨rows, rest, rfl⟩ := List.exists_cons_of_ne_nil ne
  obtain ⟨u, hsession, hleads⟩ := appendRows_of_new opened rows
  obtain ⟨v, hsessions, hleads'⟩ := hleads.appendSessions rest
  have htable : Csv.table rows ++ String.join (rest.flatten.map Csv.line) =
      Csv.table (rows :: rest).flatten := by
    simp [Csv.table, String.append_assoc]
  rw [htable] at hleads'
  refine ⟨v, _, (rows :: rest).flatten.map Csv.rowChars, ?_, hleads'.read?_eq, ?_, ?_, ?_⟩
  · rw [appendSessions, hsession]
    exact hsessions
  · rw [Csv.toList_table]
    apply splitOn_flatMap_concat
    rw [List.forall_mem_cons, List.forall_mem_map]
    exact ⟨by decide +kernel, fun row _ ↦ Csv.newline_not_mem_rowChars row⟩
  · intro mem
    obtain ⟨row, -, heq⟩ := List.mem_map.mp mem
    exact Csv.header_ne_rowChars row heq.symm
  · rw [List.forall₂_map_left_iff, List.forall₂_same]
    exact fun row mem ↦ Csv.rowChars_tells (fit row mem)

/-- Two sessions with a file in a directory that the first of them makes; a value of the second step
is unknown and another one infinite. -/
theorem appendSessions_decode_of_two :
    let first : StepRecord Float := ⟨1, 1.25, 0.5, 3, 2, 0.75, 99.99, 100.01, -1⟩
    let second : StepRecord Float :=
      ⟨2, 1.25, -0.0, Binary64.unknown, 2, 1e-7, 99.99, Binary64.infinity, 1e300⟩
    let tree := FileTree.empty 1
    (openAt tree "out/stats.csv" .csv).1 =
        .ok ⟨.file ["out", "stats.csv"] none, .csv (Csv.Writer.opened true)⟩ ∧
      (∀ row ∈ [[first], [second]].flatten, row.step < pow2 64) ∧
      ∃ (v : FileTree) (text : String) (lines : List (List Char)),
        appendSessions tree "out/stats.csv" [[first], [second]] = (.ok (), v) ∧
        v.read? "out/stats.csv" = some text.toUTF8 ∧
        text.toList.splitOn '\n' = (",".intercalate Csv.columns).toList :: lines ++ [[]] ∧
        List.Forall₂ Csv.LineTells lines [first, second] := by
  intro first second tree
  have hopened : (openAt tree "out/stats.csv" .csv).1 =
      .ok ⟨.file ["out", "stats.csv"] none, .csv (Csv.Writer.opened true)⟩ := by
    have hparent : (Path.mk "out/stats.csv").parent = ⟨"out"⟩ := by decide +kernel
    have hmade : tree.makeDirectories ⟨"out"⟩ = .ok ⟨[], [["out"]], 1⟩ := by
      have hparts : (Path.mk "out").parts = ["out"] := by decide +kernel
      unfold FileTree.makeDirectories
      rw [if_neg (by decide +kernel), if_neg (by decide +kernel), hparts]
      rfl
    have hopen : FileTree.openForWriting ⟨[], [["out"]], 1⟩ ⟨"out/stats.csv"⟩ =
        .ok (.file ["out", "stats.csv"] none) := by
      have hparts : (Path.mk "out/stats.csv").parts = ["out", "stats.csv"] := by decide +kernel
      have hresolve : FileTree.resolve ⟨[], [["out"]], 1⟩ [] (Path.mk "out/stats.csv").parts =
          .ok ["out", "stats.csv"] := by
        rw [hparts]
        rfl
      have hnode : FileTree.node? ⟨[], [["out"]], 1⟩ ["out", "stats.csv"] = none := rfl
      rw [FileTree.openForWriting_of_resolve (by decide +kernel) (by decide +kernel) hresolve,
        hnode]
      exact (if_neg (by decide +kernel)).trans (if_neg (by decide +kernel))
    rw [← hparent] at hmade
    rw [openAt_eq (by decide) hmade hopen]
    rfl
  have fit : ∀ row ∈ [[first], [second]].flatten, row.step < pow2 64 := by
    decide +kernel
  obtain ⟨v, text, lines, hsessions, hread, hsplit, -, htells⟩ :=
    appendSessions_decode hopened (List.cons_ne_nil _ _) fit
  exact ⟨hopened, fit, v, text, lines, hsessions, hread, hsplit, htells⟩

end StatsFile

end MarketMaking

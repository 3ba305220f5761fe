import Mathlib.Data.List.Forall2
import Mathlib.Data.List.TakeWhile
import Mathlib.Order.Bounds.Defs
import MediaCatalog.Report.Table

namespace MediaCatalog.Report

/-- Where the columns stand: where each begins, how wide it is, and how long a line is. -/
structure Layout where
  start : Nat → Nat
  width : Nat → Nat
  length : Nat

namespace Layout

def column (l : Layout) (i : Nat) (line : String) : List Char :=
  (line.toList.drop (l.start i)).take (l.width i)

/-- The columns are beside each other, with a margin of two characters in front and a separator of
three between them. -/
structure Separates (l : Layout) (columns : Nat) : Prop where
  margin : l.start 0 = 2
  next : ∀ i, i + 1 < columns → l.start (i + 1) = l.start i + l.width i + 3
  length : ∀ i, i + 1 = columns → l.length = l.start i + l.width i

/-- A column is as wide as the longest text in it, its header included. -/
def Fits (l : Layout) (headers : Row) (rows : List Row) : Prop :=
  ∀ i < headers.length, IsGreatest {n | ∃ r ∈ headers :: rows, ∃ s, r[i]? = some s ∧ s.length = n}
    (l.width i)

/-- Each text stands in full in its column, with blanks behind it. -/
structure Sets (l : Layout) (texts : Row) (line : String) : Prop where
  length : line.length = l.length
  text : ∀ i s, texts[i]? = some s →
    l.column i line = s.toList ++ List.replicate (l.width i - s.length) ' '

structure Rules (l : Layout) (columns : Nat) (line : String) : Prop where
  length : line.length = l.length
  dashes : ∀ i < columns, l.column i line = List.replicate (l.width i) '-'

structure Shows (l : Layout) (headers : Row) (rows : List Row) (lines : List String) : Prop where
  separates : l.Separates headers.length
  lines : ∃ header rule body, lines = header :: rule :: body ∧ l.Sets headers header ∧
    l.Rules headers.length rule ∧ List.Forall₂ l.Sets rows body

end Layout

section Joined

variable {α : Type} {sep : List α} {pieces : List (List α)}

/-- Where a piece begins in pieces of the given lengths, joined by a separator of three. -/
def pieceStart : List Nat → Nat → Nat
  | n :: ns, i + 1 => n + 3 + pieceStart ns i
  | _, _ => 0

def joinedLength : List Nat → Nat
  | [] => 0
  | [n] => n
  | n :: ns => n + 3 + joinedLength ns

theorem pieceStart_succ {ns : List Nat} {i : Nat} (h : i + 1 < ns.length) :
    pieceStart ns (i + 1) = pieceStart ns i + ns.getD i 0 + 3 := by
  induction ns generalizing i with
  | nil => exact absurd h (Nat.not_lt_zero _)
  | cons n ns ih =>
      cases i with
      | zero => cases ns <;> simp [pieceStart]
      | succ i =>
          rw [pieceStart, pieceStart, ih (Nat.lt_of_succ_lt_succ h), List.getD_cons_succ]
          omega

theorem joinedLength_eq {ns : List Nat} {i : Nat} (h : i + 1 = ns.length) :
    joinedLength ns = pieceStart ns i + ns.getD i 0 := by
  induction ns generalizing i with
  | nil => cases h
  | cons n ns ih =>
      cases ns with
      | nil =>
          obtain rfl : i = 0 := Nat.succ.inj h
          simp [joinedLength, pieceStart]
      | cons m ns =>
          obtain ⟨i, rfl⟩ : ∃ j, i = j + 1 := ⟨ns.length, Nat.succ.inj h⟩
          rw [joinedLength, pieceStart, ih (Nat.succ.inj h), List.getD_cons_succ]
          · omega
          · exact List.cons_ne_nil m ns

theorem length_intercalate (hsep : sep.length = 3) (pieces : List (List α)) :
    (sep.intercalate pieces).length = joinedLength (pieces.map List.length) := by
  induction pieces with
  | nil => rfl
  | cons p pieces ih =>
      cases pieces with
      | nil => simp [joinedLength]
      | cons q pieces =>
          rw [List.intercalate_cons_cons, List.length_append, List.length_append, ih, hsep]
          simp only [List.map_cons, joinedLength]

theorem prefix_drop_intercalate (hsep : sep.length = 3) {p : List α} {i : Nat}
    (h : pieces[i]? = some p) :
    p <+: (sep.intercalate pieces).drop (pieceStart (pieces.map List.length) i) := by
  induction pieces generalizing i with
  | nil => cases h
  | cons q pieces ih =>
      cases i with
      | zero =>
          obtain rfl := Option.some.inj h
          cases pieces with
          | nil => simp [pieceStart]
          | cons r pieces => simp [pieceStart, List.intercalate_cons_cons]
      | succ i =>
          rw [List.getElem?_cons_succ] at h
          have hne : pieces ≠ [] := by
            rintro rfl
            cases h
          rw [List.intercalate_cons_of_ne_nil hne, List.map_cons, pieceStart, ← hsep,
            ← List.length_append, ← List.drop_drop, List.drop_left]
          exact ih h

theorem mem_intercalate {x : α} (h : x ∈ sep.intercalate pieces) :
    x ∈ sep ∨ ∃ p ∈ pieces, x ∈ p := by
  induction pieces with
  | nil => cases h
  | cons p pieces ih =>
      cases pieces with
      | nil =>
          rw [List.intercalate_singleton] at h
          exact .inr ⟨p, List.mem_cons_self, h⟩
      | cons q pieces =>
          rw [List.intercalate_cons_cons, List.mem_append, List.mem_append] at h
          rcases h with (h | h) | h
          · exact .inr ⟨p, List.mem_cons_self, h⟩
          · exact .inl h
          · exact (ih h).imp_right fun ⟨r, hr, hx⟩ => ⟨r, List.mem_cons_of_mem p hr, hx⟩

end Joined

section Lines

def Layout.ofWidths (widths : List Nat) : Layout where
  start i := 2 + pieceStart widths i
  width i := widths.getD i 0
  length := 2 + joinedLength widths

variable {widths : List Nat} {separator : String} {cells : Row}

theorem Layout.separates_ofWidths (widths : List Nat) :
    (Layout.ofWidths widths).Separates widths.length where
  margin := by cases widths <;> rfl
  next i h := by
    simp only [ofWidths]
    rw [pieceStart_succ h]
    omega
  length i h := by
    simp only [ofWidths]
    rw [joinedLength_eq h]
    omega

theorem toList_line (separator : String) (cells : Row) : (line separator cells).toList =
    [' ', ' '] ++ separator.toList.intercalate (cells.map String.toList) := by
  rw [line, String.toList_append, String.toList_intercalate]
  rfl

theorem map_length_toList (cells : Row) :
    (cells.map String.toList).map List.length = cells.map String.length := by
  rw [List.map_map]
  exact List.map_congr_left fun s _ => String.length_toList

section Separated

variable (hseparator : separator.toList.length = 3) (hwidths : cells.map String.length = widths)
include hseparator hwidths

theorem length_line : (line separator cells).length = (Layout.ofWidths widths).length := by
  rw [← String.length_toList, toList_line, List.length_append, length_intercalate hseparator,
    map_length_toList, hwidths]
  rfl

theorem column_line {i : Nat} {s : String} (h : cells[i]? = some s) :
    (Layout.ofWidths widths).column i (line separator cells) = s.toList := by
  have hpiece : (cells.map String.toList)[i]? = some s.toList := by
    rw [List.getElem?_map, h]
    rfl
  have hwidth : widths.getD i 0 = s.toList.length := by
    rw [← hwidths, List.getD_eq_getElem?_getD, List.getElem?_map, h]
    exact String.length_toList.symm
  obtain ⟨behind, hbehind⟩ := prefix_drop_intercalate hseparator hpiece
  rw [map_length_toList, hwidths] at hbehind
  rw [Layout.column, toList_line]
  simp only [Layout.ofWidths]
  rw [← List.drop_drop, List.drop_left' (by rfl), ← hbehind, hwidth, List.take_left]

end Separated

theorem toList_padRight (width : Nat) (s : String) :
    (padRight width s).toList = s.toList ++ List.replicate (width - s.length) ' ' := by
  rw [padRight, String.toList_append, String.toList_ofList]

theorem length_padRight {width : Nat} {s : String} (h : s.length ≤ width) :
    (padRight width s).length = width := by
  rw [← String.length_toList, toList_padRight, List.length_append, String.length_toList,
    List.length_replicate]
  omega

theorem map_length_zipWith_padRight (h : List.Forall₂ (fun w s => s.length ≤ w) widths cells) :
    (List.zipWith padRight widths cells).map String.length = widths := by
  induction h with
  | nil => rfl
  | cons hle _ ih => rw [List.zipWith_cons_cons, List.map_cons, length_padRight hle, ih]

theorem sets_rowLine (h : List.Forall₂ (fun w s => s.length ≤ w) widths cells) :
    (Layout.ofWidths widths).Sets cells (rowLine widths cells) where
  length := length_line rfl (map_length_zipWith_padRight h)
  text i s hs := by
    have hi : i < widths.length := h.length_eq ▸ (List.getElem?_eq_some_iff.1 hs).1
    have hpiece : (List.zipWith padRight widths cells)[i]? = some (padRight widths[i] s) := by
      rw [List.getElem?_zipWith, hs, List.getElem?_eq_getElem hi]
    rw [rowLine, column_line rfl (map_length_zipWith_padRight h) hpiece, toList_padRight]
    simp [Layout.ofWidths, hi]

theorem rules_ruleLine (widths : List Nat) :
    (Layout.ofWidths widths).Rules widths.length (ruleLine widths) := by
  have hlengths : (widths.map fun w => String.ofList (List.replicate w '-')).map String.length =
      widths := by
    rw [List.map_map]
    exact List.map_id'' (fun w => by simp) widths
  refine ⟨length_line rfl hlengths, fun i hi => ?_⟩
  rw [ruleLine, column_line rfl hlengths (s := String.ofList (List.replicate widths[i] '-')),
    String.toList_ofList]
  · simp [Layout.ofWidths, hi]
  · rw [List.getElem?_map, List.getElem?_eq_getElem hi]
    rfl

end Lines

section Widths

variable {headers : Row} {rows : List Row}

theorem isGreatest_foldl_max {α : Type} (f : α → Nat) (rows : List α) (n : Nat) :
    IsGreatest {m | n = m ∨ ∃ r ∈ rows, f r = m} (rows.foldl (fun w r => max w (f r)) n) := by
  induction rows generalizing n with
  | nil =>
      refine ⟨.inl rfl, ?_⟩
      rintro m (rfl | ⟨r, hr, -⟩)
      · exact Nat.le_refl n
      · cases hr
  | cons r rows ih =>
      obtain ⟨hmem, hle⟩ := ih (max n (f r))
      rw [List.foldl_cons]
      constructor
      · rcases hmem with hmax | ⟨s, hs, hlength⟩
        · rcases Nat.le_total n (f r) with h | h
          · exact .inr ⟨r, List.mem_cons_self, by rw [← hmax, Nat.max_eq_right h]⟩
          · exact .inl (by rw [← hmax, Nat.max_eq_left h])
        · exact .inr ⟨s, List.mem_cons_of_mem r hs, hlength⟩
      · have hfirst := hle (.inl rfl)
        rintro m (rfl | ⟨s, hs, rfl⟩)
        · exact Nat.le_trans (Nat.le_max_left _ _) hfirst
        · rcases List.mem_cons.1 hs with rfl | hs
          · exact Nat.le_trans (Nat.le_max_right _ _) hfirst
          · exact hle (.inr ⟨s, hs, rfl⟩)

theorem length_columnWidths (headers : Row) (rows : List Row) :
    (columnWidths headers rows).length = headers.length := by
  rw [columnWidths, List.length_map, List.length_zipIdx]

variable (hrows : ∀ r ∈ rows, headers.length ≤ r.length)
include hrows

theorem fits_columnWidths :
    (Layout.ofWidths (columnWidths headers rows)).Fits headers rows := by
  intro i hi
  have hwidth : (columnWidths headers rows).getD i 0 = columnWidth rows i headers[i] := by
    simp [columnWidths, hi]
  -- No row is too short, so the width never counts an absent cell as empty.
  have hcell {r : Row} (hr : r ∈ rows) : r[i]? = some (r.getD i "") := by
    have hlt : i < r.length := Nat.lt_of_lt_of_le hi (hrows r hr)
    rw [List.getD_eq_getElem?_getD, List.getElem?_eq_getElem hlt]
    rfl
  obtain ⟨hmem, hle⟩ := isGreatest_foldl_max (fun r => (r.getD i "").length) rows headers[i].length
  change IsGreatest _ ((columnWidths headers rows).getD i 0)
  rw [hwidth]
  constructor
  · rcases hmem with hlength | ⟨r, hr, hlength⟩
    · exact ⟨headers, List.mem_cons_self, _, List.getElem?_eq_getElem hi, hlength⟩
    · exact ⟨r, List.mem_cons_of_mem headers hr, _, hcell hr, hlength⟩
  · rintro m ⟨r, hr, s, hs, rfl⟩
    rcases List.mem_cons.1 hr with rfl | hr
    · rw [List.getElem?_eq_getElem hi] at hs
      obtain rfl := Option.some.inj hs
      exact hle (.inl rfl)
    · obtain rfl := Option.some.inj ((hcell hr).symm.trans hs)
      exact hle (.inr ⟨r, hr, rfl⟩)

theorem forall₂_columnWidths {r : Row} (hr : r ∈ headers :: rows)
    (hlength : r.length = headers.length) :
    List.Forall₂ (fun w s => s.length ≤ w) (columnWidths headers rows) r := by
  rw [List.forall₂_iff_get]
  refine ⟨(length_columnWidths headers rows).trans hlength.symm, fun i hi hi' => ?_⟩
  have hgreatest := fits_columnWidths hrows i (hlength ▸ hi')
  have hle := hgreatest.2 ⟨r, hr, _, List.getElem?_eq_getElem hi', rfl⟩
  simpa [Layout.ofWidths, hi] using hle

end Widths

section Table

variable {headers : Row} {rows front back : List Row}

theorem table_of_short (h : ∃ r ∈ rows, r.length < headers.length) :
    table headers rows = ⟨[], some outOfRange⟩ := by
  obtain ⟨r, hr, hlt⟩ := h
  have hany : rows.any (fun r => r.length < headers.length) = true :=
    List.any_eq_true.2 ⟨r, hr, decide_eq_true hlt⟩
  rw [table, if_neg (List.ne_nil_of_mem hr), if_pos hany]

/-- No row is too short, and those in front come before the first one that is too long. -/
structure IsFront (columns : Nat) (front back : List Row) : Prop where
  le : ∀ r ∈ front ++ back, columns ≤ r.length
  fit : ∀ r ∈ front, r.length = columns
  tooLong : ∀ r ∈ back.head?, columns < r.length

theorem isFront_nil {columns : Nat} (h : ∀ r ∈ rows, r.length = columns) :
    IsFront columns rows [] where
  le r hr := (h r (List.append_nil rows ▸ hr)).ge
  fit := h
  tooLong r hr := by cases hr

theorem exists_isFront {columns : Nat} (h : ¬ ∃ r ∈ rows, r.length < columns) :
    ∃ front back, rows = front ++ back ∧ IsFront columns front back := by
  have hle : ∀ r ∈ rows, columns ≤ r.length := by simpa using h
  have hsplit := List.takeWhile_append_dropWhile (p := fun r => r.length ≤ columns) (l := rows)
  refine ⟨_, _, hsplit.symm, hsplit.symm ▸ hle, fun r hr => ?_, fun r hr => ?_⟩
  · have hfits := List.mem_takeWhile_imp hr
    rw [decide_eq_true_eq] at hfits
    exact Nat.le_antisymm hfits (hle r ((List.takeWhile_sublist _).mem hr))
  · have hlt := List.head?_dropWhile_not (fun r : Row => decide (r.length ≤ columns)) rows
    rw [hr] at hlt
    simpa using hlt

section Front

variable (h : IsFront headers.length front back)
include h

theorem IsFront.table_eq (hne : front ++ back ≠ []) :
    let widths := columnWidths headers (front ++ back)
    table headers (front ++ back) =
      ⟨rowLine widths headers :: ruleLine widths :: front.map (rowLine widths),
        if back = [] then none else some outOfRange⟩ := by
  have hany : ¬ (front ++ back).any (fun r => r.length < headers.length) = true := by
    rw [List.any_eq_true]
    rintro ⟨r, hr, hlt⟩
    exact absurd (of_decide_eq_true hlt) (Nat.not_lt.2 (h.le r hr))
  have hback : back.takeWhile (fun r => r.length ≤ headers.length) = [] := by
    cases back with
    | nil => rfl
    | cons r back =>
        have hlt := h.tooLong r rfl
        rw [List.takeWhile_cons_of_neg]
        simpa using hlt
  have hfitting : (front ++ back).takeWhile (fun r => r.length ≤ headers.length) = front := by
    rw [List.takeWhile_append_of_pos fun r hr => decide_eq_true (h.fit r hr).le, hback,
      List.append_nil]
  have hrest : front.length < (front ++ back).length ↔ back ≠ [] := by
    rw [List.length_append, ← List.length_pos_iff]
    omega
  intro widths
  rw [table, if_neg hne, if_neg hany]
  simp only [hfitting, hrest, ite_not]
  rfl

theorem IsFront.exists_layout (hne : front ++ back ≠ []) :
    ∃ l : Layout, l.Fits headers (front ++ back) ∧
      l.Shows headers front (table headers (front ++ back)).lines := by
  have hcolumns := length_columnWidths headers (front ++ back)
  rw [h.table_eq hne]
  refine ⟨.ofWidths (columnWidths headers (front ++ back)), fits_columnWidths h.le,
    hcolumns ▸ Layout.separates_ofWidths _, _, _, _, rfl, ?_, ?_, ?_⟩
  · exact sets_rowLine (forall₂_columnWidths h.le List.mem_cons_self rfl)
  · exact hcolumns ▸ rules_ruleLine _
  · rw [List.forall₂_map_right_iff, List.forall₂_same]
    intro r hr
    have hmem : r ∈ headers :: (front ++ back) :=
      List.mem_cons_of_mem headers (List.mem_append_left back hr)
    exact sets_rowLine (forall₂_columnWidths h.le hmem (h.fit r hr))

end Front

theorem failure_table (hrows : rows ≠ []) : (table headers rows).failure =
    if ∀ r ∈ rows, r.length = headers.length then none else some outOfRange := by
  by_cases hshort : ∃ r ∈ rows, r.length < headers.length
  · rw [table_of_short hshort, if_neg]
    obtain ⟨r, hr, hlt⟩ := hshort
    exact fun hall => hlt.ne (hall r hr)
  · obtain ⟨front, back, rfl, hfront⟩ := exists_isFront hshort
    rw [hfront.table_eq hrows]
    cases back with
    | nil => exact (if_pos ((List.append_nil front).symm ▸ hfront.fit)).symm
    | cons r back =>
        rw [if_neg (List.cons_ne_nil r back), if_neg]
        have hr : r ∈ front ++ r :: back := List.mem_append_right front List.mem_cons_self
        exact fun hall => (hfront.tooLong r rfl).ne' (hall r hr)

end Table

section Frame

variable {headers : Row} {rows : List Row}

theorem mem_padRight {width : Nat} {s : String} {c : Char} (h : c ∈ (padRight width s).toList) :
    c = ' ' ∨ c ∈ s.toList := by
  rw [toList_padRight, List.mem_append] at h
  exact h.symm.imp_left List.eq_of_mem_replicate

theorem mem_line {separator : String} {cells : Row} {c : Char}
    (h : c ∈ (line separator cells).toList) :
    c = ' ' ∨ c ∈ separator.toList ∨ ∃ s ∈ cells, c ∈ s.toList := by
  rw [toList_line, List.mem_append] at h
  rcases h with h | h
  · exact .inl (by simpa using h)
  · refine .inr ((mem_intercalate h).imp_right ?_)
    rintro ⟨p, hp, hc⟩
    obtain ⟨s, hs, rfl⟩ := List.mem_map.1 hp
    exact ⟨s, hs, hc⟩

def frame : List Char := [' ', '|', '-', '+']

theorem mem_rowLine {widths : List Nat} {cells : Row} {c : Char}
    (h : c ∈ (rowLine widths cells).toList) : c ∈ frame ∨ ∃ s ∈ cells, c ∈ s.toList := by
  rcases mem_line h with rfl | h | ⟨p, hp, hc⟩
  · exact .inl (by decide)
  · have hframe : ∀ c ∈ [' ', '|', ' '], c ∈ frame := by simp [frame]
    exact .inl (hframe c h)
  · obtain ⟨w, s, hs, rfl⟩ : ∃ w, ∃ s ∈ cells, padRight w s = p := by
      obtain ⟨i, hi⟩ := List.mem_iff_getElem?.1 hp
      obtain ⟨w, s, -, hs, rfl⟩ := List.getElem?_zipWith_eq_some.1 hi
      exact ⟨w, s, List.mem_of_getElem? hs, rfl⟩
    rcases mem_padRight hc with rfl | hc
    · exact .inl (by decide)
    · exact .inr ⟨s, hs, hc⟩

theorem mem_ruleLine {widths : List Nat} {c : Char} (h : c ∈ (ruleLine widths).toList) :
    c ∈ frame := by
  rcases mem_line h with rfl | h | ⟨p, hp, hc⟩
  · decide
  · have hframe : ∀ c ∈ ['-', '+', '-'], c ∈ frame := by simp [frame]
    exact hframe c h
  · obtain ⟨w, -, rfl⟩ := List.mem_map.1 hp
    rw [String.toList_ofList] at hc
    obtain rfl := List.eq_of_mem_replicate hc
    decide

theorem mem_lines_table (hrows : rows ≠ []) {text : String}
    (htext : text ∈ (table headers rows).lines) {c : Char} (hc : c ∈ text.toList) :
    c ∈ frame ∨ ∃ r ∈ headers :: rows, ∃ s ∈ r, c ∈ s.toList := by
  by_cases hshort : ∃ r ∈ rows, r.length < headers.length
  · rw [table_of_short hshort] at htext
    cases htext
  obtain ⟨front, back, rfl, hfront⟩ := exists_isFront hshort
  rw [hfront.table_eq hrows] at htext
  rcases List.mem_cons.1 htext with rfl | htext
  · exact (mem_rowLine hc).imp_right fun hs => ⟨headers, List.mem_cons_self, hs⟩
  rcases List.mem_cons.1 htext with rfl | htext
  · exact .inl (mem_ruleLine hc)
  · obtain ⟨r, hr, rfl⟩ := List.mem_map.1 htext
    exact (mem_rowLine hc).imp_right fun hs =>
      ⟨r, List.mem_cons_of_mem headers (List.mem_append_left back hr), hs⟩

end Frame

def texts {α : Type} (text : α → String) (rows : List (List α)) : List Row := rows.map (·.map text)

/-- A table is printed in full exactly when all rows have as many cells as there are headers. Then,
and before the first row that is too long, there is a line for the headers, one for the rule and one
for each row, with the columns under each other. Nothing at all is printed when a row is too short.
A line break can only come from a header or a cell. -/
theorem table_aligned {α : Type} {text : α → String} {headers : Row} {rows : List (List α)}
    (hrows : rows ≠ []) :
    let printed := table headers (texts text rows)
    (printed.failure = none ↔ ∀ r ∈ rows, r.length = headers.length) ∧
    (printed.failure = some outOfRange ↔ ∃ r ∈ rows, r.length ≠ headers.length) ∧
    ((∀ r ∈ rows, r.length = headers.length) → ∃ l : Layout,
      l.Fits headers (texts text rows) ∧ l.Shows headers (texts text rows) printed.lines) ∧
    ((∃ r ∈ rows, r.length < headers.length) → printed.lines = []) ∧
    (∀ front r back, rows = front ++ r :: back → (∀ s ∈ rows, headers.length ≤ s.length) →
      (∀ s ∈ front, s.length = headers.length) → headers.length < r.length → ∃ l : Layout,
        l.Fits headers (texts text rows) ∧ l.Shows headers (texts text front) printed.lines) ∧
    ∀ line ∈ printed.lines, ∀ c ∈ line.toList, c ∈ frame ∨ (∃ s ∈ headers, c ∈ s.toList) ∨
      ∃ r ∈ rows, ∃ v ∈ r, c ∈ (text v).toList := by
  intro printed
  have hne : texts text rows ≠ [] := by simpa [texts] using hrows
  have hlengths (P : Nat → Prop) :
      (∀ r ∈ texts text rows, P r.length) ↔ ∀ r ∈ rows, P r.length := by
    simp [texts]
  have hfailure : printed.failure =
      if ∀ r ∈ rows, r.length = headers.length then none else some outOfRange := by
    simp only [printed, failure_table hne, hlengths (· = headers.length)]
  refine ⟨by simp [hfailure], by simp [hfailure], fun h => ?_, fun h => ?_, ?_, ?_⟩
  · have hfront := isFront_nil ((hlengths (· = headers.length)).2 h)
    have hlayout := hfront.exists_layout ((List.append_nil _).symm ▸ hne)
    rwa [List.append_nil] at hlayout
  · exact congrArg Printed.lines (table_of_short (by simpa [texts] using h))
  · rintro front r back rfl hle hfit hlong
    have htexts : texts text (front ++ r :: back) = texts text front ++ texts text (r :: back) :=
      List.map_append
    have hfront : IsFront headers.length (texts text front) (texts text (r :: back)) := by
      refine ⟨htexts ▸ (hlengths (headers.length ≤ ·)).2 hle, by simpa [texts] using hfit, ?_⟩
      simpa [texts] using hlong
    rw [htexts] at hne
    simp only [printed, htexts]
    exact hfront.exists_layout hne
  · intro line hline c hc
    refine (mem_lines_table hne hline hc).imp_right ?_
    rintro ⟨r, hr, s, hs, hc⟩
    rcases List.mem_cons.1 hr with rfl | hr
    · exact .inl ⟨s, hs, hc⟩
    · obtain ⟨cells, hcells, rfl⟩ := List.mem_map.1 hr
      obtain ⟨v, hv, rfl⟩ := List.mem_map.1 hs
      exact .inr ⟨cells, hcells, v, hv, hc⟩

def raggedRows : List (List Json) :=
  [[.str "é日", .null], [.str "x", .int 10, .bool true], [.str "xyz", .null]]

theorem table_aligned_sample :
    raggedRows ≠ [] ∧ table ["n", "size"] (texts cell raggedRows) =
        ⟨["  n   | size", "  ----+-----", "  é日  |     "], some outOfRange⟩ ∧
      ∃ l : Layout, l.Fits ["n", "size"] (texts cell raggedRows) ∧
        l.Shows ["n", "size"] [["é日", ""]]
          ["  n   | size", "  ----+-----", "  é日  |     "] := by
  have hrows : raggedRows ≠ [] := List.cons_ne_nil _ _
  have htable : table ["n", "size"] (texts cell raggedRows) =
      ⟨["  n   | size", "  ----+-----", "  é日  |     "], some outOfRange⟩ := by decide +kernel
  obtain ⟨-, -, -, -, hlong, -⟩ := @table_aligned Json cell ["n", "size"] raggedRows hrows
  rw [htable] at hlong
  refine ⟨hrows, htable, hlong [[.str "é日", .null]] _ [[.str "xyz", .null]] rfl ?_ ?_ ?_⟩
  · simp [raggedRows]
  · simp
  · decide

end MediaCatalog.Report

import CodeHealth.Proofs.TextLines
import CodeHealth.Report.Markdown
import Mathlib.Data.List.Basic

/-!
Tables of findings in Markdown.

The findings of each severity stand below a heading with their number. A row for each of the first
ones and the number of the others account for all of them. A row is parted into cells by its pipes,
but for those behind an odd number of backslashes; escaping a pipe changes of which kind it is, so a
pipe of a message does no harm unless a backslash was written before it, while paths and the names
of rules are not escaped at all.
-/

namespace CodeHealth.Proofs.MarkdownTables

open CodeHealth.Report CodeHealth.Text CodeHealth.Proofs.TextLines

/-! ### Cells -/

/-- The number of backslashes right before the next character. -/
def countBackslash (n : ℕ) (c : Char) : ℕ := if c = '\\' then n + 1 else 0

/-- The number of backslashes right before what follows a text that starts behind `n` of them. -/
def backslashesAfter (n : ℕ) (t : List Char) : ℕ := t.foldl countBackslash n

/-- The pieces of a text between its pipes, behind `n` backslashes. A pipe behind an odd number of
backslashes belongs to a piece. -/
def barPieces (n : ℕ) : List Char → List (List Char)
  | [] => [[]]
  | c :: cs =>
    if c = '|' ∧ n % 2 = 0 then [] :: barPieces 0 cs
    else (barPieces (countBackslash n c) cs).modifyHead (c :: ·)

/-- The cells of a row, which starts and ends with a pipe. -/
def cells (row : List Char) : List (List Char) := (barPieces 0 row).tail.dropLast

/-- The number of pipes of a text that starts behind `n` backslashes: of those behind an odd number
of backslashes, or of the others. -/
def countBars (odd : Bool) (n : ℕ) : List Char → ℕ
  | [] => 0
  | c :: cs =>
    (if c = '|' ∧ (n % 2 == 1) = odd then 1 else 0) + countBars odd (countBackslash n c) cs

section Cells

variable {odd : Bool} {n : ℕ} {s t : List Char}

lemma countBars_append : countBars odd n (s ++ t) =
    countBars odd n s + countBars odd (backslashesAfter n s) t := by
  induction s generalizing n with
  | nil => exact (Nat.zero_add _).symm
  | cons c s ih => rw [List.cons_append, countBars, countBars, ih, Nat.add_assoc]; rfl

lemma countBars_plain (h : '|' ∉ s) : countBars odd n s = 0 := by
  induction s generalizing n with
  | nil => rfl
  | cons c s ih =>
    rw [List.mem_cons, not_or] at h
    rw [countBars, ih h.2, if_neg fun hc => h.1 hc.1.symm]

lemma length_barPieces : (barPieces n t).length = countBars false n t + 1 := by
  induction t generalizing n with
  | nil => rfl
  | cons c t ih =>
    rw [barPieces, countBars]
    by_cases hc : c = '|' ∧ n % 2 = 0
    · have hbar : c = '|' ∧ (n % 2 == 1) = false := ⟨hc.1, by rw [hc.2]; rfl⟩
      have hcount : countBackslash n c = 0 := by rw [hc.1]; rfl
      rw [if_pos hc, if_pos hbar, List.length_cons, ih, hcount]
      omega
    · have hbar : ¬ (c = '|' ∧ (n % 2 == 1) = false) := by
        rintro ⟨rfl, heven⟩
        refine hc ⟨rfl, ?_⟩
        rw [beq_eq_false_iff_ne] at heven
        omega
      rw [if_neg hc, if_neg hbar, List.length_modifyHead, ih, Nat.zero_add]

lemma barPieces_append (hnone : countBars false n s = 0) (heven : backslashesAfter n s % 2 = 0) :
    barPieces n (s ++ '|' :: t) = s :: barPieces 0 t := by
  induction s generalizing n with
  | nil => exact if_pos ⟨rfl, heven⟩
  | cons c s ih =>
    rw [countBars, Nat.add_eq_zero_iff] at hnone
    have hc : ¬ (c = '|' ∧ n % 2 = 0) := by
      rintro ⟨rfl, hn⟩
      have hbar := hnone.1
      rw [hn] at hbar
      cases hbar
    rw [List.cons_append, barPieces, if_neg hc, ih hnone.2 heven]
    rfl

lemma countBars_escape : countBars false n (t.flatMap escapeCellChar) = countBars true n t := by
  induction t generalizing n with
  | nil => rfl
  | cons c t ih =>
    rw [List.flatMap_cons, countBars_append, ih, countBars]
    by_cases hbar : c = '|'
    · subst hbar
      have hbackslash : countBackslash n '\\' = n + 1 := if_pos rfl
      have hpipe (m : ℕ) : countBackslash m '|' = 0 := if_neg (by decide)
      have hparity : ((n + 1) % 2 == 1) = false ↔ (n % 2 == 1) = true := by
        rw [beq_eq_false_iff_ne, beq_iff_eq]
        omega
      have hescaped : escapeCellChar '|' = ['\\', '|'] := rfl
      have hafter : backslashesAfter n ['\\', '|'] = 0 := rfl
      have hself : ¬ ('\\' = '|' ∧ (n % 2 == 1) = false) := fun h => absurd h.1 (by decide)
      rw [hescaped, hafter, hpipe, countBars, countBars, countBars, hbackslash, if_neg hself,
        Nat.zero_add, Nat.add_zero]
      simp only [hparity]
    · by_cases hline : c = '\n'
      · subst hline
        rfl
      · have hself : escapeCellChar c = [c] := by rw [escapeCellChar, if_neg hbar, if_neg hline]
        rw [hself, countBars_plain (by simpa using Ne.symm hbar), if_neg fun h => hbar h.1]
        rfl

lemma backslashesAfter_snoc {c : Char} (h : c ≠ '\\') : backslashesAfter n (s ++ [c]) = 0 := by
  rw [backslashesAfter, List.foldl_append]
  exact if_neg h

/-- A row of cells, each with a pipe behind it. -/
def row (cs : List (List Char)) : List Char := '|' :: cs.flatMap (· ++ ['|'])

/-- The number of pipes that part a cell of a row. -/
def partingBars : List (List Char) → ℕ
  | [] => 0
  | c :: cs => countBars false 0 c + partingBars cs

variable {cs : List (List Char)}

lemma cells_row (hend : ∀ c ∈ cs, backslashesAfter 0 c = 0) (hnone : partingBars cs = 0) :
    cells (row cs) = cs := by
  have hpieces : barPieces 0 (cs.flatMap (· ++ ['|'])) = cs ++ [[]] := by
    induction cs with
    | nil => rfl
    | cons c cs ih =>
      rw [List.forall_mem_cons] at hend
      rw [partingBars, Nat.add_eq_zero_iff] at hnone
      rw [List.flatMap_cons, List.append_assoc, List.singleton_append,
        barPieces_append hnone.1 (by rw [hend.1]), ih hend.2 hnone.2, List.cons_append]
  have hrow : barPieces 0 (row cs) = [] :: barPieces 0 (cs.flatMap (· ++ ['|'])) :=
    if_pos ⟨rfl, rfl⟩
  rw [cells, hrow, List.tail_cons, hpieces, List.dropLast_concat]

/-- Each pipe of a cell behind an even number of backslashes adds a cell to the row. -/
lemma length_cells_row (hend : ∀ c ∈ cs, backslashesAfter 0 c = 0) :
    (cells (row cs)).length = cs.length + partingBars cs := by
  have hbars : countBars false 0 (cs.flatMap (· ++ ['|'])) = cs.length + partingBars cs := by
    induction cs with
    | nil => rfl
    | cons c cs ih =>
      rw [List.forall_mem_cons] at hend
      have hbar : countBars false 0 ['|'] = 1 := rfl
      have hafter : backslashesAfter 0 (c ++ ['|']) = 0 := backslashesAfter_snoc (by decide)
      rw [List.flatMap_cons, countBars_append, countBars_append, hend.1, hbar, hafter, ih hend.2,
        List.length_cons, partingBars]
      omega
  have hrow : countBars false 0 (row cs) = 1 + countBars false 0 (cs.flatMap (· ++ ['|'])) := rfl
  rw [cells, List.length_dropLast, List.length_tail, length_barPieces, hrow, hbars]
  omega

end Cells

/-! ### Rows -/

def codeCell (t : List Char) : List Char := [' ', '`'] ++ (t ++ ['`', ' '])

def textCell (t : List Char) : List Char := ' ' :: (t ++ [' '])

def placeText (f : Finding) : List Char :=
  f.file.text.toList ++ ':' :: ((toString f.line).toList ++ ':' :: (toString f.column).toList)

def adviceText (f : Finding) : List Char := (f.suggestion.getD "").toList

def findingCells (f : Finding) : List (List Char) :=
  [codeCell (placeText f), codeCell f.ruleId.toList,
    textCell (f.message.toList.flatMap escapeCellChar),
    textCell ((adviceText f).flatMap escapeCellChar)]

/-- The row of a finding, without the end of its line. -/
def findingRow (f : Finding) : List Char := row (findingCells f)

section Rows

variable {n : ℕ} {t : List Char}

lemma countBars_codeCell : countBars false 0 (codeCell t) = countBars false 0 t := by
  have hlead : backslashesAfter 0 [' ', '`'] = 0 := rfl
  rw [codeCell, countBars_append, countBars_append, hlead,
    countBars_plain (s := [' ', '`']) (by decide), countBars_plain (s := ['`', ' ']) (by decide),
    Nat.zero_add, Nat.add_zero]

lemma countBars_textCell : countBars false 0 (textCell t) = countBars false 0 t := by
  have hlead : countBars false 0 (textCell t) = 0 + countBars false 0 (t ++ [' ']) := rfl
  rw [hlead, countBars_append, countBars_plain (s := [' ']) (by decide), Nat.zero_add, Nat.add_zero]

variable (f : Finding)

lemma findingCells_end : ∀ c ∈ findingCells f, backslashesAfter 0 c = 0 := by
  have hcode (t : List Char) : backslashesAfter 0 (codeCell t) = 0 := by
    have hsnoc : codeCell t = ([' ', '`'] ++ t ++ ['`']) ++ [' '] := by simp [codeCell]
    rw [hsnoc, backslashesAfter_snoc (by decide)]
  have htext (t : List Char) : backslashesAfter 0 (textCell t) = 0 :=
    backslashesAfter_snoc (s := ' ' :: t) (by decide)
  simp only [findingCells, List.forall_mem_cons, hcode, htext, true_and]
  exact List.forall_mem_nil _

lemma notMem_digits {c : Char} (h : c.isDigit = false) (n : ℕ) : c ∉ Nat.toDigits 10 n := by
  intro hc
  have hdigit := Nat.isDigit_of_mem_toDigits (by decide) (by decide) hc
  rw [h] at hdigit
  cases hdigit

lemma countBars_placeText :
    countBars false 0 (placeText f) = countBars false 0 f.file.text.toList := by
  have hplain : '|' ∉ ':' :: ((toString f.line).toList ++ ':' :: (toString f.column).toList) := by
    simp [notMem_digits]
  rw [placeText, countBars_append, countBars_plain hplain, Nat.add_zero]

/-- The number of pipes that part a cell of a finding: those of its path and its rule that are not
behind an odd number of backslashes, and those of its texts that are. -/
def strayBars : ℕ :=
  countBars false 0 f.file.text.toList + (countBars false 0 f.ruleId.toList +
    (countBars true 0 f.message.toList + countBars true 0 (adviceText f)))

lemma partingBars_findingCells : partingBars (findingCells f) = strayBars f := by
  simp only [findingCells, partingBars, countBars_codeCell, countBars_textCell, countBars_placeText,
    countBars_escape, strayBars, Nat.add_zero]

lemma length_cells_findingRow : (cells (findingRow f)).length = 4 + strayBars f := by
  rw [findingRow, length_cells_row (findingCells_end f), partingBars_findingCells]
  rfl

lemma cells_findingRow : cells (findingRow f) = findingCells f ↔ strayBars f = 0 := by
  constructor
  · intro hcells
    have hlength := length_cells_findingRow f
    have hfour : (findingCells f).length = 4 := rfl
    rw [hcells, hfour] at hlength
    omega
  · intro hnone
    rw [← partingBars_findingCells] at hnone
    exact cells_row (findingCells_end f) hnone

lemma mem_findingRow {c : Char} (hdigit : c.isDigit = false) (hmark : c ∉ ['|', ' ', '`', ':']) :
    c ∈ findingRow f ↔ c ∈ f.file.text.toList ∨ c ∈ f.ruleId.toList ∨
      c ∈ f.message.toList.flatMap escapeCellChar ∨ c ∈ (adviceText f).flatMap escapeCellChar := by
  simp only [List.mem_cons, List.not_mem_nil, or_false, not_or] at hmark
  obtain ⟨hbar, hblank, htick, hcolon⟩ := hmark
  have hline := notMem_digits hdigit f.line
  have hcolumn := notMem_digits hdigit f.column
  simp [findingRow, row, findingCells, codeCell, textCell, placeText, hbar, hblank, htick, hcolon,
    hline, hcolumn]

lemma break_notMem_escape : '\n' ∉ t.flatMap escapeCellChar := by
  rw [List.mem_flatMap]
  rintro ⟨c, -, hc⟩
  rw [escapeCellChar] at hc
  split_ifs at hc with hbar hline
  · exact absurd hc (by decide)
  · exact absurd hc (by decide)
  · exact hline (List.mem_singleton.mp hc).symm

lemma return_mem_escape : '\r' ∈ t.flatMap escapeCellChar ↔ '\r' ∈ t := by
  rw [List.mem_flatMap]
  constructor
  · rintro ⟨c, hc, hmem⟩
    rw [escapeCellChar] at hmem
    split_ifs at hmem
    · exact absurd hmem (by decide)
    · exact absurd hmem (by decide)
    · rwa [List.mem_singleton.mp hmem]
  · exact fun h => ⟨'\r', h, by decide⟩

lemma break_mem_findingRow :
    '\n' ∈ findingRow f ↔ '\n' ∈ f.file.text.toList ∨ '\n' ∈ f.ruleId.toList := by
  rw [mem_findingRow f (by decide) (by decide), or_iff_left break_notMem_escape,
    or_iff_left break_notMem_escape]

lemma return_mem_findingRow : '\r' ∈ findingRow f ↔ '\r' ∈ f.file.text.toList ∨
    '\r' ∈ f.ruleId.toList ∨ '\r' ∈ f.message.toList ∨ '\r' ∈ adviceText f := by
  rw [mem_findingRow f (by decide) (by decide), return_mem_escape, return_mem_escape]

lemma toList_markdownRow : (markdownRow f).toList = findingRow f ++ ['\n'] := by
  have hadvice : ((f.suggestion.map escapeCell).getD "").toList =
      (adviceText f).flatMap escapeCellChar := by
    cases hf : f.suggestion with
    | none => simp [adviceText, hf]
    | some s => simp [adviceText, hf, escapeCell]
  have hrow : markdownRow f =
      "| `" ++ f.file.text ++ ":" ++ toString f.line ++ ":" ++ toString f.column ++
      "` | `" ++ f.ruleId ++ "` | " ++ escapeCell f.message ++ " | " ++
      (f.suggestion.map escapeCell).getD "" ++ " |\n" := rfl
  rw [hrow]
  simp [escapeCell, hadvice, findingRow, row, findingCells, codeCell, textCell, placeText]

end Rows

/-! ### Sections -/

/-- A text is these lines and their ends, so what stands behind it starts a line. -/
def IsLines (t : List Char) (ls : List (List Char)) : Prop :=
  ∀ rest, pieces (t ++ rest) = ls ++ pieces rest

def bySeverity (fs : List Finding) (s : Severity) : List Finding :=
  fs.filter fun f => f.severity = s

/-- The heading over the findings of a severity, with their number. -/
def headingLine (s : Severity) (n : ℕ) : List Char :=
  ("### " ++ severityTitle s ++ " (" ++ toString n ++ ")").toList

def tableHead : List (List Char) :=
  ["| Location | Rule | Message | Suggestion |".toList] ++
    ["|----------|------|---------|------------|".toList]

/-- What stands for the findings without a row. -/
def remainderLine (n : ℕ) : List Char := ("_...and " ++ toString n ++ " more_").toList

/-- The lines of a severity with these findings: the heading, a row for each of the first twenty
findings, and the number of the others if there are any. -/
def severityLines (s : Severity) (items : List Finding) : List (List Char) :=
  if items.isEmpty then []
  else
    [headingLine s items.length] ++ [[]] ++ (tableHead ++
      ((items.take 20).flatMap (fun f => pieces (findingRow f)) ++
        ((if 20 < items.length then [[], remainderLine (items.length - 20)] else []) ++ [[]])))

def findingLines (fs : List Finding) : List (List Char) :=
  ["## Findings".toList, []] ++
    if fs.isEmpty then ["No issues found.".toList, []]
    else [Severity.error, .warning, .info].flatMap fun s => severityLines s (bySeverity fs s)

section Sections

variable {s t : List Char} {ls ms : List (List Char)}

lemma isLines_nil : IsLines [] [] := fun _ => rfl

lemma isLines_pieces : IsLines (t ++ ['\n']) (pieces t) := fun rest => by
  rw [List.append_assoc, List.singleton_append, pieces_append_lineFeed]

lemma isLines_line (h : '\n' ∉ t) : IsLines (t ++ ['\n']) [t] :=
  pieces_of_notMem h ▸ isLines_pieces

lemma IsLines.append (hs : IsLines s ls) (ht : IsLines t ms) : IsLines (s ++ t) (ls ++ ms) :=
  fun rest => by rw [List.append_assoc, hs, ht, List.append_assoc]

lemma IsLines.intercalate {α : Type} {f : α → String} {g : α → List (List Char)}
    (h : ∀ a, IsLines (f a).toList (g a)) (as : List α) :
    IsLines ("".intercalate (as.map f)).toList (as.flatMap g) := by
  induction as with
  | nil => exact isLines_nil
  | cons a as ih =>
    have hhead : ("".intercalate ((a :: as).map f)).toList =
        (f a).toList ++ ("".intercalate (as.map f)).toList := by
      cases as with
      | nil => simp
      | cons b as =>
        have hne : (b :: as).map f ≠ [] := List.cons_ne_nil _ _
        rw [List.map_cons, String.intercalate_cons_of_ne_nil hne]
        simp
    rw [hhead, List.flatMap_cons]
    exact (h a).append ih

lemma break_notMem_headingLine (v : Severity) (n : ℕ) : '\n' ∉ headingLine v n := by
  have hdigits : '\n' ∉ Nat.toDigits 10 n := notMem_digits (by decide) n
  cases v <;> simp [headingLine, severityTitle, hdigits]

lemma break_notMem_remainderLine (n : ℕ) : '\n' ∉ remainderLine n := by
  have hdigits : '\n' ∉ Nat.toDigits 10 n := notMem_digits (by decide) n
  simp [remainderLine, hdigits]

lemma isLines_row (f : Finding) : IsLines (markdownRow f).toList (pieces (findingRow f)) := by
  rw [toList_markdownRow]
  exact isLines_pieces

lemma isLines_emptyLine : IsLines ['\n'] [[]] := isLines_line List.not_mem_nil

/-- The number of the findings without a row as the report writes it. -/
def remainderText (n : ℕ) : String :=
  if maxPerSeverity < n then "\n_...and " ++ toString (n - maxPerSeverity) ++ " more_\n" else ""

lemma isLines_remainder (n : ℕ) : IsLines (remainderText n).toList
    (if 20 < n then [[], remainderLine (n - 20)] else []) := by
  have hmax : maxPerSeverity = 20 := rfl
  rw [remainderText, hmax]
  split_ifs with hmany
  · have htext : ("\n_...and " ++ toString (n - 20) ++ " more_\n").toList =
        ['\n'] ++ (remainderLine (n - 20) ++ ['\n']) := by
      simp [remainderLine]
    rw [htext]
    exact isLines_emptyLine.append (isLines_line (break_notMem_remainderLine _))
  · exact isLines_nil

/-- The heading of a severity as the report writes it. -/
def headingText (v : Severity) (n : ℕ) : String :=
  "### " ++ severityTitle v ++ " (" ++ toString n ++ ")\n\n"

lemma isLines_heading (v : Severity) (n : ℕ) :
    IsLines (headingText v n).toList ([headingLine v n] ++ [[]]) := by
  have htext : (headingText v n).toList = (headingLine v n ++ ['\n']) ++ ['\n'] := by
    simp [headingText, headingLine]
  rw [htext]
  exact (isLines_line (break_notMem_headingLine v n)).append isLines_emptyLine

lemma markdownSeverity_eq {fs : List Finding} {v : Severity}
    (h : ¬ (bySeverity fs v).isEmpty = true) :
    markdownSeverity fs v = headingText v (bySeverity fs v).length ++
      ("| Location | Rule | Message | Suggestion |\n" ++
        ("|----------|------|---------|------------|\n" ++
          ("".intercalate (((bySeverity fs v).take maxPerSeverity).map markdownRow) ++
            (remainderText (bySeverity fs v).length ++ "\n")))) := by
  have hitems : fs.filter (fun f => f.severity = v) = bySeverity fs v := rfl
  simp only [markdownSeverity, hitems]
  rw [if_neg h]
  simp only [headingText, remainderText, String.append_assoc]

lemma isLines_severity (fs : List Finding) (v : Severity) :
    IsLines (markdownSeverity fs v).toList (severityLines v (bySeverity fs v)) := by
  by_cases hnone : (bySeverity fs v).isEmpty = true
  · have hempty : markdownSeverity fs v = "" := if_pos hnone
    rw [hempty, severityLines, if_pos hnone]
    exact isLines_nil
  · have hcolumns : IsLines "| Location | Rule | Message | Suggestion |\n".toList _ :=
      isLines_line (t := "| Location | Rule | Message | Suggestion |".toList) (by decide)
    have hrule : IsLines "|----------|------|---------|------------|\n".toList _ :=
      isLines_line (t := "|----------|------|---------|------------|".toList) (by decide)
    have hrows := IsLines.intercalate isLines_row ((bySeverity fs v).take maxPerSeverity)
    have hend := (isLines_remainder (bySeverity fs v).length).append isLines_emptyLine
    rw [markdownSeverity_eq hnone, severityLines, if_neg hnone, tableHead, String.toList_append,
      String.toList_append, String.toList_append, String.toList_append, String.toList_append]
    exact (isLines_heading v (bySeverity fs v).length).append (hcolumns.append (hrule.append
      (hrows.append hend)))

lemma isLines_findings (fs : List Finding) :
    IsLines (markdownFindings fs).toList (findingLines fs) := by
  have htitle : IsLines "## Findings\n\n".toList ["## Findings".toList, []] :=
    (isLines_line (t := "## Findings".toList) (by decide)).append isLines_emptyLine
  rw [markdownFindings, findingLines]
  split_ifs with hnone
  · exact htitle.append ((isLines_line (t := "No issues found.".toList) (by decide)).append
      isLines_emptyLine)
  · rw [String.toList_append]
    exact htitle.append (IsLines.intercalate (isLines_severity fs) _)

lemma exists_lead (r : Report) : ∃ lead, pieces (markdown r).toList =
    lead ++ (findingLines r.findings ++ pieces (markdownFooter r).toList) := by
  have hcategories : ∃ ls, IsLines (markdownCategories r).toList ls := by
    rw [markdownCategories]
    cases r.metrics with
    | none => exact ⟨[], isLines_nil⟩
    | some m =>
      dsimp only
      split_ifs with hnone
      · exact ⟨[], isLines_nil⟩
      · rw [String.toList_append]
        exact ⟨_, isLines_pieces⟩
  obtain ⟨ls, hls⟩ := hcategories
  refine ⟨pieces (markdownHeader r ++ "\n" ++ markdownSummary r).toList ++ ls, ?_⟩
  have htext : (markdown r).toList =
      (markdownHeader r ++ "\n" ++ markdownSummary r).toList ++ "\n".toList ++
        ((markdownCategories r).toList ++ ((markdownFindings r.findings).toList ++
          (markdownFooter r).toList)) := by
    simp only [markdown, String.toList_append, List.append_assoc]
  have hbreak : "\n".toList = ['\n'] := rfl
  rw [htext, hbreak, isLines_pieces, hls, isLines_findings, List.append_assoc]

lemma perm_bySeverity (fs : List Finding) :
    ([Severity.error, .warning, .info].flatMap (bySeverity fs)).Perm fs := by
  have hall (gs : List Finding) : [Severity.error, .warning, .info].flatMap (bySeverity gs) =
      bySeverity gs .error ++ (bySeverity gs .warning ++ bySeverity gs .info) := by
    simp
  rw [hall]
  induction fs with
  | nil => exact .nil
  | cons f fs ih =>
    have hcons (v : Severity) : bySeverity (f :: fs) v =
        if f.severity = v then f :: bySeverity fs v else bySeverity fs v := by
      simp [bySeverity, List.filter_cons]
    rw [hcons, hcons, hcons]
    -- the finding joins the findings of its severity
    cases f.severity with
    | error => exact ih.cons f
    | warning => exact List.perm_middle.trans (ih.cons f)
    | info =>
      rw [← List.append_assoc] at ih ⊢
      exact List.perm_middle.trans (ih.cons f)

end Sections

/-- **The tables account for all findings, and a row has four cells unless a pipe strays.** In the
report the findings of each severity stand below their number, the first twenty in rows and the
others counted, so that each finding is in a row or counted. The row of a finding is one line unless
the path or the rule has a line feed, and has a carriage return if any text of the finding has one.
It has a cell more than four for each pipe of the path or the rule that is not behind an odd number
of backslashes, and for each pipe of the message or the advice that is, since its escape is then not
an escape any more. Without such pipes the cells are those of the place, the rule, the message and
the advice. -/
theorem findings_tabled (r : Report) :
    (∃ lead, pieces (markdown r).toList =
      lead ++ (findingLines r.findings ++ pieces (markdownFooter r).toList)) ∧
    ([Severity.error, .warning, .info].flatMap fun v =>
      (bySeverity r.findings v).take 20 ++ (bySeverity r.findings v).drop 20).Perm r.findings ∧
    ∀ f : Finding,
      (pieces (findingRow f) = [findingRow f] ↔
        '\n' ∉ f.file.text.toList ∧ '\n' ∉ f.ruleId.toList) ∧
      ('\r' ∉ findingRow f ↔ '\r' ∉ f.file.text.toList ∧ '\r' ∉ f.ruleId.toList ∧
        '\r' ∉ f.message.toList ∧ '\r' ∉ adviceText f) ∧
      (cells (findingRow f)).length = 4 + strayBars f ∧
      (cells (findingRow f) = findingCells f ↔ strayBars f = 0) := by
  refine ⟨exists_lead r, ?_, fun f => ⟨?_, ?_, length_cells_findingRow f, cells_findingRow f⟩⟩
  · simpa only [List.take_append_drop] using perm_bySeverity r.findings
  · rw [← not_or, ← break_mem_findingRow]
    constructor
    · intro hpieces
      exact break_notMem_pieces (hpieces ▸ List.mem_singleton_self (findingRow f))
    · exact pieces_of_notMem
  · rw [return_mem_findingRow, not_or, not_or, not_or]

/-- A finding with nothing in its row that could stray. -/
def plainFinding : Finding :=
  ⟨"no-var", "Unexpected var", .warning, ⟨"src/a.ts"⟩, 1, 1, none, none⟩

/-- A pipe in a path parts its cell, a backslash before a pipe undoes its escape, and a carriage
return comes through. -/
theorem findingRow_strays :
    (cells (findingRow plainFinding)).length = 4 ∧
    (cells (findingRow { plainFinding with file := ⟨"src/a|b.ts"⟩ })).length = 5 ∧
    (cells (findingRow { plainFinding with message := "a\\|b" })).length = 5 ∧
    '\r' ∈ findingRow { plainFinding with message := "one\rtwo" } := by
  refine ⟨?_, ?_, ?_, ?_⟩ <;> decide +kernel

end CodeHealth.Proofs.MarkdownTables

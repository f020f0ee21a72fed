import Deltix.Text.Lines

/-
  The CSV format: records of fields, one record after
  another, where a field may stand between quotes.

  A writer has to quote a field with a comma, a quote or a
  line break in it, and is free to quote any other.

  Key definitions include:
    * `Csv.Cell`
    * `Csv.printCells`
    * `Csv.Style`
    * `Csv.Style.encode`
    * `Csv.trimCells`

  Key theorems include:
    * `Csv.trimChars_printCells`
    * `Csv.trimCells_eq_self`
    * `Csv.Style.solidParts_encode`
-/

namespace Text

namespace Csv

/- A character that only stands between quotes. -/
def isSpecial (c : Char) : Bool :=
  c = ',' || c = '"' || c = '\r' || c = '\n'

/- A field, with quotes around it or without. -/
structure Cell where
  quoted : Bool
  text : List Char
  plain :
    quoted = false → ∀ c ∈ text, isSpecial c = false

def escape (text : List Char) : List Char :=
  text.flatMap fun c => if c = '"' then ['"', '"'] else [c]

def Cell.print (cell : Cell) : List Char :=
  if cell.quoted then '"' :: (escape cell.text ++ ['"'])
  else cell.text

def printCells : List Cell → List Char
  | [] => []
  | [cell] => cell.print
  | cell :: next :: rest =>
      cell.print ++ ',' :: printCells (next :: rest)

/- How a writer sets its records. -/
structure Style where
  quotes : List Char → Bool
  quotesSpecial :
    ∀ field c, c ∈ field → isSpecial c = true →
      quotes field = true
  crlf : Bool
  endsLast : Bool

def Style.cell
    (style : Style)
    (field : List Char) : Cell where
  quoted := style.quotes field
  text := field
  plain := by
    intro hBare c hMember
    by_contra hSpecial
    rw [Bool.not_eq_false] at hSpecial
    have hQuotes :=
      style.quotesSpecial field c hMember hSpecial
    rw [hBare] at hQuotes
    cases hQuotes

def Style.record
    (style : Style)
    (fields : List (List Char)) : List Char :=
  printCells (fields.map style.cell)

def Style.lineEnd (style : Style) : List Char :=
  if style.crlf then ['\r', '\n'] else ['\n']

/- The line end after the last record may be left out. -/
def Style.join (style : Style) :
    List (List Char) → List Char
  | [] => []
  | [line] =>
      line ++ if style.endsLast then style.lineEnd else []
  | line :: next :: rest =>
      line ++ style.lineEnd ++ style.join (next :: rest)

def Style.encode
    (style : Style)
    (records : List (List (List Char))) : List Char :=
  style.join (records.map style.record)

/- Quotes where there have to be some. -/
def minimal : Style where
  quotes := fun field => field.any isSpecial
  quotesSpecial := by
    intro field c hMember hSpecial
    exact List.any_eq_true.mpr ⟨c, hMember, hSpecial⟩
  crlf := false
  endsLast := true

example :
    minimal.encode [[['a'], ['b', ',']], [['"'], []]] =
      "a,\"b,\"\n\"\"\"\",\n".toList := by
  decide

variable {style : Style} {line : List Char}
variable {c : Char} {cell : Cell}

theorem Style.solidParts_lineEnd
    (style : Style)
    (line rest : List Char) :
    solidParts '\n' (line ++ style.lineEnd ++ rest) =
      solidParts '\n' line ++ solidParts '\n' rest := by
  unfold Style.lineEnd
  split
  · have hSplit :
        line ++ ['\r', '\n'] ++ rest =
          (line ++ ['\r']) ++ '\n' :: rest := by
      simp
    rw [hSplit, solidParts_append,
      solidParts_append_of_blank (by decide)]
  · have hSplit :
        line ++ ['\n'] ++ rest = line ++ '\n' :: rest := by
      simp
    rw [hSplit, solidParts_append]

theorem Style.solidParts_join
    (style : Style)
    (lines : List (List Char)) :
    solidParts '\n' (style.join lines) =
      lines.flatMap (solidParts '\n') := by
  induction lines with
  | nil => rfl
  | cons line rest ih =>
      cases rest with
      | nil =>
          unfold Style.join
          rw [List.flatMap_cons, List.flatMap_nil,
            List.append_nil]
          split
          · have hEnd := style.solidParts_lineEnd line []
            rw [List.append_nil, solidParts_nil,
              List.append_nil] at hEnd
            exact hEnd
          · rw [List.append_nil]
      | cons next rest =>
          rw [Style.join, style.solidParts_lineEnd, ih]
          rfl

/- The lines of an encoding are those of its records. -/
theorem Style.solidParts_encode
    (style : Style)
    (records : List (List (List Char))) :
    solidParts '\n' (style.encode records) =
      records.flatMap fun fields =>
        solidParts '\n' (style.record fields) := by
  unfold Style.encode
  rw [style.solidParts_join, List.flatMap_map]

/- A record with a line break has two lines at least: one
   with a quote before it and one with a quote after it. -/
theorem Style.two_le_solidParts
    {fields : List (List Char)}
    {field : List Char}
    (hField : field ∈ fields)
    (hBreak : '\n' ∈ field) :
    2 ≤ (solidParts '\n' (style.record fields)).length := by
  have hQuotes : style.quotes field = true :=
    style.quotesSpecial field '\n' hBreak (by decide)
  have hAround :
      ∀ cells : List Cell, style.cell field ∈ cells →
        ∃ before after,
          printCells cells =
            before ++ (style.cell field).print ++ after := by
    intro cells hMember
    induction cells with
    | nil => cases hMember
    | cons cell rest ih =>
        cases rest with
        | nil =>
            refine ⟨[], [], ?_⟩
            rw [List.mem_singleton.mp hMember]
            simp [printCells]
        | cons next rest =>
            rcases List.mem_cons.mp hMember with hSame | hLater
            · refine
                ⟨[], ',' :: printCells (next :: rest), ?_⟩
              rw [hSame]
              simp [printCells]
            · rcases ih hLater with ⟨before, after, hPrint⟩
              refine ⟨cell.print ++ ',' :: before, after, ?_⟩
              rw [printCells, hPrint]
              simp
  rcases hAround (fields.map style.cell)
      (List.mem_map_of_mem hField) with
    ⟨before, after, hPrint⟩
  rcases List.append_of_mem hBreak with ⟨first, second, hSplit⟩
  have hRecord :
      style.record fields =
        (before ++ '"' :: escape first) ++
          '\n' :: (escape second ++ '"' :: after) := by
    unfold Style.record
    rw [hPrint]
    have hCell : (style.cell field).quoted = true := hQuotes
    have hText : (style.cell field).text = field := rfl
    unfold Cell.print
    rw [if_pos hCell, hText, hSplit]
    simp [escape]
  have hBlank : isBlank '"' = false := by decide
  have hBefore :
      solidParts '\n' (before ++ '"' :: escape first) ≠ [] :=
    solidParts_ne_nil
      (List.mem_append_right _ List.mem_cons_self) hBlank
      (by decide)
  have hAfter :
      solidParts '\n' (escape second ++ '"' :: after) ≠ [] :=
    solidParts_ne_nil
      (List.mem_append_right _ List.mem_cons_self) hBlank
      (by decide)
  rw [hRecord, solidParts_append, List.length_append]
  have hFirst := List.length_pos_of_ne_nil hBefore
  have hSecond := List.length_pos_of_ne_nil hAfter
  omega

------------------------------------------------------------
-- Blanks Around A Record
------------------------------------------------------------

/- A cell without the blanks before it, if it is bare. -/
def Cell.trimStart (cell : Cell) : Cell where
  quoted := cell.quoted
  text :=
    if cell.quoted then cell.text
    else cell.text.dropWhile isBlank
  plain := by
    intro hBare c hMember
    rw [hBare, if_neg (by decide)] at hMember
    exact
      cell.plain hBare c
        ((List.dropWhile_suffix isBlank).subset hMember)

def dropBlankEnd (text : List Char) : List Char :=
  (text.reverse.dropWhile isBlank).reverse

def Cell.trimEnd (cell : Cell) : Cell where
  quoted := cell.quoted
  text :=
    if cell.quoted then cell.text
    else dropBlankEnd cell.text
  plain := by
    intro hBare c hMember
    rw [hBare, if_neg (by decide)] at hMember
    unfold dropBlankEnd at hMember
    rw [List.mem_reverse] at hMember
    have hInner :=
      (List.dropWhile_suffix isBlank).subset hMember
    exact cell.plain hBare c (List.mem_reverse.mp hInner)

def trimFirst : List Cell → List Cell
  | [] => []
  | cell :: rest => cell.trimStart :: rest

def trimLast : List Cell → List Cell
  | [] => []
  | [cell] => [cell.trimEnd]
  | cell :: next :: rest => cell :: trimLast (next :: rest)

/- The cells of a record without the blanks around it. -/
def trimCells (cells : List Cell) : List Cell :=
  trimLast (trimFirst cells)

theorem dropWhile_append_cons
    (hSolid : isBlank c = false)
    (before after : List Char) :
    (before ++ c :: after).dropWhile isBlank =
      before.dropWhile isBlank ++ c :: after := by
  induction before with
  | nil =>
      rw [List.nil_append, List.dropWhile_cons_of_neg]
      · rfl
      · rw [hSolid]
        decide
  | cons first rest ih =>
      rw [List.cons_append]
      by_cases hFirst : isBlank first = true
      · rw [List.dropWhile_cons_of_pos hFirst,
          List.dropWhile_cons_of_pos hFirst, ih]
      · rw [List.dropWhile_cons_of_neg hFirst,
          List.dropWhile_cons_of_neg hFirst, List.cons_append]

theorem dropBlankEnd_append_cons
    (hSolid : isBlank c = false)
    (before after : List Char) :
    dropBlankEnd (before ++ c :: after) =
      before ++ c :: dropBlankEnd after := by
  unfold dropBlankEnd
  rw [List.reverse_append, List.reverse_cons,
    List.append_assoc, List.singleton_append,
    dropWhile_append_cons hSolid]
  simp

theorem print_trimStart (cell : Cell) :
    cell.trimStart.print = cell.print.dropWhile isBlank := by
  unfold Cell.print Cell.trimStart
  by_cases hQuoted : cell.quoted = true
  · simp only [if_pos hQuoted]
    rw [List.dropWhile_cons_of_neg (by decide)]
  · simp only [if_neg hQuoted]

theorem print_trimEnd (cell : Cell) :
    cell.trimEnd.print = dropBlankEnd cell.print := by
  unfold Cell.print Cell.trimEnd
  by_cases hQuoted : cell.quoted = true
  · have hQuote : isBlank '"' = false := by decide
    have hEnd :=
      dropBlankEnd_append_cons hQuote
        ('"' :: escape cell.text) []
    simp only [if_pos hQuoted]
    rw [List.cons_append] at hEnd
    exact hEnd.symm
  · simp only [if_neg hQuoted]

theorem printCells_trimFirst (cells : List Cell) :
    printCells (trimFirst cells) =
      (printCells cells).dropWhile isBlank := by
  cases cells with
  | nil => rfl
  | cons cell rest =>
      cases rest with
      | nil => exact print_trimStart cell
      | cons next rest =>
          rw [trimFirst, printCells, printCells,
            print_trimStart,
            dropWhile_append_cons (by decide)]

theorem printCells_trimLast (cells : List Cell) :
    printCells (trimLast cells) =
      dropBlankEnd (printCells cells) := by
  induction cells with
  | nil => rfl
  | cons cell rest ih =>
      cases rest with
      | nil => exact print_trimEnd cell
      | cons next rest =>
          have hMore :
              ∀ more, trimLast (next :: rest) = more →
                printCells (cell :: more) =
                  cell.print ++ ',' :: printCells more := by
            intro more hSame
            cases more with
            | nil =>
                cases rest with
                | nil => cases hSame
                | cons third rest => cases hSame
            | cons first more => rfl
          rw [trimLast, hMore _ rfl, ih, printCells,
            dropBlankEnd_append_cons (by decide)]

/- To trim a record is to trim its cells. -/
theorem trimChars_printCells (cells : List Cell) :
    trimChars (printCells cells) =
      printCells (trimCells cells) := by
  unfold trimCells
  rw [printCells_trimLast, printCells_trimFirst]
  rfl

theorem length_trimCells (cells : List Cell) :
    (trimCells cells).length = cells.length := by
  have hLast :
      ∀ cells : List Cell,
        (trimLast cells).length = cells.length := by
    intro cells
    induction cells with
    | nil => rfl
    | cons cell rest ih =>
        cases rest with
        | nil => rfl
        | cons next rest =>
            rw [trimLast, List.length_cons, ih]
            rfl
  unfold trimCells
  rw [hLast]
  cases cells with
  | nil => rfl
  | cons cell rest => rfl

/- How many characters the cells have. -/
def weight : List Cell → Nat
  | [] => 0
  | cell :: rest => cell.text.length + weight rest

theorem Cell.eq_of_text
    {other : Cell}
    (hQuoted : cell.quoted = other.quoted)
    (hText : cell.text = other.text) :
    cell = other := by
  cases cell
  cases other
  rw [Cell.mk.injEq]
  exact ⟨hQuoted, hText⟩

/- A cell loses characters, or it stays the same. -/
theorem trimStart_cases (cell : Cell) :
    cell.trimStart.text.length < cell.text.length ∨
      cell.trimStart = cell := by
  by_cases hQuoted : cell.quoted = true
  · right
    exact Cell.eq_of_text rfl (if_pos hQuoted)
  · have hText :
        cell.trimStart.text = cell.text.dropWhile isBlank :=
      if_neg hQuoted
    have hSuffix : cell.trimStart.text <:+ cell.text := by
      rw [hText]
      exact List.dropWhile_suffix _
    rcases Nat.lt_or_eq_of_le hSuffix.length_le with
      hLess | hSame
    · exact Or.inl hLess
    · right
      exact Cell.eq_of_text rfl (hSuffix.eq_of_length hSame)

theorem trimEnd_cases (cell : Cell) :
    cell.trimEnd.text.length < cell.text.length ∨
      cell.trimEnd = cell := by
  by_cases hQuoted : cell.quoted = true
  · right
    exact Cell.eq_of_text rfl (if_pos hQuoted)
  · have hText :
        cell.trimEnd.text = dropBlankEnd cell.text :=
      if_neg hQuoted
    have hPrefix : cell.trimEnd.text <+: cell.text := by
      rw [hText, ← List.reverse_suffix]
      unfold dropBlankEnd
      rw [List.reverse_reverse]
      exact List.dropWhile_suffix _
    rcases Nat.lt_or_eq_of_le hPrefix.length_le with
      hLess | hSame
    · exact Or.inl hLess
    · right
      exact Cell.eq_of_text rfl (hPrefix.eq_of_length hSame)

theorem trimFirst_cases (cells : List Cell) :
    weight (trimFirst cells) < weight cells ∨
      trimFirst cells = cells := by
  cases cells with
  | nil => exact Or.inr rfl
  | cons cell rest =>
      rcases trimStart_cases cell with hLess | hSame
      · left
        unfold trimFirst weight
        omega
      · right
        rw [trimFirst, hSame]

theorem trimLast_cases (cells : List Cell) :
    weight (trimLast cells) < weight cells ∨
      trimLast cells = cells := by
  induction cells with
  | nil => exact Or.inr rfl
  | cons cell rest ih =>
      cases rest with
      | nil =>
          rcases trimEnd_cases cell with hLess | hSame
          · left
            unfold trimLast
            simp only [weight]
            omega
          · right
            rw [trimLast, hSame]
      | cons next rest =>
          rw [trimLast]
          rcases ih with hLess | hSame
          · left
            rw [weight, weight]
            omega
          · right
            rw [hSame]

/- Cells that lose no character stay the same. -/
theorem trimCells_eq_self
    {cells : List Cell}
    (hWeight : weight cells ≤ weight (trimCells cells)) :
    trimCells cells = cells := by
  unfold trimCells at hWeight ⊢
  rcases trimLast_cases (trimFirst cells) with hLess | hLast
  · rcases trimFirst_cases cells with hMore | hFirst
    · omega
    · rw [hFirst] at hLess hWeight
      omega
  · rw [hLast] at hWeight ⊢
    rcases trimFirst_cases cells with hMore | hFirst
    · omega
    · exact hFirst

theorem trimStart_eq_self
    (hStart :
      ∀ c, cell.text.head? = some c → isBlank c = false) :
    cell.trimStart = cell := by
  refine Cell.eq_of_text rfl ?_
  unfold Cell.trimStart
  dsimp only
  split
  · rfl
  · cases hText : cell.text with
    | nil => rfl
    | cons c rest =>
        rw [hText] at hStart
        rw [List.dropWhile_cons_of_neg]
        rw [hStart c rfl]
        decide

theorem trimEnd_eq_self
    (hEnd :
      ∀ c, cell.text.getLast? = some c → isBlank c = false) :
    cell.trimEnd = cell := by
  refine Cell.eq_of_text rfl ?_
  unfold Cell.trimEnd
  dsimp only
  split
  · rfl
  · unfold dropBlankEnd
    rw [← List.head?_reverse] at hEnd
    cases hText : cell.text.reverse with
    | nil =>
        rw [List.reverse_eq_nil_iff.mp hText]
        rfl
    | cons c rest =>
        rw [hText] at hEnd
        rw [List.dropWhile_cons_of_neg]
        · rw [← hText, List.reverse_reverse]
        · rw [hEnd c rfl]
          decide

/- There is nothing to trim where the first and the last of
   the cells stay as they are. -/
theorem trimCells_of_edges
    {first : Cell}
    {rest : List Cell}
    (hStart : first.trimStart = first)
    (hEnd :
      ∀ last, (first :: rest).getLast? = some last →
        last.trimEnd = last) :
    trimCells (first :: rest) = first :: rest := by
  have hLast :
      ∀ cells : List Cell,
        (∀ last, cells.getLast? = some last →
            last.trimEnd = last) →
          trimLast cells = cells := by
    intro cells hEnd
    induction cells with
    | nil => rfl
    | cons cell rest ih =>
        cases rest with
        | nil => rw [trimLast, hEnd cell rfl]
        | cons next rest =>
            rw [List.getLast?_cons_cons] at hEnd
            rw [trimLast, ih hEnd]
  unfold trimCells
  rw [trimFirst, hStart]
  exact hLast _ hEnd

end Csv

end Text

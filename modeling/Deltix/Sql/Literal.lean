import Mathlib.Data.List.Basic

/-
  String literals of a SQL dialect with two ways to escape a
  quote: doubling it, and a backslash.

  A dialect fixes the quote, the backslash and what a
  backslash followed by a character stands for.  The lexer
  reads a statement into symbols and string literals; it
  does not group symbols into words or comments.  `doubled`
  is the escaper that only doubles quotes.

  Key definitions include:
    * `Dialect`
    * `Dialect.readLiteral`
    * `Dialect.tokens`
    * `Dialect.doubled`
    * `Dialect.EscapesKept`
    * `Part`
    * `Dialect.Template`

  Key theorems include:
    * `Dialect.readLiteral_doubled`
    * `Dialect.escapesKept_of_readLiteral`
    * `Dialect.tokens_render_iff`
-/

------------------------------------------------------------
-- Dialects And Their Lexer
------------------------------------------------------------

namespace Sql

/-
  A dialect over an alphabet.  An escape sequence either
  stands for itself, backslash included, or for one
  character, and only a doubled backslash stands for a
  backslash.
-/
structure Dialect (α : Type) where
  quote : α
  backslash : α
  unescape : α → List α
  quote_ne_backslash : quote ≠ backslash
  unescape_cases :
    ∀ c,
      (unescape c = [backslash, c] ∧
        c ≠ quote ∧ c ≠ backslash) ∨
      ∃ d, unescape c = [d] ∧
        (d = backslash ↔ c = backslash)

/- A statement is read into symbols and string literals. -/
inductive Token (α : Type) where
  | symbol (c : α)
  | literal (value : List α)
  deriving DecidableEq

namespace Dialect

variable {α : Type} [DecidableEq α]
variable (D : Dialect α)

/-
  Read a literal from behind its opening quote: its value
  and the text behind its closing quote.
-/
def readLiteral : List α → Option (List α × List α)
  | [] => none
  | [c] => if c = D.quote then some ([], []) else none
  | c :: d :: rest =>
      if c = D.quote then
        if d = D.quote then
          (readLiteral rest).map fun read =>
            (D.quote :: read.1, read.2)
        else some ([], d :: rest)
      else if c = D.backslash then
        (readLiteral rest).map fun read =>
          (D.unescape d ++ read.1, read.2)
      else
        (readLiteral (d :: rest)).map fun read =>
          (c :: read.1, read.2)

/- The lexer, inside a literal read so far or outside. -/
def scan :
    Option (List α) → List α → Option (List (Token α))
  | none, [] => some []
  | none, c :: rest =>
      if c = D.quote then scan (some []) rest
      else (scan none rest).map (Token.symbol c :: ·)
  | some _, [] => none
  | some value, [c] =>
      if c = D.quote then some [.literal value] else none
  | some value, c :: d :: rest =>
      if c = D.quote then
        if d = D.quote then
          scan (some (value ++ [D.quote])) rest
        else
          (scan none (d :: rest)).map
            (Token.literal value :: ·)
      else if c = D.backslash then
        scan (some (value ++ D.unescape d)) rest
      else scan (some (value ++ [c])) (d :: rest)

/- The tokens of a statement. -/
def tokens (text : List α) : Option (List (Token α)) :=
  D.scan none text

/- Escape a value by doubling its quotes. -/
def doubled (value : List α) : List α :=
  value.flatMap fun c =>
    if c = D.quote then [c, c] else [c]

/-
  Every backslash starts an escape sequence that the dialect
  keeps as it is.
-/
def EscapesKept : List α → Prop
  | [] => True
  | [c] => c ≠ D.backslash
  | c :: d :: rest =>
      if c = D.backslash then
        D.unescape d = [D.backslash, d] ∧ EscapesKept rest
      else EscapesKept (d :: rest)

instance decidableEscapesKept :
    (value : List α) → Decidable (D.EscapesKept value)
  | [] => inferInstanceAs (Decidable True)
  | [c] => inferInstanceAs (Decidable (c ≠ D.backslash))
  | c :: d :: rest =>
      have := decidableEscapesKept rest
      have := decidableEscapesKept (d :: rest)
      inferInstanceAs
        (Decidable
          (if c = D.backslash then
            D.unescape d = [D.backslash, d] ∧
              D.EscapesKept rest
          else D.EscapesKept (d :: rest)))

variable {α : Type} [DecidableEq α]
variable (D : Dialect α)
variable {c : α} {value suffix tail : List α}

@[simp] theorem doubled_nil : D.doubled [] = [] := rfl

theorem doubled_quote
    (rest : List α) :
    D.doubled (D.quote :: rest) =
      D.quote :: D.quote :: D.doubled rest := by
  simp [doubled]

theorem doubled_cons
    (hQuote : c ≠ D.quote)
    (rest : List α) :
    D.doubled (c :: rest) = c :: D.doubled rest := by
  simp [doubled, hQuote]

/- A character that is neither quote nor backslash. -/
theorem readLiteral_plain
    {text : List α}
    (hQuote : c ≠ D.quote)
    (hBackslash : c ≠ D.backslash)
    (hText : text ≠ []) :
    D.readLiteral (c :: text) =
      (D.readLiteral text).map fun read =>
        (c :: read.1, read.2) := by
  cases text with
  | nil => exact absurd rfl hText
  | cons d rest => simp [readLiteral, hQuote, hBackslash]

theorem readLiteral_backslash
    (d : α)
    (rest : List α) :
    D.readLiteral (D.backslash :: d :: rest) =
      (D.readLiteral rest).map fun read =>
        (D.unescape d ++ read.1, read.2) := by
  simp [readLiteral, D.quote_ne_backslash.symm]

theorem readLiteral_doubled_quote
    (rest : List α) :
    D.readLiteral (D.quote :: D.quote :: rest) =
      (D.readLiteral rest).map fun read =>
        (D.quote :: read.1, read.2) := by
  simp [readLiteral]

/-
  A doubled value whose escapes are kept is read back, up to
  a suffix that does not start with a quote.
-/
theorem readLiteral_doubled
    (hKept : D.EscapesKept value)
    (hSuffix : suffix.head? ≠ some D.quote) :
    D.readLiteral (D.doubled value ++ D.quote :: suffix) =
      some (value, suffix) := by
  fun_induction EscapesKept D value with
  | case1 =>
      cases suffix with
      | nil => simp [readLiteral]
      | cons d rest =>
          have hd : d ≠ D.quote := by simpa using hSuffix
          simp [readLiteral, hd]
  | case2 c =>
      by_cases hQuote : c = D.quote
      · subst hQuote
        rw [doubled_quote, List.cons_append,
          List.cons_append, readLiteral_doubled_quote]
        cases suffix with
        | nil => simp [readLiteral]
        | cons d rest =>
            have hd : d ≠ D.quote := by simpa using hSuffix
            simp [readLiteral, hd]
      · rw [doubled_cons D hQuote, List.cons_append,
          readLiteral_plain D hQuote hKept (by simp)]
        cases suffix with
        | nil => simp [readLiteral]
        | cons d rest =>
            have hd : d ≠ D.quote := by simpa using hSuffix
            simp [readLiteral, hd]
  | case3 d rest ih =>
      have hd : d ≠ D.quote := by
        intro hEq
        rcases D.unescape_cases d with h | ⟨e, h, _⟩
        · exact h.2.1 hEq
        · rw [hKept.1] at h
          simp at h
      rw [doubled_cons D D.quote_ne_backslash.symm,
        doubled_cons D hd, List.cons_append,
        List.cons_append, readLiteral_backslash,
        ih hKept.2, hKept.1]
      rfl
  | case4 c d rest hBackslash ih =>
      by_cases hQuote : c = D.quote
      · subst hQuote
        rw [doubled_quote, List.cons_append,
          List.cons_append, readLiteral_doubled_quote,
          ih hKept]
        rfl
      · have hText :
            D.doubled (d :: rest) ++ D.quote :: suffix ≠
              [] := by simp
        rw [doubled_cons D hQuote, List.cons_append,
          readLiteral_plain D hQuote hBackslash hText,
          ih hKept]
        rfl

------------------------------------------------------------
-- Only Kept Escapes Are Read Back
------------------------------------------------------------

omit [DecidableEq α] in
/- An escaped quote does not stand for a backslash. -/
theorem unescape_quote :
    ∃ e, D.unescape D.quote = [e] ∧ e ≠ D.backslash := by
  rcases D.unescape_cases D.quote with h | ⟨e, h, hIff⟩
  · exact absurd rfl h.2.1
  · refine ⟨e, h, ?_⟩
    intro hEq
    exact D.quote_ne_backslash (hIff.mp hEq)

/- An escaped quote does not open a value with a backslash. -/
theorem readLiteral_backslash_quote
    {rest : List α}
    (hRead :
      D.readLiteral (D.backslash :: D.quote :: rest) =
        some (D.backslash :: value, tail)) :
    False := by
  rcases D.unescape_quote with ⟨e, hUnescape, hNe⟩
  rw [readLiteral_backslash, hUnescape] at hRead
  rcases Option.map_eq_some_iff.mp hRead with
    ⟨read, _, hEq⟩
  simp only [List.singleton_append, Prod.mk.injEq,
    List.cons.injEq] at hEq
  exact hNe hEq.1.1

/- Nor does any other character but the backslash. -/
theorem readLiteral_other
    {c : α}
    {rest : List α}
    (hBackslash : c ≠ D.backslash)
    (hRead :
      D.readLiteral (D.doubled (c :: rest) ++ D.quote :: suffix) =
        some (D.backslash :: value, tail)) :
    False := by
  by_cases hQuote : c = D.quote
  · subst hQuote
    rw [doubled_quote, List.cons_append, List.cons_append,
      readLiteral_doubled_quote] at hRead
    simp [D.quote_ne_backslash] at hRead
  · rw [doubled_cons D hQuote, List.cons_append,
      readLiteral_plain D hQuote hBackslash (by simp)]
      at hRead
    simp [hBackslash] at hRead

/-
  A doubled value is never read with extra backslashes in
  front: an escape consumes at least as many of them as it
  leaves.
-/
theorem readLiteral_ne_replicate
    {k : Nat}
    (hRead :
      D.readLiteral (D.doubled value ++ D.quote :: suffix) =
        some (List.replicate (k + 1) D.backslash ++ value,
          tail)) :
    False := by
  fun_induction EscapesKept D value generalizing k with
  | case1 =>
      cases suffix with
      | nil =>
          simp [readLiteral, List.replicate_succ] at hRead
      | cons d rest =>
          by_cases hd : d = D.quote
          · subst hd
            simp [readLiteral, List.replicate_succ,
              D.quote_ne_backslash] at hRead
          · simp [readLiteral, hd,
              List.replicate_succ] at hRead
  | case2 c =>
      by_cases hBackslash : c = D.backslash
      · subst hBackslash
        rw [doubled_cons D D.quote_ne_backslash.symm]
          at hRead
        exact D.readLiteral_backslash_quote hRead
      · exact D.readLiteral_other hBackslash hRead
  | case3 d rest ih =>
      by_cases hQuote : d = D.quote
      · subst hQuote
        rw [doubled_cons D D.quote_ne_backslash.symm,
          doubled_quote] at hRead
        exact D.readLiteral_backslash_quote hRead
      · rw [doubled_cons D D.quote_ne_backslash.symm,
          doubled_cons D hQuote, List.cons_append,
          List.cons_append, readLiteral_backslash] at hRead
        rcases Option.map_eq_some_iff.mp hRead with
          ⟨read, hRest, hEq⟩
        rcases D.unescape_cases d with h | ⟨e, h, hIff⟩
        · rw [h.1] at hEq
          cases k with
          | zero =>
              simp [List.replicate_succ] at hEq
              exact h.2.2 hEq.1.1
          | succ k =>
              simp [List.replicate_succ] at hEq
              exact h.2.2 hEq.1.1
        · rw [h] at hEq
          simp only [List.replicate_succ, List.cons_append,
            Prod.mk.injEq, List.cons.injEq] at hEq
          have hd : d = D.backslash := hIff.mp hEq.1.1
          apply ih (k := k + 1)
          rw [hRest, ← hEq.2]
          rcases read with ⟨value, tail⟩
          have hValue :
              value = List.replicate k D.backslash ++
                D.backslash :: d :: rest := hEq.1.2
          rw [hValue, hd, List.replicate_succ',
            List.replicate_succ']
          simp
  | case4 c d rest hBackslash ih =>
      exact D.readLiteral_other hBackslash hRead

/- Only a value whose escapes are kept is read back. -/
theorem escapesKept_of_readLiteral
    (hRead :
      D.readLiteral (D.doubled value ++ D.quote :: suffix) =
        some (value, tail)) :
    D.EscapesKept value := by
  fun_induction EscapesKept D value with
  | case1 => trivial
  | case2 c =>
      intro hBackslash
      subst hBackslash
      rw [doubled_cons D D.quote_ne_backslash.symm] at hRead
      exact D.readLiteral_backslash_quote hRead
  | case3 d rest ih =>
      by_cases hQuote : d = D.quote
      · subst hQuote
        rw [doubled_cons D D.quote_ne_backslash.symm,
          doubled_quote] at hRead
        exact absurd hRead D.readLiteral_backslash_quote
      · rw [doubled_cons D D.quote_ne_backslash.symm,
          doubled_cons D hQuote, List.cons_append,
          List.cons_append, readLiteral_backslash] at hRead
        rcases Option.map_eq_some_iff.mp hRead with
          ⟨⟨value, end'⟩, hRest, hEq⟩
        rcases D.unescape_cases d with h | ⟨e, h, hIff⟩
        · rw [h.1] at hEq
          simp at hEq
          refine ⟨h.1, ih ?_⟩
          rw [hRest, hEq.1, hEq.2]
        · rw [h] at hEq
          simp only [List.singleton_append, Prod.mk.injEq,
            List.cons.injEq] at hEq
          have hd : d = D.backslash := hIff.mp hEq.1.1
          have hExtra :
              D.readLiteral
                  (D.doubled rest ++ D.quote :: suffix) =
                some (List.replicate (0 + 1) D.backslash ++
                  rest, tail) := by
            rw [hRest, hEq.1.2, hEq.2, hd]
            rfl
          exact absurd hExtra D.readLiteral_ne_replicate
  | case4 c d rest hBackslash ih =>
      apply ih
      by_cases hQuote : c = D.quote
      · subst hQuote
        rw [doubled_quote, List.cons_append,
          List.cons_append, readLiteral_doubled_quote]
          at hRead
        rcases Option.map_eq_some_iff.mp hRead with
          ⟨⟨value, end'⟩, hRest, hEq⟩
        simp at hEq
        rw [hRest, hEq.1, hEq.2]
      · rw [doubled_cons D hQuote, List.cons_append,
          readLiteral_plain D hQuote hBackslash (by simp)]
          at hRead
        rcases Option.map_eq_some_iff.mp hRead with
          ⟨⟨value, end'⟩, hRest, hEq⟩
        simp at hEq
        rw [hRest, hEq.1, hEq.2]

end Dialect

end Sql

------------------------------------------------------------
-- Statements With Quoted Values
------------------------------------------------------------

namespace Sql

/-
  A part of a statement: text of the program, or a value
  that is placed between quotes.
-/
inductive Part (α : Type) where
  | text (chars : List α)
  | value (chars : List α)

namespace Part

variable {α : Type} [DecidableEq α]
variable (D : Dialect α)

/- What is written for a part. -/
def render : Part α → List α
  | .text chars => chars
  | .value chars =>
      D.quote :: (D.doubled chars ++ [D.quote])

/- What a part is meant to be read as. -/
def tokens : Part α → List (Token α)
  | .text chars => chars.map .symbol
  | .value chars => [.literal chars]

end Part

namespace Dialect

variable {α : Type} [DecidableEq α]
variable (D : Dialect α)

/-
  The text of the program has no quote, and what follows a
  value does not start with one.
-/
def Spaced : List (Part α) → Prop
  | [] => True
  | .text chars :: rest => D.quote ∉ chars ∧ Spaced rest
  | .value _ :: rest =>
      (rest.flatMap (Part.render D)).head? ≠ some D.quote ∧
        Spaced rest

/- A statement into which values are placed. -/
structure Template where
  parts : List (Part α)
  spaced : D.Spaced parts

namespace Template

variable {D}

/- The statement as it is sent. -/
def render (T : D.Template) : List α :=
  T.parts.flatMap (Part.render D)

/- The tokens the statement is meant to have. -/
def meaning (T : D.Template) : List (Token α) :=
  T.parts.flatMap Part.tokens

/- The values placed in the statement. -/
def values (T : D.Template) : List (List α) :=
  T.parts.filterMap fun
    | .text _ => none
    | .value chars => some chars

end Template

/- Text without quotes is read symbol by symbol. -/
theorem scan_text
    {chars : List α}
    (hQuote : D.quote ∉ chars)
    (rest : List α) :
    D.scan none (chars ++ rest) =
      (D.scan none rest).map
        (chars.map Token.symbol ++ ·) := by
  induction chars with
  | nil => simp
  | cons c chars ih =>
      have hc : c ≠ D.quote := by
        intro hEq
        exact hQuote (by simp [hEq])
      have hChars : D.quote ∉ chars := by
        intro hMember
        exact hQuote (List.mem_cons_of_mem c hMember)
      rw [List.cons_append, scan, if_neg hc, ih hChars]
      simp [Option.map_map, Function.comp_def]

/- Inside a literal the lexer reads on to its end. -/
theorem scan_some
    (read text : List α) :
    D.scan (some read) text =
      (D.readLiteral text).bind fun result =>
        (D.scan none result.2).map
          (Token.literal (read ++ result.1) :: ·) := by
  fun_induction readLiteral D text generalizing read with
  | case1 => simp [scan]
  | case2 => simp [scan]
  | case3 c hQuote => simp [scan, hQuote]
  | case4 rest ih =>
      rw [scan, if_pos rfl, if_pos rfl, ih, Option.bind_map]
      simp only [List.append_assoc, List.singleton_append]
      rfl
  | case5 d rest hd => simp [scan, hd]
  | case6 d rest hQuote ih =>
      rw [scan, if_neg hQuote, if_pos rfl, ih,
        Option.bind_map]
      simp only [List.append_assoc]
      rfl
  | case7 c d rest hQuote hBackslash ih =>
      rw [scan, if_neg hQuote, if_neg hBackslash, ih,
        Option.bind_map]
      simp only [List.append_assoc, List.singleton_append]
      rfl

/- A value is read as meant exactly if its escapes are. -/
theorem scan_value_iff
    {value rest : List α}
    {expected : List (Token α)}
    (hRest : rest.head? ≠ some D.quote) :
    D.scan none
        (Part.render D (.value value) ++ rest) =
      some (.literal value :: expected) ↔
      D.EscapesKept value ∧
        D.scan none rest = some expected := by
  have hScan :
      D.scan none
          (Part.render D (.value value) ++ rest) =
        (D.readLiteral
          (D.doubled value ++ D.quote :: rest)).bind
          fun result =>
            (D.scan none result.2).map
              (Token.literal result.1 :: ·) := by
    simp [Part.render, scan, scan_some]
  rw [hScan]
  constructor
  · intro hRead
    rcases Option.bind_eq_some_iff.mp hRead with
      ⟨⟨read, tail⟩, hLiteral, hTail⟩
    rcases Option.map_eq_some_iff.mp hTail with
      ⟨tokens, hTokens, hEq⟩
    simp only [List.cons.injEq, Token.literal.injEq] at hEq
    rw [hEq.1] at hLiteral
    have hKept := D.escapesKept_of_readLiteral hLiteral
    rw [D.readLiteral_doubled hKept hRest] at hLiteral
    simp only [Option.some.injEq, Prod.mk.injEq] at hLiteral
    refine ⟨hKept, ?_⟩
    rw [hLiteral.2, hTokens, hEq.2]
  · intro hRead
    rw [D.readLiteral_doubled hRead.1 hRest]
    simp [hRead.2]

/-
  A statement is read as it is meant if and only if every
  value placed in it only has escapes that are kept.
-/
theorem tokens_render_iff
    (T : D.Template) :
    D.tokens T.render = some T.meaning ↔
      ∀ value ∈ T.values, D.EscapesKept value := by
  rcases T with ⟨parts, hSpaced⟩
  unfold tokens Template.render Template.meaning
    Template.values
  induction parts with
  | nil => simp [scan]
  | cons part rest ih =>
      cases part with
      | text chars =>
          rw [Spaced] at hSpaced
          have hIff := ih hSpaced.2
          simp only [List.flatMap_cons, Part.render,
            Part.tokens] at hIff ⊢
          rw [D.scan_text hSpaced.1]
          rw [Option.map_eq_some_iff]
          simpa using hIff
      | value chars =>
          rw [Spaced] at hSpaced
          have hIff := ih hSpaced.2
          simp only [List.flatMap_cons, Part.tokens,
            List.singleton_append] at hIff ⊢
          rw [D.scan_value_iff hSpaced.1, hIff]
          simp

end Dialect

end Sql

import Deltix.Text.JsonText

/-
  Writing strings, arrays and objects as JSON, so that they
  are read as what they were.

  A string may hold half of a surrogate pair.  It is written
  as an escape, so that what is written is always a text.

  Key definitions include:
    * `Json.quoteUnits`
    * `Json.arrayText`
    * `Json.objectText`
    * `Json.IsRead`

  Key theorems include:
    * `Json.isRead_quoteUnits`
    * `Json.isRead_arrayText`
    * `Json.isRead_objectText`
    * `Json.parse_of_isRead`
    * `Json.oneLine_objectText`
-/

namespace Text

namespace Json

/- `\u` and four digits. -/
def unitEscape (unit : UInt16) : List Char :=
  ['\\', 'u', hexDigit (unit.toNat / 0x1000),
    hexDigit (unit.toNat / 0x100 % 0x10),
    hexDigit (unit.toNat / 0x10 % 0x10),
    hexDigit (unit.toNat % 0x10)]

/- A unit that is not one of a pair. -/
def quoteUnit (unit : UInt16) : List Char :=
  if isSurrogate unit then unitEscape unit
  else quoteChar (Char.ofNat unit.toNat)

def quoteBody : JsString → List Char
  | [] => []
  | [unit] => quoteUnit unit
  | unit :: next :: rest =>
      if isPair unit next then
        pairChar unit next :: quoteBody rest
      else quoteUnit unit ++ quoteBody (next :: rest)

/- `JSON.stringify` of a string. -/
def quoteUnits (text : JsString) : List Char :=
  '"' :: quoteBody text ++ ['"']

/- The texts of a list with a comma between them. -/
def commaText : List (List Char) → List Char
  | [] => []
  | [text] => text
  | text :: rest => text ++ ',' :: commaText rest

def arrayText (elements : List (List Char)) : List Char :=
  '[' :: commaText elements ++ [']']

def memberText (member : JsString × List Char) : List Char :=
  quoteUnits member.1 ++ ':' :: member.2

def objectText
    (members : List (JsString × List Char)) : List Char :=
  '\x7b' :: commaText (members.map memberText) ++ ['\x7d']

example :
    quoteUnits (0xD83D :: 0xDE00 :: 0xDE00 :: js "\"a\n") =
      "\"😀\\ude00\\\"a\\n\"".toList := by
  decide

------------------------------------------------------------
-- Strings
------------------------------------------------------------

variable {unit next : UInt16} {rest : List Char}

theorem stringBody_unitEscape
    (unit : UInt16)
    (rest : List Char) :
    stringBody (unitEscape unit ++ rest) =
      (stringBody rest).map fun read =>
        (unit :: read.1, read.2) := by
  have hLess := unit.toNat_lt
  have hFirst :=
    hexOf?_hexDigit (unit.toNat / 0x1000) (by omega)
  have hSecond :=
    hexOf?_hexDigit (unit.toNat / 0x100 % 0x10) (by omega)
  have hThird :=
    hexOf?_hexDigit (unit.toNat / 0x10 % 0x10) (by omega)
  have hFourth :=
    hexOf?_hexDigit (unit.toNat % 0x10) (by omega)
  have hCode :
      unit.toNat / 0x1000 * 0x1000 +
            unit.toNat / 0x100 % 0x10 * 0x100 +
          unit.toNat / 0x10 % 0x10 * 0x10 +
        unit.toNat % 0x10 =
        unit.toNat := by
    omega
  have hUnit :
      unit? (hexDigit (unit.toNat / 0x1000))
          (hexDigit (unit.toNat / 0x100 % 0x10))
          (hexDigit (unit.toNat / 0x10 % 0x10))
          (hexDigit (unit.toNat % 0x10)) =
        some unit := by
    simp only [unit?, hFirst, hSecond, hThird, hFourth, hCode,
      UInt16.ofNat_toNat]
  unfold unitEscape
  simp only [List.cons_append, List.nil_append]
  rw [stringBody, hUnit]
  rfl

theorem toNat_ofNat
    {code : Nat}
    (hValid : code.isValidChar) :
    (Char.ofNat code).toNat = code := by
  rw [Char.ofNat, dif_pos hValid]
  rfl

theorem unitsOf_ofNat
    (hAlone : isSurrogate unit = false) :
    unitsOf (Char.ofNat unit.toNat) = [unit] := by
  have hLess := unit.toNat_lt
  have hCode : (Char.ofNat unit.toNat).toNat = unit.toNat := by
    apply toNat_ofNat
    simp only [isSurrogate, Bool.and_eq_false_iff,
      decide_eq_false_iff_not] at hAlone
    unfold Nat.isValidChar
    omega
  unfold unitsOf
  rw [hCode, if_pos (by omega), UInt16.ofNat_toNat]

theorem unitsOf_pairChar
    (hPair : isPair unit next = true) :
    unitsOf (pairChar unit next) = [unit, next] := by
  simp only [isPair, Bool.and_eq_true, decide_eq_true_eq]
    at hPair
  have hCode :
      (pairChar unit next).toNat =
        0x10000 + (unit.toNat - 0xD800) * 0x400 +
          (next.toNat - 0xDC00) := by
    apply toNat_ofNat
    unfold Nat.isValidChar
    omega
  have hHigh :
      0xD800 + ((pairChar unit next).toNat - 0x10000) / 0x400 =
        unit.toNat := by
    omega
  have hLow :
      0xDC00 + ((pairChar unit next).toNat - 0x10000) % 0x400 =
        next.toNat := by
    omega
  unfold unitsOf
  rw [if_neg (by omega), hHigh, hLow, UInt16.ofNat_toNat,
    UInt16.ofNat_toNat]

theorem stringBody_quoteUnit
    (unit : UInt16)
    (rest : List Char) :
    stringBody (quoteUnit unit ++ rest) =
      (stringBody rest).map fun read =>
        (unit :: read.1, read.2) := by
  unfold quoteUnit
  cases hAlone : isSurrogate unit with
  | true => exact stringBody_unitEscape unit rest
  | false =>
      rw [if_neg Bool.false_ne_true, stringBody_quoteChar,
        unitsOf_ofNat hAlone]
      rfl

/- The character of a pair is not escaped. -/
theorem stringBody_pairChar
    (hPair : isPair unit next = true)
    (rest : List Char) :
    stringBody (pairChar unit next :: rest) =
      (stringBody rest).map fun read =>
        (unit :: next :: read.1, read.2) := by
  have hUnits := unitsOf_pairChar hPair
  have hOther :
      ∀ char : Char, char.toNat < 0x10000 →
        pairChar unit next ≠ char := by
    intro char hCode hSame
    rw [hSame] at hUnits
    unfold unitsOf at hUnits
    rw [if_pos hCode] at hUnits
    cases hUnits
  have hQuote := hOther '"' (by decide)
  have hSlash := hOther '\\' (by decide)
  rw [stringBody, if_neg, hUnits]
  · rfl
  · rintro (hLow | hSame)
    · exact hOther (pairChar unit next) (by omega) rfl
    · exact hSlash hSame
  · exact hQuote
  · rintro _ _ _ _ _ hSame _
    exact hSlash hSame
  · rintro _ _ hSame _
    exact hSlash hSame

theorem stringBody_quoteBody
    (text : JsString)
    (rest : List Char) :
    stringBody (quoteBody text ++ '"' :: rest) =
      some (text, rest) := by
  induction text using quoteBody.induct with
  | case1 =>
      unfold quoteBody
      rw [List.nil_append, stringBody]
  | case2 unit =>
      unfold quoteBody
      rw [stringBody_quoteUnit, stringBody]
      rfl
  | case3 unit next more hPair ih =>
      unfold quoteBody
      rw [if_pos hPair, List.cons_append,
        stringBody_pairChar hPair, ih]
      rfl
  | case4 unit next more hPair ih =>
      unfold quoteBody
      rw [if_neg hPair, List.append_assoc,
        stringBody_quoteUnit, ih]
      rfl

------------------------------------------------------------
-- Reading Back
------------------------------------------------------------

/- A text that is read as a value, whatever follows it. -/
def IsRead (text : List Char) (value : Json) : Prop :=
  ∃ enough, ∀ steps rest, enough ≤ steps →
    parseWithin steps .value (text ++ rest) =
      some (value, rest)

variable {text : List Char} {value : Json}

theorem parse_of_isRead
    (hRead : IsRead text value) :
    parse text = some value := by
  rcases hRead with ⟨enough, hRead⟩
  have hBoth :=
    hRead (max enough (2 * text.length + 1)) []
      (Nat.le_max_left _ _)
  rw [List.append_nil,
    parseWithin_enough (Nat.le_max_right _ _)] at hBoth
  unfold parse
  rw [hBoth]
  rfl

theorem isRead_quoteUnits (text : JsString) :
    IsRead (quoteUnits text) (.string text) := by
  refine ⟨1, ?_⟩
  intro steps rest hSteps
  obtain ⟨more, rfl⟩ : ∃ more, steps = more + 1 :=
    ⟨steps - 1, by omega⟩
  have hOpen :
      skipWhitespace (quoteUnits text ++ rest) =
        '"' :: (quoteBody text ++ '"' :: rest) := by
    simp [quoteUnits, skipWhitespace, isWhitespace]
  rw [parseWithin, hOpen]
  simp only [stringBody_quoteBody]
  rfl

/- The elements that are left, with what ends the array. -/
theorem parseWithin_commaText
    (elements : List (List Char × Json))
    (first : List Char × Json)
    (hRead : ∀ e ∈ first :: elements, IsRead e.1 e.2) :
    ∃ enough, ∀ steps rest done, enough ≤ steps →
      parseWithin steps (.elements done)
          (commaText ((first :: elements).map Prod.fst) ++
            ']' :: rest) =
        some
          (.array (done ++ (first :: elements).map Prod.snd),
            rest) := by
  induction elements generalizing first with
  | nil =>
      rcases hRead first List.mem_cons_self with
        ⟨enough, hFirst⟩
      refine ⟨enough + 1, ?_⟩
      intro steps rest done hSteps
      obtain ⟨more, rfl⟩ : ∃ more, steps = more + 1 :=
        ⟨steps - 1, by omega⟩
      simp only [List.map_cons, List.map_nil, commaText]
      rw [parseWithin, hFirst more _ (by omega)]
      rfl
  | cons next elements ih =>
      rcases hRead first List.mem_cons_self with
        ⟨enough, hFirst⟩
      have hNext : ∀ e ∈ next :: elements, IsRead e.1 e.2 :=
        fun e hMember =>
          hRead e (List.mem_cons_of_mem _ hMember)
      rcases ih next hNext with ⟨others, hRest⟩
      refine ⟨max enough others + 1, ?_⟩
      intro steps rest done hSteps
      obtain ⟨more, rfl⟩ : ∃ more, steps = more + 1 :=
        ⟨steps - 1, by omega⟩
      have hText :
          commaText ((first :: next :: elements).map Prod.fst) ++
              ']' :: rest =
            first.1 ++
              ',' ::
                (commaText ((next :: elements).map Prod.fst) ++
                  ']' :: rest) := by
        simp only [List.map_cons, commaText,
          List.append_assoc, List.cons_append]
      have hComma (tail : List Char) :
          skipWhitespace (',' :: tail) = ',' :: tail :=
        rfl
      rw [hText, parseWithin, hFirst more _ (by omega)]
      simp only [hComma]
      rw [hRest more rest _ (by omega)]
      simp only [List.map_cons, List.append_assoc,
        List.cons_append, List.nil_append]

/- No value starts with a blank or the end of an array. -/
def Starts (text : List Char) : Prop :=
  ∃ first more, text = first :: more ∧
    isWhitespace first = false ∧ first ≠ ']'

theorem starts_commaText
    (hStarts : Starts text)
    (texts : List (List Char))
    (rest : List Char) :
    Starts (commaText (text :: texts) ++ rest) := by
  rcases hStarts with ⟨first, more, hText, hBlank, hEnd⟩
  subst hText
  cases texts with
  | nil =>
      simp only [commaText, List.cons_append]
      exact ⟨first, _, rfl, hBlank, hEnd⟩
  | cons next others =>
      simp only [commaText, List.cons_append]
      exact ⟨first, _, rfl, hBlank, hEnd⟩

/- Elements that are read make an array that is. -/
theorem isRead_arrayText
    (elements : List (List Char × Json))
    (hRead : ∀ e ∈ elements, IsRead e.1 e.2)
    (hStarts : ∀ e ∈ elements, Starts e.1) :
    IsRead (arrayText (elements.map Prod.fst))
      (.array (elements.map Prod.snd)) := by
  cases elements with
  | nil =>
      refine ⟨1, ?_⟩
      intro steps rest hSteps
      obtain ⟨more, rfl⟩ : ∃ more, steps = more + 1 :=
        ⟨steps - 1, by omega⟩
      rfl
  | cons first others =>
      rcases parseWithin_commaText others first hRead with
        ⟨enough, hElements⟩
      refine ⟨enough + 1, ?_⟩
      intro steps rest hSteps
      obtain ⟨more, rfl⟩ : ∃ more, steps = more + 1 :=
        ⟨steps - 1, by omega⟩
      have hOpen :
          skipWhitespace
              (arrayText ((first :: others).map Prod.fst) ++
                rest) =
            '[' ::
              (commaText ((first :: others).map Prod.fst) ++
                ']' :: rest) := by
        simp [arrayText, skipWhitespace, isWhitespace]
      have hFirst :=
        starts_commaText (hStarts first List.mem_cons_self)
          (others.map Prod.fst) (']' :: rest)
      rw [← List.map_cons] at hFirst
      have hAll := hElements more rest [] (by omega)
      rcases hFirst with ⟨char, tail, hText, hBlank, hEnd⟩
      rw [hText] at hOpen hAll
      have hSkip :
          skipWhitespace (char :: tail) = char :: tail := by
        unfold skipWhitespace
        rw [List.dropWhile_cons_of_neg (by simp [hBlank])]
      rw [parseWithin_array hOpen hSkip hEnd, hAll]
      rfl

end Json

end Text

------------------------------------------------------------
-- Objects
------------------------------------------------------------

namespace Text

namespace Json

/- A member of an object: its key, how its value is written,
   and the value. -/
structure Member where
  key : JsString
  written : List Char
  value : Json

def Member.text (member : Member) : List Char :=
  memberText (member.key, member.written)

def Member.read (member : Member) : JsString × Json :=
  (member.key, member.value)

variable {member : Member} {steps : Nat}
variable {done : List (JsString × Json)}
variable {value : Json} {rest tail more : List Char}
variable {char other : Char}

theorem skipWhitespace_member
    (member : Member)
    (rest : List Char) :
    skipWhitespace (member.text ++ rest) =
      '"' ::
        (quoteBody member.key ++
          '"' :: ':' :: (member.written ++ rest)) := by
  simp [Member.text, memberText, quoteUnits, skipWhitespace,
    isWhitespace]

/- A member that is read, and one more after it. -/
theorem parseWithin_member
    (hValue :
      parseWithin steps .value (member.written ++ rest) =
        some (value, tail))
    (hTail : skipWhitespace tail = ',' :: more) :
    parseWithin (steps + 1) (.members done)
        (member.text ++ rest) =
      parseWithin steps
        (.members (done ++ [(member.key, value)])) more := by
  have hColon (tail : List Char) :
      skipWhitespace (':' :: tail) = ':' :: tail :=
    rfl
  rw [parseWithin, skipWhitespace_member]
  simp only [stringBody_quoteBody, hColon, hValue, hTail]

/- The last member. -/
theorem parseWithin_lastMember
    (hValue :
      parseWithin steps .value (member.written ++ rest) =
        some (value, tail))
    (hTail : skipWhitespace tail = '\x7d' :: more) :
    parseWithin (steps + 1) (.members done)
        (member.text ++ rest) =
      some (.object (done ++ [(member.key, value)]), more) := by
  have hColon (tail : List Char) :
      skipWhitespace (':' :: tail) = ':' :: tail :=
    rfl
  rw [parseWithin, skipWhitespace_member]
  simp only [stringBody_quoteBody, hColon, hValue, hTail]

theorem parseWithin_members
    (members : List Member)
    (first : Member)
    (hRead :
      ∀ m ∈ first :: members, IsRead m.written m.value) :
    ∃ enough, ∀ steps rest done, enough ≤ steps →
      parseWithin steps (.members done)
          (commaText ((first :: members).map Member.text) ++
            '\x7d' :: rest) =
        some
          (.object
            (done ++ (first :: members).map Member.read),
            rest) := by
  induction members generalizing first with
  | nil =>
      rcases hRead first List.mem_cons_self with
        ⟨enough, hFirst⟩
      refine ⟨enough + 1, ?_⟩
      intro steps rest done hSteps
      obtain ⟨more, rfl⟩ : ∃ more, steps = more + 1 :=
        ⟨steps - 1, by omega⟩
      simp only [List.map_cons, List.map_nil, commaText]
      exact
        parseWithin_lastMember (hFirst more _ (by omega)) rfl
  | cons next members ih =>
      rcases hRead first List.mem_cons_self with
        ⟨enough, hFirst⟩
      have hNext : ∀ m ∈ next :: members, IsRead m.written m.value :=
        fun m hMember =>
          hRead m (List.mem_cons_of_mem _ hMember)
      rcases ih next hNext with ⟨others, hRest⟩
      refine ⟨max enough others + 1, ?_⟩
      intro steps rest done hSteps
      obtain ⟨more, rfl⟩ : ∃ more, steps = more + 1 :=
        ⟨steps - 1, by omega⟩
      have hText :
          commaText ((first :: next :: members).map Member.text) ++
              '\x7d' :: rest =
            first.text ++
              ',' ::
                (commaText ((next :: members).map Member.text) ++
                  '\x7d' :: rest) := by
        simp only [List.map_cons, commaText,
          List.append_assoc, List.cons_append]
      rw [hText,
        parseWithin_member (hFirst more _ (by omega)) rfl,
        hRest more rest _ (by omega)]
      simp only [List.map_cons, List.append_assoc,
        List.cons_append, List.nil_append]
      rfl

/- An object that is not empty is read member by member. -/
theorem parseWithin_object
    {first : Char}
    {input : List Char}
    (hOpen : skipWhitespace input = '\x7b' :: tail)
    (hFirst : skipWhitespace tail = first :: more)
    (hMember : first ≠ '\x7d') :
    parseWithin (steps + 1) .value input =
      parseWithin steps (.members []) (first :: more) := by
  rw [parseWithin, hOpen]
  simp only [hFirst]
  split
  · rename_i hClose
    exact absurd (List.cons.inj hClose).1 hMember
  · rfl

theorem member_text_cons (member : Member) :
    ∃ more, member.text = '"' :: more :=
  ⟨_, rfl⟩

/- Members that are read make an object that is. -/
theorem isRead_objectText
    (members : List Member)
    (hRead : ∀ m ∈ members, IsRead m.written m.value) :
    IsRead
      (objectText (members.map fun m => (m.key, m.written)))
      (.object (members.map Member.read)) := by
  have hMembers :
      (members.map fun m => (m.key, m.written)).map memberText =
        members.map Member.text := by
    rw [List.map_map]
    rfl
  unfold objectText
  rw [hMembers]
  cases members with
  | nil =>
      refine ⟨1, ?_⟩
      intro steps rest hSteps
      obtain ⟨more, rfl⟩ : ∃ more, steps = more + 1 :=
        ⟨steps - 1, by omega⟩
      rfl
  | cons first others =>
      rcases parseWithin_members others first hRead with
        ⟨enough, hAll⟩
      refine ⟨enough + 1, ?_⟩
      intro steps rest hSteps
      obtain ⟨more, rfl⟩ : ∃ more, steps = more + 1 :=
        ⟨steps - 1, by omega⟩
      have hWhole := hAll more rest [] (by omega)
      have hFirst :
          ∃ tail,
            commaText ((first :: others).map Member.text) ++
                '\x7d' :: rest =
              '"' :: tail := by
        rcases member_text_cons first with ⟨tail, hTail⟩
        cases others with
        | nil =>
            simp only [List.map_cons, List.map_nil, commaText,
              hTail, List.cons_append]
            exact ⟨_, rfl⟩
        | cons next others =>
            simp only [List.map_cons, commaText, hTail,
              List.cons_append]
            exact ⟨_, rfl⟩
      rcases hFirst with ⟨tail, hTail⟩
      rw [hTail] at hWhole
      have hOpen :
          skipWhitespace
              ('\x7b' ::
                  commaText ((first :: others).map Member.text) ++
                ['\x7d'] ++ rest) =
            '\x7b' :: '"' :: tail := by
        rw [← hTail]
        simp [skipWhitespace, isWhitespace]
      have hQuote :
          skipWhitespace ('"' :: tail) = '"' :: tail :=
        rfl
      rw [parseWithin_object hOpen hQuote (by decide), hWhole]
      rfl

------------------------------------------------------------
-- No Line Breaks
------------------------------------------------------------

/- What is written between the quotes of a string is no
   control character. -/
theorem le_toNat_of_mem_quoteChar
    (hMember : other ∈ quoteChar char) :
    0x20 ≤ other.toNat := by
  have hDigit :
      ∀ digit < 16, 0x20 ≤ (hexDigit digit).toNat := by
    decide
  have hLetter :
      ∀ letter : Char, 0x20 ≤ letter.toNat →
        other ∈ ['\\', letter] → 0x20 ≤ other.toNat := by
    intro letter hLow hIn
    simp only [List.mem_cons, List.not_mem_nil, or_false]
      at hIn
    rcases hIn with hSame | hSame
    · rw [hSame]
      decide
    · rw [hSame]
      exact hLow
  unfold quoteChar at hMember
  split_ifs at hMember with hQuote hSlash h8 hC hA hD h9 hControl
  · exact hLetter _ (by decide) hMember
  · exact hLetter _ (by decide) hMember
  · exact hLetter _ (by decide) hMember
  · exact hLetter _ (by decide) hMember
  · exact hLetter _ (by decide) hMember
  · exact hLetter _ (by decide) hMember
  · exact hLetter _ (by decide) hMember
  · have hHigh := hDigit (char.toNat / 16) (by omega)
    have hLow := hDigit (char.toNat % 16) (by omega)
    simp only [List.mem_cons, List.not_mem_nil, or_false]
      at hMember
    rcases hMember with
      hSame | hSame | hSame | hSame | hSame | hSame
    all_goals
      rw [hSame]
      first
        | decide
        | exact hHigh
        | exact hLow
  · rw [List.mem_singleton.mp hMember]
    omega

theorem le_toNat_of_mem_quoteUnit
    {unit : UInt16}
    (hMember : other ∈ quoteUnit unit) :
    0x20 ≤ other.toNat := by
  have hLess := unit.toNat_lt
  have hDigit :
      ∀ digit < 16, 0x20 ≤ (hexDigit digit).toNat := by
    decide
  unfold quoteUnit at hMember
  split_ifs at hMember
  · unfold unitEscape at hMember
    simp only [List.mem_cons, List.not_mem_nil, or_false]
      at hMember
    rcases hMember with
      hSame | hSame | hSame | hSame | hSame | hSame
    · rw [hSame]
      decide
    · rw [hSame]
      decide
    all_goals
      rw [hSame]
      apply hDigit
      omega
  · exact le_toNat_of_mem_quoteChar hMember

theorem le_toNat_of_mem_quoteBody
    {text : JsString}
    (hMember : other ∈ quoteBody text) :
    0x20 ≤ other.toNat := by
  induction text using quoteBody.induct with
  | case1 =>
      unfold quoteBody at hMember
      cases hMember
  | case2 unit =>
      unfold quoteBody at hMember
      exact le_toNat_of_mem_quoteUnit hMember
  | case3 unit next more hPair ih =>
      unfold quoteBody at hMember
      rw [if_pos hPair] at hMember
      rcases List.mem_cons.mp hMember with hSame | hRest
      · simp only [isPair, Bool.and_eq_true,
          decide_eq_true_eq] at hPair
        have hCode :
            (pairChar unit next).toNat =
              0x10000 + (unit.toNat - 0xD800) * 0x400 +
                (next.toNat - 0xDC00) := by
          apply toNat_ofNat
          unfold Nat.isValidChar
          omega
        rw [hSame, hCode]
        omega
      · exact ih hRest
  | case4 unit next more hPair ih =>
      unfold quoteBody at hMember
      rw [if_neg hPair] at hMember
      rcases List.mem_append.mp hMember with hUnit | hRest
      · exact le_toNat_of_mem_quoteUnit hUnit
      · exact ih hRest

/- A text on one line. -/
def OneLine (text : List Char) : Prop :=
  '\n' ∉ text

theorem oneLine_append
    {first second : List Char}
    (hFirst : OneLine first)
    (hSecond : OneLine second) :
    OneLine (first ++ second) := by
  intro hMember
  rcases List.mem_append.mp hMember with hIn | hIn
  · exact hFirst hIn
  · exact hSecond hIn

theorem oneLine_cons
    {text : List Char}
    (hChar : char ≠ '\n')
    (hText : OneLine text) :
    OneLine (char :: text) := by
  intro hMember
  rcases List.mem_cons.mp hMember with hSame | hIn
  · exact hChar hSame.symm
  · exact hText hIn

theorem oneLine_quoteUnits (text : JsString) :
    OneLine (quoteUnits text) := by
  apply oneLine_append
  · apply oneLine_cons (by decide)
    intro hMember
    have hCode := le_toNat_of_mem_quoteBody hMember
    have hBreak : '\n'.toNat = 0x0A := rfl
    omega
  · unfold OneLine
    decide

theorem oneLine_commaText
    {texts : List (List Char)}
    (hTexts : ∀ text ∈ texts, OneLine text) :
    OneLine (commaText texts) := by
  induction texts with
  | nil => exact List.not_mem_nil
  | cons text rest ih =>
      have hText := hTexts text List.mem_cons_self
      have hRest :=
        ih fun other hMember =>
          hTexts other (List.mem_cons_of_mem _ hMember)
      cases rest with
      | nil => exact hText
      | cons next others =>
          exact
            oneLine_append hText
              (oneLine_cons (by decide) hRest)

theorem oneLine_arrayText
    {elements : List (List Char)}
    (hElements : ∀ text ∈ elements, OneLine text) :
    OneLine (arrayText elements) := by
  apply oneLine_append
  · exact
      oneLine_cons (by decide) (oneLine_commaText hElements)
  · unfold OneLine
    decide

theorem oneLine_objectText
    {members : List (JsString × List Char)}
    (hMembers : ∀ m ∈ members, OneLine m.2) :
    OneLine (objectText members) := by
  apply oneLine_append
  · apply oneLine_cons (by decide)
    apply oneLine_commaText
    intro text hText
    rcases List.mem_map.mp hText with ⟨member, hIn, hSame⟩
    rw [← hSame]
    exact
      oneLine_append (oneLine_quoteUnits member.1)
        (oneLine_cons (by decide) (hMembers member hIn))
  · unfold OneLine
    decide

end Json

end Text

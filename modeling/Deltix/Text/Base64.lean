import Deltix.Text.Base64Url
import Mathlib.Data.List.TakeWhile

/-
  The decoding of base64 that skips what is no letter, takes
  the letters of both alphabets and stops at the padding.

  Key definitions include:
    * `Base64.encode`
    * `Base64.letters`
    * `Base64.bufferFrom`

  Key theorems include:
    * `Base64.letters_encode`
    * `Base64.decode_around_iff`
-/

namespace Text

namespace Base64

/- The letter of the alphabet for URLs. -/
def toUrl (char : Char) : Char :=
  if char = '+' then '-'
  else if char = '/' then '_'
  else char

def ofUrl (char : Char) : Char :=
  if char = '-' then '+'
  else if char = '_' then '/'
  else char

def isLetter (char : Char) : Bool :=
  Base64Url.isLetter char || char = '+' || char = '/'

/- The letters up to the padding. -/
def letters (text : List Char) : List Char :=
  ((text.takeWhile fun c => c ≠ '=').filter isLetter).map toUrl

/- `Buffer.from(text, 'base64')` -/
def bufferFrom (text : List Char) : List UInt8 :=
  Base64Url.decode (letters text)

/- The padding of as many bytes. -/
def padding (length : Nat) : List Char :=
  List.replicate ((3 - length % 3) % 3) '='

/- Bytes as text, padded. -/
def encode (bytes : List UInt8) : List Char :=
  (Base64Url.encode bytes).map ofUrl ++ padding bytes.length

example :
    encode [0xFB, 0xFF] = "+/8=".toList ∧
      bufferFrom "+/ -\n=zz".toList = [0xFB, 0xFF] := by
  decide

------------------------------------------------------------
-- Letters
------------------------------------------------------------

variable {a b text : List Char} {bytes : List UInt8}

theorem letters_append_of_pad
    (hPad : '=' ∈ a) :
    letters (a ++ b) = letters a := by
  have hTaken :
      (a ++ b).takeWhile (fun c => c ≠ '=') =
        a.takeWhile fun c => c ≠ '=' := by
    rw [List.takeWhile_append, if_neg]
    intro hAll
    have hWhole : a.takeWhile (fun c => c ≠ '=') = a := by
      have hPrefix :
          a.takeWhile (fun c => c ≠ '=') <+: a :=
        List.takeWhile_prefix _
      exact hPrefix.eq_of_length hAll
    rw [List.takeWhile_eq_self_iff] at hWhole
    have hNot := hWhole '=' hPad
    simp at hNot
  unfold letters
  rw [hTaken]

theorem letters_append
    (hNoPad : '=' ∉ a) :
    letters (a ++ b) = letters a ++ letters b := by
  have hWhole : a.takeWhile (fun c => c ≠ '=') = a := by
    rw [List.takeWhile_eq_self_iff]
    intro c hMember
    have hNot : c ≠ '=' := by
      rintro rfl
      exact hNoPad hMember
    simpa using hNot
  have hTaken :
      (a ++ b).takeWhile (fun c => c ≠ '=') =
        a ++ b.takeWhile fun c => c ≠ '=' := by
    rw [List.takeWhile_append, hWhole, if_pos rfl]
  unfold letters
  rw [hTaken, hWhole, List.filter_append, List.map_append]

theorem isLetter_ofUrl
    {c : Char}
    (hLetter : Base64Url.isLetter c = true) :
    isLetter (ofUrl c) = true ∧ toUrl (ofUrl c) = c ∧
      ofUrl c ≠ '=' := by
  unfold ofUrl
  split_ifs with hDash hLine
  · subst hDash
    decide
  · subst hLine
    decide
  · have hPlus : c ≠ '+' := by
      rintro rfl
      revert hLetter
      decide
    have hSlash : c ≠ '/' := by
      rintro rfl
      revert hLetter
      decide
    have hPad : c ≠ '=' := by
      rintro rfl
      revert hLetter
      decide
    refine ⟨?_, ?_, hPad⟩
    · unfold isLetter
      rw [hLetter]
      rfl
    · unfold toUrl
      rw [if_neg hPlus, if_neg hSlash]

theorem letters_ofUrl
    (hLetters : ∀ c ∈ text, Base64Url.isLetter c = true) :
    letters (text.map ofUrl) = text := by
  induction text with
  | nil => rfl
  | cons c rest ih =>
      have hFirst :=
        isLetter_ofUrl (hLetters c List.mem_cons_self)
      have hRest :=
        ih fun other hMember =>
          hLetters other (List.mem_cons_of_mem _ hMember)
      unfold letters at hRest ⊢
      rw [List.map_cons, List.takeWhile_cons,
        if_pos (by simpa using hFirst.2.2), List.filter_cons,
        if_pos hFirst.1, List.map_cons, hFirst.2.1, hRest]

theorem pad_not_mem_ofUrl :
    '=' ∉ (Base64Url.encode bytes).map ofUrl := by
  intro hMember
  rcases List.mem_map.mp hMember with ⟨c, hIn, hSame⟩
  have hLetter := Base64Url.isLetter_of_mem_encode hIn
  exact (isLetter_ofUrl hLetter).2.2 hSame

theorem letters_padding
    (length : Nat) :
    letters (padding length) = [] := by
  unfold padding
  cases (3 - length % 3) % 3 with
  | zero => rfl
  | succ number => rfl

theorem letters_encode (bytes : List UInt8) :
    letters (encode bytes) = Base64Url.encode bytes := by
  unfold encode
  rw [letters_append pad_not_mem_ofUrl, letters_padding,
    List.append_nil]
  apply letters_ofUrl
  intro c hMember
  exact Base64Url.isLetter_of_mem_encode hMember

/- A text is padded unless its bytes come in threes. -/
theorem pad_mem_encode_iff :
    '=' ∈ encode bytes ↔ bytes.length % 3 ≠ 0 := by
  unfold encode padding
  rw [List.mem_append, List.mem_replicate]
  constructor
  · rintro (hLetter | ⟨hNumber, _⟩)
    · exact absurd hLetter pad_not_mem_ofUrl
    · omega
  · intro hLength
    right
    exact ⟨by omega, rfl⟩

end Base64

end Text

------------------------------------------------------------
-- Letters Around A Text
------------------------------------------------------------

namespace Text

namespace Base64Url

variable {first second : List Char} {bytes : List UInt8}

theorem length_encode (bytes : List UInt8) :
    (encode bytes).length = (4 * bytes.length + 2) / 3 := by
  induction bytes using encode.induct with
  | case1 => rfl
  | case2 a => simp [encode]
  | case3 a b => simp [encode]
  | case4 a b c rest ih =>
      simp only [encode, List.length_cons, ih]
      omega

theorem length_decode (text : List Char) :
    (decode text).length = 3 * text.length / 4 := by
  induction text using decode.induct with
  | case1 => rfl
  | case2 a => simp [decode]
  | case3 a b => simp [decode]
  | case4 a b c => simp [decode]
  | case5 a b c d rest ih =>
      simp only [decode, List.length_cons, ih]
      omega

/- A letter past whole groups is dropped. -/
theorem decode_append_one
    (text : List Char)
    (last : Char)
    (hGroups : text.length % 4 = 0) :
    decode (text ++ [last]) = decode text := by
  induction text using decode.induct with
  | case1 => rfl
  | case2 a => simp at hGroups
  | case3 a b => simp at hGroups
  | case4 a b c => simp at hGroups
  | case5 a b c d rest ih =>
      simp only [List.length_cons] at hGroups
      simp only [List.cons_append, decode]
      rw [ih (by omega)]

/- Only the bits of the letters count. -/
theorem decode_congr
    (hSame : first.map sextet = second.map sextet) :
    decode first = decode second := by
  induction first using decode.induct generalizing second with
  | case1 =>
      have hNil := List.map_eq_nil_iff.mp hSame.symm
      rw [hNil]
  | case2 a =>
      rcases second with _ | ⟨a', _ | ⟨b', rest⟩⟩
      · rfl
      · rfl
      · simp at hSame
  | case3 a b =>
      rcases second with _ | ⟨a', _ | ⟨b', _ | ⟨c', rest⟩⟩⟩
      · simp at hSame
      · simp at hSame
      · simp only [List.map_cons, List.map_nil,
          List.cons.injEq, and_true] at hSame
        simp only [decode, hSame]
      · simp at hSame
  | case4 a b c =>
      rcases second with
        _ | ⟨a', _ | ⟨b', _ | ⟨c', _ | ⟨d', rest⟩⟩⟩⟩
      · simp at hSame
      · simp at hSame
      · simp at hSame
      · simp only [List.map_cons, List.map_nil,
          List.cons.injEq, and_true] at hSame
        simp only [decode, hSame]
      · simp at hSame
  | case5 a b c d more ih =>
      rcases second with
        _ | ⟨a', _ | ⟨b', _ | ⟨c', _ | ⟨d', rest⟩⟩⟩⟩
      · simp at hSame
      · simp at hSame
      · simp at hSame
      · simp at hSame
      · simp only [List.map_cons, List.cons.injEq] at hSame
        rcases hSame with ⟨ha, hb, hc, hd, hRest⟩
        simp only [decode, ha, hb, hc, hd, ih hRest]

theorem sextet_lt (c : Char) : sextet c < 64 := by
  unfold sextet
  split_ifs with hUpper hLower hDigit hDash
  · have hLe : c.toNat ≤ 'Z'.toNat := hUpper.2
    have hCode : 'Z'.toNat = 0x5A := rfl
    omega
  · have hLe : c.toNat ≤ 'z'.toNat := hLower.2
    have hCode : 'z'.toNat = 0x7A := rfl
    omega
  · have hLe : c.toNat ≤ '9'.toNat := hDigit.2
    have hCode : '9'.toNat = 0x39 := rfl
    omega
  · omega
  · omega

/- Whole groups are told by their bytes. -/
theorem sextets_of_decode
    (hGroups : first.length % 4 = 0)
    (hLength : second.length = first.length)
    (hSame : decode first = decode second) :
    first.map sextet = second.map sextet := by
  induction first using decode.induct generalizing second with
  | case1 =>
      rw [List.length_eq_zero_iff.mp hLength]
  | case2 a => simp at hGroups
  | case3 a b => simp at hGroups
  | case4 a b c => simp at hGroups
  | case5 a b c d more ih =>
      rcases second with
        _ | ⟨a', _ | ⟨b', _ | ⟨c', _ | ⟨d', rest⟩⟩⟩⟩
      · simp at hLength
      · simp at hLength
      · simp at hLength
      · simp at hLength
      · simp only [List.length_cons] at hGroups hLength
        simp only [decode, List.cons.injEq] at hSame
        rcases hSame with ⟨hOne, hTwo, hThree, hRest⟩
        have hByte :
            ∀ m n : Nat, m < 256 → n < 256 →
              UInt8.ofNat m = UInt8.ofNat n → m = n := by
          intro m n hm hn hEq
          have hBoth := congrArg UInt8.toNat hEq
          rw [UInt8.toNat_ofNat', UInt8.toNat_ofNat'] at hBoth
          omega
        have ha := sextet_lt a
        have hb := sextet_lt b
        have hc := sextet_lt c
        have hd := sextet_lt d
        have ha' := sextet_lt a'
        have hb' := sextet_lt b'
        have hc' := sextet_lt c'
        have hd' := sextet_lt d'
        have hFirst := hByte _ _ (by omega) (by omega) hOne
        have hSecond := hByte _ _ (by omega) (by omega) hTwo
        have hThird := hByte _ _ (by omega) (by omega) hThree
        simp only [List.map_cons, List.cons.injEq]
        refine
          ⟨by omega, by omega, by omega, by omega,
            ih (by omega) (by omega) hRest⟩

/- Letters that follow one another and are all like the one
   before them. -/
theorem map_concat_eq_iff
    {extra last : Char}
    {text : List Char} :
    (extra :: text).map sextet = (text ++ [last]).map sextet ↔
      sextet last = sextet extra ∧
        ∀ c ∈ text, sextet c = sextet extra := by
  induction text generalizing extra with
  | nil => simp [eq_comm]
  | cons head rest ih =>
      have hRest := @ih head
      simp only [List.map_cons, List.cons_append,
        List.cons.injEq, List.mem_cons, forall_eq_or_imp]
        at hRest ⊢
      rw [hRest]
      constructor
      · rintro ⟨hHead, hLast, hAll⟩
        refine ⟨hLast.trans hHead.symm, hHead.symm, ?_⟩
        intro c hMember
        exact (hAll c hMember).trans hHead.symm
      · rintro ⟨hLast, hHead, hAll⟩
        refine ⟨hHead.symm, hLast.trans hHead.symm, ?_⟩
        intro c hMember
        exact (hAll c hMember).trans hHead.symm

/-
  Letters around a text change its bytes, but for one letter
  around whole groups: after them, or before letters that are
  all like it.
-/
theorem decode_around_iff
    (bytes : List UInt8)
    (before after : List Char) :
    decode (before ++ encode bytes ++ after) = bytes ↔
      (before = [] ∧
          (after = [] ∨
            (bytes.length % 3 = 0 ∧ after.length = 1))) ∨
        (bytes.length % 3 = 0 ∧ after = [] ∧
          ∃ extra, before = [extra] ∧
            ∀ c ∈ encode bytes, sextet c = sextet extra) := by
  have hLetters := length_encode bytes
  constructor
  · intro hSame
    have hLength := congrArg List.length hSame
    rw [length_decode, List.length_append,
      List.length_append, hLetters] at hLength
    rcases before with _ | ⟨extra, rest⟩
    · left
      refine ⟨rfl, ?_⟩
      rcases after with _ | ⟨last, more⟩
      · exact Or.inl rfl
      · right
        simp only [List.length_nil, List.length_cons]
          at hLength ⊢
        have hOne : more.length = 0 := by
          omega
        have hFour :
            3 * ((4 * bytes.length + 2) / 3) =
              4 * bytes.length := by
          omega
        omega
    · right
      simp only [List.length_cons] at hLength
      have hOne : rest.length = 0 := by
        omega
      have hNothing : after.length = 0 := by
        omega
      have hFour :
          3 * ((4 * bytes.length + 2) / 3) =
            4 * bytes.length := by
        omega
      have hThrees : bytes.length % 3 = 0 := by
        omega
      have hNone : rest = [] :=
        List.length_eq_zero_iff.mp hOne
      have hAfter : after = [] :=
        List.length_eq_zero_iff.mp hNothing
      subst hNone hAfter
      refine ⟨hThrees, rfl, extra, rfl, ?_⟩
      rw [List.append_nil, List.singleton_append] at hSame
      have hGroups : (encode bytes).length % 4 = 0 := by
        omega
      rcases List.eq_nil_or_concat' (encode bytes) with
        hNil | ⟨text, last, hText⟩
      · rw [hNil]
        intro c hMember
        cases hMember
      · have hCut :
            decode (extra :: text ++ [last]) =
              decode (extra :: text) := by
          apply decode_append_one
          rw [hText, List.length_append] at hGroups
          simpa using hGroups
        have hBytes : decode (text ++ [last]) = bytes := by
          rw [← hText]
          exact decode_encode bytes
        rw [hText] at hSame hGroups
        have hSextets :
            (extra :: text).map sextet =
              (text ++ [last]).map sextet := by
          apply sextets_of_decode
          · simpa using hGroups
          · simp
          · rw [← hCut, hBytes]
            exact hSame
        rcases map_concat_eq_iff.mp hSextets with
          ⟨hLast, hAll⟩
        intro c hMember
        rw [hText] at hMember
        rcases List.mem_append.mp hMember with hIn | hIn
        · exact hAll c hIn
        · rw [List.mem_singleton.mp hIn]
          exact hLast
  · rintro (⟨hBefore, hAfter⟩ |
      ⟨hThrees, hAfter, extra, hBefore, hAll⟩)
    · subst hBefore
      rw [List.nil_append]
      rcases hAfter with hNone | ⟨hThrees, hOne⟩
      · rw [hNone, List.append_nil]
        exact decode_encode bytes
      · rcases List.length_eq_one_iff.mp hOne with ⟨last, hLast⟩
        have hGroups : (encode bytes).length % 4 = 0 := by
          omega
        rw [hLast, decode_append_one _ _ hGroups]
        exact decode_encode bytes
    · subst hBefore hAfter
      rw [List.append_nil, List.singleton_append]
      rcases List.eq_nil_or_concat' (encode bytes) with
        hNil | ⟨text, last, hText⟩
      · have hBytes := decode_encode bytes
        rw [hNil] at hBytes ⊢
        exact hBytes
      · have hGroups :
            (text ++ [last]).length % 4 = 0 := by
          rw [← hText]
          omega
        have hCut :
            decode (extra :: text ++ [last]) =
              decode (extra :: text) := by
          apply decode_append_one
          simpa using hGroups
        have hSextets :
            (extra :: text).map sextet =
              (text ++ [last]).map sextet := by
          rw [map_concat_eq_iff]
          rw [hText] at hAll
          constructor
          · exact hAll last (by simp)
          · intro c hMember
            exact hAll c (List.mem_append_left _ hMember)
        have hBytes : decode (text ++ [last]) = bytes := by
          rw [← hText]
          exact decode_encode bytes
        rw [hText]
        exact (hCut.trans (decode_congr hSextets)).trans hBytes

end Base64Url

end Text

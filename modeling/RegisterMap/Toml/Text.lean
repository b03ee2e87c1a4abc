import RegisterMap.Numeral
import RegisterMap.Toml.Character

/-!
# Texts in a TOML document

A text stands between double quotes, and then may have escapes, or between apostrophes, and then
stands for itself. Between three marks of either kind it may run over several lines.
-/

namespace RegisterMap.Toml

/-! ### Escapes -/

/-- The character of an escape of one letter. -/
def escapedChar? : Char → Option Char
  | 'b' => some '\x08'
  | 't' => some '\t'
  | 'n' => some '\n'
  | 'f' => some '\x0c'
  | 'r' => some '\r'
  | '"' => some '"'
  | '\\' => some '\\'
  | _ => none

/-- The character with a code point in hexadecimal digits. -/
def codePoint? (digits : List Char) : Option Char :=
  let n := Numeral.value 16 digits
  if digits.all Numeral.isHexDigit && n.isValidChar then some (Char.ofNat n) else none

theorem length_lt_append (c : Char) (front rest : List Char) :
    rest.length < (c :: front ++ rest).length := by
  simp only [List.cons_append, List.length_cons, List.length_append]
  omega

def readEscape : (text : List Char) →
    Option (Char × { rest : List Char // rest.length < text.length })
  | 'u' :: a :: b :: c :: d :: rest =>
    (codePoint? [a, b, c, d]).map (·, ⟨rest, length_lt_append 'u' [a, b, c, d] rest⟩)
  | 'U' :: a :: b :: c :: d :: e :: f :: g :: h :: rest =>
    (codePoint? [a, b, c, d, e, f, g, h]).map
      (·, ⟨rest, length_lt_append 'U' [a, b, c, d, e, f, g, h] rest⟩)
  | c :: rest => (escapedChar? c).map (·, ⟨rest, length_lt_append c [] rest⟩)
  | [] => none

theorem length_dropWhile_le (p : Char → Bool) (text : List Char) :
    (text.dropWhile p).length ≤ text.length :=
  (List.dropWhile_sublist p).length_le

/-- Drop a line break, and the white space around it and after it. -/
def skipTrimmedBreak (text : List Char) :
    Option { rest : List Char // rest.length ≤ text.length } :=
  match h : skipSpaces text with
  | '\n' :: rest =>
    some ⟨rest.dropWhile isSpaceOrBreak, by
      have outer := length_dropWhile_le isSpace text
      have inner := length_dropWhile_le isSpaceOrBreak rest
      simp only [skipSpaces] at h
      simp only [h, List.length_cons] at outer
      omega⟩
  | _ => none

/-! ### Between double quotes -/

/-- Read a text on one line after its opening quote. -/
def readBasic (text : List Char) : Option (List Char × List Char) :=
  match text with
  | [] => none
  | '"' :: rest => some ([], rest)
  | '\\' :: rest =>
    match readEscape rest with
    | none => none
    | some (c, after) => (readBasic after.val).map fun (value, rest) => (c :: value, rest)
  | c :: rest =>
    if isPlain c then (readBasic rest).map fun (value, rest) => (c :: value, rest) else none
termination_by text.length
decreasing_by
  · have := after.property; simp only [List.length_cons]; omega
  · simp

/-- Read a text on several lines up to its three closing quotes. A backslash at the end of a line
drops the white space up to the next character. -/
def readMultilineBasic (text : List Char) : Option (List Char × List Char) :=
  match text with
  | [] => none
  | '"' :: '"' :: '"' :: rest => some ([], rest)
  | '\\' :: rest =>
    match skipTrimmedBreak rest with
    | some after => readMultilineBasic after.val
    | none =>
      match readEscape rest with
      | none => none
      | some (c, after) =>
        (readMultilineBasic after.val).map fun (value, rest) => (c :: value, rest)
  | c :: rest =>
    if isPlain c || c == '\n' then
      (readMultilineBasic rest).map fun (value, rest) => (c :: value, rest)
    else none
termination_by text.length
decreasing_by
  · have := after.property; simp only [List.length_cons]; omega
  · have := after.property; simp only [List.length_cons]; omega
  · simp

/-! ### Between apostrophes -/

/-- Read a text on one line after its opening apostrophe. -/
def readLiteral (text : List Char) : Option (List Char × List Char) :=
  let value := text.takeWhile (· != '\'')
  match text.dropWhile (· != '\'') with
  | _ :: rest => if value.all isPlain then some (value, rest) else none
  | [] => none

/-- Read a text on several lines up to its three closing apostrophes. -/
def readMultilineLiteral : List Char → Option (List Char × List Char)
  | '\'' :: '\'' :: '\'' :: rest => some ([], rest)
  | c :: rest =>
    if isPlain c || c == '\n' then
      (readMultilineLiteral rest).map fun (value, rest) => (c :: value, rest)
    else none
  | [] => none

/-! ### On several lines -/

/-- Up to two marks directly before the three closing ones belong to the text. -/
def withExtraMarks (mark : Char) (value rest : List Char) : List Char × List Char :=
  let extra := (rest.takeWhile (· == mark)).take 2
  (value ++ extra, rest.drop extra.length)

/-- Read a text on several lines after its three opening marks. A line break directly after them
does not belong to the text. -/
def readMultiline (mark : Char) (text : List Char) : Option (List Char × List Char) :=
  let text := match text with
    | '\n' :: rest => rest
    | text => text
  let read := if mark == '"' then readMultilineBasic else readMultilineLiteral
  (read text).map fun (value, rest) => withExtraMarks mark value rest

end RegisterMap.Toml

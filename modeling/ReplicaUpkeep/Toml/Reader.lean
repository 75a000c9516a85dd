import ReplicaUpkeep.Toml.Number
import ReplicaUpkeep.Toml.Quoted

/-!
# Reading TOML text

A document is read line by line: blank, a comment, a header, or a key with a value.  Arrays and inline
tables may run over several lines, with comments, and a comma may follow their last item; in an inline
table a key and its value may stand on lines of their own.  There is one limit for the depth of nested
values and for the parts of a key.  A byte order mark in front is no part of the document.  The readers
of values carry a bound that falls with every value; `parse?` starts it above the length of the text,
so it never decides the answer.
-/

namespace ReplicaUpkeep.Toml

/-! ## Comments -/

/-- Drop a comment in front, up to the end of its line. -/
def skipComment : List Char → List Char
  | '#' :: rest => rest.dropWhile isPlain
  | cs => cs

theorem length_skipComment_le (cs : List Char) : (skipComment cs).length ≤ cs.length := by
  fun_cases skipComment cs with
  | case1 rest =>
    have := (List.dropWhile_sublist (l := rest) isPlain).length_le
    simp only [List.length_cons]
    omega
  | case2 => exact Nat.le_refl _

/-- Drop space, comments and ends of lines in front, as they may stand in an array or an inline
table. -/
def skipLines (cs : List Char) : List Char :=
  match _h : newLine? (skipComment (skipSpace cs)) with
  | some rest => skipLines rest
  | none => skipComment (skipSpace cs)
termination_by cs.length
decreasing_by
  have h₁ := length_lt_of_newLine? _h
  have h₂ := length_skipComment_le (skipSpace cs)
  have h₃ := length_skipSpace_le cs
  omega

/-! ## Keys -/

/-- How deep arrays and inline tables may be nested, and how many parts a key may have. -/
def maxDepth : Nat := 80

/-- May the character stand in a key without quotes? -/
def isBare (c : Char) : Bool :=
  c.isAlphanum || c = '_' || c = '-'

/-- One part of a key. -/
def keyPart? : List Char → Option (String × List Char)
  | '"' :: rest => (basic? rest).map (fun r => (String.ofList r.1, r.2))
  | '\x27' :: rest => (literal? rest).map (fun r => (String.ofList r.1, r.2))
  | cs =>
    match cs.takeWhile isBare with
    | [] => none
    | part => some (String.ofList part, cs.dropWhile isBare)

/-- A key of at most a number of parts, which stand between points with space around them. -/
def key? : Nat → List Char → Option (List String × List Char)
  | 0, _ => none
  | n + 1, cs =>
    match keyPart? (skipSpace cs) with
    | none => none
    | some (part, rest) =>
      match skipSpace rest with
      | '.' :: rest => (key? n rest).map (fun r => (part :: r.1, r.2))
      | rest => some ([part], rest)

/-! ## Words -/

/-- May the character stand in a word without quotes? -/
def isWord (c : Char) : Bool :=
  c.isAlphanum || c = '_' || c = '-' || c = '+' || c = '.' || c = ':'

/-- The word in front and what follows it; a day may be joined to a time by one space. -/
def word (cs : List Char) : List Char × List Char :=
  let first := cs.takeWhile isWord
  match Moment.parse? first, cs.dropWhile isWord with
  | some (.day _), ' ' :: c :: rest =>
    if c.isDigit then
      (first ++ ' ' :: (c :: rest).takeWhile isWord, (c :: rest).dropWhile isWord)
    else (first, ' ' :: c :: rest)
  | _, rest => (first, rest)

/-- The value of a word without quotes. -/
def wordValue? (cs : List Char) : Option Toml :=
  plainWord? cs <|> (Moment.parse? cs).map .moment

/-! ## Values -/

mutual

/-- A value in front, of at most the given depth. -/
def value? : Nat → Nat → List Char → Option (Toml × List Char)
  | 0, _, _ => none
  | n + 1, depth, cs =>
    match cs, depth with
    | '"' :: _, _ => (quoted? cs).map (fun r => (.text (String.ofList r.1), r.2))
    | '\x27' :: _, _ => (quoted? cs).map (fun r => (.text (String.ofList r.1), r.2))
    | '[' :: _, 0 => none
    | '[' :: rest, depth + 1 => (elements? n depth rest).map (fun r => (.array r.1, r.2))
    | '\x7b' :: _, 0 => none
    | '\x7b' :: rest, depth + 1 =>
      (members? n depth rest []).map (fun r => (.table .inlined r.1, r.2))
    | cs, _ => (wordValue? (word cs).1).map (fun v => (v, (word cs).2))

/-- The elements of an array up to its closing bracket. -/
def elements? : Nat → Nat → List Char → Option (List Toml × List Char)
  | 0, _, _ => none
  | n + 1, depth, cs =>
    match skipLines cs with
    | ']' :: rest => some ([], rest)
    | cs =>
      match value? n depth cs with
      | none => none
      | some (v, rest) =>
        match skipLines rest with
        | ',' :: rest => (elements? n depth rest).map (fun r => (v :: r.1, r.2))
        | ']' :: rest => some ([v], rest)
        | _ => none

/-- The members of an inline table up to its closing brace, behind those already read. -/
def members? : Nat → Nat → List Char → Members → Option (Members × List Char)
  | 0, _, _, _ => none
  | n + 1, depth, cs, ms =>
    match skipLines cs with
    | '\x7d' :: rest => some (ms, rest)
    | cs =>
      match key? maxDepth cs with
      | none => none
      | some (path, rest) =>
        match skipLines rest with
        | '=' :: rest =>
          match value? n depth (skipLines rest) with
          | none => none
          | some (v, rest) =>
            match define path v ms with
            | none => none
            | some ms =>
              match skipLines rest with
              | ',' :: rest => members? n depth rest ms
              | '\x7d' :: rest => some (ms, rest)
              | _ => none
        | _ => none

end

/-! ## Lines -/

/-- What stands on a line before its comment, if anything does. -/
def line? (cs : List Char) : Option (Option Line × List Char) :=
  match skipSpace cs with
  | [] => some (none, [])
  | '#' :: rest => some (none, '#' :: rest)
  | '\n' :: rest => some (none, '\n' :: rest)
  | '\r' :: rest => some (none, '\r' :: rest)
  | '[' :: '[' :: rest =>
    match key? maxDepth rest with
    | some (path, ']' :: ']' :: rest) => some (some (.itemHeader path), rest)
    | _ => none
  | '[' :: rest =>
    match key? maxDepth rest with
    | some (path, ']' :: rest) => some (some (.tableHeader path), rest)
    | _ => none
  | cs =>
    match key? maxDepth cs with
    | some (path, '=' :: rest) =>
      (value? (2 * rest.length + 2) maxDepth (skipSpace rest)).map
        (fun r => (some (.assignment path r.1), r.2))
    | _ => none

/-- The lines of a text, at most the given number of them. -/
def lines? : Nat → List Char → Option (List Line)
  | 0, _ => none
  | n + 1, cs =>
    match line? cs with
    | none => none
    | some (said, rest) =>
      match skipComment (skipSpace rest) with
      | [] => some said.toList
      | rest =>
        match newLine? rest with
        | none => none
        | some rest => (lines? n rest).map (said.toList ++ ·)

/-- A text without a byte order mark in front. -/
def withoutMark : List Char → List Char
  | '\ufeff' :: rest => rest
  | cs => cs

/-- The members of the document of a whole text; `none` unless it is well formed. -/
def parse? (s : String) : Option Members :=
  let cs := withoutMark s.toList
  (lines? (cs.length + 1) cs).bind ofLines?

end ReplicaUpkeep.Toml

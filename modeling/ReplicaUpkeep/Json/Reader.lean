import ReplicaUpkeep.Json.Basic

/-!
# Reading JSON text

A strict reader: no byte order mark, no comments, no trailing commas, and nothing but space after
the value.  Control characters may not stand in a string; a number may not begin with a needless
zero.  Nesting is unbounded.  The readers of values carry a bound that falls with every value
opened; `parse?` starts it above the length of the text, so it never decides the answer.
-/

namespace ReplicaUpkeep.Json

/-- The four characters that may stand between tokens. -/
def isSpace (c : Char) : Bool :=
  c = ' ' || c = '\t' || c = '\n' || c = '\r'

/-- Drop the space in front. -/
def skipSpace (cs : List Char) : List Char :=
  cs.dropWhile isSpace

/-! ## Strings -/

/-- One step of a string: a character as it stands, or a unit written as a `u` escape. -/
inductive Piece where
  | char (c : Char)
  | unit (u : Nat)
  deriving DecidableEq, Repr

/-- The unit named by four hexadecimal digits. -/
def hexUnit? (a b c d : Char) : Option Nat :=
  Text.radixValue? 16 [a, b, c, d]

/-- The character named by a letter after a backslash. -/
def escaped? : Char → Option Char
  | '"' => some '"'
  | '\\' => some '\\'
  | '/' => some '/'
  | 'b' => some '\x08'
  | 'f' => some '\x0c'
  | 'n' => some '\n'
  | 'r' => some '\r'
  | 't' => some '\t'
  | _ => none

/-- The pieces of a string after its opening quote, with what follows the closing one. -/
def pieces? : List Char → Option (List Piece × List Char)
  | [] => none
  | '"' :: rest => some ([], rest)
  | '\\' :: 'u' :: a :: b :: c :: d :: rest =>
    match hexUnit? a b c d, pieces? rest with
    | some u, some (ps, rest) => some (.unit u :: ps, rest)
    | _, _ => none
  | '\\' :: e :: rest =>
    match escaped? e, pieces? rest with
    | some c, some (ps, rest) => some (.char c :: ps, rest)
    | _, _ => none
  | c :: rest =>
    if c.toNat < 0x20 then none
    else
      match pieces? rest with
      | some (ps, rest) => some (.char c :: ps, rest)
      | none => none

/-- Is the unit the first half of a surrogate pair? -/
def isLeading (u : Nat) : Bool :=
  0xD800 ≤ u && u < 0xDC00

/-- Is the unit the second half of a surrogate pair? -/
def isTrailing (u : Nat) : Bool :=
  0xDC00 ≤ u && u < 0xE000

/-- The characters of a list of pieces; `none` if a half of a surrogate pair stands alone. -/
def joinPieces? : List Piece → Option (List Char)
  | [] => some []
  | .char c :: rest => (joinPieces? rest).map (c :: ·)
  | .unit u :: .unit v :: rest =>
    if isLeading u then
      if isTrailing v then
        (joinPieces? rest).map (Char.ofNat (0x10000 + (u - 0xD800) * 0x400 + (v - 0xDC00)) :: ·)
      else none
    else if isTrailing u then none
    else (joinPieces? (.unit v :: rest)).map (Char.ofNat u :: ·)
  | .unit u :: rest =>
    if isLeading u || isTrailing u then none
    else (joinPieces? rest).map (Char.ofNat u :: ·)

/-- A string after its opening quote: the text it names, if any, and what follows. -/
def string? (cs : List Char) : Option (Option String × List Char) :=
  match pieces? cs with
  | some (ps, rest) => some ((joinPieces? ps).map String.ofList, rest)
  | none => none

/-! ## Numbers -/

/-- The digits in front and the rest. -/
def spanDigits (cs : List Char) : List Char × List Char :=
  (cs.takeWhile Char.isDigit, cs.dropWhile Char.isDigit)

/-- The fraction of a number, if one stands in front. -/
def fraction? : List Char → Option (Option (List Char) × List Char)
  | '.' :: rest =>
    match spanDigits rest with
    | ([], _) => none
    | (ds, rest) => some (some ds, rest)
  | cs => some (none, cs)

/-- The digits of an exponent and their sign. -/
def exponentDigits? (negative : Bool) (cs : List Char) : Option (Option Int × List Char) :=
  match spanDigits cs with
  | ([], _) => none
  | (ds, rest) =>
    let n : Int := Text.digitsValue ds
    some (some (if negative then -n else n), rest)

/-- The exponent of a number, if one stands in front. -/
def exponent? (cs : List Char) : Option (Option Int × List Char) :=
  match cs with
  | c :: rest =>
    if c = 'e' ∨ c = 'E' then
      match rest with
      | '+' :: rest => exponentDigits? false rest
      | '-' :: rest => exponentDigits? true rest
      | _ => exponentDigits? false rest
    else some (none, cs)
  | [] => some (none, cs)

/-- A number without its sign. -/
def unsigned? (negative : Bool) (cs : List Char) : Option (Number × List Char) :=
  match spanDigits cs with
  | (whole, rest) =>
    if whole = [] ∨ (whole.head? = some '0' ∧ whole.length ≠ 1) then none
    else
      match fraction? rest with
      | none => none
      | some (fraction, rest) =>
        match exponent? rest with
        | none => none
        | some (exponent, rest) =>
          if negative = false ∧ fraction = none ∧ exponent = none then
            some (.natural (Text.digitsValue whole), rest)
          else
            let places := fraction.getD []
            some (.decimal negative (Text.digitsValue (whole ++ places))
              (exponent.getD 0 - places.length), rest)

/-- A number in front. -/
def number? : List Char → Option (Number × List Char)
  | '-' :: rest => unsigned? true rest
  | cs => unsigned? false cs

/-! ## Values -/

mutual

/-- A value in front, space before it allowed. -/
def value? : Nat → List Char → Option (Json × List Char)
  | 0, _ => none
  | n + 1, cs =>
    match skipSpace cs with
    | 'n' :: 'u' :: 'l' :: 'l' :: rest => some (.null, rest)
    | 't' :: 'r' :: 'u' :: 'e' :: rest => some (.boolean true, rest)
    | 'f' :: 'a' :: 'l' :: 's' :: 'e' :: rest => some (.boolean false, rest)
    | '"' :: rest => (string? rest).map (fun r => (.text r.1, r.2))
    | '[' :: rest =>
      match skipSpace rest with
      | ']' :: rest => some (.array [], rest)
      | rest => (elements? n rest).map (fun r => (.array r.1, r.2))
    | '{' :: rest =>
      match skipSpace rest with
      | '}' :: rest => some (.object [], rest)
      | rest => (members? n rest).map (fun r => (.object r.1, r.2))
    | cs => (number? cs).map (fun r => (.number r.1, r.2))

/-- One or more values between commas, up to the closing bracket. -/
def elements? : Nat → List Char → Option (List Json × List Char)
  | 0, _ => none
  | n + 1, cs =>
    match value? n cs with
    | none => none
    | some (v, rest) =>
      match skipSpace rest with
      | ',' :: rest => (elements? n rest).map (fun r => (v :: r.1, r.2))
      | ']' :: rest => some ([v], rest)
      | _ => none

/-- One or more members between commas, up to the closing brace. -/
def members? : Nat → List Char → Option (List (Option String × Json) × List Char)
  | 0, _ => none
  | n + 1, cs =>
    match skipSpace cs with
    | '"' :: rest =>
      match string? rest with
      | none => none
      | some (key, rest) =>
        match skipSpace rest with
        | ':' :: rest =>
          match value? n rest with
          | none => none
          | some (v, rest) =>
            match skipSpace rest with
            | ',' :: rest => (members? n rest).map (fun r => ((key, v) :: r.1, r.2))
            | '}' :: rest => some ([(key, v)], rest)
            | _ => none
        | _ => none
    | _ => none

end

/-- The value of a whole text; `none` unless the text is one well-formed value. -/
def parse? (s : String) : Option Json :=
  let cs := s.toList
  match value? (2 * cs.length + 2) cs with
  | some (v, rest) => if skipSpace rest = [] then some v else none
  | none => none

end ReplicaUpkeep.Json

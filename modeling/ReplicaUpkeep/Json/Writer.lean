import ReplicaUpkeep.Json.Basic

/-!
# Writing JSON text

Two layouts of one value: compact, without space, and indented, with one member or element a line
and two spaces for each level.  An empty array or object stays on one line in both.  Quotes,
backslashes and control characters are escaped and every other character stands for itself.
-/

namespace ReplicaUpkeep.Json

/-- A hexadecimal digit in lower case. -/
def hexChar (n : Nat) : Char :=
  Nat.digitChar n

/-- A character as it stands inside a string. -/
def escapeChar (c : Char) : List Char :=
  match c with
  | '"' => ['\\', '"']
  | '\\' => ['\\', '\\']
  | '\x08' => ['\\', 'b']
  | '\x0c' => ['\\', 'f']
  | '\n' => ['\\', 'n']
  | '\r' => ['\\', 'r']
  | '\t' => ['\\', 't']
  | c =>
    if c.toNat < 0x20 then
      ['\\', 'u', '0', '0', hexChar (c.toNat / 16), hexChar (c.toNat % 16)]
    else [c]

/-- A text between quotes. -/
def quote (s : String) : List Char :=
  '"' :: (s.toList.flatMap escapeChar ++ ['"'])

/-- A string value; a string that names no text is written as a lone half of a surrogate pair. -/
def quote? : Option String → List Char
  | some s => quote s
  | none => "\"\\ud800\"".toList

/-- A number token. -/
def Number.render : Number → List Char
  | .natural n => Text.decimal n
  | .decimal negative mantissa exponent =>
    (if negative then ['-'] else []) ++ Text.decimal mantissa ++ ['e'] ++
      (if exponent < 0 then ['-'] else []) ++ Text.decimal exponent.natAbs

/-- The texts with a separator between them. -/
def joinWith (separator : List Char) : List (List Char) → List Char
  | [] => []
  | [x] => x
  | x :: rest => x ++ separator ++ joinWith separator rest

mutual

/-- A value without any space. -/
def compact : Json → List Char
  | .null => "null".toList
  | .boolean true => "true".toList
  | .boolean false => "false".toList
  | .number n => n.render
  | .text t => quote? t
  | .array items => '[' :: (joinWith [','] (compactItems items) ++ [']'])
  | .object members => '{' :: (joinWith [','] (compactMembers members) ++ ['}'])

/-- The elements of an array, each without space. -/
def compactItems : List Json → List (List Char)
  | [] => []
  | v :: rest => compact v :: compactItems rest

/-- The members of an object, each without space. -/
def compactMembers : List (Option String × Json) → List (List Char)
  | [] => []
  | (k, v) :: rest => (quote? k ++ ':' :: compact v) :: compactMembers rest

end

/-- A new line indented to a level. -/
def newLine (level : Nat) : List Char :=
  '\n' :: List.replicate (2 * level) ' '

mutual

/-- A value that begins at a level of indentation. -/
def indented (level : Nat) : Json → List Char
  | .array [] => ['[', ']']
  | .array items =>
    '[' :: (newLine (level + 1) ++
      joinWith (',' :: newLine (level + 1)) (indentedItems (level + 1) items) ++
      newLine level ++ [']'])
  | .object [] => ['{', '}']
  | .object members =>
    '{' :: (newLine (level + 1) ++
      joinWith (',' :: newLine (level + 1)) (indentedMembers (level + 1) members) ++
      newLine level ++ ['}'])
  | .null => compact .null
  | .boolean b => compact (.boolean b)
  | .number n => compact (.number n)
  | .text t => compact (.text t)

/-- The elements of an array at their level. -/
def indentedItems (level : Nat) : List Json → List (List Char)
  | [] => []
  | v :: rest => indented level v :: indentedItems level rest

/-- The members of an object at their level. -/
def indentedMembers (level : Nat) : List (Option String × Json) → List (List Char)
  | [] => []
  | (k, v) :: rest =>
    (quote? k ++ ':' :: ' ' :: indented level v) :: indentedMembers level rest

end

/-- The compact text of a value. -/
def render (v : Json) : String :=
  String.ofList (compact v)

/-- The indented text of a value. -/
def renderIndented (v : Json) : String :=
  String.ofList (indented 0 v)

end ReplicaUpkeep.Json

import ReplicaUpkeep.Config
import ReplicaUpkeep.Decimal.Shortest
import ReplicaUpkeep.Toml.Reader

/-!
# Where a configuration comes from

Settings are layered: what is built in, then a file, then variables of the environment, a later layer
replacing what an earlier one says about the same setting.  A setting is named by a path; whatever is
said below the name of a setting makes a table of it.  The name of a variable, in lower case, is a
fixed beginning and then the path, its parts between double underscores.  Numbers may be given as
text, and texts as numbers, truth values, dates or times; the conversions are made after the layers
are merged.  A path with an index makes an array that is long enough for it, used or not, so an index
can be larger than any array can be held for.
-/

namespace ReplicaUpkeep.Config

/-! ## Paths -/

/-- How a name goes on behind its first part. -/
inductive Step where
  | key (name : String)
  | index (n : Int)
  deriving DecidableEq, Repr

/-- May the character stand in a part of a path? -/
def isPathChar (c : Char) : Bool :=
  c.isAlphanum || c = '_' || c = '-'

/-- One part of a path. -/
def part? (cs : List Char) : Option (String × List Char) :=
  match cs.takeWhile isPathChar with
  | [] => none
  | part => some (String.ofList part, cs.dropWhile isPathChar)

/-- An index between brackets, after the opening one. -/
def index? (cs : List Char) : Option (Int × List Char) :=
  let isSpace := fun (c : Char) => c = ' ' || c = '\t'
  let close := fun (negative : Bool) (cs : List Char) =>
    match cs.takeWhile Char.isDigit, (cs.dropWhile Char.isDigit).dropWhile isSpace with
    | [], _ => none
    | ds, ']' :: rest =>
      let n := Text.digitsValue ds
      if n < Text.signedLimit ∨ (negative ∧ n = Text.signedLimit) then
        some (if negative then -(n : Int) else n, rest)
      else none
    | _, _ => none
  match cs.dropWhile isSpace with
  | '-' :: rest => close true rest
  | rest => close false rest

/-- What follows the first part of a path, up to the end of the text. -/
def steps? : Nat → List Char → Option (List Step)
  | _, [] => some []
  | 0, _ => none
  | n + 1, '.' :: rest =>
    match part? rest with
    | none => none
    | some (part, rest) => (steps? n rest).map (.key part :: ·)
  | n + 1, '[' :: rest =>
    match index? rest with
    | none => none
    | some (i, rest) => (steps? n rest).map (.index i :: ·)
  | _, _ => none

/-- A path: its first part and what follows.  A text that is no path names itself. -/
def pathOf (s : String) : String × List Step :=
  let cs := s.toList
  match part? cs with
  | none => (s, [])
  | some (root, rest) =>
    match steps? rest.length rest with
    | none => (s, [])
    | some steps => (root, steps)

/-- The greatest number of items of an array: one takes 96 bytes, and all of them less than `2 ^ 63`. -/
def maxItems : Nat := 96076792050570581

/-- Can an array be held that has the item?  A negative index counts from the end of the array. -/
def Step.fits : Step → Bool
  | .key _ => true
  | .index n => (if n < 0 then n.natAbs else n.toNat + 1) ≤ maxItems

/-! ## Settings -/

/-- What a layer or all of them say of one setting. -/
inductive Setting where
  | text (s : String)
  | integer (n : Int)
  | real (x : Decimal.Double)
  | boolean (b : Bool)
  /-- An array or a table, of no use for any setting. -/
  | compound
  /-- An array that cannot be held. -/
  | oversized
  deriving DecidableEq, Repr

/-- What a value of a document says. -/
def Setting.ofToml : Toml → Setting
  | .text s => .text s
  | .integer n => .integer n
  | .real x => .real x
  | .boolean b => .boolean b
  | .moment m => .text m.render
  | .array _ | .table _ _ | .tables _ => .compound

/-- Said of a path, this is what it says of the setting at its beginning. -/
def Setting.under (steps : List Step) (v : Setting) : Setting :=
  if steps = [] then v else if steps.all Step.fits then .compound else .oversized

/-- Settings by name, a later one replacing an earlier one of the same name. -/
abbrev Settings := List (String × Setting)

/-- Say something of a path. -/
def say (path : String) (v : Setting) (s : Settings) : Settings :=
  let (root, steps) := pathOf path
  (root, v.under steps) :: s

/-- The last thing said of a setting. -/
def find? (key : String) : Settings → Option Setting
  | [] => none
  | (k, v) :: rest => if k = key then some v else find? key rest

/-! ## Layers -/

/-- What the name of every variable begins with, in lower case. -/
def variableStart : List Char := "replicon__".toList

/-- A character in lower case.  Besides the capital letters of ASCII, the Kelvin sign is the only
character whose lower case is a letter of ASCII. -/
def lower (c : Char) : Char :=
  if c = '\u212a' then 'k' else c.toLower

/-- A text with points in place of double underscores. -/
def pointed : List Char → List Char
  | '_' :: '_' :: rest => '.' :: pointed rest
  | c :: rest => c :: pointed rest
  | [] => []

/-- The path that the name of a variable stands for, if it stands for one. -/
def variablePath? (name : String) : Option String :=
  let cs := name.toList.map lower
  if variableStart.isPrefixOf cs then
    some (String.ofList (pointed (cs.drop variableStart.length)))
  else none

/-- Add what the variables of the environment say. -/
def withVariables (env : List (String × String)) (s : Settings) : Settings :=
  env.foldl
    (fun s v =>
      match variablePath? v.1 with
      | none => s
      | some path => say path (.text v.2) s)
    s

/-- Add what a document says. -/
def withDocument (members : Toml.Members) (s : Settings) : Settings :=
  members.foldl (fun s m => say m.1 (.ofToml m.2) s) s

/-! ## Conversions -/

/-- The words that stand for one and zero. -/
def truthWord? (s : String) : Option UInt64 :=
  let w := String.ofList (s.toList.map Char.toLower)
  if w = "true" ∨ w = "on" ∨ w = "yes" then some 1
  else if w = "false" ∨ w = "off" ∨ w = "no" then some 0
  else none

/-- A setting as an unsigned word. -/
def Setting.toWord? : Setting → Option UInt64
  | .text s =>
    truthWord? s <|> (Text.signedNumeral? Text.wordLimit s.toList).map UInt64.ofNat
  | .integer n => if 0 ≤ n ∧ n < Text.wordLimit then some (UInt64.ofNat n.toNat) else none
  | .real x => some x.toWord
  | .boolean b => some (if b then 1 else 0)
  | .compound | .oversized => none

/-- A setting as a text. -/
def Setting.toText? : Setting → Option String
  | .text s => some s
  | .integer n =>
    some (String.ofList ((if n < 0 then ['-'] else []) ++ Text.decimal n.natAbs))
  | .real x => some (String.ofList x.render)
  | .boolean b => some (if b then "true" else "false")
  | .compound | .oversized => none

/-- A setting as a duration. -/
def Setting.toDuration? (v : Setting) : Option Duration :=
  v.toText?.bind (fun s => (Duration.parse s).toOption)

/-- What is said of a setting, or what is built in where nothing is said. -/
def pick {α : Type} (s : Settings) (key : String) (builtIn : α) (convert : Setting → Option α) :
    Option α :=
  match find? key s with
  | none => some builtIn
  | some v => convert v

/-- The configuration of merged settings. -/
def ofSettings? (s : Settings) : Option Config := do
  let interval ← pick s "interval" default.interval Setting.toDuration?
  let maxRepairs ← pick s "max_repairs_per_cycle" default.maxRepairs Setting.toWord?
  let inflightTimeout ← pick s "inflight_timeout" default.inflightTimeout Setting.toDuration?
  let capacity ← pick s "directive_channel_capacity" default.capacity Setting.toWord?
  let logLevel ← pick s "log_level" default.logLevel Setting.toText?
  some { interval, maxRepairs, inflightTimeout, capacity, logLevel }

/-- The file that is given for a configuration. -/
inductive File where
  /-- No file is asked for. -/
  | none
  /-- A file is asked for and cannot be read. -/
  | unreadable
  | contents (text : String)
  deriving DecidableEq, Repr

/-- The settings of a file.  A byte order mark that begins the file is dropped before its document is
read. -/
def File.settings? : File → Option Settings
  | .none => some []
  | .unreadable => Option.none
  | .contents text =>
    (Toml.parse? (String.ofList (Toml.withoutMark text.toList))).map (withDocument · [])

/-- The configuration of merged settings, if a manager can run with it. -/
def ofSettings (s : Settings) : Except Error Config :=
  match ofSettings? s with
  | some c => c.validate
  | none => .error (.configLoad "settings cannot be read")

/-- The configuration of a file and the environment, if a manager can run with it; none if something
that is said there is too large to be held. -/
def load (file : File) (env : List (String × String)) : Except Error (Option Config) :=
  match file.settings? with
  | none => .error (.configLoad "the file cannot be read")
  | some s =>
    let s := withVariables env s
    if s.any (fun x => x.2 = .oversized) then .ok none else (ofSettings s).map some

end ReplicaUpkeep.Config

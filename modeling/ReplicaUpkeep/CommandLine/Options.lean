/-!
# Options of a command

Reading the words behind a command by the options that the command has.  An option is a flag, or it
takes a value, given as the next word or behind an equals sign.  Every option may be given once; a
value is not empty, and as a word of its own it does not look like an option, a single dash apart.
Two dashes may end the list.  Nothing else may stand there.
-/

namespace ReplicaUpkeep.CommandLine

/-- An option that a command has. -/
structure OptionSpec where
  name : String
  takesValue : Bool
  deriving DecidableEq, Repr

/-- An option as it was given; a flag has the empty value. -/
structure Given where
  name : String
  value : String
  deriving DecidableEq, Repr

/-- The name in a word that begins with two dashes and goes on, and the value behind an equals sign
if there is one. -/
def long? (word : String) : Option (String × Option String) :=
  match word.toList with
  | '-' :: '-' :: c :: rest =>
    let cs := c :: rest
    let name := String.ofList (cs.takeWhile (· ≠ '='))
    match cs.dropWhile (· ≠ '=') with
    | [] => some (name, none)
    | _ :: value => some (name, some (String.ofList value))
  | _ => none

/-- Can the word be the value of an option before it? -/
def isValue (word : String) : Bool :=
  match word.toList with
  | [] => false
  | ['-'] => true
  | c :: _ => c ≠ '-'

/-- The options in a list of words; `none` if the words break a rule. -/
def options? (specs : List OptionSpec) : List String → Option (List Given)
  | [] => some []
  | ["--"] => some []
  | word :: rest =>
    match long? word with
    | none => none
    | some (name, attached) =>
      match specs.find? (fun s => s.name = name), attached, rest with
      | some ⟨_, false⟩, none, rest => (options? specs rest).map (⟨name, ""⟩ :: ·)
      | some ⟨_, true⟩, some value, rest =>
        if value = "" then none else (options? specs rest).map (⟨name, value⟩ :: ·)
      | some ⟨_, true⟩, none, value :: rest =>
        if isValue value then (options? specs rest).map (⟨name, value⟩ :: ·) else none
      | _, _, _ => none

/-- The options of a command, each given at most once. -/
def read? (specs : List OptionSpec) (words : List String) : Option (List Given) :=
  (options? specs words).filter (fun given =>
    specs.all (fun s => (given.filter (fun g => g.name = s.name)).length ≤ 1))

/-- The value of an option, if it was given. -/
def value? (given : List Given) (name : String) : Option String :=
  (given.find? (fun g => g.name = name)).map Given.value

end ReplicaUpkeep.CommandLine

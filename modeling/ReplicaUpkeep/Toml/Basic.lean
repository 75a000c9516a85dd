import ReplicaUpkeep.Decimal.Double
import ReplicaUpkeep.Toml.Moment

/-!
# TOML documents

The tree of a settings document, and how it grows line by line.  A table remembers how it came to be,
because that decides what may still be said about it: a table under its own header may not get a
second header, and neither it nor an inline table may be added to by a dotted key from outside.  A
dotted key may lead through tables that were only named on the way to a header, which are tables of
dotted keys from then on, and through the last table of a repeated header, to which it cannot add
directly.  A key is never given twice.
-/

namespace ReplicaUpkeep

/-- How a table came to be. -/
inductive Toml.Origin where
  /-- Under a header of its own. -/
  | header
  /-- Named on the way to the header of another table. -/
  | implied
  /-- Named on the way to the value of a dotted key. -/
  | dotted
  /-- Written between braces. -/
  | inlined
  deriving DecidableEq, Repr

/-- A value of a document. -/
inductive Toml where
  | text (s : String)
  | integer (n : Int)
  | real (x : Decimal.Double)
  | boolean (b : Bool)
  | moment (m : Toml.Moment)
  | array (items : List Toml)
  | table (origin : Toml.Origin) (members : List (String × Toml))
  /-- Tables under one repeated header, in the order of the document. -/
  | tables (items : List (List (String × Toml)))
  deriving Repr, Inhabited

namespace Toml

/-- The members of a table. -/
abbrev Members := List (String × Toml)

/-- The value of a key. -/
def member? (key : String) : Members → Option Toml
  | [] => none
  | (k, v) :: rest => if k = key then some v else member? key rest

/-- Put a value in the place of a key's, or behind all others. -/
def setMember (key : String) (v : Toml) : Members → Members
  | [] => [(key, v)]
  | (k, w) :: rest => if k = key then (k, v) :: rest else (k, w) :: setMember key v rest

/-- Change the last item of a list, if there is one. -/
def changeLast {α : Type} (f : α → Option α) : List α → Option (List α)
  | [] => none
  | [a] => (f a).map ([·])
  | a :: b :: rest => (changeLast f (b :: rest)).map (a :: ·)

/-- Give a value to a key, dotted or not, that has none yet. -/
def define : List String → Toml → Members → Option Members
  | [], _, _ => none
  | [key], v, ms =>
    match member? key ms with
    | none => some (setMember key v ms)
    | some _ => none
  | key :: next :: rest, v, ms =>
    match member? key ms with
    | none => (define (next :: rest) v []).map (fun inner => setMember key (.table .dotted inner) ms)
    | some (.table .dotted inner) =>
      (define (next :: rest) v inner).map (fun inner => setMember key (.table .dotted inner) ms)
    | some (.table .implied inner) =>
      (define (next :: rest) v inner).map (fun inner => setMember key (.table .dotted inner) ms)
    | some (.tables items) =>
      if rest = [] then none
      else
        (changeLast (define (next :: rest) v) items).map
          (fun items => setMember key (.tables items) ms)
    | some _ => none

/-- Change the members of the table that a header names, tables on the way to it being made. -/
def within (change : Members → Option Members) : List String → Members → Option Members
  | [], ms => change ms
  | key :: rest, ms =>
    match member? key ms with
    | none =>
      (within change rest []).map (fun inner => setMember key (.table .implied inner) ms)
    | some (.table .inlined _) => none
    | some (.table origin inner) =>
      (within change rest inner).map (fun inner => setMember key (.table origin inner) ms)
    | some (.tables items) =>
      (changeLast (within change rest) items).map (fun items => setMember key (.tables items) ms)
    | some _ => none

/-- Begin the table of a header, which may not have begun before. -/
def beginTable (key : String) (ms : Members) : Option Members :=
  match member? key ms with
  | none => some (setMember key (.table .header []) ms)
  | some (.table .implied inner) => some (setMember key (.table .header inner) ms)
  | some _ => none

/-- Begin one more table of a repeated header. -/
def beginItem (key : String) (ms : Members) : Option Members :=
  match member? key ms with
  | none => some (setMember key (.tables [[]]) ms)
  | some (.tables items) => some (setMember key (.tables (items ++ [[]])) ms)
  | some _ => none

/-- One line of a document, blank lines and comments left out. -/
inductive Line where
  | assignment (path : List String) (value : Toml)
  | tableHeader (path : List String)
  | itemHeader (path : List String)
  deriving Repr

/-- A document in the making: all that was said, and the header that the next line stands under. -/
structure Draft where
  members : Members
  current : List String
  deriving Repr

namespace Draft

/-- The document of which nothing is known. -/
def empty : Draft where
  members := []
  current := []

/-- Begin under a header. -/
def enter (d : Draft) (start : String → Members → Option Members) (path : List String) :
    Option Draft :=
  match path.getLast? with
  | none => none
  | some key =>
    (within (start key) path.dropLast d.members).map
      (fun members => { members, current := path })

/-- Take in one line. -/
def take (d : Draft) : Line → Option Draft
  | .assignment path value =>
    (within (define path value) d.current d.members).map (fun members => { d with members })
  | .tableHeader path => d.enter beginTable path
  | .itemHeader path => d.enter beginItem path

end Draft

/-- The members of the document that consists of these lines; `none` if one contradicts another. -/
def ofLines? (lines : List Line) : Option Members :=
  (lines.foldlM Draft.take .empty).map Draft.members

end Toml

end ReplicaUpkeep

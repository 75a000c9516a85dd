import ReplicaUpkeep.Text.Numeral

/-!
# Quoted text in documents

Text stands between double quotes, with escapes, or between single quotes, without; between single
marks it stays on one line, between threefold marks it may run over several.  Of a text over several
lines the line end right after the opening marks is dropped, and all others are kept as they are
written.  A backslash at the end of a line takes the line end away, with the blanks and blank lines
that follow.  Up to two quotes right before the closing marks belong to the text.
-/

namespace ReplicaUpkeep.Toml

/-! ## Space and ends of lines -/

/-- May the character stand between tokens of one line? -/
def isSpace (c : Char) : Bool :=
  c = ' ' || c = '\t'

/-- Drop the space in front. -/
def skipSpace (cs : List Char) : List Char :=
  cs.dropWhile isSpace

/-- The text behind the end of a line. -/
def newLine? : List Char → Option (List Char)
  | '\n' :: rest => some rest
  | '\r' :: '\n' :: rest => some rest
  | _ => none

/-- Drop space and ends of lines in front. -/
def skipBlank : List Char → List Char
  | ' ' :: rest => skipBlank rest
  | '\t' :: rest => skipBlank rest
  | '\n' :: rest => skipBlank rest
  | '\r' :: '\n' :: rest => skipBlank rest
  | cs => cs

/-- May the character stand in a comment or a text as it is? -/
def isPlain (c : Char) : Bool :=
  c = '\t' || (0x20 ≤ c.toNat && c ≠ '\x7f')

theorem length_skipSpace_le (cs : List Char) : (skipSpace cs).length ≤ cs.length :=
  (List.dropWhile_sublist isSpace).length_le

theorem length_skipBlank_le (cs : List Char) : (skipBlank cs).length ≤ cs.length := by
  fun_induction skipBlank cs with
  | case1 => grind
  | case2 => grind
  | case3 => grind
  | case4 => grind
  | case5 => exact Nat.le_refl _

theorem length_lt_of_newLine? {cs rest : List Char} (h : newLine? cs = some rest) :
    rest.length < cs.length := by
  fun_cases newLine? cs with
  | case1 => grind [newLine?]
  | case2 => grind [newLine?]
  | case3 => grind [newLine?]

/-! ## Escapes -/

/-- The character named by a letter after a backslash. -/
def escaped? : Char → Option Char
  | '"' => some '"'
  | '\\' => some '\\'
  | 'b' => some '\x08'
  | 'e' => some '\x1b'
  | 'f' => some '\x0c'
  | 'n' => some '\n'
  | 'r' => some '\r'
  | 't' => some '\t'
  | _ => none

/-- The character of a code point, surrogates left out. -/
def codePoint? (digits : List Char) : Option Char :=
  (Text.radixValue? 16 digits).bind (fun n =>
    if h : n.isValidChar then some (Char.ofNatAux n h) else none)

/-- The character of an escape after its backslash, and what follows. -/
def escape? : List Char → Option (Char × List Char)
  | 'x' :: a :: b :: rest => (codePoint? [a, b]).map (·, rest)
  | 'u' :: a :: b :: c :: d :: rest => (codePoint? [a, b, c, d]).map (·, rest)
  | 'U' :: a :: b :: c :: d :: e :: f :: g :: h :: rest =>
    (codePoint? [a, b, c, d, e, f, g, h]).map (·, rest)
  | e :: rest => (escaped? e).map (·, rest)
  | [] => none

theorem length_lt_of_escape? {cs rest : List Char} {c : Char} (h : escape? cs = some (c, rest)) :
    rest.length < cs.length := by
  unfold escape? at h
  split at h <;> simp only [Option.map_eq_some_iff, Prod.mk.injEq, reduceCtorEq] at h <;>
    obtain ⟨_, _, _, rfl⟩ := h <;> simp only [List.length_cons] <;> omega

/-- What follows a backslash that takes the end of its line away. -/
def joined? (cs : List Char) : Option (List Char) :=
  (newLine? (skipSpace cs)).map skipBlank

theorem length_lt_of_joined? {cs rest : List Char} (h : joined? cs = some rest) :
    rest.length < cs.length := by
  obtain ⟨tail, htail, rfl⟩ := Option.map_eq_some_iff.1 h
  have h₁ := length_lt_of_newLine? htail
  have h₂ := length_skipBlank_le tail
  have h₃ := length_skipSpace_le cs
  omega

/-! ## Text on one line -/

/-- A text after its opening double quote, and what follows the closing one. -/
def basic? (cs : List Char) : Option (List Char × List Char) :=
  match cs with
  | [] => none
  | '"' :: rest => some ([], rest)
  | '\\' :: rest =>
    match _h : escape? rest with
    | none => none
    | some (c, rest) => (basic? rest).map (fun r => (c :: r.1, r.2))
  | c :: rest => if isPlain c then (basic? rest).map (fun r => (c :: r.1, r.2)) else none
termination_by cs.length
decreasing_by
  · have := length_lt_of_escape? _h
    simp only [List.length_cons]
    omega
  · simp only [List.length_cons]
    omega

/-- A text after its opening single quote, and what follows the closing one. -/
def literal? (cs : List Char) : Option (List Char × List Char) :=
  match cs.dropWhile (fun c => isPlain c && c ≠ '\x27') with
  | '\x27' :: rest => some (cs.takeWhile (fun c => isPlain c && c ≠ '\x27'), rest)
  | _ => none

/-! ## Text over several lines -/

/-- The quotes of a text that stand right before its closing marks, two at most, and what follows;
the marks are gone already. -/
def lastQuotes (quote : Char) (cs : List Char) : List Char × List Char :=
  let extra := (cs.take 2).takeWhile (· = quote)
  (extra, cs.drop extra.length)

/-- A text over several lines after three double quotes, and what follows the closing ones. -/
def basicBlock? (cs : List Char) : Option (List Char × List Char) :=
  match cs with
  | [] => none
  | '"' :: '"' :: '"' :: rest => some (lastQuotes '"' rest)
  | '\\' :: rest =>
    match _hj : joined? rest with
    | some rest => basicBlock? rest
    | none =>
      match _he : escape? rest with
      | none => none
      | some (c, rest) => (basicBlock? rest).map (fun r => (c :: r.1, r.2))
  | '\r' :: '\n' :: rest => (basicBlock? rest).map (fun r => ('\r' :: '\n' :: r.1, r.2))
  | c :: rest =>
    if isPlain c || c = '\n' then (basicBlock? rest).map (fun r => (c :: r.1, r.2)) else none
termination_by cs.length
decreasing_by
  · have := length_lt_of_joined? _hj
    simp only [List.length_cons]
    omega
  · have := length_lt_of_escape? _he
    simp only [List.length_cons]
    omega
  · simp only [List.length_cons]
    omega
  · simp only [List.length_cons]
    omega

/-- A text over several lines after three single quotes, and what follows the closing ones. -/
def literalBlock? : List Char → Option (List Char × List Char)
  | [] => none
  | '\x27' :: '\x27' :: '\x27' :: rest => some (lastQuotes '\x27' rest)
  | '\r' :: '\n' :: rest => (literalBlock? rest).map (fun r => ('\r' :: '\n' :: r.1, r.2))
  | c :: rest =>
    if isPlain c || c = '\n' then (literalBlock? rest).map (fun r => (c :: r.1, r.2)) else none

/-- Any quoted text in front, and what follows it. -/
def quoted? : List Char → Option (List Char × List Char)
  | '"' :: '"' :: '"' :: rest => basicBlock? ((newLine? rest).getD rest)
  | '"' :: rest => basic? rest
  | '\x27' :: '\x27' :: '\x27' :: rest => literalBlock? ((newLine? rest).getD rest)
  | '\x27' :: rest => literal? rest
  | _ => none

end ReplicaUpkeep.Toml

import ReplicaUpkeep.Json.Reader
import ReplicaUpkeep.Json.Writer
import ReplicaUpkeep.Proofs.Text.Digits

/-!
# Tokens that are read back

The strings and numbers that the writer gives are found again by the reader, each in front of
anything that does not lengthen it.  A string ends at its closing quote, because no quote stands in
it without a backslash.  A number ends where no digit, point or exponent goes on.
-/

namespace ReplicaUpkeep.Json

/-! ## Strings -/

/-- A control character is written with two hexadecimal digits that name it. -/
theorem hexUnit?_hexChar {n : Nat} (h : n < 0x20) :
    hexUnit? '0' '0' (hexChar (n / 16)) (hexChar (n % 16)) = some n := by
  revert n
  decide

/-- The characters that are written with a backslash and a letter or a sign. -/
def namedEscapes : List Char :=
  ['"', '\\', '\x08', '\x0c', '\n', '\r', '\t']

/-- The piece that a written character is read as. -/
def pieceOf (c : Char) : Piece :=
  if c.toNat < 0x20 ∧ c ∉ namedEscapes then .unit c.toNat else .char c

theorem escapeChar_of_notMem {c : Char} (h : c ∉ namedEscapes) :
    escapeChar c = if c.toNat < 0x20 then
      ['\\', 'u', '0', '0', hexChar (c.toNat / 16), hexChar (c.toNat % 16)] else [c] := by
  simp only [namedEscapes, List.mem_cons, List.not_mem_nil, or_false, not_or] at h
  unfold escapeChar
  split <;> simp_all

/-- A character that is neither a quote nor a backslash nor a control character stands for itself. -/
theorem pieces?_cons {c : Char} (hQuote : c ≠ '"') (hSlash : c ≠ '\\') (hControl : ¬ c.toNat < 0x20)
    (cs : List Char) :
    pieces? (c :: cs) = (pieces? cs).map fun r => (.char c :: r.1, r.2) := by
  rw [pieces?, if_neg hControl]
  · cases pieces? cs <;> rfl
  all_goals simp_all

/-- Each written character is one piece. -/
theorem pieces?_escapeChar (c : Char) (cs : List Char) :
    pieces? (escapeChar c ++ cs) = (pieces? cs).map fun r => (pieceOf c :: r.1, r.2) := by
  by_cases hNamed : c ∈ namedEscapes
  · have hPiece : pieceOf c = .char c := by simp [pieceOf, hNamed]
    simp only [namedEscapes, List.mem_cons, List.not_mem_nil, or_false] at hNamed
    rcases hNamed with rfl | rfl | rfl | rfl | rfl | rfl | rfl <;>
      cases hRest : pieces? cs <;> simp [escapeChar, pieces?, escaped?, hPiece, hRest]
  · rw [escapeChar_of_notMem hNamed]
    split
    · rename_i hControl
      have hPiece : pieceOf c = .unit c.toNat := by simp [pieceOf, hControl, hNamed]
      cases hRest : pieces? cs <;>
        simp [pieces?, hexUnit?_hexChar hControl, hPiece, hRest]
    · rename_i hPlain
      have hPiece : pieceOf c = .char c := by simp [pieceOf, hPlain]
      simp only [namedEscapes, List.mem_cons, List.not_mem_nil, or_false, not_or] at hNamed
      rw [hPiece, List.singleton_append, pieces?_cons hNamed.1 hNamed.2.1 hPlain]

/-- The pieces of a written text are those of its characters. -/
theorem pieces?_flatMap_escapeChar (s rest : List Char) :
    pieces? (s.flatMap escapeChar ++ '"' :: rest) = some (s.map pieceOf, rest) := by
  induction s with
  | nil => simp [pieces?]
  | cons c s ih => rw [List.flatMap_cons, List.append_assoc, pieces?_escapeChar, ih]; rfl

/-- A unit that is no half of a surrogate pair is a character of its own. -/
theorem joinPieces?_unit {u : Nat} (h : u < 0xD800) (ps : List Piece) :
    joinPieces? (.unit u :: ps) = (joinPieces? ps).map (Char.ofNat u :: ·) := by
  have hLeading : isLeading u = false := by simp [isLeading]; omega
  have hTrailing : isTrailing u = false := by simp [isTrailing]; omega
  cases ps with
  | nil => simp [joinPieces?, hLeading, hTrailing]
  | cons p ps => cases p <;> simp [joinPieces?, hLeading, hTrailing]

theorem joinPieces?_map_pieceOf (s : List Char) : joinPieces? (s.map pieceOf) = some s := by
  induction s with
  | nil => rfl
  | cons c s ih =>
    rw [List.map_cons, pieceOf]
    split
    · rename_i hControl
      rw [joinPieces?_unit (by omega), ih, Char.ofNat_toNat]
      rfl
    · rw [joinPieces?, ih]
      rfl

/-- A written string is read back, also one that names no text. -/
theorem string?_quote? (t : Option String) (rest : List Char) :
    ∃ cs, quote? t = '"' :: cs ∧ string? (cs ++ rest) = some (t, rest) := by
  cases t with
  | none => exact ⟨_, rfl, rfl⟩
  | some s =>
    refine ⟨_, rfl, ?_⟩
    rw [List.append_assoc, List.singleton_append, string?, pieces?_flatMap_escapeChar]
    simp [joinPieces?_map_pieceOf]

/-! ## Numbers -/

/-- Nothing stands in front that a number could go on with. -/
def EndsNumber (cs : List Char) : Prop :=
  ∀ c ∈ cs.head?, c.isDigit = false ∧ c ≠ '.' ∧ c ≠ 'e' ∧ c ≠ 'E'

theorem EndsNumber.endsDigits {cs : List Char} (h : EndsNumber cs) : Text.EndsDigits cs :=
  fun c hc => (h c hc).1

theorem spanDigits_decimal (n : Nat) {rest : List Char} (h : Text.EndsDigits rest) :
    spanDigits (Text.decimal n ++ rest) = (Text.decimal n, rest) := by
  have hDigits : ∀ c ∈ Text.decimal n, c.isDigit = true := fun _ => Text.isDigit_of_mem_decimal
  rw [spanDigits, Text.takeWhile_isDigit_append hDigits h, Text.dropWhile_isDigit_append hDigits h]

theorem fraction?_cons {c : Char} (h : c ≠ '.') (cs : List Char) :
    fraction? (c :: cs) = some (none, c :: cs) := by
  unfold fraction?
  split
  · rename_i hPoint
    exact absurd (List.cons.inj hPoint).1 h
  · rfl

theorem fraction?_of_endsNumber {cs : List Char} (h : EndsNumber cs) :
    fraction? cs = some (none, cs) := by
  cases cs with
  | nil => rfl
  | cons c cs => exact fraction?_cons (h c rfl).2.1 cs

theorem exponent?_of_endsNumber {cs : List Char} (h : EndsNumber cs) :
    exponent? cs = some (none, cs) := by
  cases cs with
  | nil => rfl
  | cons c cs =>
    obtain ⟨-, -, hLower, hUpper⟩ := h c rfl
    simp [exponent?, hLower, hUpper]

theorem exponentDigits?_decimal (negative : Bool) (n : Nat) {rest : List Char}
    (h : Text.EndsDigits rest) :
    exponentDigits? negative (Text.decimal n ++ rest) =
      some (some (if negative then -(n : Int) else n), rest) := by
  unfold exponentDigits?
  rw [spanDigits_decimal n h]
  split
  · rename_i hNone
    exact absurd (congrArg Prod.fst hNone) (Text.decimal_ne_nil n)
  · rename_i hSome
    obtain ⟨rfl, rfl⟩ := Prod.mk.inj hSome
    simp

/-- An exponent is written with a minus sign or none. -/
theorem exponent?_decimal (e : Int) {rest : List Char} (h : Text.EndsDigits rest) :
    exponent? ('e' :: ((if e < 0 then ['-'] else []) ++ (Text.decimal e.natAbs ++ rest))) =
      some (some e, rest) := by
  by_cases hNegative : e < 0
  · have hDigits := exponentDigits?_decimal true e.natAbs h
    rw [if_pos hNegative, List.singleton_append]
    simp only [exponent?, true_or, if_true, hDigits]
    simp only [Option.some.injEq, Prod.mk.injEq, and_true]
    omega
  · have hDigits := exponentDigits?_decimal false e.natAbs h
    obtain ⟨c, ds, hCons, hc⟩ := Text.exists_decimal_eq_cons e.natAbs
    rw [if_neg hNegative, List.nil_append]
    rw [hCons, List.cons_append] at hDigits ⊢
    have hPlus : c ≠ '+' := by rintro rfl; simp at hc
    have hMinus : c ≠ '-' := by rintro rfl; simp at hc
    simp only [exponent?, true_or, if_true]
    split
    · simp_all
    · simp_all
    · rw [hDigits]
      simp only [Option.some.injEq, Prod.mk.injEq, and_true, Bool.false_eq_true, if_false]
      omega

theorem not_needless_zero (n : Nat) :
    ¬ (Text.decimal n = [] ∨
      ((Text.decimal n).head? = some '0' ∧ (Text.decimal n).length ≠ 1)) := by
  rintro (hNone | ⟨hHead, hLong⟩)
  · exact Text.decimal_ne_nil n hNone
  · exact hLong (Text.length_decimal_of_head? hHead)

theorem unsigned?_natural (n : Nat) {rest : List Char} (h : EndsNumber rest) :
    unsigned? false (Text.decimal n ++ rest) = some (.natural n, rest) := by
  unfold unsigned?
  rw [spanDigits_decimal n h.endsDigits]
  simp only [if_neg (not_needless_zero n), fraction?_of_endsNumber h, exponent?_of_endsNumber h]
  simp

theorem unsigned?_decimal (negative : Bool) (n : Nat) (e : Int) {rest : List Char}
    (h : Text.EndsDigits rest) :
    unsigned? negative (Text.decimal n ++
        'e' :: ((if e < 0 then ['-'] else []) ++ (Text.decimal e.natAbs ++ rest))) =
      some (.decimal negative n e, rest) := by
  unfold unsigned?
  rw [spanDigits_decimal n (Text.endsDigits_cons rfl)]
  simp only [if_neg (not_needless_zero n), fraction?_cons (show 'e' ≠ '.' by decide),
    exponent?_decimal e h]
  simp

/-- A written number is read back where nothing lengthens it. -/
theorem number?_render (n : Number) {rest : List Char} (h : EndsNumber rest) :
    number? (n.render ++ rest) = some (n, rest) := by
  -- Without a minus sign the first digit stands in front.
  have hUnsigned : ∀ (m : Nat) (cs : List Char),
      number? (Text.decimal m ++ cs) = unsigned? false (Text.decimal m ++ cs) := by
    intro m cs
    obtain ⟨c, ds, hCons, hc⟩ := Text.exists_decimal_eq_cons m
    have hMinus : c ≠ '-' := by rintro rfl; simp at hc
    rw [hCons, List.cons_append]
    unfold number?
    split <;> simp_all
  cases n with
  | natural m => rw [Number.render, hUnsigned, unsigned?_natural m h]
  | decimal negative m e =>
    have hRead := unsigned?_decimal negative m e h.endsDigits
    cases negative with
    | true => simpa [Number.render, number?] using hRead
    | false => simpa [Number.render, hUnsigned] using hRead

end ReplicaUpkeep.Json

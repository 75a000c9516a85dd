import Mathlib.Data.List.Forall2
import ReplicaUpkeep.Proofs.Json.Tokens

/-!
# Values that are read back

Every value is read back from both of its layouts, the compact and the indented one.  What makes a
text stand for a value is stated by itself: the reader finds the value in front and leaves what
follows.  Arrays and objects are closed under this with any space between their tokens, so a layout
only has to be put together from texts that stand for the parts.

The bound of the reader falls with every value opened.  Twice the length of the text is enough, since
each bracket and each comma costs a character and at most two steps.
-/

namespace ReplicaUpkeep.Json

/-! ## Space between tokens -/

/-- Nothing but space. -/
def IsGap (cs : List Char) : Prop :=
  ∀ c ∈ cs, isSpace c = true

theorem isGap_nil : IsGap [] :=
  nofun

theorem isGap_newLine (level : Nat) : IsGap (newLine level) := by
  intro c hc
  rcases List.mem_cons.1 hc with rfl | hSpace
  · rfl
  · rw [List.eq_of_mem_replicate hSpace]
    rfl

theorem skipSpace_cons {c : Char} (h : isSpace c = false) (cs : List Char) :
    skipSpace (c :: cs) = c :: cs := by
  simp [skipSpace, h]

section Gap

variable {gap : List Char} (hGap : IsGap gap)
include hGap

theorem skipSpace_append (cs : List Char) : skipSpace (gap ++ cs) = skipSpace cs :=
  List.dropWhile_append_of_pos hGap

theorem value?_gap (n : Nat) (cs : List Char) : value? n (gap ++ cs) = value? n cs := by
  cases n with
  | zero => rfl
  | succ n => rw [value?, value?, skipSpace_append hGap]

theorem elements?_gap (n : Nat) (cs : List Char) : elements? n (gap ++ cs) = elements? n cs := by
  cases n with
  | zero => rfl
  | succ n => rw [elements?, elements?, value?_gap hGap]

theorem members?_gap (n : Nat) (cs : List Char) : members? n (gap ++ cs) = members? n cs := by
  cases n with
  | zero => rfl
  | succ n => rw [members?, members?, skipSpace_append hGap]

/-- No number goes on with space. -/
theorem endsNumber_append {rest : List Char} (h : EndsNumber rest) : EndsNumber (gap ++ rest) := by
  cases gap with
  | nil => exact h
  | cons c gap =>
    have hSpace := hGap c List.mem_cons_self
    rintro d hd
    obtain rfl : c = d := Option.some.inj hd
    simp only [isSpace, Bool.or_eq_true, decide_eq_true_eq] at hSpace
    rcases hSpace with ((rfl | rfl) | rfl) | rfl <;> decide

end Gap

/-- A mark between or behind values. -/
theorem endsNumber_mark {c : Char} (h : c = ',' ∨ c = ']' ∨ c = '\x7d') (rest : List Char) :
    EndsNumber (c :: rest) := by
  rintro d hd
  obtain rfl : c = d := Option.some.inj hd
  rcases h with rfl | rfl | rfl <;> decide

/-! ## Texts that stand for a value -/

/-- A text in which the reader finds a value, whatever follows that is no more of a number. -/
structure Spells (cs : List Char) (v : Json) : Prop where
  /-- No space stands in front, nor the end of an array. -/
  head : ∃ c rest, cs = c :: rest ∧ isSpace c = false ∧ c ≠ ']'
  reads : ∀ n rest, 2 * cs.length ≤ n → EndsNumber rest → value? n (cs ++ rest) = some (v, rest)

/-- A text in which the reader finds a key, a colon and a value. -/
def SpellsMember (cs : List Char) (m : Option String × Json) : Prop :=
  ∃ gap value, IsGap gap ∧ Spells value m.2 ∧ cs = quote? m.1 ++ ':' :: (gap ++ value)

theorem SpellsMember.exists_eq_cons {cs : List Char} {m : Option String × Json}
    (h : SpellsMember cs m) : ∃ rest, cs = '"' :: rest := by
  obtain ⟨gap, value, -, -, rfl⟩ := h
  obtain ⟨key, hQuote, -⟩ := string?_quote? m.1 []
  exact ⟨_, by rw [hQuote, List.cons_append]⟩

theorem spells_null : Spells "null".toList .null where
  head := ⟨_, _, rfl, rfl, by decide⟩
  reads := by
    rintro (_ | n) rest hn -
    · simp at hn
    · simp [value?, skipSpace, isSpace]

theorem spells_true : Spells "true".toList (.boolean true) where
  head := ⟨_, _, rfl, rfl, by decide⟩
  reads := by
    rintro (_ | n) rest hn -
    · simp at hn
    · simp [value?, skipSpace, isSpace]

theorem spells_false : Spells "false".toList (.boolean false) where
  head := ⟨_, _, rfl, rfl, by decide⟩
  reads := by
    rintro (_ | n) rest hn -
    · simp at hn
    · simp [value?, skipSpace, isSpace]

theorem spells_text (t : Option String) : Spells (quote? t) (.text t) := by
  obtain ⟨cs, hQuote, -⟩ := string?_quote? t []
  refine ⟨⟨_, _, hQuote, rfl, by decide⟩, ?_⟩
  rintro (_ | n) rest hn -
  · simp [hQuote] at hn
  · obtain ⟨cs, hQuote, hRead⟩ := string?_quote? t rest
    rw [hQuote, List.cons_append, value?, skipSpace_cons rfl]
    simp [hRead]

/-- A number begins with a digit or a minus sign. -/
theorem exists_render_eq_cons (k : Number) :
    ∃ c cs, k.render = c :: cs ∧ (c.isDigit = true ∨ c = '-') := by
  have hWritten : ∀ (m : Nat) (rest : List Char),
      ∃ c cs, Text.decimal m ++ rest = c :: cs ∧ (c.isDigit = true ∨ c = '-') := by
    intro m rest
    obtain ⟨c, ds, hCons, hc⟩ := Text.exists_decimal_eq_cons m
    exact ⟨c, ds ++ rest, by rw [hCons, List.cons_append], Or.inl hc⟩
  cases k with
  | natural m => simpa [Number.render] using hWritten m []
  | decimal negative m e =>
    cases negative with
    | true => exact ⟨'-', _, rfl, Or.inr rfl⟩
    | false => simpa [Number.render] using hWritten m _

/-- The first character of a number is neither space nor one that another value begins with. -/
theorem ne_of_number {c : Char} (h : c.isDigit = true ∨ c = '-') :
    ∀ d ∈ [' ', '\t', '\n', '\r', 'n', 't', 'f', '"', '[', '\x7b', ']'], c ≠ d := by
  have hNone : ∀ d ∈ [' ', '\t', '\n', '\r', 'n', 't', 'f', '"', '[', '\x7b', ']'],
      ¬ (d.isDigit = true ∨ d = '-') := by simp [Char.isDigit]
  rintro d hd rfl
  exact hNone c hd h

/-- A value that begins like a number is one. -/
theorem value?_of_number {c : Char} (h : c.isDigit = true ∨ c = '-') (n : Nat) (cs : List Char) :
    value? (n + 1) (c :: cs) = (number? (c :: cs)).map fun r => (.number r.1, r.2) := by
  have hOther := ne_of_number h
  simp only [List.mem_cons, List.not_mem_nil, or_false, forall_eq_or_imp, forall_eq] at hOther
  rw [value?, skipSpace_cons (by simp [isSpace, hOther])]
  simp [hOther]

theorem spells_number (k : Number) : Spells k.render (.number k) := by
  obtain ⟨c, cs, hCons, hc⟩ := exists_render_eq_cons k
  have hOther := ne_of_number hc
  simp only [List.mem_cons, List.not_mem_nil, or_false, forall_eq_or_imp, forall_eq] at hOther
  refine ⟨⟨c, cs, hCons, by simp [isSpace, hOther], by simp [hOther]⟩, ?_⟩
  rintro (_ | n) rest hn hEnds
  · simp [hCons] at hn
  · have hRead := number?_render k hEnds
    rw [hCons, List.cons_append] at hRead ⊢
    rw [value?_of_number hc, hRead]
    rfl

/-! ## Arrays and objects -/

theorem joinWith_cons (separator t : List Char) (ts : List (List Char)) :
    joinWith separator (t :: ts) = t ++ ts.flatMap (separator ++ ·) := by
  induction ts generalizing t with
  | nil => simp [joinWith]
  | cons u ts ih => simp [joinWith, ih, List.append_assoc]

/-- The first member is read, and then what follows a comma, or the end of the object. -/
theorem members?_first {cs : List Char} {m : Option String × Json} (h : SpellsMember cs m) {n : Nat}
    (hn : 2 * cs.length ≤ n) {rest : List Char} (hEnds : EndsNumber rest) :
    (∀ next, skipSpace rest = ',' :: next →
      members? (n + 1) (cs ++ rest) = (members? n next).map fun r => (m :: r.1, r.2)) ∧
    (∀ next, skipSpace rest = '\x7d' :: next →
      members? (n + 1) (cs ++ rest) = some ([m], next)) := by
  obtain ⟨gap, value, hGap, hValue, rfl⟩ := h
  obtain ⟨key, hQuote, hRead⟩ := string?_quote? m.1 (':' :: (gap ++ (value ++ rest)))
  simp only [hQuote, List.length_append, List.length_cons] at hn
  have hFound := hValue.reads n rest (by omega) hEnds
  have hColon : skipSpace (':' :: (gap ++ (value ++ rest))) = ':' :: (gap ++ (value ++ rest)) :=
    skipSpace_cons rfl _
  simp only [hQuote, List.cons_append, List.append_assoc]
  constructor <;>
  · intro next hNext
    rw [members?, skipSpace_cons rfl]
    simp only [hRead, hColon, value?_gap hGap, hFound, hNext]

/-- An array that does not end at once is read by its elements. -/
theorem value?_array {cs : List Char} (h : ∀ rest, skipSpace cs ≠ ']' :: rest) (n : Nat) :
    value? (n + 1) ('[' :: cs) =
      (elements? n (skipSpace cs)).map fun r => (.array r.1, r.2) := by
  rw [value?, skipSpace_cons rfl]
  simp only

/-- An object that does not end at once is read by its members. -/
theorem value?_object {cs : List Char} (h : ∀ rest, skipSpace cs ≠ '\x7d' :: rest) (n : Nat) :
    value? (n + 1) ('\x7b' :: cs) =
      (members? n (skipSpace cs)).map fun r => (.object r.1, r.2) := by
  rw [value?, skipSpace_cons rfl]
  simp only

section Layout

variable {gap closing : List Char} (hGap : IsGap gap) (hClosing : IsGap closing)
include hGap hClosing

theorem elements?_flatMap {ts : List (List Char)} {vs : List Json}
    (hSpells : List.Forall₂ Spells ts vs) {t : List Char} {v : Json} (hFirst : Spells t v)
    (n : Nat) (rest : List Char)
    (hn : 2 * (t ++ ts.flatMap ((',' :: gap) ++ ·)).length + 1 ≤ n) :
    elements? n (t ++ (ts.flatMap ((',' :: gap) ++ ·) ++ (closing ++ ']' :: rest))) =
      some (v :: vs, rest) := by
  induction hSpells generalizing t v n with
  | nil =>
    obtain _ | n := n
    · simp at hn
    · have hEnds := endsNumber_append hClosing (endsNumber_mark (.inr (.inl rfl)) rest)
      simp only [List.flatMap_nil, List.append_nil, List.nil_append] at hn ⊢
      rw [elements?, hFirst.reads n _ (by omega) hEnds]
      simp only [skipSpace_append hClosing, skipSpace_cons (show isSpace ']' = false from rfl)]
  | @cons u w ts vs hNext _ ih =>
    obtain _ | n := n
    · simp at hn
    · simp only [List.flatMap_cons, List.cons_append, List.append_assoc, List.length_append,
        List.length_cons] at hn ⊢
      have hRest := ih hNext n (by simp only [List.cons_append, List.length_append]; omega)
      rw [elements?, hFirst.reads n _ (by omega) (endsNumber_mark (.inl rfl) _)]
      simp only [skipSpace_cons (show isSpace ',' = false from rfl), elements?_gap hGap]
      simp only [List.cons_append] at hRest
      rw [hRest]
      rfl

theorem members?_flatMap {ts : List (List Char)} {ms : List (Option String × Json)}
    (hSpells : List.Forall₂ SpellsMember ts ms) {t : List Char} {m : Option String × Json}
    (hFirst : SpellsMember t m) (n : Nat) (rest : List Char)
    (hn : 2 * (t ++ ts.flatMap ((',' :: gap) ++ ·)).length + 1 ≤ n) :
    members? n (t ++ (ts.flatMap ((',' :: gap) ++ ·) ++ (closing ++ '\x7d' :: rest))) =
      some (m :: ms, rest) := by
  induction hSpells generalizing t m n with
  | nil =>
    obtain _ | n := n
    · simp at hn
    · have hEnds := endsNumber_append hClosing (endsNumber_mark (.inr (.inr rfl)) rest)
      simp only [List.flatMap_nil, List.append_nil, List.nil_append] at hn ⊢
      refine (members?_first hFirst (by omega) hEnds).2 rest ?_
      rw [skipSpace_append hClosing, skipSpace_cons rfl]
  | @cons u w ts ms hNext _ ih =>
    obtain _ | n := n
    · simp at hn
    · simp only [List.flatMap_cons, List.cons_append, List.append_assoc, List.length_append,
        List.length_cons] at hn ⊢
      have hRest := ih hNext n (by simp only [List.cons_append, List.length_append]; omega)
      simp only [List.cons_append] at hRest
      rw [(members?_first hFirst (by omega) (endsNumber_mark (.inl rfl) _)).1 _ (skipSpace_cons rfl _),
        members?_gap hGap, hRest]
      rfl

/-- Texts that stand for values, with commas between them, stand for the array. -/
theorem spells_array {ts : List (List Char)} {vs : List Json} (hSpells : List.Forall₂ Spells ts vs)
    (hSome : vs ≠ []) :
    Spells ('[' :: (gap ++ joinWith (',' :: gap) ts ++ closing ++ [']'])) (.array vs) := by
  refine ⟨⟨_, _, rfl, rfl, by decide⟩, ?_⟩
  rintro (_ | n) rest hn -
  · simp at hn
  · cases hSpells with
    | nil => exact absurd rfl hSome
    | @cons t v ts vs hFirst hRest =>
      obtain ⟨c, cs, hCons, hSolid, hOpen⟩ := hFirst.head
      have hSkip : ∀ cs', skipSpace (gap ++ (t ++ cs')) = t ++ cs' := by
        intro cs'
        rw [skipSpace_append hGap, hCons, List.cons_append, skipSpace_cons hSolid]
      simp only [joinWith_cons, List.length_cons, List.length_append, List.length_nil] at hn
      have hRead := elements?_flatMap hGap hClosing hRest hFirst n rest
        (by rw [List.length_append]; omega)
      simp only [joinWith_cons, List.cons_append, List.append_assoc, List.nil_append] at hRead ⊢
      rw [value?_array, hSkip, hRead]
      · rfl
      · rw [hSkip, hCons]
        simp [hOpen]

/-- Texts that stand for members, with commas between them, stand for the object. -/
theorem spells_object {ts : List (List Char)} {ms : List (Option String × Json)}
    (hSpells : List.Forall₂ SpellsMember ts ms) (hSome : ms ≠ []) :
    Spells ('\x7b' :: (gap ++ joinWith (',' :: gap) ts ++ closing ++ ['\x7d'])) (.object ms) := by
  refine ⟨⟨_, _, rfl, rfl, by decide⟩, ?_⟩
  rintro (_ | n) rest hn -
  · simp at hn
  · cases hSpells with
    | nil => exact absurd rfl hSome
    | @cons t m ts ms hFirst hRest =>
      obtain ⟨cs, hCons⟩ := hFirst.exists_eq_cons
      have hSkip : ∀ cs', skipSpace (gap ++ (t ++ cs')) = t ++ cs' := by
        intro cs'
        rw [skipSpace_append hGap, hCons, List.cons_append, skipSpace_cons rfl]
      simp only [joinWith_cons, List.length_cons, List.length_append, List.length_nil] at hn
      have hRead := members?_flatMap hGap hClosing hRest hFirst n rest
        (by rw [List.length_append]; omega)
      simp only [joinWith_cons, List.cons_append, List.append_assoc, List.nil_append] at hRead ⊢
      rw [value?_object, hSkip, hRead]
      · rfl
      · rw [hSkip, hCons]
        simp

end Layout

theorem spells_emptyArray : Spells ['[', ']'] (.array []) where
  head := ⟨_, _, rfl, rfl, by decide⟩
  reads := by
    rintro (_ | n) rest hn -
    · simp at hn
    · simp [value?, skipSpace, isSpace]

theorem spells_emptyObject : Spells ['\x7b', '\x7d'] (.object []) where
  head := ⟨_, _, rfl, rfl, by decide⟩
  reads := by
    rintro (_ | n) rest hn -
    · simp at hn
    · simp [value?, skipSpace, isSpace]

/-! ## The two layouts -/

mutual

theorem spells_compact : (v : Json) → Spells (compact v) v
  | .null => spells_null
  | .boolean true => spells_true
  | .boolean false => spells_false
  | .number n => spells_number n
  | .text t => spells_text t
  | .array [] => spells_emptyArray
  | .array (v :: vs) => by
    have hItems := spells_compactItems (v :: vs)
    have hArray := spells_array isGap_nil isGap_nil hItems (List.cons_ne_nil _ _)
    rw [List.append_nil] at hArray
    exact hArray
  | .object [] => spells_emptyObject
  | .object (m :: ms) => by
    have hMembers := spells_compactMembers (m :: ms)
    have hObject := spells_object isGap_nil isGap_nil hMembers (List.cons_ne_nil _ _)
    rw [List.append_nil] at hObject
    exact hObject

theorem spells_compactItems : (vs : List Json) → List.Forall₂ Spells (compactItems vs) vs
  | [] => .nil
  | v :: vs => .cons (spells_compact v) (spells_compactItems vs)

theorem spells_compactMembers :
    (ms : List (Option String × Json)) → List.Forall₂ SpellsMember (compactMembers ms) ms
  | [] => .nil
  | (_, v) :: ms =>
    .cons ⟨[], _, isGap_nil, spells_compact v, rfl⟩ (spells_compactMembers ms)

end

mutual

theorem spells_indented (level : Nat) : (v : Json) → Spells (indented level v) v
  | .null => spells_null
  | .boolean true => spells_true
  | .boolean false => spells_false
  | .number n => spells_number n
  | .text t => spells_text t
  | .array [] => spells_emptyArray
  | .array (v :: vs) => by
    have hItems := spells_indentedItems (level + 1) (v :: vs)
    exact spells_array (isGap_newLine _) (isGap_newLine _) hItems (List.cons_ne_nil _ _)
  | .object [] => spells_emptyObject
  | .object (m :: ms) => by
    have hMembers := spells_indentedMembers (level + 1) (m :: ms)
    exact spells_object (isGap_newLine _) (isGap_newLine _) hMembers (List.cons_ne_nil _ _)

theorem spells_indentedItems (level : Nat) :
    (vs : List Json) → List.Forall₂ Spells (indentedItems level vs) vs
  | [] => .nil
  | v :: vs => .cons (spells_indented level v) (spells_indentedItems level vs)

theorem spells_indentedMembers (level : Nat) : (ms : List (Option String × Json)) →
    List.Forall₂ SpellsMember (indentedMembers level ms) ms
  | [] => .nil
  | (_, v) :: ms =>
    .cons ⟨[' '], _, by simp [IsGap, isSpace], spells_indented level v, rfl⟩
      (spells_indentedMembers level ms)

end

/-- A text that stands for a value is read as that value and nothing else. -/
theorem parse?_of_spells {cs : List Char} {v : Json} (h : Spells cs v) :
    parse? (String.ofList cs) = some v := by
  have hRead := h.reads (2 * cs.length + 2) [] (by omega) nofun
  rw [List.append_nil] at hRead
  simp [parse?, hRead, skipSpace]

/-- Every value is read back from its compact text. -/
theorem parse?_render (v : Json) : parse? v.render = some v :=
  parse?_of_spells (spells_compact v)

/-- Every value is read back from its indented text. -/
theorem parse?_renderIndented (v : Json) : parse? v.renderIndented = some v :=
  parse?_of_spells (spells_indented 0 v)

end ReplicaUpkeep.Json

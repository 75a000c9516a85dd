import ReplicaUpkeep.Text.Blank

/-!
# Trimmed text

Trimming takes blanks away at both ends and nothing else.  So a text is its trimmed part with blanks
around it, and that part is told by beginning and ending with something other than a blank.
-/

namespace ReplicaUpkeep.Text

/-- There are only blanks, if anything. -/
def AllBlank (cs : List Char) : Prop :=
  ∀ c ∈ cs, isBlank c = true

/-- There is something, and it has no blank at either end. -/
structure Tight (cs : List Char) : Prop where
  ne_nil : cs ≠ []
  head : ∀ c ∈ cs.head?, isBlank c = false
  last : ∀ c ∈ cs.getLast?, isBlank c = false

theorem isBlank_eq_false_of_isDigit {c : Char} (h : c.isDigit = true) : isBlank c = false := by
  have hRange : 48 ≤ c.toNat ∧ c.toNat ≤ 57 := Char.isDigit_iff_toNat.1 h
  simp only [isBlank, blankRanges, List.any_cons, List.any_nil, Bool.or_false, Bool.or_eq_false_iff,
    Bool.and_eq_false_iff, decide_eq_false_iff_not]
  omega

theorem trimStart_cons {c : Char} (h : isBlank c = false) (cs : List Char) :
    trimStart (c :: cs) = c :: cs := by
  simp [trimStart, h]

theorem dropWhile_isBlank_append {blanks rest : List Char} (hBlanks : AllBlank blanks)
    (hRest : ∀ c ∈ rest.head?, isBlank c = false) : (blanks ++ rest).dropWhile isBlank = rest := by
  rw [List.dropWhile_append_of_pos hBlanks]
  cases rest with
  | nil => rfl
  | cons c rest => simp [hRest c rfl]

theorem AllBlank.reverse {cs : List Char} (h : AllBlank cs) : AllBlank cs.reverse := fun c hc =>
  h c (List.mem_reverse.1 hc)

/-- Blanks around a text without blanks at its ends are what trimming takes away. -/
theorem trim_append {before text after : List Char} (hBefore : AllBlank before) (hText : Tight text)
    (hAfter : AllBlank after) : trim (before ++ text ++ after) = text := by
  have hHead : ∀ c ∈ (text ++ after).head?, isBlank c = false := by
    obtain ⟨c, rest, rfl⟩ := List.exists_cons_of_ne_nil hText.ne_nil
    exact hText.head
  have hLast : ∀ c ∈ text.reverse.head?, isBlank c = false := by
    rw [List.head?_reverse]
    exact hText.last
  rw [trim, trimStart, List.append_assoc, dropWhile_isBlank_append hBefore hHead, trimEnd,
    List.reverse_append, dropWhile_isBlank_append hAfter.reverse hLast, List.reverse_reverse]

theorem allBlank_takeWhile (cs : List Char) : AllBlank (cs.takeWhile isBlank) := fun _ hc =>
  List.all_eq_true.1 List.all_takeWhile _ hc

/-- Nothing but blanks is taken away. -/
theorem exists_append_trim_append (cs : List Char) :
    ∃ before after, AllBlank before ∧ AllBlank after ∧ cs = before ++ trim cs ++ after := by
  refine ⟨cs.takeWhile isBlank, ((trimStart cs).reverse.takeWhile isBlank).reverse,
    allBlank_takeWhile cs, (allBlank_takeWhile _).reverse, ?_⟩
  rw [trim, trimEnd, List.append_assoc, ← List.reverse_append, List.takeWhile_append_dropWhile,
    List.reverse_reverse, trimStart, List.takeWhile_append_dropWhile]

end ReplicaUpkeep.Text

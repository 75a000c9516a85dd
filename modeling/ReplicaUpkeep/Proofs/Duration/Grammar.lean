import ReplicaUpkeep.Config
import ReplicaUpkeep.Proofs.Text.Digits
import ReplicaUpkeep.Proofs.Text.Trimming

/-!
# The grammar of durations

A text names a duration when it is a number with a unit, with nothing between them and at most blanks
around them.  The grammar is said here without the reader: a spelling has its parts as fields, and the
text is put together from them.  The reader takes exactly the texts that are spelled so and fit, and
gives the number of units as it stands, with nothing lost to the width of words.

Two units share letters with `ms`.  No spelling has two readings all the same, since the character in
front of a unit is a digit.
-/

namespace ReplicaUpkeep

/-- The units in which a duration is named. -/
inductive TimeUnit where
  | millisecond
  | second
  | minute
  | hour
  | day
  deriving DecidableEq, Repr

namespace TimeUnit

/-- How a unit is written. -/
def suffix : TimeUnit → List Char
  | .millisecond => ['m', 's']
  | .second => ['s']
  | .minute => ['m']
  | .hour => ['h']
  | .day => ['d']

/-- The length of a unit in nanoseconds. -/
def nanos : TimeUnit → Nat
  | .millisecond => 1000000
  | .second => 1000000000
  | .minute => 60000000000
  | .hour => 3600000000000
  | .day => 86400000000000

/-- What a number of units is multiplied by before it is kept as a word: milliseconds are kept as they
are, all others as seconds. -/
def scale : TimeUnit → Nat
  | .millisecond => 1
  | .second => 1
  | .minute => 60
  | .hour => 3600
  | .day => 86400

theorem scale_pos (unit : TimeUnit) : 0 < unit.scale := by
  cases unit <;> decide

theorem suffix_ne_nil (unit : TimeUnit) : unit.suffix ≠ [] := by
  cases unit <;> decide

theorem isBlank_of_mem_suffix {unit : TimeUnit} {c : Char} (h : c ∈ unit.suffix) :
    Text.isBlank c = false := by
  have hAll : unit.suffix.all (fun c => !Text.isBlank c) = true := by cases unit <;> decide
  simpa using List.all_eq_true.1 hAll c h

/-- Every unit but the finest is one letter. -/
theorem suffix_eq_singleton {unit : TimeUnit} (h : unit ≠ .millisecond) :
    ∃ c, unit.suffix = [c] ∧ Duration.unitSeconds? c = some unit.scale := by
  cases unit with
  | millisecond => exact absurd rfl h
  | second => exact ⟨'s', rfl, rfl⟩
  | minute => exact ⟨'m', rfl, rfl⟩
  | hour => exact ⟨'h', rfl, rfl⟩
  | day => exact ⟨'d', rfl, rfl⟩

theorem nanos_eq_scale_mul {unit : TimeUnit} (h : unit ≠ .millisecond) :
    unit.nanos = unit.scale * 1000000000 := by
  cases unit with
  | millisecond => exact absurd rfl h
  | second | minute | hour | day => rfl

end TimeUnit

namespace Duration

/-- A way to spell a duration: a number, perhaps with a plus sign, and a unit right behind it, perhaps
with blanks around the whole. -/
structure Spelling where
  before : List Char
  plus : Bool
  digits : List Char
  unit : TimeUnit
  after : List Char
  before_blank : Text.AllBlank before
  digits_numeral : Text.IsNumeral digits
  after_blank : Text.AllBlank after

namespace Spelling

/-- The number and its unit. -/
def core (p : Spelling) : List Char :=
  Text.signed p.plus p.digits ++ p.unit.suffix

/-- The whole text. -/
def text (p : Spelling) : List Char :=
  p.before ++ p.core ++ p.after

/-- The number that the digits stand for. -/
def number (p : Spelling) : Nat :=
  Text.digitsValue p.digits

/-- The number is a word, and so is its multiple that is kept. -/
def Fits (p : Spelling) : Prop :=
  p.number < Text.wordLimit ∧ p.number * p.unit.scale < Text.wordLimit

instance (p : Spelling) : Decidable p.Fits :=
  inferInstanceAs (Decidable (_ ∧ _))

theorem tight_core (p : Spelling) : Text.Tight p.core where
  ne_nil := List.append_ne_nil_of_right_ne_nil _ p.unit.suffix_ne_nil
  head := by
    intro c hc
    obtain ⟨digit, rest, hDigits⟩ := List.exists_cons_of_ne_nil p.digits_numeral.ne_nil
    have hDigit : digit.isDigit = true := p.digits_numeral.isDigit digit (hDigits ▸ List.mem_cons_self)
    -- A plus sign or a digit stands in front.
    cases hPlus : p.plus with
    | true =>
      obtain rfl : '+' = c := by simpa [core, Text.signed, hPlus] using hc
      decide
    | false =>
      obtain rfl : digit = c := by simpa [core, Text.signed, hPlus, hDigits] using hc
      exact Text.isBlank_eq_false_of_isDigit hDigit
  last := by
    intro c hc
    rw [core, List.getLast?_append, List.getLast?_eq_some_getLast p.unit.suffix_ne_nil,
      Option.some_or, ← List.getLast?_eq_some_getLast] at hc
    exact TimeUnit.isBlank_of_mem_suffix (List.mem_of_getLast? hc)

theorem trim_text (p : Spelling) : Text.trim p.text = p.core :=
  Text.trim_append p.before_blank p.tight_core p.after_blank

/-- A number with a unit between the blanks of a text spells that text. -/
theorem exists_of_trim {cs digits : List Char} {plus : Bool} {unit : TimeUnit}
    (hDigits : Text.IsNumeral digits)
    (hTrim : Text.trim cs = Text.signed plus digits ++ unit.suffix) :
    ∃ p : Spelling, p.text = cs ∧ p.number = Text.digitsValue digits ∧ p.unit = unit := by
  obtain ⟨before, after, hBefore, hAfter, hText⟩ := Text.exists_append_trim_append cs
  refine ⟨⟨before, plus, digits, unit, after, hBefore, hDigits, hAfter⟩, ?_, rfl, rfl⟩
  rw [hText, hTrim]
  rfl

/-- The duration that is spelled. -/
def duration (p : Spelling) : Duration :=
  match p.unit with
  | .millisecond => ofMillis (UInt64.ofNat p.number)
  | unit => ofSeconds (UInt64.ofNat (p.number * unit.scale))

/-- What is wrong with what does not fit. -/
def fault (p : Spelling) : Fault :=
  if p.number < Text.wordLimit then .tooLarge (String.ofList p.core)
  else .malformed (String.ofList p.core)

theorem duration_of_ne {p : Spelling} (h : p.unit ≠ .millisecond) :
    p.duration = ofSeconds (UInt64.ofNat (p.number * p.unit.scale)) := by
  rw [duration]
  cases hUnit : p.unit with
  | millisecond => exact absurd hUnit h
  | second | minute | hour | day => rfl

end Spelling

/-! ## Exact lengths -/

theorem totalNanos_ofSeconds {n : Nat} (h : n < Text.wordLimit) :
    (ofSeconds (UInt64.ofNat n)).totalNanos = n * 1000000000 := by
  rw [totalNanos, ofSeconds, UInt64.toNat_ofNat_of_lt' h, Nat.add_zero]

theorem totalNanos_ofMillis {n : Nat} (h : n < Text.wordLimit) :
    (ofMillis (UInt64.ofNat n)).totalNanos = n * 1000000 := by
  have hSeconds : (UInt64.ofNat n / 1000).toNat = n / 1000 := by
    rw [UInt64.toNat_div, UInt64.toNat_ofNat_of_lt' h]
    rfl
  simp only [totalNanos, ofMillis, hSeconds, UInt64.toNat_ofNat_of_lt' h]
  omega

/-- A duration is told by its length. -/
theorem eq_of_totalNanos_eq {d e : Duration} (h : d.totalNanos = e.totalNanos) : d = e := by
  obtain ⟨seconds, nanos, hNanos⟩ := d
  obtain ⟨seconds', nanos', hNanos'⟩ := e
  simp only [totalNanos] at h
  obtain rfl : seconds = seconds' := UInt64.toNat_inj.1 (by omega)
  obtain rfl : nanos = nanos' := by omega
  rfl

theorem Spelling.totalNanos_duration {p : Spelling} (h : p.Fits) :
    p.duration.totalNanos = p.number * p.unit.nanos := by
  obtain ⟨hNumber, hScaled⟩ := h
  by_cases hMillis : p.unit = .millisecond
  · rw [duration, hMillis]
    exact totalNanos_ofMillis hNumber
  · rw [duration_of_ne hMillis, totalNanos_ofSeconds hScaled, TimeUnit.nanos_eq_scale_mul hMillis,
      Nat.mul_assoc]

/-! ## Reading -/

theorem beforeMillis?_append (front : List Char) :
    beforeMillis? (front ++ ['m', 's']) = some front := by
  simp [beforeMillis?]

theorem eq_append_of_beforeMillis? {cs front : List Char} (h : beforeMillis? cs = some front) :
    cs = front ++ ['m', 's'] := by
  unfold beforeMillis? at h
  split at h
  · rename_i rest hReverse
    obtain rfl : rest.reverse = front := Option.some.inj h
    rw [← List.reverse_reverse cs, hReverse]
    simp
  · cases h

/-- One letter behind a digit is no `ms`. -/
theorem beforeMillis?_eq_none {front : List Char} (unit : Char)
    (hFront : ∀ c ∈ front.getLast?, c.isDigit = true) : beforeMillis? (front ++ [unit]) = none := by
  refine Option.eq_none_iff_forall_ne_some.2 fun other hMillis => ?_
  have hText : front ++ [unit] = (other ++ ['m']) ++ ['s'] := by
    rw [eq_append_of_beforeMillis? hMillis, List.append_assoc]
    rfl
  obtain ⟨rfl, -⟩ := List.append_inj' hText rfl
  have hDigit := hFront 'm' (by simp)
  exact absurd hDigit (by decide)

theorem exists_unit_of_unitSeconds? {c : Char} {n : Nat} (h : unitSeconds? c = some n) :
    ∃ unit : TimeUnit, unit ≠ .millisecond ∧ unit.suffix = [c] ∧ unit.scale = n := by
  unfold unitSeconds? at h
  split at h
  · exact ⟨.second, nofun, rfl, Option.some.inj h⟩
  · exact ⟨.minute, nofun, rfl, Option.some.inj h⟩
  · exact ⟨.hour, nofun, rfl, Option.some.inj h⟩
  · exact ⟨.day, nofun, rfl, Option.some.inj h⟩
  · cases h

theorem parse_of_trim_millis {s : String} {front : List Char}
    (hTrim : Text.trim s.toList = front ++ ['m', 's']) :
    parse s =
      match Text.signedNumeral? Text.wordLimit front with
      | some n => .ok (ofMillis (UInt64.ofNat n))
      | none => .error (.malformed (String.ofList (front ++ ['m', 's']))) := by
  have hLast : (front ++ ['m', 's']).getLast? = some 's' := by simp
  cases hNumber : Text.signedNumeral? Text.wordLimit front <;>
    simp only [parse, hTrim, hLast, beforeMillis?_append, hNumber]

theorem parse_of_trim_letter {s : String} {front : List Char} {unit : Char}
    (hTrim : Text.trim s.toList = front ++ [unit])
    (hFront : ∀ c ∈ front.getLast?, c.isDigit = true) :
    parse s = parseSeconds (front ++ [unit]) unit := by
  simp only [parse, hTrim, beforeMillis?_eq_none unit hFront, List.getLast?_concat]

/-- What is spelled is read if it fits; if not, the number is at fault or its multiple is. -/
theorem parse_of_spelling {s : String} {p : Spelling} (hText : p.text = s.toList) :
    parse s = if p.Fits then .ok p.duration else .error p.fault := by
  have hTrim : Text.trim s.toList = p.core := by rw [← hText, p.trim_text]
  have hNumber := Text.signedNumeral?_signed Text.wordLimit p.plus p.digits_numeral
  change _ = if p.number < Text.wordLimit then some p.number else none at hNumber
  by_cases hMillis : p.unit = .millisecond
  · have hFits : p.Fits ↔ p.number < Text.wordLimit := by
      rw [Spelling.Fits, hMillis, TimeUnit.scale, Nat.mul_one, and_self]
    have hCore : p.core = Text.signed p.plus p.digits ++ ['m', 's'] := by
      rw [Spelling.core, hMillis]
      rfl
    rw [parse_of_trim_millis (hTrim.trans hCore), hNumber, Spelling.duration, hMillis, ← hCore]
    by_cases hWord : p.number < Text.wordLimit
    · rw [if_pos hWord, if_pos (hFits.2 hWord)]
    · rw [if_neg hWord, if_neg (mt hFits.1 hWord), Spelling.fault, if_neg hWord]
  · obtain ⟨letter, hSuffix, hScale⟩ := TimeUnit.suffix_eq_singleton hMillis
    have hCore : p.core = Text.signed p.plus p.digits ++ [letter] := by
      rw [Spelling.core, hSuffix]
    have hLast : ∀ c ∈ (Text.signed p.plus p.digits).getLast?, c.isDigit = true := by
      intro c hc
      rw [Text.getLast?_signed _ p.digits_numeral] at hc
      exact p.digits_numeral.isDigit c (List.mem_of_getLast? hc)
    rw [parse_of_trim_letter (hTrim.trans hCore) hLast, parseSeconds, List.dropLast_concat, hNumber,
      ← hCore, Spelling.fault, Spelling.duration_of_ne hMillis]
    by_cases hWord : p.number < Text.wordLimit
    · simp only [Spelling.Fits, hWord, true_and, if_true, hScale]
    · simp only [Spelling.Fits, hWord, false_and, if_false]

theorem exists_spelling_of_parseSeconds {cs : List Char} {letter : Char} {d : Duration}
    (hLetter : (Text.trim cs).getLast? = some letter)
    (h : parseSeconds (Text.trim cs) letter = .ok d) : ∃ p : Spelling, p.text = cs ∧ p.Fits := by
  unfold parseSeconds at h
  split at h
  · cases h
  · rename_i n hNumber
    split at h
    · cases h
    · rename_i scale hScale
      split at h
      · rename_i hScaled
        obtain ⟨plus, digits, hSigned, hDigits, rfl, hWord⟩ :=
          Text.exists_signed_of_signedNumeral? hNumber
        obtain ⟨unit, hUnit, hSuffix, rfl⟩ := exists_unit_of_unitSeconds? hScale
        have hTrim : Text.trim cs = Text.signed plus digits ++ unit.suffix := by
          obtain ⟨front, hFront⟩ := List.getLast?_eq_some_iff.1 hLetter
          rw [← hSigned, hSuffix, hFront, List.dropLast_concat]
        obtain ⟨p, hText, hValue, hOwn⟩ := Spelling.exists_of_trim hDigits hTrim
        refine ⟨p, hText, ?_⟩
        rw [Spelling.Fits, hValue, hOwn]
        exact ⟨hWord, hScaled⟩
      · cases h

/-- What is read is spelled and fits. -/
theorem exists_spelling_of_parse {s : String} {d : Duration} (h : parse s = .ok d) :
    ∃ p : Spelling, p.text = s.toList ∧ p.Fits := by
  simp only [parse] at h
  split at h
  · cases h
  · rename_i letter hLetter
    split at h
    · rename_i front hMillis
      split at h
      · rename_i n hNumber
        obtain ⟨plus, digits, rfl, hDigits, rfl, hWord⟩ := Text.exists_signed_of_signedNumeral? hNumber
        have hTrim : Text.trim s.toList = Text.signed plus digits ++ TimeUnit.millisecond.suffix :=
          eq_append_of_beforeMillis? hMillis
        obtain ⟨p, hText, hValue, hUnit⟩ := Spelling.exists_of_trim hDigits hTrim
        refine ⟨p, hText, ?_⟩
        rw [Spelling.Fits, hValue, hUnit]
        exact ⟨hWord, by rwa [TimeUnit.scale, Nat.mul_one]⟩
      · cases h
    · exact exists_spelling_of_parseSeconds hLetter h

/-- The reader takes what is spelled and fits, at its exact length. -/
theorem parse_eq_ok_iff (s : String) (d : Duration) :
    parse s = .ok d ↔
      ∃ p : Spelling, p.text = s.toList ∧ p.Fits ∧ d.totalNanos = p.number * p.unit.nanos := by
  constructor
  · intro h
    obtain ⟨p, hText, hFits⟩ := exists_spelling_of_parse h
    rw [parse_of_spelling hText, if_pos hFits, Except.ok.injEq] at h
    exact ⟨p, hText, hFits, by rw [← h, Spelling.totalNanos_duration hFits]⟩
  · rintro ⟨p, hText, hFits, hLength⟩
    rw [← Spelling.totalNanos_duration hFits] at hLength
    rw [parse_of_spelling hText, if_pos hFits, eq_of_totalNanos_eq hLength]

theorem parse_eq_error_iff (s : String) :
    (∃ fault, parse s = .error fault) ↔ ¬ ∃ p : Spelling, p.text = s.toList ∧ p.Fits := by
  cases hParse : parse s with
  | ok d =>
    obtain ⟨p, hText, hFits, -⟩ := (parse_eq_ok_iff s d).1 hParse
    exact ⟨fun ⟨_, h⟩ => (nomatch h), fun h => absurd ⟨p, hText, hFits⟩ h⟩
  | error fault =>
    refine ⟨fun _ ⟨p, hText, hFits⟩ => ?_, fun _ => ⟨fault, rfl⟩⟩
    rw [parse_of_spelling hText, if_pos hFits] at hParse
    cases hParse

theorem ofText_eq_ok_iff (s : String) (d : Duration) : ofText s = .ok d ↔ parse s = .ok d := by
  rw [ofText]
  cases parse s <;> simp

theorem ofText_eq_error_iff (s : String) (fault : Fault) :
    ofText s = .error (.invalidConfig (.duration fault)) ↔ parse s = .error fault := by
  rw [ofText]
  cases parse s <;> simp

/-! ## Where a text is cut -/

/-- The position in bytes at which the last character of a text begins; where there is none, the end. -/
def unitOffset (text : String) : String.Pos.Raw :=
  ⟨text.utf8ByteSize - text.toList.getLast?.elim 0 Char.utf8Size⟩

/-- The bytes in front of the last character are those of all other characters. -/
theorem byteIdx_unitOffset (cs : List Char) :
    (unitOffset (String.ofList cs)).byteIdx = (String.ofList cs.dropLast).utf8ByteSize := by
  cases hLast : cs.getLast? with
  | none =>
    obtain rfl : cs = [] := List.getLast?_eq_none_iff.1 hLast
    rfl
  | some c =>
    obtain ⟨front, rfl⟩ := List.getLast?_eq_some_iff.1 hLast
    have hOne : (String.ofList [c]).utf8ByteSize = c.utf8Size := String.utf8ByteSize_singleton
    rw [unitOffset, String.toList_ofList, hLast, List.dropLast_concat, String.ofList_append,
      String.utf8ByteSize_append, hOne, Option.elim_some, Nat.add_sub_cancel]

/-- However many bytes the last character takes, no character is cut in two. -/
theorem isValid_unitOffset (cs : List Char) :
    (unitOffset (String.ofList cs)).IsValid (String.ofList cs) := by
  refine String.Pos.Raw.isValid_ofList.2 ⟨cs.length - 1, ?_⟩
  rw [byteIdx_unitOffset, List.dropLast_eq_take]

end Duration

/-- A text is accepted as a duration exactly if it is spelled as one: blanks, at most one plus sign, ASCII
digits, a unit right behind them, blanks, where the number is a word and so is the number of seconds in the
units above the millisecond.  The duration is then exactly that number of units long.  Every other text is
refused as a fault of the configuration.  The unit is told by cutting off the last character; that is done at
a position in bytes, and a character begins there whatever the text is. -/
theorem duration_text_accepted_iff (s : String) :
    (∀ d, Duration.ofText s = .ok d ↔
        ∃ p : Duration.Spelling, p.text = s.toList ∧ p.Fits ∧
          d.totalNanos = p.number * p.unit.nanos) ∧
      ((∃ fault, Duration.ofText s = .error (.invalidConfig (.duration fault))) ↔
        ¬ ∃ p : Duration.Spelling, p.text = s.toList ∧ p.Fits) ∧
      let cs := Text.trim s.toList
      (Duration.unitOffset (String.ofList cs)).IsValid (String.ofList cs) ∧
        (Duration.unitOffset (String.ofList cs)).byteIdx = (String.ofList cs.dropLast).utf8ByteSize := by
  refine ⟨fun d => ?_, ?_, Duration.isValid_unitOffset _, Duration.byteIdx_unitOffset _⟩
  · rw [Duration.ofText_eq_ok_iff, Duration.parse_eq_ok_iff]
  · simp only [Duration.ofText_eq_error_iff, Duration.parse_eq_error_iff]

/-- The largest number of seconds is read, with a plus sign, a needless zero and blanks. -/
example : Duration.ofText " +018446744073709551615s\n" = .ok ⟨18446744073709551615, 0, by decide⟩ := by
  cbv

example : Duration.ofText "5日" = .error (.invalidConfig (.duration (.unknownUnit '日'))) := by
  cbv

end ReplicaUpkeep

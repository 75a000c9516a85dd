import ReplicaUpkeep.Proofs.Duration.Grammar
import ReplicaUpkeep.Proofs.Json.Records
import ReplicaUpkeep.Proofs.Json.Values
import ReplicaUpkeep.Wire.Config

/-!
# Durations that are read back

The writer of durations chooses a unit, and the reader has to take what is written in it.  Here the
written text is a spelling like any other: a number and the coarsest unit in which the duration, to the
millisecond, is a whole number.  It is read back as that duration whenever it fits.

What does not fit is a duration of more milliseconds than a word holds that is no whole number of
seconds.  Such durations can be built, but none is ever read from a text, so whatever was read is read
back, and with it every configuration that was read.
-/

namespace ReplicaUpkeep

namespace Duration

/-- The duration without what is finer than a millisecond. -/
def truncated (d : Duration) : Duration where
  seconds := d.seconds
  nanos := d.nanos / 1000000 * 1000000
  nanos_lt := by
    have hNanos := d.nanos_lt
    omega

/-- A number of units is exactly a duration, and no coarser unit would do.  No time at all is named in
seconds. -/
structure IsNamedBy (d : Duration) (n : Nat) (unit : TimeUnit) : Prop where
  exact : d.totalNanos = n * unit.nanos
  coarsest : d.totalNanos ≠ 0 →
    ∀ other : TimeUnit, other.nanos ∣ d.totalNanos → other.nanos ≤ unit.nanos
  zero : d.totalNanos = 0 → n = 0 ∧ unit = .second

theorem totalNanos_truncated (d : Duration) : d.truncated.totalNanos = d.millis * 1000000 := by
  simp only [totalNanos, truncated, millis]
  omega

/-- The coarsest unit of which a number of seconds is a multiple, seconds themselves for none. -/
def wholeUnit (seconds : Nat) : TimeUnit :=
  if seconds = 0 then .second
  else if seconds % 86400 = 0 then .day
  else if seconds % 3600 = 0 then .hour
  else if seconds % 60 = 0 then .minute
  else .second

theorem wholeUnit_zero : wholeUnit 0 = .second :=
  rfl

theorem wholeUnit_ne_millisecond (seconds : Nat) : wholeUnit seconds ≠ .millisecond := by
  fun_cases wholeUnit <;> decide

theorem mod_scale_wholeUnit (seconds : Nat) : seconds % (wholeUnit seconds).scale = 0 := by
  fun_cases wholeUnit with
  | case1 | case5 => exact Nat.mod_one _
  | case2 | case3 | case4 => assumption

theorem mod_scale_ne_zero {seconds : Nat} (hSome : seconds ≠ 0) (other : TimeUnit) :
    (wholeUnit seconds).scale < other.scale → seconds % other.scale ≠ 0 := by
  fun_cases wholeUnit seconds with
  | case1 hNone => exact absurd hNone hSome
  | case2 | case3 | case4 | case5 => cases other <;> simp [TimeUnit.scale, *]

theorem render_of_whole {d : Duration} (h : d.millis % 1000 = 0) :
    d.render =
      withUnit (d.seconds.toNat / (wholeUnit d.seconds.toNat).scale)
        (String.ofList (wholeUnit d.seconds.toNat).suffix) := by
  have hOne : ∀ seconds : Nat, withUnit seconds "s" =
      withUnit (seconds / TimeUnit.second.scale) (String.ofList TimeUnit.second.suffix) := by
    intro seconds
    rw [TimeUnit.scale, Nat.div_one]
    rfl
  rw [render, if_neg (not_not.2 h)]
  fun_cases wholeUnit d.seconds.toNat with
  | case1 hNone =>
    rw [if_neg fun h => h.1 hNone, if_neg fun h => h.1 hNone, if_neg fun h => h.1 hNone, hOne]
  | case2 hSome hDays => exact if_pos ⟨hSome, hDays⟩
  | case3 hSome hDays hHours =>
    rw [if_neg fun h => hDays h.2]
    exact if_pos ⟨hSome, hHours⟩
  | case4 hSome hDays hHours hMinutes =>
    rw [if_neg fun h => hDays h.2, if_neg fun h => hHours h.2]
    exact if_pos ⟨hSome, hMinutes⟩
  | case5 hSome hDays hHours hMinutes =>
    rw [if_neg fun h => hDays h.2, if_neg fun h => hHours h.2, if_neg fun h => hMinutes h.2, hOne]

/-- Whole seconds are named by the coarsest unit of which they are a multiple. -/
theorem isNamedBy_wholeUnit {d : Duration} {seconds : Nat}
    (hWhole : d.totalNanos = seconds * 1000000000) :
    d.IsNamedBy (seconds / (wholeUnit seconds).scale) (wholeUnit seconds) where
  exact := by
    rw [hWhole, TimeUnit.nanos_eq_scale_mul (wholeUnit_ne_millisecond seconds), ← Nat.mul_assoc,
      Nat.div_mul_cancel (Nat.dvd_of_mod_eq_zero (mod_scale_wholeUnit seconds))]
  coarsest := by
    intro hSome other hOther
    by_cases hFinest : other = .millisecond
    · rw [hFinest]
      cases wholeUnit seconds <;> decide
    · rw [TimeUnit.nanos_eq_scale_mul hFinest, hWhole] at hOther
      rw [TimeUnit.nanos_eq_scale_mul hFinest,
        TimeUnit.nanos_eq_scale_mul (wholeUnit_ne_millisecond seconds)]
      have hMultiple : seconds % other.scale = 0 :=
        Nat.mod_eq_zero_of_dvd (Nat.dvd_of_mul_dvd_mul_right (by decide) hOther)
      have hSeconds : seconds ≠ 0 := by omega
      have hNoCoarser := mt (mod_scale_ne_zero hSeconds other) (not_not.2 hMultiple)
      omega
  zero := by
    intro hNone
    obtain rfl : seconds = 0 := by omega
    exact ⟨rfl, wholeUnit_zero⟩

/-- Every duration is written in the coarsest unit that is exact to the millisecond. -/
theorem exists_render_eq (d : Duration) :
    ∃ n unit, d.render = withUnit n (String.ofList unit.suffix) ∧ d.truncated.IsNamedBy n unit := by
  have hNanos := d.nanos_lt
  have hTotal := d.totalNanos_truncated
  have hMillis : d.millis = d.seconds.toNat * 1000 + d.nanos / 1000000 := rfl
  by_cases hFine : d.millis % 1000 = 0
  · have hWhole : d.truncated.totalNanos = d.seconds.toNat * 1000000000 := by
      rw [hTotal]
      omega
    exact ⟨_, _, render_of_whole hFine, isNamedBy_wholeUnit hWhole⟩
  · refine ⟨d.millis, .millisecond, if_pos hFine, hTotal, fun _ other hOther => ?_,
      fun hNone => absurd (show d.millis % 1000 = 0 by omega) hFine⟩
    by_cases hFinest : other = .millisecond
    · exact Nat.le_of_eq (congrArg TimeUnit.nanos hFinest)
    · -- A whole number of any coarser unit is one of seconds.
      rw [TimeUnit.nanos_eq_scale_mul hFinest, hTotal] at hOther
      have hSeconds : 1000000000 ∣ d.millis * 1000000 := Nat.dvd_trans (Nat.dvd_mul_left _ _) hOther
      omega

/-! ## Reading what was written -/

/-- A written number with its unit, as a spelling. -/
def written (n : Nat) (unit : TimeUnit) : Spelling where
  before := []
  plus := false
  digits := Text.decimal n
  unit := unit
  after := []
  before_blank := nofun
  digits_numeral := Text.isNumeral_decimal n
  after_blank := nofun

theorem text_written (n : Nat) (unit : TimeUnit) :
    (written n unit).text = (withUnit n (String.ofList unit.suffix)).toList := by
  simp [Spelling.text, Spelling.core, written, Text.signed, withUnit]

theorem number_written (n : Nat) (unit : TimeUnit) : (written n unit).number = n :=
  Text.digitsValue_decimal n

/-- The written text fits if the milliseconds are a word, and if there are whole seconds only. -/
theorem fits_written_iff {d : Duration} {n : Nat} {unit : TimeUnit}
    (h : d.truncated.IsNamedBy n unit) :
    (written n unit).Fits ↔ d.millis < Text.wordLimit ∨ d.nanos < 1000000 := by
  have hNanos := d.nanos_lt
  have hSeconds : d.seconds.toNat < Text.wordLimit := d.seconds.toNat_lt
  have hMillis : d.millis = d.seconds.toNat * 1000 + d.nanos / 1000000 := rfl
  have hExact := h.exact
  rw [totalNanos_truncated] at hExact
  rw [Spelling.Fits, number_written]
  change n < _ ∧ n * unit.scale < _ ↔ _
  by_cases hFinest : unit = .millisecond
  · have hNumber : n = d.millis := by
      rw [hFinest, TimeUnit.nanos] at hExact
      omega
    have hPart : ¬ d.nanos < 1000000 := by
      intro hWhole
      -- Whole seconds would have been named in seconds, or in something coarser.
      have hSome : d.truncated.totalNanos ≠ 0 := fun hNone => by
        rw [(h.zero hNone).2] at hFinest
        cases hFinest
      have hCoarser := h.coarsest hSome .second (by
        rw [totalNanos_truncated, TimeUnit.nanos]
        omega)
      rw [hFinest] at hCoarser
      exact absurd hCoarser (by decide)
    rw [hFinest, TimeUnit.scale, Nat.mul_one, and_self, hNumber]
    exact (or_iff_left hPart).symm
  · rw [TimeUnit.nanos_eq_scale_mul hFinest, ← Nat.mul_assoc] at hExact
    have hScaled : n * unit.scale = d.seconds.toNat := by omega
    have hNumber : n ≤ n * unit.scale := Nat.le_mul_of_pos_right n unit.scale_pos
    exact ⟨fun _ => Or.inr (by omega), fun _ => ⟨by omega, by omega⟩⟩

/-- What is written is read back to the millisecond, if it fits. -/
theorem parse_render_eq_ok_iff (d : Duration) :
    parse d.render = .ok d.truncated ↔ d.millis < Text.wordLimit ∨ d.nanos < 1000000 := by
  obtain ⟨n, unit, hText, hNamed⟩ := d.exists_render_eq
  have hSpelled : (written n unit).text = d.render.toList := by rw [text_written, hText]
  rw [← fits_written_iff hNamed, parse_of_spelling hSpelled]
  constructor
  · intro h
    by_contra hTooLarge
    rw [if_neg hTooLarge] at h
    cases h
  · intro hFits
    have hLength : (written n unit).duration.totalNanos = d.truncated.totalNanos := by
      rw [Spelling.totalNanos_duration hFits, number_written, hNamed.exact]
      rfl
    rw [if_pos hFits, eq_of_totalNanos_eq hLength]

theorem truncated_eq_self {d : Duration} (h : d.nanos % 1000000 = 0) : d.truncated = d := by
  obtain ⟨seconds, nanos, hNanos⟩ := d
  simp only [truncated, Nat.div_mul_cancel (Nat.dvd_of_mod_eq_zero h)]

theorem millis_ofMillis (n : UInt64) : (ofMillis n).millis = n.toNat := by
  have hSeconds : (n / 1000).toNat = n.toNat / 1000 := UInt64.toNat_div _ _
  rw [millis, ofMillis, hSeconds, Nat.mul_div_cancel _ (by decide), Nat.div_add_mod']

/-- What is spelled has no part finer than a millisecond, and is a word of milliseconds or whole
seconds. -/
theorem Spelling.duration_fits (p : Spelling) :
    p.duration.nanos % 1000000 = 0 ∧
      (p.duration.millis < Text.wordLimit ∨ p.duration.nanos < 1000000) := by
  by_cases hFinest : p.unit = .millisecond
  · rw [duration, hFinest]
    refine ⟨Nat.mul_mod_left _ _, Or.inl ?_⟩
    rw [millis_ofMillis]
    exact UInt64.toNat_lt _
  · rw [duration_of_ne hFinest]
    exact ⟨rfl, Or.inr (show 0 < 1000000 by decide)⟩

/-- The duration is read back from its text. -/
def IsReadable (d : Duration) : Prop :=
  parse d.render = .ok d

/-- Whole milliseconds that fit are read back. -/
theorem isReadable_of_fits {d : Duration} (hWhole : d.nanos % 1000000 = 0)
    (hFits : d.millis < Text.wordLimit ∨ d.nanos < 1000000) : d.IsReadable := by
  have hRead := (parse_render_eq_ok_iff d).2 hFits
  rwa [truncated_eq_self hWhole] at hRead

/-- Whatever was read is read back. -/
theorem isReadable_of_parse {s : String} {d : Duration} (h : parse s = .ok d) : d.IsReadable := by
  obtain ⟨p, hText, hFits⟩ := exists_spelling_of_parse h
  rw [parse_of_spelling hText, if_pos hFits] at h
  obtain rfl : p.duration = d := Except.ok.inj h
  exact isReadable_of_fits p.duration_fits.1 p.duration_fits.2

theorem isReadable_of_ofJson? {v : Json} {d : Duration} (h : ofJson? v = some d) : d.IsReadable := by
  obtain ⟨s, -, hParse⟩ := Option.bind_eq_some_iff.1 h
  cases hRead : parse s with
  | error fault =>
    rw [hRead] at hParse
    cases hParse
  | ok e =>
    rw [hRead] at hParse
    obtain rfl : e = d := Option.some.inj hParse
    exact isReadable_of_parse hRead

theorem IsReadable.ofJson?_render {d : Duration} (h : d.IsReadable) :
    ofJson? (.str d.render) = some d := by
  rw [ofJson?, Json.toText?_str, Option.bind_some, h]
  rfl

/-- A setting that may be missing is readable if its default is. -/
theorem isReadable_of_withDefault {default d : Duration} {field : Option Json}
    (hDefault : default.IsReadable) (h : Json.withDefault default ofJson? field = some d) :
    d.IsReadable := by
  cases field with
  | none =>
    obtain rfl : default = d := Option.some.inj h
    exact hDefault
  | some v => exact isReadable_of_ofJson? h

end Duration

namespace Config

/-- Both durations of the configuration are read back from their texts. -/
structure IsReadable (c : Config) : Prop where
  interval : c.interval.IsReadable
  inflightTimeout : c.inflightTimeout.IsReadable

theorem isReadable_default : default.IsReadable where
  interval := Duration.isReadable_of_fits rfl (Or.inr (by decide))
  inflightTimeout := Duration.isReadable_of_fits rfl (Or.inr (by decide))

theorem isReadable_of_ofJson? {v : Json} {c : Config} (h : ofJson? v = some c) : c.IsReadable := by
  rw [ofJson?] at h
  split at h
  · simp only [Option.bind_eq_bind, Option.bind_eq_some_iff, Option.some.injEq] at h
    obtain ⟨interval, hInterval, -, -, timeout, hTimeout, -, -, -, -, rfl⟩ := h
    exact ⟨Duration.isReadable_of_withDefault isReadable_default.interval hInterval,
      Duration.isReadable_of_withDefault isReadable_default.inflightTimeout hTimeout⟩
  · cases h

theorem IsReadable.ofJson?_toJson {c : Config} (h : c.IsReadable) : ofJson? c.toJson = some c := by
  rw [toJson, ofJson?, Json.fields?_record _ (by simp)]
  simp [List.lookup_cons, Json.withDefault, h.interval.ofJson?_render,
    h.inflightTimeout.ofJson?_render]

/-- The configuration of a text, whether or not a manager can run with it. -/
def read? (s : String) : Option Config :=
  (Json.parse? s).bind ofJson?

theorem isReadable_of_read? {s : String} {c : Config} (h : read? s = some c) : c.IsReadable := by
  obtain ⟨v, -, hRead⟩ := Option.bind_eq_some_iff.1 h
  exact isReadable_of_ofJson? hRead

/-- A readable configuration is read back from either layout. -/
theorem IsReadable.read?_written {c : Config} (h : c.IsReadable) :
    read? c.toJson.render = some c ∧ read? c.toJson.renderIndented = some c := by
  rw [read?, read?, Json.parse?_render, Json.parse?_renderIndented, Option.bind_some]
  exact ⟨h.ofJson?_toJson, h.ofJson?_toJson⟩

theorem validate_eq_ok_iff (c e : Config) : e.validate = .ok c ↔ e = c ∧ c.fault? = none := by
  rw [validate]
  cases hFault : e.fault? with
  | none => exact ⟨fun h => by cases h; exact ⟨rfl, hFault⟩, fun h => congrArg _ h.1⟩
  | some fault => exact ⟨nofun, fun h => by rw [h.1, h.2] at hFault; cases hFault⟩

theorem ofText_eq_ok_iff (s : String) (c : Config) :
    ofText s = .ok c ↔ read? s = some c ∧ c.fault? = none := by
  rw [ofText, ← read?]
  cases hRead : read? s with
  | none => exact ⟨nofun, fun h => nomatch h.1⟩
  | some e =>
    rw [Option.some.injEq]
    exact validate_eq_ok_iff c e

end Config

/-- Durations and configurations that were read from texts are read back from what is written.  A duration
is written in the coarsest unit that is exact to the millisecond, no time at all in seconds.  It is read
back to the millisecond exactly if its milliseconds fit in a word or less than a millisecond of it goes
beyond whole seconds. -/
theorem durations_read_back :
    (∀ d : Duration, Duration.ofText d.render = .ok d.truncated ↔
        d.millis < Text.wordLimit ∨ d.nanos < 1000000) ∧
      (∀ d : Duration, ∃ n unit,
        d.render = Duration.withUnit n (String.ofList unit.suffix) ∧ d.truncated.IsNamedBy n unit) ∧
      (∀ s d, Duration.ofText s = .ok d → Duration.ofText d.render = .ok d) ∧
      (∀ s c, Config.read? s = some c →
        Config.read? c.toJson.render = some c ∧ Config.read? c.toJson.renderIndented = some c) ∧
      ∀ s c, Config.ofText s = .ok c →
        Config.ofText c.toJson.render = .ok c ∧ Config.ofText c.toJson.renderIndented = .ok c := by
  refine ⟨fun d => ?_, Duration.exists_render_eq, fun s d h => ?_, fun s c h => ?_, fun s c h => ?_⟩
  · rw [Duration.ofText_eq_ok_iff, Duration.parse_render_eq_ok_iff]
  · rw [Duration.ofText_eq_ok_iff] at h ⊢
    exact Duration.isReadable_of_parse h
  · exact (Config.isReadable_of_read? h).read?_written
  · obtain ⟨hRead, hUsable⟩ := (Config.ofText_eq_ok_iff s c).1 h
    obtain ⟨hCompact, hIndented⟩ := (Config.isReadable_of_read? hRead).read?_written
    exact ⟨(Config.ofText_eq_ok_iff _ c).2 ⟨hCompact, hUsable⟩,
      (Config.ofText_eq_ok_iff _ c).2 ⟨hIndented, hUsable⟩⟩

/-- The largest number of milliseconds, and a configuration that spells its interval in another way than it
is written. -/
theorem durations_read_back_of_largest :
    let d := Duration.ofMillis 18446744073709551615
    let s := (Json.record [("interval", .str " +0120m "), ("log_level", .str "debug")]).render
    let c : Config := { Config.default with interval := .ofSeconds 7200, logLevel := "debug" }
    Duration.ofText "018446744073709551615ms" = .ok d ∧ Duration.ofText d.render = .ok d ∧
      Config.ofText s = .ok c ∧ c.interval.render = "2h" ∧
      Config.read? c.toJson.render = some c ∧ Config.ofText c.toJson.renderIndented = .ok c := by
  intro d s c
  have hLargest : Duration.ofText "018446744073709551615ms" = .ok d := rfl
  have hInterval : Duration.ofJson? (.str " +0120m ") = some (.ofSeconds 7200) := by
    decide +kernel
  have hRead : Config.read? s = some c := by
    rw [Config.read?, Json.parse?_render, Option.bind_some, Config.ofJson?,
      Json.fields?_record _ (by simp)]
    simp [List.lookup_cons, Json.withDefault, hInterval, c]
  have hUsable : Config.ofText s = .ok c := (Config.ofText_eq_ok_iff s c).2 ⟨hRead, rfl⟩
  have hWritten : c.interval.render = "2h" := by decide +kernel
  obtain ⟨-, -, hDurations, hConfigs, hUsed⟩ := durations_read_back
  exact ⟨hLargest, hDurations _ d hLargest, hUsable, hWritten, (hConfigs s c hRead).1,
    (hUsed s c hUsable).2⟩

end ReplicaUpkeep

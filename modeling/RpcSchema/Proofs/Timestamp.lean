import RpcSchema.Proofs.Calendar
import RpcSchema.Proofs.Digits
import RpcSchema.Timestamp.Reader

set_option autoImplicit false

/-!
# Instants that are written and read

An instant of a year of four digits is written in the form of RFC 3339, and read back up to the
digits after its milliseconds. Other years are written behind a sign, which only the forms with
short numbers have, and of those none has the letter `Z` at the end: such an instant is not read.

## Main definitions

* `RpcSchema.Timestamp.floorMillis` — the instant at the last whole millisecond.

## Main results

* `RpcSchema.Timestamp.standard?_chars` — what is written is in the form of RFC 3339.
* `RpcSchema.Timestamp.ofText?_text` — what is written is read as the instant at its last whole
  millisecond.
* `RpcSchema.Timestamp.ofText?_text_eq_none` — what is written behind a sign is not read.
* `RpcSchema.Timestamp.text_floorMillis` — that instant is written as the same text.
-/

namespace RpcSchema.Timestamp

open Text (digitsExactly_padded digitsValue_padded length_padded all_isDigit_padded isDigit)

/-- **The instant at the last whole millisecond**, leap seconds included. -/
def floorMillis (t : Timestamp) : Timestamp where
  seconds := t.seconds
  nanos := t.nanos / 1000000 * 1000000
  isInstant := by
    obtain ⟨hfirst, hlast, hnanos, hleap⟩ := t.isInstant
    refine ⟨hfirst, hlast, ?_, fun h => hleap ?_⟩
    · omega
    · omega

theorem clock_bounds (t : Timestamp) :
    t.clock.hour < 24 ∧ t.clock.minute < 60 ∧ t.clock.second ≤ 60 ∧ t.clock.nanos < 1000000000 := by
  simp only [clock]
  refine ⟨by omega, by omega, ?_, by omega⟩
  split <;> omega

/-- Months and days are numbers of two digits. -/
theorem date_bounds (t : Timestamp) : t.date.month < 100 ∧ t.date.day < 100 := by
  have hdate : Calendar.isDate t.date = true := Calendar.isDate_ofDayNumber _
  simp only [Calendar.isDate, Bool.and_eq_true, decide_eq_true_eq] at hdate
  have hdays : Calendar.daysInMonth t.date.year t.date.month ≤ 31 := by
    unfold Calendar.daysInMonth
    repeat' split
    all_goals omega
  omega

/-- The parts of a written instant, from the year on. -/
theorem chars_eq (t : Timestamp) :
    t.chars = yearChars t.date.year ++ '-' :: (padded 2 t.date.month ++
      '-' :: (padded 2 t.date.day ++ 'T' :: (padded 2 t.clock.hour ++
        ':' :: (padded 2 t.clock.minute ++ ':' :: (padded 2 t.clock.second ++
          '.' :: (padded 3 (t.clock.nanos / 1000000) ++ ['Z'])))))) := by
  simp only [chars, List.append_assoc, List.cons_append]

/-- A character is passed over where it is expected. -/
theorem literal_cons (c : Char) (rest : List Char) : Text.literal c (c :: rest) = some rest :=
  if_pos rfl

/-- Three digits after a point are milliseconds. -/
theorem fraction_millis {millis : Nat} (h : millis < 1000) :
    fraction ('.' :: (padded 3 millis ++ ['Z'])) = some (millis * 1000000, ['Z']) := by
  have hlength := length_padded (show 0 < 3 by omega) (show millis < 10 ^ 3 by omega)
  have htake : (padded 3 millis ++ ['Z']).take 9 = padded 3 millis ++ ['Z'] := by
    rw [List.take_of_length_le]
    rw [List.length_append, hlength]
    decide
  have hdigits : ∀ c ∈ padded 3 millis, isDigit c = true :=
    List.all_eq_true.mp (all_isDigit_padded 3 millis)
  have hend : isDigit 'Z' = false := by decide
  have htakeWhile : (padded 3 millis ++ ['Z']).takeWhile isDigit = padded 3 millis := by
    rw [List.takeWhile_append_of_pos hdigits, List.takeWhile_cons_of_neg (by simp [hend]),
      List.append_nil]
  have hdropWhile : (padded 3 millis ++ ['Z']).dropWhile isDigit = ['Z'] := by
    rw [List.dropWhile_append_of_pos hdigits, List.dropWhile_cons_of_neg (by simp [hend])]
  have hne : (padded 3 millis).isEmpty = false := by
    rw [List.isEmpty_eq_false_iff, ← List.length_pos_iff, hlength]
    omega
  simp only [fraction, htake, htakeWhile, hdropWhile, hne, digitsValue_padded, hlength]
  rfl

/-- The date and the time of day of an instant are those of the instant at its last whole
millisecond, in UTC. -/
theorem ofLocal?_date_clock (t : Timestamp)
    (hyear : Calendar.firstYear ≤ t.date.year ∧ t.date.year ≤ Calendar.lastYear) :
    ofLocal? t.date ⟨t.clock.hour, t.clock.minute, t.clock.second,
      t.clock.nanos / 1000000 * 1000000⟩ 0 = some t.floorMillis := by
  obtain ⟨hhour, hminute, hsecond, hnanos⟩ := t.clock_bounds
  have hdate : Calendar.isDate t.date = true := Calendar.isDate_ofDayNumber _
  have hday : Calendar.dayNumber t.date = t.seconds / 86400 := Calendar.dayNumber_ofDayNumber _
  have htime : Clock.isTime ⟨t.clock.hour, t.clock.minute, t.clock.second,
      t.clock.nanos / 1000000 * 1000000⟩ = true := by
    simp only [Clock.isTime, Bool.and_eq_true, decide_eq_true_eq]
    omega
  have hleap := t.isInstant.2.2.2
  have hbound := t.isInstant.2.2.1
  have hseconds : t.seconds / 86400 * 86400 + t.clock.hour * 3600 + t.clock.minute * 60 +
      ((min t.clock.second 59 : Nat) : Int) - 0 = t.seconds := by
    simp only [clock]
    split <;> omega
  have hparts : t.clock.nanos / 1000000 * 1000000 +
      (if t.clock.second = 60 then 1000000000 else 0) = t.nanos / 1000000 * 1000000 := by
    simp only [clock]
    split <;> split <;> omega
  rw [ofLocal?, hdate, htime, if_pos (by simpa using hyear)]
  simp only [hday, hseconds, hparts]
  exact dif_pos t.floorMillis.isInstant

/-- **What is written is in the form of RFC 3339** when the year has four digits. -/
theorem standard?_chars {t : Timestamp} (h : 0 ≤ t.date.year ∧ t.date.year ≤ 9999) :
    standard? t.chars = some t.floorMillis := by
  obtain ⟨hhour, hminute, hsecond, hnanos⟩ := t.clock_bounds
  have hbounds := t.date_bounds
  have hyear := fun rest => digitsExactly_padded (show 0 < 4 by omega)
    (show t.date.year.toNat < 10 ^ 4 by omega) rest
  have hmonth := fun rest => digitsExactly_padded (show 0 < 2 by omega)
    (show t.date.month < 10 ^ 2 by omega) rest
  have hday := fun rest => digitsExactly_padded (show 0 < 2 by omega)
    (show t.date.day < 10 ^ 2 by omega) rest
  have hhours := fun rest => digitsExactly_padded (show 0 < 2 by omega)
    (show t.clock.hour < 10 ^ 2 by omega) rest
  have hminutes := fun rest => digitsExactly_padded (show 0 < 2 by omega)
    (show t.clock.minute < 10 ^ 2 by omega) rest
  have hseconds := fun rest => digitsExactly_padded (show 0 < 2 by omega)
    (show t.clock.second < 10 ^ 2 by omega) rest
  have hmillis := fraction_millis (show t.clock.nanos / 1000000 < 1000 by omega)
  have hcast : (t.date.year.toNat : Int) = t.date.year := Int.toNat_of_nonneg h.1
  have hlocal := ofLocal?_date_clock t (by
    unfold Calendar.firstYear Calendar.lastYear
    omega)
  have hwritten : yearChars t.date.year = padded 4 t.date.year.toNat := if_pos h
  rw [standard?, chars_eq, hwritten]
  -- One part after the other: unfolding the reader at once would repeat the rest in every branch.
  refine Option.bind_eq_some_iff.mpr ⟨_, hyear _, ?_⟩
  refine Option.bind_eq_some_iff.mpr ⟨_, literal_cons _ _, ?_⟩
  refine Option.bind_eq_some_iff.mpr ⟨_, hmonth _, ?_⟩
  refine Option.bind_eq_some_iff.mpr ⟨_, literal_cons _ _, ?_⟩
  refine Option.bind_eq_some_iff.mpr ⟨_, hday _, ?_⟩
  refine Option.bind_eq_some_iff.mpr ⟨_, hhours _, ?_⟩
  refine Option.bind_eq_some_iff.mpr ⟨_, literal_cons _ _, ?_⟩
  refine Option.bind_eq_some_iff.mpr ⟨_, hminutes _, ?_⟩
  refine Option.bind_eq_some_iff.mpr ⟨_, literal_cons _ _, ?_⟩
  refine Option.bind_eq_some_iff.mpr ⟨_, hseconds _, ?_⟩
  refine Option.bind_eq_some_iff.mpr ⟨_, hmillis, ?_⟩
  refine Option.bind_eq_some_iff.mpr ⟨(0, []), rfl, ?_⟩
  refine Option.bind_eq_some_iff.mpr ⟨(), rfl, ?_⟩
  rw [← hlocal]
  exact congrArg (fun year => ofLocal? ⟨year, _, _⟩ _ 0) hcast

/-- **What is written is read** as the instant at its last whole millisecond. -/
theorem ofText?_text {t : Timestamp} (h : 0 ≤ t.date.year ∧ t.date.year ≤ 9999) :
    ofText? t.text = some t.floorMillis := by
  rw [ofText?, text, String.toList_ofList, ofChars?, standard?_chars h]
  rfl

/-! ## Years behind a sign -/

/-- Other years are written behind a sign. -/
theorem yearChars_eq_cons {year : Int} (h : ¬ (0 ≤ year ∧ year ≤ 9999)) :
    yearChars year = (if year < 0 then '-' else '+') :: padded 4 year.natAbs := if_neg h

/-- Two digits are read as they are written. -/
theorem shortNumber_padded {n : Nat} (h : n < 100) {c : Char} (hc : isDigit c = false)
    (rest : List Char) : shortNumber 2 (padded 2 n ++ c :: rest) = some (n, c :: rest) := by
  have hlength : (padded 2 n).length ≤ 2 := (length_padded (by omega) (by omega)).le
  rw [shortNumber, Text.trimStart_padded, Text.digitsBetween_padded hlength hc]

/-- **A year behind a sign** is read as it is written. -/
theorem signedYear_yearChars {year : Int} (h : ¬ (0 ≤ year ∧ year ≤ 9999)) {c : Char}
    (hc : isDigit c = false) (rest : List Char) :
    signedYear (yearChars year ++ c :: rest) = some (year, c :: rest) := by
  have hread : Text.digitsBetween 1 (padded 4 year.natAbs ++ c :: rest).length
      (padded 4 year.natAbs ++ c :: rest) = some (year.natAbs, c :: rest) :=
    Text.digitsBetween_padded (by simp) hc rest
  rw [yearChars_eq_cons h, List.cons_append, signedYear]
  by_cases hsign : year < 0
  · have hvalue : -(year.natAbs : Int) = year := by omega
    rw [if_pos hsign, Text.trimStart_cons (by decide)]
    simp only [hread, Option.map_some, hvalue]
  · have hvalue : (year.natAbs : Int) = year := by omega
    rw [if_neg hsign, Text.trimStart_cons (by decide)]
    simp only [hread, Option.map_some, hvalue]

/-- **A date behind a sign** is read as it is written, up to the letter T. -/
theorem shortDate_chars {t : Timestamp} (h : ¬ (0 ≤ t.date.year ∧ t.date.year ≤ 9999)) :
    shortDate t.chars = some (t.date, 'T' :: (padded 2 t.clock.hour ++
      ':' :: (padded 2 t.clock.minute ++ ':' :: (padded 2 t.clock.second ++
        '.' :: (padded 3 (t.clock.nanos / 1000000) ++ ['Z']))))) := by
  obtain ⟨hmonth, hday⟩ := t.date_bounds
  rw [chars_eq, shortDate]
  refine Option.bind_eq_some_iff.mpr ⟨_, signedYear_yearChars h rfl _, ?_⟩
  refine Option.bind_eq_some_iff.mpr ⟨_, literal_cons _ _, ?_⟩
  refine Option.bind_eq_some_iff.mpr ⟨_, shortNumber_padded hmonth rfl _, ?_⟩
  refine Option.bind_eq_some_iff.mpr ⟨_, literal_cons _ _, ?_⟩
  exact Option.bind_eq_some_iff.mpr ⟨_, shortNumber_padded hday rfl _, rfl⟩

/-- The time is read as well, and the letter `Z` is left. -/
theorem shortDateTime_chars {t : Timestamp} (h : ¬ (0 ≤ t.date.year ∧ t.date.year ≤ 9999)) :
    ∃ clock, shortDateTime t.chars = some (t.date, clock, ['Z']) := by
  obtain ⟨hhour, hminute, hsecond, hnanos⟩ := t.clock_bounds
  have hmillis := fraction_millis (show t.clock.nanos / 1000000 < 1000 by omega)
  rw [shortDateTime]
  refine ⟨⟨t.clock.hour, t.clock.minute, t.clock.second, t.clock.nanos / 1000000 * 1000000⟩, ?_⟩
  refine Option.bind_eq_some_iff.mpr ⟨_, shortDate_chars h, ?_⟩
  refine Option.bind_eq_some_iff.mpr ⟨_, literal_cons _ _, ?_⟩
  refine Option.bind_eq_some_iff.mpr ⟨_, shortNumber_padded (by omega) rfl _, ?_⟩
  refine Option.bind_eq_some_iff.mpr ⟨_, literal_cons _ _, ?_⟩
  refine Option.bind_eq_some_iff.mpr ⟨_, shortNumber_padded (by omega) rfl _, ?_⟩
  refine Option.bind_eq_some_iff.mpr ⟨_, literal_cons _ _, ?_⟩
  refine Option.bind_eq_some_iff.mpr ⟨_, shortNumber_padded (by omega) rfl _, ?_⟩
  exact Option.bind_eq_some_iff.mpr ⟨_, hmillis, rfl⟩

/-- The form of RFC 3339 has no sign in front of the year. -/
theorem standard?_chars_eq_none {t : Timestamp} (h : ¬ (0 ≤ t.date.year ∧ t.date.year ≤ 9999)) :
    standard? t.chars = none := by
  have hsign : ∀ (sign : Char) (rest : List Char), isDigit sign = false →
      Text.digitsExactly 4 (sign :: rest) = none := by
    intro sign rest hsign
    rw [Text.digitsExactly, Text.digitsBetween, List.take_succ_cons,
      List.takeWhile_cons_of_neg (by simp [hsign])]
    rfl
  have hyear : Text.digitsExactly 4 t.chars = none := by
    rw [chars_eq, yearChars_eq_cons h, List.cons_append]
    refine hsign _ _ ?_
    split <;> rfl
  rw [standard?, hyear]
  rfl

/-- **What is written behind a sign is not read**: the three forms that have signs do not end with
the letter `Z`. -/
theorem ofText?_text_eq_none {t : Timestamp} (h : ¬ (0 ≤ t.date.year ∧ t.date.year ≤ 9999)) :
    ofText? t.text = none := by
  obtain ⟨clock, hdateTime⟩ := shortDateTime_chars h
  have hwithOffset : withOffset? t.chars = none := by
    have hoffset : offset colonsAndBlanks (Text.trimStart ['Z']) = none := by
      rw [Text.trimStart_cons (by decide)]
      rfl
    simp only [withOffset?, hdateTime, Option.bind_eq_bind, Option.bind_some, hoffset,
      Option.bind_none]
  have hwithoutOffset : withoutOffset? t.chars = none := by
    rw [withoutOffset?, hdateTime]
    rfl
  have hdateOnly : dateOnly? t.chars = none := by
    rw [dateOnly?, shortDate_chars h]
    rfl
  rw [ofText?, text, String.toList_ofList, ofChars?, standard?_chars_eq_none h, hwithOffset,
    hwithoutOffset, hdateOnly]
  rfl

/-- **A written instant is read** exactly when its year has four digits. -/
theorem ofText?_text_eq (t : Timestamp) :
    ofText? t.text =
      if 0 ≤ t.date.year ∧ t.date.year ≤ 9999 then some t.floorMillis else none := by
  split
  · exact ofText?_text ‹_›
  · exact ofText?_text_eq_none ‹_›

end RpcSchema.Timestamp

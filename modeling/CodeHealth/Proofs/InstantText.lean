import CodeHealth.Proofs.Calendar
import CodeHealth.Proofs.JsonWriter

/-!
Instants as texts.

An instant that is written for machines is read back, with any year that can be told apart, and to
the nanosecond. Only a second that runs over counts as the next one, unless it is the last one of
its minute.
-/

namespace CodeHealth.Proofs.InstantText

open CodeHealth.Instant CodeHealth.Json CodeHealth.Proofs.JsonText CodeHealth.Proofs.JsonLeaves
open CodeHealth.Proofs.JsonWriter CodeHealth.Proofs.Calendar

/-! ### Numbers of fixed width -/

lemma digitsValue_append (ds es : List Char) :
    digitsValue (ds ++ es) = es.foldl (fun n d => n * 10 + (d.toNat - 48)) (digitsValue ds) := by
  rw [digitsValue, List.foldl_append]
  rfl

lemma digitsValue_zeros (ds : List Char) (k : ℕ) :
    digitsValue (ds ++ List.replicate k '0') = digitsValue ds * 10 ^ k := by
  induction k with
  | zero => simp
  | succ k ih =>
    rw [List.replicate_succ', ← List.append_assoc, digitsValue_append, ih]
    simp only [List.foldl_cons, List.foldl_nil, Nat.pow_succ]
    simp [Nat.mul_assoc]

lemma digitsValue_leading (k : ℕ) (ds : List Char) :
    digitsValue (List.replicate k '0' ++ ds) = digitsValue ds := by
  have hzeros : digitsValue (List.replicate k '0') = 0 := by
    simpa [digitsValue] using digitsValue_zeros [] k
  rw [digitsValue_append, hzeros]
  rfl

section

variable {width n : ℕ}

lemma toList_padded (width n : ℕ) : (padded width n).toList =
    List.replicate (width - (Nat.toDigits 10 n).length) '0' ++ Nat.toDigits 10 n := by
  simp [padded, ← String.length_toList]

lemma isDigit_padded (width n : ℕ) : ∀ c ∈ (padded width n).toList, c.isDigit = true := by
  rw [toList_padded]
  intro c hc
  rcases List.mem_append.mp hc with hc | hc
  · rw [List.eq_of_mem_replicate hc]
    rfl
  · exact (digits_toDigits n).2 c hc

lemma value_padded (width n : ℕ) : digitsValue (padded width n).toList = n := by
  rw [toList_padded, digitsValue_leading, digitsValue_toDigits]

lemma length_padded (hw : 0 < width) (h : n < 10 ^ width) :
    (padded width n).toList.length = width := by
  have hle := (Nat.length_toDigits_le_iff (b := 10) (by decide) hw).mpr h
  rw [toList_padded, List.length_append, List.length_replicate]
  omega

lemma readDigits_padded (hw : 0 < width) (h : n < 10 ^ width) (rest : List Char) :
    readDigits width ((padded width n).toList ++ rest) = some (n, rest) := by
  have hlength := length_padded hw h
  have hall : (padded width n).toList.all Char.isDigit = true :=
    List.all_eq_true.mpr (isDigit_padded width n)
  have hvalue := value_padded width n
  rw [digitsValue] at hvalue
  simp only [readDigits, List.take_left' hlength, List.drop_left' hlength, hlength, hall, and_self,
    if_true, hvalue]

end

/-! ### Years -/

lemma readYearDigits_padded (n : ℕ) (rest : List Char) :
    readYearDigits ((padded 4 n).toList ++ '-' :: rest) = some (n, '-' :: rest) := by
  have hstops : Stops Char.isDigit ('-' :: rest) := by simp [Stops]
  have htake := takeWhile_append_stops (isDigit_padded 4 n) hstops
  have hdrop := dropWhile_append_stops (isDigit_padded 4 n) hstops
  have hne : (padded 4 n).toList.isEmpty = false := by
    rw [toList_padded]
    simp [Nat.toDigits_ne_nil]
  have hvalue := value_padded 4 n
  rw [digitsValue] at hvalue
  simp [readYearDigits, htake, hdrop, hne, hvalue]

lemma readYear_write (y : ℤ) (rest : List Char) :
    readYear ((writeYear y).toList ++ '-' :: rest) = some (y, '-' :: rest) := by
  unfold writeYear
  split_ifs with hplain hneg
  · obtain ⟨n, rfl⟩ := Int.eq_ofNat_of_zero_le hplain.1
    have hn : n < 10 ^ 4 := by omega
    have hread := readDigits_padded (by decide) hn ('-' :: rest)
    obtain ⟨c, cs, hcons⟩ := List.exists_cons_of_length_pos
      (l := (padded 4 n).toList) (by rw [length_padded (by decide) hn]; decide)
    have hdigit := isDigit_padded 4 n c (by rw [hcons]; exact List.mem_cons_self)
    rw [Int.toNat_natCast]
    rw [hcons, List.cons_append] at hread ⊢
    rw [readYear, hread]
    · rfl
    · intro _ hminus
      simp [(List.cons.inj hminus).1] at hdigit
    · intro _ hplus
      simp [(List.cons.inj hplus).1] at hdigit
  · have htext : ("-" ++ padded 4 y.natAbs).toList ++ '-' :: rest =
        '-' :: ((padded 4 y.natAbs).toList ++ '-' :: rest) := by simp
    have hy : -(y.natAbs : ℤ) = y := by omega
    rw [htext, readYear, readYearDigits_padded]
    simp only [Option.map_some, hy]
  · have htext : ("+" ++ padded 4 y.natAbs).toList ++ '-' :: rest =
        '+' :: ((padded 4 y.natAbs).toList ++ '-' :: rest) := by simp
    have hy : (y.natAbs : ℤ) = y := by omega
    rw [htext, readYear, readYearDigits_padded]
    simp only [Option.map_some, hy]

/-! ### Fractions of a second -/

lemma readFraction_padded {width n : ℕ} (hw : 0 < width) (hnine : width ≤ 9) (h : n < 10 ^ width)
    (rest : List Char) : readFraction ('.' :: ((padded width n).toList ++ 'Z' :: rest)) =
      some (n * 10 ^ (9 - width), 'Z' :: rest) := by
  have hstops : Stops Char.isDigit ('Z' :: rest) := by simp [Stops]
  have htake := takeWhile_append_stops (isDigit_padded width n) hstops
  have hdrop := dropWhile_append_stops (isDigit_padded width n) hstops
  have hlength := length_padded hw h
  have hne : (padded width n).toList ≠ [] := by
    rw [← List.length_pos_iff, hlength]
    exact hw
  have hvalue := digitsValue_zeros (padded width n).toList (9 - width)
  rw [value_padded, digitsValue] at hvalue
  have hpad : ((padded width n).toList ++ List.replicate 9 '0').take 9 =
      (padded width n).toList ++ List.replicate (9 - width) '0' := by
    have hmin : min (9 - width) 9 = 9 - width := by omega
    rw [List.take_append, hlength, List.take_of_length_le (by omega), List.take_replicate, hmin]
  simp only [readFraction]
  rw [htake, hdrop, hpad, hvalue, if_neg (by simpa using hne)]

lemma readFraction_write {n : ℕ} (h : n < 1000000000) (rest : List Char) :
    readFraction ((writeFraction n).toList ++ 'Z' :: rest) = some (n, 'Z' :: rest) := by
  unfold writeFraction
  split_ifs with hzero hmilli hmicro
  · simp [readFraction, hzero]
  · have hbound : n / 1000000 < 10 ^ 3 := by omega
    have hread := readFraction_padded (by decide) (by decide) hbound rest
    have hn : n / 1000000 * 10 ^ (9 - 3) = n := by omega
    rw [hn] at hread
    simpa using hread
  · have hbound : n / 1000 < 10 ^ 6 := by omega
    have hread := readFraction_padded (by decide) (by decide) hbound rest
    have hn : n / 1000 * 10 ^ (9 - 6) = n := by omega
    rw [hn] at hread
    simpa using hread
  · have hbound : n < 10 ^ 9 := by omega
    have hread := readFraction_padded (by decide) (by decide) hbound rest
    simpa using hread

/-! ### Instants -/

def year (t : Instant) : ℤ := (dateOfDays (t.seconds / 86400)).1

/-- Instants that can be told apart: the nanoseconds are those of one second, or of a leap second,
and the year lies in the bounds of the calendar. -/
structure InRange (t : Instant) : Prop where
  nanos : t.nanos < 2000000000
  year : minYear ≤ year t ∧ year t ≤ maxYear

/-- An instant as it is read back: a second that runs over counts as the next one, unless it is the
last one of its minute. -/
def settled (t : Instant) : Instant :=
  if 1000000000 ≤ t.nanos ∧ t.seconds % 60 ≠ 59 then ⟨t.seconds + 1, t.nanos - 1000000000⟩ else t

lemma readMark_cons {marks : List Char} {c : Char} (hc : marks.contains c = true)
    (cs : List Char) : readMark marks (c :: cs) = some (c, cs) := by
  rw [readMark, if_pos hc]

lemma readDate_write (y : ℤ) {m d : ℕ} (hm : m < 10 ^ 2) (hd : d < 10 ^ 2) (rest : List Char) :
    readDate ((writeYear y).toList ++ '-' :: ((padded 2 m).toList ++ '-' ::
      ((padded 2 d).toList ++ rest))) = some ((y, m, d), rest) := by
  rw [readDate]
  refine Option.bind_eq_some_iff.mpr ⟨_, readYear_write y _, ?_⟩
  refine Option.bind_eq_some_iff.mpr ⟨_, readMark_cons rfl _, ?_⟩
  refine Option.bind_eq_some_iff.mpr ⟨_, readDigits_padded (by decide) hm _, ?_⟩
  refine Option.bind_eq_some_iff.mpr ⟨_, readMark_cons rfl _, ?_⟩
  exact Option.bind_eq_some_iff.mpr ⟨_, readDigits_padded (by decide) hd _, rfl⟩

lemma readTime_write {h mi s n : ℕ} (hh : h < 10 ^ 2) (hmi : mi < 10 ^ 2) (hs : s < 10 ^ 2)
    (hn : n < 1000000000) (rest : List Char) :
    readTime ((padded 2 h).toList ++ ':' :: ((padded 2 mi).toList ++ ':' ::
      ((padded 2 s).toList ++ ((writeFraction n).toList ++ 'Z' :: rest)))) =
      some ((h, mi, s, n), 'Z' :: rest) := by
  rw [readTime]
  refine Option.bind_eq_some_iff.mpr ⟨_, readDigits_padded (by decide) hh _, ?_⟩
  refine Option.bind_eq_some_iff.mpr ⟨_, readMark_cons rfl _, ?_⟩
  refine Option.bind_eq_some_iff.mpr ⟨_, readDigits_padded (by decide) hmi _, ?_⟩
  refine Option.bind_eq_some_iff.mpr ⟨_, readMark_cons rfl _, ?_⟩
  refine Option.bind_eq_some_iff.mpr ⟨_, readDigits_padded (by decide) hs _, ?_⟩
  exact Option.bind_eq_some_iff.mpr ⟨_, readFraction_write hn rest, rfl⟩

lemma toList_write {t : Instant} {y : ℤ} {m d : ℕ}
    (hdate : dateOfDays (t.seconds / 86400) = (y, m, d)) {s : ℕ}
    (hs : s = (t.seconds % 86400).toNat) : t.write.toList =
      (writeYear y).toList ++ '-' :: ((padded 2 m).toList ++ '-' :: ((padded 2 d).toList ++
        'T' :: ((padded 2 (s / 3600)).toList ++ ':' :: ((padded 2 (s / 60 % 60)).toList ++
        ':' :: ((padded 2 (s % 60 + t.nanos / 1000000000)).toList ++
        ((writeFraction (t.nanos % 1000000000)).toList ++ ['Z'])))))) := by
  simp [write, parts, hdate, hs]

/-- **An instant is read back** from the text it is written as. -/
theorem parse?_write {t : Instant} (h : InRange t) : parse? t.write = some (settled t) := by
  obtain ⟨⟨y, m, d⟩, hdate⟩ : ∃ date, dateOfDays (t.seconds / 86400) = date := ⟨_, rfl⟩
  obtain ⟨s, hs⟩ : ∃ s, s = (t.seconds % 86400).toNat := ⟨_, rfl⟩
  have hyear := h.year
  have hnanos := h.nanos
  rw [year, hdate] at hyear
  obtain ⟨⟨hm, hd⟩, hdays⟩ := dateOfDays_date hdate
  have hday : d ≤ 31 := by
    refine hd.2.trans ?_
    unfold daysInMonth
    split_ifs <;> decide
  rw [parse?, toList_write hdate hs]
  refine Option.bind_eq_some_iff.mpr ⟨_, readDate_write y (by omega) (by omega) _, ?_⟩
  refine Option.bind_eq_some_iff.mpr ⟨_, readMark_cons rfl _, ?_⟩
  refine Option.bind_eq_some_iff.mpr
    ⟨_, readTime_write (by omega) (by omega) (by omega) (by omega) _, ?_⟩
  refine Option.bind_eq_some_iff.mpr ⟨(0, []), rfl, ?_⟩
  have hfields : ([] : List Char).isEmpty = true ∧ minYear ≤ y ∧ y ≤ maxYear ∧ 1 ≤ m ∧ m ≤ 12 ∧
      1 ≤ d ∧ d ≤ daysInMonth y m ∧ s / 3600 < 24 ∧ s / 60 % 60 < 60 ∧
      s % 60 + t.nanos / 1000000000 ≤ 60 :=
    ⟨rfl, hyear.1, hyear.2, hm.1, hm.2, hd.1, hd.2, by omega, by omega, by omega⟩
  -- the sixtieth second is a leap second
  have hminute : t.seconds % 60 = (s % 60 : ℕ) := by omega
  simp only [if_pos hfields, hdays, settled]
  split_ifs with hsixty hover hover
  · omega
  · exact congrArg some (Instant.mk.injEq .. |>.mpr ⟨by omega, by omega⟩)
  · exact congrArg some (Instant.mk.injEq .. |>.mpr ⟨by omega, by omega⟩)
  · exact congrArg some (Instant.mk.injEq .. |>.mpr ⟨by omega, by omega⟩)

end CodeHealth.Proofs.InstantText

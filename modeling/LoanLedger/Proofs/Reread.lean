import LoanLedger.Calendar.IsoReader
import LoanLedger.Proofs.Encodings

/-!
# ISO 8601 text read back

* `readDigits?_padded` : a number of known width reads back;
* `readDate?_isoChars`, `readClock?_isoChars`, `Offset.isoChars_eq` : so do a day, a time of day and the size of an
  offset;
* `Offset.reread o`, `Timestamp.reread t` : what the text of an offset and of a timestamp read as: an offset below a
  second is lost;
* `Timestamp.ofIso?_iso` : the text of a timestamp reads as that;
* `Timestamp.HasSplinter t` : the offset is one of those that are lost; `Timestamp.reread_eq_iff` : all other timestamps
  read back.
-/

namespace LoanLedger.Calendar

/-! ## Digits -/

theorem asciiDigit?_digit : ∀ {k : Nat}, k < 10 → asciiDigit? (Char.ofNat (0x30 + k)) = some k := by
  decide

theorem isDigit_digit : ∀ {k : Nat}, k < 10 → (Char.ofNat (0x30 + k)).isDigit = true := by
  decide

theorem isDigit_of_mem_padded {w n : Nat} {c : Char} (h : c ∈ padded w n) : c.isDigit = true := by
  induction w generalizing n with
  | zero => cases h
  | succ w ih =>
    rcases List.mem_append.mp h with h | h
    · exact ih h
    · rw [List.mem_singleton.mp h]
      exact isDigit_digit (Nat.mod_lt n (by decide))

/-- The digits of a number are read one after the other, those in front first. -/
theorem readDigits?_go_padded (w k acc n : Nat) (r : List Char) :
    readDigits?.go (w + k) acc (padded w n ++ r) = readDigits?.go k (acc * 10 ^ w + n % 10 ^ w) r := by
  induction w generalizing n k r with
  | zero => simp [padded, Nat.mod_one]
  | succ w ih =>
    have digit : asciiDigit? (Char.ofNat (0x30 + n % 10)) = some (n % 10) :=
      asciiDigit?_digit (Nat.mod_lt n (by decide))
    rw [padded, List.append_assoc, List.singleton_append, Nat.add_assoc, Nat.add_comm 1 k, ih, readDigits?.go]
    simp only [digit]
    congr 1
    rw [Nat.pow_succ, Nat.mul_comm (10 ^ w) 10, Nat.mod_mul, Nat.mul_left_comm]
    omega

theorem readDigits?_padded {w n : Nat} (h : n < 10 ^ w) (r : List Char) :
    readDigits? w (padded w n ++ r) = some (n, r) := by
  have := readDigits?_go_padded w 0 0 n r
  rw [Nat.add_zero] at this
  rw [readDigits?, this, Nat.zero_mul, Nat.zero_add, Nat.mod_eq_of_lt h, readDigits?.go]

theorem readDigits?_padded_end {w n : Nat} (h : n < 10 ^ w) : readDigits? w (padded w n) = some (n, []) := by
  have := readDigits?_padded h []
  rwa [List.append_nil] at this

/-! ## Days -/

/-- A number of two digits does not begin as a week does. -/
theorem padded_two (n : Nat) : ∃ a b : Char, padded 2 n = [a, b] ∧ a ≠ 'W' := by
  refine ⟨_, _, rfl, fun h => ?_⟩
  have digit : (Char.ofNat (0x30 + n / 10 % 10)).isDigit = true := isDigit_digit (Nat.mod_lt _ (by decide))
  rw [h] at digit
  exact absurd digit (by decide)

theorem Date.isoChars_eq (d : Date) : ∃ a b c e m₁ m₂ d₁ d₂ : Char,
    d.isoChars = [a, b, c, e, '-', m₁, m₂, '-', d₁, d₂] ∧ m₁ ≠ 'W' := by
  obtain ⟨a, b, c, e, hyear⟩ : ∃ a b c e, padded 4 d.year = [a, b, c, e] := ⟨_, _, _, _, rfl⟩
  obtain ⟨m₁, m₂, hmonth, notWeek⟩ := padded_two d.month
  obtain ⟨d₁, d₂, hday, -⟩ := padded_two d.day
  exact ⟨a, b, c, e, m₁, m₂, d₁, d₂, by rw [isoChars, hyear, hmonth, hday]; rfl, notWeek⟩

theorem Date.length_isoChars (d : Date) : d.isoChars.length = 10 := by
  simp [isoChars, length_padded]

/-- A day and a further character are told apart at the tenth character. -/
theorem separatorAt_isoChars (d : Date) (c : Char) (r : List Char) : separatorAt (d.isoChars ++ c :: r) = 10 := by
  obtain ⟨a, b, c', e, m₁, m₂, d₁, d₂, hd, notWeek⟩ := d.isoChars_eq
  rw [hd]
  simp [separatorAt, notWeek]

/-- A day by month reads back: the first hyphen tells that there is a second one. -/
theorem readDate?_isoChars (d : Date) : readDate? d.isoChars = some (.monthDay d.year d.month d.day) := by
  obtain ⟨hy, hm, hd⟩ := d.bounds
  have month := readDigits?_padded hm ('-' :: padded 2 d.day)
  obtain ⟨m₁, m₂, hmonth, notWeek⟩ := padded_two d.month
  simp only [Date.isoChars, List.append_assoc, List.cons_append, readDate?, readDigits?_padded hy, Option.bind_eq_bind,
    Option.bind_some]
  rw [hmonth] at month ⊢
  simp only [List.cons_append, List.nil_append] at month ⊢
  split
  · next h => exact absurd (List.cons.inj h).1 notWeek
  · simp [month, skipHyphen?, readDigits?_padded_end hd]

/-! ## Times of day -/

/-- A component is followed by a colon and the next one. -/
theorem readComponents?_colon {n v : Nat} {colons : Bool} {r : List Char} (hv : v < 10 ^ 2)
    (hc : n = 2 ∨ colons = true) (hr : r ≠ []) :
    readComponents? (n + 1) colons (padded 2 v ++ ':' :: r) =
      (readComponents? n true r).map fun p => (v :: p.1, p.2) := by
  obtain ⟨c, r, rfl⟩ := List.exists_cons_of_ne_nil hr
  have hcolons : (if n = 2 then True else colons = true) = True := by
    rcases hc with rfl | rfl <;> simp
  rw [readComponents?, readDigits?_padded hv]
  simp only [Option.bind_eq_bind, Option.bind_some, hcolons, decide_true, Bool.true_and, if_true]
  cases readComponents? n true (c :: r) <;> rfl

theorem fraction?_padded {u : Nat} (hu : u < 10 ^ 6) : fraction? (padded 6 u) = some (u, []) := by
  have hn : min 6 (padded 6 u).length = 6 := by rw [length_padded]; rfl
  simp [fraction?, hn, readDigits?_padded_end hu]

/-- The last component may have digits of a second behind it. -/
theorem readComponents?_last {n v u : Nat} {colons : Bool} (hv : v < 10 ^ 2) (hu : u < 1000000) :
    readComponents? (n + 1) colons (padded 2 v ++ microChars u) = some ([v], u, false) := by
  rw [readComponents?, readDigits?_padded hv]
  by_cases h0 : u = 0
  · simp [microChars, h0]
  · obtain ⟨c, r, hr⟩ : ∃ c r, padded 6 u = c :: r := ⟨_, _, rfl⟩
    have hfraction := fraction?_padded hu
    rw [hr] at hfraction
    simp [microChars, h0, hr, hfraction]

theorem readClock?_isoChars (t : TimeOfDay) :
    readClock? t.isoChars = some (⟨t.hour, t.minute, t.second, t.micro⟩, false) := by
  obtain ⟨hour, minute, second, micro, hh, hm, hs, hu⟩ := t
  simp only [TimeOfDay.isoChars, List.append_assoc, List.cons_append, readClock?]
  rw [readComponents?_colon (by omega) (.inl rfl) (by simp [padded]),
    readComponents?_colon (by omega) (.inr rfl) (by simp [padded]), readComponents?_last (by omega) hu]
  rfl

def Offset.written (o : Offset) : WrittenTime :=
  ⟨o.micros.natAbs / 1000000 / 3600, o.micros.natAbs / 1000000 / 60 % 60, o.micros.natAbs / 1000000 % 60,
    o.micros.natAbs % 1000000⟩

/-- The sign of an offset is followed by its size. -/
theorem Offset.isoChars_eq (o : Offset) : ∃ size, o.isoChars = (if o.micros < 0 then '-' else '+') :: size ∧
    readClock? size = some (o.written, false) := by
  refine ⟨_, rfl, ?_⟩
  have hbound := o.bound
  have hu : o.micros.natAbs % 1000000 < 1000000 := Nat.mod_lt _ (by decide)
  unfold microsPerDay at hbound
  simp only [List.append_eq, List.append_assoc, List.cons_append, readClock?]
  rw [readComponents?_colon (by omega) (.inl rfl) (by simp [padded])]
  split
  · next hz =>
    -- what is below a minute is left out, and counts as zero
    rw [Bool.and_eq_true, decide_eq_true_eq, decide_eq_true_eq] at hz
    have hlast : readComponents? 2 true (padded 2 (o.micros.natAbs / 1000000 / 60 % 60) ++ microChars 0) = _ :=
      readComponents?_last (by omega) (by decide)
    rw [microChars, if_pos rfl] at hlast
    rw [hlast, written, hz.1, hz.2]
    rfl
  · rw [readComponents?_colon (by omega) (.inr rfl) (by simp [padded]), readComponents?_last (by omega) hu]
    rfl

/-! ## Times with an offset -/

theorem isZoneMark_of_isDigit {c : Char} (h : c.isDigit = true) : isZoneMark c = false := by
  simp only [isZoneMark, Bool.or_eq_false_iff, decide_eq_false_iff_not]
  refine ⟨⟨?_, ?_⟩, ?_⟩ <;> (rintro rfl; exact absurd h (by decide))

/-- The characters of a time of day are digits, colons and points. -/
theorem TimeOfDay.mem_isoChars {t : TimeOfDay} {c : Char} (h : c ∈ t.isoChars) :
    c.isDigit = true ∨ c = ':' ∨ c = '.' := by
  simp only [isoChars, microChars, List.mem_append, List.mem_cons] at h
  rcases h with ((h | rfl | h) | rfl | h) | h
  · exact .inl (isDigit_of_mem_padded h)
  · exact .inr (.inl rfl)
  · exact .inl (isDigit_of_mem_padded h)
  · exact .inr (.inl rfl)
  · exact .inl (isDigit_of_mem_padded h)
  · split at h
    · cases h
    · rcases List.mem_cons.mp h with rfl | h
      · exact .inr (.inr rfl)
      · exact .inl (isDigit_of_mem_padded h)

/-- What the text of an offset reads as: one below a second is lost. -/
def Offset.reread (o : Offset) : Offset :=
  if o.micros.natAbs < 1000000 then .utc else o

def Timestamp.reread (t : Timestamp) : Timestamp :=
  { t with offset := t.offset.map Offset.reread }

theorem Offset.offsetMicros_written (o : Offset) :
    o.written.offsetMicros (decide (o.micros < 0)) = o.reread.micros := by
  have hseconds : (o.written.hour * 60 + o.written.minute) * 60 + o.written.second = o.micros.natAbs / 1000000 := by
    simp only [written]
    omega
  have hmicro : o.written.micro = o.micros.natAbs % 1000000 := rfl
  unfold WrittenTime.offsetMicros reread
  simp only [hseconds, hmicro]
  by_cases hsmall : o.micros.natAbs < 1000000
  · rw [if_pos (Nat.div_eq_of_lt hsmall), if_pos hsmall]
    rfl
  · rw [if_neg (by omega), if_neg hsmall]
    split
    · next hneg =>
      rw [decide_eq_true_eq] at hneg
      omega
    · next hneg =>
      rw [decide_eq_true_eq] at hneg
      omega

/-- A sign ends the time of day. -/
theorem readTime?_isoChars (t : TimeOfDay) (offset : Option Offset) :
    readTime? (t.isoChars ++ offset.elim [] Offset.isoChars) =
      some (⟨t.hour, t.minute, t.second, t.micro⟩, offset.map (·.reread.micros)) := by
  have clock : ∀ c ∈ t.isoChars, (!isZoneMark c) = true := by
    intro c hc
    rcases TimeOfDay.mem_isoChars hc with h | rfl | rfl
    · rw [isZoneMark_of_isDigit h]
      rfl
    · rfl
    · rfl
  rw [readTime?, List.takeWhile_append_of_pos clock, List.dropWhile_append_of_pos clock]
  cases offset with
  | none => simp [readClock?_isoChars]
  | some o =>
    obtain ⟨size, hsize, hread⟩ := o.isoChars_eq
    rw [Option.elim_some, hsize, Option.map_some, ← o.offsetMicros_written]
    by_cases hneg : o.micros < 0
    · simp [hneg, isZoneMark, readClock?_isoChars, hread]
    · simp [hneg, isZoneMark, readClock?_isoChars, hread]

theorem readTimestamp?_iso (t : Timestamp) :
    readTimestamp? t.iso.toList = some ((t.date.year, t.date.month, t.date.day),
      ⟨t.time.hour, t.time.minute, t.time.second, t.time.micro⟩, t.reread.offset.map Offset.micros) := by
  have hlength := t.date.length_isoChars
  generalize htime : t.time.isoChars ++ t.offset.elim [] Offset.isoChars = time
  have hiso : t.iso.toList = t.date.isoChars ++ 'T' :: time := by
    rw [Timestamp.iso, String.toList_ofList, Timestamp.isoCharsWith, List.append_assoc, List.cons_append, htime]
  have hlong : ¬ (t.date.isoChars ++ 'T' :: time).length < 7 := by
    rw [List.length_append, hlength]
    omega
  have hclock : readTime? time = _ := htime ▸ readTime?_isoChars t.time t.offset
  rw [hiso, readTimestamp?, if_neg hlong, separatorAt_isoChars]
  simp [List.take_left' hlength, List.drop_left' hlength, readDate?_isoChars, WrittenDay.resolve?, hclock,
    Timestamp.reread, Function.comp_def]

theorem checkDate_date (d : Date) : checkDate d.year d.month d.day = .ok d := by
  rw [checkDate, Date.ofYmd?, dif_pos d.isDay]

theorem checkTime_time (t : TimeOfDay) : checkTime ⟨t.hour, t.minute, t.second, t.micro⟩ = .ok t := by
  rw [checkTime, TimeOfDay.of?, dif_pos t.isTime]

theorem Offset.ofMicros?_micros (o : Offset) : ofMicros? o.micros = some o := dif_pos o.bound

/-- The text of a timestamp reads as the timestamp, but for an offset below a second. -/
theorem Timestamp.ofIso?_iso (t : Timestamp) : ofIso? t.iso = .ok t.reread := by
  rw [ofIso?, readTimestamp?_iso]
  have hdate : t.reread.date = t.date := rfl
  have htime : t.reread.time = t.time := rfl
  generalize t.reread = r at hdate htime
  obtain ⟨date, time, offset⟩ := r
  cases offset with
  | none => simp [checkDate_date, checkTime_time, ← hdate, ← htime, bind, Except.bind, pure, Except.pure]
  | some o =>
    simp [checkDate_date, checkTime_time, ← hdate, ← htime, Offset.ofMicros?_micros, bind, Except.bind, pure,
      Except.pure]

/-! ## What is lost -/

/-- The offset is below a second, but not zero. -/
def Timestamp.HasSplinter (t : Timestamp) : Prop :=
  ∃ o ∈ t.offset, o.micros ≠ 0 ∧ o.micros.natAbs < 1000000

theorem Offset.reread_eq_iff {o : Offset} : o.reread = o ↔ ¬ (o.micros ≠ 0 ∧ o.micros.natAbs < 1000000) := by
  unfold reread
  split
  · next hsmall =>
    constructor
    · rintro h ⟨hne, -⟩
      rw [← h] at hne
      exact hne rfl
    · intro h
      have hzero : o.micros = 0 := Decidable.byContradiction fun hne => h ⟨hne, hsmall⟩
      obtain ⟨micros, bound⟩ := o
      subst hzero
      rfl
  · next hlarge => exact iff_of_true rfl fun h => hlarge h.2

theorem Timestamp.reread_eq_iff {t : Timestamp} : t.reread = t ↔ ¬ t.HasSplinter := by
  obtain ⟨date, time, offset⟩ := t
  cases offset with
  | none => simp [reread, HasSplinter]
  | some o => simpa [reread, HasSplinter] using Offset.reread_eq_iff

theorem Timestamp.isAware_reread (t : Timestamp) : t.reread.isAware = t.isAware := by
  rw [isAware, isAware, reread, Option.isSome_map]

/-- A text in ISO form holds no capital Z. -/
theorem Timestamp.notMem_iso (t : Timestamp) : 'Z' ∉ t.iso.toList := by
  have padded {w n : Nat} : 'Z' ∉ padded w n := fun h => absurd (isDigit_of_mem_padded h) (by decide)
  have micros {u : Nat} : 'Z' ∉ microChars u := by
    unfold microChars
    split <;> simp [padded]
  have offset (o : Offset) : 'Z' ∉ o.isoChars := by
    unfold Offset.isoChars
    dsimp only
    split <;> split <;> simp [padded, micros]
  rw [iso, String.toList_ofList, isoCharsWith]
  cases t.offset with
  | none => simp [Date.isoChars, TimeOfDay.isoChars, padded, micros]
  | some o => simp [Date.isoChars, TimeOfDay.isoChars, padded, micros, offset]

end LoanLedger.Calendar

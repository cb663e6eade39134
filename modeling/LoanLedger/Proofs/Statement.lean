import LoanLedger.Proofs.Frame

/-!
# Statements that go well

What is known when a statement, a savepoint or a commit went well, however it was disturbed:

* `query_ok`, `change_ok` : the rows were those of the session, and the session has the changed ones;
* `savepoint_ok` : the work went well, or its changes were taken back and the other work went well;
* `commit_ok`, `commit_error` : the rows of the session are the committed ones, or nothing is.
-/

namespace LoanLedger.Ledger

variable {α β : Type} {x y : Work α} {a : α} {e : Error} {d d' : Desk}

/-! ## Records, faults and readings -/

theorem note_run (r : Log.Record) (d : Desk) : ∃ log, note r d = .ok () { d with log } := by
  by_cases h : d.setup.passes r.level
  · exact ⟨d.log ++ [⟨r, d.context⟩], by simp [note, h]⟩
  · exact ⟨d.log, by simp [note, h]⟩

theorem emit_run (l : Log.Level) (s m : String) (fs : List (String × Value)) (d : Desk) :
    ∃ log, emit l s m fs d = .ok () { d with log } :=
  note_run _ d

theorem emit_ok {l : Log.Level} {s m : String} {fs : List (String × Value)} {u : Unit}
    (h : emit l s m fs d = .ok u d') : d'.session = d.session := by
  obtain ⟨log, hr⟩ := emit_run l s m fs d
  rw [hr] at h
  cases h
  rfl

def Desk.passed (d : Desk) (p : Point) : Desk :=
  { d with faults := (judge p d.faults).1 }

theorem call_run (p : Point) (missed : α) (x : Work α) (d : Desk) :
    call p missed x d = match (judge p d.faults).2 with
      | .done => x (d.passed p)
      | .missed => .ok missed (d.passed p)
      | .failed e => .error e (d.passed p) := by
  unfold call
  rw [Work.bind_of_ok (show pass p d = .ok _ _ from rfl)]
  cases (judge p d.faults).2 <;> rfl

theorem call_ok {p : Point} {missed : α} (h : call p missed x d = .ok a d') :
    x (d.passed p) = .ok a d' ∨ (judge p d.faults).2 = .missed ∧ a = missed ∧ d' = d.passed p := by
  rw [call_run] at h
  split at h
  · exact .inl h
  · next hv =>
    cases h
    exact .inr ⟨hv, rfl, rfl⟩
  · cases h

theorem call_error {p : Point} {missed : α} (h : call p missed x d = .error e d') :
    x (d.passed p) = .error e d' ∨ d' = d.passed p := by
  rw [call_run] at h
  split at h
  · exact .inl h
  · cases h
  · cases h
    exact .inr rfl

theorem guarded_ok {operation : String} (h : guarded operation x d = .ok a d') : x d = .ok a d' := by
  rcases Work.recover_ok h with h | ⟨e, d₁, -, h⟩
  · exact h
  · split at h
    · obtain ⟨_, _, -, h⟩ := Work.bind_ok h
      cases h
    · cases h

theorem now_ok {t : Calendar.Timestamp} (h : now d = .ok t d') : d.clock.now? = .ok t ∧ d' = d := by
  unfold now at h
  obtain ⟨_, _, hg, h⟩ := Work.bind_ok h
  cases hg
  obtain ⟨hn, rfl⟩ := Work.ofExcept_run_ok h
  exact ⟨mapError_ok hn, rfl⟩

theorem utc_ok {t u : Calendar.Timestamp} (h : utc t d = .ok u d') : t.toUtc? = some u ∧ d' = d := by
  unfold utc at h
  split at h
  · cases h
  · cases hu : t.toUtc? with
    | none => rw [hu] at h; cases h
    | some u' =>
      rw [hu] at h
      cases h
      exact ⟨rfl, rfl⟩

/-! ## Statements -/

theorem statement_ok {u : Unit} (h : statement d = .ok u d') :
    d' = d.passed .statement ∧ d.session.isBroken = false := by
  unfold statement at h
  obtain ⟨s, d₁, hs, h⟩ := Work.bind_ok h
  cases hs
  split at h
  · obtain ⟨_, _, h, -⟩ := Work.bind_ok h
    cases h
  · next hb =>
    refine ⟨?_, by simpa using hb⟩
    rcases call_ok h with h | ⟨-, -, h⟩
    · cases h
      rfl
    · exact h

theorem query_ok {g : Tables → α} (h : query g d = .ok a d') :
    a = g d.session.tables ∧ d'.session = d.session := by
  unfold query at h
  obtain ⟨_, d₁, hs, h⟩ := Work.bind_ok h
  obtain ⟨rfl, -⟩ := statement_ok hs
  cases h
  exact ⟨rfl, rfl⟩

theorem change_ok {g : Tables → Except Error Tables} {u : Unit} (h : change g d = .ok u d') :
    ∃ t, g d.session.tables = .ok t ∧ d'.session = { d.session with tables := t } := by
  rcases Work.recover_ok h with h | ⟨e, d₁, -, h⟩
  · obtain ⟨_, d₁, hs, h⟩ := Work.bind_ok h
    obtain ⟨rfl, -⟩ := statement_ok hs
    obtain ⟨s, d₂, hs, h⟩ := Work.bind_ok h
    cases hs
    obtain ⟨t, d₂, ht, h⟩ := Work.bind_ok h
    obtain ⟨hg, rfl⟩ := Work.ofExcept_run_ok ht
    cases h
    exact ⟨t, hg, rfl⟩
  · obtain ⟨_, _, -, h⟩ := Work.bind_ok h
    cases h

theorem insert_ok {g : Tables → Option Tables} {u : Unit} (h : insert g d = .ok u d') :
    ∃ t, g d.session.tables = some t ∧ d'.session = { d.session with tables := t } := by
  obtain ⟨t, ht, hd⟩ := change_ok h
  split at ht
  · next hg =>
    cases ht
    exact ⟨t, hg, hd⟩
  · cases ht

theorem know_ok {k : Known → Known} {u : Unit} (h : know k d = .ok u d') :
    d'.session.tables = d.session.tables := by
  cases h
  rfl

section Savepoints

variable {d₁ d₂ : Desk}

/-- The work within a savepoint goes well. -/
theorem savepoint_of_ok (hs : statement d = .ok () d₁)
    (hx : (do let a ← x; statement; pure a : Work α) d₁ = .ok a d₂) :
    savepoint x y d = .ok a d₂ := by
  unfold savepoint
  rw [Work.bind_of_ok hs, Work.bind_of_ok (Work.session_run d₁)]
  exact Work.recover_of_ok hx

/-- The changes within a savepoint are taken back when a unique key was taken. -/
theorem savepoint_of_conflict (hs : statement d = .ok () d₁)
    (hx : (do let a ← x; statement; pure a : Work α) d₁ = .error (.storage .conflict) d₂) :
    savepoint x y d = y { d₂ with session := d₁.session } := by
  unfold savepoint
  rw [Work.bind_of_ok hs, Work.bind_of_ok (Work.session_run d₁)]
  exact (Work.recover_of_error hx).trans (Work.bind_of_ok rfl)

theorem savepoint_of_error (hs : statement d = .ok () d₁)
    (hx : (do let a ← x; statement; pure a : Work α) d₁ = .error e d₂) (he : e ≠ .storage .conflict) :
    savepoint x y d = .error e d₂ := by
  unfold savepoint
  rw [Work.bind_of_ok hs, Work.bind_of_ok (Work.session_run d₁), Work.recover_of_error hx]
  split
  · exact absurd rfl he
  · rfl

end Savepoints

/-- The work went well, or its changes were taken back and the other work went well. -/
theorem savepoint_ok [Keeps Desk.Near x] (h : savepoint x y d = .ok a d') :
    (∃ d₁ d₂, d.Near d₁ ∧ d₁.session = d.session ∧ x d₁ = .ok a d₂ ∧ d'.session = d₂.session) ∨
      ∃ d₁, d.Near d₁ ∧ d₁.session = d.session ∧ y d₁ = .ok a d' := by
  unfold savepoint at h
  obtain ⟨_, d₁, hs, h⟩ := Work.bind_ok h
  have near : d.Near d₁ := Keeps.ok hs
  obtain ⟨rfl, -⟩ := statement_ok hs
  obtain ⟨s, d₂, hs, h⟩ := Work.bind_ok h
  cases hs
  rcases Work.recover_ok h with h | ⟨e, d₂, he, h⟩
  · obtain ⟨b, d₂, hx, h⟩ := Work.bind_ok h
    obtain ⟨_, d₃, hs, h⟩ := Work.bind_ok h
    cases h
    obtain ⟨rfl, -⟩ := statement_ok hs
    exact .inl ⟨_, d₂, near, rfl, hx, rfl⟩
  · split at h
    · obtain ⟨_, d₃, hr, h⟩ := Work.bind_ok h
      cases hr
      have near₂ : (d.passed .statement).Near d₂ := Keeps.error he
      exact .inr ⟨_, Frame.trans near (Frame.back near₂), rfl, h⟩
    · cases h

/-- The work failed, or its changes were taken back and the other work failed. -/
theorem savepoint_error [Keeps Desk.Near x] (h : savepoint x y d = .error e d') :
    statement d = .error e d' ∨
      (∃ d₁, d.Near d₁ ∧ d₁.session = d.session ∧
        (do let a ← x; statement; pure a : Work α) d₁ = .error e d') ∨
      ∃ d₁, d.Near d₁ ∧ d₁.session = d.session ∧ y d₁ = .error e d' := by
  rcases Work.bind_error h with h | ⟨_, d₁, hs, h⟩
  · exact .inl h
  have near : d.Near d₁ := Keeps.ok hs
  obtain ⟨rfl, -⟩ := statement_ok hs
  rcases Work.bind_error h with h | ⟨s, d₂, hs, h⟩
  · cases h
  cases hs
  obtain ⟨e₁, d₂, he, hh⟩ := Work.recover_error h
  split at hh
  · rcases Work.bind_error hh with hh | ⟨_, d₃, hr, hh⟩
    · cases hh
    · cases hr
      have near₂ : (d.passed .statement).Near d₂ := Keeps.error he
      exact .inr (.inr ⟨_, Frame.trans near (Frame.back near₂), rfl, hh⟩)
  · cases hh
    exact .inr (.inl ⟨_, near, rfl, he⟩)

/-! ## Commits -/

/-- The rows of the session are the committed ones. -/
def Desk.committed (d : Desk) : Desk :=
  { d with store := d.session.tables }

theorem commit_ok {u : Unit} (hd : d.IsHonest) (h : commit d = .ok u d') :
    d' = (d.passed .commit).committed := by
  unfold commit at h
  rcases call_ok h with h | ⟨hm, -, -⟩
  · obtain ⟨s, d₁, hs, h⟩ := Work.bind_ok h
    cases hs
    split at h
    · obtain ⟨_, _, h, -⟩ := Work.bind_ok h
      cases h
    · cases h
      rfl
  · exact absurd hm (hd.not_missed rfl)

theorem commit_error (h : commit d = .error e d') : d'.store = d.store := by
  rcases call_error h with h | rfl
  · rcases Work.bind_error h with h | ⟨s, d₁, hs, h⟩
    · cases h
    · cases hs
      split at h
      · rcases Work.bind_error h with h | ⟨_, _, h, -⟩ <;> cases h
        rfl
      · cases h
  · rfl

end LoanLedger.Ledger

import LoanLedger.Proofs.Onward
import LoanLedger.Proofs.Requests
import LoanLedger.Proofs.Tame.Ledger

/-!
# What leaks out of operations

* `Leaks P X x` : from a desk without faults where `P` holds, the work `x` fails only as a failure of the ledger or
  the workflow, or of a cause that `X` holds of: that leaks;
* `Leaks.bind`, `Leaks.guarded`, `Leaks.savepoint` : so work is composed;
* `d.Provides X loanId n` : the clock shows a time, and the log of a loan has room for `n` more entries, unless `X`
  holds of what comes of that;
* `AuditLog.append_leaks`, `Disbursements.request_leaks` : what leaks out of the operations that an event needs.

`Tame` says of which causes work fails wherever it is done; here it matters where.
-/

namespace LoanLedger.Ledger

variable {α β : Type} {x y : Work α} {f : α → Work β} {P P' : Desk → Prop} {X X' : Cause → Prop}
    {cs : List Cause}
  {d d' : Desk} {e : Error} {loanId : String} {n : Nat}

/-! ## Work that leaks -/

def Cause.isFailure : Cause → Bool
  | failure _ => true
  | _ => false

theorem Error.isKernel_of_cause (h : e.cause.isFailure = true) : e.isKernel = true := by
  cases e <;> first | rfl | cases h

/-- From a desk without faults where `P` holds, the work fails only as a failure of the ledger or the workflow, or of
a cause that `X` holds of. -/
structure Leaks (P : Desk → Prop) (X : Cause → Prop) (x : Work α) : Prop where
  error : ∀ {d e d'}, d.faults = [] → P d → x d = .error e d' → e.isKernel = true ∨ X e.cause

theorem Tame.cause_mem (hx : Tame cs x) (hd : d.faults = []) (h : x d = .error e d') : e.cause ∈ cs :=
  (hx.error h).resolve_right (Desk.not_plans hd)

theorem Tame.leaks (hx : Tame cs x) (h : ∀ c ∈ cs, c.isFailure = true ∨ X c) : Leaks P X x :=
  ⟨fun hd _ he => (h _ (hx.cause_mem hd he)).imp_left Error.isKernel_of_cause⟩

theorem Tame.isKernel (hx : Tame cs x) (h : ∀ c ∈ cs, c.isFailure = true) (hd : d.faults = [])
    (he : x d = .error e d') : e.isKernel = true :=
  Error.isKernel_of_cause (h _ (hx.cause_mem hd he))

/-- Work that only fails as the ledger or the workflow does leaks nothing. -/
theorem Tame.tight (hx : Tame cs x) (h : ∀ c ∈ cs, c.isFailure = true) : Leaks P X x :=
  ⟨fun hd _ he => .inl (hx.isKernel h hd he)⟩

namespace Leaks

theorem mono (hx : Leaks P X x) (hP : ∀ {d}, P' d → P d) : Leaks P' X x :=
  ⟨fun hd hP' he => hx.error hd (hP hP') he⟩

theorem pure (a : α) : Leaks P X (pure a : Work α) := (Tame.pure a : Tame [] _).tight (by simp)

theorem emit {m : String} (h : m ≠ "workflow_transition") (l : Log.Level) (s : String) (fs : List (String × Value)) :
    Leaks P X (emit l s m fs) := (Tame.emit h l s fs : Tame [] _).tight (by simp)

theorem bind {Q : α → Desk → Prop} [Keeps Desk.Beside x] (hx : Leaks P X x)
    (hQ : ∀ {d a d'}, d.faults = [] → P d → x d = .ok a d' → Q a d') (hf : ∀ a, Leaks (Q a) X (f a)) :
    Leaks P X (x >>= f) := by
  refine ⟨fun {d e d'} hd hP h => ?_⟩
  rcases Work.bind_error h with h | ⟨a, d₁, h₁, h₂⟩
  · exact hx.error hd hP h
  · have beside : d.Beside d₁ := Keeps.ok h₁
    exact (hf a).error (beside.faults hd) (hQ hd hP h₁) h₂

/-- What follows is the same wherever it is done. -/
theorem bind_tame [Keeps Desk.Beside x] (hx : Leaks P X x) (hf : ∀ a, Leaks (fun _ => True) X (f a)) :
    Leaks P X (x >>= f) :=
  hx.bind (fun _ _ _ => trivial) hf

/-- What holds of the desk says how the work fails, wherever it is done. -/
theorem given (hx : ∀ {d}, P d → Leaks (fun _ => True) X x) : Leaks P X x :=
  ⟨fun hd hP he => (hx hP).error hd trivial he⟩

theorem of_and {A : Prop} (hx : A → Leaks P X x) : Leaks (fun d => A ∧ P d) X x :=
  ⟨fun hd hP he => (hx hP.1).error hd hP.2 he⟩

theorem map {h : α → β} (hx : Leaks P X x) : Leaks P X (h <$> x) :=
  ⟨fun hd hP he => hx.error hd hP (Work.map_error he)⟩

theorem call {p : Point} {missed : α} (hx : Leaks P X x) : Leaks P X (call p missed x) := by
  refine ⟨fun hd hP h => ?_⟩
  rw [call_faultless hd] at h
  exact hx.error hd hP h

theorem guarded {operation : String} (hx : Leaks P (fun c => c = .storage ∨ X c) x) :
    Leaks P X (guarded operation x) := by
  refine ⟨fun {d e d'} hd hP h => ?_⟩
  obtain ⟨e₁, d₁, h₁, hh⟩ := Work.recover_error h
  split at hh
  · obtain ⟨log, hr⟩ := emit_run .error "services.ledger" "ledger_unavailable" _ d₁
    cases (Work.bind_of_ok hr).symm.trans hh
    exact .inl rfl
  · next hn =>
    cases hh
    refine (hx.error hd hP h₁).imp_right fun hX => hX.resolve_left fun hc => ?_
    cases e with
    | storage r => exact hn r rfl
    | _ => cases hc

theorem savepoint [Keeps Desk.Near x] (hs : X .storage)
    (hP : ∀ {d d'}, d.Near d' → d'.session = d.session → P d → P d') (hx : Leaks P X x) (hy : Leaks P X y) :
    Leaks P X (savepoint x y) := by
  have : Keeps Desk.Beside x := ⟨fun d => (Holds.holds (P := Kept Desk.Near) d : d.Near _).toBeside⟩
  have released : Leaks P X (do let a ← x; statement; Pure.pure a) := hx.bind_tame fun a =>
    ((Tame.statement (.head [])).bind fun _ => .pure a).leaks (by simp [hs])
  refine ⟨fun {d e d'} hd h h' => ?_⟩
  rcases savepoint_error h' with h' | ⟨d₁, near, hsame, h'⟩ | ⟨d₁, near, hsame, h'⟩
  · exact ((Tame.statement (.head [])).leaks (by simp [hs])).error hd h h'
  · exact released.error (near.faults hd) (hP near hsame h) h'
  · exact hy.error (near.faults hd) (hP near hsame h) h'

end Leaks

/-! ## Times -/

/-- The clock shows a time that is known in UTC, or it may leak that there is none. -/
def Desk.Clocked (X : Cause → Prop) (d : Desk) : Prop :=
  d.clock.IsTimely ∨ X .clock ∧ X .calendar

theorem Desk.Beside.clocked (h : d.Beside d') (hd : d.Clocked X) : d'.Clocked X := by
  rw [Desk.Clocked, h.clock]
  exact hd

theorem Leaks.bind_clocked [Keeps Desk.Beside x] (hx : Leaks (Desk.Clocked X) X x)
    (hf : ∀ a, Leaks (Desk.Clocked X) X (f a)) : Leaks (Desk.Clocked X) X (x >>= f) :=
  hx.bind (fun _ hd h => (Keeps.ok h : Desk.Beside _ _).clocked hd) hf

theorem now_leaks : Leaks (Desk.Clocked X) X now := by
  refine ⟨fun hd hP h => ?_⟩
  rcases hP with ⟨time, hnow, -⟩ | hX
  · cases (now_calm hnow).symm.trans h
  · exact ((Tame.now (.head [])).leaks (by simp [hX.1])).error (P := fun _ => True) hd trivial h

theorem now_timely {time : Calendar.Timestamp} (hd : d.Clocked X) (h : now d = .ok time d') :
    time.IsTimely ∨ X .calendar := by
  refine hd.imp (fun ⟨t, ht, timely⟩ => ?_) (·.2)
  cases ht.symm.trans (now_ok h).1
  exact timely

theorem utc_leaks {time : Calendar.Timestamp} (ht : time.IsTimely ∨ X .calendar) : Leaks P X (utc time) := by
  rcases ht with ht | hX
  · refine ⟨fun {d e d'} _ _ h => ?_⟩
    obtain ⟨u, hu⟩ := utc_calm (d := d) ht
    cases hu.symm.trans h
  · exact (Tame.utc (.head []) time).leaks (by simp [hX])

/-! ## Numbers and entries -/

/-- The next number of a sequence can be kept, or it may leak that it cannot. -/
def Desk.Counts (X : Cause → Prop) (name : String) (d : Desk) : Prop :=
  Column.fitsInteger (d.session.tables.nextNumber name) = true ∨ X .tooLarge

/-- Logs are numbered and chained, and that of a loan has room for so many more entries, or it may leak that it has
not. -/
structure Tables.Provides (X : Cause → Prop) (loanId : String) (n : Nat) (t : Tables) : Prop where
  chained : Chained t
  room : t.HasRoom loanId n ∨ X .tooLarge

namespace Tables.Provides

variable {t t' : Tables}

theorem less {m : Nat} (h : t.Provides X loanId n) (hm : m ≤ n) : t.Provides X loanId m := by
  refine { h with room := h.room.imp_left fun hr => ?_ }
  unfold Tables.HasRoom at *
  omega

theorem of_same (h : t.Provides X loanId n) (he : t'.entries = t.entries) (hc : t'.counters = t.counters) :
    t'.Provides X loanId n where
  chained := h.chained.of_same he hc
  room := by
    rw [Tables.HasRoom, logOf_of_entries he]
    exact h.room

/-- An entry takes up some of the room. -/
theorem appended {r : AuditRecord} {x : Entry} (h : t.Provides X loanId (n + 1)) (ha : Appended loanId r t x t') :
    t'.Provides X loanId n where
  chained := h.chained.appended ha
  room := by
    refine h.room.imp_left fun hr => ?_
    unfold Tables.HasRoom at hr ⊢
    rw [ha.logOf, List.length_append, List.length_singleton]
    omega

end Tables.Provides

/-- The clock shows a time, and the log of a loan has room for so many more entries, or it may leak that it is
otherwise. -/
structure Desk.Provides (X : Cause → Prop) (loanId : String) (n : Nat) (d : Desk) : Prop where
  clocked : d.Clocked X
  rows : d.session.tables.Provides X loanId n

namespace Desk.Provides

theorem widen (h : d.Provides X loanId n) (hX : ∀ c, X c → X' c) : d.Provides X' loanId n :=
  ⟨h.clocked.imp_right (.imp (hX _) (hX _)), h.rows.chained, h.rows.room.imp_right (hX _)⟩

theorem less {m : Nat} (h : d.Provides X loanId n) (hm : m ≤ n) : d.Provides X loanId m :=
  ⟨h.clocked, h.rows.less hm⟩

/-- What follows work that left the rows alone. -/
theorem same (h : d.Provides X loanId n) (hb : d.Beside d') (ht : d'.session.tables = d.session.tables) :
    d'.Provides X loanId n :=
  ⟨hb.clocked h.clocked, ht ▸ h.rows⟩

theorem counts (h : d.Provides X loanId 1) : d.Counts X (Sequence.ofLoan loanId) :=
  h.rows.room.imp_left (HasRoom.fits h.rows.chained)

end Desk.Provides

theorem Leaks.bind_same [Keeps Desk.Beside x] (hx : Leaks (Desk.Provides X loanId n) X x)
    (ht : ∀ {d a d'}, x d = .ok a d' → d'.session.tables = d.session.tables)
    (hf : ∀ a, Leaks (Desk.Provides X loanId n) X (f a)) : Leaks (Desk.Provides X loanId n) X (x >>= f) :=
  hx.bind (fun _ hP h => hP.same (Keeps.ok h) (ht h)) hf

namespace Sequence

theorem raise_tame_of_fits {c : Counter} (h : Column.fitsInteger (c.value + 1) = true) : Tame [.storage] (raise c) := by
  refine (Tame.change (.head []) fun t e he => ?_).bind fun _ => (Tame.emit (by simp) _ _ _).bind fun _ => .pure _
  rw [if_pos h] at he
  cases he

theorem raise_leaks {c : Counter} (hs : X .storage) (h : Column.fitsInteger (c.value + 1) = true ∨ X .tooLarge) :
    Leaks P X (raise c) := by
  rcases h with h | hX
  · exact (raise_tame_of_fits h).leaks (by simp [hs])
  · exact (raise_tame c).leaks (by simp [hs, hX])

theorem locked_counts {name : String} {o : Option Counter} (hd : d.Counts X name) (h : locked name d = .ok o d') :
    d'.Counts X name ∧ ∀ c, o = some c → d'.session.tables.counter? name = some c := by
  obtain ⟨ho, hsame⟩ := locked_ok h
  rw [Desk.Counts, hsame]
  exact ⟨hd, fun c hc => by rw [← ho.resolve_left (by rw [hc]; nofun), hc]⟩

/-- A number is given that can be kept. -/
theorem next_leaks (hs : X .storage) (name : String) : Leaks (Desk.Counts X name) X (next name) := by
  have looked : Leaks (Desk.Counts X name) X (locked name) := (locked_tame name).leaks (by simp [hs])
  have raised (c : Counter) : Leaks (fun d => d.Counts X name ∧ ∀ x, some c = some x →
      d.session.tables.counter? name = some x) X (raise c) := by
    refine .given fun {d} ⟨hfit, hc⟩ => ?_
    rw [Desk.Counts, Tables.nextNumber, hc c rfl] at hfit
    exact raise_leaks hs hfit
  refine looked.bind (fun _ hd h => locked_counts hd h) fun o => ?_
  cases o with
  | some c => exact raised c
  | none =>
    have counted : Tame [.storage] (do insert (·.addCounter? ⟨name, 1⟩); pure true) :=
      (Tame.insert (.head [])).bind fun _ => .pure true
    have made :
        Leaks (Desk.Counts X name) X (savepoint (do insert (·.addCounter? ⟨name, 1⟩); pure true) (pure false)) :=
      (counted.savepoint (.head []) (.pure false)).leaks (by simp [hs])
    refine (made.mono And.left).bind (Q := fun isFirst d => isFirst = false → d.Counts X name) (fun _ hd h hb => ?_)
      fun isFirst => ?_
    · -- where the counter was not made, its row was taken back
      subst hb
      rcases savepoint_ok h with ⟨d₁, d₂, -, -, hx, -⟩ | ⟨d₁, -, hsame, hy⟩
      · obtain ⟨_, _, -, hx⟩ := Work.bind_ok hx
        cases hx
      · cases hy
        rw [Desk.Counts, hsame]
        exact hd.1
    · cases isFirst with
      | true => exact (Leaks.emit (by simp) _ _ _).bind_tame fun _ => .pure 1
      | false =>
        refine (Leaks.emit (by simp) _ _ _).bind (fun _ hd h => ?_) fun _ =>
          looked.bind (fun _ hd h => locked_counts hd h) fun o => ?_
        · rw [Desk.Counts, emit_ok h]
          exact hd rfl
        · cases o with
          | some c => exact raised c
          | none => exact (Tame.throw .storage rfl (.head [])).leaks (by simp [hs])

end Sequence

namespace AuditLog

theorem stored?_seq {x row : Entry} (h : x.stored? = some row) : row.seq = x.seq := by
  simp only [Entry.stored?, bind, Option.bind_eq_some_iff] at h
  obtain ⟨_, -, _, -, _, -, h⟩ := h
  cases h
  rfl

theorem store_tame_of_fits {x : Entry} (h : Column.fitsInteger x.seq = true) : Tame [.storage] (store x) := by
  refine (Tame.change (.head []) fun t e he => ?_).bind fun _ => .know _
  split at he
  · cases he
    exact .head []
  · next row hrow =>
    rw [stored?_seq hrow, h] at he
    split at he
    · next hn => cases hn
    · split at he <;> cases he
      exact .head []

theorem store_leaks {x : Entry} (hs : X .storage) (h : Column.fitsInteger x.seq = true ∨ X .tooLarge) :
    Leaks P X (store x) := by
  rcases h with h | hX
  · exact (store_tame_of_fits h).leaks (by simp [hs])
  · exact (store_tame x).leaks (by simp [hs, hX])

/-- An entry is made that can be written. -/
theorem next_leaks {r : AuditRecord} (hs : X .storage) (hw : r.IsWritable) (ht : r.timestamp.IsTimely ∨ X .calendar) :
    Leaks (Desk.Provides X loanId 1) X (next loanId r) := by
  refine ((Sequence.next_leaks hs _).mono Desk.Provides.counts).bind
    (Q := fun seq d => (Column.fitsInteger seq = true ∨ X .tooLarge) ∧ d.Clocked X) (fun _ hd h => ?_) fun seq => ?_
  · obtain ⟨rfl, -⟩ := Sequence.next_ok h
    exact ⟨hd.counts, (Keeps.ok h : Desk.Beside _ _).clocked hd.clocked⟩
  refine .of_and fun hfit => (Tame.leaks (Tame.query (.head []) _) (by simp [hs])).bind_clocked fun last =>
    (utc_leaks ht).bind_clocked fun timestamp => now_leaks.bind (fun _ hd h => now_timely hd h) fun time => ?_
  refine Leaks.bind_tame (.given utc_leaks) fun recordedAt => ?_
  obtain ⟨x, hx⟩ := Entry.sealed?_ok (e := draft loanId seq r timestamp recordedAt) rfl rfl hw (last.map (·.hash))
  obtain ⟨-, payloadHash, hash, hfields⟩ := Entry.sealed?_eq hx
  have stored : Leaks (fun _ => True) X (store x) := store_leaks hs (by rw [hfields]; exact hfit)
  rw [hx]
  exact stored.bind_tame fun _ => .pure x

/-- What leaks where an entry is recorded that can be written. -/
theorem append_leaks {r : AuditRecord} (hw : r.IsWritable) (ht : r.timestamp.IsTimely ∨ X .calendar) :
    Leaks (Desk.Provides X loanId 1) X (append loanId r) := by
  have made : Leaks (Desk.Provides X loanId 1) (fun c => c = .storage ∨ X c) (next loanId r) :=
    (next_leaks (.inl rfl) hw (ht.imp_right .inr)).mono fun hd => hd.widen fun _ => .inr
  have noted (x : Entry) : Leaks (fun _ => True) X (do
      emit .info "services.ledger" "audit_entry_appended"
        [("loan_id", .text loanId), ("seq", .int x.seq), ("audit_event", .text r.event.word)]
      pure (some x) : Work (Option Entry)) :=
    (Leaks.emit (by simp) _ _ _).bind_tame fun _ => .pure _
  unfold append
  cases r.key with
  | none => exact .call (made.guarded.bind_tame noted)
  | some key =>
    have after : Leaks (Desk.Provides X loanId 1) (fun c => c = .storage ∨ X c) (afterConflict loanId key) :=
      (afterConflict_tame loanId key).leaks (by simp [Cause.isFailure])
    have tried := made.savepoint (.inl rfl) (fun near hsame hd => hd.same near.toBeside (congrArg _ hsame)) after
    exact .call (tried.guarded.bind_tame noted)

end AuditLog

/-! ## Requests -/

namespace Disbursements

variable {kind : Tranche}

theorem submit_leaks (loanId : String) (kind : Tranche) : Leaks (Desk.Clocked X) X (submit loanId kind) := by
  refine ((find_tame loanId kind).tight (by decide)).bind_clocked fun found => ?_
  cases found with
  | some x => exact (Tame.throw (.failure .disbursementAlreadyExists) rfl (.head [])).tight (by decide)
  | none =>
    refine ((Tame.freshId : Tame [] _).tight (by simp)).bind_clocked fun id => now_leaks.bind_tame fun time => ?_
    exact ((added_tame loanId kind _).bind fun _ => .pure _).tight (by decide)

theorem request_leaks (loanId : String) (kind : Tranche) : Leaks (Desk.Clocked X) X (request loanId kind) := by
  refine .call ⟨fun {d e d'} hd hP h => ?_⟩
  rcases Work.bind_error h with h | ⟨r, d₁, hr, h₁⟩
  · exact absurd h Work.attempt_ne_error
  have beside : d.Beside d₁ := Keeps.ok hr
  rcases Work.attempt_ok hr with ⟨x, rfl, -⟩ | ⟨err, rfl, hx⟩
  · have noted : Leaks (fun _ => True) X (do
        noteRequest "disbursement_created" loanId (.text x.kind.word) (.text x.id)
        pure (some ⟨x, true⟩) : Work (Option Answer)) := (Leaks.emit (by simp) _ _ _).bind_tame fun _ => .pure _
    exact noted.error (beside.faults hd) trivial h₁
  · cases err with
    | failure f =>
      dsimp only at h₁
      split at h₁
      · have told := (existing_tame loanId f).bind fun x => .pure (some x)
        exact .inl (told.isKernel (by decide) (beside.faults hd) h₁)
      · cases h₁
        exact .inl rfl
    | _ =>
      cases h₁
      exact (submit_leaks loanId kind).error hd hP hx

/-- Without faults a request is answered. -/
theorem request_ne_none (hd : d.faults = []) : request loanId kind d ≠ .ok none d' := by
  intro h
  unfold request at h
  rw [call_faultless hd] at h
  obtain ⟨r, d₁, -, h₁⟩ := Work.bind_ok h
  cases r with
  | ok x =>
    obtain ⟨_, _, -, h₂⟩ := Work.bind_ok h₁
    cases h₂
  | error err => cases err with
    | failure f =>
      dsimp only at h₁
      split at h₁
      · obtain ⟨_, _, -, h₂⟩ := Work.bind_ok h₁
        cases h₂
      · cases h₁
    | _ => cases h₁

end Disbursements

end LoanLedger.Ledger

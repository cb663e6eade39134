import LoanLedger.Locks.Basic

/-!
# Who leaves a lock leaves no trace

* `Locks.leave_hold` : who held a lock and leaves it restores the table;
* `Locks.hold_error` : an attempt that fails leaves the table as it is.
-/

namespace LoanLedger.Locks

variable {t : Locks} {id : String}

/-! ## Entries -/

theorem entry?_update (t : Locks) (id : String) (e : LockEntry) : Locks.entry? (t.update id (some e)) id = some e := by
  induction t with
  | nil => simp [update, entry?]
  | cons p t ih =>
    unfold update
    split
    · simp [ entry?]
    · next h =>
      have hne : (id == p.1) = false := by simpa using Ne.symm h
      rw [ entry?, List.lookup_cons, hne]
      exact ih

theorem update_cons (p : String × LockEntry) (t : Locks) (id : String) (e : Option LockEntry) :
    Locks.update (p :: t) id e =
      if p.1 = id then (match e with | some e => (id, e) :: t | none => t) else p :: t.update id e := by
  cases e <;> rfl

theorem update_update (t : Locks) (id : String) (a : LockEntry) (b : Option LockEntry) :
    (t.update id (some a)).update id b = if b.isSome then t.update id b else t.update id none := by
  induction t with
  | nil => cases b <;> simp [update]
  | cons p t ih =>
    by_cases h : p.1 = id
    · cases b <;> simp [update, h]
    · simp only [update, if_neg h, ih]
      cases b <;> simp

theorem update_none (h : t.entry? id = none) : t.update id none = t := by
  induction t with
  | nil => rfl
  | cons p t ih =>
    rw [ entry?, List.lookup_cons] at h
    split at h
    · cases h
    · next hne =>
      have hp : ¬ p.1 = id := by simpa using Ne.symm (by simpa using hne)
      rw [update, if_neg hp, ih h]

theorem update_self {e : LockEntry} (h : t.entry? id = some e) : t.update id (some e) = t := by
  induction t with
  | nil => cases h
  | cons p t ih =>
    rw [ entry?, List.lookup_cons] at h
    unfold update
    split at h
    · next heq =>
      have hp : p.1 = id := Eq.symm (by simpa using heq)
      cases h
      rw [if_pos hp, ← hp]
    · next hne =>
      have hp : ¬ p.1 = id := by simpa using Ne.symm (by simpa using hne)
      rw [if_neg hp, ih h]

theorem update_append {e : LockEntry} (h : t.entry? id = none) : t.update id (some e) = t ++ [(id, e)] := by
  induction t with
  | nil => rfl
  | cons p t ih =>
    rw [ entry?, List.lookup_cons] at h
    split at h
    · cases h
    · next hne =>
      have hid : ¬ p.1 = id := by simpa using Ne.symm (by simpa using hne)
      rw [update_cons, if_neg hid, ih h, List.cons_append]

/-! ## Holders -/

theorem checkin_checkout (t : Locks) (id : String) : (t.checkout id).checkin id = t := by
  unfold checkout
  split
  · next h => rw [checkin, entry?_update]; simp [update_update, update_none h]
  · next e h => rw [checkin, entry?_update]; simp [update_update, e.isUsed, update_self h]

/-- Who leaves a lock that was free leaves the table as it was. -/
theorem leave_acquire (t : Locks) (id : String) (h : t.isHeld id = false) :
    ((t.checkout id).acquire id).leave id = t := by
  unfold checkout
  split
  · next hn =>
    simp [acquire, leave, release, checkin, entry?_update, update_update, update_none hn]
  · next e he =>
    have hfree : e.isTaken = false := by simpa [isHeld, he] using h
    have hself : t.update id (some ⟨e.refs, false, e.isUsed⟩) = t := by
      rw [← hfree]
      exact update_self he
    simp [acquire, leave, release, checkin, entry?_update, update_update, e.isUsed, hself]

theorem isHeld_checkout (t : Locks) (id : String) : (t.checkout id).isHeld id = t.isHeld id := by
  unfold checkout
  split
  · next h => simp [isHeld, entry?_update, h]
  · next e h => simp [isHeld, entry?_update, h]

theorem leave_hold {timeout : Value} (h : (t.hold id timeout).2 = .ok ()) :
    (t.hold id timeout).1.leave id = t := by
  unfold hold at h ⊢
  dsimp only at h ⊢
  split at h
  · cases h
  · split at h
    · cases h
    · next hfree =>
      rw [if_neg hfree]
      exact leave_acquire t id (by simpa [isHeld_checkout] using hfree)

theorem hold_error {timeout : Value} {e : Error} (h : (t.hold id timeout).2 = .error e) :
    (t.hold id timeout).1 = t := by
  unfold hold at h ⊢
  dsimp only at h ⊢
  split at h
  · exact checkin_checkout t id
  · split at h
    · next hheld =>
      rw [if_pos hheld]
      exact checkin_checkout t id
    · cases h

end LoanLedger.Locks

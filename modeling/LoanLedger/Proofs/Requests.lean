import LoanLedger.Proofs.Books
import LoanLedger.Proofs.Onward

/-!
# Requesting undisturbed

* `IdSupply.at s i`, `IdSupply.IsFresh s` : the ids in order, and that no two of them are the same;
* `Issued s t` : the requests have ids that were given; `IdSupply.Unused s t k` : the next `k` ids are not in use,
  `IdSupply.Clashes` : some are;
* `Desk.Drew k d d'` : the session can go on, and drew at most `k` ids, for its new requests;
* `Desk.Roomy d loanId n` : nothing disturbs the work, and there is room for `n` more entries of a loan;
  `Desk.Able` : besides, ids are fresh;
* `GoesOn loanId n k d r` : the work goes well with at most `k` ids drawn, or fails as these clash;
* `Disbursements.request_goes` : so it is when a tranche is requested, now or before; `Disbursements.request_calm` :
  where ids are fresh it goes well.
-/

namespace LoanLedger.Ledger

open Calendar (Timestamp)

variable {d d' d₁ : Desk} {t t' : Tables} {loanId : String} {n : Nat}

/-! ## Ids -/

def IdSupply.at (s : IdSupply) (i : Nat) : String :=
  (s.names[i]?).getD ("disb-" ++ (i + 1).repr)

def IdSupply.IsFresh (s : IdSupply) : Prop := ∀ i j, s.at i = s.at j → i = j

theorem IdSupply.at_of_names {s s' : IdSupply} (h : s'.names = s.names) (i : Nat) : s'.at i = s.at i := by
  rw [IdSupply.at, IdSupply.at, h]

theorem IdSupply.IsFresh.of_names {s s' : IdSupply} (h : s.IsFresh) (hn : s'.names = s.names) : s'.IsFresh := by
  intro i j hij
  rw [IdSupply.at_of_names hn, IdSupply.at_of_names hn] at hij
  exact h i j hij

theorem IdSupply.numbered_isFresh (used : Nat) : IdSupply.IsFresh ⟨[], used⟩ := by
  intro i j hij
  have hrepr : (i + 1).repr = (j + 1).repr := (String.append_right_inj _).mp hij
  have hdigits := congrArg (fun s => Nat.ofDigitChars 10 s.toList 0) hrepr
  simpa only [Nat.toList_repr, Nat.ofDigitChars_ten_toDigits, Nat.succ.injEq] using hdigits

/-- The requests have ids that were given. -/
def Issued (s : IdSupply) (t : Tables) : Prop :=
  ∀ x ∈ t.disbursements, ∃ i < s.used, x.id = s.at i

theorem Issued.mono {s s' : IdSupply} (h : Issued s t) (hn : s'.names = s.names) (hu : s.used ≤ s'.used)
    (ht : t'.disbursements = t.disbursements) : Issued s' t' := by
  intro x hx
  rw [ht] at hx
  obtain ⟨i, hi, hid⟩ := h x hx
  exact ⟨i, Nat.lt_of_lt_of_le hi hu, by rw [IdSupply.at_of_names hn, hid]⟩

/-- The next ids are all different, and no request has one of them. -/
structure IdSupply.Unused (s : IdSupply) (t : Tables) (k : Nat) : Prop where
  apart : ∀ i < k, ∀ j < k, s.at (s.used + i) = s.at (s.used + j) → i = j
  free : ∀ i < k, ∀ x ∈ t.disbursements, x.id ≠ s.at (s.used + i)

theorem IdSupply.Unused.mono {s : IdSupply} {k m : Nat} (h : s.Unused t m) (hk : k ≤ m) : s.Unused t k where
  apart i hi j hj := h.apart i (by omega) j (by omega)
  free i hi := h.free i (by omega)

/-- Ids that are fresh are unused when only those in use were given. -/
theorem Issued.unused {s : IdSupply} (h : Issued s t) (hs : s.IsFresh) (k : Nat) : s.Unused t k where
  apart i _ j _ hij := by
    have := hs _ _ hij
    omega
  free i _ x hx hid := by
    obtain ⟨j, hj, hxj⟩ := h x hx
    have := hs _ _ (hxj.symm.trans hid)
    omega

/-- At most so many ids were drawn between the two supplies; one of them is in use, or two are the same. -/
def IdSupply.Clashes (k : Nat) (s s' : IdSupply) (t : Tables) : Prop :=
  ∃ m ≤ k, s'.used = s.used + m ∧ ¬ s.Unused t m

theorem IdSupply.Clashes.mono {s s' : IdSupply} {k m : Nat} (h : s.Clashes k s' t) (hk : k ≤ m) :
    s.Clashes m s' t := by
  obtain ⟨n, hn, hrest⟩ := h
  exact ⟨n, Nat.le_trans hn hk, hrest⟩

theorem IdSupply.Unused.not_clashes {s s' : IdSupply} {k : Nat} (h : s.Unused t k) : ¬ s.Clashes k s' t := by
  rintro ⟨m, hm, -, taken⟩
  exact taken (h.mono hm)

/-- The session can go on, and at most so many ids were drawn, for its new requests. -/
structure Desk.Drew (k : Nat) (d d' : Desk) : Prop extends Desk.Onward d d' where
  most : d'.ids.used ≤ d.ids.used + k
  rows : ∀ x ∈ d'.session.tables.disbursements,
    x ∈ d.session.tables.disbursements ∨ ∃ i, d.ids.used ≤ i ∧ i < d'.ids.used ∧ x.id = d.ids.at i

namespace Desk.Drew

variable {k m : Nat}

theorem of_same (ho : d.Onward d') (hi : d'.ids = d.ids)
    (ht : d'.session.tables.disbursements = d.session.tables.disbursements) : d.Drew 0 d' where
  toOnward := ho
  most := by rw [hi]; exact Nat.le_refl _
  rows x hx := .inl (ht ▸ hx)

theorem mono (h : d.Drew k d') (hk : k ≤ m) : d.Drew m d' :=
  { h with most := Nat.le_trans h.most (Nat.add_le_add_left hk _) }

theorem trans (h : d.Drew k d₁) (h' : d₁.Drew m d') : d.Drew (k + m) d' where
  toOnward := h.toOnward.trans h'.toOnward
  most := by have := h.most; have := h'.most; omega
  rows x hx := by
    rcases h'.rows x hx with hx | ⟨i, hi, hi', hid⟩
    · rcases h.rows x hx with hx | ⟨i, hi, hi', hid⟩
      · exact .inl hx
      · exact .inr ⟨i, hi, Nat.lt_of_lt_of_le hi' h'.used, hid⟩
    · exact .inr ⟨i, Nat.le_trans h.used hi, hi', by rw [hid, IdSupply.at_of_names h.names]⟩

theorem issued (h : d.Drew k d') (hi : Issued d.ids d.session.tables) : Issued d'.ids d'.session.tables := by
  intro x hx
  rcases h.rows x hx with hx | ⟨i, -, hi', hid⟩
  · obtain ⟨i, hi, hid⟩ := hi x hx
    exact ⟨i, Nat.lt_of_lt_of_le hi h.used, by rw [IdSupply.at_of_names h.names, hid]⟩
  · exact ⟨i, hi', by rw [IdSupply.at_of_names h.names, hid]⟩

/-- As many ids less are unused as were drawn. -/
theorem unused (h : d.Drew k d') (hk : d'.ids.used = d.ids.used + k) (hu : d.ids.Unused d.session.tables (k + m)) :
    d'.ids.Unused d'.session.tables m := by
  have next (i : Nat) : d'.ids.at (d'.ids.used + i) = d.ids.at (d.ids.used + (k + i)) := by
    rw [IdSupply.at_of_names h.names, hk, Nat.add_assoc]
  refine ⟨fun i hi j hj hij => ?_, fun i hi x hx hid => ?_⟩
  · rw [next, next] at hij
    have := hu.apart (k + i) (by omega) (k + j) (by omega) hij
    omega
  · rw [next] at hid
    rcases h.rows x hx with hx | ⟨j, hj, hj', hxj⟩
    · exact hu.free (k + i) (by omega) x hx hid
    · -- an id that was drawn is none of those that follow
      obtain ⟨j, rfl⟩ := Nat.exists_eq_add_of_le hj
      have := hu.apart j (by omega) (k + i) (by omega) (hxj.symm.trans hid)
      omega

theorem clashes {s : IdSupply} (h : d.Drew k d') (hc : d'.ids.Clashes m s d'.session.tables) :
    d.ids.Clashes (k + m) s d.session.tables := by
  obtain ⟨c, hdrawn⟩ := Nat.exists_eq_add_of_le h.used
  obtain ⟨n, hn, hs, taken⟩ := hc
  have hc : c ≤ k := by have := h.most; omega
  have exactly : d.Drew c d' := { h with most := by omega }
  exact ⟨c + n, by omega, by omega, fun unused => taken (exactly.unused hdrawn unused)⟩

end Desk.Drew

/-! ## Work that can be done -/

/-- Nothing disturbs the work, and there is room for so many more entries of a loan. -/
structure Desk.Roomy (d : Desk) (loanId : String) (n : Nat) : Prop extends Desk.IsReady d where
  isTimely : d.clock.IsTimely
  chained : Chained d.session.tables
  room : d.session.tables.HasRoom loanId n

namespace Desk.Roomy

theorem mono {m : Nat} (h : d.Roomy loanId n) (hm : m ≤ n) : d.Roomy loanId m :=
  { h with room := by have := h.room; unfold Tables.HasRoom at *; omega }

/-- What follows work that left the log alone. -/
theorem onward (h : d.Roomy loanId n) (ho : d.Near d') (hs : d'.session.isBroken = false)
    (he : d'.session.tables.entries = d.session.tables.entries)
    (hc : d'.session.tables.counters = d.session.tables.counters) : d'.Roomy loanId n where
  toIsReady := ⟨ho.isCalm h.toIsCalm, hs⟩
  isTimely := by
    rw [ho.clock]
    exact h.isTimely
  chained := h.chained.of_same he hc
  room := by
    unfold Tables.HasRoom Tables.logOf
    rw [he]
    exact h.room

theorem same (h : d.Roomy loanId n) (ho : d.Near d') (hs : d'.session.isBroken = false)
    (ht : d'.session.tables = d.session.tables) : d'.Roomy loanId n :=
  h.onward ho hs (congrArg Tables.entries ht) (congrArg Tables.counters ht)

/-- What follows a record in the log of the program. -/
theorem emitted (h : d.Roomy loanId n) (ho : d.Onward d') (hs : d'.session = d.session) : d'.Roomy loanId n :=
  h.same ho.toNear (ho.isReady h.toIsReady).sound (congrArg Session.tables hs)

/-- An entry is accepted, unless its key is taken. -/
theorem append {r : AuditRecord} (h : d.Roomy loanId (n + 1)) (hr : r.IsSound)
    (hkey : ∀ key, r.key = some key → d.session.tables.entryByKey? key = none) :
    ∃ e d', AuditLog.append loanId r d = .ok (some e) d' ∧ d.Onward d' ∧
      Appended loanId r d.session.tables e d'.session.tables ∧ d'.Roomy loanId n := by
  obtain ⟨e, d', ha, ho, happ⟩ :=
    AuditLog.append_calm h.toIsReady h.isTimely h.chained (h.mono (by omega)).room hr hkey
  refine ⟨e, d', ha, ho, happ, ?_⟩
  exact {
    toIsReady := ho.isReady h.toIsReady
    isTimely := ho.isTimely h.isTimely
    chained := h.chained.appended happ
    room := by
      have hroom := h.room
      unfold Tables.HasRoom at hroom ⊢
      rw [happ.tables, logOf_logged, if_pos happ.ofLoan, List.length_append, List.length_singleton]
      omega }

end Desk.Roomy

/-- Besides, ids are fresh, and only those in use were given. -/
structure Desk.Able (d : Desk) (loanId : String) (n : Nat) : Prop extends Desk.Roomy d loanId n where
  fresh : d.ids.IsFresh
  issued : Issued d.ids d.session.tables

namespace Desk.Able

theorem mono {m : Nat} (h : d.Able loanId n) (hm : m ≤ n) : d.Able loanId m :=
  { h with toRoomy := h.toRoomy.mono hm }

/-- What follows work that left the log alone. -/
theorem onward (h : d.Able loanId n) (ho : d.Near d') (hs : d'.session.isBroken = false)
    (he : d'.session.tables.entries = d.session.tables.entries)
    (hc : d'.session.tables.counters = d.session.tables.counters)
    (hi : Issued d'.ids d'.session.tables) : d'.Able loanId n where
  toRoomy := h.toRoomy.onward ho hs he hc
  fresh := h.fresh.of_names ho.names
  issued := hi

theorem same (h : d.Able loanId n) (ho : d.Near d') (hs : d'.session.isBroken = false)
    (ht : d'.session.tables = d.session.tables) : d'.Able loanId n :=
  h.onward ho hs (congrArg Tables.entries ht) (congrArg Tables.counters ht)
    (h.issued.mono ho.names ho.used (congrArg Tables.disbursements ht))

/-- What follows a record in the log of the program. -/
theorem emitted (h : d.Able loanId n) (ho : d.Onward d') (hs : d'.session = d.session) : d'.Able loanId n :=
  h.same ho.toNear (ho.isReady h.toIsReady).sound (congrArg Session.tables hs)

theorem drew {k m : Nat} (h : d.Able loanId n) (hd : d.Drew k d') (hr : d'.Roomy loanId m) : d'.Able loanId m where
  toRoomy := hr
  fresh := h.fresh.of_names hd.names
  issued := hd.issued h.issued

/-- An entry is accepted, unless its key is taken. -/
theorem append {r : AuditRecord} (h : d.Able loanId (n + 1)) (hr : r.IsSound)
    (hkey : ∀ key, r.key = some key → d.session.tables.entryByKey? key = none) :
    ∃ e d', AuditLog.append loanId r d = .ok (some e) d' ∧ d.Onward d' ∧
      Appended loanId r d.session.tables e d'.session.tables ∧ d'.Able loanId n := by
  obtain ⟨e, d', ha, ho, happ, hr'⟩ := h.toRoomy.append hr hkey
  exact ⟨e, d', ha, ho, happ, hr', h.fresh.of_names ho.names, h.issued.mono ho.names ho.used happ.disbursements⟩

end Desk.Able

/-! ## Work that may find its ids in use -/

/-- How work goes that draws at most `k` ids: well, and then there is room for `n` more entries, or it fails as ids that
it drew clash. -/
inductive GoesOn {α : Type} (loanId : String) (n k : Nat) (d : Desk) : EStateM.Result Error Desk α → Prop where
  | ok (a : α) {d' : Desk} : d.Drew k d' → d'.Roomy loanId n → GoesOn loanId n k d (.ok a d')
  | taken {d' : Desk} : d.ids.Clashes k d'.ids d.session.tables →
    GoesOn loanId n k d (.error (.failure (.ledgerUnavailable "create_disbursement")) d')

namespace GoesOn

variable {α β : Type} {x : Work α} {f : α → Work β} {r : EStateM.Result Error Desk α} {k m : Nat}

theorem mono (h : GoesOn loanId n k d r) (hk : k ≤ m) : GoesOn loanId n m d r := by
  cases h with
  | ok a hd hr => exact .ok a (hd.mono hk) hr
  | taken hc => exact .taken (hc.mono hk)

theorem trans (hd : d.Drew k d₁) (h : GoesOn loanId n m d₁ r) : GoesOn loanId n (k + m) d r := by
  cases h with
  | ok a drew room => exact .ok a (hd.trans drew) room
  | taken hc => exact .taken (hd.clashes hc)

theorem bind {n' : Nat} (hx : GoesOn loanId n k d (x d))
    (hf : ∀ a d', x d = .ok a d' → d'.Roomy loanId n → GoesOn loanId n' m d' (f a d')) :
    GoesOn loanId n' (k + m) d ((x >>= f) d) := by
  generalize hr : x d = r at hx
  cases hx with
  | ok a drew room =>
    rw [Work.bind_of_ok hr]
    exact .trans drew (hf a _ hr room)
  | taken hc =>
    rw [Work.bind_of_error hr]
    exact .taken (hc.mono (Nat.le_add_right _ _))

theorem pure (h : d.Roomy loanId n) (a : α) : GoesOn loanId n 0 d ((pure a : Work α) d) :=
  .ok a (.of_same (.refl d) rfl rfl) h

theorem emit (h : d.Roomy loanId n) (l : Log.Level) (s m : String) (fs : List (String × Value)) :
    GoesOn loanId n 0 d (emit l s m fs d) := by
  obtain ⟨d', he, ho, hs, hi⟩ := emit_calm l s m fs d
  rw [he]
  exact .ok () (.of_same ho hi (by rw [hs])) (h.emitted ho hs)

theorem of_unused (h : GoesOn loanId n k d r) (hu : d.ids.Unused d.session.tables k) :
    ∃ a d', r = .ok a d' ∧ d.Drew k d' ∧ d'.Roomy loanId n := by
  cases h with
  | ok a hd hr => exact ⟨a, _, rfl, hd, hr⟩
  | taken hc => exact absurd hc hu.not_clashes

theorem able {n' : Nat} (h : GoesOn loanId n k d r) (hd : d.Able loanId n') :
    ∃ a d', r = .ok a d' ∧ d.Onward d' ∧ d'.Able loanId n := by
  obtain ⟨a, d', hr, drew, room⟩ := h.of_unused (hd.issued.unused hd.fresh k)
  exact ⟨a, d', hr, drew.toOnward, hd.drew drew room⟩

end GoesOn

/-- Drawing an id aside, the ids stay. -/
def Desk.SameIds (d d' : Desk) : Prop := d'.ids = d.ids

instance : Wide Desk.SameIds where
  refl _ := rfl
  trans h h' := Eq.trans h' h
  log _ _ := rfl
  pass _ _ := rfl
  know _ _ := rfl
  broken _ := rfl
  check _ _ _ := rfl
  back h := h
  session _ _ := rfl

/-- An entry without a key draws no id. -/
theorem Desk.Roomy.appended {r : AuditRecord} (h : d.Roomy loanId (n + 1)) (hr : r.IsSound) (hk : r.key = none) :
    GoesOn loanId n 0 d (AuditLog.append loanId r d) := by
  obtain ⟨e, d', ha, ho, happ, hroom⟩ := h.append hr (by rw [hk]; nofun)
  have ids : d.SameIds d' := Keeps.ok ha
  rw [ha]
  exact .ok _ (.of_same ho ids happ.disbursements) hroom

/-! ## Requests -/

theorem keepTime?_ok {time : Timestamp} (h : time.IsTimely) : ∃ u, Column.keepTime? time = .ok u := by
  obtain ⟨u, hu⟩ := h.inUtc
  have hbind : Column.bindTime? time = .ok u := by rw [Column.bindTime?, if_pos h.isAware, Column.utc?, hu]
  refine ⟨{ u with offset := some Calendar.Offset.utc }, ?_⟩
  unfold Column.keepTime?
  rw [hbind]
  rfl

namespace Disbursements

variable {kind : Tranche} {x : Disbursement}

/-- The desk whose session has forgotten a request. -/
def forgetting (d : Desk) (id : String) : Desk :=
  { d with session := { d.session with known := forget id d.session.known } }

theorem forgetting_onward (d : Desk) (id : String) : d.Onward (forgetting d id) := ⟨Frame.know d _, rfl, rfl⟩

theorem find_none (hd : d.IsReady) (hfor : d.session.tables.disbursementFor? loanId kind = none) :
    find loanId kind d = .ok none d := by
  have hq := query_calm hd (·.disbursementFor? loanId kind)
  rw [hfor] at hq
  exact (call_calm hd.toIsCalm _ _ _).trans (guarded_of_ok ((Work.bind_of_ok hq).trans rfl))

theorem find_some (hd : d.IsReady) (hfor : d.session.tables.disbursementFor? loanId kind = some x) :
    find loanId kind d = .ok (some x) (forgetting d x.id) := by
  have hq := query_calm hd (·.disbursementFor? loanId kind)
  rw [hfor] at hq
  exact (call_calm hd.toIsCalm _ _ _).trans (guarded_of_ok ((Work.bind_of_ok hq).trans rfl))

/-- A request is read as the session knows it. -/
theorem get_recalled (hd : d.IsReady) {id : String} (hx : d.session.tables.disbursement? loanId id = some x) :
    get loanId id d = .ok (recalled d.session.known x) d := by
  have hq := query_calm hd (·.disbursement? loanId id)
  rw [hx] at hq
  exact (Work.bind_of_ok (guarded_of_ok hq)).trans ((Work.bind_of_ok (Work.session_run d)).trans rfl)

theorem get_calm (hd : d.IsReady) {id : String} (hx : d.session.tables.disbursement? loanId id = some x) :
    ∃ y, get loanId id d = .ok y d := ⟨_, get_recalled hd hx⟩

theorem get_unknown (hd : d.IsReady) {id : String} (hx : d.session.tables.disbursement? loanId id = none) :
    get loanId id d = .error (.failure (.disbursementNotFound loanId id)) d := by
  have hq := query_calm hd (·.disbursement? loanId id)
  rw [hx] at hq
  exact (Work.bind_of_ok (guarded_of_ok hq)).trans rfl

theorem stored?_timely (ht : x.createdAt.IsTimely) (hp : x.paidAt = none) :
    ∃ createdAt, x.stored? = .ok { x with createdAt, paidAt := none } := by
  obtain ⟨u, hu⟩ := keepTime?_ok ht
  refine ⟨u, ?_⟩
  unfold Disbursement.stored?
  rw [hu, hp]
  rfl

theorem add_calm (hd : d.IsReady) (ht : x.createdAt.IsTimely) (hp : x.paidAt = none)
    (hid : ∀ y ∈ d.session.tables.disbursements, y.id ≠ x.id)
    (hfor : d.session.tables.disbursementFor? x.loanId x.kind = none) :
    ∃ d' row, add x d = .ok () d' ∧ d.Onward d' ∧ d'.ids = d.ids ∧ row.id = x.id ∧
      d'.session.tables = { d.session.tables with disbursements := d.session.tables.disbursements ++ [row] } := by
  obtain ⟨u, hrow⟩ := stored?_timely ht hp
  have hadd : d.session.tables.addDisbursement? { x with createdAt := u, paidAt := none } =
      some { d.session.tables with
        disbursements := d.session.tables.disbursements ++ [{ x with createdAt := u, paidAt := none }] } :=
    Tables.addDisbursement?_eq_some.mpr ⟨⟨hid, hfor⟩, rfl⟩
  have ho := Desk.Onward.withTables d { d.session.tables with
    disbursements := d.session.tables.disbursements ++ [{ x with createdAt := u, paidAt := none }] }
  refine ⟨_, _, (Work.bind_of_ok (change_calm hd ?_)).trans rfl,
    ho.trans ⟨Frame.know _ _, rfl, rfl⟩, rfl, ?_, rfl⟩
  · dsimp only
    rw [hrow]
    dsimp only
    rw [hadd]
  · rfl

theorem add_conflict (hd : d.IsReady) (ht : x.createdAt.IsTimely) (hp : x.paidAt = none)
    (hx : (∃ y ∈ d.session.tables.disbursements, y.id = x.id) ∨
      (d.session.tables.disbursementFor? x.loanId x.kind).isSome) :
    add x d = .error (.storage .conflict) d.broken := by
  obtain ⟨u, hrow⟩ := stored?_timely ht hp
  have taken : d.session.tables.addDisbursement? { x with createdAt := u, paidAt := none } = none :=
    if_pos (by simpa using hx)
  refine Work.bind_of_error (change_refused hd ?_)
  rw [hrow]
  dsimp only
  rw [taken]

/-! ### New requests -/

/-- What is done when the row of a request was refused. -/
def conflicting (loanId : String) (kind : Tranche) : Work Unit := do
  match ← find loanId kind with
  | some winner => throw (alreadyExists winner)
  | none => throw (.storage .conflict)

/-- Makes a new request, as if there were none. -/
def insertion (loanId : String) (kind : Tranche) : Work Disbursement := do
  let id ← freshId
  let d : Disbursement := ⟨id, loanId, kind, .pending, ← now, none⟩
  guarded "create_disbursement" (savepoint (add d) (conflicting loanId kind))
  pure d

theorem submit_unseen (h : find loanId kind d = .ok none d₁) : submit loanId kind d = insertion loanId kind d₁ :=
  Work.bind_of_ok h

def drawing (d : Desk) : Desk := { d with ids := d.ids.next.2 }

/-- A row that is refused leaves the session to what is done then. -/
theorem insertion_refused (hd : d.IsReady) (ht : d.clock.IsTimely)
    (hx : (∃ y ∈ d.session.tables.disbursements, y.id = d.ids.next.1) ∨
      (d.session.tables.disbursementFor? loanId kind).isSome)
    (he : guarded "create_disbursement" (conflicting loanId kind) (drawing d) = .error e d₁) :
    insertion loanId kind d = .error e d₁ := by
  obtain ⟨time, hnow, htime⟩ := ht
  have ready : (drawing d).IsReady := { hd with }
  have refused := savepoint_taken (y := conflicting loanId kind) ready
    (add_conflict (x := ⟨d.ids.next.1, loanId, kind, .pending, time, none⟩) ready htime rfl hx)
  refine (Work.bind_of_ok (show freshId d = .ok d.ids.next.1 (drawing d) from rfl)).trans ?_
  refine (Work.bind_of_ok (now_calm (d := drawing d) hnow)).trans ?_
  refine Work.bind_of_error ?_
  unfold guarded Work.recover at he ⊢
  rw [refused]
  exact he

/-- The id was given to another request. -/
theorem insertion_idTaken (hd : d.IsReady) (ht : d.clock.IsTimely)
    (hfor : d.session.tables.disbursementFor? loanId kind = none)
    (hid : ∃ y ∈ d.session.tables.disbursements, y.id = d.ids.next.1) :
    ∃ d', insertion loanId kind d = .error (.failure (.ledgerUnavailable "create_disbursement")) d' ∧
      d'.session = d.session ∧ d'.ids = d.ids.next.2 := by
  have ready : (drawing d).IsReady := { hd with }
  obtain ⟨d', he, -, hs, hi⟩ := emit_calm .error "services.ledger" "ledger_unavailable"
    [("operation", .text "create_disbursement"), ("error_type", .text Refusal.conflict.name)] (drawing d)
  refine ⟨d', insertion_refused hd ht (.inl hid) ?_, hs, hi⟩
  refine (Work.recover_of_error ((Work.bind_of_ok (find_none ready hfor)).trans rfl)).trans ?_
  exact (Work.bind_of_ok he).trans rfl

/-- A request is made under the next id, unless that is in use. -/
theorem insertion_goes (h : d.Roomy loanId n) (hfor : d.session.tables.disbursementFor? loanId kind = none) :
    GoesOn loanId n 1 d (insertion loanId kind d) := by
  by_cases hid : ∃ y ∈ d.session.tables.disbursements, y.id = d.ids.next.1
  · obtain ⟨d', hi, -, hids⟩ := insertion_idTaken h.toIsReady h.isTimely hfor hid
    obtain ⟨y, hy, hyid⟩ := hid
    rw [hi]
    exact .taken ⟨1, Nat.le_refl 1, by rw [hids]; rfl, fun unused => unused.free 0 Nat.one_pos y hy hyid⟩
  · have o₁ : d.Onward (drawing d) := ⟨Issuing.freshId d, rfl, rfl⟩
    have ready := o₁.isReady h.toIsReady
    obtain ⟨time, hnow, htime⟩ := o₁.isTimely h.isTimely
    obtain ⟨d', row, ha, o₂, hids, hrow, htables⟩ :=
      add_calm (x := ⟨d.ids.next.1, loanId, kind, .pending, time, none⟩)
        ready htime rfl (fun y hy hyid => hid ⟨y, hy, hyid⟩) hfor
    have made : insertion loanId kind d = .ok ⟨d.ids.next.1, loanId, kind, .pending, time, none⟩ d' := by
      refine (Work.bind_of_ok (show freshId d = .ok d.ids.next.1 (drawing d) from rfl)).trans ?_
      refine (Work.bind_of_ok (now_calm (d := drawing d) hnow)).trans ?_
      exact (Work.bind_of_ok (guarded_of_ok (savepoint_calm ready ha (o₂.isReady ready)))).trans rfl
    have onward := o₁.trans o₂
    rw [made]
    refine .ok _ ⟨onward, by rw [hids]; exact Nat.le_refl _, fun y hy => ?_⟩
      (h.onward onward.toNear (onward.isReady h.toIsReady).sound (by rw [htables]; rfl) (by rw [htables]; rfl))
    rw [htables] at hy
    rcases List.mem_append.mp hy with hy | hy
    · exact .inl hy
    · rw [List.mem_singleton.mp hy, hrow, hids]
      exact .inr ⟨d.ids.used, Nat.le_refl _, Nat.lt_succ_self _, rfl⟩

/-! ### Requests that are there -/

theorem submit_again (hd : d.IsReady) (hfor : d.session.tables.disbursementFor? loanId kind = some x) :
    submit loanId kind d = .error (alreadyExists x) (forgetting d x.id) :=
  (Work.bind_of_ok (find_some hd hfor)).trans rfl

theorem disbursement?_of_for (hfor : t.disbursementFor? loanId kind = some x) :
    ∃ y, t.disbursement? loanId x.id = some y := by
  have hx : x.loanId = loanId ∧ x.kind = kind := by simpa using List.find?_some hfor
  have hm := List.mem_of_find?_eq_some hfor
  cases hd : t.disbursement? loanId x.id with
  | some y => exact ⟨y, rfl⟩
  | none =>
    rw [Tables.disbursement?, List.find?_eq_none] at hd
    exact absurd (by simp [hx.1]) (hd x hm)

/-- A request that is there is the answer, as the session knows it. -/
theorem existing_calm {y : Disbursement} (hd : d.IsReady) (hy : d.session.tables.disbursement? loanId x.id = some y) :
    ∃ d', existing loanId (.disbursementAlreadyExists x.loanId x.kind.word x.id) d =
        .ok ⟨recalled d.session.known y, false⟩ d' ∧
      d.Onward d' ∧ d'.session = d.session ∧ d'.ids = d.ids := by
  obtain ⟨d₁, he, o₁, hs₁, hi₁⟩ := emit_calm .info "services.disbursement" "disbursement_already_exists"
    [("loan_id", .text loanId), ("kind", .text x.kind.word), ("disbursement_id", .text x.id)] d
  have hg := get_recalled (o₁.isReady hd) (show d₁.session.tables.disbursement? loanId x.id = some y by
    rw [hs₁]
    exact hy)
  rw [hs₁] at hg
  exact ⟨d₁, (Work.bind_of_ok he).trans ((Work.bind_of_ok hg).trans rfl), o₁, hs₁, hi₁⟩

/-! ### Both -/

theorem request_goes (h : d.Roomy loanId n) (kind : Tranche) : GoesOn loanId n 1 d (request loanId kind d) := by
  cases hfor : d.session.tables.disbursementFor? loanId kind with
  | none =>
    rw [show request loanId kind d = _ from call_calm h.toIsCalm _ _ _]
    have inserted := insertion_goes h hfor
    rw [← submit_unseen (find_none h.toIsReady hfor)] at inserted
    generalize hs : submit loanId kind d = r at inserted
    cases inserted with
    | ok x drew room =>
      rw [Work.bind_of_ok (Work.attempt_of_ok hs)]
      exact .trans drew ((GoesOn.emit room _ _ _ _).bind fun _ _ _ room => .pure room _)
    | taken hc =>
      rw [Work.bind_of_ok (Work.attempt_of_error hs)]
      exact .taken hc
  | some x =>
    have o₁ := forgetting_onward d x.id
    obtain ⟨y, hy⟩ := disbursement?_of_for hfor
    obtain ⟨d₂, he, o₂, hs₂, hi₂⟩ := existing_calm (o₁.isReady h.toIsReady) hy
    have onward := o₁.trans o₂
    have answered :
        request loanId kind d = .ok (some ⟨recalled (forgetting d x.id).session.known y, false⟩) d₂ := by
      refine (call_calm h.toIsCalm _ _ _).trans ?_
      refine (Work.bind_of_ok (Work.attempt_of_error (submit_again h.toIsReady hfor))).trans ?_
      exact (Work.bind_of_ok he).trans rfl
    rw [answered]
    refine GoesOn.mono ?_ (Nat.zero_le 1)
    exact .ok _ (.of_same onward hi₂ (by rw [hs₂]; rfl))
      (h.same onward.toNear (onward.isReady h.toIsReady).sound (by rw [hs₂]; rfl))

/-- A request that is made, now or before, is the answer. -/
theorem request_answer (hd : d.IsCalm) {answer : Option Answer} (h : request loanId kind d = .ok answer d') :
    ∃ a, answer = some a := by
  rw [show request loanId kind d = _ from call_calm hd _ _ _] at h
  obtain ⟨r, d₁, -, h⟩ := Work.bind_ok h
  split at h
  · obtain ⟨u, d₂, -, h⟩ := Work.bind_ok h
    cases h
    exact ⟨_, rfl⟩
  · split at h
    · obtain ⟨answer', d₂, -, h⟩ := Work.bind_ok h
      cases h
      exact ⟨answer', rfl⟩
    · cases h
  · cases h

theorem request_calm (h : d.Able loanId n) (kind : Tranche) :
    ∃ answer d', request loanId kind d = .ok (some answer) d' ∧ d.Onward d' ∧ d'.Able loanId n := by
  obtain ⟨answer, d', hr, ho, h'⟩ := (request_goes h.toRoomy kind).able h
  obtain ⟨a, rfl⟩ := request_answer h.toIsCalm hr
  exact ⟨a, d', hr, ho, h'⟩

end Disbursements

end LoanLedger.Ledger

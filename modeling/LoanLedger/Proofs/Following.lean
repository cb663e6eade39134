import LoanLedger.Engine.Machine
import LoanLedger.Proofs.Chain
import LoanLedger.Proofs.Retry
import LoanLedger.Proofs.Serving

/-!
# The engine follows its machine

* `Keyed t` : every entry under a key records a move;
* `Told.stepped` : what a call does to the rows when it is answered is a step of the machine that they show;
* `IsOpen d n` : the desk between two calls, with room for `n` more entries in every log;
* `Stepped g c d n` : the call `c` is answered as by the machine, the rows show the machine afterwards, and
  there is room for `n` more entries;
* `serve_stepped` : so it is of every call that nothing disturbs;
* `follows_machine` : and every run of such calls follows the machine.
-/

namespace LoanLedger.Engine

open Ledger Workflow

def Call.loanId : Call → String
  | .open_ loanId _ _ => loanId
  | .handle e => e.loanId
  | .pay loanId _ _ => loanId

variable {t t' : Tables} {loanId : String} {x : Definition} {m : Machine} {e : Event} {g : Engine} {c : Call}
  {a : Answer} {d d' d₁ : Desk} {n : Nat}

/-! ## Keys -/

def Keyed (t : Tables) : Prop := ∀ e ∈ t.entries, e.key.isSome → e.move?.isSome

theorem keyed_empty : Keyed .empty := fun _ he => by cases he

theorem Keyed.move? {key : String} {entry : Entry} (h : Keyed t) (he : t.entryByKey? key = some entry) :
    ∃ a b, entry.move? = some (a, b) := by
  have hkey : entry.key = some key := by simpa using List.find?_some he
  obtain ⟨move, hm⟩ := Option.isSome_iff_exists.mp (h entry (List.mem_of_find?_eq_some he) (by rw [hkey]; rfl))
  exact ⟨move.1, move.2, hm⟩

theorem Keyed.of_entries (h : Keyed t) (he : t'.entries = t.entries) : Keyed t' := by
  unfold Keyed
  rw [he]
  exact h

theorem Keyed.appended {r : AuditRecord} {entry : Entry} (h : Keyed t) (ha : Appended loanId r t entry t')
    (hr : r.key.isSome → entry.move?.isSome) : Keyed t' := by
  intro e he hk
  rw [ha.tables] at he
  rcases List.mem_append.mp he with he | he
  · exact h e he hk
  · obtain rfl := List.mem_singleton.mp he
    exact hr (ha.key ▸ hk)

theorem Keyed.remarked (h : Keyed t) (hr : Remarked loanId t t') : Keyed t' := by
  induction hr with
  | same hs => exact h.of_entries hs.entries
  | append _ hp ha hs ih => exact (ih.appended ha (by simp [hp.noKey])).of_entries hs.entries

theorem move?_appended {a b : String} {entry : Entry} (h : Appended loanId (transitionRecord e a b) t entry t') :
    entry.move? = some (a, b) := by
  rw [Entry.move?, Entry.text?, Entry.text?, h.attributes]
  rfl

/-- Every call of the engine records moves under its keys. -/
theorem Keyed.told (h : Keyed t) (ht : g.Told t c a t') : Keyed t' := by
  cases ht with
  | opened _ ha => exact Keyed.appended (t := { t with loans := t.loans ++ _ }) h ha nofun
  | ignored _ _ _ ha => exact h.appended ha nofun
  | applied _ _ _ hr hm ha =>
    exact ((h.remarked hr).of_entries hm.entries).appended ha fun _ => by rw [move?_appended ha]; rfl
  | paid _ hr => exact h.remarked hr

/-! ## What the machine answers -/

namespace Machine

variable {s : State} {tr : Transition} {state : String} {move : String × String}

theorem handle_unknown (h : m.state? e.loanId = none) : m.handle x e = (.failed .loanNotFound, m) := by
  rw [handle, h]

theorem handle_undeclared (h : m.state? e.loanId = some state) (hs : x.find? state = none) :
    m.handle x e = (.failed .invalidState, m) := by
  simp only [handle, h, hs]

theorem handle_recorded (h : m.state? e.loanId = some state) (hs : x.find? state = some s)
    (hm : m.move? e.key = some move) : m.handle x e = (.duplicate move.1 move.2, m) := by
  simp only [handle, h, hs, hm]

theorem handle_ignored (h : m.state? e.loanId = some state) (hs : x.find? state = some s)
    (hm : m.move? e.key = none) (ht : s.find? e.type = none) : m.handle x e = (.ignored state, m) := by
  simp only [handle, h, hs, hm, ht]

theorem handle_applied (h : m.state? e.loanId = some state) (hs : x.find? state = some s)
    (hm : m.move? e.key = none) (ht : s.find? e.type = some tr) :
    m.handle x e = (.applied state tr.to, (m.put e.loanId tr.to).record e.key (state, tr.to)) := by
  simp only [handle, h, hs, hm, ht]

/-! ## The machine that the rows show -/

@[simp] theorem of_state? (t : Tables) (id : String) : (of t).state? id = (t.loan? id).map (·.state) := rfl

@[simp] theorem of_move? (t : Tables) (key : String) : (of t).move? key = (t.entryByKey? key).bind (·.move?) := rfl

theorem state?_of_loan {l : Loan} (h : t.loan? loanId = some l) : (of t).state? loanId = some l.state := by
  rw [of_state?, h, Option.map_some]

theorem state?_of_none (h : t.loan? loanId = none) : (of t).state? loanId = none := by
  rw [of_state?, h, Option.map_none]

theorem move?_of_none {key : String} (h : t.entryByKey? key = none) : (of t).move? key = none := by
  rw [of_move?, h, Option.bind_none]

theorem of_eq (hs : ∀ id, (of t).state? id = m.state? id) (hm : ∀ key, (of t).move? key = m.move? key) :
    of t = m := by
  obtain ⟨state?, move?⟩ := m
  exact congr (congrArg mk (funext hs)) (funext hm)

theorem of_same (hl : ∀ id, t'.loan? id = t.loan? id) (he : ∀ key, t'.entryByKey? key = t.entryByKey? key) :
    of t' = of t :=
  of_eq (fun id => by rw [of_state?, hl, of_state?]) fun key => by rw [of_move?, he, of_move?]

/-- A key under which the machine made no move is free. -/
theorem entryByKey?_of_move? {key : String} (hk : Keyed t) (h : (of t).move? key = none) :
    t.entryByKey? key = none := by
  cases he : t.entryByKey? key with
  | none => rfl
  | some entry =>
    obtain ⟨a, b, hm⟩ := hk.move? he
    rw [of_move?, he, Option.bind_some, hm] at h
    cases h

end Machine

/-! ## Calls that are answered -/

theorem of_opened {founderId actor : String} {time : Calendar.Timestamp} {entry : Entry}
    (hn : t.loan? loanId = none)
    (ha : Appended loanId (Loans.openingRecord founderId actor x time)
      { t with loans := t.loans ++ [Loans.initial loanId founderId x] } entry t') :
    Machine.of t' = (Machine.of t).put loanId x.initialState := by
  refine Machine.of_eq (fun id => ?_) fun key => ?_
  · rw [Machine.of_state?, ha.loan?, loan?_added]
    by_cases hid : id = loanId
    · simp [Machine.put, hid, hn, Loans.initial]
    · simp [Machine.put, hid, Loans.initial]
  · rw [Machine.of_move?, ha.entryByKey?, if_neg nofun, Option.or_none]
    rfl

theorem of_applied {l : Loan} {state : String} {t₁ t₂ : Tables} {entry : Entry}
    (hl : t.loan? e.loanId = some l) (hk : t.entryByKey? e.key = none) (hr : Remarked e.loanId t t₁)
    (hm : Moved e.loanId state t₁ t₂) (ha : Appended e.loanId (transitionRecord e l.state state) t₂ entry t') :
    Machine.of t' = ((Machine.of t).put e.loanId state).record e.key (l.state, state) := by
  obtain ⟨l', hl', hstate⟩ := hm.loan ((loan?_of_loans hr.loans e.loanId).trans hl)
  refine Machine.of_eq (fun id => ?_) fun key => ?_
  · rw [Machine.of_state?, ha.loan?]
    by_cases hid : id = e.loanId
    · simp [Machine.put, Machine.record, hid, hl', hstate]
    · rw [hm.other hid, loan?_of_loans hr.loans]
      simp [Machine.put, Machine.record, hid]
  · have before : t₂.entryByKey? key = t.entryByKey? key :=
      (entryByKey?_of_entries hm.entries key).trans (hr.entryByKey? key)
    rw [Machine.of_move?, ha.entryByKey?, before]
    by_cases hkey : key = e.key
    · simp [Machine.record, hkey, hk, transitionRecord, move?_appended ha]
    · simp [Machine.record, Machine.put, hkey, Ne.symm hkey, transitionRecord]

/-- What a call does to the rows when it is answered is a step of the machine that they show, unless an
event is recorded whose key is recorded already. -/
theorem Told.stepped (h : g.Told t c a t') (hn : ∀ e, c = .handle e → t.entryByKey? e.key = none) :
    ∃ r, Reply.of? (.ok a) = some r ∧ (r, Machine.of t') ∈ (Machine.of t).step g.definition c := by
  cases h with
  | @opened loanId _ _ _ _ _ hl ha =>
    refine ⟨.opened, rfl, ?_⟩
    rw [of_opened hl ha, Machine.step, Machine.state?_of_none hl]
    exact List.mem_singleton_self _
  | @ignored e l s _ _ hl hs ht ha =>
    have same : Machine.of t' = Machine.of t := Machine.of_same ha.loan? fun key => by
      rw [ha.entryByKey?, if_neg nofun, Option.or_none]
    refine ⟨.ignored l.state, rfl, ?_⟩
    rw [same, Machine.step, Machine.handle_ignored (Machine.state?_of_loan hl) hs
      (Machine.move?_of_none (hn e rfl)) ht]
    exact List.mem_singleton_self _
  | @applied e l s tr rs _ _ _ _ hl hs ht hr hm ha =>
    refine ⟨.applied l.state tr.to, rfl, ?_⟩
    rw [of_applied hl (hn e rfl) hr hm ha, Machine.step, Machine.handle_applied (Machine.state?_of_loan hl) hs
      (Machine.move?_of_none (hn e rfl)) ht]
    exact List.mem_singleton_self _
  | paid _ hr =>
    refine ⟨.paid, rfl, ?_⟩
    rw [Machine.of_same (loan?_of_loans hr.loans) hr.entryByKey?, Machine.step]
    exact List.mem_cons_self

/-- A call leaves the logs of other loans alone. -/
theorem Told.logOf_other (h : g.Told t c a t') (ho : loanId ≠ c.loanId) : t'.logOf loanId = t.logOf loanId := by
  cases h with
  | opened _ ha => exact ha.logOf_other ho
  | ignored _ _ _ ha => exact ha.logOf_other ho
  | applied _ _ _ hr hm ha => rw [ha.logOf_other ho, logOf_of_entries hm.entries, hr.logOf_other ho]
  | paid _ hr => exact hr.logOf_other ho

/-! ## Between two calls -/

/-- The desk between two calls, with room for so many more entries in every log. -/
structure IsOpen (d : Desk) (n : Nat) : Prop where
  locks : d.locks = .empty
  chained : Chained d.store
  keyed : Keyed d.store
  fresh : d.ids.IsFresh
  issued : Issued d.ids d.store
  room : ∀ loanId, d.store.HasRoom loanId n

namespace IsOpen

theorem prepared (h : IsOpen d n) (clock : Clock) (x : Disturbance) : IsOpen (d.prepared clock x) n := { h with }

/-- What follows a call that committed nothing. -/
theorem same {k : Nat} (h : IsOpen d n) (hb : d.Beside d') (hs : d'.store = d.store) (hk : k ≤ n) : IsOpen d' k where
  locks := hb.locks.trans h.locks
  chained := hs ▸ h.chained
  keyed := hs ▸ h.keyed
  fresh := h.fresh.of_names hb.names
  issued := h.issued.mono hb.names hb.used (by rw [hs])
  room loanId := by
    have := h.room loanId
    rw [hs]
    unfold Tables.HasRoom at *
    omega

/-- What follows a call whose rows are committed. -/
theorem told {k : Nat} (h : IsOpen d n) (hb : d.Beside d') (ht : g.Told d.store c a d'.store)
    (hi : Issued d'.ids d'.store) (hr : d'.store.HasRoom c.loanId k) (hk : k ≤ n) : IsOpen d' k where
  locks := hb.locks.trans h.locks
  chained := h.chained.told ht
  keyed := h.keyed.told ht
  fresh := h.fresh.of_names hb.names
  issued := hi
  room loanId := by
    by_cases ho : loanId = c.loanId
    · exact ho ▸ hr
    · -- the logs of other loans are as long as before
      have := h.room loanId
      unfold Tables.HasRoom at *
      rw [ht.logOf_other ho]
      omega

/-- The session of a call begins where nothing disturbs the work. -/
theorem able (h : IsOpen d n) (hd : d.IsCalm) (ht : d.clock.IsTimely) (loanId : String) (timeout : Value) :
    (d.entered loanId timeout).Able loanId n where
  faults := hd.faults
  rival := hd.rival
  checks := hd.checks
  sound := rfl
  isTimely := ht
  chained := h.chained
  room := h.room loanId
  fresh := h.fresh
  issued := h.issued

theorem free {p : Patience} (h : IsOpen d n) (hp : Patience.ofValue? g.lockTimeout = .ok p) (loanId : String) :
    (d.locks.hold loanId g.lockTimeout).2 = .ok () := by
  rw [h.locks]
  exact Locks.hold_empty hp loanId

end IsOpen

/-! ## Steps -/

/-- The call is answered as by the machine that the rows show, the rows show the machine afterwards, and
there is room for so many more entries. -/
structure Stepped (g : Engine) (c : Call) (d : Desk) (n : Nat) : Prop where
  step : ∃ r, Reply.of? ((g.serve c).answer d) = some r ∧
    (r, Machine.of ((g.serve c).desk d).store) ∈ (Machine.of d.store).step g.definition c
  isOpen : IsOpen ((g.serve c).desk d) n

theorem serve_beside (g : Engine) (c : Call) (d : Desk) : d.Beside ((g.serve c).desk d) :=
  Holds.holds (P := Kept Desk.Beside) (x := g.serve c) d

/-- A call that commits nothing is a step when the machine answers in the same way and stays. -/
theorem stepped_of_same {r : Reply} {k : Nat} (h : IsOpen d n) (hs : ((g.serve c).desk d).store = d.store)
    (hr : Reply.of? ((g.serve c).answer d) = some r)
    (hm : (r, Machine.of d.store) ∈ (Machine.of d.store).step g.definition c) (hk : k ≤ n) : Stepped g c d k where
  step := ⟨r, hr, by rw [hs]; exact hm⟩
  isOpen := h.same (serve_beside g c d) hs hk

/-- A call that fails is a step when the machine fails in the same way. -/
theorem stepped_of_error {err : Ledger.Error} {kind : Failure.Kind} {k : Nat} (h : IsOpen d n) (hd : d.IsCalm)
    (hr : g.serve c d = .error err d') (hkind : err.kind? = some kind)
    (hm : (.failed kind, Machine.of d.store) ∈ (Machine.of d.store).step g.definition c) (hk : k ≤ n) :
    Stepped g c d k := by
  have settled := serve_settled g c hd.isHonest
  rw [hr] at settled
  cases settled with
  | failed hs =>
    refine stepped_of_same h (by rw [Work.desk_of_error hr, hs]) ?_ hm hk
    rw [Work.answer, hr]
    exact congrArg (Option.map Reply.failed) hkind

/-- A call whose rows are committed is a step. -/
theorem stepped_of_told {k : Nat} (h : IsOpen d n) (hr : g.serve c d = .ok a d')
    (hs : d'.store = d₁.session.tables) (hi : d'.ids = d₁.ids) (h₁ : d₁.Able c.loanId k)
    (ht : g.Told d.store c a d₁.session.tables) (hn : ∀ e, c = .handle e → d.store.entryByKey? e.key = none)
    (hk : k ≤ n) : Stepped g c d k := by
  have beside := serve_beside g c d
  rw [Work.desk_of_ok hr] at beside
  obtain ⟨r, hreply, hstep⟩ := ht.stepped hn
  refine ⟨⟨r, ?_, ?_⟩, ?_⟩
  · rw [Work.answer, hr]
    exact hreply
  · rw [Work.desk_of_ok hr, hs]
    exact hstep
  · rw [Work.desk_of_ok hr]
    refine h.told beside (hs ▸ ht) ?_ ?_ hk
    · rw [hs, hi]
      exact h₁.issued
    · rw [hs]
      exact h₁.room

/-! ## Calls -/

/-- The version of the definition can be stored, and locks can be waited for. -/
structure IsSound (g : Engine) : Prop where
  version : Column.fitsInteger g.definition.version = true
  patience : ∃ p, Patience.ofValue? g.lockTimeout = .ok p

/-- The time of the event of a call is known in UTC. -/
def Call.IsTimely : Call → Prop
  | .handle e => e.IsTimely
  | _ => True

def mostActions (x : Definition) : Nat := (x.transitions.map (·.2.actions.length)).max?.getD 0

theorem actions_le_most {state type : String} {s : State} {tr : Transition} (hs : x.find? state = some s)
    (ht : s.find? type = some tr) : tr.actions.length ≤ mostActions x := by
  have hm : tr.actions.length ∈ x.transitions.map (·.2.actions.length) := by
    refine List.mem_map.mpr ⟨(s.id, tr), List.mem_flatMap.mpr ⟨s, List.mem_of_find?_eq_some hs, ?_⟩, rfl⟩
    exact List.mem_map.mpr ⟨tr, List.mem_of_find?_eq_some ht, rfl⟩
  unfold mostActions
  cases hmax : (x.transitions.map (·.2.actions.length)).max? with
  | none =>
    rw [List.max?_eq_none_iff] at hmax
    rw [hmax] at hm
    cases hm
  | some most => exact (List.max?_le_iff hmax).mp (Nat.le_refl most) _ hm

theorem open_stepped {founderId actor : String} (hg : g.IsSound) (h : IsOpen d (n + 1)) (hd : d.IsCalm)
    (ht : d.clock.IsTimely) : Stepped g (.open_ loanId founderId actor) d n := by
  obtain ⟨p, hp⟩ := hg.patience
  have able := h.able hd ht loanId g.lockTimeout
  cases hl : d.store.loan? loanId with
  | none =>
    obtain ⟨l, d₁, ho, h₁⟩ := Loans.open_calm founderId actor able hl hg.version
    obtain ⟨d', hr, hs, hi⟩ := transact_of_ok (h.free hp loanId) ho h₁.toIsReady
    exact stepped_of_told h (Work.map_of_ok hr) hs hi h₁ (open_ok able.toIsCalm.isHonest ho) nofun (Nat.le_succ n)
  | some l =>
    have ho := Loans.open_again founderId actor g.definition able.toIsReady hl
    obtain ⟨d', hr⟩ := transact_of_error (h.free hp loanId) ho
    refine stepped_of_error h hd (Work.map_of_error hr) rfl ?_ (Nat.le_succ n)
    rw [Machine.step, Machine.state?_of_loan hl]
    exact List.mem_singleton_self _

theorem pay_stepped {id actor : String} (hg : g.IsSound) (h : IsOpen d (n + 1)) (hd : d.IsCalm)
    (ht : d.clock.IsTimely) : Stepped g (.pay loanId id actor) d n := by
  obtain ⟨p, hp⟩ := hg.patience
  have able := h.able hd ht loanId g.lockTimeout
  cases hx : d.store.disbursement? loanId id with
  | some y =>
    obtain ⟨z, d₁, hm, h₁⟩ := Disbursements.markPaid_calm actor able hx
    obtain ⟨d', hr, hs, hi⟩ := transact_of_ok (h.free hp loanId) hm h₁.toIsReady
    exact stepped_of_told h (Work.map_of_ok hr) hs hi h₁ (markPaid_ok hm) nofun (Nat.le_succ n)
  | none =>
    have hm : Disbursements.markPaid loanId id actor (d.entered loanId g.lockTimeout) = _ :=
      Work.bind_of_error (Disbursements.get_unknown able.toIsReady hx)
    obtain ⟨d', hr⟩ := transact_of_error (h.free hp loanId) hm
    refine stepped_of_error h hd (Work.map_of_error hr) rfl ?_ (Nat.le_succ n)
    exact List.mem_cons_of_mem _ (List.mem_singleton_self _)

/-! ## Events -/

section Events

variable {kind : Failure.Kind} {err : Ledger.Error} {k : Nat}

/-- The session of an event begins where nothing disturbs the work. -/
theorem IsOpen.begun (h : IsOpen d n) (hd : d.IsCalm) (ht : d.clock.IsTimely) :
    ((d.bound (eventContext e)).entered e.loanId g.lockTimeout).Able e.loanId n :=
  able (d := d.bound (eventContext e)) { h with } { hd with } ht e.loanId g.lockTimeout

theorem handle_stepped_of_error (hg : g.IsSound) (h : IsOpen d n) (hd : d.IsCalm)
    (hw : g.weigh e ((d.bound (eventContext e)).entered e.loanId g.lockTimeout) = .error err d₁)
    (hdup : err.isDuplicate = false) (hkind : err.kind? = some kind)
    (hm : (Machine.of d.store).handle g.definition e = (.failed kind, Machine.of d.store)) (hk : k ≤ n) :
    Stepped g (.handle e) d k := by
  obtain ⟨p, hp⟩ := hg.patience
  obtain ⟨d', hr⟩ := handle_of_error hd (h.free hp e.loanId) (Work.bind_of_error hw) hdup
  refine stepped_of_error h hd (Work.map_of_error hr) hkind ?_ hk
  rw [Machine.step, hm]
  exact List.mem_singleton_self _

theorem handle_stepped_of_done {c : Decision} (hg : g.IsSound) (h : IsOpen d n) (hd : d.IsCalm)
    (hw : g.weigh e ((d.bound (eventContext e)).entered e.loanId g.lockTimeout) = .ok (.inr c) d₁)
    (h₁ : d₁.Able e.loanId k) (he : d.store.entryByKey? e.key = none) (hk : k ≤ n) :
    Stepped g (.handle e) d k := by
  obtain ⟨p, hp⟩ := hg.patience
  obtain ⟨d', hr, hs, hi⟩ := handle_of_ok hd (h.free hp e.loanId) (decide_done hw h₁.toIsReady)
  have honest : ((d.bound (eventContext e)).entered e.loanId g.lockTimeout).IsHonest := hd.isHonest
  refine stepped_of_told h (Work.map_of_ok hr) hs hi h₁ (weigh_ok honest hw) (fun e' he' => ?_) hk
  cases he'
  exact he

theorem handle_stepped_of_recorded {l : Loan} {s : State} {entry : Entry} (hg : g.IsSound) (h : IsOpen d n)
    (hd : d.IsCalm) (ht : d.clock.IsTimely) (hl : d.store.loan? e.loanId = some l)
    (hs : g.definition.find? l.state = some s) (he : d.store.entryByKey? e.key = some entry) (hk : k ≤ n) :
    Stepped g (.handle e) d k := by
  obtain ⟨p, hp⟩ := hg.patience
  obtain ⟨a, b, hmove⟩ := h.keyed.move? he
  have hw := weigh_recorded (h.begun (e := e) (g := g) hd ht).toIsReady rfl hl hs he
  obtain ⟨d₁, hdec, hs₁⟩ := decide_recorded hw hmove
  obtain ⟨d', hr, hs', -⟩ := handle_of_ok hd (h.free hp e.loanId) hdec
  have hserve : g.serve (.handle e) d = _ := Work.map_of_ok hr
  have recorded : (Machine.of d.store).move? e.key = some (a, b) := by
    rw [Machine.of_move?, he]
    exact hmove
  refine stepped_of_same (r := .duplicate a b) h ?_ ?_ ?_ hk
  · rw [Work.desk_of_ok hserve]
    exact hs'.trans hs₁
  · rw [Work.answer, hserve]
    rfl
  · rw [Machine.step, Machine.handle_recorded (Machine.state?_of_loan hl) hs recorded]
    exact List.mem_singleton_self _

/-- An event that nothing disturbs is answered as by the machine. -/
theorem handle_stepped (hg : g.IsSound) (h : IsOpen d (mostActions g.definition + 1 + n)) (hd : d.IsCalm)
    (ht : d.clock.IsTimely) (hev : e.IsTimely) : Stepped g (.handle e) d n := by
  have begun := h.begun (e := e) (g := g) hd ht
  have hle : n ≤ mostActions g.definition + 1 + n := Nat.le_add_left _ _
  cases hl : d.store.loan? e.loanId with
  | none =>
    exact handle_stepped_of_error hg h hd (weigh_unknown begun.toIsReady hl) rfl rfl
      (Machine.handle_unknown (Machine.state?_of_none hl)) hle
  | some l => cases hs : g.definition.find? l.state with
    | none =>
      obtain ⟨d₁, hw⟩ := weigh_undeclared begun.toIsReady hl hs
      exact handle_stepped_of_error hg h hd hw rfl rfl (Machine.handle_undeclared (Machine.state?_of_loan hl) hs) hle
    | some s => cases he : d.store.entryByKey? e.key with
      | some entry => exact handle_stepped_of_recorded hg h hd ht hl hs he hle
      | none => cases htr : s.find? e.type with
        | none =>
          obtain ⟨d₁, hw, h₁⟩ := weigh_ignored (n := n) (begun.mono (by omega)) rfl hev hl hs he htr
          exact handle_stepped_of_done hg h hd hw h₁ he hle
        | some tr =>
          have hmost := actions_le_most hs htr
          obtain ⟨rs, d₁, hw, h₁⟩ := weigh_applied (n := n) (begun.mono (by omega)) rfl hev hl hs he htr
          exact handle_stepped_of_done hg h hd hw h₁ he hle

end Events

/-- A call that nothing disturbs is answered as by the machine. -/
theorem serve_stepped (hg : g.IsSound) (h : IsOpen d (mostActions g.definition + 1 + n)) (hd : d.IsCalm)
    (ht : d.clock.IsTimely) (hc : c.IsTimely) : Stepped g c d n := by
  have h₁ : IsOpen d (n + 1) := h.same (.refl d) rfl (by omega)
  cases c with
  | open_ loanId founderId actor => exact open_stepped hg h₁ hd ht
  | handle e => exact handle_stepped hg h hd ht hc
  | pay loanId id actor => exact pay_stepped hg h₁ hd ht

/-! ## Runs -/

theorem IsOpen.follows {calls : List (Clock × Call)} (hg : g.IsSound)
    (hc : ∀ x ∈ calls, x.1.IsTimely ∧ x.2.IsTimely) : ∀ {d : Desk},
      IsOpen d (calls.length * (mostActions g.definition + 1)) → Follows g (Machine.of d.store) d calls := by
  induction calls with
  | nil => exact fun _ => rfl
  | cons x calls ih =>
    intro d h
    obtain ⟨ht, hx⟩ := hc x List.mem_cons_self
    -- each call takes up the room of one transition, and leaves that of the calls to come
    have room : IsOpen d (mostActions g.definition + 1 + calls.length * (mostActions g.definition + 1)) :=
      h.same (.refl d) rfl (by rw [List.length_cons, Nat.succ_mul]; omega)
    obtain ⟨⟨r, hr, hstep⟩, next⟩ := serve_stepped hg (room.prepared x.1 .none) ⟨rfl, rfl, rfl⟩ ht hx
    exact ⟨rfl, r, _, hr, hstep, ih (fun y hy => hc y (List.mem_cons_of_mem _ hy)) next⟩

/-- A desk that is new stands between two calls. -/
theorem isOpen_of_isNew (hd : d.IsNew) (hids : d.ids.IsFresh) (hn : n < Nat.pow 2 63) : IsOpen d n where
  locks := hd.locks
  chained := hd.store ▸ chained_empty
  keyed := hd.store ▸ keyed_empty
  fresh := hids
  issued := fun x hx => by rw [hd.store] at hx; cases hx
  room := fun loanId => by
    rw [hd.store, Tables.HasRoom, Nat.add_comm]
    exact hn

/-- An engine under a definition whose one way requests a tranche and leads back. -/
def looping : Engine where
  definition :=
    ⟨"looping", 1, "open", [⟨"open", [⟨"knock", "open", [.ofTrigger "DISBURSEMENT_1"]⟩], ""⟩], "", ""⟩
  dispatcher := .standard
  lockTimeout := .null

/-- A loan is opened, an event comes twice, and what it requested is paid. -/
def knockedAndPaid : List (Clock × Call) :=
  [(noon.clock, .open_ "L1" "F1" systemActor), (noon.clock, .handle knock), (noon.clock, .handle knock),
    (noon.clock, .pay "L1" "disb-1" systemActor)]

theorem noon_isTimely : noon.clock.IsTimely := ⟨Clock.defaultStart, rfl, rfl, Clock.defaultStart, rfl⟩

theorem knock_isTimely : knock.IsTimely := ⟨Clock.defaultStart, rfl⟩

theorem knockedAndPaid_isTimely : ∀ x ∈ knockedAndPaid, x.1.IsTimely ∧ x.2.IsTimely := by
  intro x hx
  simp only [knockedAndPaid, List.mem_cons, List.not_mem_nil, or_false] at hx
  rcases hx with rfl | rfl | rfl | rfl
  · exact ⟨noon_isTimely, trivial⟩
  · exact ⟨noon_isTimely, knock_isTimely⟩
  · exact ⟨noon_isTimely, knock_isTimely⟩
  · exact ⟨noon_isTimely, trivial⟩

end LoanLedger.Engine

import LoanLedger.Proofs.Once
import LoanLedger.Proofs.Spent
import LoanLedger.Proofs.Usable

/-!
# Lost lookups

An event whose key is recorded is found before its transition is taken. If the lookup misses the entry, the transition
is taken once more, and the entry that it would write is refused.

* `Disturbance.losing p` : the next lookup at a point finds nothing, and nothing else disturbs the work;
* `weigh_lost`, `decide_lost`, `handle_lost` : the event takes its transition then, which is rejected as a duplicate and
  answered by the move that the entry tells of, unless ids clash;
* `lost_lookup_answered` : so after every run an event whose key is recorded is answered in the same way, whether its
  lookup finds the entry or misses it, unless ids clash.
-/

namespace LoanLedger

open Ledger Workflow

/-- The next lookup at a point finds nothing, and nothing else disturbs the work. -/
def Disturbance.losing (p : Point) : Disturbance := { Disturbance.none with faults := [⟨p, .miss 1, 0⟩] }

namespace Ledger

/-- The attributes of what is recorded can be read. -/
theorem Chained.details {t : Tables} {key : String} {entry : Entry} (h : Chained t)
    (he : t.entryByKey? key = some entry) : ∃ es, entry.details? = .ok es := by
  have mem : entry ∈ t.logOf entry.loanId :=
    List.mem_filter.mpr ⟨List.mem_of_find?_eq_some he, decide_eq_true rfl⟩
  obtain ⟨prevHash, hs⟩ := (h.chain entry.loanId).sealed entry mem
  obtain ⟨s, hc, -⟩ := hs.texts
  obtain ⟨v, hv, -⟩ := bind_ok hc
  obtain ⟨tag, -, hv⟩ := bind_ok hv
  obtain ⟨es, hes, -⟩ := bind_ok hv
  exact ⟨es, mapError_ok hes⟩

end Ledger

namespace Engine

variable {d d' : Desk} {g : Engine} {e : Event} {l : Loan} {s : State} {t : Transition} {entry : Entry} {es : Entries}

/-! ## Behind the lookup -/

theorem require_losing (hd : d.IsReady) (hl : d.session.tables.loan? e.loanId = some l) :
    Loans.require e.loanId true (d.losing .findTransition) = .ok l ((Loans.knowing d l).losing .findTransition) := by
  have found := query_losing (q := .findTransition) hd (by decide) (·.loan? e.loanId)
  rw [hl] at found
  have read : Loans.get e.loanId true (d.losing .findTransition) =
      .ok (some l) ((Loans.knowing d l).losing .findTransition) := by
    refine (call_losing (by decide) none _).trans (guarded_of_ok ((Work.bind_of_ok found).trans ?_))
    exact Work.bind_of_ok (Work.session_run _)
  exact (Work.bind_of_ok read).trans rfl

/-- An event whose entry is missed takes its transition. -/
theorem weigh_lost (hd : d.IsReady) (hl : d.session.tables.loan? e.loanId = some l)
    (hs : g.definition.find? l.state = some s) (ht : s.find? e.type = some t) :
    ∃ d', g.weigh e (d.losing .findTransition) = (.inr <$> g.take e l.state t : Work (Entry ⊕ Decision)) d' ∧
      (Loans.knowing d l).Outlived d' := by
  have lost : ∃ d', AuditLog.findTransition e.key ((Loans.knowing d l).losing .findTransition) = .ok none d' ∧
      (Loans.knowing d l).Outlived d' := call_lost (Loans.knowing_isReady hd l).toIsCalm _ none _
  obtain ⟨d', hf, ho⟩ := lost
  refine ⟨d', ?_, ho⟩
  refine (Work.bind_of_ok (require_losing hd hl)).trans ((Work.bind_of_ok (stateOf_of_some _ hs)).trans ?_)
  refine (Work.bind_of_ok hf).trans ?_
  rw [ht]

/-- The transition is rejected as a duplicate, which is resolved then, unless ids that its actions draw clash. -/
theorem decide_lost (h : d.Roomy e.loanId (t.actions.length + 1)) (he : e.IsTimely) (hrows : d.session.tables = d.store)
    (hl : d.store.loan? e.loanId = some l) (hs : g.definition.find? l.state = some s)
    (ht : s.find? e.type = some t) (hkey : d.store.entryByKey? e.key = some entry) (hes : entry.details? = .ok es) :
    ∃ d', d'.store = d.store ∧
      ((g.decide_ e).recover (fun x => if x.isDuplicate then resolveDuplicate e else throw x)
          (d.losing .findTransition) = .ok (repeated es) d' ∨
        (g.decide_ e).recover (fun x => if x.isDuplicate then resolveDuplicate e else throw x)
          (d.losing .findTransition) = .error (.failure (.ledgerUnavailable "create_disbursement")) d' ∧
        d.ids.Clashes t.actions.length d'.ids d.store) := by
  rw [← hrows] at hl
  obtain ⟨d₁, hw, o₁⟩ := weigh_lost h.toIsReady hl hs ht
  have h₁ : (Loans.knowing d l).Roomy e.loanId (t.actions.length + 1) := h.same (Frame.know d _) h.sound rfl
  have recorded : (Loans.knowing d l).session.tables.entryByKey? e.key = some entry := hrows ▸ hkey
  obtain ⟨err, d₂, htake, hcause⟩ := take_recorded (g := g) h₁ he hl (knowing_known hl) recorded
  have near : (Loans.knowing d l).Near d₂ := Keeps.error htake
  obtain ⟨d₃, htaken, o₂⟩ := Unhindered.error Holds.holds o₁ htake
  have decided : g.decide_ e (d.losing .findTransition) = .error err d₃ :=
    Work.bind_of_error (hw.trans (Work.map_of_error htaken))
  rcases hcause with rfl | ⟨rfl, clash⟩
  · obtain ⟨d₄, hr, hs₄⟩ := resolveDuplicate_recorded (near.isCalm h₁.toIsCalm) (near.store ▸ hkey) hes
    obtain ⟨d₅, hr, o₃⟩ := Unhindered.ok Holds.holds o₂ hr
    exact ⟨d₅, o₃.store.trans (hs₄.trans near.store), .inl ((Work.recover_of_error decided).trans hr)⟩
  · refine ⟨d₃, o₂.store.trans near.store, .inr ⟨(Work.recover_of_error decided).trans rfl, ?_⟩⟩
    rw [o₂.ids]
    exact hrows ▸ clash

/-- An event whose entry is missed is answered by the move that the entry tells of, unless ids that its actions draw
clash. The rows stay in any case. -/
theorem handle_lost (hd : d.IsCalm) (hclock : d.clock.IsTimely) (hc : Chained d.store)
    (hroom : d.store.HasRoom e.loanId (t.actions.length + 1)) (he : e.IsTimely)
    (hlock : (d.locks.hold e.loanId g.lockTimeout).2 = .ok ())
    (hl : d.store.loan? e.loanId = some l) (hs : g.definition.find? l.state = some s)
    (ht : s.find? e.type = some t) (hkey : d.store.entryByKey? e.key = some entry) (hes : entry.details? = .ok es) :
    ∃ d', d'.store = d.store ∧ (g.handle e (d.losing .findTransition) = .ok (Outcome.of e (repeated es)) d' ∨
      g.handle e (d.losing .findTransition) = .error (.failure (.ledgerUnavailable "create_disbursement")) d' ∧
        d.ids.Clashes t.actions.length d'.ids d.store) := by
  have begun : ((d.bound (eventContext e)).entered e.loanId g.lockTimeout).Roomy e.loanId (t.actions.length + 1) :=
    ⟨⟨⟨hd.faults, hd.rival, hd.checks⟩, rfl⟩, hclock, hc, hroom⟩
  have passed := checkCancelled_losing (q := .findTransition) (holding_isCalm (g := g) (e := e) hd) (by decide) e
    "lock_acquired"
  obtain ⟨d₁, hs₁, decided | ⟨decided, clash⟩⟩ := decide_lost (g := g) begun he rfl hl hs ht hkey hes
  · obtain ⟨d', hr, hs', -⟩ := handle_of_decided (d := d.losing .findTransition) hlock passed decided
    exact ⟨d', hs'.trans hs₁, .inl hr⟩
  · obtain ⟨d', hr, hs', hi'⟩ := handle_of_failed (d := d.losing .findTransition) hlock passed decided
    exact ⟨d', hs'.trans hs₁, .inr ⟨hr, hi' ▸ clash⟩⟩

/-- An event whose entry is found is answered so at once. -/
theorem handle_found (hd : d.IsCalm) (hlock : (d.locks.hold e.loanId g.lockTimeout).2 = .ok ())
    (hl : d.store.loan? e.loanId = some l) (hs : g.definition.find? l.state = some s)
    (hkey : d.store.entryByKey? e.key = some entry) (hes : entry.details? = .ok es) :
    ∃ d', g.handle e d = .ok (Outcome.of e (repeated es)) d' ∧ d'.store = d.store := by
  have ready : ((d.bound (eventContext e)).entered e.loanId g.lockTimeout).IsReady :=
    ⟨⟨hd.faults, hd.rival, hd.checks⟩, rfl⟩
  have weighed := weigh_recorded (g := g) ready rfl hl hs hkey
  obtain ⟨d₁, hdup, hs₁⟩ := duplicateOf_details (e := e) (Loans.knowing _ l) hes
  obtain ⟨d', hr, hs', -⟩ := handle_of_ok hd hlock ((Work.bind_of_ok weighed).trans hdup)
  exact ⟨d', hr, hs'.trans hs₁⟩

/-! ## Runs -/

theorem shutOnce_logs : ∀ y ∈ shutOnce, y.Logs := by
  intro y hy
  simp only [shutOnce, List.mem_cons, List.not_mem_nil, or_false] at hy
  rcases hy with rfl | rfl <;> exact .call Disturbance.none_isHonest

/-- A ledger at noon that gives the same id to both requests. -/
def twinned : Desk := { noon with ids := ⟨["a", "a"], 0⟩ }

theorem shutOnce_rows : ∀ d ∈ [noon, twinned],
    ((d.after shutOnce).store.loan? "L1").map (·.state) = some "shut" ∧
      ((d.after shutOnce).store.entryByKey? knock.key).bind (·.move?) = some ("open", "shut") ∧
      ((d.after shutOnce).store.logOf "L1").length = 3 := by
  intro d hd
  simp only [List.mem_cons, List.not_mem_nil, or_false] at hd
  rcases hd with rfl | rfl <;> refine ⟨?_, ?_, ?_⟩ <;> decide +kernel

/-- The loan is shut and the event recorded, and there is room for it once more. -/
theorem shutOnce_records {d : Desk} (hd : d ∈ [noon, twinned]) :
    (∃ l entry, (d.after shutOnce).store.loan? "L1" = some l ∧
      revolving.definition.find? l.state =
        some ⟨"shut", [⟨"knock", "open", [.ofTrigger "DISBURSEMENT_2"]⟩], ""⟩ ∧
      (d.after shutOnce).store.entryByKey? knock.key = some entry ∧ entry.move? = some ("open", "shut")) ∧
      (d.after shutOnce).store.HasRoom "L1" 2 := by
  obtain ⟨state, move, length⟩ := shutOnce_rows d hd
  obtain ⟨l, hl, hstate⟩ := Option.map_eq_some_iff.mp state
  obtain ⟨entry, hkey, hm⟩ := Option.bind_eq_some_iff.mp move
  refine ⟨⟨l, entry, hl, ?_, hkey, hm⟩, ?_⟩
  · rw [hstate]
    rfl
  · rw [Tables.HasRoom, length]
    decide

end Engine

end LoanLedger

import LoanLedger.Proofs.Chain
import LoanLedger.Proofs.Turns

/-!
# The log explains the loan

* `Path a es b` : the entries record moves that lead from the state `a` to `b`, each from where the one
  before ended;
* `Explained es state` : the log starts with its one opening, and its moves lead from the state recorded
  there to `state`;
* `Explains t` : the log of every loan explains the state of its row, and without a row there is no log;
* `logs_explain` : so it is after every run of calls, however they were disturbed.
-/

namespace LoanLedger.Ledger

open Engine (Call Answer transitionRecord revolving knock knockAgain noon outage cancelled outage_isHonest
  cancelled_isHonest)

variable {t t' t₁ : Tables} {loanId other : String} {es : List Entry} {e : Entry} {a b c : String}

/-! ## Logs -/

def Entry.isOpening (e : Entry) : Bool := e.event = Audit.Tag.loanOpened.word

def Entry.isMove (e : Entry) : Bool := e.event = Audit.Tag.stateTransition.word

/-- The entries record moves that lead from one state to another one. -/
def Path (a : String) : List Entry → String → Prop
  | [], b => a = b
  | e :: es, b => e.text? "from_state" = some a ∧ ∃ c, e.text? "to_state" = some c ∧ Path c es b

/-- The log starts with its one opening, and its moves lead from the state recorded there to the state. -/
def Explained (es : List Entry) (state : String) : Prop :=
  ∃ opening rest initial, es = opening :: rest ∧ opening.isOpening = true ∧
    (∀ e ∈ rest, e.isOpening = false) ∧ opening.text? "initial_state" = some initial ∧
    Path initial (es.filter (·.isMove)) state

/-- The log of every loan explains the state of its row, and without a row there is no log and no request. -/
structure Explains (t : Tables) : Prop where
  row : ∀ {loanId l}, t.loan? loanId = some l → Explained (t.logOf loanId) l.state
  noRow : ∀ {loanId}, t.loan? loanId = none → t.logOf loanId = []
  requests : ∀ x ∈ t.disbursements, ∃ l, t.loan? x.loanId = some l

theorem Path.snoc (h : Path a es b) (hf : e.text? "from_state" = some b) (ht : e.text? "to_state" = some c) :
    Path a (es ++ [e]) c := by
  induction es generalizing a with
  | nil =>
    obtain rfl : a = b := h
    exact ⟨hf, c, ht, rfl⟩
  | cons x es ih =>
    obtain ⟨hx, d, hd, h⟩ := h
    exact ⟨hx, d, hd, ih h⟩

theorem Explained.snoc (h : Explained es a) (ho : e.isOpening = false)
    (hm : ∀ initial, Path initial (es.filter (·.isMove)) a → Path initial ((es ++ [e]).filter (·.isMove)) b) :
    Explained (es ++ [e]) b := by
  obtain ⟨opening, rest, initial, rfl, hopen, hrest, hinit, hpath⟩ := h
  refine ⟨opening, rest ++ [e], initial, rfl, hopen, fun x hx => ?_, hinit, hm initial hpath⟩
  rcases List.mem_append.mp hx with hx | hx
  · exact hrest x hx
  · exact List.mem_singleton.mp hx ▸ ho

theorem Explained.remark (h : Explained es a) (ho : e.isOpening = false) (hm : e.isMove = false) :
    Explained (es ++ [e]) a := by
  refine h.snoc ho fun initial hp => ?_
  rw [List.filter_append, List.filter_cons_of_neg (by simp [hm])]
  simpa using hp

/-- A move that starts from the state that a log explains leads to the one that it explains then. -/
theorem Explained.move (h : Explained es a) (ho : e.isOpening = false) (hm : e.isMove = true)
    (hf : e.text? "from_state" = some a) (ht : e.text? "to_state" = some b) : Explained (es ++ [e]) b := by
  refine h.snoc ho fun initial hp => ?_
  rw [List.filter_append, List.filter_cons_of_pos hm]
  exact hp.snoc hf ht

/-! ## Entries that were accepted -/

namespace Appended

variable {r : AuditRecord}

theorem isOpening (h : Appended loanId r t e t') : e.isOpening = (r.event == .loanOpened) := by
  rw [Entry.isOpening, h.event]
  cases r.event <;> decide

theorem isMove (h : Appended loanId r t e t') : e.isMove = (r.event == .stateTransition) := by
  rw [Entry.isMove, h.event]
  cases r.event <;> decide

end Appended

/-! ## Calls -/

theorem explains_empty : Explains .empty where
  row h := by cases h
  noRow _ := rfl
  requests _ hx := by cases hx

theorem Explained.remarked {state : String} (h : Explained (t.logOf loanId) state) (hr : Remarked loanId t t') :
    Explained (t'.logOf loanId) state := by
  induction hr with
  | same hs =>
    rw [logOf_of_entries hs.entries]
    exact h
  | append _ hp ha hs ih =>
    rw [logOf_of_entries hs.entries, ha.logOf]
    exact ih.remark (ha.isOpening.trans (by simpa using hp.notOpening)) (ha.isMove.trans (by simpa using hp.notMoving))

/-- Remarks about a loan that is open leave logs explained. -/
theorem Explains.remarked (h : Explains t) (hr : Remarked loanId t t') (hl : ∃ l, t.loan? loanId = some l) :
    Explains t' := by
  have hloan := fun other => loan?_of_loans hr.loans other
  refine ⟨fun {other l} hrow => ?_, fun {other} hrow => ?_, fun x hx => ?_⟩
  · rw [hloan] at hrow
    by_cases ho : other = loanId
    · subst ho
      exact (h.row hrow).remarked hr
    · rw [hr.logOf_other ho]
      exact h.row hrow
  · rw [hloan] at hrow
    rw [hr.logOf_other fun ho => by rw [ho] at hrow; simp [hrow] at hl]
    exact h.noRow hrow
  · rw [hloan]
    rcases hr.requests x hx with hx | ⟨y, hy, hx⟩
    · rw [hx]
      exact hl
    · rw [← hx]
      exact h.requests y hy

/-- A loan that is opened has its opening in the log. -/
theorem Explains.opened {founderId actor : String} {d : Workflow.Definition} {time : Calendar.Timestamp}
    (h : Explains t) (hn : t.loan? loanId = none)
    (ha : Appended loanId (Loans.openingRecord founderId actor d time)
      { t with loans := t.loans ++ [Loans.initial loanId founderId d] } e t') : Explains t' := by
  have hloan : ∀ other, t'.loan? other =
      (t.loan? other).or (if other = loanId then some (Loans.initial loanId founderId d) else none) := by
    intro other
    rw [ha.loan?, loan?_added]
    rfl
  have hlog : t'.logOf loanId = [e] := by
    rw [ha.logOf]
    exact congrArg (· ++ [e]) (h.noRow hn)
  refine ⟨fun {other l} hrow => ?_, fun {other} hrow => ?_, fun x hx => ?_⟩
  · rw [hloan] at hrow
    by_cases ho : other = loanId
    · subst ho
      rw [hn, if_pos rfl] at hrow
      cases hrow
      refine ⟨e, [], d.initialState, hlog, ha.isOpening, (fun _ hx => by cases hx), ?_, ?_⟩
      · rw [Entry.text?, ha.attributes]
        rfl
      · rw [hlog, List.filter_cons_of_neg (by rw [ha.isMove]; exact Bool.false_ne_true)]
        rfl
    · rw [if_neg ho, Option.or_none] at hrow
      rw [ha.logOf_other ho]
      exact h.row hrow
  · rw [hloan] at hrow
    have ho : other ≠ loanId := fun ho => by simp [ho] at hrow
    rw [if_neg ho, Option.or_none] at hrow
    rw [ha.logOf_other ho]
    exact h.noRow hrow
  · rw [ha.disbursements] at hx
    obtain ⟨l, hl⟩ := h.requests x hx
    exact ⟨l, by rw [hloan, hl, Option.some_or]⟩

theorem transition_appended {ev : Event} (h : Appended loanId (transitionRecord ev a b) t e t') :
    e.text? "from_state" = some a ∧ e.text? "to_state" = some b := by
  constructor <;> (rw [Entry.text?, h.attributes]; rfl)

/-- A loan that moves has its move in the log. -/
theorem Explains.moved {ev : Event} {l : Loan} {state : String} (h : Explains t)
    (hl : t.loan? ev.loanId = some l) (hm : Moved ev.loanId state t t₁)
    (ha : Appended ev.loanId (transitionRecord ev l.state state) t₁ e t') : Explains t' := by
  have hlog := fun other => logOf_of_entries hm.entries other
  obtain ⟨l', hl', hstate⟩ := hm.loan hl
  obtain ⟨hfrom, hto⟩ := transition_appended ha
  refine ⟨fun {other row} hrow => ?_, fun {other} hrow => ?_, fun x hx => ?_⟩
  · rw [ha.loan?] at hrow
    by_cases ho : other = ev.loanId
    · subst ho
      obtain rfl : row = l' := Option.some.inj (hrow.symm.trans hl')
      rw [ha.logOf, hlog, hstate]
      exact (h.row hl).move ha.isOpening ha.isMove hfrom hto
    · rw [hm.other ho] at hrow
      rw [ha.logOf_other ho, hlog]
      exact h.row hrow
  · rw [ha.loan?] at hrow
    have ho : other ≠ ev.loanId := fun ho => by rw [ho, hl'] at hrow; cases hrow
    rw [hm.other ho] at hrow
    rw [ha.logOf_other ho, hlog]
    exact h.noRow hrow
  · rw [ha.disbursements, hm.disbursements] at hx
    rw [ha.loan?]
    by_cases ho : x.loanId = ev.loanId
    · rw [ho]
      exact ⟨l', hl'⟩
    · rw [hm.other ho]
      exact h.requests x hx

/-- Every call of an engine leaves logs explained. -/
theorem Explains.told {g : Engine} {c : Call} {x : Answer} (h : Explains t) (ht : g.Told t c x t') :
    Explains t' := by
  cases ht with
  | opened hn ha => exact h.opened hn ha
  | ignored hl _ _ ha =>
    refine h.remarked (.append (.same (.refl _ t)) ?_ ha (.refl _ t')) ⟨_, hl⟩
    exact Engine.ignoredRecord_isPlain _ _
  | applied hl _ _ hr hm ha =>
    have hl' := (loan?_of_loans hr.loans _).trans hl
    exact (h.remarked hr ⟨_, hl⟩).moved hl' hm ha
  | paid hy hr =>
    obtain ⟨y, hy, hid⟩ := hy
    rw [← hid] at hr
    exact h.remarked hr (h.requests y hy)

/-! ## Runs -/

theorem after_explains {ts : List Turn} (hts : ∀ x ∈ ts, x.IsCall) :
    ∀ {d : Desk}, Chained d.store → Explains d.store →
      Chained (d.after ts).store ∧ Explains (d.after ts).store := by
  induction ts with
  | nil => exact fun hc he => ⟨hc, he⟩
  | cons x ts ih =>
    intro d hc he
    obtain ⟨hh⟩ := hts x List.mem_cons_self
    have hts : ∀ y ∈ ts, y.IsCall := fun y hy => hts y (List.mem_cons_of_mem _ hy)
    rcases call_turn (d := d) hh with h | ⟨a, ht⟩
    · exact ih hts (h ▸ hc) (h ▸ he)
    · exact ih hts (hc.told ht) (he.told ht)

/-- After every run of calls, disturbed in any way, the log of every loan that is open, in the order of
its numbers, starts with its one opening, and its moves lead step by step from the state recorded there to
the state of the loan; and every entry is about a loan that is open. -/
theorem logs_explain (d : Desk) (ts : List Turn) (hd : d.store = .empty) (hts : ∀ x ∈ ts, x.IsCall) :
    (∀ loanId l, (d.after ts).store.loan? loanId = some l →
      Explained ((d.after ts).store.entriesOf loanId) l.state) ∧
    (∀ e ∈ (d.after ts).store.entries, ∃ l, (d.after ts).store.loan? e.loanId = some l) := by
  obtain ⟨hc, he⟩ := after_explains hts (d := d) (hd ▸ chained_empty) (hd ▸ explains_empty)
  refine ⟨fun loanId l hl => ?_, fun e hm => ?_⟩
  · rw [entriesOf_eq (hc.chain loanId)]
    exact he.row hl
  · cases hl : (d.after ts).store.loan? e.loanId with
    | some l => exact ⟨l, rfl⟩
    | none =>
      have hlog : e ∈ (d.after ts).store.logOf e.loanId := List.mem_filter.mpr ⟨hm, by simp⟩
      rw [he.noRow hl] at hlog
      cases hlog

/-- A loan is opened during an outage and once more after it, and two events, of which the first comes twice, shut it
and open it again. -/
def openedAndKnocked : List Turn :=
  [⟨noon.clock, outage, .call revolving (.open_ "L1" "F1" systemActor)⟩,
    ⟨noon.clock, .none, .call revolving (.open_ "L1" "F1" systemActor)⟩,
    ⟨noon.clock, cancelled, .call revolving (.handle knock)⟩,
    ⟨noon.clock, .none, .call revolving (.handle knock)⟩,
    ⟨noon.clock, .none, .call revolving (.handle knockAgain)⟩]

theorem openedAndKnocked_isCall : ∀ x ∈ openedAndKnocked, x.IsCall := by
  intro x hx
  simp only [openedAndKnocked, List.mem_cons, List.not_mem_nil, or_false] at hx
  rcases hx with rfl | rfl | rfl | rfl | rfl
  · exact .call (outage_isHonest (d := noon))
  · exact .call Disturbance.none_isHonest
  · exact .call cancelled_isHonest
  · exact .call Disturbance.none_isHonest
  · exact .call Disturbance.none_isHonest

theorem openedAndKnocked_moves : ((noon.after openedAndKnocked).store.loan? "L1").map (·.state) = some "open" ∧
    ((noon.after openedAndKnocked).store.logOf "L1").filterMap (·.move?) = [("open", "shut"), ("shut", "open")] := by
  decide +kernel

theorem logs_explain_at_noon :
    noon.store = .empty ∧ (∀ x ∈ openedAndKnocked, x.IsCall) ∧
      (∃ l, (noon.after openedAndKnocked).store.loan? "L1" = some l ∧ l.state = "open" ∧
        ((noon.after openedAndKnocked).store.logOf "L1").filterMap (·.move?) = [("open", "shut"), ("shut", "open")] ∧
        Explained ((noon.after openedAndKnocked).store.entriesOf "L1") l.state) ∧
      (∀ e ∈ (noon.after openedAndKnocked).store.entries,
        ∃ l, (noon.after openedAndKnocked).store.loan? e.loanId = some l) := by
  obtain ⟨explained, open_⟩ := logs_explain noon openedAndKnocked rfl openedAndKnocked_isCall
  obtain ⟨state, moves⟩ := openedAndKnocked_moves
  obtain ⟨l, hl, hstate⟩ := Option.map_eq_some_iff.mp state
  exact ⟨rfl, openedAndKnocked_isCall, ⟨l, hl, hstate, moves, explained "L1" l hl⟩, open_⟩

end LoanLedger.Ledger

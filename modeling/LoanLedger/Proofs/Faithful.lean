import LoanLedger.Proofs.Deeds
import LoanLedger.Proofs.Instants
import LoanLedger.Proofs.Once
import LoanLedger.Proofs.Rows
import LoanLedger.Proofs.Tame.Engine

/-!
# Outcomes tell what was done

* `Deed`, `h.deeds had xs` : what comes of the actions `xs`, one after the other, where a loan has requests for the
  tranches `had`: nobody handles it, it finds a request, or it makes one;
* `Entry.Shows x e word details attributes key` : the entry says that, by the actor of the event and at its time;
* `Deed.Entered e a row ds xs` : the entries that deeds leave; `Acts.deeds` : so actions are answered, enter and
  request;
* `Faithful h e a tr t t' o row` : an event that is applied adds those entries and the one of its transition, and the
  outcome lists what was done;
* `Reports g e t t' o` : so the outcome tells what the event did to the rows; `outcomes_faithful` : and every outcome
  does, in every run of calls, and the rows of other loans stay.
-/

namespace LoanLedger.Ledger

variable {t t' : Tables} {loanId state : String} {r : AuditRecord} {e : Entry} {row : Disbursement} {kind : Tranche}

/-! ## Entries -/

/-- The entry says that of an event: under this word, with these details and attributes, and under this key; it is by
the actor of the event, and at the instant of the event, in UTC. -/
structure Entry.Shows (x : Entry) (e : Event) (word details : String) (attributes : List (String × String))
    (key : Option String) : Prop where
  ofLoan : x.loanId = e.loanId
  event : x.event = word
  details : x.details = details
  attributes : x.attributes = .map (attributes.map fun a => (.text a.1, .text a.2))
  key : x.key = key
  actor : x.actor = e.actor
  timestamp : e.occurredAt.toUtc? = some x.timestamp
  isUtc : x.timestamp.IsUtc
  instant : x.timestamp.instant = e.occurredAt.instant

/-- The entry of a record that an event leaves says what the record does. -/
theorem Appended.shows {ev : Event} {attributes : List (String × String)} (h : Appended ev.loanId r t e t')
    (actor : r.actor = ev.actor) (timestamp : r.timestamp = ev.occurredAt)
    (texts : r.attributes = attributes.map fun a => (.text a.1, .text a.2)) :
    e.Shows ev r.event.word r.details attributes r.key where
  ofLoan := h.ofLoan
  event := h.event
  details := h.details
  attributes := h.attributes.trans (congrArg _ texts)
  key := h.key
  actor := h.actor.trans actor
  timestamp := timestamp ▸ h.timestamp
  isUtc := Calendar.Timestamp.isUtc_of_toUtc? h.timestamp
  instant := timestamp ▸ Calendar.Timestamp.instant_of_toUtc? h.timestamp

/-- The tranches that a loan has requests for. -/
def Tables.tranches (t : Tables) (loanId : String) : List Tranche :=
  (t.disbursements.filter (·.loanId = loanId)).map (·.kind)

theorem mem_tranches : kind ∈ t.tranches loanId ↔ ∃ row, t.disbursementFor? loanId kind = some row := by
  rw [← Option.isSome_iff_exists, Tables.disbursementFor?, List.find?_isSome]
  simp [Tables.tranches, and_assoc]

/-! ## Other loans -/

namespace Tables

theorem counted_outside {isOf isNamed : String → Bool} {name : String} (h : ¬ isNamed name) (t : Tables) :
    (t.counted name).select isOf isNamed = t.select isOf isNamed := by
  unfold counted
  split
  · exact setCounter_outside h t _
  · simp only [select, filter_concat_neg (p := fun c : Counter => isNamed c.name) (a := ⟨name, 1⟩) h]

end Tables

theorem Appended.others (h : Appended loanId r t e t') : t'.others loanId = t.others loanId := by
  have counted : (t.counted (Sequence.ofLoan loanId)).others loanId = t.others loanId :=
    Tables.counted_outside (by simp) t
  rw [h.tables, ← counted, Tables.logged, h.ofLoan]
  simp only [Tables.others, Tables.select, Tables.counted_entries]
  rw [Tables.filter_concat_neg (p := fun e : Entry => decide (e.loanId ≠ loanId)) (by simp [h.ofLoan])]

theorem Moved.others (h : Moved loanId state t t') : t'.others loanId = t.others loanId := by
  obtain ⟨change, hc, -, rfl⟩ := h.row
  exact Tables.changeLoan_outside hc t (by simp)

theorem Tables.Lacks.others (h : t.Lacks loanId kind row) : (t.requested row).others loanId = t.others loanId := by
  simp only [Tables.others, Tables.requested, Tables.select]
  rw [Tables.filter_concat_neg (p := fun x : Disbursement => decide (x.loanId ≠ loanId)) (by simp [h.ofLoan])]

end LoanLedger.Ledger

namespace LoanLedger.Engine

open Ledger Workflow

/-! ## Deeds -/

inductive Deed where
  /-- Nobody handles it. -/
  | unknown (x : Action)
  /-- The tranche that it requests was requested before. -/
  | again (x : Action) (kind : Tranche)
  /-- It requests a tranche. -/
  | anew (x : Action) (kind : Tranche)

namespace Deed

/-- What the action is answered by, if these are the requests for the tranches. -/
def result (row : Tranche → Disbursement) : Deed → ActionResult
  | unknown x => .unknown x
  | again x kind => .requested x (row kind).id kind false
  | anew x kind => .requested x (row kind).id kind true

def tranche? : Deed → Option Tranche
  | anew _ kind => some kind
  | _ => none

end Deed

/-- What a tranche is called in the log. -/
inductive Called : Tranche → String → Prop where
  | filingFee : Called .filingFee "D1_FILING_FEE"
  | remainingFunds : Called .remainingFunds "D2_REMAINING_FUNDS"

theorem Called.of (kind : Tranche) : Called kind kind.word := by
  cases kind
  · exact .filingFee
  · exact .remainingFunds

/-- The entries that deeds leave for an event out of a state: one for each action that nobody handles, and one for each
request, if these are the requests for the tranches. -/
inductive Deed.Entered (e : Event) (a : String) (row : Tranche → Disbursement) :
    List Deed → List Entry → Prop where
  | nil : Entered e a row [] []
  | unknown {x : Action} {y : Entry} {ds : List Deed} {es : List Entry} :
    y.Shows e "unknown_action" ("Unknown action " ++ Text.quoted x.trigger ++ " skipped")
      [("trigger", x.trigger), ("event_type", e.type), ("from_state", a)] none →
    Entered e a row ds es → Entered e a row (.unknown x :: ds) (y :: es)
  | again {x : Action} {kind : Tranche} {ds : List Deed} {es : List Entry} :
    Entered e a row ds es → Entered e a row (.again x kind :: ds) es
  | anew {x : Action} {kind : Tranche} {word : String} {y : Entry} {ds : List Deed} {es : List Entry} :
    Called kind word →
    y.Shows e "disbursement_created"
      ("Created " ++ word ++ " disbursement " ++ (row kind).id ++ " (action " ++ x.trigger ++ ")")
      [("kind", word), ("disbursement_id", (row kind).id), ("trigger", x.trigger), ("event_type", e.type)] none →
    Entered e a row ds es → Entered e a row (.anew x kind :: ds) (y :: es)

/-- What comes of actions, one after the other, where a loan has requests for some tranches. -/
def Dispatcher.deeds (h : Dispatcher) : List Tranche → List Action → List Deed
  | _, [] => []
  | had, x :: xs => match h.tranche? x.kind with
    | none => .unknown x :: h.deeds had xs
    | some kind =>
      if kind ∈ had then .again x kind :: h.deeds had xs else .anew x kind :: h.deeds (kind :: had) xs

namespace Dispatcher

variable {h : Dispatcher} {had : List Tranche} {x : Action} {xs : List Action} {kind : Tranche}

theorem deeds_unknown (hk : h.tranche? x.kind = none) : h.deeds had (x :: xs) = .unknown x :: h.deeds had xs := by
  rw [deeds, hk]

theorem deeds_again (hk : h.tranche? x.kind = some kind) (hm : kind ∈ had) :
    h.deeds had (x :: xs) = .again x kind :: h.deeds had xs := by
  simp only [deeds, hk, if_pos hm]

theorem deeds_anew (hk : h.tranche? x.kind = some kind) (hm : kind ∉ had) :
    h.deeds had (x :: xs) = .anew x kind :: h.deeds (kind :: had) xs := by
  simp only [deeds, hk, if_neg hm]

end Dispatcher

variable {h : Dispatcher} {e : Event} {a b : String} {t t' : Tables} {xs : List Action} {rs : List ActionResult}
  {row : Tranche → Disbursement} {had : List Tranche} {g : Engine}

theorem unknown_shows {x : Action} {y : Entry} (h : Appended e.loanId (unknownRecord ⟨e, a, b, x⟩) t y t') :
    y.Shows e "unknown_action" ("Unknown action " ++ Text.quoted x.trigger ++ " skipped")
      [("trigger", x.trigger), ("event_type", e.type), ("from_state", a)] none :=
  h.shows rfl rfl rfl

theorem request_shows {x : Action} {x₀ : Disbursement} {y : Entry}
    (h : Appended e.loanId (requestRecord ⟨e, a, b, x⟩ x₀) t y t') :
    y.Shows e "disbursement_created"
      ("Created " ++ x₀.kind.word ++ " disbursement " ++ x₀.id ++ " (action " ++ x.trigger ++ ")")
      [("kind", x₀.kind.word), ("disbursement_id", x₀.id), ("trigger", x.trigger), ("event_type", e.type)] none :=
  h.shows rfl rfl rfl

theorem transition_shows {y : Entry} (h : Appended e.loanId (transitionRecord e a b) t y t') :
    y.Shows e "state_transition" (a ++ " -> " ++ b ++ " on " ++ e.type)
      [("from_state", a), ("to_state", b), ("event_type", e.type)] (some e.key) :=
  h.shows rfl rfl rfl

theorem ignored_shows {y : Entry} (h : Appended e.loanId (ignoredRecord e a) t y t') :
    y.Shows e "ignored_event" ("Event " ++ e.type ++ " ignored: no transition from state " ++ a)
      [("event_type", e.type), ("state", a)] none :=
  h.shows rfl rfl rfl

/-- How actions are answered, what they enter, and what they request. -/
theorem Acts.deeds (ha : Acts h e a b xs t rs t')
    (hrow : ∀ kind x, t'.disbursementFor? e.loanId kind = some x → row kind = x)
    (hhad : ∀ kind, kind ∈ had ↔ ∃ x, t.disbursementFor? e.loanId kind = some x) :
    rs = (h.deeds had xs).map (·.result row) ∧
    t'.disbursements = t.disbursements ++ ((h.deeds had xs).filterMap (·.tranche?)).map row ∧
    ∃ es, t'.logOf e.loanId = t.logOf e.loanId ++ es ∧ Deed.Entered e a row (h.deeds had xs) es := by
  induction ha generalizing had with
  | nil => exact ⟨rfl, by simp [Dispatcher.deeds], [], by simp, .nil⟩
  | @cons x xs _ _ t t₁ t' ha hacts ih =>
    have ih := @ih
    obtain ⟨later, hlater⟩ := hacts.disbursements
    cases ha with
    | @unknown entry _ hk ha =>
      have same := disbursementFor?_of_disbursements ha.disbursements
      obtain ⟨hrs, hd, es, hlog, hes⟩ := @ih had hrow fun kind => by rw [same]; exact hhad kind
      rw [Dispatcher.deeds_unknown hk]
      refine ⟨congrArg _ hrs, by rw [hd, ha.disbursements]; rfl, entry :: es, ?_, .unknown (unknown_shows ha) hes⟩
      rw [hlog, ha.logOf, List.append_assoc]
      rfl
    | @again kind x₀ hk hf =>
      obtain ⟨hrs, hd, es, hlog, hes⟩ := @ih had hrow hhad
      rw [Dispatcher.deeds_again hk ((hhad kind).mpr ⟨x₀, hf⟩)]
      refine ⟨?_, hd, es, hlog, .again hes⟩
      rw [List.map_cons, ← hrs, Deed.result, hrow kind x₀ (disbursementFor?_append hf hlater)]
    | @anew kind x₀ entry _ hk hl ha =>
      have found (other : Tranche) : t₁.disbursementFor? e.loanId other =
          if other = kind then some x₀ else t.disbursementFor? e.loanId other :=
        (disbursementFor?_of_disbursements ha.disbursements _ _).trans (hl.disbursementFor? other)
      have hx₀ : row kind = x₀ := hrow kind x₀ (disbursementFor?_append ((found kind).trans (if_pos rfl)) hlater)
      have fresh : kind ∉ had := fun hm => by
        obtain ⟨x, hx⟩ := (hhad kind).mp hm
        cases hl.isNone.symm.trans hx
      have shows := request_shows ha
      rw [hl.ofKind, ← hx₀] at shows
      obtain ⟨hrs, hd, es, hlog, hes⟩ := @ih (kind :: had) hrow fun other => by
        rw [found, List.mem_cons, hhad other]
        by_cases ho : other = kind <;> simp [ho]
      rw [Dispatcher.deeds_anew hk fresh]
      refine ⟨?_, ?_, entry :: es, ?_, .anew (.of kind) shows hes⟩
      · rw [List.map_cons, ← hrs, Deed.result, hx₀]
      · rw [hd, ha.disbursements, ← hx₀]
        simp [Tables.requested, Deed.tranche?]
      · rw [hlog, ha.logOf, List.append_assoc]
        rfl

theorem Acts.others (ha : Acts h e a b xs t rs t') : t'.others e.loanId = t.others e.loanId := by
  induction ha with
  | nil => rfl
  | cons ha _ ih =>
    refine ih.trans ?_
    cases ha with
    | unknown _ ha => exact ha.others
    | again => rfl
    | anew _ hl ha => exact ha.others.trans hl.others

/-! ## What outcomes list -/

theorem unknownActions_of_deeds (row : Tranche → Disbursement) (xs : List Action) : ∀ had : List Tranche,
    ((((h.deeds had xs).map (·.result row)).filter (!·.isRecognized)).map (·.action.trigger)) =
      (xs.filter fun x => (h.tranche? x.kind).isNone).map (·.trigger) := by
  induction xs with
  | nil => exact fun _ => rfl
  | cons x xs ih =>
    intro had
    cases hk : h.tranche? x.kind with
    | none =>
      rw [Dispatcher.deeds_unknown hk, List.filter_cons_of_pos (by rw [hk]; rfl)]
      exact congrArg (List.cons x.trigger) (ih had)
    | some kind =>
      rw [List.filter_cons_of_neg (by rw [hk]; exact Bool.false_ne_true)]
      by_cases hm : kind ∈ had
      · rw [Dispatcher.deeds_again hk hm]
        exact ih had
      · rw [Dispatcher.deeds_anew hk hm]
        exact ih (kind :: had)

theorem disbursements_of_deeds (row : Tranche → Disbursement) (xs : List Action) : ∀ had : List Tranche,
    (((h.deeds had xs).map (·.result row)).filter (·.isRecognized)).map
        (fun r => (r.disbursementKind?, r.disbursementId?)) =
      (xs.filterMap fun x => h.tranche? x.kind).map fun kind => (some kind, some (row kind).id) := by
  induction xs with
  | nil => exact fun _ => rfl
  | cons x xs ih =>
    intro had
    cases hk : h.tranche? x.kind with
    | none =>
      rw [Dispatcher.deeds_unknown hk, List.filterMap_cons_none (f := fun x : Action => h.tranche? x.kind) hk]
      exact ih had
    | some kind =>
      rw [List.filterMap_cons_some (f := fun x : Action => h.tranche? x.kind) hk]
      by_cases hm : kind ∈ had
      · rw [Dispatcher.deeds_again hk hm]
        exact congrArg (List.cons _) (ih had)
      · rw [Dispatcher.deeds_anew hk hm]
        exact congrArg (List.cons _) (ih (kind :: had))

theorem createdIds_of_deeds (row : Tranche → Disbursement) (ds : List Deed) :
    ((((ds.map (·.result row)).filter (·.isRecognized)).filter (·.isCreated)).filterMap (·.disbursementId?)) =
      ((ds.filterMap (·.tranche?)).map row).map (·.id) := by
  induction ds with
  | nil => rfl
  | cons x ds ih =>
    cases x with
    | unknown x => exact ih
    | again x kind => exact ih
    | anew x kind => exact congrArg (List.cons _) ih

/-! ## Events -/

/-- What an event that is applied does to the rows of its loan, and what its outcome lists: for each action, in order,
an entry if nobody handles it or if it requests a tranche that was not requested before; then the entry of the
transition. -/
structure Faithful (h : Dispatcher) (e : Event) (a : String) (tr : Transition) (t t' : Tables) (o : Outcome)
    (row : Tranche → Disbursement) : Prop where
  requested : ∀ x ∈ tr.actions, ∀ kind, h.tranche? x.kind = some kind →
    t'.disbursementFor? e.loanId kind = some (row kind)
  rows : t'.disbursements =
    t.disbursements ++ ((h.deeds (t.tranches e.loanId) tr.actions).filterMap (·.tranche?)).map row
  log : ∃ es x, t'.entriesOf e.loanId = t.entriesOf e.loanId ++ es ++ [x] ∧
    Deed.Entered e a row (h.deeds (t.tranches e.loanId) tr.actions) es ∧
    x.Shows e "state_transition" (a ++ " -> " ++ tr.to ++ " on " ++ e.type)
      [("from_state", a), ("to_state", tr.to), ("event_type", e.type)] (some e.key)
  results : o.decision.results = (h.deeds (t.tranches e.loanId) tr.actions).map (·.result row)
  unknownActions : o.unknownActions = (tr.actions.filter fun x => (h.tranche? x.kind).isNone).map (·.trigger)
  disbursements : o.disbursements.map (fun r => (r.disbursementKind?, r.disbursementId?)) =
    (tr.actions.filterMap fun x => h.tranche? x.kind).map fun kind => (some kind, some (row kind).id)
  createdIds : o.createdIds =
    (((h.deeds (t.tranches e.loanId) tr.actions).filterMap (·.tranche?)).map row).map (·.id)

/-- The outcome tells what an event did to the rows. -/
inductive Reports (g : Engine) (e : Event) (t t' : Tables) : Outcome → Prop where
  | applied {l : Loan} {s : State} {tr : Transition} {rs : List ActionResult} {row : Tranche → Disbursement} :
    t.loan? e.loanId = some l → g.definition.find? l.state = some s → s.find? e.type = some tr →
    Faithful g.dispatcher e l.state tr t t' (Outcome.of e (.applied l.state tr.to rs)) row →
    Reports g e t t' (Outcome.of e (.applied l.state tr.to rs))
  | ignored {l : Loan} {s : State} {x : Entry} :
    t.loan? e.loanId = some l → g.definition.find? l.state = some s → s.find? e.type = none →
    x.Shows e "ignored_event" ("Event " ++ e.type ++ " ignored: no transition from state " ++ l.state)
      [("event_type", e.type), ("state", l.state)] none →
    t' = t.logged x → t'.entriesOf e.loanId = t.entriesOf e.loanId ++ [x] →
    t'.loans = t.loans → t'.disbursements = t.disbursements → Reports g e t t' (Outcome.of e (.ignored l.state))
  | duplicate {a b : Value} : t' = t → Reports g e t t' (Outcome.of e (.duplicate a b))

/-- An event that is applied does what its outcome lists. -/
theorem Acts.faithful {l : Loan} {tr : Transition} {x : Entry} {t₁ t₂ : Tables} (hc : Chained t) (hc' : Chained t')
    (hacts : Acts g.dispatcher e l.state tr.to tr.actions t rs t₁) (hm : Moved e.loanId tr.to t₁ t₂)
    (ha : Appended e.loanId (transitionRecord e l.state tr.to) t₂ x t') :
    ∃ row, Faithful g.dispatcher e l.state tr t t' (Outcome.of e (.applied l.state tr.to rs)) row := by
  have stay : t'.disbursements = t₁.disbursements := ha.disbursements.trans hm.disbursements
  -- the requests that are there afterwards; what stands for the others does not matter
  have rows (kind : Tranche) : ∃ x, ∀ y, t₁.disbursementFor? e.loanId kind = some y → x = y := by
    cases hf : t₁.disbursementFor? e.loanId kind with
    | none => exact ⟨⟨"", e.loanId, kind, .pending, e.occurredAt, none⟩, nofun⟩
    | some x => exact ⟨x, fun _ hy => Option.some.inj hy⟩
  obtain ⟨row, hrow⟩ := Classical.axiomOfChoice rows
  obtain ⟨hrs, hd, es, hlog, hes⟩ := hacts.deeds hrow fun kind => mem_tranches (t := t)
  refine ⟨row, ?_, stay.trans hd, ⟨es, x, ?_, hes, transition_shows ha⟩, hrs, ?_, ?_, ?_⟩
  · intro y hy kind hk
    obtain ⟨z, hz⟩ := hacts.requested y hy kind hk
    rw [disbursementFor?_of_disbursements stay, hz, hrow kind z hz]
  · rw [entriesOf_eq (hc'.chain _), entriesOf_eq (hc.chain _), ha.logOf, logOf_of_entries hm.entries, hlog]
  · rw [← unknownActions_of_deeds row tr.actions (t.tranches e.loanId), ← hrs]
    rfl
  · rw [← disbursements_of_deeds row tr.actions (t.tranches e.loanId), ← hrs]
    rfl
  · rw [← createdIds_of_deeds, ← hrs]
    rfl

/-- What an event does is what its outcome tells, and the rows of other loans stay. -/
theorem Done.reports {o : Outcome} (h : Done g t (.handle e) (.handled o) t') (hc : Chained t) (hc' : Chained t') :
    Reports g e t t' o ∧ t'.others e.loanId = t.others e.loanId := by
  cases h with
  | ignored hl hs htr ha =>
    refine ⟨.ignored hl hs htr (ignored_shows ha) ha.tables ?_ ha.loans ha.disbursements, ha.others⟩
    rw [entriesOf_eq (hc'.chain _), entriesOf_eq (hc.chain _), ha.logOf]
  | applied hl hs htr hacts hm ha =>
    obtain ⟨row, faithful⟩ := hacts.faithful hc hc' hm ha
    exact ⟨.applied hl hs htr faithful, ha.others.trans (hm.others.trans hacts.others)⟩

/-- Every outcome tells what its event did. In every run of calls of any engines, however they were disturbed, whatever
engine handles an event then and whatever disturbs that: if the event is applied, then what is recorded, what is
requested and what the outcome lists is what comes of the actions of the transition, one after the other; if it is
ignored, then that is recorded and nothing else is done; if it was applied before, then nothing is. And the rows of
other loans stay. -/
theorem outcomes_faithful (d : Desk) (ts : List Turn) (hd : d.store = .empty)
    (hts : ∀ y ∈ ts, y.IsFair) (g : Engine) (e : Event) (clock : Clock) (z : Disturbance) (o : Outcome)
    (hz : z.IsHonest) (hs : z.Spares .disbursementAlreadyExists)
    (h : (g.handle e).answer ((d.after ts).prepared clock z) = .ok o) :
    Reports g e (d.after ts).store ((d.after ts).turn ⟨clock, z, .call g (.handle e)⟩).store o ∧
      ((d.after ts).turn ⟨clock, z, .call g (.handle e)⟩).store.others e.loanId =
        (d.after ts).store.others e.loanId := by
  have chained : Chained (d.after ts).store := run_keeps (p := fun _ => True) (fun _ hP ht => hP.told ht)
    (fun y hy => (hts y hy).isCall.any) (hd ▸ chained_empty)
  have chained' : Chained ((d.after ts).turn ⟨clock, z, .call g (.handle e)⟩).store := by
    rcases @call_turn (d.after ts) clock z g (.handle e) hz with hstore | ⟨_, ht⟩
    · exact hstore ▸ chained
    · exact chained.told ht
  rw [turn_call] at chained' ⊢
  rcases handle_done (d := (d.after ts).prepared clock z) hz (hs.desk _ clock) h with ⟨hdup, hstore⟩ | done
  · obtain ⟨d', hr⟩ := Work.ok_of_answer h
    obtain ⟨c, -, -, -, rfl, -⟩ := handle_ok hr
    cases c with
    | duplicate a b => exact ⟨.duplicate hstore, congrArg (·.others e.loanId) hstore⟩
    | applied => cases hdup
    | ignored => cases hdup
  · exact done.reports chained chained'

/-- A loan is opened, and an event is applied that requests a tranche. -/
theorem outcomes_faithful_at_noon :
    noon.store = .empty ∧ (∀ y ∈ openedAtNoon, y.IsFair) ∧ Disturbance.IsHonest .none ∧
      Disturbance.Spares .none .disbursementAlreadyExists ∧
      ∃ o, (looping.handle knock).answer ((noon.after openedAtNoon).prepared noon.clock .none) = .ok o ∧
        o.isApplied = true ∧
        Reports looping knock (noon.after openedAtNoon).store
          ((noon.after openedAtNoon).turn ⟨noon.clock, .none, .call looping (.handle knock)⟩).store o ∧
        ((noon.after openedAtNoon).turn ⟨noon.clock, .none, .call looping (.handle knock)⟩).store.others
            knock.loanId =
          (noon.after openedAtNoon).store.others knock.loanId := by
  have fair : ∀ y ∈ openedAtNoon, y.IsFair := fun y hy =>
    List.mem_singleton.mp hy ▸ .call Disturbance.none_isHonest (Disturbance.none_spares _)
  obtain ⟨rs, h⟩ := knock_applied
  exact ⟨rfl, fair, Disturbance.none_isHonest, Disturbance.none_spares _, _, h, rfl,
    outcomes_faithful noon openedAtNoon rfl fair looping knock noon.clock .none _ Disturbance.none_isHonest
      (Disturbance.none_spares _) h⟩

end LoanLedger.Engine

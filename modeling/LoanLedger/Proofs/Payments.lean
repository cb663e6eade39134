import Mathlib.Data.List.Nodup
import LoanLedger.Proofs.Deeds
import LoanLedger.Proofs.Once
import LoanLedger.Proofs.Rows

/-!
# Requests and payments are in the log

* `Entry.Names e x`, `Entry.isAbout tag id e` : the entry is about a request of its loan, and about an id;
* `Tells es xs tag p` : the entries under a tag name those requests that have a property, each one once;
* `Booked es xs` : so the entries tell of requests and of payments, and no id and no tranche of a loan comes twice;
* `Booked.other`, `Booked.requested`, `Booked.settled` : what is done to the rows keeps that; `Done.booked`;
* `x.settle id paidAt` : the request, paid if it has the id; `Disbursement.Ages x y` : a request at a later time;
  `Done.ages` : no call takes a request or a payment back;
* `Applies.requested` : what an event that was applied requests is there ever after;
* `Accounted t` : what the rows show then; `disbursements_accounted` : so it is in every run of calls.
-/

namespace LoanLedger

theorem Audit.Tag.word_inj {a b : Audit.Tag} (h : a.word = b.word) : a = b :=
  Option.some.inj (by rw [← Audit.Tag.ofWord?_word a, h, Audit.Tag.ofWord?_word])

namespace Ledger

variable {es : List Entry} {xs ys : List Disbursement} {e : Entry} {x y z : Disbursement} {tag : Audit.Tag}
  {p : Disbursement → Prop}

/-! ## Entries about requests -/

structure Entry.Names (e : Entry) (x : Disbursement) : Prop where
  loanId : e.loanId = x.loanId
  id : e.text? "disbursement_id" = some x.id
  kind : e.text? "kind" = some x.kind.word

def Entry.isAbout (tag : Audit.Tag) (id : String) (e : Entry) : Bool :=
  e.event = tag.word && e.text? "disbursement_id" = some id

/-- The request is the same, whatever became of it. -/
structure Disbursement.Same (x y : Disbursement) : Prop where
  id : y.id = x.id
  loanId : y.loanId = x.loanId
  kind : y.kind = x.kind

theorem Disbursement.Same.refl (x : Disbursement) : x.Same x := ⟨rfl, rfl, rfl⟩

theorem Entry.Names.same (h : e.Names x) (hs : x.Same y) : e.Names y :=
  ⟨h.loanId.trans hs.loanId.symm, h.id.trans (congrArg some hs.id.symm), h.kind.trans (by rw [hs.kind])⟩

def Disbursement.settle (id : String) (paidAt : Calendar.Timestamp) (x : Disbursement) : Disbursement :=
  if x.id = id then { x with status := .paid, paidAt := some paidAt } else x

section Settle

variable {id : String} (paidAt : Calendar.Timestamp)

theorem Disbursement.settle_of_eq (h : x.id = id) :
    x.settle id paidAt = { x with status := .paid, paidAt := some paidAt } :=
  if_pos h

theorem Disbursement.settle_of_ne (h : x.id ≠ id) : x.settle id paidAt = x := if_neg h

theorem Disbursement.same_settle (id : String) (paidAt : Calendar.Timestamp) (x : Disbursement) :
    x.Same (x.settle id paidAt) := by
  unfold settle
  split
  · exact ⟨rfl, rfl, rfl⟩
  · exact .refl x

theorem map_settle {α : Type} {f : Disbursement → α} (h : ∀ x, f (x.settle id paidAt) = f x) :
    (xs.map (Disbursement.settle id paidAt)).map f = xs.map f := by
  rw [List.map_map]
  exact List.map_congr_left fun x _ => h x

end Settle

/-- The entries under a tag name those requests that have a property, each one once. -/
structure Tells (es : List Entry) (xs : List Disbursement) (tag : Audit.Tag) (p : Disbursement → Prop) : Prop where
  once : ((es.filter (·.event = tag.word)).map (·.text? "disbursement_id")).Nodup
  row : ∀ e ∈ es, e.event = tag.word → ∃ x ∈ xs, e.Names x ∧ p x
  entry : ∀ x ∈ xs, p x → ∃ e ∈ es, e.event = tag.word ∧ e.Names x

namespace Tells

theorem nil (tag : Audit.Tag) (p : Disbursement → Prop) : Tells [] [] tag p where
  once := .nil
  row _ he := absurd he List.not_mem_nil
  entry _ hx := absurd hx List.not_mem_nil

/-- One more entry: the requests stay what they are, and if it has the tag then it names one that has got the
property with it. -/
theorem snoc (h : Tells es xs tag p) (stay : ∀ x ∈ xs, p x → ∃ y ∈ ys, x.Same y ∧ p y)
    (from_ : ∀ y ∈ ys, p y → (∃ x ∈ xs, x.Same y ∧ p x) ∨ e.event = tag.word ∧ e.Names y)
    (new : e.event = tag.word → ∃ y ∈ ys, e.Names y ∧ p y ∧ ∀ x ∈ xs, p x → x.id ≠ y.id) :
    Tells (es ++ [e]) ys tag p where
  once := by
    by_cases he : e.event = tag.word
    · obtain ⟨y, -, hy, -, hnew⟩ := new he
      rw [Tables.filter_concat_pos (p := fun e : Entry => e.event = tag.word) (decide_eq_true he), List.map_append,
        List.map_singleton, List.nodup_append]
      refine ⟨h.once, List.nodup_singleton _, fun o ho o' ho' heq => ?_⟩
      obtain ⟨e', he', rfl⟩ := List.mem_map.mp ho
      obtain ⟨hmem, htag⟩ := List.mem_filter.mp he'
      obtain ⟨x, hx, hnames, hp⟩ := h.row e' hmem (of_decide_eq_true htag)
      rw [List.mem_singleton.mp ho', hnames.id, hy.id] at heq
      exact hnew x hx hp (Option.some.inj heq)
    · rw [Tables.filter_concat_neg (by simpa using he)]
      exact h.once
  row e' he' htag := by
    rcases List.mem_append.mp he' with he' | he'
    · obtain ⟨x, hx, hnames, hp⟩ := h.row e' he' htag
      obtain ⟨y, hy, hs, hp⟩ := stay x hx hp
      exact ⟨y, hy, hnames.same hs, hp⟩
    · obtain rfl := List.mem_singleton.mp he'
      obtain ⟨y, hy, hnames, hp, -⟩ := new htag
      exact ⟨y, hy, hnames, hp⟩
  entry y hy hp := by
    rcases from_ y hy hp with ⟨x, hx, hs, hp⟩ | ⟨htag, hnames⟩
    · obtain ⟨e', he', htag, hnames⟩ := h.entry x hx hp
      exact ⟨e', List.mem_append_left _ he', htag, hnames.same hs⟩
    · exact ⟨e, List.mem_append_right _ List.mem_cons_self, htag, hnames⟩

/-- An entry under another tag tells nothing, while the requests that have the property stay the same. -/
theorem other (h : Tells es xs tag p) (he : e.event ≠ tag.word)
    (stay : ∀ x ∈ xs, p x → ∃ y ∈ ys, x.Same y ∧ p y)
    (from_ : ∀ y ∈ ys, p y → ∃ x ∈ xs, x.Same y ∧ p x) : Tells (es ++ [e]) ys tag p :=
  h.snoc stay (fun y hy hp => .inl (from_ y hy hp)) fun htag => absurd htag he

/-- The entry that tells of a request is the only one about it. -/
theorem filter_eq (h : Tells es xs tag p) (he : e ∈ es) (htag : e.event = tag.word) (hn : e.Names x) :
    es.filter (·.isAbout tag x.id) = [e] := by
  have split : es.filter (·.isAbout tag x.id) =
      (es.filter (·.event = tag.word)).filter fun e => e.text? "disbursement_id" = some x.id := by
    rw [List.filter_filter]
    exact List.filter_congr fun e _ => Bool.and_comm _ _
  have hm : e ∈ es.filter (·.event = tag.word) := List.mem_filter.mpr ⟨he, decide_eq_true htag⟩
  have once := h.once
  rw [split]
  generalize es.filter (·.event = tag.word) = l at hm once
  obtain ⟨before, after, rfl⟩ := List.append_of_mem hm
  rw [List.map_append, List.map_cons, hn.id] at once
  obtain ⟨-, tail, disjoint⟩ := List.nodup_append.mp once
  have hbefore : ∀ e' ∈ before, e'.text? "disbursement_id" ≠ some x.id := fun e' he' =>
    disjoint _ (List.mem_map_of_mem he') _ List.mem_cons_self
  have hafter : ∀ e' ∈ after, e'.text? "disbursement_id" ≠ some x.id := fun e' he' hid =>
    (List.nodup_cons.mp tail).1 (hid ▸ List.mem_map_of_mem he')
  rw [List.filter_append, List.filter_cons_of_pos (by simpa using hn.id),
    List.filter_eq_nil_iff.mpr (by simpa using hbefore), List.filter_eq_nil_iff.mpr (by simpa using hafter)]
  rfl

end Tells

/-! ## Rows and entries -/

/-- The entries tell of requests and of payments, and no id and no tranche of a loan comes twice. -/
structure Booked (es : List Entry) (xs : List Disbursement) : Prop where
  ids : (xs.map (·.id)).Nodup
  tranches : (xs.map fun x => (x.loanId, x.kind)).Nodup
  created : Tells es xs .disbursementCreated fun _ => True
  paid : Tells es xs .disbursementPaid (·.status = .paid)
  status : ∀ x ∈ xs, x.status = .paid ↔ x.paidAt.isSome
  paidAt : ∀ e ∈ es, e.event = Audit.Tag.disbursementPaid.word → ∀ x ∈ xs, e.Names x →
    x.paidAt = some e.timestamp

namespace Booked

theorem nil : Booked [] [] where
  ids := .nil
  tranches := .nil
  created := .nil _ _
  paid := .nil _ _
  status _ hx := absurd hx List.not_mem_nil
  paidAt _ he := absurd he List.not_mem_nil

theorem eq_of_id (h : Booked es xs) (hx : x ∈ xs) (hy : y ∈ xs) (hid : x.id = y.id) : x = y :=
  List.inj_on_of_nodup_map h.ids hx hy hid

/-- An entry that tells of neither. -/
theorem other (h : Booked es xs) (hc : e.event ≠ Audit.Tag.disbursementCreated.word)
    (hp : e.event ≠ Audit.Tag.disbursementPaid.word) : Booked (es ++ [e]) xs where
  ids := h.ids
  tranches := h.tranches
  created := h.created.other hc (fun x hx hp => ⟨x, hx, .refl x, hp⟩) fun x hx hp => ⟨x, hx, .refl x, hp⟩
  paid := h.paid.other hp (fun x hx hp => ⟨x, hx, .refl x, hp⟩) fun x hx hp => ⟨x, hx, .refl x, hp⟩
  status := h.status
  paidAt e' he' htag := by
    rcases List.mem_append.mp he' with he' | he'
    · exact h.paidAt e' he' htag
    · exact absurd (List.mem_singleton.mp he' ▸ htag) hp

/-- A request is made and recorded. -/
theorem requested (h : Booked es xs) (hid : ∀ x ∈ xs, x.id ≠ y.id)
    (hkind : ∀ x ∈ xs, (x.loanId, x.kind) ≠ (y.loanId, y.kind)) (hs : y.status = .pending) (hy : y.paidAt = none)
    (he : e.event = Audit.Tag.disbursementCreated.word) (hn : e.Names y) : Booked (es ++ [e]) (xs ++ [y]) := by
  have notPaid : y.status ≠ .paid := by rw [hs]; decide
  have other : e.event ≠ Audit.Tag.disbursementPaid.word := by rw [he]; decide
  have last : y ∈ xs ++ [y] := List.mem_append_right _ List.mem_cons_self
  have unnamed : ∀ e' ∈ es, e'.event = Audit.Tag.disbursementPaid.word → ¬ e'.Names y := by
    intro e' he' htag hn
    obtain ⟨x, hx, hnx, -⟩ := h.paid.row e' he' htag
    exact hid x hx (Option.some.inj (hnx.id.symm.trans hn.id))
  refine ⟨?_, ?_, ?_, ?_, fun x hx => ?_, fun e' he' htag x hx hnx => ?_⟩
  · rw [List.map_append, List.map_singleton, List.nodup_append]
    refine ⟨h.ids, List.nodup_singleton _, fun i hi j hj => ?_⟩
    obtain ⟨x, hx, rfl⟩ := List.mem_map.mp hi
    exact List.mem_singleton.mp hj ▸ hid x hx
  · rw [List.map_append, List.map_singleton, List.nodup_append]
    refine ⟨h.tranches, List.nodup_singleton _, fun i hi j hj => ?_⟩
    obtain ⟨x, hx, rfl⟩ := List.mem_map.mp hi
    exact List.mem_singleton.mp hj ▸ hkind x hx
  · refine h.created.snoc (fun x hx hp => ⟨x, List.mem_append_left _ hx, .refl x, hp⟩) (fun x hx hp => ?_)
      fun _ => ⟨y, last, hn, trivial, fun x hx _ => hid x hx⟩
    rcases List.mem_append.mp hx with hx | hx
    · exact .inl ⟨x, hx, .refl x, hp⟩
    · exact .inr ⟨he, List.mem_singleton.mp hx ▸ hn⟩
  · refine h.paid.other other (fun x hx hp => ⟨x, List.mem_append_left _ hx, .refl x, hp⟩) fun x hx hp => ?_
    rcases List.mem_append.mp hx with hx | hx
    · exact ⟨x, hx, .refl x, hp⟩
    · exact absurd (List.mem_singleton.mp hx ▸ hp) notPaid
  · rcases List.mem_append.mp hx with hx | hx
    · exact h.status x hx
    · rw [List.mem_singleton.mp hx, hy]
      exact iff_of_false notPaid Bool.false_ne_true
  · rcases List.mem_append.mp he' with he' | he'
    · rcases List.mem_append.mp hx with hx | hx
      · exact h.paidAt e' he' htag x hx hnx
      · exact absurd (List.mem_singleton.mp hx ▸ hnx) (unnamed e' he' htag)
    · exact absurd (List.mem_singleton.mp he' ▸ htag) other

/-- A request is paid, and that is recorded. -/
theorem settled (h : Booked es xs) (hy : y ∈ xs) (hs : y.status ≠ .paid)
    (he : e.event = Audit.Tag.disbursementPaid.word) (hn : e.Names y) :
    Booked (es ++ [e]) (xs.map (Disbursement.settle y.id e.timestamp)) := by
  have other : e.event ≠ Audit.Tag.disbursementCreated.word := by rw [he]; decide
  have same := Disbursement.same_settle y.id e.timestamp
  have hit {x : Disbursement} (hx : x.id = y.id) := Disbursement.settle_of_eq e.timestamp hx
  have miss {x : Disbursement} (hx : x.id ≠ y.id) := Disbursement.settle_of_ne e.timestamp hx
  have settled {x : Disbursement} (hx : x ∈ xs) := List.mem_map_of_mem (f := Disbursement.settle y.id e.timestamp) hx
  refine ⟨?_, ?_, ?_, ?_, fun z hz => ?_, fun e' he' htag z hz hnz => ?_⟩
  · rw [map_settle _ fun x => (same x).id]
    exact h.ids
  · rw [map_settle _ fun x => by rw [(same x).loanId, (same x).kind]]
    exact h.tranches
  · refine h.created.other other (fun x hx _ => ⟨_, settled hx, same x, trivial⟩) fun z hz _ => ?_
    obtain ⟨x, hx, rfl⟩ := List.mem_map.mp hz
    exact ⟨x, hx, same x, trivial⟩
  · refine h.paid.snoc (fun x hx hp => ⟨_, settled hx, same x, ?_⟩) (fun z hz hp => ?_) fun _ =>
      ⟨_, settled hy, hn.same (same y), ?_, fun x hx hp hid => ?_⟩
    · by_cases hid : x.id = y.id
      · rw [hit hid]
      · rw [miss hid, hp]
    · obtain ⟨x, hx, rfl⟩ := List.mem_map.mp hz
      by_cases hid : x.id = y.id
      · obtain rfl := h.eq_of_id hx hy hid
        exact .inr ⟨he, hn.same (same x)⟩
      · rw [miss hid] at hp ⊢
        exact .inl ⟨x, hx, .refl x, hp⟩
    · rw [hit rfl]
    · exact hs (h.eq_of_id hx hy (hid.trans (same y).id) ▸ hp)
  · obtain ⟨x, hx, rfl⟩ := List.mem_map.mp hz
    by_cases hid : x.id = y.id
    · rw [hit hid]
      exact iff_of_true rfl rfl
    · rw [miss hid]
      exact h.status x hx
  · obtain ⟨x, hx, rfl⟩ := List.mem_map.mp hz
    have named : e'.Names x := hnz.same ⟨(same x).id.symm, (same x).loanId.symm, (same x).kind.symm⟩
    rcases List.mem_append.mp he' with he' | he'
    · -- an entry from before names no request that is paid now only
      have hid : x.id ≠ y.id := by
        intro hid
        obtain ⟨z, hz, hnz, hp⟩ := h.paid.row e' he' htag
        obtain rfl := h.eq_of_id hz hy ((Option.some.inj (hnz.id.symm.trans named.id)).trans hid)
        exact hs hp
      rw [miss hid]
      exact h.paidAt e' he' htag x hx named
    · obtain rfl := List.mem_singleton.mp he'
      have hid : x.id = y.id := Option.some.inj (named.id.symm.trans hn.id)
      rw [hit hid]

end Booked

/-! ## Calls -/

/-- The request at a later time: it is the same one, and a payment is not taken back. -/
structure Disbursement.Ages (x y : Disbursement) : Prop extends Same x y where
  createdAt : y.createdAt = x.createdAt
  status : x.status = .paid → y.status = .paid
  paidAt : ∀ time, x.paidAt = some time → y.paidAt = some time

theorem Disbursement.Ages.refl (x : Disbursement) : x.Ages x := ⟨.refl x, rfl, fun h => h, fun _ h => h⟩

theorem Disbursement.Ages.trans (h : x.Ages y) (h' : y.Ages z) : x.Ages z where
  toSame := ⟨h'.id.trans h.id, h'.loanId.trans h.loanId, h'.kind.trans h.kind⟩
  createdAt := h'.createdAt.trans h.createdAt
  status hs := h'.status (h.status hs)
  paidAt time ht := h'.paidAt time (h.paidAt time ht)

variable {t t' : Tables} {r : AuditRecord} {loanId : String}

theorem Appended.event_ne (h : Appended loanId r t e t') (ht : r.event ≠ tag) : e.event ≠ tag.word :=
  fun he => ht (Audit.Tag.word_inj (h.event.symm.trans he))

/-- An entry that tells of neither leaves requests and payments in the log. -/
theorem Booked.appended (h : Booked t.entries t.disbursements) (ha : Appended loanId r t e t')
    (hc : r.event ≠ .disbursementCreated) (hp : r.event ≠ .disbursementPaid) :
    Booked t'.entries t'.disbursements := by
  rw [ha.entries, ha.disbursements]
  exact h.other (ha.event_ne hc) (ha.event_ne hp)

end Ledger

namespace Engine

open Ledger Workflow

variable {g : Engine} {c : Call} {o : Answer} {t t' : Tables} {e : Event} {a b : String}

theorem Acted.booked {h : Dispatcher} {task : Task} {r : ActionResult} (ha : Acted h task t r t')
    (hb : Booked t.entries t.disbursements) : Booked t'.entries t'.disbursements := by
  cases ha with
  | unknown _ ha => exact hb.appended ha nofun nofun
  | again => exact hb
  | @anew kind row entry _ _ hl ha =>
    rw [ha.entries, ha.disbursements]
    refine hb.requested hl.ownId (fun x hx hkind => ?_) hl.status hl.paidAt ha.event
      ⟨ha.ofLoan.trans hl.ofLoan.symm, ?_, ?_⟩
    · have hnone := List.find?_eq_none.mp hl.isNone x hx
      rw [hl.ofLoan, hl.ofKind] at hkind
      exact hnone (by simpa using Prod.mk.inj hkind)
    · rw [Entry.text?, ha.attributes]
      rfl
    · rw [Entry.text?, ha.attributes]
      rfl

theorem Acts.booked {h : Dispatcher} {xs : List Action} {rs : List ActionResult} (ha : Acts h e a b xs t rs t')
    (hb : Booked t.entries t.disbursements) : Booked t'.entries t'.disbursements := by
  induction ha with
  | nil => exact hb
  | cons ha _ ih => exact ih (ha.booked hb)

theorem disbursement?_spec {loanId id : String} {row : Disbursement} (h : t.disbursement? loanId id = some row) :
    row ∈ t.disbursements ∧ row.loanId = loanId :=
  ⟨List.mem_of_find?_eq_some h, And.left (by simpa using List.find?_some h)⟩

/-- Every call leaves requests and payments in the log. -/
theorem Done.booked (h : Done g t c o t') (hb : Booked t.entries t.disbursements) :
    Booked t'.entries t'.disbursements := by
  cases h with
  | opened _ ha => exact Booked.appended (t := { t with loans := t.loans ++ _ }) hb ha nofun nofun
  | ignored _ _ _ ha => exact hb.appended ha nofun nofun
  | applied _ _ _ hacts hm ha =>
    have moved := hacts.booked hb
    rw [← hm.entries, ← hm.disbursements] at moved
    exact moved.appended ha nofun nofun
  | paidBefore => exact hb
  | @paid loanId id actor row time paidAt entry t' hrow hs hkeep ha =>
    obtain ⟨hmem, hl⟩ := disbursement?_spec hrow
    have htime : entry.timestamp = paidAt := Option.some.inj (ha.timestamp.symm.trans (toUtc?_of_keepTime? hkeep))
    rw [ha.entries, ha.disbursements]
    refine htime ▸ hb.settled hmem hs ha.event ⟨ha.ofLoan.trans hl.symm, ?_, ?_⟩
    · rw [Entry.text?, ha.attributes]
      rfl
    · rw [Entry.text?, ha.attributes]
      rfl

/-- No call takes a request or a payment back. -/
theorem Done.ages (h : Done g t c o t') (hb : Booked t.entries t.disbursements) :
    ∀ x ∈ t.disbursements, ∃ y ∈ t'.disbursements, x.Ages y := by
  intro x hx
  cases h with
  | opened _ ha => exact ⟨x, by rw [ha.disbursements]; exact hx, .refl x⟩
  | ignored _ _ _ ha => exact ⟨x, by rw [ha.disbursements]; exact hx, .refl x⟩
  | applied _ _ _ hacts hm ha =>
    obtain ⟨news, hnews⟩ := hacts.disbursements
    refine ⟨x, ?_, .refl x⟩
    rw [ha.disbursements, hm.disbursements, hnews]
    exact List.mem_append_left _ hx
  | paidBefore => exact ⟨x, hx, .refl x⟩
  | @paid _ _ _ row _ paidAt _ _ hrow hs _ ha =>
    have hmem := (disbursement?_spec hrow).1
    refine ⟨x.settle row.id paidAt, by rw [ha.disbursements]; exact List.mem_map_of_mem hx, ?_⟩
    by_cases hid : x.id = row.id
    · obtain rfl := hb.eq_of_id hx hmem hid
      rw [Disbursement.settle_of_eq paidAt rfl]
      refine ⟨⟨rfl, rfl, rfl⟩, rfl, fun _ => rfl, fun time htime => ?_⟩
      exact absurd ((hb.status x hx).mpr (by rw [htime]; rfl)) hs
    · rw [Disbursement.settle_of_ne paidAt hid]
      exact .refl x

end Engine

/-! ## Runs -/

namespace Ledger

open Engine

variable {d : Desk} {ts : List Turn} {t : Tables} {x : Disbursement} {e : Entry}

/-- The log accounts for all requests and payments. -/
structure Accounted (t : Tables) : Prop where
  ids : (t.disbursements.map (·.id)).Nodup
  tranches : (t.disbursements.map fun x => (x.loanId, x.kind)).Nodup
  created :
    ∀ x ∈ t.disbursements, ∃ e, t.entries.filter (·.isAbout .disbursementCreated x.id) = [e] ∧ e.Names x
  requests : ∀ e ∈ t.entries, e.event = Audit.Tag.disbursementCreated.word → ∃ x ∈ t.disbursements, e.Names x
  paidAt : ∀ x ∈ t.disbursements, x.status = .paid ↔ x.paidAt.isSome
  paid : ∀ x ∈ t.disbursements, x.status = .paid ↔
    ∃ e, t.entries.filter (·.isAbout .disbursementPaid x.id) = [e] ∧ e.Names x ∧ x.paidAt = some e.timestamp
  pending : ∀ x ∈ t.disbursements, x.status = .pending ↔ t.entries.filter (·.isAbout .disbursementPaid x.id) = []

/-- A request that an entry tells of as paid is paid. -/
theorem Booked.paid_of_isAbout (h : Booked t.entries t.disbursements) (hx : x ∈ t.disbursements)
    (he : e ∈ t.entries.filter (·.isAbout .disbursementPaid x.id)) : x.status = .paid := by
  obtain ⟨hmem, habout⟩ := List.mem_filter.mp he
  obtain ⟨htag, hid⟩ : e.event = _ ∧ e.text? "disbursement_id" = some x.id := by
    simpa [Entry.isAbout] using habout
  obtain ⟨y, hy, hn, hp⟩ := h.paid.row e hmem htag
  rwa [h.eq_of_id hx hy (Option.some.inj (hid.symm.trans hn.id))]

theorem Booked.accounted (h : Booked t.entries t.disbursements) : Accounted t where
  ids := h.ids
  tranches := h.tranches
  created x hx := by
    obtain ⟨e, he, htag, hn⟩ := h.created.entry x hx trivial
    exact ⟨e, h.created.filter_eq he htag hn, hn⟩
  requests e he htag := by
    obtain ⟨x, hx, hn, -⟩ := h.created.row e he htag
    exact ⟨x, hx, hn⟩
  paidAt := h.status
  paid x hx := by
    constructor
    · intro hp
      obtain ⟨e, he, htag, hn⟩ := h.paid.entry x hx hp
      exact ⟨e, h.paid.filter_eq he htag hn, hn, h.paidAt e he htag x hx hn⟩
    · rintro ⟨e, he, -, -⟩
      exact h.paid_of_isAbout hx (he ▸ List.mem_cons_self)
  pending x hx := by
    constructor
    · intro hs
      refine List.eq_nil_iff_forall_not_mem.mpr fun e he => ?_
      have hp := h.paid_of_isAbout hx he
      rw [hs] at hp
      cases hp
    · intro hnil
      cases hs : x.status with
      | pending => rfl
      | paid =>
        obtain ⟨e, he, htag, hn⟩ := h.paid.entry x hx hs
        rw [h.paid.filter_eq he htag hn] at hnil
        cases hnil

theorem turn_booked {y : Turn} (hy : y.IsFair) (h : Booked d.store.entries d.store.disbursements) :
    Booked (d.turn y).store.entries (d.turn y).store.disbursements := by
  rcases turn_done hy d with hstore | ⟨g, c, o, done⟩
  · exact hstore ▸ h
  · exact done.booked h

theorem after_booked (hts : ∀ y ∈ ts, y.IsFair) (h : Booked d.store.entries d.store.disbursements) :
    Booked (d.after ts).store.entries (d.after ts).store.disbursements :=
  run_keeps_done (P := fun t => Booked t.entries t.disbursements) (fun hP h => h.booked hP) hts h

/-- No run takes a request or a payment back. -/
theorem after_ages (hts : ∀ y ∈ ts, y.IsFair) : ∀ {d : Desk}, Booked d.store.entries d.store.disbursements →
    ∀ x ∈ d.store.disbursements, ∃ y ∈ (d.after ts).store.disbursements, x.Ages y := by
  induction ts with
  | nil => exact fun _ x hx => ⟨x, hx, .refl x⟩
  | cons z ts ih =>
    intro d hb x hx
    have rest : ∀ y ∈ ts, y.IsFair := fun y hy => hts y (List.mem_cons_of_mem _ hy)
    have booked := turn_booked (hts z List.mem_cons_self) hb
    have first : ∃ y ∈ (d.turn z).store.disbursements, x.Ages y := by
      rcases turn_done (hts z List.mem_cons_self) d with hstore | ⟨g, c, o, h⟩
      · exact ⟨x, hstore ▸ hx, .refl x⟩
      · exact h.ages hb x hx
    obtain ⟨y, hy, hxy⟩ := first
    obtain ⟨y', hy', hyy'⟩ := ih rest booked y hy
    exact ⟨y', hy', hxy.trans hyy'⟩

theorem Applies.requested {g : Engine} {e : Event} {a b : String} {s : Workflow.State} {tr : Workflow.Transition}
    {x : Workflow.Action} {kind : Tranche} (h : Applies g e a b d ts) (hts : ∀ y ∈ ts, y.IsFair)
    (hb : Booked d.store.entries d.store.disbursements) (hs : g.definition.find? a = some s)
    (htr : s.find? e.type = some tr) (hx : x ∈ tr.actions) (hk : g.dispatcher.tranche? x.kind = some kind) :
    ∃ row ∈ (d.after ts).store.disbursements, row.loanId = e.loanId ∧ row.kind = kind := by
  induction h with
  | @later d z ts _ ih =>
    refine ih (fun y hy => hts y (List.mem_cons_of_mem _ hy)) ?_
    exact turn_booked (hts z List.mem_cons_self) hb
  | @now d clock z rs ts h =>
    have rest : ∀ y ∈ ts, y.IsFair := fun y hy => hts y (List.mem_cons_of_mem _ hy)
    have booked := turn_booked (hts _ List.mem_cons_self) hb
    have first : ∃ row, (d.turn ⟨clock, z, .call g (.handle e)⟩).store.disbursementFor? e.loanId kind =
        some row := by
      obtain ⟨hz, hspared⟩ := hts _ List.mem_cons_self
      rw [turn_call]
      rcases handle_done (d := d.prepared clock z) hz (hspared.desk d clock) h with ⟨hdup, -⟩ | done
      · cases hdup
      · cases done with
        | applied _ hs' htr' hacts hm ha =>
          cases hs.symm.trans hs'
          cases htr.symm.trans htr'
          obtain ⟨row, hrow⟩ := hacts.requested x hx kind hk
          have stay := ha.disbursements.trans hm.disbursements
          exact ⟨row, (disbursementFor?_of_disbursements stay _ _).trans hrow⟩
    obtain ⟨row, hrow⟩ := first
    obtain ⟨y, hy, hage⟩ := after_ages rest booked row (List.mem_of_find?_eq_some hrow)
    obtain ⟨hl, hkind⟩ : row.loanId = e.loanId ∧ row.kind = kind := by simpa using List.find?_some hrow
    exact ⟨y, hy, hage.loanId.trans hl, hage.kind.trans hkind⟩

/-- The log accounts for all requests and payments. In every run of calls of any engines, whatever ids they drew and
however they were disturbed: no id and no tranche of a loan comes twice; every request has its one entry, and every
such entry its request; a request is paid exactly when it has a time of payment, which is the time of the one entry
about the payment. And nothing that is called from there on takes a request or a payment back. -/
theorem disbursements_accounted (d : Desk) (ts : List Turn) (hd : d.store = .empty) (hts : ∀ y ∈ ts, y.IsFair) :
    Accounted (d.after ts).store ∧
      ∀ us : List Turn, (∀ y ∈ us, y.IsFair) → ∀ x ∈ (d.after ts).store.disbursements,
        ∃ y ∈ ((d.after ts).after us).store.disbursements, x.Ages y := by
  have booked := after_booked hts (d := d) (hd ▸ .nil)
  exact ⟨booked.accounted, fun us hus => after_ages hus booked⟩

theorem loopedOnce_isFair : ∀ y ∈ loopedOnce, y.IsFair := by
  intro y hy
  simp only [loopedOnce, List.mem_cons, List.not_mem_nil, or_false] at hy
  rcases hy with rfl | rfl
  · exact .call Disturbance.none_isHonest (Disturbance.none_spares _)
  · exact .call Disturbance.none_isHonest (Disturbance.none_spares _)

/-- The loan is opened and an event requests a tranche; then all of that comes once more. -/
theorem disbursements_accounted_at_noon :
    noon.store = .empty ∧ (∀ y ∈ loopedOnce, y.IsFair) ∧ Accounted (noon.after loopedOnce).store ∧
      ∃ x ∈ (noon.after loopedOnce).store.disbursements, x.loanId = "L1" ∧
        ∃ y ∈ ((noon.after loopedOnce).after loopedOnce).store.disbursements, x.Ages y := by
  obtain ⟨accounted, ages⟩ := disbursements_accounted noon loopedOnce rfl loopedOnce_isFair
  have handled :
      looping.dispatcher.tranche? (Workflow.Action.ofTrigger "DISBURSEMENT_1").kind = some .filingFee := by decide
  obtain ⟨x, hx, hl, -⟩ :=
    Applies.requested loopedOnce_applies loopedOnce_isFair .nil rfl rfl List.mem_cons_self handled
  exact ⟨rfl, loopedOnce_isFair, accounted, x, hx, hl, ages loopedOnce loopedOnce_isFair x hx⟩

end Ledger

end LoanLedger

import LoanLedger.Proofs.Collisions

/-!
# Visits

* `Visit` : a call at some time, with the ids from which it draws; `visit d v`, `visits d vs` : the desk after a
  visit, and after visits one after the other;
* `answers loanId d vs`, `given d vs` : the answers to the visits of a loan, and all ids that are drawn;
* `KeysApart loanId vs` : no event of another loan has the key of an event of the loan;
* `serve_session` : what was in the session before does not matter to a call; `mem_visit` : where keys come from;
* `drawing d calls` : the visits that calls are which draw from the ids of the desk: they come to the same as the
  calls (`visits_drawing`), and no id is drawn twice (`given_nodup`);
* `drawn_nil` : only events draw ids.
-/

namespace LoanLedger.Engine

open Ledger

/-! ## Visits -/

structure Visit where
  clock : Clock
  ids : IdSupply
  engine : Engine
  call : Call

namespace Visit

def loanId (v : Visit) : String := v.call.loanId

def key? (v : Visit) : Option String :=
  match v.call with
  | .handle e => some e.key
  | _ => none

end Visit

/-- The desk as a visit finds it, where nothing disturbs it. -/
def received (d : Desk) (v : Visit) : Desk :=
  { d.prepared v.clock .none with ids := v.ids }

def visit (d : Desk) (v : Visit) : Desk :=
  (v.engine.serve v.call).desk (received d v)

def answerTo (d : Desk) (v : Visit) : Except Ledger.Error Answer :=
  (v.engine.serve v.call).answer (received d v)

def drawn (d : Desk) (v : Visit) : List String :=
  (List.range' v.ids.used ((visit d v).ids.used - v.ids.used)).map v.ids.at

def visits (d : Desk) (vs : List Visit) : Desk :=
  vs.foldl visit d

def visitsOf (loanId : String) (vs : List Visit) : List Visit :=
  vs.filter (·.loanId = loanId)

def answers (loanId : String) : Desk → List Visit → List (Except Ledger.Error Answer)
  | _, [] => []
  | d, v :: vs => if v.loanId = loanId then answerTo d v :: answers loanId (visit d v) vs
    else answers loanId (visit d v) vs

def given : Desk → List Visit → List String
  | _, [] => []
  | d, v :: vs => drawn d v ++ given (visit d v) vs

def KeysApart (loanId : String) (vs : List Visit) : Prop :=
  ∀ v ∈ vs, ∀ w ∈ vs, v.loanId = loanId → w.loanId ≠ loanId → ∀ key, v.key? = some key →
  w.key? ≠ some key

variable {d d' : Desk} {v : Visit}

/-! ## Whatever was in the session -/

theorem transact_session {α : Type} {x : Work α} (g : Engine) (loanId : String) (s : Session) :
    SameEnd (g.transact loanId x) d { d with session := s } := by
  cases hl : (d.locks.hold loanId g.lockTimeout).2 with
  | error r =>
    obtain ⟨err, hr⟩ := lockFailed_run (α := α) loanId g.lockTimeout r
    obtain ⟨log, h⟩ := hr d
    obtain ⟨log', h'⟩ := hr { d with session := s }
    exact .of_error ((withLock_refused hl).trans h)
      ((withLock_refused (d := { d with session := s }) hl).trans h') rfl rfl
  | ok u => exact .of_eq (withLock_session hl rfl)

theorem serve_session (g : Engine) (c : Call) (hd : d.IsCalm) (s : Session) :
    SameEnd (g.serve c) d { d with session := s } := by
  cases c with
  | open_ loanId founderId actor => exact (transact_session g loanId s).map Answer.opened
  | handle e => exact (handle_session hd s).map Answer.handled
  | pay loanId id actor => exact (transact_session g loanId s).map Answer.paid

/-! ## Keys -/

theorem mem_visit {e : Entry} {key : String} (he : e ∈ (visit d v).store.entries) (hk : e.key = some key) :
    e ∈ d.store.entries ∨ v.key? = some key := by
  have calm : (received d v).IsCalm := ⟨rfl, rfl, rfl⟩
  have served := serve_served v.engine v.call calm.isHonest
  unfold visit at he
  generalize hr : v.engine.serve v.call (received d v) = r at served
  cases served with
  | failed hs =>
    rw [Work.desk_of_error hr, hs] at he
    exact .inl he
  | duplicate _ hs =>
    rw [Work.desk_of_ok hr, hs] at he
    exact .inl he
  | told _ ht =>
    rw [Work.desk_of_ok hr] at he
    rcases ht.mem_entries he hk with he | ⟨e, _, _, _, hc, -, hkey⟩
    · exact .inl he
    · exact .inr (by rw [Visit.key?, hc, ← hkey])

/-! ## One supply -/

def drawing : Desk → List (Clock × Engine × Call) → List Visit
  | _, [] => []
  | d, (clock, g, c) :: calls => ⟨clock, d.ids, g, c⟩ :: drawing (visit d ⟨clock, d.ids, g, c⟩) calls

theorem mem_drawing {calls : List (Clock × Engine × Call)} : ∀ {d : Desk}, v ∈ drawing d calls →
    ∃ x ∈ calls, v.call = x.2.2 := by
  induction calls with
  | nil => exact fun h => by cases h
  | cons x calls ih =>
    obtain ⟨clock, g, c⟩ := x
    intro d h
    rcases List.mem_cons.mp h with rfl | h
    · exact ⟨_, List.mem_cons_self, rfl⟩
    · obtain ⟨y, hy, hc⟩ := ih h
      exact ⟨y, List.mem_cons_of_mem _ hy, hc⟩

def undisturbed : Clock × Engine × Call → Turn
  | (clock, g, c) => ⟨clock, .none, .call g c⟩

theorem visits_drawing (calls : List (Clock × Engine × Call)) :
    ∀ d : Desk, visits d (drawing d calls) = d.after (calls.map undisturbed) := by
  induction calls with
  | nil => exact fun _ => rfl
  | cons x calls ih =>
    obtain ⟨clock, g, c⟩ := x
    intro d
    exact (ih (visit d ⟨clock, d.ids, g, c⟩)).trans
      (congrArg (·.after (calls.map undisturbed)) (turn_call d clock .none g c).symm)

/-- What is drawn from one supply comes in order. -/
theorem given_drawing (calls : List (Clock × Engine × Call)) : ∀ d : Desk,
    d.ids.used ≤ (visits d (drawing d calls)).ids.used ∧ given d (drawing d calls) =
      (List.range' d.ids.used ((visits d (drawing d calls)).ids.used - d.ids.used)).map d.ids.at := by
  induction calls with
  | nil => exact fun d => ⟨Nat.le_refl _, by rw [drawing, given, visits, List.foldl_nil, Nat.sub_self]; rfl⟩
  | cons x calls ih =>
    obtain ⟨clock, g, c⟩ := x
    intro d
    have beside := serve_beside g c (received d ⟨clock, d.ids, g, c⟩)
    have used : d.ids.used ≤ (visit d ⟨clock, d.ids, g, c⟩).ids.used := beside.used
    have names : (visit d ⟨clock, d.ids, g, c⟩).ids.names = d.ids.names := beside.names
    obtain ⟨used', rest⟩ := ih (visit d ⟨clock, d.ids, g, c⟩)
    have same : (visit d ⟨clock, d.ids, g, c⟩).ids.at = d.ids.at := funext (IdSupply.at_of_names names)
    refine ⟨Nat.le_trans used used', ?_⟩
    rw [drawing, given, rest, drawn, same, ← List.map_append]
    rw [show visits d (⟨clock, d.ids, g, c⟩ :: drawing (visit d ⟨clock, d.ids, g, c⟩) calls) =
      visits (visit d ⟨clock, d.ids, g, c⟩) (drawing (visit d ⟨clock, d.ids, g, c⟩) calls) from rfl]
    generalize visit d ⟨clock, d.ids, g, c⟩ = d₁ at used used'
    generalize visits d₁ _ = d₂ at used'
    obtain ⟨m, hm⟩ := Nat.le.dest used
    obtain ⟨n, hn⟩ := Nat.le.dest used'
    have first : d₁.ids.used - d.ids.used = m := by omega
    have second : d₂.ids.used - d₁.ids.used = n := by omega
    have both : d₂.ids.used - d.ids.used = m + n := by omega
    rw [first, second, both, ← hm, List.range'_append_1]

theorem given_nodup (h : d.ids.IsFresh) (calls : List (Clock × Engine × Call)) :
    (given d (drawing d calls)).Nodup := by
  rw [(given_drawing calls d).2]
  exact List.pairwise_map.mpr ((List.nodup_range' 1).imp fun hne hid => hne (h _ _ hid))

/-! ## Calls that draw nothing -/

/-- No id is drawn. -/
def Undrawn (d d' : Desk) : Prop := d'.ids = d.ids

instance : Wide Undrawn where
  refl _ := rfl
  trans h h' := h'.trans h
  log _ _ := rfl
  pass _ _ := rfl
  know _ _ := rfl
  broken _ := rfl
  check _ _ _ := rfl
  back h := h
  session _ _ := rfl

instance : Bracketed (Kept Undrawn) where
  begin _ := rfl
  checkPasses := .checkPasses
  commit := .commit fun _ => rfl
  withContext _ := .withContext id
  withLock _ _ := .withLock fun _ h => h

theorem drawn_nil (h : ∀ e, v.call ≠ .handle e) (d : Desk) : drawn d v = [] := by
  have undrawn : Keeps Undrawn (v.engine.serve v.call) := by
    cases hc : v.call with
    | open_ loanId founderId actor => unfold serve openLoan; infer_instance
    | handle e => exact absurd hc (h e)
    | pay loanId id actor => unfold serve markPaid; infer_instance
  have same : (visit d v).ids = v.ids := undrawn.holds (received d v)
  rw [drawn, same, Nat.sub_self]
  rfl

theorem drawn_nodup (h : v.ids.IsFresh) (d : Desk) : (drawn d v).Nodup :=
  List.pairwise_map.mpr ((List.nodup_range' 1).imp fun hne hid => hne (h _ _ hid))

end LoanLedger.Engine

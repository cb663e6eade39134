import LoanLedger.Proofs.Confined
import LoanLedger.Proofs.Visits

/-!
# Loans do not interfere

* `visitScope` : what a visit has to itself; `visit_fits` : it leaves the rest as it is;
* `Accounted d ids past` : where the rows come from after some visits;
* `Twin loanId d d'` : the desk has the rows of the loan alone; `Twin.same`, `Twin.other` : a visit of the loan comes to
  the same there, and one of another loan need not come at all;
* `visits_twin`, `loans_do_not_interfere` : so the visits of a loan come to the same without the others.
-/

namespace LoanLedger.Engine

open Ledger

variable {d d' : Desk} {v : Visit} {vs : List Visit} {ids : List String} {past : List Visit} {loanId : String}

/-! ## The scope of a visit -/

/-- Where the rows come from: the ids were drawn, each for one loan, and what is recorded under a key belongs to
the loan of an event with that key. -/
structure Accounted (d : Desk) (ids : List String) (past : List Visit) : Prop where
  ids : ∀ x ∈ d.store.disbursements, x.id ∈ ids
  loans : ∀ x ∈ d.store.disbursements, ∀ y ∈ d.store.disbursements, x.id = y.id → x.loanId = y.loanId
  keys :
    ∀ e ∈ d.store.entries, ∀ key, e.key = some key → ∃ w ∈ past, w.loanId = e.loanId ∧ w.key? = some key

theorem mem_drawn {n : Nat} (h : v.ids.used ≤ n) (h' : n < (visit d v).ids.used) :
    IdSupply.at ⟨v.ids.names, v.ids.used⟩ n ∈ drawn d v :=
  List.mem_map.mpr ⟨n, List.mem_range'_1.mpr ⟨h, by omega⟩, rfl⟩

/-- What a visit has to itself: the rows of its loan, the key of its event, and the ids that it draws. -/
def visitScope (h : Accounted d ids past) (hn : ∀ id ∈ drawn d v, id ∉ ids) : Scope where
  loanId := v.loanId
  keys := v.key?.toList
  rest := d.store.others v.loanId
  own id := (∃ x ∈ d.store.disbursements, x.loanId = v.loanId ∧ x.id = id) ∨ id ∈ drawn d v
  names := v.ids.names
  first := v.ids.used
  last := (visit d v).ids.used
  gives _ h h' := .inr (mem_drawn h h')
  apart y hy ho := by
    obtain ⟨hmem, hother⟩ := List.mem_filter.mp hy
    rcases ho with ⟨x, hx, hl, hid⟩ | hdrawn
    · exact of_decide_eq_true hother ((h.loans y hmem x hx hid.symm).trans hl)
    · exact hn y.id hdrawn (h.ids y hmem)

/-- The desk as a visit finds it, with a session that begins. -/
def begun (d : Desk) (v : Visit) : Desk :=
  { received d v with session := .of d.store }

theorem begun_within (h : Accounted d ids past) (hn : ∀ id ∈ drawn d v, id ∉ ids) :
    (begun d v).Within (visitScope h hn) where
  store := ⟨rfl, fun x hx hl => .inl ⟨x, hx, hl, rfl⟩⟩
  session := ⟨rfl, fun x hx hl => .inl ⟨x, hx, hl, rfl⟩⟩
  names := rfl
  first := Nat.le_refl _

theorem begun_same (d : Desk) (v : Visit) : SameEnd (v.engine.serve v.call) (received d v) (begun d v) :=
  serve_session v.engine v.call ⟨rfl, rfl, rfl⟩ _

theorem begun_used (d : Desk) (v : Visit) :
    ((v.engine.serve v.call).desk (begun d v)).ids.used ≤ (visit d v).ids.used :=
  Nat.le_of_eq (congrArg IdSupply.used (begun_same d v).ids)

theorem visit_confined (h : Accounted d ids past) (hn : ∀ id ∈ drawn d v, id ∉ ids) :
    Confined (visitScope h hn) Answer (v.engine.serve v.call) :=
  (serve_confined v.engine rfl fun e he => by simp [visitScope, Visit.key?, he]).holds

theorem visit_fits (h : Accounted d ids past) (hn : ∀ id ∈ drawn d v, id ∉ ids) :
    (visitScope h hn).Fits (visit d v).store := by
  have within := (visit_confined h hn).within (begun_within h hn) (begun_used d v)
  rw [visit, ← (begun_same d v).store]
  exact within.store

theorem visit_others (h : Accounted d ids past) (hn : ∀ id ∈ drawn d v, id ∉ ids) :
    (visit d v).store.others v.loanId = d.store.others v.loanId :=
  (visit_fits h hn).others

/-- A visit accounts for the rows that it makes. -/
theorem Accounted.visit (h : Accounted d ids past) (hn : ∀ id ∈ drawn d v, id ∉ ids) :
    Accounted (visit d v) (ids ++ drawn d v) (past ++ [v]) := by
  have fits := visit_fits h hn
  have stays {x : Disbursement} (hx : x ∈ (Engine.visit d v).store.disbursements) (ho : x.loanId ≠ v.loanId) :
      x ∈ d.store.disbursements := by
    have rest : x ∈ ((Engine.visit d v).store.others v.loanId).disbursements :=
      List.mem_filter.mpr ⟨hx, decide_eq_true ho⟩
    rw [visit_others h hn] at rest
    exact (List.mem_filter.mp rest).1
  -- rows of the loan have ids that it had or draws now, and keys that it had or gives now; the others stay
  refine ⟨fun x hx => ?_, fun x hx y hy hid => ?_, fun e he key hk => ?_⟩
  · by_cases hl : x.loanId = v.loanId
    · rcases fits.own x hx hl with ⟨y, hy, -, hid⟩ | hdrawn
      · exact List.mem_append_left _ (hid ▸ h.ids y hy)
      · exact List.mem_append_right _ hdrawn
    · exact List.mem_append_left _ (h.ids x (stays hx hl))
  · by_cases hl : x.loanId = v.loanId
    · exact hl.trans (fits.loanId_of_own hy (hid ▸ fits.own x hx hl)).symm
    · by_cases hl' : y.loanId = v.loanId
      · exact absurd (fits.loanId_of_own hx (hid ▸ fits.own y hy hl')) hl
      · exact h.loans x (stays hx hl) y (stays hy hl') hid
  · by_cases hl : e.loanId = v.loanId
    · rcases mem_visit he hk with he | hv
      · obtain ⟨w, hw, hwl, hwk⟩ := h.keys e he key hk
        exact ⟨w, List.mem_append_left _ hw, hwl, hwk⟩
      · exact ⟨v, List.mem_append_right _ List.mem_cons_self, hl.symm, hv⟩
    · have rest : e ∈ ((Engine.visit d v).store.others v.loanId).entries :=
        List.mem_filter.mpr ⟨he, decide_eq_true hl⟩
      rw [visit_others h hn] at rest
      obtain ⟨w, hw, hwl, hwk⟩ := h.keys e (List.mem_filter.mp rest).1 key hk
      exact ⟨w, List.mem_append_left _ hw, hwl, hwk⟩

/-- Where the keys are apart, no entry of the rest has the key of the event. -/
theorem Accounted.isKeyed (h : Accounted d ids past) (hn : ∀ id ∈ drawn d v, id ∉ ids)
    (hk : KeysApart v.loanId (past ++ v :: vs)) : (visitScope h hn).IsKeyed := by
  intro e he key hkey hek
  obtain ⟨hmem, hother⟩ := List.mem_filter.mp he
  obtain ⟨w, hw, hwl, hwk⟩ := h.keys e hmem key hek
  have hv : v.key? = some key := Option.mem_toList.mp hkey
  exact hk v (by simp) w (List.mem_append_left _ hw) rfl (hwl ▸ of_decide_eq_true hother) key hv hwk

/-! ## The loan alone -/

/-- The desk has the rows of the loan alone, and is the same for a call in all else. -/
structure Twin (loanId : String) (d d' : Desk) : Prop where
  store : d'.store = d.store.only loanId
  locks : d'.locks = d.locks
  setup : d'.setup = d.setup
  context : d'.context = d.context
  guarded : d'.isGuarded = d.isGuarded

theorem Twin.begun_eq (h : Twin v.loanId d d') : begun d' v = { (begun d v).only v.loanId with log := d'.log } := by
  obtain ⟨store, session, clock, locks, setup, context, log, ids, guarded, faults, rival, checks⟩ := d'
  obtain ⟨rfl, rfl, rfl, rfl, rfl⟩ := h
  rfl

/-- A visit of the loan comes to the same for its rows alone. -/
theorem Twin.same (h : Twin v.loanId d d') (hacc : Accounted d ids past) (hn : ∀ id ∈ drawn d v, id ∉ ids)
    (hk : (visitScope hacc hn).IsKeyed) :
    Twin v.loanId (visit d v) (visit d' v) ∧ answerTo d' v = answerTo d v := by
  have ended : SameEnd (v.engine.serve v.call) ((begun d v).only v.loanId) (begun d' v) := by
    rw [h.begun_eq]
    exact .log _
  have beside := serve_beside v.engine v.call (received d v)
  have beside' := serve_beside v.engine v.call (received d' v)
  obtain ⟨answer, desk⟩ := (visit_confined hacc hn).alone hk (begun_within hacc hn) (begun_used d v)
  refine ⟨⟨?_, ?_, ?_, ?_, ?_⟩, ?_⟩
  · calc (visit d' v).store = ((v.engine.serve v.call).desk (begun d' v)).store := (begun_same d' v).store.symm
      _ = ((v.engine.serve v.call).desk ((begun d v).only v.loanId)).store := ended.store
      _ = ((v.engine.serve v.call).desk (begun d v)).store.only v.loanId := congrArg Desk.store desk
      _ = (visit d v).store.only v.loanId := congrArg (·.only v.loanId) (begun_same d v).store
  · exact beside'.locks.trans (h.locks.trans beside.locks.symm)
  · exact beside'.setup.trans (h.setup.trans beside.setup.symm)
  · exact beside'.context.trans (h.context.trans beside.context.symm)
  · exact beside'.guarded.trans (h.guarded.trans beside.guarded.symm)
  · calc answerTo d' v = (v.engine.serve v.call).answer (begun d' v) := (begun_same d' v).answer.symm
      _ = (v.engine.serve v.call).answer ((begun d v).only v.loanId) := ended.answer
      _ = (v.engine.serve v.call).answer (begun d v) := answer
      _ = answerTo d v := (begun_same d v).answer

theorem Twin.other (h : Twin loanId d d') (ho : v.loanId ≠ loanId) (hacc : Accounted d ids past)
    (hn : ∀ id ∈ drawn d v, id ∉ ids) : Twin loanId (visit d v) d' := by
  have beside := serve_beside v.engine v.call (received d v)
  refine ⟨?_, h.locks.trans beside.locks.symm, h.setup.trans beside.setup.symm, h.context.trans beside.context.symm,
    h.guarded.trans beside.guarded.symm⟩
  calc d'.store = d.store.only loanId := h.store
    _ = (d.store.others v.loanId).only loanId := (Tables.only_others (Ne.symm ho) d.store).symm
    _ = ((visit d v).store.others v.loanId).only loanId := by rw [visit_others hacc hn]
    _ = (visit d v).store.only loanId := Tables.only_others (Ne.symm ho) _

/-! ## Runs -/

theorem accounted_empty (hd : d.store = .empty) : Accounted d [] [] := by
  refine ⟨fun x hx => ?_, fun x hx => ?_, fun e he => ?_⟩
  · rw [hd] at hx; cases hx
  · rw [hd] at hx; cases hx
  · rw [hd] at he; cases he

theorem twin_empty (hd : d.store = .empty) : Twin loanId d d :=
  ⟨by rw [hd]; rfl, rfl, rfl, rfl, rfl⟩

theorem visitsOf_own (h : v.loanId = loanId) : visitsOf loanId (v :: vs) = v :: visitsOf loanId vs :=
  List.filter_cons_of_pos (decide_eq_true h)

theorem visitsOf_other (h : v.loanId ≠ loanId) : visitsOf loanId (v :: vs) = visitsOf loanId vs :=
  List.filter_cons_of_neg (by simpa using h)

theorem visitsOf_swap {w : Visit} (h : v.loanId ≠ w.loanId) (loanId : String) (vs : List Visit) :
    visitsOf loanId (v :: w :: vs) = visitsOf loanId (w :: v :: vs) := by
  by_cases hv : v.loanId = loanId
  · have hw : w.loanId ≠ loanId := fun hw => h (hv.trans hw.symm)
    rw [visitsOf_own hv, visitsOf_other hw, visitsOf_other hw, visitsOf_own hv]
  · by_cases hw : w.loanId = loanId
    · rw [visitsOf_other hv, visitsOf_own hw, visitsOf_own hw, visitsOf_other hv]
    · rw [visitsOf_other hv, visitsOf_other hw, visitsOf_other hw, visitsOf_other hv]

theorem KeysApart.of_subset {ws : List Visit} (h : KeysApart loanId vs) (hs : ws ⊆ vs) : KeysApart loanId ws :=
  fun v hv w hw => h v (hs hv) w (hs hw)

/-- The visits of a loan come to the same without the others. -/
theorem visits_twin : ∀ {d d' : Desk} {ids : List String} {past : List Visit}, Accounted d ids past →
      Twin loanId d d' → (ids ++ given d vs).Nodup → KeysApart loanId (past ++ vs) →
      Twin loanId (visits d vs) (visits d' (visitsOf loanId vs)) ∧
        answers loanId d' (visitsOf loanId vs) = answers loanId d vs := by
  induction vs with
  | nil => exact fun _ ht _ _ => ⟨ht, rfl⟩
  | cons v vs ih =>
    intro d d' ids past hacc ht hids hk
    rw [given, ← List.append_assoc] at hids
    have hn : ∀ id ∈ drawn d v, id ∉ ids := fun id hid hid' =>
      (List.nodup_append.mp (List.nodup_append.mp hids).1).2.2 id hid' id hid rfl
    have hk' : KeysApart loanId ((past ++ [v]) ++ vs) := by rwa [List.append_assoc]
    -- a visit of the loan is made at both desks; any other only at the first one, and is not seen at the second
    by_cases hl : v.loanId = loanId
    · subst hl
      obtain ⟨twin, answer⟩ := ht.same hacc hn (hacc.isKeyed hn hk)
      obtain ⟨twins, rest⟩ := ih (hacc.visit hn) twin hids hk'
      rw [visitsOf_own rfl]
      refine ⟨twins, ?_⟩
      rw [answers, answers, if_pos rfl, if_pos rfl, answer, rest]
    · obtain ⟨twins, rest⟩ := ih (hacc.visit hn) (ht.other hl hacc hn) hids hk'
      rw [visitsOf_other hl]
      refine ⟨twins, ?_⟩
      rw [rest, answers, if_neg hl]

/-! ## Non-interference -/

/-- Loans do not interfere. In a run of calls on any loans that starts from empty tables and draws no id twice, what
belongs to a loan at the end, and the answers to its calls, are those of the run of its calls alone, with the same
clock readings and ids, unless an event of another loan has the key of one of its events. So two calls in a row on
different loans may change places. And calls that draw from one fresh supply of ids make such a run. -/
theorem loans_do_not_interfere (d : Desk) (hd : d.store = .empty) :
    (∀ (vs : List Visit) (loanId : String), (given d vs).Nodup → KeysApart loanId vs →
      (visits d vs).store.only loanId = (visits d (visitsOf loanId vs)).store ∧
        answers loanId d vs = answers loanId d (visitsOf loanId vs)) ∧
    (∀ (us ws : List Visit) (v w : Visit) (loanId : String), v.loanId ≠ w.loanId →
      (given d (us ++ v :: w :: ws)).Nodup → (given d (us ++ w :: v :: ws)).Nodup →
        KeysApart loanId (us ++ v :: w :: ws) →
          (visits d (us ++ v :: w :: ws)).store.only loanId = (visits d (us ++ w :: v :: ws)).store.only loanId ∧
            answers loanId d (us ++ v :: w :: ws) = answers loanId d (us ++ w :: v :: ws)) ∧
    ∀ calls : List (Clock × Engine × Call), d.ids.IsFresh →
      (given d (drawing d calls)).Nodup ∧ visits d (drawing d calls) = d.after (calls.map undisturbed) := by
  have alone (vs : List Visit) (loanId : String) (hids : (given d vs).Nodup) (hk : KeysApart loanId vs) :
      (visits d vs).store.only loanId = (visits d (visitsOf loanId vs)).store ∧
        answers loanId d vs = answers loanId d (visitsOf loanId vs) := by
    obtain ⟨twin, same⟩ := visits_twin (accounted_empty hd) (twin_empty hd) hids hk
    exact ⟨twin.store.symm, same.symm⟩
  refine ⟨alone, fun us ws v w loanId hne hids hids' hk => ?_, fun calls hf =>
    ⟨given_nodup hf calls, visits_drawing calls d⟩⟩
  have swapped : visitsOf loanId (us ++ v :: w :: ws) = visitsOf loanId (us ++ w :: v :: ws) := by
    rw [visitsOf, List.filter_append, visitsOf, List.filter_append]
    exact congrArg _ (visitsOf_swap hne loanId ws)
  have perm : (us ++ w :: v :: ws).Perm (us ++ v :: w :: ws) := (List.Perm.swap v w ws).append_left us
  have hk' : KeysApart loanId (us ++ w :: v :: ws) := hk.of_subset perm.subset
  obtain ⟨store, same⟩ := alone _ loanId hids hk
  obtain ⟨store', same'⟩ := alone _ loanId hids' hk'
  rw [swapped] at store same
  exact ⟨store.trans store'.symm, same.trans same'.symm⟩

def knockNext : Event := { knock with loanId := "L2" }

def atNoon (c : Call) : Visit := ⟨noon.clock, noon.ids, looping, c⟩

/-- Two loans are opened, and an event comes to each. -/
def bothKnocked : List (Clock × Engine × Call) :=
  [(noon.clock, looping, .open_ "L1" "F1" systemActor), (noon.clock, looping, .open_ "L2" "F2" systemActor),
    (noon.clock, looping, .handle knock), (noon.clock, looping, .handle knockNext)]

theorem bothKnocked_apart : KeysApart "L1" (drawing noon bothKnocked) := by
  have keys (v : Visit) (hv : v ∈ drawing noon bothKnocked) (key : String) (hk : v.key? = some key) :
      (v.loanId = "L1" ∧ key = knock.key) ∨ (v.loanId ≠ "L1" ∧ key = knockNext.key) := by
    obtain ⟨x, hx, hc⟩ := mem_drawing hv
    simp only [bothKnocked, List.mem_cons, List.not_mem_nil, or_false] at hx
    rw [Visit.key?, hc] at hk
    rw [Visit.loanId, hc]
    rcases hx with rfl | rfl | rfl | rfl <;> cases hk
    · exact .inl ⟨rfl, rfl⟩
    · exact .inr ⟨by decide, rfl⟩
  intro v hv w hw hl ho key hkv hkw
  rcases keys v hv key hkv with ⟨-, rfl⟩ | ⟨hne, -⟩
  · rcases keys w hw _ hkw with ⟨heq, -⟩ | ⟨-, hkey⟩
    · exact ho heq
    · exact absurd hkey (by decide)
  · exact hne hl

/-- Two loans are opened, and an event comes to the first one. -/
def knockedOnce (first second : Call) : List Visit :=
  [atNoon first, atNoon second, atNoon (.handle knock)]

theorem knockedOnce_nodup {first second : Call} (h : ∀ e, first ≠ .handle e) (h' : ∀ e, second ≠ .handle e) :
    (given noon (knockedOnce first second)).Nodup := by
  rw [knockedOnce, given, drawn_nil h, given, drawn_nil h', given, given, List.nil_append, List.nil_append,
    List.append_nil]
  exact drawn_nodup (IdSupply.numbered_isFresh 0) _

theorem loans_do_not_interfere_at_noon :
    noon.store = .empty ∧ noon.ids.IsFresh ∧ (given noon (drawing noon bothKnocked)).Nodup ∧
      KeysApart "L1" (drawing noon bothKnocked) ∧
      (visits noon (drawing noon bothKnocked)).store.only "L1" =
        (visits noon (visitsOf "L1" (drawing noon bothKnocked))).store ∧
      (visits noon (knockedOnce (.open_ "L1" "F1" systemActor) (.open_ "L2" "F2" systemActor))).store.only "L1" =
        (visits noon (knockedOnce (.open_ "L2" "F2" systemActor) (.open_ "L1" "F1" systemActor))).store.only "L1" := by
  have fresh : noon.ids.IsFresh := IdSupply.numbered_isFresh 0
  obtain ⟨alone, swapped, one⟩ := loans_do_not_interfere noon rfl
  have nodup := (one bothKnocked fresh).1
  have opened : KeysApart "L1" (knockedOnce (.open_ "L1" "F1" systemActor) (.open_ "L2" "F2" systemActor)) := by
    intro v _ w hw _ ho key _ hkw
    simp only [knockedOnce, List.mem_cons, List.not_mem_nil, or_false] at hw
    rcases hw with rfl | rfl | rfl
    · cases hkw
    · cases hkw
    · exact ho rfl
  exact ⟨rfl, fresh, nodup, bothKnocked_apart, (alone _ "L1" nodup bothKnocked_apart).1,
    (swapped [] [atNoon (.handle knock)] (atNoon (.open_ "L1" "F1" systemActor)) (atNoon (.open_ "L2" "F2" systemActor))
      "L1" (by decide) (knockedOnce_nodup nofun nofun) (knockedOnce_nodup nofun nofun) opened).1⟩

end LoanLedger.Engine

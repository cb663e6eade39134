import LoanLedger.Proofs.Results
import Mathlib.Data.List.Nodup

/-!
# Sorted keys

* `sortKeys?_perm` : sorting keeps the entries, whatever their keys are;
* `TextLE k k'` : both keys are texts, and the second does not come before the first;
* `sortKeys?_texts` : entries under texts are sorted into the order of their keys;
* `sortKeys?_of_perm`, `sortKeys?_eq_of_perm` : where no text is there twice, it does not matter in which order the
  entries came.
-/

namespace LoanLedger

variable {α : Type} {es fs sorted : List (Value × α)}

/-! ## Sorting keeps the entries -/

theorem splitRun?_perm {run rest : List (Value × α)} (h : splitRun? es = .ok (run, rest)) :
    (run ++ rest).Perm es := by
  unfold splitRun? at h
  split at h
  · next e f es =>
    obtain ⟨descending, -, h⟩ := bind_ok h
    obtain ⟨n, -, h⟩ := bind_ok h
    obtain ⟨rfl, rfl⟩ := Prod.mk.inj (Except.ok.inj h)
    have whole : ((e :: f :: es).take n ++ (e :: f :: es).drop n).Perm (e :: f :: es) := by
      rw [List.take_append_drop]
    cases descending
    · exact whole
    · exact ((List.reverse_perm _).append_right _).trans whole
  · cases h
    rw [List.append_nil]

theorem insertAll?_perm {out : List (Value × α)} (h : insertAll? sorted es = .ok out) :
    out.Perm (sorted ++ es) := by
  induction es generalizing sorted with
  | nil =>
    cases h
    rw [List.append_nil]
  | cons e es ih =>
    rw [insertAll?] at h
    obtain ⟨n, -, h⟩ := bind_ok h
    have placed : (sorted.take n ++ e :: sorted.drop n).Perm (e :: sorted) := by
      refine List.perm_middle.trans ?_
      rw [List.take_append_drop]
    calc out.Perm ((sorted.take n ++ e :: sorted.drop n) ++ es) := ih h
      _ |>.Perm ((e :: sorted) ++ es) := placed.append_right es
      _ |>.Perm (sorted ++ e :: es) := List.perm_middle.symm

theorem sortKeys?_perm {out : List (Value × α)} (h : sortKeys? es = .ok out) : out.Perm es := by
  unfold sortKeys? at h
  obtain ⟨⟨run, rest⟩, hr, h⟩ := bind_ok h
  exact (insertAll?_perm h).trans (splitRun?_perm hr)

/-! ## The order of texts -/

def AreTexts (es : List (Value × α)) : Prop := ∀ p ∈ es, ∃ s, p.1 = .text s

theorem AreTexts.mono {es' : List (Value × α)} (h : AreTexts es) (hs : ∀ p ∈ es', p ∈ es) : AreTexts es' :=
  fun p hp => h p (hs p hp)

theorem less?_text (s t : String) : (Value.text s).less? (.text t) = .ok (decide (s < t)) := by
  simp [Value.less?, Value.text?]

/-- Both keys are texts, and the second does not come before the first. -/
def TextLE (k k' : Value) : Prop := ∃ s t, k = .text s ∧ k' = .text t ∧ s ≤ t

theorem TextLE.trans {k k' k'' : Value} (h : TextLE k k') (h' : TextLE k' k'') : TextLE k k'' := by
  obtain ⟨s, t, rfl, rfl, hst⟩ := h
  obtain ⟨_, u, ⟨⟩, rfl, htu⟩ := h'
  exact ⟨s, u, rfl, rfl, String.le_trans hst htu⟩

theorem TextLE.antisymm {k k' : Value} (h : TextLE k k') (h' : TextLE k' k) : k = k' := by
  obtain ⟨s, t, rfl, rfl, hst⟩ := h
  obtain ⟨_, _, ⟨⟩, ⟨⟩, hts⟩ := h'
  rw [String.le_antisymm hst hts]

theorem textLE_of_lt {s t : String} (h : s < t) : TextLE (.text s) (.text t) :=
  ⟨s, t, rfl, rfl, String.not_lt.mp (String.lt_asymm h)⟩

theorem textLE_of_not_lt {s t : String} (h : ¬ t < s) : TextLE (.text s) (.text t) :=
  ⟨s, t, rfl, rfl, String.not_lt.mp h⟩

/-- The entries stand in the order of their keys, which are texts. -/
def InOrder (es : List (Value × α)) : Prop := es.Pairwise fun p q => TextLE p.1 q.1

/-! ## Sorting texts -/

/-- The key follows the other one in a run: texts that ascend, or that descend. -/
def Runs (descending : Bool) (k k' : Value) : Prop := if descending then TextLE k' k else TextLE k k'

theorem Runs.trans {descending : Bool} {k k' k'' : Value} (h : Runs descending k k') (h' : Runs descending k' k'') :
    Runs descending k k'' := by
  cases descending
  · exact TextLE.trans h h'
  · exact TextLE.trans h' h

theorem runs_of_decide {descending : Bool} {s t : String} (h : decide (t < s) = descending) :
    Runs descending (.text s) (.text t) := by
  cases descending
  · exact textLE_of_not_lt (by simpa using h)
  · exact textLE_of_lt (by simpa using h)

/-- A run at the front of texts is told by its length. -/
theorem runLength?_texts (descending : Bool) {e : Value × α} (h : AreTexts (e :: es)) :
    ∃ n, runLength? descending e.1 es = .ok (n + 1) ∧
      ((e :: es).take (n + 1)).Pairwise fun p q => Runs descending p.1 q.1 := by
  induction es generalizing e with
  | nil => exact ⟨0, rfl, by simp⟩
  | cons f es ih =>
    obtain ⟨n, hn, run⟩ := ih (h.mono fun p hp => List.mem_cons_of_mem e hp)
    obtain ⟨s, hs⟩ := h e (by simp)
    obtain ⟨t, ht⟩ := h f (by simp)
    by_cases hd : decide (t < s) = descending
    · refine ⟨n + 1, ?_, ?_⟩
      · rw [runLength?, hs, ht, less?_text, ← ht]
        simp only [bind, Except.bind, pure, Except.pure, hd, hn, if_true]
      · have first : Runs descending e.1 f.1 := by
          rw [hs, ht]
          exact runs_of_decide hd
        rw [List.take_succ_cons] at run ⊢
        rw [List.take_succ_cons]
        refine List.pairwise_cons.mpr ⟨?_, run⟩
        intro q hq
        rcases List.mem_cons.mp hq with rfl | hq
        · exact first
        · exact first.trans ((List.pairwise_cons.mp run).1 q hq)
    · refine ⟨0, ?_, by simp⟩
      rw [runLength?, hs, ht, less?_text]
      simp only [bind, Except.bind, pure, Except.pure, hd, if_false]

/-- What is split off the front of texts is in order. -/
theorem splitRun?_texts (h : AreTexts es) : ∃ run rest, splitRun? es = .ok (run, rest) ∧ InOrder run := by
  match es with
  | [] => exact ⟨[], [], rfl, .nil⟩
  | [e] => exact ⟨[e], [], rfl, List.pairwise_singleton _ e⟩
  | e :: f :: es =>
    obtain ⟨s, hs⟩ := h e (by simp)
    obtain ⟨t, ht⟩ := h f (by simp)
    obtain ⟨n, hn, run⟩ := runLength?_texts (decide (t < s)) h
    have split : splitRun? (e :: f :: es) =
        .ok (if decide (t < s) then ((e :: f :: es).take (n + 1)).reverse else (e :: f :: es).take (n + 1),
          (e :: f :: es).drop (n + 1)) := by
      rw [splitRun?, ht, hs, less?_text, ← hs]
      simp only [bind, Except.bind, hn]
      rfl
    refine ⟨_, _, split, ?_⟩
    cases hd : decide (t < s) <;> rw [hd] at run
    · exact run
    · exact List.pairwise_reverse.mpr run

/-- A text is placed behind what does not come after it, and in front of the rest. -/
theorem place?_text {s : String} (ho : InOrder sorted) (ht : AreTexts sorted) :
    ∀ fuel low high : Nat, low ≤ high → high ≤ sorted.length → high < low + fuel →
      (∀ p ∈ sorted.take low, TextLE p.1 (.text s)) → (∀ p ∈ sorted.drop high, TextLE (.text s) p.1) →
      ∃ n, place? (.text s) sorted fuel low high = .ok n ∧
        (∀ p ∈ sorted.take n, TextLE p.1 (.text s)) ∧ ∀ p ∈ sorted.drop n, TextLE (.text s) p.1 := by
  intro fuel
  induction fuel with
  | zero => intro low high hle _ hlt; omega
  | succ fuel ih =>
    intro low high hle hlen hlt below above
    unfold place?
    by_cases hlh : low < high
    · generalize hm : low + (high - low) / 2 = m
      have hml : m < sorted.length := by omega
      obtain ⟨t, hk⟩ := ht sorted[m] (List.getElem_mem hml)
      -- the entry in the middle cuts the sorted ones into those before it and those behind it
      have cut : sorted = sorted.take m ++ sorted[m] :: sorted.drop (m + 1) := by
        rw [← List.drop_eq_getElem_cons hml, List.take_append_drop]
      have parts := ho
      rw [InOrder, cut, List.pairwise_append, List.pairwise_cons] at parts
      obtain ⟨-, ⟨behind, -⟩, across⟩ := parts
      rw [if_pos hlh]
      simp only [List.getElem?_eq_getElem hml, bind, Except.bind, hk, less?_text]
      by_cases hst : s < t
      · simp only [hst, decide_true, if_true]
        apply ih _ _ (by omega) (by omega) (by omega) below
        intro p hp
        rw [List.drop_eq_getElem_cons hml] at hp
        have front : TextLE (.text s) sorted[m].1 := hk ▸ textLE_of_lt hst
        rcases List.mem_cons.mp hp with rfl | hp
        · exact front
        · exact front.trans (behind p hp)
      · simp only [hst, decide_false, Bool.false_eq_true, if_false]
        apply ih _ _ (by omega) (by omega) (by omega) ?_ above
        intro p hp
        have front : TextLE sorted[m].1 (.text s) := hk ▸ textLE_of_not_lt hst
        rw [← List.take_append_getElem hml] at hp
        rcases List.mem_append.mp hp with hp | hp
        · exact (across p hp sorted[m] List.mem_cons_self).trans front
        · rw [List.mem_singleton.mp hp]
          exact front
    · obtain rfl : low = high := by omega
      rw [if_neg hlh]
      exact ⟨low, rfl, below, above⟩

/-- Texts that are put into an order are in order. -/
theorem insertAll?_texts (h : AreTexts es) (ht : AreTexts sorted) (ho : InOrder sorted) :
    ∃ out, insertAll? sorted es = .ok out ∧ InOrder out := by
  induction es generalizing sorted with
  | nil => exact ⟨sorted, rfl, ho⟩
  | cons e es ih =>
    obtain ⟨s, hs⟩ := h e (by simp)
    obtain ⟨n, hn, below, above⟩ := place?_text (s := s) ho ht (sorted.length + 1) 0 sorted.length (by omega)
      (by omega) (by omega) (by simp) (by simp)
    rw [← hs] at hn below above
    have texts : AreTexts (sorted.take n ++ e :: sorted.drop n) := by
      intro p hp
      rcases List.mem_append.mp hp with hp | hp
      · exact ht p (List.mem_of_mem_take hp)
      · rcases List.mem_cons.mp hp with rfl | hp
        · exact ⟨s, hs⟩
        · exact ht p (List.mem_of_mem_drop hp)
    have order : InOrder (sorted.take n ++ e :: sorted.drop n) := by
      refine List.pairwise_append.mpr ⟨ho.take, List.pairwise_cons.mpr ⟨above, ho.drop⟩, ?_⟩
      intro p hp q hq
      rcases List.mem_cons.mp hq with rfl | hq
      · exact below p hp
      · exact (below p hp).trans (above q hq)
    rw [insertAll?, hn]
    exact ih (h.mono fun p hp => List.mem_cons_of_mem e hp) texts order

theorem sortKeys?_texts (h : AreTexts es) : ∃ out, sortKeys? es = .ok out ∧ out.Perm es ∧ InOrder out := by
  obtain ⟨run, rest, hr, order⟩ := splitRun?_texts h
  have parts := splitRun?_perm hr
  have first : AreTexts run := h.mono fun p hp => parts.mem_iff.mp (List.mem_append_left _ hp)
  have others : AreTexts rest := h.mono fun p hp => parts.mem_iff.mp (List.mem_append_right _ hp)
  obtain ⟨out, ho, order⟩ := insertAll?_texts others first order
  have sorted : sortKeys? es = .ok out := by
    rw [sortKeys?, hr]
    exact ho
  exact ⟨out, sorted, sortKeys?_perm sorted, order⟩

/-- Entries in the order of their keys, no text twice, are what sorting them comes to, in whatever order they came. -/
theorem sortKeys?_of_perm (h : AreTexts fs) (hn : (fs.map (·.1)).Nodup) (ho : InOrder fs) (hp : fs.Perm es) :
    sortKeys? es = .ok fs := by
  obtain ⟨out, hs, perm, order⟩ := sortKeys?_texts (h.mono fun p hm => hp.mem_iff.mpr hm)
  have same : fs.Perm out := hp.trans perm.symm
  rw [hs, List.Perm.eq_of_pairwise ?_ ho order same]
  intro p q hpf hqo hpq hqp
  exact List.inj_on_of_nodup_map hn hpf (same.mem_iff.mpr hqo) (hpq.antisymm hqp)

/-- Where no text is there twice, it does not matter in which order the entries came. -/
theorem sortKeys?_eq_of_perm (h : AreTexts es) (hn : (es.map (·.1)).Nodup) (hp : es.Perm fs) :
    sortKeys? es = sortKeys? fs := by
  obtain ⟨out, ho, perm, order⟩ := sortKeys?_texts h
  have texts : AreTexts out := h.mono fun p hm => perm.mem_iff.mp hm
  rw [ho, sortKeys?_of_perm texts ((perm.map _).nodup_iff.mpr hn) order (perm.trans hp)]

end LoanLedger

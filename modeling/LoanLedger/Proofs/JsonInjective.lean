import LoanLedger.Proofs.Binary64.Text
import LoanLedger.Proofs.JsonText
import LoanLedger.Proofs.JsonTexts

/-!
# Different JSON values have different texts

* `Wire.form w`, `formOf c` : the first character of a text tells the form of the value;
* `join_append_inj` : where each part ends is seen from the parts, so joined parts tell the parts;
* `Wire.render_inj`, `Json.render_inj` : so the text of a value in a plain layout tells the value.
-/

namespace LoanLedger

open Text (Units Points)

namespace Wire

open Json (Layout)
open JsonOf (AreProper HaveProper areProper_iff haveProper_iff)

variable {layout : Layout} {j k : Wire} {r s : List Char}

/-! ## Numbers -/

/-- The text has none of the characters that may follow a value. -/
def IsToken (cs : List Char) : Prop := ∀ c ∈ cs, ¬(c = ',' ∨ c = ']' ∨ c = '\x7d')

/-- A token is cut off in front of what follows a value. -/
theorem IsToken.append_inj {cs ds : List Char} (hc : IsToken cs) (hd : IsToken ds) (hr : Stops r) (hs : Stops s)
    (h : cs ++ r = ds ++ s) : cs = ds ∧ r = s := by
  rcases List.append_eq_append_iff.mp h with ⟨es, he, hs'⟩ | ⟨es, he, hr'⟩
  · cases es with
    | nil => exact ⟨by simpa using he.symm, by simpa using hs'⟩
    | cons c es => exact absurd (hr c (by rw [hs']; rfl)) (hd c (by rw [he]; simp))
  · cases es with
    | nil => exact ⟨by simpa using he, by simpa using hr'.symm⟩
    | cons c es => exact absurd (hs c (by rw [hr']; rfl)) (hc c (by rw [he]; simp))

theorem isToken_ofInt (n : Int) : IsToken (Numeral.ofInt n).toList := by
  intro c hc
  rintro (rfl | rfl | rfl) <;> exact absurd (Numeral.mem_ofInt hc) (by decide)

theorem isToken_write (x : Binary64) : IsToken (x.write Binary64.jsonStyle).toList := by
  intro c hc hstop
  have part := Binary64.mem_write hc
  unfold Binary64.IsPart at part
  rcases hstop with rfl | rfl | rfl <;> revert part <;> decide

theorem write_ne_ofInt (x : Binary64) (n : Int) : (x.write Binary64.jsonStyle).toList ≠ (Numeral.ofInt n).toList := by
  obtain ⟨c, hc, digit, minus⟩ := x.exists_mem_write
  intro h
  rcases Numeral.mem_ofInt (h ▸ hc) with hd | hm
  · exact Bool.false_ne_true (digit.symm.trans hd)
  · exact minus hm

/-! ## Forms -/

/-- The forms of values that the first character of a text tells. -/
inductive Form where
  | null | bool | number | text | list | object
  deriving DecidableEq

def form : Wire → Form
  | null => .null
  | bool _ => .bool
  | int _ | float _ => .number
  | text _ => .text
  | list _ => .list
  | object _ => .object

/-- The form of a value whose text begins with the character. -/
def formOf (c : Char) : Option Form :=
  if c = 'n' then some .null
  else if c = 't' ∨ c = 'f' then some .bool
  else if c = '"' then some .text
  else if c = '[' then some .list
  else if c = '\x7b' then some .object
  else if c = ']' then none
  else some .number

theorem formOf_number {c : Char} (h : c ∉ ['n', 't', 'f', '"', '[', '\x7b', ']']) : formOf c = some .number := by
  simp only [List.mem_cons, List.not_mem_nil, or_false, not_or] at h
  obtain ⟨hn, ht, hf, hq, hl, ho, he⟩ := h
  rw [formOf, if_neg hn, if_neg (not_or.mpr ⟨ht, hf⟩), if_neg hq, if_neg hl, if_neg ho, if_neg he]

theorem formOf_of_decimal {c : Char} {cs : List Char} {p : Nat × Int} (h : Binary64.decimalOf? (c :: cs) = some p) :
    formOf c = some .number := by
  refine formOf_number fun hc => ?_
  simp only [List.mem_cons, List.not_mem_nil, or_false] at hc
  rcases hc with rfl | rfl | rfl | rfl | rfl | rfl | rfl <;> cases h

theorem formOf_of_part {c : Char} (h : c.isDigit = true ∨ c = '-') : formOf c = some .number := by
  refine formOf_number fun hc => ?_
  simp only [List.mem_cons, List.not_mem_nil, or_false] at hc
  rcases hc with rfl | rfl | rfl | rfl | rfl | rfl | rfl <;> exact absurd h (by decide)

theorem exists_formOf_write {x : Binary64} (h : x.IsNumber) :
    ∃ c cs, (x.write Binary64.jsonStyle).toList = c :: cs ∧ formOf c = some .number := by
  cases x with
  | nan => exact ⟨_, _, rfl, by decide⟩
  | infinity neg => cases neg <;> exact ⟨_, _, rfl, by decide⟩
  | finite neg m e =>
    obtain ⟨ds, k, hd, -⟩ := Binary64.roundsTo_unsigned neg h
    rw [Binary64.write, String.toList_ofList]
    cases neg with
    | true => exact ⟨_, _, rfl, by decide⟩
    | false =>
      have body := Binary64.exists_mem_write (.finite false m e)
      rw [Binary64.write, String.toList_ofList] at body
      change ∃ c ∈ Binary64.unsigned (.finite false m e), _ at body
      change ∃ c cs, Binary64.unsigned (.finite false m e) = c :: cs ∧ _
      cases hcs : Binary64.unsigned (.finite false m e) with
      | nil =>
        obtain ⟨c, hc, -⟩ := body
        rw [hcs] at hc
        cases hc
      | cons c cs =>
        rw [hcs] at hd
        exact ⟨c, cs, rfl, formOf_of_decimal hd⟩

/-- The first character of a text tells the form of the value. -/
theorem exists_formOf (layout : Layout) (hj : j.IsProper) :
    ∃ c cs, renderChars layout j = c :: cs ∧ formOf c = some j.form := by
  cases j with
  | null => exact ⟨_, _, rfl, rfl⟩
  | bool b => cases b <;> exact ⟨_, _, rfl, rfl⟩
  | int n =>
    cases hcs : (Numeral.ofInt n).toList with
    | nil => exact absurd hcs (by simp [Numeral.toList_ofInt, Nat.toDigits_ne_nil])
    | cons c cs => exact ⟨c, cs, hcs, formOf_of_part (Numeral.mem_ofInt (hcs ▸ List.mem_cons_self))⟩
  | float x => exact exists_formOf_write hj
  | text t => exact ⟨_, _, rfl, rfl⟩
  | list vs => exact ⟨_, _, rfl, rfl⟩
  | object ms => exact ⟨_, _, rfl, rfl⟩

/-- Values with the same text, whatever follows it, have the same form. -/
theorem form_eq (hj : j.IsProper) (hk : k.IsProper) (h : renderChars layout j ++ r = renderChars layout k ++ s) :
    j.form = k.form := by
  obtain ⟨c, cs, hc, form⟩ := exists_formOf layout hj
  obtain ⟨c', cs', hc', form'⟩ := exists_formOf layout hk
  rw [hc, hc'] at h
  rw [(List.cons.inj h).1, form'] at form
  exact (Option.some.inj form).symm

/-! ## Parts -/

section Parts

variable {α : Type} {f : α → List Char} {comma : List Char} {close : Char}

/-- What stands behind the first of joined parts. -/
def behind (comma : List Char) (close : Char) (r : List Char) : List (List Char) → List Char
  | [] => close :: r
  | t :: ts => comma ++ (join comma (t :: ts) ++ close :: r)

theorem join_cons (comma t : List Char) (ts : List (List Char)) (close : Char) (r : List Char) :
    join comma (t :: ts) ++ close :: r = t ++ behind comma close r ts := by
  cases ts with
  | nil => rfl
  | cons u ts => rw [join_cons_cons, behind, List.append_assoc, List.append_assoc]

/-- A list of values or an object closes with its own character. -/
def IsClose (c : Char) : Prop := c = ']' ∨ c = '\x7d'

theorem stops_behind (hcomma : comma.head? = some ',') (hclose : IsClose close) (r : List Char)
    (ts : List (List Char)) : Stops (behind comma close r ts) := by
  cases ts with
  | nil => exact stops_cons (.inr hclose) r
  | cons t ts =>
    intro c hc
    rw [behind, List.head?_append, hcomma] at hc
    exact .inl (Option.some.inj hc).symm

/-- Parts end where something follows that may follow a value. -/
def EndsApart (f : α → List Char) (a b : α) : Prop :=
  ∀ {r s : List Char}, Stops r → Stops s → f a ++ r = f b ++ s → a = b ∧ r = s

/-- Where each part ends is seen from the parts, so joined parts tell the parts. -/
theorem join_append_inj (hcomma : comma.head? = some ',') (hclose : IsClose close) {as : List α} :
    ∀ {bs : List α}, (∀ a ∈ as, ∀ b ∈ bs, EndsApart f a b) →
      (∀ a ∈ as ++ bs, ∃ c ∈ (f a).head?, c ≠ close) →
      join comma (as.map f) ++ close :: r = join comma (bs.map f) ++ close :: s → as = bs ∧ r = s := by
  have closed {a : α} {r s : List Char} {ts : List (List Char)} (ha : ∃ c ∈ (f a).head?, c ≠ close)
      (h : close :: r = f a ++ behind comma close s ts) : False := by
    obtain ⟨c, hc, hne⟩ := ha
    have heads := congrArg List.head? h
    rw [List.head?_append, hc] at heads
    exact hne (Option.some.inj heads).symm
  induction as with
  | nil =>
    intro bs _ opens h
    cases bs with
    | nil => exact ⟨rfl, (List.cons.inj h).2⟩
    | cons b bs =>
      rw [List.map_cons, join_cons] at h
      exact (closed (opens b (by simp)) h).elim
  | cons a as ih =>
    intro bs part opens h
    cases bs with
    | nil =>
      rw [List.map_cons, join_cons] at h
      exact (closed (opens a (by simp)) h.symm).elim
    | cons b bs =>
      rw [List.map_cons, List.map_cons, join_cons, join_cons] at h
      obtain ⟨rfl, rests⟩ :=
        part a (by simp) b (by simp) (stops_behind hcomma hclose _ _) (stops_behind hcomma hclose _ _) h
      have separated {r s : List Char} {t : List Char} {ts : List (List Char)}
          (h : close :: r = behind comma close s (t :: ts)) : False := by
        have heads := congrArg List.head? h
        rw [behind, List.head?_append, hcomma] at heads
        have : close = ',' := Option.some.inj heads
        subst this
        exact absurd hclose (by simp [IsClose])
      cases as with
      | nil =>
        cases bs with
        | nil => exact ⟨rfl, (List.cons.inj rests).2⟩
        | cons b' bs => exact (separated rests).elim
      | cons a' as =>
        cases bs with
        | nil => exact (separated rests.symm).elim
        | cons b' bs =>
          have tails := List.append_cancel_left rests
          obtain ⟨same, hrs⟩ :=
            ih (fun x hx y hy => part x (List.mem_cons_of_mem a hx) y (List.mem_cons_of_mem a hy))
              (fun x hx => opens x (by
                rcases List.mem_append.mp hx with hx | hx
                · exact List.mem_append_left _ (List.mem_cons_of_mem a hx)
                · exact List.mem_append_right _ (List.mem_cons_of_mem a hx))) tails
          exact ⟨congrArg (a :: ·) same, hrs⟩

end Parts

/-! ## Values -/

theorem renderList_eq (layout : Layout) (vs : List Wire) : renderList layout vs = vs.map (renderChars layout) := by
  induction vs with
  | nil => rfl
  | cons v vs ih => rw [renderList, ih]; rfl

def memberChars (layout : Layout) (m : Units × Wire) : List Char :=
  renderText m.1 ++ layout.colon ++ renderChars layout m.2

theorem renderMembers_eq (layout : Layout) (ms : List (Units × Wire)) :
    renderMembers layout ms = ms.map (memberChars layout) := by
  induction ms with
  | nil => rfl
  | cons m ms ih => rw [renderMembers, ih]; rfl

/-- A text ends with its closing quote. -/
theorem renderText_append_inj {a b : Units} (h : renderText a ++ r = renderText b ++ s) : a = b ∧ r = s := by
  obtain ⟨cs, hcs, hread⟩ := readText?_quoted (r := r) a
  obtain ⟨cs', hcs', hread'⟩ := readText?_quoted (r := s) b
  rw [hcs, hcs'] at h
  obtain rfl : cs = cs' := (List.cons.inj h).2
  rw [hread'] at hread
  obtain ⟨ht, hrs⟩ := Prod.mk.inj (Option.some.inj hread)
  exact ⟨ht.symm, hrs.symm⟩

theorem memberChars_append_inj {m n : Units × Wire} (h : EndsApart (renderChars layout) m.2 n.2) :
    EndsApart (memberChars layout) m n := by
  intro r s hr hs he
  unfold memberChars at he
  rw [List.append_assoc, List.append_assoc, List.append_assoc, List.append_assoc] at he
  obtain ⟨name, rest⟩ := renderText_append_inj he
  obtain ⟨value, hrs⟩ := h hr hs (List.append_cancel_left rest)
  exact ⟨Prod.ext name value, hrs⟩

theorem opens_list {v : Wire} (hv : v.IsProper) : ∃ c ∈ (renderChars layout v).head?, c ≠ ']' := by
  obtain ⟨c, cs, hc, form⟩ := exists_formOf layout hv
  refine ⟨c, by rw [hc]; rfl, ?_⟩
  rintro rfl
  cases form

theorem opens_member (layout : Layout) (m : Units × Wire) : ∃ c ∈ (memberChars layout m).head?, c ≠ '\x7d' :=
  ⟨'"', rfl, by decide⟩

theorem comma_head (h : layout.IsPlain) : layout.comma.head? = some ',' := by
  obtain ⟨bs, hbs, -⟩ := h.comma
  rw [hbs]
  rfl

mutual

/-- The text of a value is told from the text of any other, whatever follows them. -/
theorem endsApart (hl : layout.IsPlain) (j : Wire) (hj : j.IsProper) {k : Wire} (hk : k.IsProper) :
    EndsApart (renderChars layout) j k := by
  intro r s hr hs h
  have form := form_eq hj hk h
  cases j with
  | null =>
    cases k with
    | null => exact ⟨rfl, List.append_cancel_left h⟩
    | _ => cases form
  | bool b =>
    cases k with
    | bool b' =>
      cases b <;> cases b'
      · exact ⟨rfl, List.append_cancel_left h⟩
      · cases h
      · cases h
      · exact ⟨rfl, List.append_cancel_left h⟩
    | _ => cases form
  | int n =>
    cases k with
    | int n' =>
      obtain ⟨ht, hrs⟩ := (isToken_ofInt n).append_inj (isToken_ofInt n') hr hs h
      exact ⟨congrArg int (Numeral.ofInt_inj (String.toList_inj.mp ht)), hrs⟩
    | float x => exact absurd ((isToken_ofInt n).append_inj (isToken_write x) hr hs h).1.symm (write_ne_ofInt x n)
    | _ => cases form
  | float x =>
    cases k with
    | int n => exact absurd ((isToken_write x).append_inj (isToken_ofInt n) hr hs h).1 (write_ne_ofInt x n)
    | float y =>
      obtain ⟨ht, hrs⟩ := (isToken_write x).append_inj (isToken_write y) hr hs h
      exact ⟨congrArg float (Binary64.write_inj hj hk (String.toList_inj.mp ht)), hrs⟩
    | _ => cases form
  | text a =>
    cases k with
    | text b => exact (renderText_append_inj h).imp_left (congrArg text)
    | _ => cases form
  | list vs =>
    cases k with
    | list ws =>
      rw [renderChars, renderChars, renderList_eq, renderList_eq, List.cons_append, List.cons_append, List.append_assoc,
        List.append_assoc] at h
      have opens : ∀ v ∈ vs ++ ws, ∃ c ∈ (renderChars layout v).head?, c ≠ ']' := fun v hv =>
        opens_list ((List.mem_append.mp hv).elim (areProper_iff.mp hj v) (areProper_iff.mp hk v))
      have part : ∀ v ∈ vs, ∀ w ∈ ws, EndsApart (renderChars layout) v w := fun v hv w hw =>
        endsApart_of_mem hl vs hj v hv (areProper_iff.mp hk w hw)
      exact (join_append_inj (comma_head hl) (.inl rfl) part opens (List.cons.inj h).2).imp_left (congrArg list)
    | _ => cases form
  | object ms =>
    cases k with
    | object ns =>
      rw [renderChars, renderChars, renderMembers_eq, renderMembers_eq, List.cons_append, List.cons_append,
        List.append_assoc, List.append_assoc] at h
      have part : ∀ m ∈ ms, ∀ n ∈ ns, EndsApart (memberChars layout) m n := fun m hm n hn =>
        memberChars_append_inj (endsApart_of_member hl ms hj m hm (haveProper_iff.mp hk n hn))
      exact (join_append_inj (comma_head hl) (.inr rfl) part (fun m _ => opens_member layout m)
        (List.cons.inj h).2).imp_left (congrArg object)
    | _ => cases form
termination_by structural j

theorem endsApart_of_mem (hl : layout.IsPlain) (vs : List Wire) (hv : AreProper vs) (v : Wire)
    (hm : v ∈ vs) {k : Wire} (hk : k.IsProper) : EndsApart (renderChars layout) v k := by
  cases vs with
  | nil => cases hm
  | cons w vs =>
    rcases List.mem_cons.mp hm with h | hm
    · rw [h]
      exact endsApart hl w hv.1 hk
    · exact endsApart_of_mem hl vs hv.2 v hm hk
termination_by structural vs

theorem endsApart_of_member (hl : layout.IsPlain) (ms : List (Units × Wire)) (hm : HaveProper ms) (m : Units × Wire)
    (h : m ∈ ms) {k : Wire} (hk : k.IsProper) : EndsApart (renderChars layout) m.2 k := by
  cases ms with
  | nil => cases h
  | cons n ms =>
    obtain ⟨name, v⟩ := n
    rcases List.mem_cons.mp h with h | h
    · rw [h]
      exact endsApart hl v hm.1 hk
    · exact endsApart_of_member hl ms hm.2 m h hk
termination_by structural ms

end

theorem render_inj (hl : layout.IsPlain) (hj : j.IsProper) (hk : k.IsProper) (h : j.render layout = k.render layout) :
    j = k := by
  have chars := String.ofList_injective h
  exact (endsApart hl j hj hk (r := []) (s := []) stops_nil stops_nil (by rw [chars])).1

end Wire

namespace Json

theorem unitsOf_injective : Function.Injective unitsOf := fun s t h =>
  Points.ofString_injective (by
    rw [← Points.merged_ofString s, ← Points.ofUnits_units, ← Points.merged_ofString t, ← Points.ofUnits_units]
    exact congrArg Points.ofUnits h)

theorem render_inj {layout : Layout} (hl : layout.IsPlain) {j k : Json} (hj : j.IsProper) (hk : k.IsProper)
    (h : j.render layout = k.render layout) : j = k :=
  JsonOf.map_injective unitsOf_injective
    (Wire.render_inj hl ((JsonOf.isProper_map_iff _ j).mpr hj) ((JsonOf.isProper_map_iff _ k).mpr hk) h)

end Json

end LoanLedger

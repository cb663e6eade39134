import LoanLedger.Audit.Tag
import LoanLedger.Proofs.Encodings

/-!
# Chain texts, read from their end

* `cutLast?_eq_some_iff` : characters are cut at their last bar, and `cutLast?_eq_none_iff` : not at all without one;
* `Link` : the loan, the number, the tag and the two hashes that the hash of an entry is taken of; `Link.text l` : the
  text of them;
* `Link.split?_eq_some_iff` : a text has five parts, the last four without a bar;
* `Link.ofText?_eq_some_iff` : it reads as a link exactly when it is the text of that link;
* `chainText_inj` : so a chain text tells what it is made of;
* `link_texts_tell` : different links have different texts, whatever their loans are called.
-/

namespace LoanLedger

/-! ## Hashes in a text -/

theorem IsDigest.ne_empty {s : String} (h : IsDigest s) : s ≠ "" := by
  rintro rfl
  exact absurd h.length (by decide)

theorem IsDigest.ne_genesis {s : String} (h : IsDigest s) : s ≠ Audit.genesis := by
  rintro rfl
  exact absurd h.length (by decide)

theorem IsDigest.noBar {s : String} (h : IsDigest s) : '|' ∉ s.toList :=
  fun hm => absurd (h.digits '|' hm) (by decide)

instance : DecidablePred IsDigest := fun s =>
  decidable_of_iff (s.length = 64 ∧ s.toList.all fun c => (Text.hexValue? c).isSome)
    ⟨fun h => ⟨h.1, List.all_eq_true.mp h.2⟩, fun h => ⟨h.length, List.all_eq_true.mpr h.digits⟩⟩

namespace Audit

variable {s : String} {cs l r : List Char} {prev : Option String} {t : Tag}

/-- What stands for the hash before an entry. -/
def mark : Option String → String
  | some h => if h = "" then genesis else h
  | none => genesis

/-- The hash that a mark stands for. -/
def unmark (s : String) : Option String :=
  if s = genesis then none else some s

/-- A hash before an entry is none, or a digest. -/
def IsPrevious (prev : Option String) : Prop := ∀ h ∈ prev, IsDigest h

instance : DecidablePred IsPrevious := fun prev => inferInstanceAs (Decidable (∀ h ∈ prev, IsDigest h))

theorem mark_of_isDigest {h : String} (hd : IsDigest h) : mark (some h) = h :=
  if_neg hd.ne_empty

theorem mark_noBar (hp : IsPrevious prev) : '|' ∉ (mark prev).toList := by
  cases prev with
  | none => decide
  | some h =>
    rw [mark_of_isDigest (hp h rfl)]
    exact (hp h rfl).noBar

theorem unmark_mark (hp : IsPrevious prev) : unmark (mark prev) = prev := by
  cases prev with
  | none => rfl
  | some h => rw [mark_of_isDigest (hp h rfl), unmark, if_neg (hp h rfl).ne_genesis]

theorem mark_unmark (hp : IsPrevious (unmark s)) : mark (unmark s) = s := by
  unfold unmark at hp ⊢
  split at hp
  · next hs => rw [if_pos hs, hs, mark]
  · next hs => rw [if_neg hs, mark_of_isDigest (hp s rfl)]

/-! ## Tags and numbers in a text -/

theorem Tag.noBar (t : Tag) : '|' ∉ t.word.toList := by
  cases t <;> decide

theorem Tag.word_of_ofWord? (h : Tag.ofWord? s = some t) : t.word = s := by
  simpa using List.find?_some h

/-- The number whose shortest text is given. -/
def numberOf? (s : String) : Option Int :=
  let (neg, ds) := Numeral.splitSign s.toList
  let n : Int := if neg then -(Numeral.digitsValue ds : Int) else Numeral.digitsValue ds
  if s = Numeral.ofInt n then some n else none

theorem noBar_ofInt (n : Int) : '|' ∉ (Numeral.ofInt n).toList :=
  fun hm => absurd (Numeral.mem_ofInt hm) (by decide)

theorem numberOf?_ofInt (n : Int) : numberOf? (Numeral.ofInt n) = some n := by
  simp only [numberOf?, Numeral.splitSign_ofInt, Numeral.digitsValue_toDigits, decide_eq_true_eq, Numeral.signed_natAbs,
    if_true]

theorem ofInt_of_numberOf? {n : Int} (h : numberOf? s = some n) : s = Numeral.ofInt n := by
  obtain ⟨hs, hn⟩ := Option.ite_none_right_eq_some.mp h
  rwa [Option.some.inj hn] at hs

/-! ## Cutting at the last bar -/

/-- The characters before the last bar and those behind it. -/
def cutLast? : List Char → Option (List Char × List Char)
  | [] => none
  | c :: cs =>
    -- a bar is the last one only if there is none behind it
    match cutLast? cs with
    | some (l, r) => some (c :: l, r)
    | none => if c = '|' then some ([], cs) else none

theorem cutLast?_eq_none_iff : cutLast? cs = none ↔ '|' ∉ cs := by
  induction cs with
  | nil => simp [cutLast?]
  | cons c cs ih =>
    rw [cutLast?, List.mem_cons, not_or]
    cases hcut : cutLast? cs with
    | none => simp [ih.mp hcut, eq_comm]
    | some p =>
      have behind : '|' ∈ cs := by
        refine Decidable.of_not_not fun hno => ?_
        rw [ih.mpr hno] at hcut
        cases hcut
      simp [behind]

/-- What is cut off is what stands behind the last bar, whatever stands in front of it. -/
theorem cutLast?_append (h : '|' ∉ r) (l : List Char) : cutLast? (l ++ '|' :: r) = some (l, r) := by
  induction l with
  | nil => rw [List.nil_append, cutLast?, cutLast?_eq_none_iff.mpr h]; rfl
  | cons c l ih => rw [List.cons_append, cutLast?, ih]

theorem cutLast?_eq_some_iff : cutLast? cs = some (l, r) ↔ cs = l ++ '|' :: r ∧ '|' ∉ r := by
  constructor
  · intro h
    induction cs generalizing l with
    | nil => cases h
    | cons c cs ih =>
      rw [cutLast?] at h
      cases hcut : cutLast? cs with
      | none =>
        rw [hcut] at h
        obtain ⟨rfl, hp⟩ := Option.ite_none_right_eq_some.mp h
        cases hp
        exact ⟨rfl, cutLast?_eq_none_iff.mp hcut⟩
      | some p =>
        rw [hcut] at h
        cases h
        obtain ⟨rfl, hr⟩ := ih hcut
        exact ⟨rfl, hr⟩
  · rintro ⟨rfl, h⟩
    exact cutLast?_append h l

/-! ## Links -/

/-- What the hash of an entry is taken of. The loan may have any name. -/
structure Link where
  loanId : String
  seq : Int
  tag : Tag
  payloadHash : String
  prevHash : Option String
  isDigest_payloadHash : IsDigest payloadHash
  isPrevious_prevHash : IsPrevious prevHash
  deriving DecidableEq

namespace Link

variable {x : Link} {loanId number word payloadHash before : String}

def text (x : Link) : String :=
  chainText x.loanId x.seq x.tag.word x.payloadHash x.prevHash

/-- The texts between the last four bars, and what stands before them. -/
def split? (s : String) : Option (String × String × String × String × String) := do
  let (rest, before) ← cutLast? s.toList
  let (rest, payloadHash) ← cutLast? rest
  let (rest, word) ← cutLast? rest
  let (loanId, number) ← cutLast? rest
  pure (String.ofList loanId, String.ofList number, String.ofList word, String.ofList payloadHash, String.ofList before)

/-- The link that a text is of, read from the end of the text. -/
def ofText? (s : String) : Option Link := do
  let (loanId, number, word, payloadHash, before) ← split? s
  let seq ← numberOf? number
  let tag ← Tag.ofWord? word
  if h : IsDigest payloadHash ∧ IsPrevious (unmark before) then
    some ⟨loanId, seq, tag, payloadHash, unmark before, h.1, h.2⟩
  else none

theorem toList_intercalate_bar (loanId number word payloadHash before : String) :
    ("|".intercalate [loanId, number, word, payloadHash, before]).toList =
      (((loanId.toList ++ '|' :: number.toList) ++ '|' :: word.toList) ++ '|' :: payloadHash.toList) ++
        '|' :: before.toList := by
  rw [String.toList_intercalate]
  simp [List.intercalate]

/-- The parts of a text are those that it joins with bars, the last four without one. -/
theorem split?_eq_some_iff : split? s = some (loanId, number, word, payloadHash, before) ↔
    s = "|".intercalate [loanId, number, word, payloadHash, before] ∧ '|' ∉ number.toList ∧
      '|' ∉ word.toList ∧ '|' ∉ payloadHash.toList ∧ '|' ∉ before.toList := by
  rw [← String.toList_inj, toList_intercalate_bar]
  constructor
  · intro h
    obtain ⟨_, cut₁, h⟩ := Option.bind_eq_some_iff.mp h
    obtain ⟨_, cut₂, h⟩ := Option.bind_eq_some_iff.mp h
    obtain ⟨_, cut₃, h⟩ := Option.bind_eq_some_iff.mp h
    obtain ⟨_, cut₄, h⟩ := Option.bind_eq_some_iff.mp h
    cases h
    -- each cut is made in what the one before left in front of its bar
    obtain ⟨hs, hb⟩ := cutLast?_eq_some_iff.mp cut₁
    obtain ⟨hrest, hp⟩ := cutLast?_eq_some_iff.mp cut₂
    obtain ⟨hrest', hw⟩ := cutLast?_eq_some_iff.mp cut₃
    obtain ⟨hrest'', hn⟩ := cutLast?_eq_some_iff.mp cut₄
    simp only [String.toList_ofList]
    exact ⟨by rw [hs, hrest, hrest', hrest''], hn, hw, hp, hb⟩
  · rintro ⟨hs, hn, hw, hp, hb⟩
    rw [split?, hs, cutLast?_append hb]
    dsimp only [Option.bind_eq_bind, Option.bind_some]
    rw [cutLast?_append hp, Option.bind_some, cutLast?_append hw, Option.bind_some, cutLast?_append hn]
    simp

theorem text_eq (x : Link) :
    x.text = "|".intercalate [x.loanId, Numeral.ofInt x.seq, x.tag.word, x.payloadHash, mark x.prevHash] := by
  unfold text chainText
  cases x.prevHash <;> rfl

theorem split?_text (x : Link) :
    split? x.text = some (x.loanId, Numeral.ofInt x.seq, x.tag.word, x.payloadHash, mark x.prevHash) :=
  split?_eq_some_iff.mpr ⟨x.text_eq, noBar_ofInt x.seq, x.tag.noBar, x.isDigest_payloadHash.noBar,
    mark_noBar x.isPrevious_prevHash⟩

theorem ofText?_text (x : Link) : ofText? x.text = some x := by
  rw [ofText?, split?_text]
  simp [numberOf?_ofInt, Tag.ofWord?_word, unmark_mark x.isPrevious_prevHash, x.isDigest_payloadHash,
    x.isPrevious_prevHash]

theorem ofText?_eq_some_iff : ofText? s = some x ↔ s = x.text := by
  constructor
  · intro h
    obtain ⟨⟨loanId, number, word, payloadHash, before⟩, hsplit, h⟩ := Option.bind_eq_some_iff.mp h
    obtain ⟨seq, hseq, h⟩ := Option.bind_eq_some_iff.mp h
    obtain ⟨tag, htag, h⟩ := Option.bind_eq_some_iff.mp h
    obtain ⟨⟨_, hprev⟩, hx⟩ := Option.dite_none_right_eq_some.mp h
    obtain rfl := Option.some.inj hx
    obtain ⟨rfl, -⟩ := split?_eq_some_iff.mp hsplit
    rw [text_eq, ofInt_of_numberOf? hseq, Tag.word_of_ofWord? htag, mark_unmark hprev]
  · rintro rfl
    exact ofText?_text x

theorem text_injective : Function.Injective text := fun x y h =>
  Option.some.inj ((ofText?_text x).symm.trans (h ▸ ofText?_text y))

end Link

/-- The text that a hash is taken of tells the loan, the number, the tag, the content hash and the hash before. -/
theorem chainText_inj {loanId loanId' : String} {seq seq' : Int} {t t' : Tag} {p p' : String}
    {prev prev' : Option String} (hp : IsDigest p) (hp' : IsDigest p') (hprev : IsPrevious prev)
    (hprev' : IsPrevious prev')
    (h : chainText loanId seq t.word p prev = chainText loanId' seq' t'.word p' prev') :
    loanId = loanId' ∧ seq = seq' ∧ t = t' ∧ p = p' ∧ prev = prev' := by
  have texts :
      Link.text ⟨loanId, seq, t, p, prev, hp, hprev⟩ = Link.text ⟨loanId', seq', t', p', prev', hp', hprev'⟩ :=
    h
  exact Link.mk.inj (Link.text_injective texts)

/-- Different links have different texts, whatever their loans are called. Read from its end, a text gives back the
link that it is the text of, and a text of no link gives none. -/
theorem link_texts_tell :
    (∀ x y : Link, x ≠ y → x.text ≠ y.text) ∧ ∀ s (x : Link), Link.ofText? s = some x ↔ s = x.text :=
  ⟨fun _ _ hne h => hne (Link.text_injective h), fun _ _ => Link.ofText?_eq_some_iff⟩

/-- The first link of a loan, with the digest of the empty text as its content hash. -/
def Link.first (loanId : String) : Link where
  loanId := loanId
  seq := 1
  tag := .loanOpened
  payloadHash := digestOf ""
  prevHash := none
  isDigest_payloadHash := isDigest_digestOf ""
  isPrevious_prevHash := by simp [IsPrevious]

/-- A loan that is called what the text of another loan begins with is not taken for that loan. -/
theorem link_texts_tell_barred :
    let x := Link.first "L1"
    let y := Link.first "L1|1|loan_opened"
    x ≠ y ∧ x.text ≠ y.text ∧ Link.ofText? y.text = some y := by
  intro x y
  have differ : x ≠ y := by decide
  exact ⟨differ, link_texts_tell.1 x y differ, (link_texts_tell.2 y.text y).mpr rfl⟩

end Audit

end LoanLedger

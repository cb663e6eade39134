import LoanLedger.Log.Record
import LoanLedger.Proofs.JsonAscii
import LoanLedger.Proofs.JsonInjective
import LoanLedger.Proofs.Storage
import Mathlib.Data.List.Nodup

/-!
# Lines of the log

* `Log.Draft.nodup_payload` : no name stands twice among the fields of a record that is written;
* `Log.Draft.mem_payload_iff` : the fields are the record's own, the bound ones, and those that are free to be written;
* `Log.Denotes s j` : what is read from a text of JSON; `Log.denotes_merged` : from what is written of a value, it is
  the value with each pair of surrogates in its texts as one code point; `Log.denotes_self_iff` : it is the value itself
  just if there is no such pair;
* `Log.Draft.Tells` : what the members of an object tell of a record;
* `Log.Draft.lines_tell` : what is written of a record is one line of printable ASCII; without an error it denotes an
  object whose members are these fields, but for the pairs of surrogates in their texts;
* `Log.Record.pair_denotes_another` : a message of two surrogates is read as another one.
-/

namespace LoanLedger

variable {α β : Type}

theorem exists_of_forall₂ {R : α → β → Prop} {as : List α} {bs : List β} {a : α} (h : List.Forall₂ R as bs)
    (ha : a ∈ as) : ∃ b ∈ bs, R a b := by
  induction h with
  | nil => cases ha
  | cons hb _ ih =>
    rcases List.mem_cons.mp ha with rfl | ha
    · exact ⟨_, List.mem_cons_self, hb⟩
    · obtain ⟨b, hb, hr⟩ := ih ha
      exact ⟨b, List.mem_cons_of_mem _ hb, hr⟩

/-- What stands under a name that stands there once is found. -/
theorem lookup_of_mem [BEq β] [LawfulBEq β] {n : β} {l : List (β × α)} {a : α} (hn : (l.map (·.1)).Nodup)
    (h : (n, a) ∈ l) : l.lookup n = some a := by
  obtain ⟨xs, ys, rfl⟩ := List.append_of_mem h
  refine List.lookup_eq_some_iff.mpr ⟨xs, ys, rfl, fun p hp => ?_⟩
  rw [List.map_append, List.map_cons] at hn
  have apart := (List.nodup_append.mp hn).2.2 p.1 (List.mem_map_of_mem hp) n List.mem_cons_self
  simpa using apart.symm

namespace Log

open Text (Point Points)

/-! ## What is read from a text -/

/-- The text is that of one JSON value only, and with its UTF-16 units as code points this is `j`; where its numbers are
finite, it is read from the text. -/
def Denotes (s : String) (j : Doc) : Prop :=
  ∃ w : Wire, w.IsProper ∧ w.render Json.spaced = s ∧ w.map Points.ofUnits = j ∧
    (∀ w' : Wire, w'.IsProper → w'.render Json.spaced = s → w' = w) ∧ (w.IsReadable → Wire.read? s = some w)

variable {s : String} {j k : Doc}

theorem Denotes.eq (h : Denotes s j) (h' : Denotes s k) : j = k := by
  obtain ⟨w, -, -, rfl, only, -⟩ := h
  obtain ⟨w', proper, written, rfl, -⟩ := h'
  rw [only w' proper written]

def written (j : Doc) : String := Wire.render Json.spaced (j.map Points.units)

/-- What is written of a value denotes it with each pair of surrogates as one code point. -/
theorem denotes_merged (hj : j.IsProper) : Denotes (written j) (j.map Points.merged) := by
  have proper : (j.map Points.units).IsProper := (JsonOf.isProper_map_iff _ j).mpr hj
  refine ⟨_, proper, rfl, ?_, fun w hw he => Wire.render_inj Json.spaced_isPlain hw proper he,
    Wire.read?_render Json.spaced_isPlain⟩
  rw [JsonOf.map_map]
  exact congrArg (JsonOf.map · j) (funext Points.ofUnits_units)

/-- What is written of a value denotes the value itself just if no text has a pair of surrogates. -/
theorem denotes_self_iff (hj : j.IsProper) : Denotes (written j) j ↔ j.AllTexts Points.IsWhole := by
  have same : (fun t : Points => t.merged = t) = Points.IsWhole := funext fun _ => propext Points.merged_eq_iff
  rw [← same, ← JsonOf.map_eq_self_iff]
  constructor
  · exact (denotes_merged hj).eq
  · intro h
    have merged := denotes_merged hj
    rwa [h] at merged

/-! ## Members -/

variable {ms : List (Points × Doc)} {fields there : Fields} {n : Points} {x : Item}

/-- Members of an object stand for fields under the same names. -/
def StandFor (fields : Fields) (ms : List (Points × Doc)) : Prop :=
  List.Forall₂ (fun f m => f.1 = m.1 ∧ f.2.json? = .ok m.2) fields ms

theorem jsonMembers?_cons_ok {k : Value ⊕ Points} {es : List ((Value ⊕ Points) × Item)}
    (h : Item.jsonMembers? ((k, x) :: es) = .ok ms) :
    ∃ name j ns, ms = (name, j) :: ns ∧ Item.keyText? k = .ok name ∧ x.json? = .ok j ∧
      Item.jsonMembers? es = .ok ns := by
  rw [Item.jsonMembers?] at h
  obtain ⟨name, hk, h⟩ := bind_ok h
  obtain ⟨j, hj, h⟩ := bind_ok h
  obtain ⟨ns, hn, h⟩ := bind_ok h
  cases h
  exact ⟨name, j, ns, rfl, hk, hj, hn⟩

theorem standFor_of_json? (h : fieldsJson? fields = .ok j) : ∃ ms, j = .object ms ∧ StandFor fields ms := by
  rw [fieldsJson?, Item.json?] at h
  obtain ⟨ms, hms, rfl⟩ := map_ok h
  refine ⟨ms, rfl, ?_⟩
  clear h
  induction fields generalizing ms with
  | nil => cases hms; exact .nil
  | cons f fields ih =>
    obtain ⟨name, j, ns, rfl, hk, hj, hn⟩ := jsonMembers?_cons_ok hms
    cases hk
    exact .cons ⟨rfl, hj⟩ (ih ns hn)

theorem StandFor.names (h : StandFor fields ms) : ms.map (·.1) = fields.map (·.1) := by
  induction h with
  | nil => rfl
  | cons hm _ ih => rw [List.map_cons, List.map_cons, ih, hm.1]

theorem StandFor.exists_member (h : StandFor fields ms) (hf : (n, x) ∈ fields) :
    ∃ j, x.json? = .ok j ∧ (n, j) ∈ ms := by
  obtain ⟨⟨m, j⟩, hm, rfl, hj⟩ := exists_of_forall₂ h hf
  exact ⟨j, hj, hm⟩

theorem StandFor.exists_field (h : StandFor fields ms) (hm : (n, j) ∈ ms) :
    ∃ x, x.json? = .ok j ∧ (n, x) ∈ fields := by
  obtain ⟨⟨f, x⟩, hf, rfl, hx⟩ := exists_of_forall₂ h.flip hm
  exact ⟨x, hx, hf⟩

/-! ## Names -/

theorem Field.name_injective : Function.Injective Field.name := by
  intro f g h
  cases f <;> cases g <;> first | rfl | exact absurd h (by decide)

def Field.points (f : Field) : Points := .ofString f.name

theorem Field.points_injective : Function.Injective Field.points :=
  Points.ofString_injective.comp Field.name_injective

namespace Draft

def headNames : List Points := ["ts", "level", "logger", "message"].map .ofString

theorem nodup_headNames : headNames.Nodup := by
  rw [headNames, List.nodup_map_iff Points.ofString_injective]
  decide

theorem points_not_mem_headNames (f : Field) : f.points ∉ headNames := by
  rw [headNames, Field.points, List.mem_map_of_injective Points.ofString_injective]
  cases f <;> decide

/-- A field may be written under this name: it is not reserved, and nothing else is written under it. -/
structure IsFree (c : Bound) (n : Points) : Prop where
  head : n ∉ headNames
  bound : ∀ f ∈ c.map (·.1), f.points ≠ n
  unreserved : n ∉ Record.reservedNames.map Points.ofString

variable {d : Draft} {c : Bound} {ts message : Points}

theorem front_names (d : Draft) (ts message : Points) (c : Bound) :
    (d.front ts message c).map (·.1) = headNames ++ (c.map (·.1)).map Field.points := by
  simp [front, headNames, Field.points, Function.comp_def]

theorem mem_freeFields_iff : (n, x) ∈ Record.freeFields there fields ↔
    (n, x) ∈ fields ∧ n ∉ Record.reservedNames.map Points.ofString ∧ n ∉ there.map (·.1) := by
  rw [Record.freeFields, List.mem_filter]
  refine and_congr_right fun _ => ?_
  simp only [Record.isReserved, Bool.and_eq_true, Bool.not_eq_true', List.contains_eq_mem, decide_eq_false_iff_not,
    List.any_eq_false, decide_eq_true_eq, List.mem_map, not_exists, not_and]

theorem isFree_iff : IsFree c n ↔
    n ∉ Record.reservedNames.map Points.ofString ∧ n ∉ (d.front ts message c).map (·.1) := by
  rw [front_names, List.mem_append, not_or]
  constructor
  · rintro ⟨head, bound, unreserved⟩
    refine ⟨unreserved, head, fun hn => ?_⟩
    obtain ⟨f, hf, hfn⟩ := List.mem_map.mp hn
    exact bound f hf hfn
  · rintro ⟨unreserved, head, bound⟩
    exact ⟨head, fun f hf hn => bound (hn ▸ List.mem_map_of_mem hf), unreserved⟩

theorem payload_eq (h : d.cause = none) (ts message : Points) (c : Bound) : d.payload ts message c =
    d.front ts message c ++ Record.freeFields (d.front ts message c) d.fields := by
  rw [payload, body, h]

/-- The fields of a record are its own texts, the bound ones, and its further fields with free names. -/
theorem mem_payload_iff (h : d.cause = none) : (n, x) ∈ d.payload ts message c ↔
    (n, x) ∈ d.front ts message c ∨ (n, x) ∈ d.fields ∧ IsFree c n := by
  rw [payload_eq h, List.mem_append, mem_freeFields_iff, isFree_iff]

theorem nodup_front (hb : (c.map (·.1)).Nodup) : ((d.front ts message c).map (·.1)).Nodup := by
  rw [front_names]
  refine List.nodup_append.mpr ⟨nodup_headNames, hb.map Field.points_injective, fun n hn m hm => ?_⟩
  obtain ⟨f, -, rfl⟩ := List.mem_map.mp hm
  rintro rfl
  exact points_not_mem_headNames f hn

/-- No name stands twice among the fields of a record. -/
theorem nodup_payload (h : d.cause = none) (hb : (c.map (·.1)).Nodup) (hd : (d.fields.map (·.1)).Nodup) :
    ((d.payload ts message c).map (·.1)).Nodup := by
  rw [payload_eq h, List.map_append]
  refine List.nodup_append.mpr ⟨nodup_front hb, hd.sublist (List.filter_sublist.map _), fun n hn m hm => ?_⟩
  obtain ⟨⟨m, x⟩, hx, rfl⟩ := List.mem_map.mp hm
  rintro rfl
  exact (mem_freeFields_iff.mp hx).2.2 hn

/-! ## Lines -/

def IsLine (s : String) : Prop := s ≠ "" ∧ Json.AllAscii s.toList

/-- What the members of an object tell of a record: its own texts, whatever its further fields are named, the bound
fields, and its further fields with free names; and nothing else. -/
structure Tells (d : Draft) (ts message : Points) (c : Bound) (ms : List (Points × Doc)) : Prop where
  once : (ms.map (·.1)).Nodup
  ts : ms.lookup (.ofString "ts") = some (.text ts)
  level : ms.lookup (.ofString "level") = some (.text d.level)
  logger : ms.lookup (.ofString "logger") = some (.text d.logger)
  message : ms.lookup (.ofString "message") = some (.text message)
  bound : ∀ f x, (f, x) ∈ c → ∃ j, x.json? = .ok j ∧ ms.lookup (.ofString f.name) = some j
  further : ∀ n x, (n, x) ∈ d.fields → IsFree c n → ∃ j, x.json? = .ok j ∧ ms.lookup n = some j
  only : ∀ n ∈ ms.map (·.1),
    n ∈ headNames ∨ (∃ f ∈ c.map (·.1), .ofString f.name = n) ∨ n ∈ d.fields.map (·.1) ∧ IsFree c n

/-- The fields of a record and those that are bound stand once, and each fraction that is written of them is a number
of the format. -/
structure IsProper (d : Draft) (c : Bound) : Prop where
  fields : (d.fields.map (·.1)).Nodup
  bound : (c.map (·.1)).Nodup
  numbers : ∀ x ∈ d.fields.map (·.2) ++ c.map (·.2), ∀ j, x.json? = .ok j → j.IsProper

/-- Some object tells of the record, and what the text denotes is this object with each high surrogate directly before a
low one, in a text or a name, as one code point with it: so it is the object itself just if there are none. -/
def IsToldBy (d : Draft) (c : Bound) (s : String) : Prop :=
  ∃ ts message ms, d.ts = .ok ts ∧ d.message = .ok message ∧ d.Tells ts message c ms ∧
    Denotes s ((JsonOf.object ms).map Points.merged) ∧
    (Denotes s (.object ms) ↔ (JsonOf.object ms).AllTexts Points.IsWhole)

/-- What is written is the text of an object whose members stand for the fields. -/
theorem line?_ok (h : d.line? c = .ok s) : ∃ ts message ms, d.ts = .ok ts ∧ d.message = .ok message ∧
    StandFor (d.payload ts message c) ms ∧ written (.object ms) = s := by
  obtain ⟨ts, hts, h⟩ := bind_ok h
  obtain ⟨message, hm, h⟩ := bind_ok h
  cases hj : fieldsJson? (d.payload ts message c) with
  | error e => rw [hj] at h; cases h
  | ok j =>
    rw [hj] at h
    cases h
    obtain ⟨ms, rfl, hms⟩ := standFor_of_json? hj
    exact ⟨ts, message, ms, hts, hm, hms, rfl⟩

theorem isLine_written (ms : List (Points × Doc)) : IsLine (written (.object ms)) := by
  refine ⟨fun h => ?_, ?_⟩
  · have := congrArg String.toList h
    rw [written, Wire.render, String.toList_ofList] at this
    cases this
  · rw [written, Wire.render, String.toList_ofList]
    exact Wire.allAscii_renderChars Json.spaced_isAscii _

/-- Members that stand for the fields of a record tell of it. -/
theorem tells_of_standFor (h : d.cause = none) (hp : d.IsProper c) (hms : StandFor (d.payload ts message c) ms) :
    d.Tells ts message c ms := by
  have once : (ms.map (·.1)).Nodup := by
    rw [hms.names]
    exact nodup_payload h hp.bound hp.fields
  have found {n : Points} {x : Item} (hx : (n, x) ∈ d.payload ts message c) :
      ∃ j, x.json? = .ok j ∧ ms.lookup n = some j := by
    obtain ⟨j, hj, hm⟩ := hms.exists_member hx
    exact ⟨j, hj, lookup_of_mem once hm⟩
  have own {n t : Points} (hn : (n, .text t) ∈ d.front ts message c) : ms.lookup n = some (.text t) := by
    obtain ⟨j, hj, hl⟩ := found ((mem_payload_iff h).mpr (.inl hn))
    cases hj
    exact hl
  refine ⟨once, own ?_, own ?_, own ?_, own ?_, fun f x hf => ?_, fun n x hx free => ?_, fun n hn => ?_⟩
  · simp [front]
  · simp [front]
  · simp [front]
  · simp [front]
  · refine found ((mem_payload_iff h).mpr (.inl (List.mem_append_right _ ?_)))
    exact List.mem_map.mpr ⟨(f, x), hf, rfl⟩
  · exact found ((mem_payload_iff h).mpr (.inr ⟨hx, free⟩))
  · rw [hms.names] at hn
    obtain ⟨⟨n, x⟩, hx, rfl⟩ := List.mem_map.mp hn
    rcases (mem_payload_iff h).mp hx with hx | ⟨hx, free⟩
    · have named := List.mem_map_of_mem (f := (·.1)) hx
      rw [front_names] at named
      rcases List.mem_append.mp named with head | bound
      · exact .inl head
      · exact .inr (.inl (List.mem_map.mp bound))
    · exact .inr (.inr ⟨List.mem_map_of_mem (f := (·.1)) hx, free⟩)

theorem isProper_of_standFor (h : d.cause = none) (hp : d.IsProper c)
    (hms : StandFor (d.payload ts message c) ms) : (JsonOf.object ms).IsProper := by
  refine JsonOf.haveProper_iff.mpr fun (n, j) hm => ?_
  obtain ⟨x, hj, hx⟩ := hms.exists_field hm
  rcases (mem_payload_iff h).mp hx with hx | ⟨hx, -⟩
  · rcases List.mem_append.mp hx with head | bound
    · have text : ∃ t, x = .text t := by
        simp only [List.mem_cons, Prod.mk.injEq, List.not_mem_nil, or_false] at head
        rcases head with ⟨-, rfl⟩ | ⟨-, rfl⟩ | ⟨-, rfl⟩ | ⟨-, rfl⟩ <;> exact ⟨_, rfl⟩
      obtain ⟨t, rfl⟩ := text
      cases hj
      trivial
    · obtain ⟨b, hb, he⟩ := List.mem_map.mp bound
      exact hp.numbers x (List.mem_append_right _ ((Prod.mk.inj he).2 ▸ List.mem_map_of_mem hb)) j hj
  · exact hp.numbers x (List.mem_append_left _ (List.mem_map_of_mem (f := (·.2)) hx)) j hj

theorem isToldBy_of_line (hc : d.cause = none) (hp : d.IsProper c) (h : d.line? c = .ok s) :
    d.IsToldBy c s := by
  obtain ⟨ts, message, ms, hts, hm, hms, rfl⟩ := line?_ok h
  have proper := isProper_of_standFor hc hp hms
  exact ⟨ts, message, ms, hts, hm, tells_of_standFor hc hp hms, denotes_merged proper, denotes_self_iff proper⟩

/-- What is written of a record, whatever texts and values it holds, is one line of printable ASCII. Without an error it
denotes one object only. But for pairs of surrogates in texts, its members are the record's time, level, logger and
message and the bound fields, also where further fields have these names, and the further fields with other names that
are not reserved. -/
theorem lines_tell (h : d.line? c = .ok s) :
    IsLine s ∧ (d.cause = none → d.IsProper c → d.IsToldBy c s) := by
  refine ⟨?_, fun hc hp => isToldBy_of_line hc hp h⟩
  obtain ⟨ts, message, ms, -, -, -, rfl⟩ := line?_ok h
  exact isLine_written ms

/-- A record with fields that are named like its own texts, like a bound field and like something reserved, and with an
unpaired surrogate in a text. -/
def renamed : Draft where
  ts := .ok (.ofString "2024-01-01T12:00:00+00:00")
  level := .ofString "INFO"
  logger := .ofString "lending_kernel.ledger"
  message := .ok (.ofString "L1:\n\"zurück\"")
  fields := [(.ofString "level", .text (.ofString "DEBUG")), (.ofString "loan_id", .text (.ofString "L2")),
    (.ofString "taskName", .text (.ofString "t")), (.ofString "tried", .list [.plain (.bool true),
      .text [⟨0xDE00, by decide⟩, ⟨0xD83D, by decide⟩]])]
  cause := none

theorem lines_tell_renamed : ∃ s, renamed.line? [(.loanId, .plain (.text "L1"))] = .ok s ∧ IsLine s ∧
    renamed.IsToldBy [(.loanId, .plain (.text "L1"))] s := by
  refine ⟨_, rfl, ?_⟩
  have told := lines_tell (d := renamed) (c := [(.loanId, .plain (.text "L1"))]) rfl
  refine ⟨told.1, told.2 rfl ⟨?_, by decide, fun x hx j hj => ?_⟩⟩
  · have names : renamed.fields.map (·.1) = ["level", "loan_id", "taskName", "tried"].map .ofString := rfl
    rw [names, List.nodup_map_iff Points.ofString_injective]
    decide
  simp only [renamed, List.map_cons, List.map_nil, List.cons_append, List.nil_append, List.mem_cons, List.not_mem_nil,
    or_false] at hx
  rcases hx with rfl | rfl | rfl | rfl | rfl <;> cases hj
  · exact trivial
  · exact trivial
  · exact trivial
  · exact ⟨trivial, trivial, trivial⟩
  · exact trivial

end Draft

namespace Record

/-- A message for two characters. -/
def paired : Record := ⟨.info, "ledger", "%c%c", [], none⟩

/-- A message of two surrogates is read from the line as that of the one character that they make. -/
theorem pair_denotes_another : ∃ s, paired.format? [.int 0xD83D, .int 0xDE00] [] 0 = .ok s ∧
    (paired.draft [.int 0xD83D, .int 0xDE00] 0).message = .ok [0xD83D, 0xDE00] ∧ (∃ ms, Denotes s (.object ms)) ∧
    ∀ ms, Denotes s (.object ms) → ms.lookup (.ofString "message") = some (.text [0x1F600]) ∧
      ms.lookup (.ofString "message") ≠ some (.text [0xD83D, 0xDE00]) := by
  have read : ∃ s ms, paired.format? [.int 0xD83D, .int 0xDE00] [] 0 = .ok s ∧ Denotes s (.object ms) ∧
      ms.lookup (.ofString "message") = some (.text [0x1F600]) := by
    refine ⟨_, _, rfl, denotes_merged (j := .object _) ?_, rfl⟩
    exact ⟨trivial, trivial, trivial, trivial, trivial⟩
  obtain ⟨s, ms, line, denoted, message⟩ := read
  refine ⟨s, line, rfl, ⟨ms, denoted⟩, fun ms' h => ?_⟩
  obtain rfl := JsonOf.object.inj (denoted.eq h)
  refine ⟨message, fun h => ?_⟩
  rw [message] at h
  exact absurd (congrArg List.length (JsonOf.text.inj (Option.some.inj h))) (by decide)

end Record

end Log

end LoanLedger

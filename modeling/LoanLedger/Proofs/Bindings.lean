import LoanLedger.Proofs.Frame
import LoanLedger.Proofs.Property.Ledger

/-!
# What the log context is at every point

Programs set, clear and bind fields of the log. Blocks in which fields are bound nest, and are left when the body is
through or has failed.

* `Program` : such a program; `Program.work p` is the work that it does, `Program.ending p` how it ends, and
  `Program.steps p` what it does to the context, step by step;
* `recent? f 0 past` : the value most recently given to a field, the steps told from the newest on. What was given in a
  block that has been left does not count;
* `listed past` : all fields with a value, in order; `notes` : the records that are written, each with the context of
  its moment;
* `Program.work_run` : a program leaves the context and the records that its steps tell;
* `context_and_locks_restored` : that holds of every program; every block restores the context, however it is left; and
  handling an event restores context and locks, however it ends.
-/

namespace LoanLedger.Ledger

open Log (Context Field)

/-! ## Programs -/

/-- What is told of names that belong to no field. -/
def refusal (names : List String) : Error :=
  .external ⟨"TypeError", "Unknown log context field(s): " ++ (Value.list (names.map .text)).label, false⟩

/-- Sets fields of the log; where a name is unknown nothing is set. -/
def setContext (updates : List (String × Value)) : Work Unit := fun d =>
  match d.context.set? updates with
  | .ok context => .ok () { d with context }
  | .error names => .error (refusal names) d

/-- A program that sets, clears and binds fields of the log. -/
inductive Program where
  | done
  | look (r : Log.Record)
  | set (updates : List (String × Value))
  | clear
  | fail (e : Error)
  | seq (first second : Program)
  /-- Fields are bound while the body runs. -/
  | block (updates : List (String × Value)) (body : Program)
  /-- Whatever fails is dealt with. -/
  | recover (body handler : Program)

def Program.work : Program → Work Unit
  | done => pure ()
  | look r => note r
  | set updates => setContext updates
  | clear => modify fun d => { d with context := .empty }
  | fail e => throw e
  | seq first second => do
    first.work
    second.work
  | block updates body => withContext updates body.work
  | recover body handler => Work.recover body.work fun _ => handler.work

/-! ## What programs do to the context -/

inductive Step where
  | look (r : Log.Record)
  | set (updates : List (String × Value))
  | clear
  | enter (updates : List (String × Value))
  | leave

/-- How a program ends; this depends on nothing that is bound. -/
def Program.ending : Program → Except Error Unit
  | set updates => match Context.unknownNames updates with
    | [] => .ok ()
    | names => .error (refusal names)
  | fail e => .error e
  | seq first second => match first.ending with
    | .ok () => second.ending
    | .error e => .error e
  | block _ body => body.ending
  | recover body handler => match body.ending with
    | .ok () => .ok ()
    | .error _ => handler.ending
  | done | look _ | clear => .ok ()

/-- What a program does to the context, in order. A block is left in any case. -/
def Program.steps : Program → List Step
  | done | fail _ => []
  | look r => [.look r]
  | set updates => [.set updates]
  | clear => [.clear]
  | seq first second => first.steps ++ match first.ending with
    | .ok () => second.steps
    | .error _ => []
  | block updates body => .enter updates :: (body.steps ++ [.leave])
  | recover body handler => body.steps ++ match body.ending with
    | .ok () => []
    | .error _ => handler.steps

/-- The value that updates give to a field; null gives none. -/
def given? (updates : List (String × Value)) (f : Field) : Option Value :=
  match updates.lookup f.name with
  | some .null => none
  | v => v

/-- The value most recently given to a field, the steps told from the newest on; the number is that of the blocks that
have been left and whose beginning is still to come. -/
def recent? (f : Field) : Nat → List Step → Option Value
  | _, [] => none
  | n, .leave :: past => recent? f (n + 1) past
  | n + 1, .enter _ :: past => recent? f n past
  | n + 1, _ :: past => recent? f (n + 1) past
  | 0, .enter updates :: past => (given? updates f).or (recent? f 0 past)
  | 0, .set updates :: past =>
    if Context.unknownNames updates = [] then (given? updates f).or (recent? f 0 past) else recent? f 0 past
  | 0, .clear :: _ => none
  | 0, .look _ :: past => recent? f 0 past

/-- All fields with the value most recently given to them, in their order. -/
def listed (past : List Step) : Context :=
  Field.all.filterMap fun f => (recent? f 0 past).map (f, ·)

/-- The record that is written at a step, with the context of that moment. -/
def Step.noted (setup : Log.Setup) (context : Context) : Step → List Noted
  | look r => if setup.passes r.level then [⟨r, context⟩] else []
  | _ => []

-- A block in which everything was cleared leaves what the block around it binds.
example : listed [.leave, .clear, .enter [("loan_id", .text "L2")], .enter [("loan_id", .text "L1")]] =
    [(.loanId, .text "L1")] := by
  rfl

/-- The records that are written when steps follow others, each with the context of its moment. -/
def notes (setup : Log.Setup) : List Step → List Step → List Noted
  | _, [] => []
  | past, x :: rest => x.noted setup (listed past) ++ notes setup (x :: past) rest

/-! ## The fields in order -/

variable {past : List Step} {updates : List (String × Value)} {d : Desk}

/-- A field that is listed once is found with its value. -/
theorem lookup_fields (value : Field → Option Value) {fs : List Field} {f : Field} (hn : fs.Nodup) (hf : f ∈ fs) :
    (fs.filterMap fun f => (value f).map (f, ·)).lookup f = value f := by
  induction fs with
  | nil => cases hf
  | cons g fs ih =>
    obtain ⟨hg, hn⟩ := List.nodup_cons.mp hn
    by_cases hfg : f = g
    · subst hfg
      cases hv : value f with
      | some v => simp [hv]
      | none =>
        -- a field without a value is not listed at all
        rw [List.filterMap_cons_none (by rw [hv]; rfl), List.lookup_eq_none_iff]
        intro p hp
        obtain ⟨f', hf', hp⟩ := List.mem_filterMap.mp hp
        obtain ⟨v, -, rfl⟩ := Option.map_eq_some_iff.mp hp
        rw [bne_iff_ne]
        rintro rfl
        exact hg hf'
    · have hf : f ∈ fs := (List.mem_cons.mp hf).resolve_left hfg
      cases hv : value g with
      | none => rw [List.filterMap_cons_none (by rw [hv]; rfl), ih hn hf]
      | some v =>
        rw [List.filterMap_cons_some (by rw [hv]; rfl), List.lookup_cons, beq_false_of_ne hfg]
        exact ih hn hf

theorem mem_all (f : Field) : f ∈ Field.all := by
  cases f <;> decide

theorem lookup_listed (past : List Step) (f : Field) : (listed past).lookup f = recent? f 0 past :=
  lookup_fields (recent? · 0 past) (by decide) (mem_all f)

/-- Every field with a value is listed once, in the order of all fields. -/
theorem listed_sublist (past : List Step) : ((listed past).map (·.1)).Sublist Field.all := by
  have fields (fs : List Field) :
      ((fs.filterMap fun f => (recent? f 0 past).map (f, ·)).map (·.1)).Sublist fs := by
    induction fs with
    | nil => exact .slnil
    | cons f fs ih =>
      cases h : recent? f 0 past with
      | none =>
        rw [List.filterMap_cons_none (by rw [h]; rfl)]
        exact ih.cons f
      | some v =>
        rw [List.filterMap_cons_some (by rw [h]; rfl)]
        exact ih.cons_cons f
  exact fields Field.all

/-! ## Steps -/

theorem updated?_listed (f : Field) :
    (listed past).updated? updates f = (given? updates f).or (recent? f 0 past) := by
  unfold Context.updated? given?
  rw [lookup_listed]
  cases h : updates.lookup f.name with
  | none => rfl
  | some v => cases v <;> rfl

/-- Binding fields gives them their values. -/
theorem merge_listed : (listed past).merge updates = listed (.enter updates :: past) := by
  unfold Context.merge
  simp only [updated?_listed]
  rfl

/-- Setting known fields gives them their values. -/
theorem set?_listed (h : Context.unknownNames updates = []) :
    (listed past).set? updates = .ok (listed (.set updates :: past)) := by
  have hset : listed (.set updates :: past) = listed (.enter updates :: past) := by
    unfold listed
    simp only [recent?, h, if_true]
  rw [Context.set?, h, merge_listed, hset]

theorem set?_refused {c : Context} (h : Context.unknownNames updates ≠ []) :
    c.set? updates = .error (Context.unknownNames updates) := by
  unfold Context.set?
  split
  · next h' => exact absurd h' h
  · rfl

theorem listed_refused (h : Context.unknownNames updates ≠ []) : listed (.set updates :: past) = listed past := by
  unfold listed
  simp only [recent?, h, if_false]

/-- What a program does within a block that has been left does not count. -/
theorem recent?_steps (p : Program) (f : Field) (n : Nat) (past : List Step) :
    recent? f (n + 1) (p.steps.reverse ++ past) = recent? f (n + 1) past := by
  induction p generalizing n past with
  | done | fail => rfl
  | look | set | clear => rfl
  | seq first second ihf ihs =>
    rw [Program.steps, List.reverse_append, List.append_assoc]
    cases first.ending with
    | ok => rw [ihs, ihf]
    | error => exact ihf n past
  | block updates body ih =>
    rw [Program.steps]
    simp only [List.reverse_cons, List.reverse_append, List.reverse_nil, List.nil_append, List.cons_append,
      List.append_assoc, recent?]
    rw [ih]
    rfl
  | recover body handler ihb ihh =>
    rw [Program.steps, List.reverse_append, List.append_assoc]
    cases body.ending with
    | ok => exact ihb n past
    | error => rw [ihh, ihb]

/-- A block that has been left leaves the fields as they were. -/
theorem listed_block (body : Program) :
    listed ((Program.block updates body).steps.reverse ++ past) = listed past := by
  unfold listed
  congr 1
  funext f
  rw [Program.steps]
  simp only [List.reverse_cons, List.reverse_append, List.reverse_nil, List.nil_append, List.cons_append,
    List.append_assoc, recent?, recent?_steps]

theorem notes_append (setup : Log.Setup) (past first second : List Step) :
    notes setup past (first ++ second) = notes setup past first ++ notes setup (first.reverse ++ past) second := by
  induction first generalizing past with
  | nil => rfl
  | cons x first ih => rw [List.cons_append, notes, notes, ih, List.append_assoc, List.reverse_cons, List.append_assoc,
      List.singleton_append]

theorem notes_single (setup : Log.Setup) (past : List Step) (x : Step) :
    notes setup past [x] = x.noted setup (listed past) := List.append_nil _

/-! ## Runs -/

def endedAt (r : Except Error Unit) (d : Desk) : EStateM.Result Error Desk Unit :=
  match r with
  | .ok () => .ok () d
  | .error e => .error e d

def Desk.stepped (d : Desk) (past steps : List Step) : Desk :=
  { d with context := listed (steps.reverse ++ past), log := d.log ++ notes d.setup past steps }

theorem Desk.stepped_nil (h : d.context = listed past) : d.stepped past [] = d := by
  rw [stepped, notes, List.append_nil, List.reverse_nil, List.nil_append, ← h]

theorem Desk.stepped_append (d : Desk) (past first second : List Step) :
    (d.stepped past first).stepped (first.reverse ++ past) second = d.stepped past (first ++ second) := by
  simp only [stepped, notes_append, List.reverse_append, List.append_assoc]

/-- After a block only the records of its body are there besides. -/
theorem Desk.stepped_block (h : d.context = listed past) (body : Program) :
    d.stepped past (Program.block updates body).steps =
      { (d.bound updates).stepped (.enter updates :: past) body.steps with context := d.context } := by
  have noted :
      notes d.setup past (Program.block updates body).steps = notes d.setup (.enter updates :: past) body.steps := by
    rw [Program.steps, notes, notes_append, notes_single]
    exact List.append_nil _
  rw [stepped, listed_block, noted, ← h]
  rfl

theorem setContext_run (h : d.context = listed past) :
    setContext updates d = endedAt (Program.ending (.set updates)) (d.stepped past [.set updates]) := by
  have noted : d.log ++ notes d.setup past [.set updates] = d.log := List.append_nil d.log
  rw [setContext, h, Desk.stepped, noted]
  cases hn : Context.unknownNames updates with
  | nil =>
    rw [set?_listed hn, Program.ending, hn]
    rfl
  | cons name names =>
    have hne : Context.unknownNames updates ≠ [] := by rw [hn]; exact List.cons_ne_nil _ _
    have kept : listed ([Step.set updates].reverse ++ past) = d.context := (listed_refused hne).trans h.symm
    rw [set?_refused hne, Program.ending, hn, kept]
    rfl

/-- A program ends as it ends, and leaves the context and the records that its steps tell. -/
theorem Program.work_run (p : Program) (past : List Step) (d : Desk) (h : d.context = listed past) :
    p.work d = endedAt p.ending (d.stepped past p.steps) := by
  induction p generalizing past d with
  | done | fail => rw [steps, Desk.stepped_nil h]; rfl
  | look r =>
    have kept : listed ([Step.look r].reverse ++ past) = d.context := h.symm
    rw [steps, Desk.stepped, kept, notes_single, ← h, work, note, Work.modify_run, Step.noted]
    split
    · rfl
    · rw [List.append_nil]
      rfl
  | set updates => exact setContext_run h
  | clear =>
    have noted : d.log ++ notes d.setup past [.clear] = d.log := List.append_nil d.log
    rw [steps, Desk.stepped, noted]
    rfl
  | seq first second ihf ihs =>
    have hf := ihf past d h
    rw [work, ending, steps]
    cases he : first.ending with
    | ok =>
      rw [he] at hf
      rw [Work.bind_of_ok hf, ihs (first.steps.reverse ++ past) _ rfl, Desk.stepped_append]
    | error e =>
      rw [he] at hf
      rw [Work.bind_of_error hf, List.append_nil]
      rfl
  | block updates body ih =>
    have hb := ih (.enter updates :: past) (d.bound updates) (by rw [Desk.bound, h, merge_listed])
    rw [work, ending, Desk.stepped_block h]
    cases he : body.ending with
    | ok =>
      rw [he] at hb
      exact withContext_of_ok hb
    | error e =>
      rw [he] at hb
      exact withContext_of_error hb
  | recover body handler ihb ihh =>
    have hb := ihb past d h
    rw [work, ending, steps]
    cases he : body.ending with
    | ok =>
      rw [he] at hb
      rw [Work.recover_of_ok hb, List.append_nil]
      rfl
    | error e =>
      rw [he] at hb
      rw [Work.recover_of_error hb, ihh (body.steps.reverse ++ past) _ rfl, Desk.stepped_append]

/-- Whatever is done while fields are bound, and however it ends, the context is the one before. -/
theorem withContext_restores {α : Type} (updates : List (String × Value)) (x : Work α) (d : Desk) :
    ((withContext updates x).desk d).context = d.context := by
  cases h : x (d.bound updates) with
  | ok a d' => rw [Work.desk_of_ok (withContext_of_ok h)]
  | error e d' => rw [Work.desk_of_error (withContext_of_error h)]

/-- A program that starts with nothing bound ends with the value most recently given to each field, and every record
that it writes bears the values most recently given by then. Each block restores the context, however it is left, and
handling an event restores the context and the locks, however it ends. -/
theorem context_and_locks_restored :
    (∀ (p : Program) (d : Desk), p.work { d with context := .empty } =
      endedAt p.ending { d with
        context := listed p.steps.reverse
        log := d.log ++ notes d.setup [] p.steps }) ∧
    (∀ past, ((listed past).map (·.1)).Sublist Field.all ∧ ∀ f, (listed past).lookup f = recent? f 0 past) ∧
    (∀ (updates : List (String × Value)) (α : Type) (x : Work α) (d : Desk),
      ((withContext updates x).desk d).context = d.context) ∧
    ∀ (g : Engine) (e : Event) (d : Desk),
      ((g.handle e).desk d).context = d.context ∧ ((g.handle e).desk d).locks = d.locks := by
  refine ⟨fun p d => ?_, fun past => ⟨listed_sublist past, lookup_listed past⟩,
    fun updates _ => withContext_restores updates, fun g e d => ?_⟩
  · rw [p.work_run [] { d with context := .empty } rfl, Desk.stepped, List.append_nil]
  · have beside : d.Beside ((g.handle e).desk d) := (Holds.holds : Kept Desk.Beside _ (g.handle e)) d
    exact ⟨beside.context, beside.locks⟩

end LoanLedger.Ledger

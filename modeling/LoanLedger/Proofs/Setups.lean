import LoanLedger.Log.Setup
import Mathlib.Data.List.Induction

/-!
# Calls that set the log up

* `Log.Setup.call`, `Log.Setup.after` : the setup after one call, and after several;
* `Log.Setup.attempts` : the calls since the last reset that were to set the log up;
* `Log.Setup.Follows` : the setup is what the first of them left, kept by each call (`Log.Setup.Follows.call`) and so
  there after any calls (`Log.Setup.after_follows`);
* `Log.Setup.setups_follow` : there is at most one handler, that of the first call since the last reset, and none if
  this call was refused; where it was refused, later calls go through and change nothing.
-/

namespace LoanLedger.Log.Setup

/-! ## Calls and their answers -/

/-- A call that sets the log up or takes this back. -/
inductive Call where
  | configure (handler : String) (level : Choice)
  | reset

def call (s : Setup) : Call → Setup × Except Error Unit
  | .configure handler level => s.configure handler level
  | .reset => (s.reset, .ok ())

def after (s : Setup) (cs : List Call) : Setup :=
  cs.foldl (fun s c => (s.call c).1) s

def answers (s : Setup) : List Call → List (Call × Except Error Unit)
  | [] => []
  | c :: cs => (c, (s.call c).2) :: (s.call c).1.answers cs

/-- The attempts to set the log up after one more call. -/
def attempt (as : List (String × Choice)) : Call → List (String × Choice)
  | .configure handler level => as ++ [(handler, level)]
  | .reset => []

/-- The attempts to set the log up since the last reset. -/
def attempts (cs : List Call) : List (String × Choice) :=
  cs.foldl attempt []

/-- The handlers that were taken after one more answer. -/
def take (hs : List String) : Call × Except Error Unit → List String
  | (.configure handler _, .ok _) => hs ++ [handler]
  | (.configure _ _, .error _) => hs
  | (.reset, _) => []

/-- The handlers of the attempts since the last reset that were not refused. -/
def taken (told : List (Call × Except Error Unit)) : List String :=
  told.foldl take []

variable {s : Setup} {as : List (String × Choice)} {handler : String} {level : Choice} {e : Error}

theorem after_append (s : Setup) (cs : List Call) (c : Call) : s.after (cs ++ [c]) = ((s.after cs).call c).1 := by
  simp [after]

theorem answers_append (s : Setup) (cs : List Call) (c : Call) :
    s.answers (cs ++ [c]) = s.answers cs ++ [(c, ((s.after cs).call c).2)] := by
  induction cs generalizing s with
  | nil => rfl
  | cons b cs ih => exact congrArg _ (ih (s.call b).1)

theorem attempts_append (cs : List Call) (c : Call) : attempts (cs ++ [c]) = attempt (attempts cs) c := by
  simp [attempts]

theorem taken_append (told : List (Call × Except Error Unit)) (t : Call × Except Error Unit) :
    taken (told ++ [t]) = take (taken told) t := by
  simp [taken]

/-! ## The first attempt decides -/

theorem configure_again (h : s.isConfigured = true) (handler : String) (level : Choice) :
    s.configure handler level = (s, .ok ()) := by
  rw [configure, if_pos h]

/-- An attempt that is refused counts as one, and changes nothing else. -/
theorem configure_refused (h : s.isConfigured = false) (hl : level.severity? = .error e) (handler : String) :
    s.configure handler level = ({ s with isConfigured := true }, .error e) := by
  rw [configure, if_neg (by simp [h]), hl]

theorem configure_taken {n : Int} (h : s.isConfigured = false) (hs : s.handlers = []) (hl : level.severity? = .ok n)
    (handler : String) : s.configure handler level = (⟨true, n, [handler], false⟩, .ok ()) := by
  rw [configure, if_neg (by simp [h]), hl]
  simp [addHandler, hs]

/-- What the attempts since the last reset left: nothing before the first, and then what the first left. -/
inductive Follows : List (String × Choice) → Setup → Prop
  | untried {s : Setup} :
    s.isConfigured = false → s.handlers = [] → s.effective = Level.warning.severity → Follows [] s
  | refused {s : Setup} {handler : String} {level : Choice} {e : Error} {as : List (String × Choice)} :
    level.severity? = .error e → s.isConfigured = true → s.handlers = [] →
    s.effective = Level.warning.severity → Follows ((handler, level) :: as) s
  | taken {s : Setup} {handler : String} {level : Choice} {n : Int} {as : List (String × Choice)} :
    level.severity? = .ok n → s = ⟨true, n, [handler], false⟩ → Follows ((handler, level) :: as) s

theorem initial_follows : Follows [] initial :=
  .untried rfl rfl rfl

theorem Follows.call (h : Follows as s) (c : Call) : Follows (attempt as c) (s.call c).1 := by
  cases c with
  | reset => exact .untried rfl rfl rfl
  | configure handler level =>
    cases h with
    | untried free empty warnings =>
      cases hl : level.severity? with
      | error e =>
        rw [Setup.call, configure_refused free hl]
        exact .refused hl rfl empty warnings
      | ok n =>
        rw [Setup.call, configure_taken free empty hl]
        exact .taken hl rfl
    | refused hl tried empty warnings =>
      rw [Setup.call, configure_again tried]
      exact .refused hl tried empty warnings
    | taken hl hs =>
      rw [Setup.call, configure_again (by rw [hs])]
      exact .taken hl hs

theorem after_follows (cs : List Call) : Follows (attempts cs) (initial.after cs) := by
  induction cs using List.reverseRecOn with
  | nil => exact initial_follows
  | append_singleton cs c ih =>
    rw [attempts_append, after_append]
    exact ih.call c

theorem Follows.free (h : Follows [] s) : s.isConfigured = false := by
  cases h with
  | untried free => exact free

theorem Follows.length_handlers_le (h : Follows as s) : s.handlers.length ≤ 1 := by
  cases h with
  | untried _ empty => simp [empty]
  | refused _ _ empty => simp [empty]
  | taken _ hs => simp [hs]

/-! ## What is answered -/

/-- A call is refused where it is the first attempt, and its level is none. -/
theorem Follows.refuses_iff (h : Follows as s) (c : Call) :
    (s.call c).2 = .error e ↔
    as = [] ∧ ∃ handler level, c = .configure handler level ∧ level.severity? = .error e := by
  cases c with
  | reset => simp [Setup.call]
  | configure handler level =>
    cases h with
    | untried free empty =>
      cases hl : level.severity? with
      | error e' => simp [Setup.call, configure_refused free hl, hl]
      | ok n => simp [Setup.call, configure_taken free empty hl, hl]
    | refused hl tried => simp [Setup.call, configure_again tried]
    | taken hl hs => simp [Setup.call, configure_again, hs]

/-- The handlers of attempts, without that of a first one that is refused. -/
def admitted : List (String × Choice) → List String
  | [] => []
  | a :: as => match a.2.severity? with
    | .ok _ => a.1 :: as.map (·.1)
    | .error _ => as.map (·.1)

theorem Follows.take_admitted (h : Follows as s) (c : Call) :
    take (admitted as) (c, (s.call c).2) = admitted (attempt as c) := by
  cases c with
  | reset => rfl
  | configure handler level =>
    cases h with
    | untried free empty =>
      cases hl : level.severity? with
      | error e => simp [Setup.call, configure_refused free hl, take, attempt, admitted, hl]
      | ok n => simp [Setup.call, configure_taken free empty hl, take, attempt, admitted, hl]
    | refused hl tried => simp [Setup.call, configure_again tried, take, attempt, admitted, hl]
    | taken hl hs => simp [Setup.call, configure_again, hs, take, attempt, admitted, hl]

theorem taken_answers (cs : List Call) : taken (initial.answers cs) = admitted (attempts cs) := by
  induction cs using List.reverseRecOn with
  | nil => rfl
  | append_singleton cs c ih =>
    rw [answers_append, taken_append, ih, attempts_append]
    exact (after_follows cs).take_admitted c

/-- The handler is that of the first attempt that was not refused, unless the first attempt was refused and others came
after it. -/
theorem Follows.handlers_iff (h : Follows as s) : s.handlers = (admitted as).take 1 ↔
    ¬∃ first next rest e, as = first :: next :: rest ∧ first.2.severity? = .error e := by
  cases h with
  | untried free empty => simp [empty, admitted]
  | @refused _ handler level e as hl tried empty =>
    cases as with
    | nil => simp [empty, admitted, hl]
    | cons a as => simp [empty, admitted, hl]
  | taken hl hs => simp [hs, admitted, hl]

/-! ## Any calls -/

/-- After any calls there is at most one handler. The setup is what the first attempt since the last reset left: its
handler and its level, or no handler if it was refused. Only this attempt can be refused, and it counts as one all the
same: later ones go through and change nothing. So the handler is that of the first attempt that was not refused,
unless the first attempt was refused and others came after it: then there is none. -/
theorem setups_follow (cs : List Call) :
    (initial.after cs).handlers.length ≤ 1 ∧
    Follows (attempts cs) (initial.after cs) ∧
    (∀ c e, ((initial.after cs).call c).2 = .error e ↔
      attempts cs = [] ∧ ∃ handler level, c = .configure handler level ∧ level.severity? = .error e) ∧
    (∀ c e, ((initial.after cs).call c).2 = .error e →
      ((initial.after cs).call c).1 = { initial.after cs with isConfigured := true }) ∧
    ((initial.after cs).handlers = (taken (initial.answers cs)).take 1 ↔
      ¬∃ first next rest e, attempts cs = first :: next :: rest ∧ first.2.severity? = .error e) := by
  have follows := after_follows cs
  refine ⟨follows.length_handlers_le, follows, fun c e => follows.refuses_iff c, fun c e he => ?_, ?_⟩
  · obtain ⟨first, handler, level, rfl, hl⟩ := (follows.refuses_iff c).mp he
    have free := (first ▸ follows).free
    exact congrArg Prod.fst (configure_refused free hl handler)
  · rw [taken_answers]
    exact follows.handlers_iff

/-- A refused attempt changes the setup, and the next one takes no effect although it goes through. -/
theorem refused_blocks :
    (initial.answers [.configure "first" (.name "chatty"), .configure "second" (.name "info")]).map (·.2)
        = [.error (.unknownName "CHATTY"), .ok ()] ∧
      taken (initial.answers [.configure "first" (.name "chatty"), .configure "second" (.name "info")]) = ["second"] ∧
      initial.after [.configure "first" (.name "chatty")] ≠ initial ∧
      (initial.after [.configure "first" (.name "chatty"), .configure "second" (.name "info")]).handlers = [] := by
  refine ⟨rfl, rfl, fun h => ?_, rfl⟩
  cases congrArg isConfigured h

end LoanLedger.Log.Setup

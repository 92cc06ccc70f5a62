import DataAccess.Proofs.Database.Routines

/-!
This module shows that transactions are bracketed, whatever engine answers their calls and whatever
becomes of what is done inside of them: what is opened is closed once, the innermost first, and kept only
after success.
-/

namespace DataAccess

inductive Bracket where
  | opening (answer : Except Fault Unit)
  | closing (success : Bool) (answer : Except Fault Unit)

/-- A state of an engine with the transactions that it was to open and to close, the earliest first. -/
structure Recorded (σ : Type) where
  state : σ
  brackets : List Bracket

namespace Engine

def recorded (e : Engine σ stmt) : Engine (Recorded σ) stmt where
  execute q s := (e.execute q s.state).map id ({ s with state := · })
  insert q s := (e.insert q s.state).map id ({ s with state := · })
  query q signal signals s := (e.query q signal signals s.state).map id ({ s with state := · })
  openTransaction s :=
    let (answer, state) := e.openTransaction s.state
    (answer, ⟨state, s.brackets ++ [.opening answer]⟩)
  closeTransaction success s :=
    let (answer, state) := e.closeTransaction success s.state
    (answer, ⟨state, s.brackets ++ [.closing success answer]⟩)
  inTransaction s := e.inTransaction s.state
  recordModified tables s := { s with state := e.recordModified tables s.state }
  takeModified s := (e.takeModified s.state).map id ({ s with state := · })

theorem recorded_simulates (e : Engine σ stmt) : e.recorded.Simulates e Recorded.state where
  execute _ _ := rfl
  insert _ _ := rfl
  query _ _ _ _ := rfl
  openTransaction _ := rfl
  closeTransaction _ _ := rfl
  inTransaction _ := rfl
  recordModified _ _ := rfl
  takeModified _ := rfl

end Engine

/-- Brackets match if each transaction that was opened is closed after those inside of it. -/
inductive Nested : List Bracket → Prop where
  | nil : Nested []
  /-- What could not be opened is not closed. -/
  | refused (f : Fault) (hrest : Nested rest) : Nested (.opening (.error f) :: rest)
  | closed {inner rest : List Bracket} (success : Bool) (answer : Except Fault Unit)
    (hinner : Nested inner) (hrest : Nested rest) :
    Nested (.opening (.ok ()) :: inner ++ .closing success answer :: rest)

theorem Nested.append (h : Nested first) (hrest : Nested rest) : Nested (first ++ rest) := by
  induction h with
  | nil => exact hrest
  | refused f _ ih => exact .refused f ih
  | closed success answer hinner _ _ ih =>
    rw [List.append_assoc, List.cons_append]
    exact .closed success answer hinner ih

abbrev Account (α : Type) := List Bracket → Outcome α → Prop

namespace Account

/-- No brackets are added, and nothing crashes. -/
def quiet : Account α :=
  fun calls outcome => calls = [] ∧ ∃ r, outcome = .ofExcept r

def held (said : Account α) : Account (Except Fault α) :=
  fun calls outcome => ∃ ended, said calls ended ∧ outcome = ended.held

/-- One operation after the other, unless the first one fails or crashes. -/
def andThen (first : Account β) (next : β → Account α) : Account α :=
  fun calls outcome =>
    (∃ before b after, calls = before ++ after ∧ first before (.ok b) ∧ next b after outcome) ∨
    (∃ f, first calls (.fault f) ∧ outcome = .fault f) ∨
    (first calls .crash ∧ outcome = .crash)

def Nests (said : Account α) : Prop :=
  ∀ calls outcome, said calls outcome → Nested calls

namespace Nests

theorem quiet : (quiet : Account α).Nests := by
  rintro _ _ ⟨rfl, _⟩
  exact .nil

theorem held {said : Account α} (h : said.Nests) : said.held.Nests := by
  rintro calls _ ⟨ended, hsaid, _⟩
  exact h calls ended hsaid

theorem andThen {first : Account β} {next : β → Account α} (h : first.Nests)
    (hnext : ∀ b, (next b).Nests) : (first.andThen next).Nests := by
  rintro _ _ (⟨before, b, after, rfl, hfirst, hafter⟩ | ⟨f, hfirst, _⟩ | ⟨hfirst, _⟩)
  . exact (h _ _ hfirst).append (hnext b _ _ hafter)
  . exact h _ _ hfirst
  . exact h _ _ hfirst

end Nests

def Told (said : Account α) (before : List Bracket) (r : Outcome α × Database (Recorded σ)) : Prop :=
  ∃ calls, r.2.store.brackets = before ++ calls ∧ said calls r.1

end Account

def Closing.hears : Closing → Except Fault Unit → Except Fault Unit
  | commit, answer | rollback, answer => answer
  | abandon, _ => .ok ()

inductive Enclosed (closing : α → Closing) (body : Account α) : Account (α × Except Fault Unit) where
  /-- The body is not run. -/
  | refused (f : Fault) : Enclosed closing body [.opening (.error f)] (.fault f)
  | closed {inner : List Bracket} (answer : Except Fault Unit) (hbody : body inner (.ok a)) :
    Enclosed closing body
      (.opening (.ok ()) :: inner ++ [.closing (closing a == .commit) answer])
      (.ok (a, (closing a).hears answer))
  /-- Nobody hears what closing answers after the body has failed. -/
  | failed {inner : List Bracket} (answer : Except Fault Unit) (hbody : body inner (.fault f)) :
    Enclosed closing body (.opening (.ok ()) :: inner ++ [.closing false answer]) (.fault f)
  | crashed {inner : List Bracket} (answer : Except Fault Unit) (hbody : body inner .crash) :
    Enclosed closing body (.opening (.ok ()) :: inner ++ [.closing false answer]) .crash

theorem Enclosed.nests {body : Account α} (closing : α → Closing) (hbody : body.Nests)
    : (Enclosed closing body).Nests := by
  intro calls outcome h
  cases h with
  | refused f => exact .refused f .nil
  | closed answer h => exact .closed _ answer (hbody _ _ h) .nil
  | failed answer h => exact .closed _ answer (hbody _ _ h) .nil
  | crashed answer h => exact .closed _ answer (hbody _ _ h) .nil

namespace Routine

/-- The brackets that a routine adds, and its outcome, if each of its transactions and guards does with
its body as it should. -/
def Traced : Routine stmt α → Account α
  | done a => fun calls outcome => calls = [] ∧ outcome = .ok a
  | fail f => fun calls outcome => calls = [] ∧ outcome = .fault f
  | panic => fun calls outcome => calls = [] ∧ outcome = .crash
  | act (β := β) _ next => (Account.quiet : Account β).held.andThen fun r => (next r).Traced
  | call body next =>
    (Account.held (Enclosed (fun _ => .commit) body.Traced)).andThen
      fun r => (next (Database.heard r)).Traced
  | guarded closing body next =>
    (Account.held (Enclosed closing body.Traced)).andThen fun r => (next r).Traced

theorem nests_traced (p : Routine stmt α) : Account.Nests p.Traced := by
  induction p with
  | done a | fail f | panic =>
    rintro _ _ ⟨rfl, _⟩
    exact .nil
  | act a next ih => exact Account.Nests.quiet.held.andThen ih
  | call body next ihbody ihnext =>
    exact (Enclosed.nests _ ihbody).held.andThen fun r => ihnext (Database.heard r)
  | guarded closing body next ihbody ihnext =>
    exact (Enclosed.nests closing ihbody).held.andThen ihnext

end Routine

/-- An operation adds brackets and ends as an account says. -/
def Operation.Accounts (op : Operation (Recorded σ) α) (said : Account α) : Prop :=
  ∀ db, said.Told db.store.brackets (op db)

namespace Operation.Accounts

variable {op : Operation (Recorded σ) α}

theorem attempt {said : Account α} (h : op.Accounts said) : op.attempt.Accounts said.held := by
  intro db
  obtain ⟨calls, hcalls, hsaid⟩ := h db
  rw [attempt_eq]
  exact ⟨calls, hcalls, (op db).1, hsaid, rfl⟩

theorem bind {next : α → Operation (Recorded σ) β} {first : Account α} {rest : α → Account β}
    (h : op.Accounts first) (hnext : ∀ a, (next a).Accounts (rest a))
    : (op >>= next).Accounts (first.andThen rest) := by
  intro db
  obtain ⟨before, hbefore, hfirst⟩ := h db
  change (first.andThen rest).Told _ (follow next (op db))
  rcases hop : op db with ⟨a | f | _, db'⟩
  all_goals rw [hop] at hbefore hfirst
  . obtain ⟨after, hafter, hrest⟩ := hnext a db'
    refine ⟨before ++ after, ?_, Or.inl ⟨before, a, after, rfl, hfirst, hrest⟩⟩
    rw [← List.append_assoc, ← hbefore]
    exact hafter
  . exact ⟨before, hbefore, Or.inr (Or.inl ⟨f, hfirst, rfl⟩)⟩
  . exact ⟨before, hbefore, Or.inr (Or.inr ⟨hfirst, rfl⟩)⟩

theorem quiet_bind {next : α → Operation (Recorded σ) β} (h : op.Accounts .quiet)
    (hnext : ∀ a, (next a).Accounts .quiet) : (op >>= next).Accounts .quiet := by
  intro db
  obtain ⟨calls, hcalls, htold⟩ := h.bind hnext db
  refine ⟨calls, hcalls, ?_⟩
  rcases htold with ⟨_, _, _, rfl, ⟨rfl, _⟩, rfl, hr⟩ | ⟨f, ⟨rfl, _⟩, hfault⟩ | ⟨⟨_, r, hr⟩, _⟩
  . exact ⟨rfl, hr⟩
  . exact ⟨rfl, .error f, hfault⟩
  . cases r with
    | ok => cases hr
    | error => cases hr

theorem quiet_pure (a : α) : (pure a : Operation (Recorded σ) α).Accounts .quiet :=
  fun _ => ⟨[], (List.append_nil _).symm, rfl, .ok a, rfl⟩

theorem quiet_modify {change : Database (Recorded σ) → Database (Recorded σ)}
    (h : ∀ db, (change db).store.brackets = db.store.brackets)
    : (Operation.modify change).Accounts .quiet :=
  fun db => ⟨[], (h db).trans (List.append_nil _).symm, rfl, .ok (), rfl⟩

theorem quiet_onStore {step : Recorded σ → Except Fault α × Recorded σ}
    (h : ∀ s, (step s).2.brackets = s.brackets) : (Operation.onStore step).Accounts .quiet :=
  fun db => ⟨[], (h db.store).trans (List.append_nil _).symm, rfl, (step db.store).1, rfl⟩

end Operation.Accounts

namespace Engine

open Operation (Accounts follow)

variable (e : Engine σ stmt)

theorem brackets_publish (db : Database (Recorded σ))
    : (Database.publish e.recorded db).2.store.brackets = db.store.brackets := by
  refine Database.publish_induction (e := e.recorded) (P := (·.store.brackets = db.store.brackets)) ?_ ?_ rfl
  . exact fun _ h => h
  . intro tables after h
    rw [Database.store_notify]
    exact h

theorem quiet_wrote (tables : List String)
    : (Database.wrote e.recorded tables).Accounts .quiet := by
  intro db
  refine ⟨[], ?_, rfl, .ok (), Database.fst_wrote ..⟩
  rw [Database.wrote_eq_publish, e.brackets_publish, List.append_nil]
  split
  . rfl
  . rfl

theorem quiet_action (a : Action stmt α) : (a.run e.recorded).Accounts .quiet := by
  have hstatement {β : Type} {op : Operation (Recorded σ) β} (h : op.Accounts .quiet)
      (tables : List String)
      : (do let b ← op; Database.wrote e.recorded tables; return b).Accounts .quiet :=
    h.quiet_bind fun b => (e.quiet_wrote tables).quiet_bind fun _ => Accounts.quiet_pure b
  cases a with
  | execute q tables => exact hstatement (Accounts.quiet_onStore fun _ => rfl) tables
  | insert q tables => exact hstatement (Accounts.quiet_onStore fun _ => rfl) tables
  | query q signal =>
    have hquery : Accounts (fun db =>
        (Operation.onStore (e.recorded.query q signal db.cancellation)).run db) .quiet :=
      fun db => Accounts.quiet_onStore (fun _ => rfl) db
    cases signal with
    | none => exact hquery
    | some signal =>
      have hcheck : (Database.checkSignal signal : Operation (Recorded σ) Unit).Accounts .quiet :=
        fun _ => ⟨[], (List.append_nil _).symm, rfl, _, rfl⟩
      exact hcheck.quiet_bind fun _ => hquery
  | inTransaction => exact fun _ => ⟨[], (List.append_nil _).symm, rfl, .ok _, rfl⟩
  | checkSignal signal => exact fun _ => ⟨[], (List.append_nil _).symm, rfl, _, rfl⟩
  | setSignal signal | cancelHandle name => exact Accounts.quiet_modify fun _ => rfl

theorem endTransaction_recorded (success : Bool) (db : Database (Recorded σ))
    : ∃ answer db',
        Database.endTransaction e.recorded success db = (.ofExcept answer, db') ∧
        db'.store.brackets = db.store.brackets ++ [.closing success answer] := by
  have hclosed : (e.recorded.closeTransaction success db.store).2.brackets
      = db.store.brackets ++ [.closing success (e.recorded.closeTransaction success db.store).1] := rfl
  rw [Database.endTransaction_eq]
  generalize e.recorded.closeTransaction success db.store = closed at hclosed ⊢
  rcases closed with ⟨answer, store⟩
  cases answer with
  | ok => exact ⟨.ok (), _, rfl, (e.brackets_publish { db with store }).trans hclosed⟩
  | error f => exact ⟨.error f, _, rfl, hclosed⟩

theorem leave_recorded (closing : Closing) (db : Database (Recorded σ))
    : ∃ answer db',
        (Database.leave e.recorded closing).attempt db = (.ok (closing.hears answer), db') ∧
        db'.store.brackets
          = db.store.brackets ++ [.closing (closing == .commit) answer] := by
  have hend (success : Bool)
      : ∃ answer db',
          (Database.endTransaction e.recorded success).attempt db = (.ok answer, db') ∧
          db'.store.brackets = db.store.brackets ++ [.closing success answer] := by
    obtain ⟨answer, db', hended, hbrackets⟩ := e.endTransaction_recorded success db
    rw [Operation.attempt_eq, hended]
    cases answer with
    | ok => exact ⟨_, db', rfl, hbrackets⟩
    | error => exact ⟨_, db', rfl, hbrackets⟩
  cases closing with
  | commit => exact hend true
  | rollback => exact hend false
  | abandon =>
    obtain ⟨answer, db', hended, hbrackets⟩ := e.endTransaction_recorded false db
    refine ⟨answer, db', ?_, hbrackets⟩
    change (Outcome.ok (Except.ok ()), (Database.endTransaction e.recorded false db).2) = _
    rw [hended]
    rfl

theorem guardedBy_recorded (closing : α → Closing) {body : Operation (Recorded σ) α}
    {said : Account α} (hbody : body.Accounts said)
    : (Database.guardedBy e.recorded closing body).Accounts (Enclosed closing said) := by
  intro db
  have hopened : ∃ answer opened,
      Database.beginTransaction e.recorded db = (.ofExcept answer, opened) ∧
      opened.store.brackets = db.store.brackets ++ [.opening answer] :=
    ⟨_, _, rfl, rfl⟩
  obtain ⟨answer, opened, hbegun, hopening⟩ := hopened
  change (Enclosed closing said).Told _ (follow _ (Database.beginTransaction e.recorded db))
  rw [hbegun]
  cases answer with
  | error f => exact ⟨_, hopening, .refused f⟩
  | ok =>
    obtain ⟨inner, hinner, hsaid⟩ := hbody opened
    have henclosed {calls : List Bracket} {last : Bracket}
        (h : calls = opened.store.brackets ++ inner ++ [last])
        : calls = db.store.brackets ++ (.opening (.ok ()) :: inner ++ [last]) := by
      rw [h, hopening]
      simp
    dsimp only [Outcome.ofExcept, follow]
    rcases hran : body opened with ⟨a | f | _, ended⟩
    all_goals
      rw [hran] at hinner hsaid
    . obtain ⟨answer, left, hleft, hclosing⟩ := e.leave_recorded (closing a) ended
      change (Enclosed closing said).Told _
        (follow _ ((Database.leave e.recorded (closing a)).attempt ended))
      rw [hleft]
      refine ⟨_, henclosed ?_, .closed answer hsaid⟩
      rw [← hinner]
      exact hclosing
    . obtain ⟨answer, left, hended, hclosing⟩ := e.endTransaction_recorded false ended
      refine ⟨_, henclosed ?_, .failed answer hsaid⟩
      change (Database.endTransaction e.recorded false ended).2.store.brackets = _
      rw [hended, ← hinner]
      exact hclosing
    . obtain ⟨answer, left, hended, hclosing⟩ := e.endTransaction_recorded false ended
      refine ⟨_, henclosed ?_, .crashed answer hsaid⟩
      change (Database.endTransaction e.recorded false ended).2.store.brackets = _
      rw [hended, ← hinner]
      exact hclosing

theorem run_recorded (p : Routine stmt α) : (p.run e.recorded).Accounts p.Traced := by
  induction p with
  | done a => exact fun _ => ⟨[], (List.append_nil _).symm, rfl, rfl⟩
  | fail f => exact fun _ => ⟨[], (List.append_nil _).symm, rfl, rfl⟩
  | panic => exact fun _ => ⟨[], (List.append_nil _).symm, rfl, rfl⟩
  | act a next ih => exact (e.quiet_action a).attempt.bind ih
  | call body next ihbody ihnext =>
    have hcall := (e.guardedBy_recorded (fun _ => .commit) ihbody).attempt.bind
      fun r => ihnext (Database.heard r)
    unfold Routine.run Database.runInTransaction
    rw [Database.attempt_guarded, bind_map_left]
    exact hcall
  | guarded closing body next ihbody ihnext =>
    exact (e.guardedBy_recorded closing ihbody).attempt.bind ihnext

end Engine

def Outcome.succeeded : Outcome α → Bool
  | ok _ => true
  | fault _ | crash => false

def Outcome.returned : Outcome α → Outcome Unit → Outcome α
  | ok a, ok () => ok a
  | ok _, fault f => fault f
  | ok _, crash | crash, _ => crash
  | fault f, _ => fault f

/-- A transaction is opened, and if that succeeds, its body is run once and then it is closed once. -/
theorem Database.runInTransaction_eq (e : Engine σ stmt) (body : Operation σ α) (db : Database σ)
    : runInTransaction e body db
        =
      match beginTransaction e db with
      | (.ok (), opened) =>
        let ended := body opened
        let closed := endTransaction e ended.1.succeeded ended.2
        (ended.1.returned closed.1, closed.2)
      | (.fault f, refused) => (.fault f, refused)
      | (.crash, refused) => (.crash, refused) := by
  change Operation.follow (fun _ => within e .commit body) (beginTransaction e db) = _
  rcases beginTransaction e db with ⟨_ | f | _, opened⟩
  . dsimp only [Operation.follow]
    unfold within
    rcases body opened with ⟨a | f | _, ended⟩
    . change Operation.follow (fun _ => pure a) (endTransaction e true ended) = _
      dsimp only [Outcome.succeeded]
      rcases endTransaction e true ended with ⟨_ | f | _, closed⟩
      . rfl
      . rfl
      . rfl
    . rfl
    . rfl
  . rfl
  . rfl

/-- Whatever an engine answers, the transactions and guards of a routine are opened and closed as they
should be, and each transaction comes to the failure of its body, or else to that of its closing. -/
theorem Routine.bracketed (e : Engine σ stmt) (p : Routine stmt α) (db : Database (Recorded σ))
    : (p.run e.recorded db).map id (Database.mapStore Recorded.state)
        = p.run e (db.mapStore Recorded.state) ∧
      (∃ calls,
        (p.run e.recorded db).2.store.brackets = db.store.brackets ++ calls ∧
        Nested calls ∧
        p.Traced calls (p.run e.recorded db).1) ∧
      ∀ {β : Type} (body : Operation σ β) (db : Database σ),
        Database.runInTransaction e body db
          =
        match Database.beginTransaction e db with
        | (.ok (), opened) =>
          let ended := body opened
          let closed := Database.endTransaction e ended.1.succeeded ended.2
          (ended.1.returned closed.1, closed.2)
        | (.fault f, refused) => (.fault f, refused)
        | (.crash, refused) => (.crash, refused) := by
  refine ⟨e.recorded_simulates.mirrors_run p db, ?_, fun body db => ?_⟩
  . obtain ⟨calls, hcalls, htraced⟩ := e.run_recorded p db
    exact ⟨calls, hcalls, p.nests_traced _ _ htraced, htraced⟩
  . exact Database.runInTransaction_eq e body db

end DataAccess

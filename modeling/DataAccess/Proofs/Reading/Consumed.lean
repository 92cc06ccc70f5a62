import DataAccess.Proofs.Reading.Performing

/-!
This module contains what becomes of a result set. Main statement: a body reads the rows that are declared,
in order and up to the first failure, and closes its cursor once on every way out.
-/

namespace DataAccess

open Code (Block CodeType Expr Frame Happening Stmt Variable)

/-- Queries are answered with a cursor before the first of its rows, or with a fault. -/
def Engine.Answers (e : Engine σ stmt) : Prop :=
  ∀ s n signals store c, (e.query s n signals store).1 = .ok c →
    ∃ columns rows hooked, c = { Cursor.new columns rows n with hooked }

namespace Database

variable {e : Engine σ stmt} {s : stmt} {n : Option Nat} {db db' : Database σ}

theorem query_eq (e : Engine σ stmt) (s : stmt) (n : Option Nat) (db : Database σ)
    : query e s n db =
        if n.any db.cancellation.isSet then (.fault .cancelled, db)
        else Operation.onStore (e.query s n db.cancellation) db := by
  cases n with
  | none => rfl
  | some n =>
    change Operation.follow _ (checkSignal n db) = _
    unfold checkSignal Cancellation.check
    dsimp only [Option.any]
    split
    . rfl
    . rfl

theorem query_ne_crash : query e s n db ≠ (.crash, db') := by
  rw [query_eq]
  split
  . simp
  . unfold Operation.onStore Outcome.ofExcept
    intro h
    dsimp only at h
    split at h
    . cases h
    . cases h

theorem of_query_eq_ok {c : Cursor} (h : query e s n db = (.ok c, db'))
    : (e.query s n db.cancellation db.store).1 = .ok c := by
  rw [query_eq] at h
  split at h
  . cases h
  . unfold Operation.onStore Outcome.ofExcept at h
    dsimp only at h
    split at h
    . next hanswer =>
      cases h
      exact hanswer
    . cases h

end Database

theorem Engine.Answers.exists_resultSet {e : Engine σ stmt} {s : stmt} {n : Option Nat}
    {db db' : Database σ} {c : Cursor} (h : e.Answers) (hquery : Database.query e s n db = (.ok c, db'))
    : ∃ t rows, t.signal = n ∧ c = ResultSet.cursor t none rows := by
  obtain ⟨columns, rows, hooked, rfl⟩ := h _ _ _ _ _ (Database.of_query_eq_ok hquery)
  exact ⟨⟨columns, rows.length, n, hooked⟩, rows, rfl, rfl⟩

namespace Surroundings

variable {τ : Type} {Val : τ → Type} (w : Surroundings σ α Val)

def look (set : Nat → Bool) (k : Nat) : Except Fault Unit :=
  if set k then .error .cancelled else .ok ()

/-- What the rows of a list are read as. The signal is looked at before each step, the last one included, for
so many times before. -/
def items (row : Row) (set : Nat → Bool) (columns : List String) (k : Nat) (rows : List RowValues)
    : Except Fault (List (ReadValue Val)) := do
  let items ← (rows.zipIdx k).mapM fun (r, k) => do
    look set k
    w.rowValue (.showing columns r) row
  look set (k + rows.length)
  return items

/-- What rows are read as, or nothing if the only one is missing. The signal is looked at for the first time
when the statement is run. -/
def consumed (shape : Shape) (set : Nat → Bool) (columns : List String) (rows : List RowValues)
    : Except Fault (Option (ReadValue Val)) :=
  match shape.multiplicity with
  | .single => do
    look set 1
    match rows.head? with
    | some r => return some (← w.rowValue (.showing columns r) shape.row)
    | none => return none
  | .optional => do
    look set 1
    match rows.head? with
    | some r => return some (← w.rowOption (.showing columns r) shape.row)
    | none => return some .nothing
  | .list => return some (.list (← w.items shape.row set columns 1 rows))

def returned (sql : String) (streaming : Bool) : Except Fault (Option (ReadValue Val)) → Returned Val
  | .ok (some v) => .ok (if streaming then .just v else v)
  | .ok none => if streaming then .ok .nothing else .error (.missingResult sql)
  | .error f => .error f

/-- What a body makes of the answer to its statement: the value or the fault that it is left with, and what it
leaves behind. A cursor is closed once, after the last of the rows that are read. -/
def Reads (shape : Shape) (sql : String) (streaming : Bool) (signal : Option Nat) (v : Returned Val)
    (p : Performance σ α Val) : Outcome Cursor × Database σ → Prop
  | (.ok c, db) =>
    v = returned sql streaming (w.consumed shape (w.isSet signal) c.columns c.rest) ∧
      p.db = { db with cancellation := w.left } ∧ p.cursor = some c.close ∧
      ∃ k, p.log = (c.rest.take k).map .read ++ [.closed] ∧ (shape.multiplicity ≠ .list → k ≤ 1)
  | (.fault f, db) =>
    v = .error f ∧ p.db = { db with cancellation := w.left } ∧ p.cursor = none ∧ p.log = []
  | (.crash, _) => False

variable {w} {t : ResultSet} {p : Performance σ α Val}

theorem items_nil (row : Row) (set : Nat → Bool) (columns : List String) (k : Nat)
    : w.items row set columns k [] = (do look set k; return []) := rfl

theorem items_cons (row : Row) (set : Nat → Bool) (columns : List String) (k : Nat) (r : RowValues)
    (rest : List RowValues)
    : w.items row set columns k (r :: rest) = (do
        look set k
        let v ← w.rowValue (.showing columns r) row
        return v :: (← w.items row set columns (k + 1) rest)) := by
  unfold items
  rw [List.zipIdx_cons, List.mapM_cons, List.length_cons, Nat.add_right_comm, Nat.add_assoc]
  simp only [bind_assoc, pure_bind]

/-- What the first row is read as, unless the signal is set. -/
def first (set : Bool) (value : RowValues → Returned Val)
    (absent : Except (Returned Val) (ReadValue Val)) (rows : List RowValues)
    : Except (Returned Val) (ReadValue Val) :=
  if set then .error (.error .cancelled)
  else
    match rows.head? with
    | some r => (value r).mapError .error
    | none => absent

def settled (sql : String) (streaming : Bool)
    : Except Fault (Option (ReadValue Val)) → Except (Returned Val) (ReadValue Val)
  | .ok (some v) => .ok v
  | r => .error (returned sql streaming r)

theorem settled_first (sql : String) (streaming : Bool) (set : Nat → Bool)
    (value : RowValues → Returned Val) (absent : Option (ReadValue Val)) (rows : List RowValues)
    : settled sql streaming (do
        look set 1
        match rows.head? with
        | some r => return some (← value r)
        | none => return absent) =
      first (set 1) value (settled sql streaming (.ok absent)) rows := by
  unfold look first
  cases set 1 with
  | true => rfl
  | false =>
    cases rows with
    | nil => rfl
    | cons r rest =>
      dsimp only [List.head?]
      cases value r with
      | ok | error => rfl

theorem next_first {yes no : Perform σ α Val (ReadValue Val)} {value : RowValues → Returned Val}
    {absent : Except (Returned Val) (ReadValue Val)} {rows : List RowValues}
    (hcursor : p.scope.isCursor "_cursor" = true) (hc : p.cursor = some (t.cursor none rows))
    (hyes : ∀ r more, yes (p.gone t (some r) more) = Perform.ofExcept (value r) (p.gone t (some r) more))
    (hno : no (p.gone t none []) = some (absent, p.gone t none []))
    : ∃ q k, p.Through q t (rows.take k) ∧ k ≤ 1 ∧ q.scope = p.scope ∧
        (do if ← w.next "_cursor" then yes else no : Perform σ α Val (ReadValue Val)) p =
          some (first (w.isSet t.signal p.looks) value absent rows, q) := by
  unfold first
  cases hset : w.isSet t.signal p.looks with
  | true =>
    refine ⟨_, 0, ?_, Nat.zero_le 1, ?_, Perform.bind_of_error (next_of_set hcursor hc hset) _⟩
    . exact ⟨rfl, ⟨_, _, hc⟩, (List.append_nil _).symm⟩
    . rfl
  | false =>
    cases rows with
    | nil =>
      have hnext := next_of_nil hcursor hc rfl hset
      exact ⟨_, 0, p.through_gone t none [], Nat.zero_le 1, rfl, (Perform.bind_of_ok hnext _).trans hno⟩
    | cons r more =>
      have hnext := next_of_row hcursor hc rfl hset
      refine ⟨_, 1, p.through_gone t (some r) more, Nat.le_refl 1, rfl,
        (Perform.bind_of_ok hnext _).trans ((hyes r more).trans ?_)⟩
      dsimp only [List.head?]
      cases value r with
      | ok | error => rfl

variable [DecidableEq τ] {names : List String} {row : Row} {r : RowValues}
  {current : Option RowValues} {more rest : List RowValues} {noted : List Happening}
  {base : List (String × Variable α (Local Val))} {vs : List (ReadValue Val)}

theorem read_value_at (hrow : w.Finds names row) (hcursor : p.scope.isCursor "_cursor" = true)
    (hc : p.cursor = some (t.cursor (some r) more))
    : w.read (row.readWith names).value p =
        Perform.ofExcept (w.rowValue (.showing t.columns r) row) p := by
  rw [read_value hrow hcursor hc]
  exact congrArg (Perform.ofExcept · p) (rowValue_congr rfl rfl row)

theorem read_optional_at (hrow : w.Finds names row) (hcursor : p.scope.isCursor "_cursor" = true)
    (hc : p.cursor = some (t.cursor (some r) more))
    : w.read (row.readWith names).optional p =
        Perform.ofExcept (w.rowOption (.showing t.columns r) row) p := by
  rw [read_optional hrow hcursor hc]
  exact congrArg (Perform.ofExcept · p) (rowOption_congr rfl rfl row)

theorem inBlock_item (hrow : w.Finds names row)
    (hscope : p.scope = ⟨("_result", .other (.value (.list vs))) :: base, noted⟩)
    (hcursor : p.scope.isCursor "_cursor" = true) (hc : p.cursor = some (t.cursor (some r) more))
    : Perform.inBlock (w.performAll
        [.bind false "_item" none (row.readWith names).value,
         .run (.method (.var "_result") .push [.var "_item"])]) p =
        match w.rowValue (.showing t.columns r) row with
        | .ok v => some (.ok (),
            { p with scope := ⟨("_result", .other (.value (.list (vs ++ [v])))) :: base, noted⟩ })
        | .error f => some (.error (.error f), p) := by
  have hread := read_value_at hrow hcursor hc
  rw [performAll, performAll, performAll, perform_bind_value, perform_push]
  cases hvalue : w.rowValue (.showing t.columns r) row with
  | error f =>
    rw [hvalue] at hread
    have hitem := Perform.declare_of_error hread "_item"
    exact Perform.inBlock_of_length (Perform.bind_of_error hitem _) rfl
  | ok v =>
    rw [hvalue] at hread
    have hitem := Perform.declare_of_ok hread "_item"
    have hread : w.read (.var "_item") { p with scope := p.scope.declare "_item" (.value v) } =
        some (.ok v, { p with scope := p.scope.declare "_item" (.value v) }) := by
      rw [read]
      rfl
    have hpush : Perform.push "_result" (w.read (.var "_item"))
          { p with scope := p.scope.declare "_item" (.value v) } =
        some (.ok (), { p with scope :=
          ⟨("_item", .other (.value v)) :: ("_result", .other (.value (.list (vs ++ [v])))) :: base,
            noted⟩ }) := by
      unfold Perform.push
      rw [Perform.bind_of_ok hread, hscope]
      rfl
    unfold Perform.inBlock
    rw [Perform.bind_of_ok hitem, Perform.bind_of_ok hpush, hscope]
    dsimp only [Option.map, pure, List.length_cons]
    rw [Nat.add_sub_cancel_left]
    rfl

theorem loop_items (hrow : w.Finds names row) (hbase : base.lookup "_cursor" = some (.other .cursor))
    (hscope : p.scope = ⟨("_result", .other (.value (.list vs))) :: base, noted⟩)
    (hc : p.cursor = some (t.cursor current rest))
    : let loop := Perform.loop (w.next "_cursor") (.inBlock (w.performAll
          [.bind false "_item" none (row.readWith names).value,
           .run (.method (.var "_result") .push [.var "_item"])])) (rest.length + 1) p
      ∃ q k, p.Through q t (rest.take k) ∧
        match w.items row (w.isSet t.signal) t.columns p.looks rest with
        | .ok items => loop = some (.ok (), q) ∧
          q.scope = ⟨("_result", .other (.value (.list (vs ++ items)))) :: base, noted⟩
        | .error f => loop = some (.error (.error f), q) := by
  have hlists (vs : List (ReadValue Val))
      : Scope.isCursor ⟨("_result", .other (.value (.list vs))) :: base, noted⟩ "_cursor" = true := by
    unfold Scope.isCursor Scope.local? Frame.get?
    rw [List.lookup_cons, beq_eq_false_iff_ne.2 (by decide)]
    dsimp only
    rw [hbase]
  induction rest generalizing p vs current with
  | nil =>
    have hcursor : p.scope.isCursor "_cursor" = true := hscope ▸ hlists vs
    rw [items_nil]
    unfold look
    cases hset : w.isSet t.signal p.looks with
    | true =>
      refine ⟨_, 0, ?_, Perform.bind_of_error (next_of_set hcursor hc hset) _⟩
      exact ⟨rfl, ⟨_, _, hc⟩, (List.append_nil _).symm⟩
    | false =>
      refine ⟨_, 0, p.through_gone t none [],
        Perform.bind_of_ok (next_of_nil hcursor hc rfl hset) _, ?_⟩
      rw [List.append_nil]
      exact hscope
  | cons r rest ih =>
    have hcursor : p.scope.isCursor "_cursor" = true := hscope ▸ hlists vs
    rw [items_cons]
    unfold look
    cases hset : w.isSet t.signal p.looks with
    | true =>
      refine ⟨_, 0, ?_, Perform.bind_of_error (next_of_set hcursor hc hset) _⟩
      exact ⟨rfl, ⟨_, _, hc⟩, (List.append_nil _).symm⟩
    | false =>
      have hnext := next_of_row hcursor hc rfl hset
      have hthrough := p.through_gone t (some r) rest
      have hitem := inBlock_item (p := p.gone t (some r) rest) hrow hscope hcursor rfl
      cases hvalue : w.rowValue (.showing t.columns r) row with
      | error f =>
        rw [hvalue] at hitem
        exact ⟨_, 1, hthrough, (Perform.bind_of_ok hnext _).trans (Perform.bind_of_error hitem _)⟩
      | ok v =>
        rw [hvalue] at hitem
        let next := { p.gone t (some r) rest with
          scope := ⟨("_result", .other (.value (.list (vs ++ [v])))) :: base, noted⟩ }
        have hto : p.Through next t [r] := ⟨rfl, hthrough.cursor, rfl⟩
        obtain ⟨q, k, hmore, hloop⟩ := ih (p := next) rfl rfl
        have hgoes : Perform.loop (w.next "_cursor") _ ((r :: rest).length + 1) p = _ :=
          (Perform.bind_of_ok hnext _).trans (Perform.bind_of_ok hitem _)
        refine ⟨q, k + 1, hto.trans hmore, ?_⟩
        have hlooks : next.looks = p.looks + 1 := rfl
        rw [hlooks] at hloop
        cases hitems : w.items row (w.isSet t.signal) t.columns (p.looks + 1) rest with
        | error f =>
          rw [hitems] at hloop
          exact hgoes.trans hloop
        | ok items =>
          rw [hitems] at hloop
          obtain ⟨hloop, hlist⟩ := hloop
          refine ⟨hgoes.trans hloop, ?_⟩
          rw [List.append_assoc] at hlist
          exact hlist

theorem readBlock_missing {e : Expr} {s : Statement} {streaming : Bool}
    (hs : streaming = false → p.scope.statement? e = some s)
    : w.readBlock (.mk [Reading.missing e streaming] none) p =
        some (.error (returned s.sql streaming (.ok none)), p) := by
  have hret : w.perform (Reading.missing e streaming) p =
      some (.error (returned s.sql streaming (.ok none)), p) := by
    apply perform_ret
    cases streaming with
    | true =>
      rw [if_pos rfl, result, read]
      rfl
    | false =>
      rw [if_neg Bool.false_ne_true, result]
      refine (Perform.bind_of_ok (rfl : Perform.scope p = some (.ok p.scope, p)) _).trans ?_
      rw [hs rfl]
      rfl
  rw [readBlock, performAll, performAll]
  refine Perform.inBlock_of_length ?_ rfl
  exact Perform.bind_of_error (Perform.bind_of_error hret _) _

/-- Code gives `_result` a value, or leaves the body. -/
def Settles (x : Perform σ α Val Unit) (p q : Performance σ α Val)
    : Except (Returned Val) (ReadValue Val) → Prop
  | .ok v => x p = some (.ok (), q) ∧ q.scope = p.scope.declare "_result" (.value v)
  | .error v => x p = some (.error v, q)

theorem settles_first {yes no : Block} {type : Option CodeType} {value : RowValues → Returned Val}
    {absent : Except (Returned Val) (ReadValue Val)} {rows : List RowValues}
    (hcursor : p.scope.isCursor "_cursor" = true) (hc : p.cursor = some (t.cursor none rows))
    (hyes : ∀ r more, w.readBlock yes (p.gone t (some r) more) =
      Perform.ofExcept (value r) (p.gone t (some r) more))
    (hno : w.readBlock no (p.gone t none []) = some (absent, p.gone t none []))
    : ∃ q k, p.Through q t (rows.take k) ∧ k ≤ 1 ∧
        Settles (w.performAll [.bind false "_result" type (.ifElse Reading.nextRow yes no)]) p q
          (first (w.isSet t.signal p.looks) value absent rows) := by
  obtain ⟨q, k, hthrough, hk, hscope, hread⟩ := next_first hcursor hc hyes hno
  rw [performAll, performAll, bind_pure_unit, perform_bind_ifElse]
  cases hfirst : first (w.isSet t.signal p.looks) value absent rows with
  | ok v =>
    rw [hfirst] at hread
    refine ⟨_, k, ?_, hk, Perform.declare_of_ok hread _, ?_⟩
    . exact ⟨hthrough.db, hthrough.cursor, hthrough.log⟩
    . exact congrArg (Scope.declare · "_result" (.value v)) hscope
  | error v =>
    rw [hfirst] at hread
    exact ⟨q, k, hthrough, hk, Perform.declare_of_error hread _⟩

/-- The code that reads rows reads them as declared, or leaves the body. Where a missing row is told, the
statement is not hidden by the cursor. -/
theorem settles_readRows {shape : Shape} {e : Expr} {s : Statement} {rows : List RowValues} {streaming : Bool}
    (hrow : w.Finds names shape.row)
    (hs : shape.multiplicity = .single → streaming = false → p.scope.statement? e = some s)
    (hvars : p.scope.vars = ("_cursor", .other .cursor) :: base)
    (hc : p.cursor = some (t.cursor none rows)) (hlooks : p.looks = 1)
    : ∃ q k, p.Through q t (rows.take k) ∧ (shape.multiplicity ≠ .list → k ≤ 1) ∧
        Settles (w.performAll
            (Reading.readRows shape (shape.row.readWith names) (Reading.missing e streaming))) p q
          (settled s.sql streaming (w.consumed shape (w.isSet t.signal) t.columns rows)) := by
  have hcursor : p.scope.isCursor "_cursor" = true := by
    unfold Scope.isCursor Scope.local? Frame.get?
    rw [hvars]
    rfl
  unfold Reading.readRows consumed
  cases hmultiplicity : shape.multiplicity with
  | single =>
    obtain ⟨q, k, hthrough, hk, hsettles⟩ := settles_first hcursor hc
      (fun r more => readBlock_ofExpr (read_value_at hrow hcursor rfl))
      (readBlock_missing (w := w) (p := p.gone t none []) (hs hmultiplicity))
    refine ⟨q, k, hthrough, fun _ => hk, ?_⟩
    dsimp only
    rw [settled_first, ← hlooks]
    exact hsettles
  | optional =>
    have hnone : w.readBlock (.ofExpr .none) (p.gone t none []) = _ :=
      readBlock_ofExpr (v := .ok .nothing) (by rw [read]; rfl)
    obtain ⟨q, k, hthrough, hk, hsettles⟩ := settles_first hcursor hc
      (fun r more => readBlock_ofExpr (read_optional_at hrow hcursor rfl)) hnone
    refine ⟨q, k, hthrough, fun _ => hk, ?_⟩
    dsimp only
    rw [settled_first, ← hlooks]
    exact hsettles
  | list =>
    have hlist := perform_list w (some (.declared shape.value)) hcursor hc
    have hbase : p.scope.vars.lookup "_cursor" = some (.other .cursor) := by
      rw [hvars]
      rfl
    let listed := { p with scope := p.scope.declare "_result" (.value (.list [])) }
    obtain ⟨q, k, hthrough, hloop⟩ := loop_items (p := listed) hrow hbase rfl hc
    refine ⟨q, k, ⟨hthrough.db, hthrough.cursor, hthrough.log⟩, fun h => absurd rfl h, ?_⟩
    have hwhile (body : List Stmt) : w.perform (.whileLoop Reading.nextRow body) listed =
        Perform.loop (w.next "_cursor") (.inBlock (w.performAll body)) (rows.length + 1) listed := by
      rw [perform_while]
      change Perform.loop _ _ ((p.cursor.map (·.rest.length)).getD 0 + 1) _ = _
      rw [hc]
      rfl
    have hlooks : listed.looks = 1 := hlooks
    rw [hlooks] at hloop
    dsimp only
    rw [performAll, performAll, performAll, bind_pure_unit]
    cases hitems : w.items shape.row (w.isSet t.signal) t.columns 1 rows with
    | error f =>
      rw [hitems] at hloop
      exact (Perform.bind_of_ok hlist _).trans ((hwhile _).trans hloop)
    | ok items =>
      rw [hitems] at hloop
      obtain ⟨hloop, hscope⟩ := hloop
      exact ⟨(Perform.bind_of_ok hlist _).trans ((hwhile _).trans hloop), hscope⟩

theorem result_result {scope : Scope α Val} {v : ReadValue Val} (sql : String) (streaming : Bool)
    (hscope : p.scope = scope.declare "_result" (.value v))
    : w.result (.ok (if streaming then .some (.var "_result") else .var "_result")) p =
        some (.ok (returned sql streaming (.ok (some v))), p) := by
  have hread : w.read (.var "_result") p = some (.ok v, p) := by
    rw [read]
    refine (Perform.bind_of_ok (rfl : Perform.scope p = some (.ok p.scope, p)) _).trans ?_
    rw [hscope]
    rfl
  rw [result]
  refine (Perform.bind_of_ok ?_ _).trans rfl
  cases streaming with
  | true =>
    rw [if_pos rfl, read]
    exact Perform.bind_of_ok hread _
  | false => exact hread

section Consume

variable {scope : Scope α Val} {handle e signal : Expr} {s : Statement} {n : Option Nat}
  {db db' : Database σ} {shape : Shape} {rows : List RowValues} {streaming : Bool}

theorem performAll_consume (w : Surroundings σ α Val) (db : Database σ) (shape : Shape) (row : RowRead)
    (streaming : Bool) (hhandle : scope.isHandle handle = true) (hs : scope.statement? e = some s)
    (hsignal : scope.signal? signal = some n)
    : w.performAll (Reading.consume handle e signal shape row streaming).statements
        ⟨scope, db, 0, none, []⟩ =
        ((⟨scope, db, 0, none, []⟩ : Performance σ α Val).queried "_cursor"
          (Database.query w.engine s n { db with cancellation := w.looked 0 })).bind
          (Perform.follow fun _ => do
            w.performAll (Reading.readRows shape row (Reading.missing e streaming))
            w.performAll [.run (.method RowCode.cursorVar .close [])]) := by
  have hquery : w.query "_cursor" handle e signal ⟨scope, db, 0, none, []⟩ = _ := if_pos hhandle
  rw [hs, hsignal] at hquery
  unfold Reading.consume
  dsimp only [Block.statements]
  rw [List.append_assoc, List.singleton_append, performAll, perform_query, performAll_append]
  exact congrArg (Option.bind · _) hquery

theorem run_consume_of_fault {f : Fault} (hhandle : scope.isHandle handle = true)
    (hs : scope.statement? e = some s) (hsignal : scope.signal? signal = some n)
    (hquery : Database.query w.engine s n { db with cancellation := w.looked 0 } = (.fault f, db'))
    (row : RowRead) (streaming : Bool)
    : ∃ p, w.run scope (Reading.consume handle e signal shape row streaming) db = some (.error f, p) ∧
        p.db = { db' with cancellation := w.left } ∧ p.cursor = none ∧ p.log = [] := by
  have hbody := performAll_consume w db shape row streaming hhandle hs hsignal
  rw [hquery] at hbody
  exact ⟨_, run_of_error rfl hbody, rfl, rfl, rfl⟩

theorem run_consume_of_rows (hhandle : scope.isHandle handle = true)
    (hs : scope.statement? e = some s)
    (hmissing : shape.multiplicity = .single → streaming = false →
      (scope.declare "_cursor" .cursor).statement? e = some s)
    (hsignal : scope.signal? signal = some n) (hrow : w.Finds names shape.row)
    (hquery : Database.query w.engine s n { db with cancellation := w.looked 0 } =
      (.ok (t.cursor none rows), db'))
    : ∃ p k,
        w.run scope (Reading.consume handle e signal shape (shape.row.readWith names) streaming) db =
          some (returned s.sql streaming (w.consumed shape (w.isSet t.signal) t.columns rows), p) ∧
        p.db = { db' with cancellation := w.left } ∧ p.Closed t (rows.take k) ∧
        (shape.multiplicity ≠ .list → k ≤ 1) := by
  have hbody := performAll_consume w db shape (shape.row.readWith names) streaming hhandle hs hsignal
  rw [hquery] at hbody
  obtain ⟨q, k, hthrough, hk, hsettles⟩ := settles_readRows
    (p := ⟨scope.declare "_cursor" .cursor, db', 1, some (t.cursor none rows), []⟩)
    hrow hmissing rfl rfl rfl
  have hclosed : q.close.Closed t (rows.take k) := hthrough.closed rfl
  have hdb : q.db = db' := hthrough.db
  cases hconsumed : w.consumed shape (w.isSet t.signal) t.columns rows with
  | error f =>
    rw [hconsumed] at hsettles
    have hleft := run_of_error rfl (hbody.trans (Perform.bind_of_error hsettles _))
    refine ⟨_, k, hleft, ?_, ⟨hclosed.cursor, hclosed.log⟩, hk⟩
    rw [hdb]
  | ok found =>
    rw [hconsumed] at hsettles
    cases found with
    | none =>
      have hleft := run_of_error rfl (hbody.trans (Perform.bind_of_error hsettles _))
      refine ⟨_, k, hleft, ?_, ⟨hclosed.cursor, hclosed.log⟩, hk⟩
      rw [hdb]
    | some v =>
      obtain ⟨hread, hscope⟩ := hsettles
      have hcursor : q.scope.isCursor "_cursor" = true := by
        rw [hscope]
        rfl
      have hclose : w.performAll [.run (.method RowCode.cursorVar .close [])] q =
          some (.ok (), q.close) := by
        rw [performAll, performAll, bind_pure_unit, perform_close hcursor]
      have hclosedScope : q.close.scope = q.scope := q.scope_close
      have hreturns := result_result (w := w) s.sql streaming (hclosedScope.trans hscope)
      have hleft := run_of_ok rfl (hbody.trans ((Perform.bind_of_ok hread _).trans hclose)) hreturns
      refine ⟨_, k, hleft, ?_, ?_, hk⟩
      . rw [q.db_close, hdb]
      . rw [q.close_close]
        exact ⟨hclosed.cursor, hclosed.log⟩

/-- A body makes of the answer to its statement what is declared. -/
theorem run_consume (hengine : w.engine.Answers) (hhandle : scope.isHandle handle = true)
    (hs : scope.statement? e = some s)
    (hmissing : shape.multiplicity = .single → streaming = false →
      (scope.declare "_cursor" .cursor).statement? e = some s)
    (hsignal : scope.signal? signal = some n) (hrow : w.Finds names shape.row) (db : Database σ)
    : ∃ v p,
        w.run scope (Reading.consume handle e signal shape (shape.row.readWith names) streaming) db =
          some (v, p) ∧
        w.Reads shape s.sql streaming n v p
          (Database.query w.engine s n { db with cancellation := w.looked 0 }) := by
  rcases hquery : Database.query w.engine s n { db with cancellation := w.looked 0 } with
    ⟨c | f | _, db'⟩
  . obtain ⟨t, rows, rfl, rfl⟩ := hengine.exists_resultSet hquery
    obtain ⟨p, k, hrun, hdb, hclosed, hk⟩ :=
      run_consume_of_rows hhandle hs hmissing hsignal hrow hquery
    exact ⟨_, p, hrun, rfl, hdb, hclosed.cursor, k, hclosed.log, hk⟩
  . obtain ⟨p, hrun, hdb, hcursor, hlog⟩ :=
      run_consume_of_fault hhandle hs hsignal hquery (shape.row.readWith names) streaming
    exact ⟨_, p, hrun, rfl, hdb, hcursor, hlog⟩
  . exact absurd hquery Database.query_ne_crash

end Consume

end Surroundings

end DataAccess

import DataAccess.Proofs.Binding.Frames
import DataAccess.Proofs.Reading.Rows

/-!
This module contains the parts of a reading body on its way. Main statements: a step goes to the next row,
unless there is none or the signal is set; and when a body is left its cursor is closed, once.
-/

namespace DataAccess

open Code (Block CodeType Expr Frame Stmt)

namespace Perform

variable {τ : Type} {Val : τ → Type} {β γ : Type} {p q : Performance σ α Val} {x : Perform σ α Val β}

theorem bind_of_ok {b : β} (h : x p = some (.ok b, q)) (f : β → Perform σ α Val γ)
    : (x >>= f) p = f b q := by
  change (x p).bind (follow f) = _
  rw [h]
  rfl

theorem bind_of_error {r : Returned Val} (h : x p = some (.error r, q)) (f : β → Perform σ α Val γ)
    : (x >>= f) p = some (.error r, q) := by
  change (x p).bind (follow f) = _
  rw [h]
  rfl

theorem inBlock_of_length {r : Except (Returned Val) β} (h : x p = some (r, q))
    (hlength : q.scope.vars.length = p.scope.vars.length) : inBlock x p = some (r, q) := by
  unfold inBlock
  rw [h, Option.map_some]
  dsimp only
  rw [hlength, Nat.sub_self]
  rfl

theorem declare_of_ok {value : Perform σ α Val (ReadValue Val)} {v : ReadValue Val}
    (h : value p = some (.ok v, q)) (x : String)
    : declare x value p = some (.ok (), { q with scope := q.scope.declare x (.value v) }) :=
  bind_of_ok h _

theorem declare_of_error {value : Perform σ α Val (ReadValue Val)} {r : Returned Val}
    (h : value p = some (.error r, q)) (x : String) : declare x value p = some (.error r, q) :=
  bind_of_error h _

instance : LawfulMonad (Perform σ α Val) :=
  LawfulMonad.mk' (Perform σ α Val)
    (fun x => funext fun p => by
      change (x p).bind (follow _) = x p
      rcases x p with _ | ⟨_ | _, _⟩
      all_goals rfl)
    (fun _ _ => rfl)
    (fun x f g => funext fun p => by
      change ((x p).bind (follow f)).bind (follow g) = (x p).bind (follow fun b => f b >>= g)
      rcases x p with _ | ⟨_ | _, _⟩
      all_goals rfl)

end Perform

namespace Scope

variable {τ : Type} {Val : τ → Type} {scope : Scope α Val}

theorem local?_declare_self (scope : Scope α Val) (x : String) (l : Local Val)
    : (scope.declare x l).local? x = some l := by
  unfold local? declare
  rw [Frame.get?_push_self]

theorem local?_declare_ne (scope : Scope α Val) {x y : String} (l : Local Val) (h : y ≠ x)
    : (scope.declare x l).local? y = scope.local? y := by
  unfold local? declare
  rw [Frame.get?_push_ne _ _ h]

def referent? : Expr → Option String
  | .borrow e => referent? e
  | .var x => some x
  | _ => none

theorem statement?_declare {e : Expr} {x : String} (l : Local Val) (hx : referent? e ≠ some x)
    : (scope.declare x l).statement? e = scope.statement? e := by
  fun_induction referent? e with
  | case1 e ih =>
    rw [statement?, statement?]
    exact ih hx
  | case2 y =>
    have hne : y ≠ x := fun heq => hx (congrArg some heq)
    rw [statement?, statement?, Frame.datum?, declare, Frame.get?_push_ne _ _ hne, Frame.datum?]
  | case3 e hborrow hvar =>
    rw [statement?, statement?]
    . exact hborrow
    . exact hvar
    . exact hborrow
    . exact hvar

end Scope

structure ResultSet where
  columns : List String
  count : Nat
  signal : Option Nat
  hooked : Bool

def ResultSet.cursor (t : ResultSet) (current : Option RowValues) (rest : List RowValues) : Cursor :=
  ⟨t.columns, rest, t.count, current, false, t.signal, t.hooked, 0⟩

def ResultSet.closed (t : ResultSet) : Cursor :=
  ⟨t.columns, [], t.count, none, true, t.signal, t.hooked, if t.hooked then 1 else 0⟩

theorem ResultSet.close_cursor (t : ResultSet) (current : Option RowValues) (rest : List RowValues)
    : (t.cursor current rest).close = t.closed := rfl

namespace Performance

variable {τ : Type} {Val : τ → Type} {p q r : Performance σ α Val} {t : ResultSet}
  {first more : List RowValues}

def gone (p : Performance σ α Val) (t : ResultSet) (current : Option RowValues) (rest : List RowValues)
    : Performance σ α Val :=
  { p with
    looks := p.looks + 1
    cursor := some (t.cursor current rest)
    log := p.log ++ current.toList.map .read }

structure Through (p q : Performance σ α Val) (t : ResultSet) (rows : List RowValues) : Prop where
  db : q.db = p.db
  cursor : ∃ current rest, q.cursor = some (t.cursor current rest)
  log : q.log = p.log ++ rows.map .read

theorem Through.trans (hfirst : p.Through q t first) (hmore : q.Through r t more)
    : p.Through r t (first ++ more) where
  db := hmore.db.trans hfirst.db
  cursor := hmore.cursor
  log := by rw [hmore.log, hfirst.log, List.map_append, List.append_assoc]

theorem through_gone (p : Performance σ α Val) (t : ResultSet) (current : Option RowValues)
    (rest : List RowValues) : p.Through (p.gone t current rest) t current.toList :=
  ⟨rfl, ⟨current, rest, rfl⟩, rfl⟩

theorem db_close (p : Performance σ α Val) : p.close.db = p.db := by
  unfold close
  split
  . rfl
  . rfl

theorem scope_close (p : Performance σ α Val) : p.close.scope = p.scope := by
  unfold close
  split
  . rfl
  . rfl

theorem close_close (p : Performance σ α Val) : p.close.close = p.close := by
  unfold close
  cases hc : p.cursor with
  | none => simp [hc]
  | some c => cases hclosed : c.closed <;> simp [Cursor.close, hclosed]

structure Closed (p : Performance σ α Val) (t : ResultSet) (rows : List RowValues) : Prop where
  cursor : p.cursor = some t.closed
  log : p.log = rows.map .read ++ [.closed]

theorem Through.closed (h : p.Through q t first) (hlog : p.log = []) : q.close.Closed t first := by
  obtain ⟨_, ⟨current, rest, hc⟩, hthrough⟩ := h
  rw [hlog, List.nil_append] at hthrough
  unfold close
  rw [hc]
  exact ⟨congrArg some (t.close_cursor current rest), congrArg (· ++ [CursorMoment.closed]) hthrough⟩

end Performance

namespace Surroundings

variable {τ : Type} {Val : τ → Type} {w : Surroundings σ α Val} {t : ResultSet}
  {current : Option RowValues} {rest : List RowValues} {p : Performance σ α Val}

/-- Whether the signal is set when it is looked at. -/
def isSet (w : Surroundings σ α Val) (signal : Option Nat) (k : Nat) : Bool :=
  signal.any (w.looked k).isSet

section Next

variable (hcursor : p.scope.isCursor "_cursor" = true) (hc : p.cursor = some (t.cursor current rest))
include hcursor hc

theorem next_eq : w.next "_cursor" p =
    some (p.stepped ((t.cursor current rest).next (w.looked p.looks))) := by
  unfold next
  rw [if_pos hcursor, hc]
  rfl

theorem next_of_set (hset : w.isSet t.signal p.looks = true)
    : w.next "_cursor" p = some (.error (.error .cancelled), { p with looks := p.looks + 1 }) := by
  have hnext : (t.cursor current rest).next (w.looked p.looks)
      = (.error .cancelled, t.cursor current rest) := if_pos hset
  rw [next_eq hcursor hc, hnext]
  unfold Performance.stepped
  rw [hc]

theorem next_of_row {r : RowValues} {more : List RowValues} (hrest : rest = r :: more)
    (hset : w.isSet t.signal p.looks = false)
    : w.next "_cursor" p = some (.ok true, p.gone t (some r) more) := by
  subst hrest
  have hnext : (t.cursor current (r :: more)).next (w.looked p.looks)
      = (.ok true, t.cursor (some r) more) := if_neg (ne_true_of_eq_false hset)
  rw [next_eq hcursor hc, hnext]
  rfl

theorem next_of_nil (hrest : rest = []) (hset : w.isSet t.signal p.looks = false)
    : w.next "_cursor" p = some (.ok false, p.gone t none []) := by
  subst hrest
  have hnext : (t.cursor current []).next (w.looked p.looks) = (.ok false, t.cursor none []) :=
    if_neg (ne_true_of_eq_false hset)
  rw [next_eq hcursor hc, hnext]
  rfl

end Next

theorem condition_nextRow : w.condition Reading.nextRow = w.next "_cursor" := rfl

variable [DecidableEq τ]

theorem performAll_append (first rest : List Stmt)
    : w.performAll (first ++ rest) = (do w.performAll first; w.performAll rest) := by
  induction first with
  | nil =>
    rw [List.nil_append, performAll, pure_bind]
  | cons s more ih =>
    rw [List.cons_append, performAll, performAll, ih, bind_assoc]

theorem perform_query (mutable : Bool) (x : String) (type : Option CodeType)
    (handle statement signal : Expr)
    : w.perform (.bind mutable x type (.attempt (.method handle .query [statement, signal]))) =
        w.query x handle statement signal := by
  funext p
  rw [perform]
  rfl

/-- A variable is declared for what an expression reads that is neither a statement nor a query. -/
theorem perform_bind {mutable : Bool} {x : String} {type : Option CodeType} {e : Expr}
    (hdeclare : ∀ scope, w.declare scope (.bind mutable x type e) = none)
    (hquery : ∀ handle statement signal,
      e ≠ .attempt (.method handle .query [statement, signal]))
    : w.perform (.bind mutable x type e) = Perform.declare x (w.read e) := by
  funext p
  rw [perform, hdeclare]
  . exact fun _ _ _ h => hquery _ _ _ h

theorem perform_bind_value (mutable : Bool) (x : String) (type : Option CodeType) (names : List String)
    (row : Row)
    : w.perform (.bind mutable x type (row.readWith names).value) =
        Perform.declare x (w.read (row.readWith names).value) := by
  cases row with
  | entity | scalar => exact perform_bind (fun _ => rfl) fun _ _ _ h => by cases h

theorem perform_bind_ifElse (mutable : Bool) (x : String) (type : Option CodeType) (yes no : Block)
    : w.perform (.bind mutable x type (.ifElse Reading.nextRow yes no)) =
        Perform.declare x (do if ← w.next "_cursor" then w.readBlock yes else w.readBlock no) := by
  have hread : w.read (.ifElse Reading.nextRow yes no) =
      (do if ← w.next "_cursor" then w.readBlock yes else w.readBlock no) := by
    rw [read, condition_nextRow]
  rw [← hread]
  exact perform_bind (fun _ => rfl) fun _ _ _ h => by cases h

theorem perform_list (w : Surroundings σ α Val) (type : Option CodeType)
    (hcursor : p.scope.isCursor "_cursor" = true) (hc : p.cursor = some (t.cursor current rest))
    : w.perform (.bind true "_result" type
        (.call .listWithCapacity [.method RowCode.cursorVar .count []])) p =
        some (.ok (), { p with scope := p.scope.declare "_result" (.value (.list [])) }) := by
  rw [perform_bind (fun _ => rfl) fun _ _ _ h => by cases h]
  apply Perform.declare_of_ok
  rw [RowCode.cursorVar, read, Perform.onCursor_eq hcursor hc]
  rfl

theorem perform_push (x : String) (e : Expr)
    : w.perform (.run (.method (.var x) .push [e])) = Perform.push x (w.read e) := by
  funext p
  rw [perform]
  rfl

theorem perform_while (body : List Stmt)
    : w.perform (.whileLoop Reading.nextRow body) p =
        Perform.loop (w.next "_cursor") (.inBlock (w.performAll body))
          ((p.cursor.map (·.rest.length)).getD 0 + 1) p := by
  rw [perform, condition_nextRow]
  rfl

theorem perform_close (hcursor : p.scope.isCursor "_cursor" = true)
    : w.perform (.run (.method RowCode.cursorVar .close [])) p = some (.ok (), p.close) := by
  rw [RowCode.cursorVar, perform]
  exact if_pos hcursor

theorem perform_ret {e : Expr} {v : Returned Val} (h : w.result e p = some (.ok v, p))
    : w.perform (.ret e) p = some (.error v, p) := by
  rw [perform]
  exact Perform.bind_of_ok h _

theorem readBlock_ofExpr {e : Expr} {v : Returned Val} (h : w.read e p = Perform.ofExcept v p)
    : w.readBlock (.ofExpr e) p = Perform.ofExcept v p := by
  have hblock : w.readBlock (.ofExpr e) = Perform.inBlock (w.read e) := by
    rw [Block.ofExpr, readBlock, performAll, pure_bind]
  rw [hblock]
  cases v with
  | ok | error => exact Perform.inBlock_of_length h rfl

theorem run_of_ok {scope : Scope α Val} {body : Block} {e : Expr} {db : Database σ} {v : Returned Val}
    (hresult : body.result = some e)
    (hbody : w.performAll body.statements ⟨scope, db, 0, none, []⟩ = some (.ok (), p))
    (he : w.result e p = some (.ok v, p))
    : w.run scope body db =
        some (v, { p.close with db := { p.db with cancellation := w.left } }) := by
  unfold run
  rw [hresult]
  dsimp only
  rw [Perform.bind_of_ok hbody, he]
  simp only [Option.bind_eq_bind, Option.bind_some, p.db_close]
  rfl

theorem run_of_error {scope : Scope α Val} {body : Block} {e : Expr} {db : Database σ} {v : Returned Val}
    (hresult : body.result = some e)
    (hbody : w.performAll body.statements ⟨scope, db, 0, none, []⟩ = some (.error v, p))
    : w.run scope body db =
        some (v, { p.close with db := { p.db with cancellation := w.left } }) := by
  unfold run
  rw [hresult]
  dsimp only
  rw [Perform.bind_of_error hbody]
  simp only [Option.bind_eq_bind, Option.bind_some, p.db_close]
  rfl

end Surroundings

end DataAccess

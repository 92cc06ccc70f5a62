import DataAccess.Proofs.Reading.Consumed

/-!
This module contains how the body of a read comes to run, for each delivery: in place, or as a closure that has
captured the database, and in both cases with the statement that was made before. Main statement: what is
handed over runs the statement and reads its rows as declared, whatever the delivery, as long as the body's own
variables hide neither the statement nor the callback.
-/

namespace DataAccess

open Code (Block Call CodeType Expr Frame Stmt execAll scopeAfter)

def Delivery.signal (n : Nat) : Delivery → Option Nat
  | future | suspend => some n
  | direct | stream => none

namespace Surroundings

variable {τ : Type} {Val : τ → Type} (w : Surroundings σ α Val)

def statement? (scope : Scope α Val) : ReadStatement → Option Statement
  | .owned setup => do
    let scope : Scope α Val ← execAll w.call scope setup
    scope.statement? BoundStatement.statementVar
  | .borrowed e => scope.statement? e

variable {w} {scope f : Scope α Val} {st : ReadStatement} {s : Statement}

theorem declare_of_exec {code : Stmt} (h : code.exec w.call scope = some f)
    : w.declare scope code = some f := by
  unfold declare
  split
  . cases h
  . cases h
  . exact h

theorem foldlM_declare_of_execAll {setup : List Stmt} (h : execAll w.call scope setup = some f)
    : setup.foldlM w.declare scope = some f := by
  induction setup generalizing scope with
  | nil => exact h
  | cons code rest ih =>
    obtain ⟨g, hg, hrest⟩ := Option.bind_eq_some_iff.1 h
    rw [List.foldlM_cons, declare_of_exec hg]
    exact ih hrest

theorem foldlM_declare_forDelivery (h : w.statement? scope st = some s) (delivery : Delivery)
    : ∃ f : Scope α Val, (st.forDelivery delivery).1.foldlM w.declare scope = some f ∧
        f.statement? (st.forDelivery delivery).2 = some s ∧
        ∀ x, Frame.get? scope x = none → x ∉ scopeAfter [] (st.forDelivery delivery).1 →
          Frame.get? f x = none := by
  cases st with
  | owned setup =>
    have hmoved : (ReadStatement.owned setup).forDelivery delivery =
        (setup, .borrow BoundStatement.statementVar) := by
      cases delivery with
      | direct | suspend | future | stream => rfl
    obtain ⟨f, hf, hs⟩ := Option.bind_eq_some_iff.1 h
    rw [hmoved]
    refine ⟨f, foldlM_declare_of_execAll hf, hs, ?_⟩
    intro x hx hsetup
    rw [Code.get?_of_execAll hf (by simp [hx]) hsetup, hx]
  | borrowed e =>
    have hplace : scope.statement? e = some s := h
    let copied : Scope α Val := Frame.declare scope false "_statement" (.statement s)
    have hcopy : w.declare scope (.bind false "_statement" none (.call .clone [e])) = some copied := by
      unfold declare
      dsimp only
      rw [hplace]
      rfl
    cases delivery with
    | direct => exact ⟨scope, rfl, hplace, fun _ hx _ => hx⟩
    | suspend | future | stream =>
      refine ⟨copied, (List.foldlM_cons ..).trans ?_, rfl, ?_⟩
      . rw [hcopy]
        rfl
      . intro x hx hsetup
        exact (Frame.get?_declare_ne scope false _ (List.ne_of_not_mem_cons hsetup)).trans hx

variable [DecidableEq τ]

theorem perform_of_declare {code : Stmt} {p : Performance σ α Val}
    (h : w.declare p.scope code = some f)
    : w.perform code p = some (.ok (), { p with scope := f }) := by
  rw [perform.eq_def, h]

theorem performAll_of_declare {setup : List Stmt} {p : Performance σ α Val}
    (h : setup.foldlM w.declare p.scope = some f)
    : w.performAll setup p = some (.ok (), { p with scope := f }) := by
  induction setup generalizing p with
  | nil =>
    cases h
    rw [performAll]
    rfl
  | cons code rest ih =>
    obtain ⟨next, hnext, hrest⟩ := Option.bind_eq_some_iff.1 ((List.foldlM_cons ..).symm.trans h)
    rw [performAll]
    exact (Perform.bind_of_ok (perform_of_declare hnext) _).trans (ih (p := { p with scope := next }) hrest)

/-- Code that declares its statement first runs like the rest of it with the statement at hand. -/
theorem run_prepend {setup : List Stmt} (h : setup.foldlM w.declare scope = some f) (body : Block)
    (db : Database σ) : w.run scope (body.prepend setup) db = w.run f body db := by
  have hsetup := performAll_of_declare (p := ⟨scope, db, 0, none, []⟩) h
  unfold run Block.prepend
  cases hresult : body.result with
  | none => rfl
  | some e =>
    dsimp only [Block.statements, Block.result]
    rw [performAll_append, bind_assoc, Perform.bind_of_ok hsetup]

def capturing (f : Scope α Val) : Scope α Val :=
  f.declare "__db" .handle

def listening (f : Scope α Val) (n : Nat) : Scope α Val :=
  (capturing f).declare "_signal" (.signal n)

section Deliver

variable {work : Work}

theorem handOver_signalled (hcapture : work.capture = [captureHandle]) (delivery : Delivery)
    (tables : List String) (value : CodeType)
    : w.handOver delivery work.inTransaction tables f (work.moved [Work.signalParam] value) =
        some ⟨delivery, work.inTransaction, tables, fun n => w.run (listening f n) work.body⟩ := by
  unfold Work.moved
  rw [hcapture]
  rfl

theorem handOver_unsignalled (hcapture : work.capture = [captureHandle]) (delivery : Delivery)
    (tables : List String) (value : CodeType)
    : w.handOver delivery work.inTransaction tables f (work.moved [] value) =
        some ⟨delivery, work.inTransaction, tables, fun _ => w.run (capturing f) work.body⟩ := by
  unfold Work.moved
  rw [hcapture]
  rfl

theorem texts?_map (tables : List String) : texts? (tables.map .text) = some tables := by
  unfold texts?
  rw [List.mapM_map]
  exact (List.mapM_pure (m := Option)).trans (congrArg some (List.map_id tables))

variable (hsetup : work.setup.foldlM w.declare scope = some f)
include hsetup

theorem deliver_direct {e : Expr} (hresult : work.body.result = some (.ok e))
    : w.deliver scope work.direct =
        some ⟨.direct, work.inTransaction, [], fun _ => w.run f work.body⟩ := by
  unfold Work.direct deliver
  cases work.inTransaction with
  | true =>
    rw [if_pos rfl]
    dsimp only [Block.result, Block.statements, ownHandle]
    rw [hsetup]
    rfl
  | false =>
    have hplain : (work.body.prepend work.setup).result = some (.ok e) := hresult
    rw [if_neg Bool.false_ne_true, hplain]
    dsimp only
    rw [funext fun db => run_prepend hsetup work.body db]

theorem deliver_future (hcapture : work.capture = [captureHandle])
    : w.deliver scope work.future =
        some ⟨.future, work.inTransaction, [], fun n => w.run (listening f n) work.body⟩ := by
  unfold Work.future deliver
  dsimp only [Block.result, Block.statements]
  rw [hsetup]
  exact handOver_signalled hcapture .future [] work.value

theorem deliver_suspend (hcapture : work.capture = [captureHandle])
    (hcallback : Frame.get? f callbackName = none)
    : w.deliver scope work.suspend =
        some ⟨.suspend, work.inTransaction, [], fun n => w.run (listening f n) work.body⟩ := by
  unfold Work.suspend deliver
  dsimp only [Block.result, Block.statements]
  rw [List.getLast?_concat, List.dropLast_concat]
  dsimp only
  rw [hsetup]
  dsimp only [Option.bind_eq_bind, Option.bind_some]
  rw [hcallback]
  exact handOver_signalled hcapture .suspend [] work.value

theorem deliver_stream (hcapture : work.capture = [captureHandle]) (tables : List String)
    : w.deliver scope (work.stream tables) =
        some ⟨.stream, work.inTransaction, tables, fun _ => w.run (capturing f) work.body⟩ := by
  unfold Work.stream deliver
  dsimp only [Block.result, Block.statements]
  rw [hsetup, texts?_map]
  exact handOver_unsignalled hcapture .stream tables (.option work.value)

end Deliver

/-- What is handed over runs a statement and reads its rows as declared, whatever the signal and the database
are. -/
def Handover.Reads (h : Handover σ α Val) (w : Surroundings σ α Val) (s : Statement) (shape : Shape)
    : Prop :=
  ∀ n db, ∃ v p, h.run n db = some (v, p) ∧
    w.Reads shape s.sql (h.delivery == .stream) (h.delivery.signal n) v p
      (Database.query w.engine s (h.delivery.signal n) { db with cancellation := w.looked 0 })

/-- The variables that a read declares for a delivery hide neither the statement, where a missing row is told,
nor the callback. -/
structure Unhidden (scope : Scope α Val) (st : ReadStatement) (delivery : Delivery) (shape : Shape) : Prop where
  statement : delivery = .direct → shape.multiplicity = .single →
    Scope.referent? (st.forDelivery delivery).2 ≠ some "_cursor"
  callback : delivery = .suspend →
    Frame.get? scope callbackName = none ∧ callbackName ∉ scopeAfter [] (st.forDelivery delivery).1

/-- Every delivery hands over the same reading. -/
theorem deliver_code {shape : Shape} {names : List String} (hengine : w.engine.Answers)
    (hrow : w.Finds names shape.row) (hs : w.statement? scope st = some s) {delivery : Delivery}
    (hunhidden : Unhidden scope st delivery shape) (tables : List String) (inTransaction : Bool)
    : ∃ h, w.deliver scope (Reading.code delivery st shape tables inTransaction names) = some h ∧
        h.delivery = delivery ∧ h.inTransaction = inTransaction ∧
        h.tables = (if delivery = .stream then tables else []) ∧ Handover.Reads h w s shape := by
  obtain ⟨f, hsetup, hs, hfree⟩ := foldlM_declare_forDelivery hs delivery
  let e := (st.forDelivery delivery).2
  have hmoved (hdelivery : delivery ≠ .direct) : e = .borrow BoundStatement.statementVar := by
    cases st with
    | owned | borrowed =>
      cases delivery with
      | direct => contradiction
      | suspend | future | stream => rfl
  have hcursor (hsingle : shape.multiplicity = .single) : Scope.referent? e ≠ some "_cursor" := by
    by_cases hdirect : delivery = .direct
    . exact hunhidden.statement hdirect hsingle
    . rw [hmoved hdirect]
      decide
  have hreads {inner : Scope α Val} (hs : inner.statement? e = some s) (n : Option Nat)
      (hhandle : inner.isHandle (handleFor delivery) = true)
      (hsignal : inner.signal? (Reading.signalFor delivery) = some n) :=
    run_consume hengine hhandle hs
      (fun hsingle (_ : (delivery == .stream) = false) =>
        (Scope.statement?_declare _ (hcursor hsingle)).trans hs)
      hsignal hrow
  have hcapturing (hdelivery : delivery ≠ .direct) : (capturing f).statement? e = some s := by
    refine (Scope.statement?_declare _ ?_).trans hs
    rw [hmoved hdelivery]
    decide
  have hlistening (hdelivery : delivery ≠ .direct) (n : Nat) : (listening f n).statement? e = some s := by
    refine (Scope.statement?_declare _ ?_).trans (hcapturing hdelivery)
    rw [hmoved hdelivery]
    decide
  unfold Reading.code
  cases delivery with
  | direct =>
    exact ⟨_, deliver_direct hsetup rfl, rfl, rfl, rfl, fun n => hreads hs none rfl rfl⟩
  | suspend =>
    obtain ⟨hcallback, hown⟩ := hunhidden.callback rfl
    exact ⟨_, deliver_suspend hsetup rfl (hfree _ hcallback hown), rfl, rfl, rfl,
      fun n => hreads (hlistening nofun n) (some n) rfl rfl⟩
  | future =>
    exact ⟨_, deliver_future hsetup rfl, rfl, rfl, rfl,
      fun n => hreads (hlistening nofun n) (some n) rfl rfl⟩
  | stream =>
    exact ⟨_, deliver_stream hsetup rfl tables, rfl, rfl, rfl,
      fun n => hreads (hcapturing nofun) none rfl rfl⟩

end Surroundings

end DataAccess

import DataAccess.Proofs.Background.Inbox
import DataAccess.Proofs.Storage.Ledgers

/-!
This module contains what observers receive while a thread writes, in transactions or not. Main statement:
nothing is delivered as long as a transaction is open, and when the outermost one is committed all of its
tables come in one message.
-/

namespace DataAccess

open Operation (attempt_eq follow)

structure Tells (watched : List String) (named : Set String) (message : NameSet) : Prop where
  sorted : message.Pairwise (· < ·)
  mem_iff : ∀ x, x ∈ message ↔
    (∃ table ∈ watched, table.map Char.toLower = x) ∧ ∃ table ∈ named, table.map Char.toLower = x

/-- The messages that come of publications. There is none where no watched table was named. -/
inductive Receives (watched : List String) : List (Set String) → List NameSet → Prop where
  | nil : Receives watched [] []
  | message (h : Tells watched named message) (hne : message ≠ [])
    (hrest : Receives watched rest messages) :
    Receives watched (named :: rest) (message :: messages)
  | nothing (h : Tells watched named []) (hrest : Receives watched rest messages) :
    Receives watched (named :: rest) messages

/-- An observer that watches tables has messages in its inbox. -/
def Tracker.Watches (t : Tracker) (id : ObserverId) (watched : List String) (inbox : List NameSet) :
    Prop :=
  t.observer? id = some ⟨id, lowerNames watched, inbox⟩

namespace Tracker

theorem tells_inter (watched named : List String)
    : Tells watched { t | t ∈ named } ((lowerNames watched).inter (lowerNames named)) where
  sorted := (NameSet.pairwise_ofNames _).filter _
  mem_iff x := by
    unfold NameSet.inter
    rw [List.mem_filter, List.contains_iff_mem, mem_lowerNames, mem_lowerNames]
    rfl

theorem Watches.notify {t : Tracker} {id : ObserverId} {watched : List String} {inbox : List NameSet}
    (h : t.Watches id watched inbox) (hhandles : 0 < t.handles) (named : List String)
    : ∃ messages, (t.notify named).Watches id watched (inbox ++ messages) ∧
        Receives watched [{ t | t ∈ named }] messages := by
  have htells := tells_inter watched named
  have hnotified := observer?_notify t id hhandles named
  rw [h, Option.map_some] at hnotified
  unfold Observer.tell at hnotified
  dsimp only at hnotified
  split at hnotified
  . next hempty =>
    rw [List.isEmpty_iff.1 hempty] at htells
    refine ⟨[], ?_, .nothing htells .nil⟩
    rw [List.append_nil]
    exact hnotified
  . next hne =>
    exact ⟨[_], hnotified, .message htells (fun hnil => hne (List.isEmpty_iff.2 hnil)) .nil⟩

end Tracker

theorem Receives.append {watched : List String} {first rest : List (Set String)}
    {messages more : List NameSet} (h : Receives watched first messages)
    (hrest : Receives watched rest more) : Receives watched (first ++ rest) (messages ++ more) := by
  induction h with
  | nil => exact hrest
  | message h hne _ ih => exact .message h hne ih
  | nothing h _ ih => exact .nothing h ih

theorem Receives.eq_nil_of_empty {watched : List String} {messages : List NameSet}
    (h : Receives watched [∅] messages) : messages = [] := by
  cases h with
  | message h hne hrest =>
    exfalso
    apply hne
    apply List.eq_nil_iff_forall_not_mem.2
    intro x hx
    obtain ⟨_, _, hnone, _⟩ := (h.mem_iff x).1 hx
    exact hnone
  | nothing _ hrest =>
    cases hrest
    rfl

namespace Database

def runAll (e : Engine σ stmt) (calls : List (Primitive stmt)) (db : Database σ) : Database σ :=
  calls.foldl (fun db c => (c.run e db).2) db

@[simp]
theorem runAll_nil (e : Engine σ stmt) (db : Database σ) : runAll e [] db = db :=
  rfl

theorem runAll_append (e : Engine σ stmt) (calls rest : List (Primitive stmt)) (db : Database σ)
    : runAll e (calls ++ rest) db = runAll e rest (runAll e calls db) :=
  List.foldl_append

end Database

open Database (runAll runAll_nil runAll_append)

/-- What a thread does that writes and that opens and closes transactions, by itself or around what is
done inside of them. It hears how each call and each transaction ended and goes on as it likes. -/
inductive Session (stmt : Type) : Type → Type 1 where
  | done (a : α) : Session stmt α
  | fail (f : Fault) : Session stmt α
  | panic : Session stmt α
  | act (c : Primitive stmt) (next : Except Fault c.Answer → Session stmt α) : Session stmt α
  | call {β : Type} (body : Session stmt β) (next : Except Fault β → Session stmt α) :
    Session stmt α

namespace Session

def run (e : Engine σ stmt) : Session stmt α → Operation σ α
  | done a => pure a
  | fail f => Operation.fail f
  | panic => Operation.crash
  | act c next => do
    let r ← (c.run e).attempt
    run e (next r)
  | call body next => do
    let r ← (Database.runInTransaction e (run e body)).attempt
    run e (next r)

def callsAfter (next : α → Database σ → List (Primitive stmt)) :
    Outcome α × Database σ → List (Primitive stmt)
  | (.ok a, db) => next a db
  | (.fault _, _) | (.crash, _) => []

def calls (e : Engine σ stmt) : Session stmt α → Database σ → List (Primitive stmt)
  | done _, _ | fail _, _ | panic, _ => []
  | act c next, db =>
    c :: callsAfter (fun r => (next r).calls e) ((c.run e).attempt db)
  | call body next, db =>
    .begin ::
      (callsAfter (fun _ opened => body.calls e opened ++ [.finish (body.run e opened).1.succeeded])
          (Database.beginTransaction e db) ++
        callsAfter (fun r => (next r).calls e)
          ((Database.runInTransaction e (body.run e)).attempt db))

theorem run_eq_runAll (e : Engine σ stmt) (p : Session stmt α) (db : Database σ)
    : (p.run e db).2 = runAll e (p.calls e db) db := by
  have continued {β γ : Type} {r : Outcome β × Database σ} {next : β → Session stmt γ}
      (ih : ∀ b db, ((next b).run e db).2 = runAll e ((next b).calls e db) db)
      : (follow (fun b => (next b).run e) r).2
          = runAll e (callsAfter (fun b => (next b).calls e) r) r.2 := by
    rcases r with ⟨b | f | _, db'⟩
    . exact ih b db'
    . rfl
    . rfl
  induction p generalizing db with
  | done | fail | panic => rfl
  | act c next ih =>
    have hran : ((c.run e).attempt db).2 = (c.run e db).2 := by rw [attempt_eq]
    refine (continued ih).trans ?_
    rw [hran]
    rfl
  | call body next ihbody ihnext =>
    have hran : ((Database.runInTransaction e (body.run e)).attempt db).2
        = runAll e (callsAfter
              (fun _ opened => body.calls e opened ++ [.finish (body.run e opened).1.succeeded])
              (Database.beginTransaction e db))
            (Database.beginTransaction e db).2 := by
      rw [attempt_eq, Database.runInTransaction_eq]
      rcases Database.beginTransaction e db with ⟨_ | f | _, opened⟩
      . change _ = runAll e (body.calls e opened ++ [_]) opened
        rw [runAll_append, ← ihbody]
        rfl
      . rfl
      . rfl
    refine (continued ihnext).trans ?_
    rw [hran]
    exact (runAll_append e _ _ (Database.beginTransaction e db).2).symm

end Session

namespace Engine.Bookkeeping

variable {e : Engine σ stmt} (k : e.Bookkeeping)

def publication (c : Primitive stmt) (db : Database σ) : List (Set String) :=
  let r := c.work e db.store
  if r.1.isOk = true ∧ k.depth r.2 = 0 then [k.noted r.2] else []

def published : List (Primitive stmt) → Database σ → List (Set String)
  | [], _ => []
  | c :: rest, db => k.publication c db ++ published rest (c.run e db).2

def written : List (Primitive stmt) → Database σ → Set String
  | [], _ => ∅
  | c :: rest, db => k.tables c db.store ∪ written rest (c.run e db).2

def StaysOpen : List (Primitive stmt) → Database σ → Prop
  | [], _ => True
  | c :: rest, db => 0 < k.depth (c.run e db).2.store ∧ StaysOpen rest (c.run e db).2

instance decidableStaysOpen
    : (calls : List (Primitive stmt)) → (db : Database σ) → Decidable (k.StaysOpen calls db)
  | [], _ => inferInstanceAs (Decidable True)
  | c :: rest, db =>
    have := decidableStaysOpen rest (c.run e db).2
    inferInstanceAs (Decidable (_ ∧ _))

/-- Calls make up an outermost transaction, which is opened first and closed at last. -/
structure Outermost (inside : List (Primitive stmt)) (success : Bool) (db : Database σ) : Prop where
  outside : k.depth db.store = 0
  staysOpen : k.StaysOpen (.begin :: inside) db
  closed : k.depth (runAll e (.begin :: inside ++ [.finish success]) db).store = 0

variable {k} {db : Database σ}

theorem valid_runAll (hvalid : k.valid db.store) (calls : List (Primitive stmt))
    : k.valid (runAll e calls db).store := by
  induction calls generalizing db with
  | nil => exact hvalid
  | cons c rest ih => exact ih (k.valid_run hvalid c)

theorem handles_run (hvalid : k.valid db.store) (c : Primitive stmt)
    : (c.run e db).2.tracker.handles = db.tracker.handles := by
  have hcases := k.run_cases hvalid c
  dsimp only at hcases
  split at hcases
  . obtain ⟨tables, _, htracker⟩ := hcases.tracker
    rw [htracker]
    split
    . rfl
    . exact db.tracker.handles_notify tables
  . rw [hcases]

theorem handles_runAll (hvalid : k.valid db.store) (calls : List (Primitive stmt))
    : (runAll e calls db).tracker.handles = db.tracker.handles := by
  induction calls generalizing db with
  | nil => rfl
  | cons c rest ih => exact (ih (k.valid_run hvalid c)).trans (handles_run hvalid c)

theorem watches_run (hvalid : k.valid db.store) (hhandles : 0 < db.tracker.handles)
    {id : ObserverId} {watched : List String} {inbox : List NameSet}
    (h : db.tracker.Watches id watched inbox) (c : Primitive stmt)
    : ∃ messages, (c.run e db).2.tracker.Watches id watched (inbox ++ messages) ∧
        Receives watched (k.publication c db) messages := by
  have hcases := k.run_cases hvalid c
  unfold publication
  dsimp only at hcases ⊢
  split at hcases
  . next hpublishes =>
    obtain ⟨tables, hnoted, htracker⟩ := hcases.tracker
    rw [if_pos hpublishes, htracker, ← hnoted]
    cases tables with
    | nil =>
      refine ⟨[], ?_, .nothing ?_ .nil⟩
      . rw [List.append_nil]
        exact h
      . exact ⟨.nil, fun x => by simp⟩
    | cons table rest => exact h.notify hhandles (table :: rest)
  . next hpublishes =>
    rw [if_neg hpublishes, hcases]
    refine ⟨[], ?_, .nil⟩
    rw [List.append_nil]
    exact h

theorem watches_runAll (hvalid : k.valid db.store) (hhandles : 0 < db.tracker.handles)
    {id : ObserverId} {watched : List String} {inbox : List NameSet}
    (h : db.tracker.Watches id watched inbox) (calls : List (Primitive stmt))
    : ∃ messages, (runAll e calls db).tracker.Watches id watched (inbox ++ messages) ∧
        Receives watched (k.published calls db) messages := by
  induction calls generalizing db inbox with
  | nil =>
    refine ⟨[], ?_, .nil⟩
    rw [List.append_nil]
    exact h
  | cons c rest ih =>
    obtain ⟨messages, hwatches, hreceives⟩ := watches_run hvalid hhandles h c
    have hhandles' : 0 < (c.run e db).2.tracker.handles := by
      rw [handles_run hvalid c]
      exact hhandles
    obtain ⟨more, hmore, hrest⟩ := ih (k.valid_run hvalid c) hhandles' hwatches
    rw [List.append_assoc] at hmore
    exact ⟨messages ++ more, hmore, hreceives.append hrest⟩

theorem published_append (calls rest : List (Primitive stmt)) (db : Database σ)
    : k.published (calls ++ rest) db
        = k.published calls db ++ k.published rest (runAll e calls db) := by
  induction calls generalizing db with
  | nil => rfl
  | cons c calls ih =>
    change _ ++ k.published (calls ++ rest) _ = _ ++ _ ++ _
    rw [ih, List.append_assoc]
    rfl

theorem publication_inside (hvalid : k.valid db.store) {c : Primitive stmt}
    (hdepth : 0 < k.depth (c.run e db).2.store) : k.publication c db = [] := by
  have hrun := k.run_inside hvalid hdepth
  rw [hrun] at hdepth
  exact if_neg fun h => Nat.ne_of_gt hdepth h.2

/-- As long as a transaction is open, nothing is published, its tables are noted, and those that were put
aside stay there. -/
theorem inside_of_staysOpen (hvalid : k.valid db.store) (hdepth : 0 < k.depth db.store)
    {calls : List (Primitive stmt)} (h : k.StaysOpen calls db)
    : let left := runAll e calls db
      k.published calls db = [] ∧ 0 < k.depth left.store ∧
        k.noted left.store = k.noted db.store ∪ k.written calls db ∧
        (k.ledger left.store).aside = (k.ledger db.store).aside := by
  induction calls generalizing db with
  | nil => exact ⟨rfl, hdepth, (Set.union_empty _).symm, rfl⟩
  | cons c rest ih =>
    obtain ⟨hopen, hrest⟩ := h
    obtain ⟨hnoted, haside⟩ := k.ledger_run_inside hvalid hdepth hopen
    obtain ⟨hpublished, hdepth', hnoted', haside'⟩ := ih (k.valid_run hvalid c) hopen hrest
    refine ⟨?_, hdepth', ?_, haside'.trans haside⟩
    . change k.publication c db ++ _ = []
      rw [publication_inside hvalid hopen, hpublished]
      rfl
    . change k.noted (runAll e rest _).store = _ ∪ (k.tables c db.store ∪ _)
      rw [hnoted', hnoted, Set.union_assoc]

theorem ledger_begin (hvalid : k.valid db.store) (hdepth : k.depth db.store = 0)
    (hopened : 0 < k.depth (Primitive.begin.run e db).2.store)
    : k.ledger (Primitive.begin.run e db).2.store = ⟨1, ∅, k.noted db.store⟩ := by
  have hrun := k.run_inside hvalid hopened
  obtain ⟨_, hledger⟩ := k.work_ledger hvalid .begin
  rw [hrun] at hopened ⊢
  dsimp only at hledger hopened ⊢
  unfold depth at hopened hdepth
  split at hledger
  . rw [hledger]
    exact if_pos hdepth
  . rw [hledger, hdepth] at hopened
    exact absurd hopened (Nat.lt_irrefl 0)

/-- The outermost transaction is closed, and its tables are published with those that were put aside if it
is committed. If it cannot be closed, nothing is published. -/
theorem finish_outermost (hvalid : k.valid db.store) (hdepth : 0 < k.depth db.store) {success : Bool}
    (hclosed : k.depth ((Primitive.finish success).run e db).2.store = 0)
    : let l := k.ledger db.store
      let ok := ((Primitive.finish success).work e db.store).1.isOk
      k.publication (.finish success) db
          = (if ok then [if success then l.noted ∪ l.aside else l.aside] else []) ∧
        k.noted ((Primitive.finish success).run e db).2.store = if ok then ∅ else l.aside := by
  intro l ok
  let worked := ((Primitive.finish success).work e db.store).2
  obtain ⟨_, hledger⟩ := k.work_ledger hvalid (.finish success)
  have hcases := k.run_cases hvalid (.finish success)
  dsimp only at hledger hcases
  -- The engine has closed the transaction, whether something was published then or not.
  have hworked : k.depth worked = 0 := by
    split at hcases
    . next h => exact h.2
    . rw [hcases] at hclosed
      exact hclosed
  have hnoted : k.noted worked = if success && ok then l.noted ∪ l.aside else l.aside := by
    unfold depth at hworked hdepth
    unfold noted
    rcases hledger with hended | ⟨_, hsame⟩
    . by_cases hone : l.depth = 1
      . rw [hended, Ledger.closed_outermost hone]
      . have hpos : 0 < l.depth := hdepth
        have hinner : l.depth - 1 = 0 := by
          rw [hended, Ledger.closed_inner hone] at hworked
          exact hworked
        omega
    . rw [hsame] at hworked
      exact absurd hworked (Nat.ne_of_gt hdepth)
  unfold publication
  dsimp only
  cases hok : ok with
  | true =>
    have hpublishes : ok = true ∧ k.depth worked = 0 := ⟨hok, hworked⟩
    rw [if_pos hpublishes] at hcases ⊢
    rw [hok, Bool.and_true] at hnoted
    rw [hnoted, hcases.noted]
    exact ⟨rfl, rfl⟩
  | false =>
    have hkept : ¬(ok = true ∧ k.depth worked = 0) := by simp [hok]
    rw [if_neg hkept] at hcases ⊢
    rw [hok, Bool.and_false] at hnoted
    rw [hcases]
    exact ⟨rfl, hnoted⟩

theorem tables_eq_empty (hquiet : k.Quiet) (hvalid : k.valid db.store) {c : Primitive stmt}
    (hfailed : (c.work e db.store).1.isOk = false) : k.tables c db.store = ∅ := by
  have statement {α : Type} {r : Except Fault α × σ} {q : stmt} {tables : List String}
      (hrecorded : (Primitive.recording e tables r).1.isOk = false)
      (htouched : r.1.isOk = false → k.touched q db.store = ∅)
      : k.touched q db.store ∪ { t | r.1.isOk = true ∧ t ∈ tables } = ∅ := by
    have hfailed : r.1.isOk = false := by
      obtain ⟨_ | a, s⟩ := r
      . rfl
      . exact hrecorded
    rw [htouched hfailed]
    simp [hfailed]
  cases c with
  | execute q tables => exact statement hfailed (hquiet.execute q hvalid)
  | insert q tables => exact statement hfailed (hquiet.insert q hvalid)
  | begin | finish => rfl

theorem settled_run (hquiet : k.Quiet) (hvalid : k.valid db.store) (h : (k.ledger db.store).Settled)
    (c : Primitive stmt) : (k.ledger (c.run e db).2.store).Settled := by
  obtain ⟨_, hledger⟩ := k.work_ledger hvalid c
  have hcases := k.run_cases hvalid c
  dsimp only at hledger hcases
  split at hcases
  . exact ⟨fun _ => hcases.noted, fun hpos => absurd hcases.depth (Nat.ne_of_gt hpos)⟩
  . next hkept =>
    rw [hcases]
    dsimp only
    -- A call that has succeeded leaves a transaction open, since it has not published.
    have hopen (hok : (c.work e db.store).1.isOk = true) : k.depth (c.work e db.store).2 ≠ 0 :=
      fun hdepth => hkept ⟨hok, hdepth⟩
    have statement (hl : k.ledger (c.work e db.store).2
        = (k.ledger db.store).note (k.tables c db.store))
        : (k.ledger (c.work e db.store).2).Settled := by
      cases hok : (c.work e db.store).1.isOk with
      | false =>
        rw [hl, tables_eq_empty hquiet hvalid hok, Ledger.note_empty]
        exact h
      | true =>
        have hdepth := hopen hok
        unfold depth at hdepth
        rw [hl] at hdepth ⊢
        exact h.note (Nat.pos_of_ne_zero hdepth) _
    cases c with
    | execute | insert => exact statement hledger
    | begin =>
      dsimp only at hledger
      rw [hledger]
      split
      . exact h.opened
      . exact h
    | finish success =>
      rcases hledger with hclosed | ⟨_, hsame⟩
      . rw [hclosed]
        apply h.closed
        intro hsuccess
        have hdepth := hopen (Bool.and_eq_true_iff.1 hsuccess).2
        unfold depth at hdepth
        rwa [hclosed] at hdepth
      . rw [hsame]
        exact h

theorem settled_runAll (hquiet : k.Quiet) (hvalid : k.valid db.store)
    (h : (k.ledger db.store).Settled) (calls : List (Primitive stmt))
    : (k.ledger (runAll e calls db).store).Settled := by
  induction calls generalizing db with
  | nil => exact h
  | cons c rest ih => exact ih (k.valid_run hvalid c) (settled_run hquiet hvalid h c)

/-- The tables of the outermost transaction are published together if it is committed, with those that
waited for being published before it. -/
theorem outermost_published (hvalid : k.valid db.store) {inside : List (Primitive stmt)} {success : Bool}
    (h : k.Outermost inside success db)
    : let opened := runAll e (.begin :: inside) db
      let ok := ((Primitive.finish success).run e opened).1.succeeded
      let before := k.noted db.store
      k.published (.begin :: inside ++ [.finish success]) db
          = (if ok then [if success then k.written (.begin :: inside) db ∪ before else before] else []) ∧
        k.noted (runAll e (.begin :: inside ++ [.finish success]) db).store
          = if ok then ∅ else before := by
  intro opened ok before
  obtain ⟨houtside, ⟨hbegun, hstaysOpen⟩, hclosed⟩ := h
  have hbegin := ledger_begin hvalid houtside hbegun
  obtain ⟨hpublished, hdepth, hnoted, haside⟩ :=
    inside_of_staysOpen (k.valid_run hvalid .begin) hbegun hstaysOpen
  have hwritten : k.noted opened.store = k.written (.begin :: inside) db :=
    hnoted.trans (congrArg (Ledger.noted · ∪ _) hbegin)
  have hbefore : (k.ledger opened.store).aside = before :=
    haside.trans (congrArg Ledger.aside hbegin)
  rw [runAll_append] at hclosed ⊢
  obtain ⟨hpublication, hleft⟩ :=
    finish_outermost (valid_runAll hvalid (.begin :: inside)) hdepth hclosed
  have hok : ok = ((Primitive.finish success).work e opened.store).1.isOk :=
    Primitive.succeeded_finish e success opened
  rw [published_append, ← hwritten, ← hbefore, hok]
  refine ⟨?_, hleft⟩
  change k.publication .begin db ++ k.published inside _ ++ (k.publication _ opened ++ []) = _
  rw [publication_inside hvalid hbegun, hpublished, hpublication]
  exact List.append_nil _

theorem outermost_observed (hvalid : k.valid db.store) (hsettled : (k.ledger db.store).Settled)
    (hhandles : 0 < db.tracker.handles)
    {inside : List (Primitive stmt)} {success : Bool} (h : k.Outermost inside success db)
    {id : ObserverId} {watched : List String} {inbox : List NameSet}
    (hwatches : db.tracker.Watches id watched inbox)
    : let opened := runAll e (.begin :: inside) db
      let ended := runAll e (.begin :: inside ++ [.finish success]) db
      let committed := success && ((Primitive.finish success).run e opened).1.succeeded
      (committed = true →
        ∃ messages, ended.tracker.Watches id watched (inbox ++ messages) ∧
          Receives watched [k.written (.begin :: inside) db] messages) ∧
      (committed = false → ended.tracker.Watches id watched inbox) := by
  intro opened ended committed
  have hbefore : k.noted db.store = ∅ := hsettled.outside h.outside
  obtain ⟨messages, hinbox, hreceives⟩ := watches_runAll hvalid hhandles hwatches _
  rw [(outermost_published hvalid h).1, hbefore, Set.union_empty] at hreceives
  constructor
  . intro hcommitted
    obtain ⟨hsuccess, hok⟩ := Bool.and_eq_true_iff.1 hcommitted
    rw [if_pos hok, if_pos hsuccess] at hreceives
    exact ⟨messages, hinbox, hreceives⟩
  . intro hdropped
    have hnothing : messages = [] := by
      split at hreceives
      . next hok =>
        have hsuccess : success = false := by
          cases success with
          | false => rfl
          | true => exact absurd hok (Bool.eq_false_iff.1 hdropped)
        rw [hsuccess] at hreceives
        exact hreceives.eq_nil_of_empty
      . cases hreceives
        rfl
    rw [hnothing, List.append_nil] at hinbox
    exact hinbox

/-- No message is ever premature, and the tables of a commit come in one message. Whatever calls a thread
makes, a call hands over what is noted by then if it succeeds and no transaction is open after it, and
otherwise leaves all observers as they are. So observers get what calls publish, the tables of an
outermost transaction together. -/
theorem commits_delivered_once (k : e.Bookkeeping) {db : Database σ} (hvalid : k.valid db.store)
    (hhandles : 0 < db.tracker.handles)
    : (∀ (α : Type) (p : Session stmt α), (p.run e db).2 = runAll e (p.calls e db) db) ∧
      ∀ calls : List (Primitive stmt),
        let left := runAll e calls db
        (∀ c : Primitive stmt,
          let r := c.work e left.store
          let ran := (c.run e left).2
          (if r.1.isOk = true ∧ k.depth r.2 = 0 then k.HandsOver r.2 left ran
            else ran = { left with store := r.2 }) ∧
          (0 < k.depth ran.store → ran.tracker = left.tracker)) ∧
        (∀ id watched inbox, db.tracker.Watches id watched inbox →
          ∃ messages, left.tracker.Watches id watched (inbox ++ messages) ∧
            Receives watched (k.published calls db) messages) ∧
        (∀ inside success, k.Outermost inside success left →
          let opened := runAll e (.begin :: inside) left
          let ok := ((Primitive.finish success).run e opened).1.succeeded
          let before := k.noted left.store
          k.published (.begin :: inside ++ [.finish success]) left
            = if ok then [if success then k.written (.begin :: inside) left ∪ before else before]
              else []) ∧
        (k.Quiet → (k.ledger db.store).Settled →
          (k.ledger left.store).Settled ∧
            ∀ inside success, k.Outermost inside success left →
              ∀ id watched inbox, left.tracker.Watches id watched inbox →
                let opened := runAll e (.begin :: inside) left
                let ended := runAll e (.begin :: inside ++ [.finish success]) left
                let committed := success && ((Primitive.finish success).run e opened).1.succeeded
                (committed = true →
                  ∃ messages, ended.tracker.Watches id watched (inbox ++ messages) ∧
                    Receives watched [k.written (.begin :: inside) left] messages) ∧
                (committed = false → ended.tracker.Watches id watched inbox)) := by
  refine ⟨fun α p => p.run_eq_runAll e db, fun calls => ?_⟩
  intro left
  have hleft := valid_runAll hvalid calls
  have hleftHandles : 0 < left.tracker.handles := by
    rw [handles_runAll hvalid calls]
    exact hhandles
  refine ⟨fun c => ⟨k.run_cases hleft c, fun hdepth => ?_⟩, fun id watched inbox hwatches => ?_,
    fun inside success h => (outermost_published hleft h).1, fun hquiet hsettled => ?_⟩
  . rw [k.run_inside hleft hdepth]
  . exact watches_runAll hvalid hhandles hwatches calls
  . have hsettled' := settled_runAll hquiet hvalid hsettled calls
    refine ⟨hsettled', fun inside success h id watched inbox hwatches => ?_⟩
    exact outermost_observed hleft hsettled' hleftHandles h hwatches

/-- A transaction that writes users and, in a transaction inside of it that is rolled back, tags. Its last
statement fails. -/
def writesUsersAndTags : List (Primitive Storage.Command) :=
  let put (table : Storage.Table) : Primitive Storage.Command :=
    .execute (.put table (.integer 1) .null .abort) []
  [put .users, .begin, put .tags, .finish false, put .users]

theorem commits_delivered_once_writesUsersAndTags
    : let l := Storage.Connection.link Storage.Tables.unchecked
      let e := Storage.Store.engine l 0
      let k := Storage.Store.bookkeeping l 0
      let watched := ["Users", "tags", "teams"]
      let db := { Database.new (Storage.Store.new (Storage.Connection.new Storage.Tables.empty)) with
        tracker := Tracker.new.observe (.named "list") watched }
      let ended (success : Bool) :=
        runAll e (.begin :: writesUsersAndTags ++ [.finish success]) db
      (k.valid db.store ∧ 0 < db.tracker.handles ∧ k.Quiet ∧ (k.ledger db.store).Settled ∧
        ∀ success, k.Outermost writesUsersAndTags success db) ∧
      (∃ messages, (ended true).tracker.Watches (.named "list") watched messages ∧
        Receives watched [k.written (.begin :: writesUsersAndTags) db] messages) ∧
      ((ended true).tracker.drain (.named "list")).1 = true ∧
      (ended false).tracker.Watches (.named "list") watched [] := by
  intro l e k watched db ended
  have hvalid : k.valid db.store := Storage.Store.tidy_new _ 0
  have hhandles : 0 < db.tracker.handles := by decide +kernel
  have hquiet : k.Quiet := Storage.Tables.quiet_unchecked 0
  have hsettled : (k.ledger db.store).Settled := Storage.Store.settled_new _
  have houtermost (success : Bool) : k.Outermost writesUsersAndTags success db := by
    refine ⟨by decide +kernel, by decide +kernel, ?_⟩
    cases success with
    | true => decide +kernel
    | false => decide +kernel
  have hwatches : db.tracker.Watches (.named "list") watched [] :=
    Tracker.new.observer?_observe (.named "list") Nat.one_pos watched
  have hdelivered := ((k.commits_delivered_once hvalid hhandles).2 []).2.2.2 hquiet hsettled
  rw [runAll_nil] at hdelivered
  have hcommitted := (hdelivered.2 _ true (houtermost true) _ _ _ hwatches).1
  have hdropped := (hdelivered.2 _ false (houtermost false) _ _ _ hwatches).2 rfl
  refine ⟨⟨hvalid, hhandles, hquiet, hsettled, houtermost⟩, hcommitted ?_, ?_, hdropped⟩
  . decide +kernel
  . decide +kernel

end Engine.Bookkeeping

end DataAccess

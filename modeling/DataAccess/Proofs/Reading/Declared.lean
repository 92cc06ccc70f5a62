import DataAccess.Engine.Scripted
import DataAccess.Proofs.Binding.Expanded
import DataAccess.Proofs.Binding.Fixed
import DataAccess.Proofs.Compile.Leaves
import DataAccess.Proofs.Compile.Problems
import DataAccess.Proofs.Compile.RowFunctions
import DataAccess.Proofs.Reading.Arrived
import DataAccess.Proofs.Reading.HandedOver

/-!
This module contains the reading methods of a plan. Main statement: whatever the delivery and whatever the
engine answers, the body of such a method runs its statement, gives back the rows that are declared, and
closes its cursor exactly once, as long as no parameter is called like a variable of the body where it is used.
-/

namespace DataAccess

open Code (Block Call Expr Frame execAll scopeAfter)

structure DeclaredRead where
  statement : ReadStatement
  shape : Shape
  tables : List String
  inTransaction : Bool

namespace Category

def read? : Category → Option DeclaredRead
  | read q => some ⟨.owned (q.statement.emit .fresh), q.shape, q.tables, q.inTransaction⟩
  | raw q => some ⟨q.statement, q.shape, q.tables, false⟩
  | _ => none

/-- There are arguments for a method in a scope. Queries find what is passed in the call, raw queries have the
statement or its text. -/
def Takes (call : Call α) (scope : Frame α β) : Category → Prop
  | read q => call.Opens scope q.statement.params
  | raw q =>
    match q.source with
    | .text p => ∃ sql, scope.datum? p.name = some (.text sql)
    | .owned p | .borrowed p => ∃ s, scope.datum? p.name = some (.statement s)
    | .missing => True
  | _ => True

/-- A statement is the one that a method runs, for arguments in a call and a scope. -/
inductive Runs (call : Call α) (scope : Frame α β) : Category → Statement → Prop where
  | read (h : Builds call scope (q.statement.emit .fresh) text values) :
    Runs call scope (.read q) ⟨String.ofList text, values⟩
  | text (hsource : q.source = .text p) (h : scope.datum? p.name = some (.text sql)) :
    Runs call scope (.raw q) (.acquire sql 0)
  | owned (hsource : q.source = .owned p) (h : scope.datum? p.name = some (.statement s)) :
    Runs call scope (.raw q) s
  | borrowed (hsource : q.source = .borrowed p) (h : scope.datum? p.name = some (.statement s)) :
    Runs call scope (.raw q) s
  | missing (hsource : q.source = .missing) : Runs call scope (.raw q) (.acquire RawQuery.missingSql 0)

end Category

theorem BoundStatement.exists_builds {s : BoundStatement} {c : Call α} {f : Frame α β}
    (hopens : c.Opens f s.params) (hhidden : s.hidden = [])
    : ∃ text values, Builds c f (s.emit .fresh) text values := by
  by_cases h : s.isExpandable = true
  . obtain ⟨g, hg, hbuilt, _⟩ := exec_emitExpanded h hopens hhidden
    refine ⟨_, _, g, ?_, hbuilt⟩
    rw [emit, if_pos h, hg]
  . have hscalar : ∀ p ∈ s.params, p.multiple = false := by simpa [isExpandable] using h
    have hsource := s.eval_fixedStatement_fresh c f
    rw [← s.positionalSql.ofList_toList] at hsource
    exact ⟨_, _, (buildsUnlessHidden_of_eval hscalar hopens hsource).1 hhidden⟩

theorem BoundStatement.callbackName_not_mem_locals (s : BoundStatement) : callbackName ∉ s.locals := by
  unfold locals
  split
  . simp only [List.mem_cons, List.mem_append, List.mem_reverse, List.mem_map, not_or]
    refine ⟨by decide, by decide, by decide, by decide, ?_, by decide, by simp⟩
    rintro ⟨k, _, hk⟩
    exact sizeName_ne (by decide) hk
  . decide

def Classified.deliveredBy (c : Classified) (delivery : Delivery) : Classified :=
  { c with method.delivery := delivery }

/-- The names in a method are apart: no parameter whose argument is used is called like a variable of the code
that uses it, and none like the callback in a call that reports to one. -/
structure Classified.NamesApart (c : Classified) : Prop where
  locals : ∀ p ∈ c.category.arguments c.method, p.name ∉ c.locals
  callback : c.method.delivery = .suspend → ∀ p ∈ c.method.params, p.name ≠ callbackName

theorem Classified.code_of_read? {c : Classified} {r : DeclaredRead} (h : c.category.read? = some r)
    (interface : String) (names : List String)
    : c.needs = r.shape.row.needs ∧
        c.code interface names =
          .ok (Reading.code c.method.delivery r.statement r.shape r.tables r.inTransaction names) := by
  unfold needs code
  cases hc : c.category with
  | read | raw =>
    rw [hc] at h
    cases h
    exact ⟨rfl, rfl⟩
  | write | shortcut | transaction | delegate =>
    rw [hc] at h
    cases h

namespace Surroundings

variable {τ : Type} {Val : τ → Type} {w : Surroundings σ α Val}

theorem statement?_bind {scope : Scope α Val} {e : Expr} {s : Statement}
    (h : w.call.eval scope e = some (.statement s))
    : w.statement? scope (.owned [.bind false "_statement" none e]) = some s := by
  have hexec : execAll w.call scope [.bind false "_statement" none e] =
      some (Frame.declare scope false "_statement" (.statement s)) := by
    simp [execAll, Code.exec_bind h]
  rw [statement?, hexec]
  rfl

/-- The statement that a reading method runs is at hand for its body, if its arguments are not hidden. -/
theorem exists_statement {c : Classified} {r : DeclaredRead} (hr : c.category.read? = some r)
    {scope : Scope α Val} (htakes : c.category.Takes w.call scope)
    : ∃ s, ∀ delivery, (c.deliveredBy delivery).NamesApart →
        c.category.Runs w.call scope s ∧ w.statement? scope r.statement = some s := by
  obtain ⟨m, category, unused⟩ := c
  cases category with
  | read q =>
    cases hr
    by_cases hhidden : q.statement.hidden = []
    . obtain ⟨text, values, f, hf, hbuilt⟩ := BoundStatement.exists_builds htakes hhidden
      refine ⟨_, fun _ _ => ⟨.read ⟨f, hf, hbuilt⟩, ?_⟩⟩
      simp [statement?, hf, Scope.statement?, BoundStatement.statementVar, hbuilt.statement]
    . exact ⟨default, fun _ hapart => absurd (BoundStatement.hidden_eq_nil.2 hapart.locals) hhidden⟩
  | raw q =>
    cases hr
    unfold Category.Takes at htakes
    unfold RawQuery.statement
    cases hsource : q.source with
    | text p =>
      simp only [hsource] at htakes
      obtain ⟨sql, hsql⟩ := htakes
      exact ⟨_, fun _ _ => ⟨.text hsource hsql, statement?_bind (by simp [Call.eval, hsql])⟩⟩
    | owned p =>
      simp only [hsource] at htakes
      obtain ⟨s, hs⟩ := htakes
      exact ⟨s, fun _ _ => ⟨.owned hsource hs, statement?_bind hs⟩⟩
    | borrowed p =>
      simp only [hsource] at htakes
      obtain ⟨s, hs⟩ := htakes
      refine ⟨s, fun _ _ => ⟨.borrowed hsource hs, ?_⟩⟩
      simp [statement?, Scope.statement?, hs]
    | missing => exact ⟨_, fun _ _ => ⟨.missing hsource, statement?_bind rfl⟩⟩
  | write | shortcut | transaction | delegate => cases hr

theorem unhidden_of_namesApart {c : Classified} {r : DeclaredRead} (hr : c.category.read? = some r)
    {scope : Scope α Val}
    (hparams : ∀ x, (Frame.get? scope x).isSome → x ∈ c.method.params.map Parameter.name)
    {delivery : Delivery} (hapart : (c.deliveredBy delivery).NamesApart)
    : Unhidden scope r.statement delivery r.shape where
  statement hdirect hsingle := by
    obtain ⟨m, category, unused⟩ := c
    subst hdirect
    cases category with
    | read q =>
      cases hr
      exact fun hname => absurd (Option.some.inj hname) (by decide)
    | raw q =>
      obtain ⟨source, shape, tables⟩ := q
      cases hr
      cases source with
      | borrowed p =>
        intro hname
        apply hapart.locals p (List.mem_singleton_self p)
        have hlocals : (Classified.mk { m with delivery := .direct } (.raw ⟨.borrowed p, shape, tables⟩)
            unused).locals = ["_cursor"] := if_pos ⟨rfl, hsingle⟩
        exact hlocals ▸ List.mem_singleton.2 (Option.some.inj hname)
      | text | owned | missing => exact fun hname => absurd (Option.some.inj hname) (by decide)
    | write | shortcut | transaction | delegate => cases hr
  callback hsuspend := by
    constructor
    . cases hcallback : Frame.get? scope callbackName with
      | none => rfl
      | some v =>
        obtain ⟨p, hp, hname⟩ := List.mem_map.1 (hparams callbackName (by simp [hcallback]))
        exact absurd hname (hapart.callback hsuspend p hp)
    . obtain ⟨m, category, unused⟩ := c
      subst hsuspend
      cases category with
      | read q =>
        cases hr
        change callbackName ∉ scopeAfter [] (q.statement.emit .fresh)
        rw [q.statement.scopeAfter_emit]
        exact q.statement.callbackName_not_mem_locals
      | raw q =>
        obtain ⟨source, shape, tables⟩ := q
        cases hr
        cases source with
        | borrowed | text | owned | missing => exact fun h => absurd (List.mem_singleton.1 h) (by decide)
      | write | shortcut | transaction | delegate => cases hr

/-- The functions and structs in the code of a plan are those that the plan and its interface declare. -/
structure Fits (w : Surroundings σ α Val) (i : Interface) (plan : Plan) : Prop where
  function : ∀ r ∈ plan.rowAdapters, w.function r.name = some r
  struct : w.struct = i.entity?
  fields : ∀ e ∈ i.entities, (e.fields.map Field.name).Nodup

theorem finds_of_leaves {i : Interface} {classified : List Classified} {plan : Plan}
    {answers : List (Need × String)} {d : Draft} (hfits : w.Fits i plan)
    (h : i.Leaves classified plan answers d) {row : Row} {names : List String}
    (hknown : ∀ n ∈ row.needs, n.Known i) (hlength : names.length = row.needs.length)
    (hnames : row.needs.zip names ⊆ answers) : w.Finds names row := by
  cases row with
  | scalar => trivial
  | entity e =>
    obtain ⟨name, rfl⟩ := List.length_eq_one_iff.1 hlength
    have hgives : d.Gives (.row e) name := h.answered.gives (.row e, name) (hnames List.mem_cons_self)
    have hentity : i.entity? e.name = some e := hknown (.row e) List.mem_cons_self
    have hmem : RowCode.adapter e ∈ plan.rowAdapters := h.has_function.1 hgives.has
    have hname : (RowCode.adapter e).name = name := hgives.name
    refine ⟨name, rfl, ?_, ?_, hfits.fields e (List.mem_of_find?_eq_some hentity)⟩
    . rw [← hname]
      exact hfits.function _ hmem
    . rw [hfits.struct]
      exact hentity

variable [DecidableEq τ]

/-- A body hands over what runs a statement and makes of the engine's answer what is declared of a read, and
what that comes to arrives with the caller. -/
def HandsOver (w : Surroundings σ α Val) (scope : Scope α Val) (s : Statement) (r : DeclaredRead)
    (delivery : Delivery) (body : Block) : Prop :=
  ∃ h, w.deliver scope body = some h ∧ h.delivery = delivery ∧ h.inTransaction = r.inTransaction ∧
    h.tables = (if delivery = .stream then r.tables else []) ∧ Handover.Reads h w s r.shape ∧
    ∀ b, b.executor = true → h.Arrives w.engine b

/-- The body of a reading method hands over what runs the method's statement and makes of the engine's answer
what is declared: the first row or all rows, in order and up to the first failure, or the failure of a
missing row, for which streams give no item. The cursor is closed exactly once before the body is left. The
same method with any other delivery does the same. All this is so as long as no variable of the code hides a
parameter that is used after it: the names of parameters and variables are apart. -/
theorem reads_as_declared (i : Interface) (options : Options) {plan : Plan} (hnames : i.WellNamed)
    (hplan : i.plan options = .ok plan) (w : Surroundings σ α Val) (hfits : w.Fits i plan)
    (hengine : w.engine.Answers) {p : MethodPlan} (hp : p ∈ plan.methods) {c : Classified}
    (hc : i.classify p.method = .ok c) {r : DeclaredRead} (hr : c.category.read? = some r)
    {scope : Scope α Val} (htakes : c.category.Takes w.call scope)
    (hparams : ∀ x, (Frame.get? scope x).isSome → x ∈ p.method.params.map Parameter.name)
    : ∃ s names, ∀ delivery, (c.deliveredBy delivery).NamesApart →
        c.category.Runs w.call scope s ∧
        ∃ body, (c.deliveredBy delivery).code i.name names = .ok body ∧
          (delivery = p.method.delivery → body = p.body) ∧ w.HandsOver scope s r delivery body := by
  obtain ⟨classified, hdrafts⟩ := Interface.drafts_of_plan hplan
  obtain ⟨answers, d, hleaves⟩ := Interface.leaves_of_drafts hnames hdrafts
  obtain ⟨c', hc', hwrites⟩ := exists_of_forall₂ hleaves.written hp
  have hknown := Interface.known_of_classified hdrafts.categories c' hc'
  obtain ⟨_, horigin⟩ := Interface.methods_of_classified hdrafts.categories
  have horigin := horigin c' hc'
  rw [← hwrites.method, hc] at horigin
  cases horigin
  obtain ⟨names, hlength, hsubset, hcode⟩ := hwrites.code
  have hreading (delivery : Delivery) :=
    (Classified.code_of_read? (c := c.deliveredBy delivery) hr i.name names).2
  have hneeds := (Classified.code_of_read? hr i.name names).1
  rw [hneeds] at hlength hsubset hknown
  have hrow := finds_of_leaves hfits hleaves hknown hlength hsubset
  obtain ⟨s, hs⟩ := exists_statement (w := w) hr htakes
  refine ⟨s, names, ?_⟩
  intro delivery hapart
  obtain ⟨hruns, hs⟩ := hs delivery hapart
  refine ⟨hruns, _, hreading delivery, ?_, ?_⟩
  . intro hdelivery
    rw [hwrites.method] at hdelivery
    subst hdelivery
    exact Except.ok.inj ((hreading c.method.delivery).symm.trans hcode)
  . rw [hwrites.method] at hparams
    obtain ⟨h, hdeliver, hdelivery, hinTransaction, htables, hreads⟩ :=
      deliver_code hengine hrow hs (unhidden_of_namesApart hr hparams hapart) r.tables r.inTransaction
    exact ⟨h, hdeliver, hdelivery, hinTransaction, htables, hreads,
      fun b hexecutor => h.arrives w.engine hexecutor⟩

open UserTypes (ada adaRow profile profileTypes)

def profileList : Shape :=
  ⟨.list, .entity profile,
    .path false [.mk "Vec" (.angled false [.type (.path false [.mk "Profile" .none])] false)]⟩

def profileText : Parameter :=
  ⟨"sql", .path false [.mk "String" .none], false, none⟩

def profiles : Method :=
  ⟨"profiles", [profileText], some profileList.value, .future,
    .raw (some "sql") (some (.list (.entity "Profile"))) []⟩

def profileReader : Interface where
  name := "Profiles"
  entities := [profile]
  converters := [⟨false, [.mk "Flag" .none]⟩]
  backing := none
  methods := [profiles]

def profileSurroundings : Surroundings ScriptedEngine Value ColumnType.Val where
  engine := ScriptedEngine.engine
  call := ⟨fun _ => .null, fun _ => [], fun _ => id, fun _ _ => none, id, fun _ => none⟩
  types := profileTypes
  scalar _ := .text
  function name := if name = (RowCode.adapter profile).name then some (RowCode.adapter profile) else none
  struct := profileReader.entity?
  looked _ := .empty
  left := .empty

def profileDatabase : Database ScriptedEngine :=
  .new (.new ⟨[], [], [⟨none, [], 0, -1, adaRow.columns, adaRow.current.toList⟩], [], []⟩ false)

theorem answers_scriptedEngine : ScriptedEngine.engine.Answers := by
  intro s n signals store c h
  unfold ScriptedEngine.engine ScriptedEngine.query ScriptedEngine.give at h
  dsimp only at h
  split at h
  . cases h
  . cases h
    exact ⟨_, _, _, rfl⟩

theorem wellNamed_profileReader : profileReader.WellNamed := by
  intro e he
  apply plainName_of_isIdent
  revert e
  decide

theorem fits_profileSurroundings {plan : Plan} (hplan : profileReader.plan .standard = .ok plan)
    : profileSurroundings.Fits profileReader plan where
  function r hr := by
    obtain ⟨_, _, e, _, he, rfl⟩ :=
      (Interface.readsRows_of_plan wellNamed_profileReader hplan).adapters r hr
    have hmem : e ∈ profileReader.entities := List.mem_of_find?_eq_some he
    cases List.mem_singleton.1 hmem
    exact if_pos rfl
  struct := rfl
  fields e he := by
    cases List.mem_singleton.1 he
    decide

def profileScope : Scope Value ColumnType.Val :=
  ⟨[("sql", .held false (.text "SELECT * FROM profiles"))], []⟩

/-- A profile is read, and the cursor is closed behind it. -/
theorem reads_as_declared_profileReader
    : profileReader.WellNamed ∧ profileSurroundings.engine.Answers ∧
      ∃ plan p h, profileReader.plan .standard = .ok plan ∧ plan.methods = [p] ∧
        profileSurroundings.Fits profileReader plan ∧
        profileSurroundings.deliver profileScope p.body = some h ∧
        ∃ q, h.run 0 profileDatabase = some (.ok (.list [.record ada.record]), q) ∧
          q.cursor.map (·.closed) = some true := by
  have hok : (profileReader.plan .standard).isOk = true := by decide +kernel
  cases hplan : profileReader.plan .standard with
  | error =>
    rw [hplan] at hok
    cases hok
  | ok plan =>
    have hfits := fits_profileSurroundings hplan
    have hmethods := congrArg (List.map Prod.fst) (Interface.methods_of_plan hplan)
    rw [List.map_map, List.map_map] at hmethods
    obtain ⟨p, hp, hmethod⟩ := List.map_eq_singleton_iff.1 hmethods
    have hmethod : p.method = profiles := hmethod
    let c : Classified := ⟨profiles, .raw ⟨.text profileText, profileList, []⟩, []⟩
    have hc : profileReader.classify p.method = .ok c := by
      rw [hmethod]
      rfl
    have hparams (x : String) (hx : (Frame.get? profileScope x).isSome)
        : x ∈ p.method.params.map Parameter.name := by
      rw [hmethod]
      unfold Frame.get? profileScope at hx
      rw [List.lookup_cons] at hx
      split at hx
      . next heq => exact List.mem_singleton.2 (eq_of_beq heq)
      . cases hx
    have htakes : c.category.Takes profileSurroundings.call profileScope := ⟨_, rfl⟩
    have hapart : (c.deliveredBy .future).NamesApart := ⟨nofun, nofun⟩
    obtain ⟨s, _, hreads⟩ :=
      reads_as_declared profileReader .standard wellNamed_profileReader hplan profileSurroundings hfits
        answers_scriptedEngine (by simp [hp]) hc rfl htakes hparams
    obtain ⟨hruns, body, _, hbody, h, hdeliver, hdelivery, _, _, hreads, _⟩ := hreads .future hapart
    rw [hbody (hmethod ▸ rfl)] at hdeliver
    have hs : s = .acquire "SELECT * FROM profiles" 0 := by
      cases hruns with
      | text hsource hsql =>
        cases hsource
        cases hsql
        rfl
      | owned hsource | borrowed hsource | missing hsource => cases hsource
    obtain ⟨v, q, hrun, hread⟩ := hreads 0 profileDatabase
    rw [hs, hdelivery] at hread
    obtain ⟨hv, _, hcursor, _⟩ := hread
    refine ⟨wellNamed_profileReader, answers_scriptedEngine, plan, p, h, rfl, hp, hfits, hdeliver, q, ?_, ?_⟩
    . rw [hrun, hv]
      rfl
    . rw [hcursor]
      rfl

def findProfile : Method :=
  ⟨"find_profile", [⟨"_cursor", .reference none false (.path false [.mk "SqlQuery" .none]), false, none⟩],
    some (.path false [.mk "Profile" .none]), .direct,
    .raw (some "_cursor") (some (.single (.entity "Profile") false)) []⟩

def profileFinder : Interface :=
  { profileReader with methods := [findProfile] }

def findScope : Scope Value ColumnType.Val :=
  ⟨[("_cursor", .held false (.statement (.acquire "SELECT * FROM profiles" 0)))], []⟩

def emptyDatabase : Database ScriptedEngine :=
  .new (.new ⟨[], [], [⟨none, [], 0, -1, adaRow.columns, []⟩], [], []⟩ false)

/-- The cursor hides the statement by the time that a missing row is told. -/
theorem hides_statement_profileFinder
    : ∃ plan p h, profileFinder.plan .standard = .ok plan ∧ plan.methods = [p] ∧ p.method = findProfile ∧
        profileSurroundings.deliver findScope p.body = some h ∧
        h.run 0 emptyDatabase = none ∧
        ∀ s r, ¬profileSurroundings.HandsOver findScope s r .direct p.body := by
  have hchecked : (match profileFinder.plan .standard with
      | .ok plan => plan.methods.all fun p =>
        match profileSurroundings.deliver findScope p.body with
        | some h => (h.run 0 emptyDatabase).isNone
        | none => false
      | .error _ => false) = true := by decide +kernel
  cases hplan : profileFinder.plan .standard with
  | error => simp [hplan] at hchecked
  | ok plan =>
    have hmethods := congrArg (List.map Prod.fst) (Interface.methods_of_plan hplan)
    rw [List.map_map, List.map_map] at hmethods
    obtain ⟨p, hp, hmethod⟩ := List.map_eq_singleton_iff.1 hmethods
    simp only [hplan, hp, List.all_cons, List.all_nil, Bool.and_true] at hchecked
    cases hdeliver : profileSurroundings.deliver findScope p.body with
    | none => simp [hdeliver] at hchecked
    | some h =>
      have hmissing : h.run 0 emptyDatabase = none := by simpa [hdeliver] using hchecked
      refine ⟨plan, p, h, rfl, hp, hmethod, hdeliver, hmissing, ?_⟩
      rintro s r ⟨h', hdeliver', _, _, _, hreads, _⟩
      rw [hdeliver] at hdeliver'
      cases hdeliver'
      obtain ⟨v, q, hrun, _⟩ := hreads 0 emptyDatabase
      rw [hmissing] at hrun
      cases hrun

end Surroundings

end DataAccess

import DataAccess.Proofs.Binding.Prepared
import DataAccess.Proofs.Binding.Slots

/-!
This module contains the faithfulness of statements without collections. What matching accepts and
refuses, what is said to be unused, and what the code declares and binds all follow from what the
placeholders denote. It makes no difference whether the statement is new or prepared. The code declares the
statement under a name of its own, and a parameter of that name cannot be bound.
-/

namespace DataAccess

open Code (Call Datum Frame Revised Stmt execAll)
open Sql (Section Template)

def marked (sql : String) : List Char :=
  fill (Template.ofString sql).sections ((Template.ofString sql).placeholders.map fun _ => ['?'])

/-- A field that prepares a statement for a method, and the only one of its name. -/
structure Draft.Prepared (d : Draft) (m : Method) (field : HelperField) (text : List Char)
    (slots : Nat) : Prop where
  mem : field ∈ d.fields
  key : field.key = "prepared:" ++ m.name
  unique : ∀ other ∈ d.fields, other.name = field.name → other = field
  value : Code.prepared? field.value = some (.new (String.ofList text) slots)

theorem fill_marks (sections : List Section)
    : fill sections ((BoundStatement.placeholdersIn sections).map fun _ => ['?'])
        =
      sections.flatMap fun
        | .text chars => chars
        | .placeholder _ => ['?'] := by
  induction sections with
  | nil => rfl
  | cons s rest ih =>
    cases s with
    | text chars => exact congrArg (chars ++ ·) ih
    | placeholder p => exact congrArg (['?'] ++ ·) ih

theorem Sql.Template.positional_ofString (sql : String)
    : (ofString sql).positional = String.ofList (marked sql) := by
  unfold positional marked
  exact congrArg String.ofList (fill_marks (ofString sql).sections).symm

theorem Draft.Sound.unique {d : Draft} (h : d.Sound) {f g : HelperField} (hf : f ∈ d.fields)
    (hg : g ∈ d.fields) (heq : g.name = f.name) : g = f :=
  List.inj_on_of_nodup_map h.names hg hf heq

namespace BoundStatement

/-- The code of a statement without collections builds it, unless a parameter is hidden from it: then it makes
no sense. -/
def BuildsUnlessHidden (s : BoundStatement) (c : Call α) (f : Frame α β) (source : StatementSource)
    (text : List Char) : Prop :=
  (s.hidden = [] → Builds c f (s.emit source) text (s.params.map (valueOf c))) ∧
    (s.hidden ≠ [] → execAll c f (s.emit source) = none)

theorem exec_bindTo_zipIdx (c : Call α) {f : Frame α β} {text : List Char} {bound : List Value}
    (ps : List Parameter) (h : Underway f text bound ps.length)
    (hps : ∀ p ∈ ps, f.get? p.name = some (.argument (c.argument p.name)))
    : ∃ g,
        execAll c f ((ps.zipIdx bound.length).map fun (p, i) =>
          bindTo (.number (i + 1) true) (scalarValue p)) = some g ∧
        Underway g text (bound ++ ps.map (valueOf c)) 0 := by
  induction ps generalizing f bound with
  | nil =>
    refine ⟨f, rfl, ?_⟩
    simpa using h
  | cons p rest ih =>
    obtain ⟨g, hg, hunderway, hrevised⟩ :=
      h.bindTo c (.number (bound.length + 1) true) (scalarValue p) rfl
        (c.bound?_scalarValue (hps p List.mem_cons_self))
    have hrest (q : Parameter) (hq : q ∈ rest) : g.get? q.name = some (.argument (c.argument q.name)) := by
      have hq := hps q (List.mem_cons_of_mem _ hq)
      rw [← hq]
      apply hrevised.lookup_of_ne_held
      change ∀ mutable d, f.get? q.name ≠ _
      simp [hq]
    obtain ⟨last, hlast, hdone⟩ := ih hunderway hrest
    refine ⟨last, ?_, ?_⟩
    . have hg : Code.Stmt.exec c f (bindTo (.number (bound.length + 1) true) (scalarValue p)) = some g := hg
      simp only [List.zipIdx_cons, List.map_cons, execAll, hg, Option.bind_eq_bind,
        Option.bind_some]
      simpa using hlast
    . simpa [valueOf] using hdone

section EmitFixed

variable {s : BoundStatement} {source : StatementSource} {c : Call α} {f : Frame α β} {text : List Char}
  (hsource : c.eval f (s.fixedStatement source)
    = some (.statement (.acquire (String.ofList text) s.argCount)))
include hsource

theorem execAll_emitFixed
    : execAll c f (s.emitFixed source) =
        execAll c
          (f.declare (s.argCount != 0) "_statement"
            (.statement (.acquire (String.ofList text) s.argCount)))
          (s.params.zipIdx.map fun (p, i) => bindTo (.number (i + 1) true) (scalarValue p)) := by
  rw [emitFixed, execAll, Code.exec_bind hsource]
  rfl

theorem builds_emitFixed (hf : f.noted = [])
    (hparams : ∀ p ∈ s.params, f.get? p.name = some (.argument (c.argument p.name)))
    (hnames : ∀ p ∈ s.params, p.name ≠ "_statement")
    : Builds c f (s.emitFixed source) text (s.params.map (valueOf c)) := by
  have hstart := Underway.declare f hf (s.argCount != 0) text s.argCount (by simp)
  obtain ⟨g, hg, hdone⟩ := exec_bindTo_zipIdx c s.params hstart fun p hp =>
    (f.get?_declare_ne _ _ (hnames p hp)).trans (hparams p hp)
  refine ⟨g, ?_, by simpa using hdone.built⟩
  rw [execAll_emitFixed hsource]
  exact hg

/-- A parameter that is called like the statement cannot be bound to it. -/
theorem execAll_emitFixed_eq_none {p : Parameter} (hp : p ∈ s.params) (hname : p.name = "_statement")
    : execAll c f (s.emitFixed source) = none := by
  rw [execAll_emitFixed hsource]
  obtain ⟨k, hk, hpk⟩ := List.getElem_of_mem hp
  apply Code.execAll_eq_none (s := bindTo (.number (k + 1) true) (scalarValue p))
  . intro s' hs'
    obtain ⟨_, _, rfl⟩ := List.mem_map.1 hs'
    rfl
  . exact List.mem_map.2 ⟨(p, k), List.mk_mem_zipIdx_iff_getElem?.2 (hpk ▸ List.getElem?_eq_getElem hk), rfl⟩
  . rintro g ⟨xs, hrevised⟩
    obtain ⟨d, hd, halike⟩ := hrevised.lookup_held (f.get?_declare_self ..)
    obtain ⟨t, rfl⟩ := halike.eq_statement
    exact Call.exec_bindTo_eq_none _ (c.bound?_scalarValue_of_held (hname ▸ hd) (by simp))

end EmitFixed

theorem eval_fixedStatement_fresh (s : BoundStatement) (c : Call α) (f : Frame α β)
    : c.eval f (s.fixedStatement .fresh)
        =
      some (.statement (.acquire s.positionalSql s.argCount)) := rfl

theorem eval_fixedStatement_field (s : BoundStatement) (c : Call α) (f : Frame α β) {field : String}
    {source : StatementSource} (hsource : source = .shared field ∨ source = .copy field)
    {sql : String} {slots : Nat} {book : LeaseBook} (hbook : InUse sql slots book)
    (hfield : c.field field = some book.statement)
    : c.eval f (s.fixedStatement source) = some (.statement (.acquire sql slots)) := by
  have hfits := hbook.fits.statement
  rcases hsource with rfl | rfl
  . simp only [fixedStatement, Call.eval, hfield, Option.bind_eq_bind, Option.bind_some,
      hfits.statement_acquire]
    rfl
  . simp only [fixedStatement, Call.eval, hfield, Option.bind_eq_bind, Option.bind_some,
      SharedStatement.newQuery, hfits.sql_eq, hfits.argCount_eq]
    rfl

theorem isExpandable_eq_false {s : BoundStatement} (h : ∀ p ∈ s.params, p.multiple = false)
    : s.isExpandable = false := by
  simpa [isExpandable] using h

theorem resolve_eq_error {m : Method} {sql : String} {e : Problem}
    (hm : m.params.length < Sql.maxSlot) (h : resolve m sql = .error e)
    : ∃ p, m.firstUnmatched sql = some p ∧ e = .placeholderWithoutParameter m.name p.text := by
  unfold resolve at h
  dsimp only at h
  split at h
  . cases h
  . next p hp =>
    cases h
    have hfirst := @first_of_slotsOf m.params [] _ hm (Nat.zero_le _) p hp
    refine ⟨p, ?_, rfl⟩
    unfold Method.firstUnmatched
    exact congrArg (Option.map Prod.fst) hfirst

theorem firstUnmatched_of_matched {m : Method} {sql : String} {found : List Slot}
    (h : Matched m.params [] (Template.ofString sql).sections found)
    : m.firstUnmatched sql = none := by
  unfold Method.firstUnmatched
  rw [Option.map_eq_none_iff, List.find?_eq_none]
  rintro ⟨p, i⟩ hmem hnone
  have hi := (List.of_mem_zip hmem).2
  have hnone : i = none := Option.isNone_iff_eq_none.1 hnone
  rw [hnone] at hi
  exact h.all_denoted hi

theorem unused_of_matched {m : Method} {sql : String} {found : List Slot}
    (hm : m.params.length < Sql.maxSlot)
    (h : Matched m.params [] (Template.ofString sql).sections found)
    : unused m sql = m.undenoted sql := by
  have htaken : (takenPositions m.params 0 (Template.ofString sql).sections).map some
      = m.denotations sql := h.takenPositions_eq hm (Nat.zero_le _)
  unfold unused Method.undenoted
  rw [← htaken]
  simp [List.contains_eq_mem]

theorem buildsUnlessHidden_of_eval {s : BoundStatement} {source : StatementSource} {c : Call α}
    {f : Frame α β} {text : List Char} (hscalar : ∀ p ∈ s.params, p.multiple = false)
    (hopens : c.Opens f s.params)
    (hsource : c.eval f (s.fixedStatement source)
      = some (.statement (.acquire (String.ofList text) s.argCount)))
    : s.BuildsUnlessHidden c f source text := by
  have hexpandable := isExpandable_eq_false hscalar
  have hlocals : s.locals = ["_statement"] := by simp [locals, hexpandable]
  have hemit : s.emit source = s.emitFixed source := by simp [emit, hexpandable]
  unfold BuildsUnlessHidden
  rw [hemit]
  constructor
  . intro hnone
    rw [hidden_eq_nil, hlocals] at hnone
    exact builds_emitFixed hsource hopens.noted (fun p hp => hopens.argument hp (hscalar p hp))
      fun p hp => by simpa using hnone p hp
  . intro hsome
    obtain ⟨p, hp, hlocal⟩ := exists_of_hidden hsome
    rw [hlocals, List.mem_singleton] at hlocal
    exact execAll_emitFixed_eq_none hsource hp hlocal

/-- A placeholder that denotes nothing is the only reason to refuse a statement, and the first such
placeholder is the one that is told. Otherwise the parameters that are told to be unused are those that
no placeholder denotes. Without collections, the code declares the statement with a question mark for
each placeholder and with that many slots, and binds each slot once, in order, to the argument of the
parameter that the placeholder denotes. That is so for a new statement as well as for one from the field
that the method asks for, as long as that field is only used by such code. It is so if and only if no
parameter that is bound is called like the variable that the code has for the statement: code that binds
such a parameter makes no sense. -/
theorem resolve_faithful (m : Method) (sql : String) (hm : m.params.length < Sql.maxSlot)
    : match resolve m sql with
      | .error e =>
        ∃ p, m.firstUnmatched sql = some p ∧ e = .placeholderWithoutParameter m.name p.text
      | .ok s =>
        m.firstUnmatched sql = none ∧
        unused m sql = m.undenoted sql ∧
        s.params.map some = (m.denotations sql).map (·.bind (m.params[·]?)) ∧
        ((∀ p ∈ s.params, p.multiple = false) →
          (∀ {α β : Type} (c : Call α) (f : Frame α β), c.Opens f s.params →
            s.BuildsUnlessHidden c f .fresh (marked sql)) ∧
          ∀ (i : Interface) (methods : List Classified) (n : Nat) (q : WriteQuery)
              (ignored : List Parameter) (planned : MethodPlan),
            q.statement = s →
            methods[n]? = some ⟨m, .write q, ignored⟩ →
            ((i.draftMethods methods).run .empty).1[n]? = some (.ok planned) →
            ∃ field source,
              ((i.draftMethods methods).run .empty).2.Prepared m field (marked sql)
                s.params.length ∧
              (source = .shared field.name ∨ source = .copy field.name) ∧
              s.emit source <+: planned.body.statements ∧
              ∀ {α β : Type} (c : Call α) (f : Frame α β) (book : LeaseBook),
                c.Opens f s.params →
                InUse (String.ofList (marked sql)) s.params.length book →
                c.field field.name = some book.statement →
                s.BuildsUnlessHidden c f source (marked sql)) := by
  cases hr : resolve m sql with
  | error e => exact resolve_eq_error hm hr
  | ok s =>
    obtain ⟨htemplate, hslots⟩ := slotsOf_of_resolve hr
    have hmatched : Matched m.params [] (Template.ofString sql).sections s.slots :=
      matched_of_slotsOf hm (Nat.zero_le _) hslots
    have hsql : s.positionalSql = String.ofList (marked sql) := by
      unfold positionalSql
      rw [htemplate, Template.positional_ofString]
    refine ⟨firstUnmatched_of_matched hmatched, unused_of_matched hm hmatched,
      hmatched.params_eq s.template, ?_⟩
    intro hscalar
    constructor
    . intro α β c f hopens
      apply buildsUnlessHidden_of_eval hscalar hopens
      rw [eval_fixedStatement_fresh, hsql]
    . intro i methods n q ignored planned hq hc hn
      subst hq
      obtain ⟨d, e, hd, hdraft, hextends⟩ := Draft.Sound.empty.drafted_of_planned hc hn
      obtain ⟨d', hfields, hlower⟩ := WriteQuery.draftMethod_eq_ok hdraft
      obtain ⟨source, hsource, hprefix⟩ := WriteQuery.lower_eq_ok hlower
      obtain ⟨field, hmem, hkey, hvalue, hfrom⟩ :=
        WriteQuery.source_prepared (hd.of_fields hfields) (isExpandable_eq_false hscalar) hsource
      -- Later methods may add fields, but lose none.
      have hmem := hextends.fields.subset hmem
      refine ⟨field, source, ⟨hmem, hkey, ?_, hsql ▸ hvalue⟩, hfrom, hprefix, ?_⟩
      . intro other hother
        exact hextends.sound.unique hmem hother
      . intro α β c f book hopens hbook hfield
        apply buildsUnlessHidden_of_eval hscalar hopens
        exact eval_fixedStatement_field q.statement c f hfrom hbook hfield

def renameUserSql : String :=
  "UPDATE user SET name = :name WHERE id = ?2"

def renameUser : Method :=
  let text : Code.TypeExpr := .path false [.mk "String" .none]
  ⟨"rename_user", [⟨"name", .reference none false text, false, none⟩, ⟨"id", text, false, none⟩],
    none, .direct, .write renameUserSql⟩

def draftRenameUser (s : BoundStatement) : List (Except Problem MethodPlan) × Draft :=
  (Interface.draftMethods ⟨"Users", [], [], none, [renameUser]⟩
    [⟨renameUser, .write ⟨s, .unit, ["user"]⟩, []⟩]).run .empty

theorem resolve_faithful_renameUser
    : renameUser.params.length < Sql.maxSlot ∧
      ∃ s, resolve renameUser renameUserSql = .ok s ∧
        (∀ {α β : Type} (c : Call α),
          c.Opens (c.opening renameUser.params : Frame α β) s.params ∧
            Builds c (c.opening renameUser.params : Frame α β) (s.emit .fresh)
              "UPDATE user SET name = ? WHERE id = ?".toList
              [c.toValue (c.argument "name"), c.toValue (c.argument "id")]) ∧
        ∃ field, s.draftRenameUser.2.Prepared renameUser field
          "UPDATE user SET name = ? WHERE id = ?".toList 2 := by
  have hm : renameUser.params.length < Sql.maxSlot := by decide
  have hplanned : (match resolve renameUser renameUserSql with
      | .ok s =>
        s.draftRenameUser.1[0]?.any Except.isOk &&
          s.params.map (fun p => (p.name, p.multiple, p.converter.isNone))
            == [("name", false, true), ("id", false, true)]
      | .error _ => false) = true := by decide +kernel
  have htext : marked renameUserSql = "UPDATE user SET name = ? WHERE id = ?".toList := by
    decide +kernel
  have hfaithful := resolve_faithful renameUser renameUserSql hm
  refine ⟨hm, ?_⟩
  cases hr : resolve renameUser renameUserSql with
  | error e => simp [hr] at hplanned
  | ok s =>
    have hsubset := params_subset_of_resolve hr
    rw [hr] at hplanned hfaithful
    simp only [Bool.and_eq_true, Option.any_eq_true, beq_iff_eq] at hplanned
    obtain ⟨⟨drafted, hdrafted, hisOk⟩, hparams⟩ := hplanned
    obtain ⟨p, q, hlist⟩ := List.length_eq_two.1 (by simpa using congrArg List.length hparams)
    simp only [hlist, List.map_cons, List.map_nil, List.cons.injEq, Prod.mk.injEq, and_true,
      Option.isNone_iff_eq_none] at hparams
    obtain ⟨⟨hp, hpm, hpc⟩, hq, hqm, hqc⟩ := hparams
    have hscalar : ∀ p ∈ s.params, p.multiple = false := by simp [hlist, hpm, hqm]
    have hhidden : s.hidden = [] := by
      rw [hidden_eq_nil, locals, if_neg (by simp [isExpandable_eq_false hscalar])]
      simp [hlist, hp, hq]
    obtain ⟨_, _, _, hbuilds⟩ := hfaithful
    rw [htext] at hbuilds
    obtain ⟨hfresh, hprepared⟩ := hbuilds hscalar
    refine ⟨s, rfl, ?_, ?_⟩
    . intro α β c
      have hopens : c.Opens (c.opening renameUser.params : Frame α β) s.params :=
        (c.opens_opening (by decide)).mono hsubset
      obtain ⟨hbuilt, _⟩ := hfresh c _ hopens
      refine ⟨hopens, ?_⟩
      have hvalues : s.params.map (valueOf c) = [c.toValue (c.argument "name"), c.toValue (c.argument "id")] := by
        simp [hlist, valueOf, hp, hpc, hq, hqc]
      exact hvalues ▸ hbuilt hhidden
    . cases drafted with
      | error => cases hisOk
      | ok planned =>
        obtain ⟨field, _, hfield, _⟩ := hprepared _ _ 0 _ _ planned rfl rfl hdrafted
        have hcount : s.params.length = 2 := by simp [hlist]
        exact ⟨field, hcount ▸ hfield⟩

def retainUsersSql : String :=
  "DELETE FROM user WHERE name <> :_statement"

def retainUsers : Method :=
  ⟨"retain_users", [⟨"_statement", .path false [.mk "String" .none], false, none⟩], none, .direct,
    .write retainUsersSql⟩

theorem hides_argument_retainUsers
    : ∃ s, resolve retainUsers retainUsersSql = .ok s ∧ (∀ p ∈ s.params, p.multiple = false) ∧
        ∀ {α β : Type} (c : Call α), ∃ f : Frame α β, c.Opens f s.params ∧
          ¬Builds c f (s.emit .fresh) (marked retainUsersSql) (s.params.map (valueOf c)) := by
  have hchecked : (match resolve retainUsers retainUsersSql with
      | .ok s => s.params.map (fun p => (p.name, p.multiple)) == [("_statement", false)]
      | .error _ => false) = true := by decide +kernel
  cases hr : resolve retainUsers retainUsersSql with
  | error e => simp [hr] at hchecked
  | ok s =>
    have hsubset := params_subset_of_resolve hr
    simp only [hr, beq_iff_eq] at hchecked
    obtain ⟨p, hlist, hp⟩ := List.map_eq_singleton_iff.1 hchecked
    obtain ⟨hname, hmultiple⟩ := Prod.mk.inj hp
    have hscalar : ∀ p ∈ s.params, p.multiple = false := by simpa [hlist] using hmultiple
    refine ⟨s, rfl, hscalar, ?_⟩
    intro α β c
    refine ⟨c.opening retainUsers.params, (c.opens_opening (by decide)).mono hsubset, ?_⟩
    rintro ⟨g, hg, _⟩
    have hsource := s.eval_fixedStatement_fresh c (c.opening retainUsers.params : Frame α β)
    rw [← s.positionalSql.ofList_toList] at hsource
    rw [emit, if_neg (by simp [isExpandable_eq_false hscalar]),
      execAll_emitFixed_eq_none hsource (hlist ▸ List.mem_singleton_self p) hname] at hg
    cases hg

end BoundStatement

end DataAccess

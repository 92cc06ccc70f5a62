import DataAccess.Proofs.Compile.Collisions
import DataAccess.Proofs.Compile.References

/-!
This module contains what the methods of an interface need of its implementation: helpers and functions
that read rows. A draft is asked for each need by its signature. Main statements: the first one to ask
under a signature has its own code declared, later ones get that declaration or a collision; and the body
of a method refers to exactly what the method needs, in order.
-/

namespace DataAccess

open Code (Block Reference ownField)

inductive Need where
  | adapter (op : ShortcutOp) (e : Entity) (table : String)
  | prepared (m : Method) (s : BoundStatement)
  | row (e : Entity)

inductive Signature where
  | helper (key : String)
  | row (entity : String)
deriving DecidableEq

def Signature.text : Signature → String
  | helper key => key
  | row entity => "row:" ++ entity

inductive Declaration where
  | field (f : HelperField)
  | function (r : RowAdapter)

def HelperRequest.field (r : HelperRequest) (name : String) : HelperField :=
  ⟨name, r.type, r.value, r.key, r.fingerprint⟩

namespace Declaration

def signature : Declaration → Signature
  | field f => .helper f.key
  | function r => .row r.entity

def fingerprint : Declaration → String
  | field f => f.fingerprint
  | function r => r.fingerprint

def name : Declaration → String
  | field f => f.name
  | function r => r.name

end Declaration

namespace Need

def signature : Need → Signature
  | adapter op e table => .helper (adapterRequest op e table).key
  | prepared m s => .helper (preparedRequest m s).key
  | row e => .row e.name

def fingerprint : Need → String
  | adapter op e table => (adapterRequest op e table).fingerprint
  | prepared m s => (preparedRequest m s).fingerprint
  | row e => e.fingerprint

/-- What is declared for a need on its own, under a name. Functions that read rows have no choice of
name. -/
def declaration (name : String) : Need → Declaration
  | adapter op e table => .field ((adapterRequest op e table).field name)
  | prepared m s => .field ((preparedRequest m s).field name)
  | row e => .function (RowCode.adapter e)

def newName (d : Draft) : Need → String
  | adapter op e table => Draft.freeName (d.fields.map (·.name)) (adapterRequest op e table).name
  | prepared m s => Draft.freeName (d.fields.map (·.name)) (preparedRequest m s).name
  | row e => (RowCode.adapter e).name

def ask : Need → Drafting String
  | adapter op e table => do
    modify (·.noteConverters e.converters)
    Drafting.request (adapterRequest op e table)
  | prepared m s => Drafting.preparedField m s
  | row e => Drafting.rowFunction e

/-- A draft that has been asked, whatever the answer: the converters of an adapter are noted before it is
looked for. -/
def noted (d : Draft) : Need → Draft
  | adapter _ e _ => d.noteConverters e.converters
  | prepared _ _ | row _ => d

def references (name : String) : Need → List Reference
  | adapter _ _ _ | prepared _ _ => ownField (.var "self") name
  | row _ => [.rowFunction name]

theorem signature_declaration (n : Need) (name : String)
    : (n.declaration name).signature = n.signature := by
  cases n with
  | adapter | prepared | row => rfl

theorem fingerprint_declaration (n : Need) (name : String)
    : (n.declaration name).fingerprint = n.fingerprint := by
  cases n with
  | adapter | prepared | row => rfl

theorem name_declaration_newName (n : Need) (d : Draft)
    : (n.declaration (n.newName d)).name = n.newName d := by
  cases n with
  | adapter | prepared | row => rfl

end Need

namespace Draft

def find? (d : Draft) : Signature → Option Declaration
  | .helper key => (d.field? key).map .field
  | .row entity => (d.rowAdapters.find? (·.entity == entity)).map .function

def Has (d : Draft) : Declaration → Prop
  | .field f => f ∈ d.fields
  | .function r => r ∈ d.rowAdapters

structure Alike (e d : Draft) : Prop where
  fields : e.fields = d.fields
  rowAdapters : e.rowAdapters = d.rowAdapters

/-- A draft has one more declaration, which is the last one. -/
inductive Gains (e d : Draft) : Declaration → Prop where
  | field (hfields : e.fields = d.fields ++ [f]) (hrows : e.rowAdapters = d.rowAdapters) :
    Gains e d (.field f)
  | function (hfields : e.fields = d.fields) (hrows : e.rowAdapters = d.rowAdapters ++ [r]) :
    Gains e d (.function r)

variable {d e : Draft} {x : Declaration}

theorem alike_noteConverters (d : Draft) (converters : List Code.Path)
    : (d.noteConverters converters).Alike d :=
  ⟨Drafting.fields_noteConverters d converters, d.rowAdapters_noteConverters converters⟩

theorem alike_noted (d : Draft) (n : Need) : (n.noted d).Alike d := by
  cases n with
  | adapter op e table => exact d.alike_noteConverters e.converters
  | prepared | row => exact ⟨rfl, rfl⟩

theorem Alike.find?_eq (h : e.Alike d) (signature : Signature) : e.find? signature = d.find? signature := by
  cases signature with
  | helper key =>
    unfold find? field?
    rw [h.fields]
  | row entity =>
    unfold find?
    rw [h.rowAdapters]

theorem Alike.has_iff (h : e.Alike d) : e.Has x ↔ d.Has x := by
  cases x with
  | field f =>
    unfold Has
    rw [h.fields]
  | function r =>
    unfold Has
    rw [h.rowAdapters]

theorem Gains.of_alike {d' : Draft} (h : e.Gains d' x) (halike : d'.Alike d) : e.Gains d x := by
  cases h with
  | field hfields hrows =>
    rw [halike.fields] at hfields
    exact .field hfields (hrows.trans halike.rowAdapters)
  | function hfields hrows =>
    rw [halike.rowAdapters] at hrows
    exact .function (hfields.trans halike.fields) hrows

theorem Gains.has_iff {y : Declaration} (h : e.Gains d x) : e.Has y ↔ d.Has y ∨ y = x := by
  cases h with
  | field hfields hrows =>
    cases y with
    | field f => simp [Has, hfields]
    | function r => simp [Has, hrows]
  | function hfields hrows =>
    cases y with
    | field f => simp [Has, hfields]
    | function r => simp [Has, hrows]

theorem Gains.find?_eq (h : e.Gains d x) (signature : Signature)
    : e.find? signature
        = (d.find? signature).or (if x.signature = signature then some x else none) := by
  cases h with
  | @field f hfields hrows =>
    cases signature with
    | helper key =>
      change (e.fields.find? (·.key == key)).map _ = ((d.fields.find? (·.key == key)).map _).or _
      rw [hfields, List.find?_append]
      by_cases hkey : f.key = key
      . simp [Declaration.signature, hkey]
      . simp [Declaration.signature, hkey]
    | row entity => simp [find?, hrows, Declaration.signature]
  | @function r hfields hrows =>
    cases signature with
    | helper key => simp [find?, field?, hfields, Declaration.signature]
    | row entity =>
      change (e.rowAdapters.find? (·.entity == entity)).map _
        = ((d.rowAdapters.find? (·.entity == entity)).map _).or _
      rw [hrows, List.find?_append]
      by_cases hentity : r.entity = entity
      . simp [Declaration.signature, hentity]
      . simp [Declaration.signature, hentity]

theorem has_of_find? {signature : Signature} (h : d.find? signature = some x)
    : d.Has x ∧ x.signature = signature := by
  cases signature with
  | helper key =>
    obtain ⟨f, hf, rfl⟩ := Option.map_eq_some_iff.1 h
    refine ⟨List.mem_of_find?_eq_some hf, ?_⟩
    have hkey : f.key = key := by simpa using List.find?_some hf
    exact congrArg Signature.helper hkey
  | row entity =>
    obtain ⟨r, hr, rfl⟩ := Option.map_eq_some_iff.1 h
    refine ⟨List.mem_of_find?_eq_some hr, ?_⟩
    have hentity : r.entity = entity := by simpa using List.find?_some hr
    exact congrArg Signature.row hentity

end Draft

namespace Need

def answer (n : Need) (found : Declaration) : Except Problem String :=
  if found.fingerprint = n.fingerprint then .ok found.name
  else .error (.helperCollision n.signature.text found.fingerprint n.fingerprint)

theorem answer_eq_ok {n : Need} {found : Declaration} {name : String} (h : n.answer found = .ok name)
    : found.fingerprint = n.fingerprint ∧ found.name = name := by
  unfold answer at h
  split at h
  . next hsame => exact ⟨hsame, Except.ok.inj h⟩
  . cases h

theorem request_cases (r : HelperRequest) (d : Draft)
    : match d.field? r.key with
      | some f =>
        (Drafting.request r).run.run d
          = (if f.fingerprint = r.fingerprint then .ok f.name
              else .error (.helperCollision r.key f.fingerprint r.fingerprint), d)
      | none =>
        let name := Draft.freeName (d.fields.map (·.name)) r.name
        ∃ e, (Drafting.request r).run.run d = (.ok name, e) ∧ e.Gains d (.field (r.field name)) := by
  unfold Drafting.request
  rw [Drafting.run_get_bind]
  unfold Draft.request
  cases d.field? r.key with
  | some f =>
    dsimp only
    by_cases hsame : f.fingerprint = r.fingerprint
    . rw [if_pos hsame, if_pos hsame]
      rfl
    . rw [if_neg hsame, if_neg hsame]
      rfl
  | none => exact ⟨_, rfl, .field rfl rfl⟩

theorem requestRow_cases (adapter : RowAdapter) (converters : List Code.Path) (d : Draft)
    : match d.rowAdapters.find? (·.entity == adapter.entity) with
      | some r =>
        (Drafting.requestRow adapter converters).run.run d
          = (if r.fingerprint = adapter.fingerprint then .ok r.name
              else .error (.helperCollision ("row:" ++ adapter.entity) r.fingerprint adapter.fingerprint),
            d)
      | none =>
        ∃ e, (Drafting.requestRow adapter converters).run.run d = (.ok adapter.name, e) ∧
          e.Gains d (.function adapter) := by
  unfold Drafting.requestRow
  rw [Drafting.run_get_bind]
  unfold Draft.requestRow
  cases d.rowAdapters.find? (·.entity == adapter.entity) with
  | some r =>
    dsimp only
    by_cases hsame : r.fingerprint = adapter.fingerprint
    . rw [if_pos hsame, if_pos hsame]
      rfl
    . rw [if_neg hsame, if_neg hsame]
      rfl
  | none =>
    have hnoted := d.alike_noteConverters converters
    refine ⟨_, rfl, .function hnoted.fields ?_⟩
    exact congrArg (· ++ [adapter]) hnoted.rowAdapters

/-- Asking for what is declared gets that declaration or a collision and declares nothing. Asking for
something else declares it. -/
theorem ask_cases (n : Need) (d : Draft)
    : match d.find? n.signature with
      | some found => n.ask.run.run d = (n.answer found, n.noted d)
      | none =>
        ∃ e, n.ask.run.run d = (.ok (n.newName d), e) ∧
          e.Gains d (n.declaration (n.newName d)) := by
  cases n with
  | prepared m s =>
    have hcases := request_cases (preparedRequest m s) d
    change match (d.field? (preparedRequest m s).key).map Declaration.field with
      | some found => _
      | none => _
    cases hfound : d.field? (preparedRequest m s).key with
    | some f =>
      rw [hfound] at hcases
      exact hcases
    | none =>
      rw [hfound] at hcases
      exact hcases
  | adapter op e table =>
    let noted := (Need.adapter op e table).noted d
    have hnoted : noted.Alike d := d.alike_noted _
    have hcases := request_cases (adapterRequest op e table) noted
    rw [← hnoted.find?_eq]
    change match (noted.field? (adapterRequest op e table).key).map Declaration.field with
      | some found => _
      | none => _
    cases hfound : noted.field? (adapterRequest op e table).key with
    | some f =>
      rw [hfound] at hcases
      exact hcases
    | none =>
      rw [hfound] at hcases
      obtain ⟨gained, hrun, hgains⟩ := hcases
      rw [hnoted.fields] at hrun hgains
      exact ⟨gained, hrun, hgains.of_alike hnoted⟩
  | row e =>
    have hcases := requestRow_cases (RowCode.adapter e) e.converters d
    change match (d.rowAdapters.find? (·.entity == (RowCode.adapter e).entity)).map
        Declaration.function with
      | some found => _
      | none => _
    cases hfound : d.rowAdapters.find? (·.entity == (RowCode.adapter e).entity) with
    | some r =>
      rw [hfound] at hcases
      exact hcases
    | none =>
      rw [hfound] at hcases
      exact hcases

end Need

/-- A draft that is asked for several things, one after the other, answers all of them with names. What is
noted besides declarations may change in between. -/
inductive Draft.Answers : Draft → List (Need × String) → Draft → Prop where
  | done : Answers d [] d
  | ask (h : n.ask.run.run d = (.ok name, d')) (hrest : Answers d' rest e) :
    Answers d ((n, name) :: rest) e
  | alike (h : d'.Alike d) (hrest : Answers d' rest e) : Answers d rest e

theorem Draft.Answers.append {d d' e : Draft} {first rest : List (Need × String)}
    (h : d.Answers first d') (hrest : d'.Answers rest e) : d.Answers (first ++ rest) e := by
  induction h with
  | done => exact hrest
  | ask h _ ih => exact .ask h (ih hrest)
  | alike h _ ih => exact .alike h (ih hrest)

def Row.needs : Row → List Need
  | entity e => [.row e]
  | scalar _ => []

def WriteQuery.needs (q : WriteQuery) (m : Method) : List Need :=
  if q.statement.isExpandable then [] else [.prepared m q.statement]

def Shortcut.needs (s : Shortcut) : List Need :=
  s.targets.map fun t => .adapter s.op t.entity t.table

theorem Shortcut.references_needs (s : Shortcut) {fields : List String}
    (hlength : fields.length = s.targets.length)
    : ((s.needs.zip fields).flatMap fun (n, name) => n.references name)
        = fields.flatMap (ownField (.var "self")) := by
  unfold Shortcut.needs
  generalize s.targets = targets at hlength
  induction targets generalizing fields with
  | nil =>
    rw [List.length_eq_zero_iff.1 hlength]
    rfl
  | cons t rest ih =>
    cases fields with
    | nil => cases hlength
    | cons field fields =>
      rw [List.map_cons, List.zip_cons_cons, List.flatMap_cons, List.flatMap_cons,
        ih (Nat.succ.inj hlength)]
      rfl

def Category.needs (m : Method) : Category → List Need
  | read q => q.shape.row.needs
  | write q => q.needs m
  | shortcut s => s.needs
  | raw q => q.shape.row.needs
  | transaction _ | delegate _ => []

def Classified.needs (c : Classified) : List Need :=
  c.category.needs c.method

structure Code.Block.Uses (body : Block) (needs : List Need) (answers : List (Need × String)) :
    Prop where
  needs : answers.map Prod.fst = needs
  references : body.references = answers.flatMap fun (n, name) => n.references name

namespace Drafting

theorem answers_mapM_ask {needs : List Need} {d e : Draft} {names : List String}
    (h : (needs.mapM Need.ask : Drafting (List String)).run.run d = (.ok names, e))
    : names.length = needs.length ∧ d.Answers (needs.zip names) e := by
  induction needs generalizing d names with
  | nil =>
    cases h
    exact ⟨rfl, .done⟩
  | cons n rest ih =>
    rw [List.mapM_cons] at h
    obtain ⟨name, d', hask, h⟩ := bind_eq_ok h
    obtain ⟨more, d'', hrest, h⟩ := bind_eq_ok h
    cases h
    obtain ⟨hlength, hanswers⟩ := ih hrest
    exact ⟨congrArg (· + 1) hlength, .ask hask hanswers⟩

theorem answers_rowRead {row : Row} {d e : Draft} {read : RowRead}
    (h : (rowRead row).run.run d = (.ok read, e))
    : ∃ answers functions, d.Answers answers e ∧ answers.map Prod.fst = row.needs ∧
        Reading.Reads read functions ∧
        (functions.map Reference.rowFunction) = answers.flatMap fun (n, name) => n.references name := by
  cases row with
  | entity entity =>
    obtain ⟨name, d', hask, h⟩ := bind_eq_ok h
    cases h
    refine ⟨[(.row entity, name)], [name], .ask hask .done, rfl, Reading.reads_ofEntity name, rfl⟩
  | scalar type =>
    cases h
    exact ⟨[], [], .done, rfl, Reading.reads_ofScalar type, rfl⟩

theorem answers_readingBody {delivery : Delivery} {s : ReadStatement} (hs : s.IsPlain) {shape : Shape}
    {tables : List String} {inTransaction : Bool} {d e : Draft} {body : Block}
    (h : (Reading.body delivery s shape tables inTransaction).run.run d = (.ok body, e))
    : ∃ answers, d.Answers answers e ∧ body.Uses shape.row.needs answers := by
  unfold Reading.body at h
  obtain ⟨row, d', hrow, h⟩ := bind_eq_ok h
  cases h
  obtain ⟨answers, functions, hanswers, hneeds, hreads, hfunctions⟩ := answers_rowRead hrow
  refine ⟨answers, hanswers, hneeds, ?_⟩
  rw [← hfunctions]
  exact Reading.references_delivered delivery hs shape hreads tables inTransaction

theorem answers_writeQuery {q : WriteQuery} {m : Method} {d e : Draft} {body : Block}
    (h : (q.lower m).run.run d = (.ok body, e))
    : ∃ answers, d.Answers answers e ∧ body.Uses (q.needs m) answers := by
  unfold WriteQuery.lower at h
  obtain ⟨source, d', hsource, h⟩ := bind_eq_ok h
  obtain ⟨hdeliver, rfl⟩ := ofExcept_eq_ok h
  have hreferences := Work.references_deliver (by simp) hdeliver
  dsimp only at hreferences
  rw [BoundStatement.references_emit, q.references_run, List.append_nil] at hreferences
  unfold WriteQuery.source at hsource
  unfold WriteQuery.needs
  split at hsource
  . next hexpandable =>
    cases hsource
    rw [if_pos hexpandable] at hreferences ⊢
    exact ⟨[], .done, rfl, hreferences⟩
  . next hscalar =>
    obtain ⟨name, d'', hask, hsource⟩ := bind_eq_ok hsource
    cases hsource
    rw [if_neg hscalar] at hreferences ⊢
    refine ⟨[(.prepared m q.statement, name)], .ask hask .done, rfl, ?_⟩
    rw [hreferences]
    split
    . simp [StatementSource.field?, Need.references]
    . simp [StatementSource.field?, Need.references]

theorem answers_shortcut {s : Shortcut} {m : Method} {d e : Draft} {body : Block}
    (hsingle : s.result = .rowId ∨ s.result = .rowIds → s.targets.length = 1)
    (h : (s.lower m).run.run d = (.ok body, e))
    : ∃ answers, d.Answers answers e ∧ body.Uses s.needs answers := by
  unfold Shortcut.lower at h
  obtain ⟨fields, d', hask, h⟩ := bind_eq_ok h
  obtain ⟨hdeliver, rfl⟩ := ofExcept_eq_ok h
  have hmapM (targets : List ResolvedTarget)
      : (targets.mapM (adapterField s.op) : Drafting (List String))
          = (targets.map fun t => Need.adapter s.op t.entity t.table).mapM Need.ask := by
    induction targets with
    | nil => rfl
    | cons t rest ih =>
      rw [List.map_cons, List.mapM_cons, List.mapM_cons, ih]
      rfl
  rw [hmapM] at hask
  obtain ⟨hlength, hanswers⟩ := answers_mapM_ask hask
  have htargets : fields.length = s.targets.length := by simpa using hlength
  refine ⟨_, hanswers, List.map_fst_zip (Nat.le_of_eq hlength.symm), ?_⟩
  have hreferences := Work.references_deliver (by simp) hdeliver
  rw [Shortcut.references_run s m.delivery htargets hsingle] at hreferences
  exact hreferences.trans (s.references_needs htargets).symm

/-- A body is lowered to code that uses what its method needs. -/
theorem answers_lower {interface : String} {c : Classified} {d e : Draft} {body : Block}
    (hsingle : ∀ s, c.category = .shortcut s →
      s.result = .rowId ∨ s.result = .rowIds → s.targets.length = 1)
    (h : (c.lower interface).run.run d = (.ok body, e))
    : ∃ answers, d.Answers answers e ∧ body.Uses c.needs answers := by
  unfold Classified.needs
  unfold Classified.lower at h
  split at h
  . next q hq =>
    rw [hq]
    exact answers_readingBody (ReadStatement.isPlain_emit _) h
  . next q hq =>
    rw [hq]
    exact answers_writeQuery h
  . next s hs =>
    rw [hs]
    exact answers_shortcut (hsingle s hs) h
  . next function hfunction =>
    rw [hfunction]
    obtain ⟨hdeliver, rfl⟩ := ofExcept_eq_ok h
    refine ⟨[], .done, rfl, ?_⟩
    rw [Work.references_deliver (by simp) hdeliver]
    dsimp only
    split
    . exact references_callFunction function (by simp) c.method.params
    . exact references_callFunction function (by simp) c.method.params
  . next q hq =>
    rw [hq]
    unfold RawQuery.lower at h
    split at h
    . obtain ⟨_, d', hreport, h⟩ := bind_eq_ok h
      cases hreport
      obtain ⟨answers, hanswers, huses⟩ := answers_readingBody q.isPlain_statement h
      have hreported : (d.report (.missingStatement c.method.name)).Alike d := ⟨rfl, rfl⟩
      exact ⟨answers, .alike hreported hanswers, huses⟩
    . exact answers_readingBody q.isPlain_statement h
  . next target htarget =>
    rw [htarget]
    cases h
    exact ⟨[], .done, rfl, references_lowerDelegate interface c.method target⟩

end Drafting

end DataAccess

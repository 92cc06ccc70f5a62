import DataAccess.Compile.Assembly
import DataAccess.Proofs.Compile.Marked
import DataAccess.Proofs.Compile.Outcome
import DataAccess.Proofs.Compile.Variables

/-!
This module contains which variables of its own the code of a method has where it reads the parameters. Code
is not made with regard to the names of parameters: a parameter of the same name as such a variable is out
of reach. Main statement: the names of a method are kept apart if and only if no parameter whose argument is
used is called like one of these variables, and none like the callback in a call that reports to one.
-/

namespace DataAccess

open Code (Block Expr Read Stmt scopeAfter stmtReads stmtReads_eq_flatMap exprReads_eq_flatMap)

def Code.Block.Captures (b : Block) : Prop :=
  ∃ r ∈ b.reads [], ∃ x ∈ r.scope, r.name = mark x

def Method.signatureNames (m : Method) (runtime : Code.Path) : List String :=
  (m.paramTokens runtime).filterMap fun
    | .word name :: _ => some name
    | _ => none

/-- The variables that code has declared, the last one first, when it binds the arguments of a statement. -/
def BoundStatement.locals (s : BoundStatement) : List String :=
  if s.isExpandable then
    "_arg_index" :: "_statement" :: "_arg_count" :: "_sql" ::
      (((List.range' 1 (s.params.filter (·.multiple)).length).map sizeName).reverse ++
        ["_string_builder"])
  else ["_statement"]

/-- The variables that the code of a method has declared, the last one first, where it makes use of the
method's arguments. -/
def Classified.locals (c : Classified) : List String :=
  let delivery := c.method.delivery
  let moved := if delivery = .direct then [] else ["_signal", "__this"]
  match c.category with
  | .read q => q.statement.locals
  | .write q => q.statement.locals
  | .shortcut s =>
    match s.result with
    | .count _ => "_total" :: moved
    | .unit | .rowId | .rowIds => moved
  | .transaction _ => moved
  | .raw q =>
    match q.source with
    | .borrowed _ =>
      if delivery = .direct ∧ q.shape.multiplicity = .single then ["_cursor"] else []
    | .text _ | .owned _ | .missing => []
  | .delegate _ => []

/-- Parameters with marks are read among variables: in no other scope than these, and each of them
somewhere with all of these in scope. -/
structure ReadsAmong (reads : List Read) (params : List Parameter) (locals : List String) : Prop where
  sound : ∀ r ∈ reads, IsMarked r.name → ∃ p ∈ params, r.name = p.name ∧ r.scope ⊆ locals
  complete : ∀ p ∈ params, IsMarked p.name → ⟨p.name, locals⟩ ∈ reads

theorem ne_of_isMarked {r : Read} (hr : IsMarked r.name) {name : String} (hname : ¬IsMarked name)
    (scope : List String) : r ≠ ⟨name, scope⟩ := by
  rintro rfl
  exact hname hr

namespace ReadsAmong

variable {reads more : List Read} {params : List Parameter} {locals : List String}

theorem append_unmarked (h : ReadsAmong reads params locals) (hmore : ∀ r ∈ more, ¬IsMarked r.name)
    : ReadsAmong (reads ++ more) params locals where
  sound r hr hmarked := by
    rcases List.mem_append.1 hr with hr | hr
    . exact h.sound r hr hmarked
    . exact absurd hmarked (hmore r hr)
  complete p hp hmarked := List.mem_append_left _ (h.complete p hp hmarked)

theorem of_mem_iff (h : ∀ r, IsMarked r.name → (r ∈ reads ↔ ∃ p ∈ params, r = ⟨p.name, locals⟩))
    : ReadsAmong reads params locals where
  sound r hr hmarked := by
    obtain ⟨p, hp, rfl⟩ := (h r hmarked).1 hr
    exact ⟨p, hp, rfl, List.Subset.refl locals⟩
  complete p hp hmarked := (h _ hmarked).2 ⟨p, hp, rfl⟩

theorem captures_iff {b : Block} (h : ReadsAmong (b.reads []) (params.map (Parameter.renamed mark)) locals)
    : b.Captures ↔ ∃ p ∈ params, p.name ∈ locals := by
  constructor
  . rintro ⟨r, hr, x, hx, hname⟩
    have hmarked : IsMarked r.name := hname ▸ isMarked_mark x
    obtain ⟨_, hparams, hparam, hscope⟩ := h.sound r hr hmarked
    obtain ⟨p, hp, rfl⟩ := List.mem_map.1 hparams
    rw [mark_injective (hname.symm.trans hparam)] at hx
    exact ⟨p, hp, hscope hx⟩
  . rintro ⟨p, hp, hlocal⟩
    exact ⟨⟨mark p.name, locals⟩, h.complete _ (List.mem_map_of_mem hp) (isMarked_mark _), p.name,
      hlocal, rfl⟩

end ReadsAmong

theorem Work.Delivers.readsAmong {w : Work} {delivery : Delivery} {body : Block}
    (h : w.Delivers delivery body)
    (hcapture : ∀ scope, ∀ r ∈ stmtReads scope w.capture, r.name = "self") {params : List Parameter}
    {locals : List String}
    (hreads : ReadsAmong (stmtReads [] w.setup ++ w.body.reads (w.scope delivery)) params locals)
    : ReadsAmong (body.reads []) params locals := by
  have hmem {r : Read} (hmarked : IsMarked r.name)
      : r ∈ body.reads [] ↔ r ∈ stmtReads [] w.setup ++ w.body.reads (w.scope delivery) := by
    have hself : r.name ≠ "self" := fun heq => absurd (heq ▸ hmarked) (by decide)
    have hcallback : r.name ≠ callbackName := fun heq => absurd (heq ▸ hmarked) (by decide)
    rw [h.mem_reads hcapture hself hcallback, List.mem_append]
  constructor
  . intro r hr hmarked
    exact hreads.sound r ((hmem hmarked).1 hr) hmarked
  . intro p hp hmarked
    exact (hmem (r := ⟨p.name, locals⟩) hmarked).2 (hreads.complete p hp hmarked)

namespace BoundStatement

variable {r : Read} (s : BoundStatement) (p : Parameter) (scope : List String)

theorem reads_scalarValue : (scalarValue p).reads scope = [⟨p.name, scope⟩] := by
  unfold scalarValue converted
  cases p.converter with
  | none | some => simp

theorem reads_itemValue : (itemValue p).reads scope = [⟨"_item", scope⟩] := by
  unfold itemValue converted
  cases p.converter with
  | none | some => simp

theorem mem_reads_bindTo (hr : IsMarked r.name) {slot : Expr} (hslot : r ∉ slot.reads scope) (value : Expr)
    : r ∈ (bindTo slot value).reads scope ↔ r ∈ value.reads scope := by
  simp [bindTo, statementVar, hslot, ne_of_isMarked hr (by decide : ¬IsMarked "_statement")]

theorem readsAmong_emitFixed (source : StatementSource)
    : ReadsAmong (stmtReads [] (s.emitFixed source)) s.params ["_statement"] := by
  apply ReadsAmong.of_mem_iff
  intro r hr
  have hstatement : r ∉ (s.fixedStatement source).reads [] := by
    cases source with
    | fresh => simp [fixedStatement]
    | shared | copy => simp [fixedStatement, ne_of_isMarked hr (by decide : ¬IsMarked "self")]
  have hbind (p : Parameter) (k : Nat)
      : r ∈ (bindTo (.number (k + 1) true) (scalarValue p)).reads ["_statement"] ↔
          r = ⟨p.name, ["_statement"]⟩ := by
    rw [mem_reads_bindTo _ hr (by simp), reads_scalarValue, List.mem_singleton]
  unfold emitFixed
  rw [stmtReads, List.mem_append, (stmtReads_eq_flatMap _ _).1]
  . simp only [Stmt.reads, hstatement, false_or, Stmt.declares, List.mem_flatMap, List.mem_map]
    constructor
    . rintro ⟨_, ⟨⟨p, k⟩, hp, rfl⟩, hread⟩
      exact ⟨p, (List.mem_zipIdx' hp).2 ▸ List.getElem_mem _, (hbind p k).1 hread⟩
    . rintro ⟨p, hp, hread⟩
      obtain ⟨k, hk, rfl⟩ := List.getElem_of_mem hp
      exact ⟨_, ⟨⟨s.params[k], k⟩, List.mk_mem_zipIdx_iff_getElem?.2 (List.getElem?_eq_getElem hk), rfl⟩,
        (hbind _ k).2 hread⟩
  . intro b hb
    obtain ⟨_, _, rfl⟩ := List.mem_map.1 hb
    rfl

theorem scopeAfter_appendText (pending : List Char) : scopeAfter scope (appendText pending) = scope := by
  unfold appendText
  split
  . rfl
  . rfl

theorem not_mem_reads_appendText (hr : IsMarked r.name) (pending : List Char)
    : r ∉ stmtReads scope (appendText pending) := by
  unfold appendText
  split
  . simp
  . simp [ne_of_isMarked hr (by decide : ¬IsMarked "_string_builder")]

theorem scopeAfter_emitText (t : Sql.Template) (pending : List Char) (k : Nat) (slots : List Slot)
    : scopeAfter scope (emitText pending k slots) =
        ((List.range' (k + 1) ((mk t slots).params.filter (·.multiple)).length).map sizeName).reverse
          ++ scope := by
  induction slots generalizing pending k scope with
  | nil => exact scopeAfter_appendText scope pending
  | cons slot rest ih =>
    cases slot with
    | text chars => exact ih scope (pending ++ chars) k
    | param p =>
      have hparams : (mk t (.param p :: rest)).params = p :: (mk t rest).params := rfl
      rw [hparams, emitText]
      split
      . next hmultiple =>
        rw [Code.scopeAfter_append, Code.scopeAfter_append, scopeAfter_appendText, ih,
          List.filter_cons_of_pos hmultiple, List.length_cons, List.range'_succ, List.map_cons,
          List.reverse_cons, List.append_assoc]
        rfl
      . next hmultiple => rw [ih, List.filter_cons_of_neg hmultiple]

theorem isMarked_sizeName (k : Nat) : ¬IsMarked (sizeName k) := by
  simp [IsMarked, sizeName]

theorem mem_reads_emitText (hr : IsMarked r.name) (t : Sql.Template) (pending : List Char) (k : Nat)
    (slots : List Slot) (h : r ∈ stmtReads scope (emitText pending k slots))
    : (∃ p ∈ (mk t slots).params, r.name = p.name) ∧
        r.scope ⊆ scopeAfter scope (emitText pending k slots) := by
  induction slots generalizing pending k scope with
  | nil => exact absurd h (not_mem_reads_appendText scope hr pending)
  | cons slot rest ih =>
    cases slot with
    | text chars => exact ih scope (pending ++ chars) k h
    | param p =>
      have hparams : (mk t (.param p :: rest)).params = p :: (mk t rest).params := rfl
      rw [hparams]
      unfold emitText at h ⊢
      split at h
      . next hmultiple =>
        rw [if_pos hmultiple]
        have hown : r ∉ [⟨"_string_builder", sizeName (k + 1) :: scope⟩,
            ⟨sizeName (k + 1), sizeName (k + 1) :: scope⟩] := by
          simp [ne_of_isMarked hr (by decide : ¬IsMarked "_string_builder"),
            ne_of_isMarked hr (isMarked_sizeName (k + 1))]
        rw [Code.scopeAfter_append, Code.scopeAfter_append, scopeAfter_appendText]
        rw [Code.stmtReads_append, Code.stmtReads_append, Code.scopeAfter_append, scopeAfter_appendText,
          List.mem_append, List.mem_append] at h
        rcases h with (h | h) | h
        . exact absurd h (not_mem_reads_appendText scope hr pending)
        . have hread : r = ⟨p.name, scope⟩ ∨ r ∈ [⟨"_string_builder", sizeName (k + 1) :: scope⟩,
              ⟨sizeName (k + 1), sizeName (k + 1) :: scope⟩] := by
            simpa using h
          obtain rfl := hread.resolve_right hown
          refine ⟨⟨p, List.mem_cons_self, rfl⟩, ?_⟩
          intro name hname
          exact Code.mem_scopeAfter.2 (Or.inr (List.mem_cons_of_mem _ hname))
        . obtain ⟨⟨q, hq, hname⟩, hscope⟩ := ih _ [] (k + 1) h
          exact ⟨⟨q, List.mem_cons_of_mem _ hq, hname⟩, hscope⟩
      . next hmultiple =>
        rw [if_neg hmultiple]
        obtain ⟨⟨q, hq, hname⟩, hscope⟩ := ih scope (pending ++ ['?']) k h
        exact ⟨⟨q, List.mem_cons_of_mem _ hq, hname⟩, hscope⟩

theorem readsAmong_emitBinds (params : List Parameter)
    : ReadsAmong (stmtReads scope (emitBinds params)) params scope := by
  apply ReadsAmong.of_mem_iff
  intro r hr
  have hindex (scope : List String) : r ∉ (Expr.var "_arg_index").reads scope := by
    simp [ne_of_isMarked hr (by decide : ¬IsMarked "_arg_index")]
  have hadvance (scope : List String) : r ∉ advance.reads scope := by
    simp [advance, ne_of_isMarked hr (by decide : ¬IsMarked "_arg_index")]
  have hcons {b : Stmt} (hb : b.declares = []) (more : List Stmt)
      : r ∈ stmtReads scope (b :: more) ↔ r ∈ b.reads scope ∨ r ∈ stmtReads scope more := by
    rw [stmtReads, hb, List.nil_append, List.mem_append]
  induction params with
  | nil => simp [emitBinds]
  | cons p rest ih =>
    simp only [List.mem_cons, exists_eq_or_imp]
    refine Iff.trans ?_ (or_congr_right ih)
    rw [emitBinds]
    split
    . have hitem : r ∉ (bindTo (.var "_arg_index") (itemValue p)).reads ("_item" :: scope) := by
        rw [mem_reads_bindTo _ hr (hindex _), reads_itemValue, List.mem_singleton]
        exact ne_of_isMarked hr (by decide) _
      rw [hcons rfl, Stmt.reads, stmtReads, stmtReads, stmtReads]
      simp only [List.mem_append, hitem, hadvance, List.not_mem_nil, or_false]
      simp
    . have hscalar : r ∈ (bindTo (.var "_arg_index") (scalarValue p)).reads scope ↔ r = ⟨p.name, scope⟩ := by
        rw [mem_reads_bindTo _ hr (hindex _), reads_scalarValue, List.mem_singleton]
      rw [hcons rfl, hscalar]
      split
      . rfl
      . rw [List.singleton_append, hcons rfl]
        simp only [hadvance, false_or]

theorem not_mem_reads_argCountExpr (hr : IsMarked r.name) : r ∉ s.argCountExpr.reads scope := by
  have hsum (sizes : List Nat) (sum : Expr) (hsum : r ∉ sum.reads scope)
      : r ∉ ((sizes.map fun k => Expr.var (sizeName (k + 1))).foldl .add sum).reads scope := by
    induction sizes generalizing sum with
    | nil => exact hsum
    | cons k rest ih => exact ih _ (by simp [hsum, ne_of_isMarked hr (isMarked_sizeName (k + 1))])
  exact hsum _ _ (by simp)

theorem readsAmong_emit (source : StatementSource)
    : ReadsAmong (stmtReads [] (s.emit source)) s.params s.locals := by
  unfold emit locals
  split
  . let sizes := ((List.range' 1 (s.params.filter (·.multiple)).length).map sizeName).reverse
    let named := "_arg_count" :: "_sql" :: (sizes ++ ["_string_builder"])
    have hscope : scopeAfter ["_string_builder"] (emitText [] 0 s.slots) = sizes ++ ["_string_builder"] :=
      scopeAfter_emitText ["_string_builder"] s.template [] 0 s.slots
    have hbinds := readsAmong_emitBinds ("_arg_index" :: "_statement" :: named) s.params
    have hmem {r : Read} (hr : IsMarked r.name)
        : r ∈ stmtReads [] s.emitExpanded ↔ r ∈ stmtReads ["_string_builder"] (emitText [] 0 s.slots) ∨
            r ∈ stmtReads ("_arg_index" :: "_statement" :: named) (emitBinds s.params) := by
      have hcount := s.not_mem_reads_argCountExpr ("_sql" :: (sizes ++ ["_string_builder"])) hr
      unfold emitExpanded
      rw [Code.stmtReads_append, Code.stmtReads_append, Code.stmtReads_append]
      simp [hscope, hcount, named, ne_of_isMarked hr (by decide : ¬IsMarked "_string_builder"),
        ne_of_isMarked hr (by decide : ¬IsMarked "_sql"),
        ne_of_isMarked hr (by decide : ¬IsMarked "_arg_count")]
    constructor
    . intro r hr hmarked
      rcases (hmem hmarked).1 hr with hr | hr
      . obtain ⟨⟨p, hp, hname⟩, hsubset⟩ := mem_reads_emitText _ hmarked s.template [] 0 s.slots hr
        rw [hscope] at hsubset
        refine ⟨p, hp, hname, List.Subset.trans hsubset ?_⟩
        exact List.subset_append_right ["_arg_index", "_statement", "_arg_count", "_sql"] _
      . exact hbinds.sound r hr hmarked
    . intro p hp hmarked
      exact (hmem hmarked).2 (Or.inr (hbinds.complete p hp hmarked))
  . exact s.readsAmong_emitFixed source

end BoundStatement

theorem not_mem_reads_handleFor {r : Read} (hr : IsMarked r.name) (delivery : Delivery)
    (scope : List String) : r ∉ (handleFor delivery).reads scope := by
  cases delivery with
  | direct => simp [handleFor, ownHandle, ne_of_isMarked hr (by decide : ¬IsMarked "self")]
  | suspend | future | stream => simp [handleFor, ne_of_isMarked hr (by decide : ¬IsMarked "__db")]

namespace Reading

variable {scope : List String} {handle statement signal : Expr} {r : Read}

theorem mem_reads_consume (shape : Shape) (names : List String) (streaming : Bool)
    (hcursor : r.name ≠ "_cursor") (hresult : r.name ≠ "_result") (hitem : r.name ≠ "_item")
    : r ∈ (consume handle statement signal shape (shape.row.readWith names) streaming).reads scope ↔
        r ∈ handle.reads scope ∨ r ∈ statement.reads scope ∨ r ∈ signal.reads scope ∨
          shape.multiplicity = .single ∧ streaming = false ∧ r ∈ statement.reads ("_cursor" :: scope) := by
  have hcursor (s : List String) : r ≠ ⟨"_cursor", s⟩ := fun h => hcursor (congrArg Read.name h)
  have hresult (s : List String) : r ≠ ⟨"_result", s⟩ := fun h => hresult (congrArg Read.name h)
  have hitem (s : List String) : r ≠ ⟨"_item", s⟩ := fun h => hitem (congrArg Read.name h)
  have hrow (s : List String) : r ∉ (shape.row.readWith names).value.reads s ∧
      r ∉ (shape.row.readWith names).optional.reads s := by
    cases shape.row with
    | entity => simp [Row.readWith, RowRead.ofEntity, RowCode.cursorVar, hcursor]
    | scalar => simp [Row.readWith, RowRead.ofScalar, RowCode.cursorVar, hcursor]
  have hmissing (s : List String) : r ∈ (missing statement streaming).reads s ↔
      streaming = false ∧ r ∈ statement.reads s := by
    cases streaming with
    | false | true => simp [missing]
  have hrows (s : List String)
      : r ∈ stmtReads s (readRows shape (shape.row.readWith names) (missing statement streaming)) ↔
        shape.multiplicity = .single ∧ streaming = false ∧ r ∈ statement.reads s := by
    unfold readRows
    cases shape.multiplicity with
    | single => simp [nextRow, RowCode.cursorVar, Block.reads_ofExpr, hcursor, hrow, hmissing]
    | optional => simp [nextRow, RowCode.cursorVar, Block.reads_ofExpr, hcursor, hrow]
    | list => simp [nextRow, RowCode.cursorVar, hcursor, hresult, hitem, hrow]
  unfold consume
  cases streaming with
  | false | true => simp [RowCode.cursorVar, hcursor, hresult, hrows]

/-- Of what reading rows reads, only the statement can have a mark. -/
theorem mem_reads_consume_iff (hr : IsMarked r.name) (delivery : Delivery) (shape : Shape)
    (names : List String) (streaming : Bool)
    : r ∈ (consume (handleFor delivery) statement (signalFor delivery) shape
          (shape.row.readWith names) streaming).reads scope ↔
        r ∈ statement.reads scope ∨
          shape.multiplicity = .single ∧ streaming = false ∧ r ∈ statement.reads ("_cursor" :: scope) := by
  have hown {name : String} (hname : ¬IsMarked name) : r.name ≠ name := fun heq => hname (heq ▸ hr)
  have hhandle := not_mem_reads_handleFor hr delivery scope
  have hsignal : r ∉ (signalFor delivery).reads scope := by
    cases delivery with
    | future | suspend => simp [signalFor, ne_of_isMarked hr (by decide : ¬IsMarked "_signal")]
    | direct | stream => simp [signalFor]
  rw [mem_reads_consume shape names streaming (hown (by decide)) (hown (by decide)) (hown (by decide))]
  simp [hhandle, hsignal]

theorem readsAmong_code_owned {params : List Parameter} {locals : List String} (delivery : Delivery)
    {setup : List Stmt} (hsetup : ReadsAmong (stmtReads [] setup) params locals) (shape : Shape)
    (tables : List String) (inTransaction : Bool) (names : List String)
    : ReadsAmong ((code delivery (.owned setup) shape tables inTransaction names).reads [])
        params locals := by
  apply (delivers_code delivery (.owned setup) shape tables inTransaction names).readsAmong
    name_of_reads_captureHandle
  have hforDelivery : (ReadStatement.owned setup).forDelivery delivery
      = (setup, .borrow BoundStatement.statementVar) := by
    cases delivery with
    | direct | future | suspend | stream => rfl
  unfold work
  rw [hforDelivery]
  apply hsetup.append_unmarked
  intro r hr hmarked
  have hstatement (scope : List String) : r ∉ (Expr.borrow BoundStatement.statementVar).reads scope := by
    simp [BoundStatement.statementVar, ne_of_isMarked hmarked (by decide : ¬IsMarked "_statement")]
  rcases (mem_reads_consume_iff hmarked delivery shape names _).1 hr with hr | ⟨_, _, hr⟩
  . exact hstatement _ hr
  . exact hstatement _ hr

theorem readsAmong_code_borrowed (delivery : Delivery) (p : Parameter) (shape : Shape)
    (tables : List String) (inTransaction : Bool) (names : List String)
    : ReadsAmong
        ((code delivery (.borrowed (.var p.name)) shape tables inTransaction names).reads []) [p]
        (if delivery = .direct ∧ shape.multiplicity = .single then ["_cursor"] else []) := by
  by_cases hdirect : delivery = .direct
  . subst hdirect
    apply (delivers_code .direct (.borrowed (.var p.name)) shape tables inTransaction names).readsAmong
      name_of_reads_captureHandle
    have hmem {r : Read} (hr : IsMarked r.name)
        : r ∈ (work .direct (.borrowed (.var p.name)) shape (shape.row.readWith names)
              inTransaction).body.reads [] ↔
            r = ⟨p.name, []⟩ ∨ shape.multiplicity = .single ∧ r = ⟨p.name, ["_cursor"]⟩ := by
      refine Iff.trans (mem_reads_consume_iff hr .direct shape names false) ?_
      simp
    constructor
    . intro r hr hmarked
      rcases (hmem hmarked).1 hr with rfl | ⟨hsingle, rfl⟩
      . exact ⟨p, List.mem_singleton.2 rfl, rfl, List.nil_subset _⟩
      . refine ⟨p, List.mem_singleton.2 rfl, rfl, ?_⟩
        rw [if_pos ⟨rfl, hsingle⟩]
        exact List.Subset.refl _
    . intro q hq hmarked
      cases List.mem_singleton.1 hq
      apply (hmem hmarked).2
      by_cases hsingle : shape.multiplicity = .single
      . rw [if_pos ⟨rfl, hsingle⟩]
        exact Or.inr ⟨hsingle, rfl⟩
      . rw [if_neg fun h => hsingle h.2]
        exact Or.inl rfl
  . have hcode : code delivery (.borrowed (.var p.name)) shape tables inTransaction names
        = code delivery (.owned [.bind false "_statement" none (.call .clone [.var p.name])]) shape tables
            inTransaction names := by
      cases delivery with
      | direct => exact absurd rfl hdirect
      | future | suspend | stream => rfl
    rw [hcode, if_neg fun h => hdirect h.1]
    apply readsAmong_code_owned
    apply ReadsAmong.of_mem_iff
    intro r _
    simp

end Reading

theorem WriteQuery.not_mem_reads_run (q : WriteQuery) {r : Read} (hr : IsMarked r.name)
    (delivery : Delivery) (scope : List String) : r ∉ (q.run delivery).reads scope := by
  have hhandle := not_mem_reads_handleFor hr delivery
  unfold run
  cases q.result with
  | unit | count | rowId =>
    simp [BoundStatement.statementVar, hhandle, ne_of_isMarked hr (by decide : ¬IsMarked "_statement"),
      ne_of_isMarked hr (by decide : ¬IsMarked "_result")]

namespace Shortcut

theorem mem_reads_callOn (hr : IsMarked r.name) (delivery : Delivery) (scope : List String)
    (t : ResolvedTarget) (field : String) (method : Code.Method)
    : r ∈ (callOn (self delivery) t field method).reads scope ↔ r = ⟨t.param.name, scope⟩ := by
  have hself : r ∉ (self delivery).reads scope := by
    cases delivery with
    | direct => simp [self, ne_of_isMarked hr (by decide : ¬IsMarked "self")]
    | suspend | future | stream => simp [self, ne_of_isMarked hr (by decide : ¬IsMarked "__this")]
  unfold callOn
  split
  . simp [hself]
  . simp [hself]

theorem mem_reads_operations (s : Shortcut) (hr : IsMarked r.name) (delivery : Delivery)
    (scope : List String) {fields : List String} (hlength : fields.length = s.targets.length)
    {make : Expr → Stmt} (hmake : ∀ e, (make e).declares = [])
    (hreads : ∀ e, r ∈ (make e).reads scope ↔ r ∈ e.reads scope)
    : r ∈ stmtReads scope (((s.targets.zip fields).map fun (t, field) =>
          operate s.op (self delivery) t field).map make) ↔
        ∃ p ∈ s.targets.map (·.param), r = ⟨p.name, scope⟩ := by
  have htargets : s.targets = (s.targets.zip fields).map Prod.fst :=
    (List.map_fst_zip (Nat.le_of_eq hlength.symm)).symm
  rw [List.map_map, (stmtReads_eq_flatMap _ _).1]
  . simp only [List.mem_flatMap, List.mem_map]
    constructor
    . rintro ⟨_, ⟨⟨t, field⟩, ht, rfl⟩, hread⟩
      have htarget := (List.of_mem_zip ht).1
      exact ⟨t.param, ⟨t, htarget, rfl⟩,
        (mem_reads_callOn hr delivery scope t field _).1 ((hreads _).1 hread)⟩
    . rintro ⟨_, ⟨t, ht, rfl⟩, hread⟩
      rw [htargets] at ht
      obtain ⟨⟨t, field⟩, hmem, rfl⟩ := List.mem_map.1 ht
      exact ⟨_, ⟨(t, field), hmem, rfl⟩,
        (hreads _).2 ((mem_reads_callOn hr delivery scope t field _).2 hread)⟩
  . intro b hb
    obtain ⟨_, _, rfl⟩ := List.mem_map.1 hb
    exact hmake _

theorem readsAmong_run (s : Shortcut) (delivery : Delivery) (scope : List String)
    {fields : List String} (hlength : fields.length = s.targets.length)
    (hsingle : s.result = .rowId ∨ s.result = .rowIds → s.targets.length = 1)
    : ReadsAmong ((s.run (self delivery) fields).reads scope) (s.targets.map (·.param))
        (match s.result with
          | .count _ => "_total" :: scope
          | .unit | .rowId | .rowIds => scope) := by
  apply ReadsAmong.of_mem_iff
  intro r hr
  unfold run
  cases hresult : s.result with
  | unit =>
    dsimp only
    rw [Block.reads, List.mem_append,
      s.mem_reads_operations hr delivery scope hlength (fun _ => rfl) (fun _ => Iff.rfl)]
    simp
  | count type =>
    have htotal := ne_of_isMarked hr (by decide : ¬IsMarked "_total")
    dsimp only
    rw [Block.reads, stmtReads, List.mem_append, List.mem_append]
    change (_ ∨ r ∈ stmtReads ("_total" :: scope) _) ∨ _ ↔ _
    rw [s.mem_reads_operations hr delivery ("_total" :: scope) hlength (fun _ => rfl)]
    . simp [htotal]
    . intro e
      simp [htotal]
  | rowId | rowIds =>
    obtain ⟨t, ht⟩ := List.length_eq_one_iff.1 (hsingle (by simp [hresult]))
    obtain ⟨field, hfield⟩ := List.length_eq_one_iff.1 (hlength.trans (hsingle (by simp [hresult])))
    simp [ht, hfield, mem_reads_callOn hr, ne_of_isMarked hr (by decide : ¬IsMarked "_result")]

end Shortcut

theorem readsAmong_args {e : Expr} {scope : List String} (he : ∀ r, IsMarked r.name → r ∉ e.reads scope)
    (params : List Parameter) {make : Parameter → Expr}
    (hmake : ∀ p, (make p).reads scope = [⟨p.name, scope⟩])
    : ReadsAmong (Code.exprReads scope (e :: params.map make)) params scope := by
  apply ReadsAmong.of_mem_iff
  intro r hr
  simp [exprReads_eq_flatMap, he r hr, hmake]

theorem Work.scope_of_deliver {w : Work} {m : Method} {category : String} {body : Block}
    (h : w.deliver m category = .ok body) (hsetup : w.setup = []) (hcapture : w.capture = [captureSelf])
    : w.scope m.delivery = if m.delivery = .direct then [] else ["_signal", "__this"] := by
  unfold scope
  unfold deliver at h
  rw [hsetup, hcapture]
  cases hdelivery : m.delivery with
  | direct | future | suspend => rfl
  | stream =>
    rw [hdelivery] at h
    cases h

namespace Classified

variable {c : Classified} {interface : String} {names : List String} {body : Block}

/-- The code of a method reads the parameters whose arguments it makes use of among the variables that it has
declared by then. -/
theorem readsAmong_code (hlength : names.length = c.needs.length)
    (hsingle : ∀ s, c.category = .shortcut s → s.result = .rowId ∨ s.result = .rowIds →
      s.targets.length = 1)
    (h : c.code interface names = .ok body)
    : ReadsAmong (body.reads []) (c.category.arguments c.method) c.locals := by
  obtain ⟨m, category, unused⟩ := c
  unfold code at h
  cases category with
  | read q =>
    cases h
    exact Reading.readsAmong_code_owned _ (q.statement.readsAmong_emit .fresh) _ _ _ _
  | write q =>
    apply (Work.delivers_of_deliver h).readsAmong name_of_reads_captureHandle
    apply (q.statement.readsAmong_emit _).append_unmarked
    intro r hr hmarked
    exact q.not_mem_reads_run hmarked _ _ hr
  | shortcut s =>
    have hfields : names.length = s.targets.length := by
      simpa [needs, Category.needs, Shortcut.needs] using hlength
    have hrun := s.readsAmong_run m.delivery ((s.work m names).scope m.delivery) hfields (hsingle s rfl)
    rw [Work.scope_of_deliver h rfl rfl] at hrun
    apply (Work.delivers_of_deliver h).readsAmong name_of_reads_captureSelf
    rw [Work.scope_of_deliver h rfl rfl]
    exact hrun
  | transaction function =>
    have hself (scope : List String) (r : Read) (hr : IsMarked r.name)
        : r ∉ (if m.delivery == .direct then Expr.var "self" else .borrow (.var "__this")).reads scope := by
      split
      . simp [ne_of_isMarked hr (by decide : ¬IsMarked "self")]
      . simp [ne_of_isMarked hr (by decide : ¬IsMarked "__this")]
    apply (Work.delivers_of_deliver h).readsAmong name_of_reads_captureSelf
    rw [Work.scope_of_deliver h rfl rfl]
    exact readsAmong_args (hself _) m.params fun _ => rfl
  | raw q =>
    cases h
    obtain ⟨source, shape, tables⟩ := q
    cases source with
    | borrowed p => exact Reading.readsAmong_code_borrowed m.delivery p shape tables false names
    | text p | owned p | missing =>
      apply Reading.readsAmong_code_owned
      apply ReadsAmong.of_mem_iff
      intro r _
      simp [Category.arguments, RawSource.param?, locals]
  | delegate target =>
    cases h
    have hargs : ReadsAmong
        (Code.exprReads [] (.var "self" :: m.params.map fun p => .call .convert [.var p.name])) m.params [] := by
      apply readsAmong_args
      . intro r hr
        simp [ne_of_isMarked hr (by decide : ¬IsMarked "self")]
      . intro p
        simp
    exact hargs.append_unmarked (by simp)

theorem arguments_marked (c : Classified)
    : c.marked.category.arguments c.marked.method
        = (c.category.arguments c.method).map (Parameter.renamed mark) := by
  obtain ⟨m, category, unused⟩ := c
  cases category with
  | read q | write q => exact q.statement.params_renamed
  | shortcut s =>
    change (s.targets.map _).map _ = (s.targets.map _).map _
    rw [List.map_map, List.map_map]
    rfl
  | transaction | delegate => rfl
  | raw q =>
    obtain ⟨source, shape, tables⟩ := q
    cases source with
    | text | owned | borrowed | missing => rfl

theorem length_needs_marked (c : Classified) : c.marked.needs.length = c.needs.length := by
  obtain ⟨m, category, unused⟩ := c
  cases category with
  | read | raw | transaction | delegate => rfl
  | shortcut s => simp [marked, renamed, needs, Category.renamed, Category.needs, Shortcut.needs]
  | write q =>
    change (WriteQuery.needs _ _).length = (q.needs m).length
    unfold WriteQuery.needs
    dsimp only
    rw [q.statement.isExpandable_renamed]
    split
    . rfl
    . rfl

theorem locals_marked (c : Classified) : c.marked.locals = c.locals := by
  have hstatement (s : BoundStatement) : (s.renamed mark).locals = s.locals := by
    unfold BoundStatement.locals
    rw [s.isExpandable_renamed, s.params_renamed, List.filter_map, List.length_map]
    rfl
  obtain ⟨m, category, unused⟩ := c
  cases category with
  | read q | write q => exact hstatement q.statement
  | shortcut | transaction | delegate => rfl
  | raw q =>
    obtain ⟨source, shape, tables⟩ := q
    cases source with
    | text | owned | borrowed | missing => rfl

end Classified

structure Interface.Marks (i : Interface) (p : MethodPlan) (c : Classified) (b : Block) : Prop where
  classified : i.classify p.method = .ok c
  code : ∃ names, names.length = c.needs.length ∧ c.code i.name names = .ok p.body ∧
    c.marked.code i.name names = .ok b

/-- The names of a planned method are kept apart: those in its signature are distinct, and in its body, with
marks on what is read of the parameters, none is read where there is a variable of its name. -/
def Interface.KeepsApart (i : Interface) (runtime : Code.Path) (p : MethodPlan) : Prop :=
  (p.method.signatureNames runtime).Nodup ∧
    ∃ c b, i.Marks p c b ∧ b.renameReads unmark = p.body ∧ ¬b.Captures

/-- The parameters of a method that are out of reach, because they are called like variables of the code that
makes use of their arguments. -/
def Interface.lostParameters (i : Interface) (m : Method) : List Parameter :=
  match i.classify m with
  | .ok c => (c.category.arguments m).filter fun q => c.locals.contains q.name
  | .error _ => []

theorem Method.signatureNames_eq (m : Method) (runtime : Code.Path)
    : m.signatureNames runtime
        = m.params.map (·.name) ++ if m.delivery = .suspend then [callbackName] else [] := by
  have hown : (m.params.map fun p => [Code.Token.word p.name] ++ Code.symbols ":" ++ p.type.tokens).filterMap
      (fun
        | .word name :: _ => some name
        | _ => none) = m.params.map (·.name) := by
    rw [List.filterMap_map]
    exact congrFun List.filterMap_eq_map m.params
  unfold signatureNames paramTokens
  cases m.delivery with
  | suspend =>
    dsimp only
    rw [List.filterMap_append, hown]
    rfl
  | direct | future | stream =>
    dsimp only
    rw [hown]
    simp

namespace Interface

variable {i : Interface} {plan : Plan}

namespace Marks

variable {p : MethodPlan} {c : Classified} {b : Block}

theorem unmarked (h : i.Marks p c b) : b.renameReads unmark = p.body := by
  obtain ⟨names, _, hcode, hmarked⟩ := h.code
  rw [c.code_marked, hmarked] at hcode
  exact Except.ok.inj hcode

theorem captures_iff (h : i.Marks p c b)
    : b.Captures ↔ i.lostParameters p.method ≠ [] := by
  obtain ⟨names, hlength, _, hmarked⟩ := h.code
  obtain ⟨hmethod, hresolve, _⟩ := classify_eq_ok h.classified
  have hsingle (s : Shortcut) (hs : c.marked.category = .shortcut s)
      (hresult : s.result = .rowId ∨ s.result = .rowIds) : s.targets.length = 1 := by
    obtain ⟨m, category, unused⟩ := c
    cases category with
    | shortcut =>
      cases hs
      exact (List.length_map _).trans (targets_of_rowIds hresolve hresult)
    | read | write | transaction | raw | delegate => cases hs
  have hreads := Classified.readsAmong_code (hlength.trans c.length_needs_marked.symm) hsingle hmarked
  rw [c.arguments_marked, c.locals_marked] at hreads
  unfold lostParameters
  rw [hreads.captures_iff, h.classified, hmethod]
  simp [List.filter_eq_nil_iff]

end Marks

theorem exists_marks {options : Options} (h : i.plan options = .ok plan) {p : MethodPlan} (hp : p ∈ plan.methods)
    : ∃ c b, i.Marks p c b := by
  obtain ⟨c, names, hclassify, _, hlength, hcode⟩ := code_of_plan h hp
  have hmarked := hcode
  rw [c.code_marked] at hmarked
  cases hb : c.marked.code i.name names with
  | error =>
    rw [hb] at hmarked
    cases hmarked
  | ok b => exact ⟨c, b, hclassify, names, hlength, hcode, hb⟩

/-- The names of a method are kept apart unless a parameter is called like the callback that it reports to, or
one whose argument is used like a variable of the code that uses it. -/
theorem names_kept_apart_iff (i : Interface) (options : Options) (h : i.plan options = .ok plan)
    {p : MethodPlan} (hp : p ∈ plan.methods) (hdistinct : (p.method.params.map (·.name)).Nodup)
    : i.KeepsApart plan.runtime p ↔
        (p.method.delivery = .suspend → ∀ q ∈ p.method.params, q.name ≠ callbackName) ∧
          i.lostParameters p.method = [] := by
  have hsignature : (p.method.signatureNames plan.runtime).Nodup ↔
      (p.method.delivery = .suspend → ∀ q ∈ p.method.params, q.name ≠ callbackName) := by
    rw [Method.signatureNames_eq]
    split
    . next hsuspend =>
      simp only [List.nodup_append, hdistinct, hsuspend]
      simp
    . next hother => simp [hdistinct, hother]
  unfold KeepsApart
  rw [hsignature]
  apply and_congr_right'
  constructor
  . rintro ⟨c, b, hmarks, _, hcaptures⟩
    rwa [hmarks.captures_iff, not_not] at hcaptures
  . intro hnone
    obtain ⟨c, b, hmarks⟩ := exists_marks h hp
    refine ⟨c, b, hmarks, hmarks.unmarked, ?_⟩
    rwa [hmarks.captures_iff, not_not]

/-- An interface with parameters that are called like the callback and like the variable that holds the
statement. -/
def namesInUse : Interface :=
  let text (name : String) : Parameter := ⟨name, .path false [.mk "String" .none], false, none⟩
  { name := "Users"
    entities := []
    converters := []
    backing := none
    methods :=
      [⟨"rename", [text "name"], none, .direct, .write "UPDATE user SET name = :name"⟩,
       ⟨"forget", [text "callback"], none, .suspend, .write "DELETE FROM user WHERE name = :callback"⟩,
       ⟨"retain", [text "_statement"], none, .direct,
        .write "DELETE FROM user WHERE name <> :_statement"⟩] }

theorem names_kept_apart_rename
    : ∃ plan, namesInUse.plan .standard = .ok plan ∧
        ∃ p ∈ plan.methods, p.method.name = "rename" ∧ (p.method.params.map (·.name)).Nodup ∧
          namesInUse.KeepsApart plan.runtime p := by
  have hmethods : (namesInUse.plan .standard).toOption.map (fun plan =>
      decide (∃ p ∈ plan.methods, p.method.name = "rename" ∧ (p.method.params.map (·.name)).Nodup ∧
        p.method.delivery = .direct ∧ (namesInUse.lostParameters p.method).isEmpty)) = some true := by
    decide +kernel
  cases hplan : namesInUse.plan .standard with
  | error =>
    rw [hplan] at hmethods
    cases hmethods
  | ok plan =>
    rw [hplan] at hmethods
    obtain ⟨p, hp, hname, hdistinct, hdirect, hlost⟩ := of_decide_eq_true (Option.some.inj hmethods)
    refine ⟨plan, rfl, p, hp, hname, hdistinct, ?_⟩
    apply (names_kept_apart_iff namesInUse .standard hplan hp hdistinct).2
    exact ⟨fun hsuspend => by simp [hdirect] at hsuspend, List.isEmpty_iff.1 hlost⟩

theorem names_clash_namesInUse
    : ∃ plan, namesInUse.plan .standard = .ok plan ∧
        plan.methods.map (·.method.name) = ["rename", "forget", "retain"] ∧
        ∀ p ∈ plan.methods, (p.method.params.map (·.name)).Nodup ∧
          (p.method.name ≠ "rename" → ¬namesInUse.KeepsApart plan.runtime p) := by
  have hmethods : (namesInUse.plan .standard).toOption.map (fun plan =>
      decide (plan.methods.map (·.method.name) = ["rename", "forget", "retain"] ∧
        ∀ p ∈ plan.methods, (p.method.params.map (·.name)).Nodup ∧
          (p.method.name ≠ "rename" → ¬(p.method.signatureNames plan.runtime).Nodup ∨
            (namesInUse.lostParameters p.method).isEmpty = false))) = some true := by
    decide +kernel
  cases hplan : namesInUse.plan .standard with
  | error =>
    rw [hplan] at hmethods
    cases hmethods
  | ok plan =>
    rw [hplan] at hmethods
    obtain ⟨hnames, hall⟩ := of_decide_eq_true (Option.some.inj hmethods)
    refine ⟨plan, rfl, hnames, ?_⟩
    intro p hp
    obtain ⟨hdistinct, hclash⟩ := hall p hp
    refine ⟨hdistinct, ?_⟩
    rintro hname ⟨hsignature, c, b, hmarks, _, hcaptures⟩
    rcases hclash hname with hclash | hclash
    . exact hclash hsignature
    . apply hcaptures
      rw [hmarks.captures_iff]
      exact List.isEmpty_eq_false_iff.1 hclash

end Interface

end DataAccess

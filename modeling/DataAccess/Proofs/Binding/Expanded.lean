import DataAccess.Proofs.Binding.Prepared
import DataAccess.Proofs.Binding.Texts

/-!
This module contains the faithfulness of statements with collections. The text, the number of arguments
and the bindings come from three pieces of code, which stay in step whatever the collections hold. The code
has variables of its own for all of these, and a parameter that is called like one of them cannot be bound.
-/

namespace DataAccess

open Code (Call Datum Expr Frame Revised Stmt execAll scopeAfter)
open Sql (Section Template)

def valuesOf (c : Call α) (p : Parameter) : List Value :=
  if p.multiple then itemValues c p else [valueOf c p]

structure Counting (f : Frame α β) (text : List Char) (bound : List Value) (left : Nat) : Prop
    extends Underway f text bound left where
  index : f.get? "_arg_index" = some (.held true (.count (bound.length + 1)))

abbrev bindingVars : List String :=
  ["_statement", "_arg_index"]

def BoundStatement.bindItem (p : Parameter) : List Stmt :=
  [bindTo (.var "_arg_index") (itemValue p), advance]

namespace Counting

variable {f g : Frame α β} {text : List Char} {bound : List Value}

theorem congr (h : Counting f text bound left) (hvars : ∀ x ∈ bindingVars, g.get? x = f.get? x)
    (hnoted : g.noted = f.noted) : Counting g text bound left where
  toUnderway := h.toUnderway.congr (hvars _ (by simp)) hnoted
  index := (hvars _ (by simp)).trans h.index

theorem bindTo (c : Call α) (h : Counting f text bound (left + 1)) {value : Expr}
    (hvalue : c.bound? f value = some a)
    : ∃ g, c.step f (BoundStatement.bindTo (.var "_arg_index") value) = some g ∧
        Underway g text (bound ++ [c.toValue a]) left ∧
        Revised ["_statement"] f.vars g.vars := by
  apply h.toUnderway.bindTo c _ value ?_ hvalue
  simp [Call.eval, Frame.datum?, h.index]

theorem bindNext (c : Call α) (h : Counting f text bound (left + 1)) {value : Expr}
    (hvalue : c.bound? f value = some a)
    : ∃ f' g, c.step f (BoundStatement.bindTo (.var "_arg_index") value) = some f' ∧
        c.step f' BoundStatement.advance = some g ∧
        Counting g text (bound ++ [c.toValue a]) left ∧
        Revised bindingVars f.vars g.vars := by
  obtain ⟨f', hf', hunderway, hrevised⟩ := h.bindTo c hvalue
  have hindex : f'.get? "_arg_index" = some (.held true (.count (bound.length + 1))) :=
    (hrevised.lookup_eq (by simp)).trans h.index
  let next := Datum.count (bound.length + 1 + 1)
  have hnext : Revised ["_arg_index"] f'.vars (f'.put "_arg_index" (.held true next)).vars :=
    Revised.replace hindex trivial
  refine ⟨f', f'.put "_arg_index" (.held true next), hf', ?_, ⟨?_, ?_⟩, ?_⟩
  . have hone : c.eval f' (.number 1 false) = some (.count 1) := rfl
    simp only [BoundStatement.advance, Call.step, hone, Option.bind_eq_bind, Option.bind_some]
    exact Frame.change_of_held hindex rfl
  . exact hunderway.congr (hnext.lookup_eq (by simp)) rfl
  . rw [List.length_append, List.length_singleton]
    exact f'.get?_put_self _ hindex
  . exact (hrevised.mono (by simp)).trans (hnext.mono (by simp))

theorem goThrough (c : Call α) (p : Parameter) (a : α) (h : Counting f text bound (left + 1))
    : ∃ g, c.goThrough f "_item" (BoundStatement.bindItem p) a = some g ∧
        Counting g text (bound ++ [c.toValue (p.converter.elim id c.convert a)]) left ∧
        Revised bindingVars f.vars g.vars := by
  have hinner : Counting (f.push "_item" (.argument a)) text bound (left + 1) := by
    refine h.congr ?_ rfl
    intro x hx
    apply f.get?_push_ne
    rintro rfl
    simp at hx
  obtain ⟨f', g, hf', hg, hcounting, hrevised⟩ :=
    hinner.bindNext c (c.bound?_itemValue p (f.get?_push_self ..))
  obtain ⟨rest, hrest, hrevised⟩ := hrevised.of_argument
  refine ⟨{ g with vars := rest }, ?_, ?_, hrevised⟩
  . have hbody : (BoundStatement.bindItem p).foldlM c.step
        (f.push "_item" (.argument a)) = some g := by
      simp [BoundStatement.bindItem, hf', hg]
    rw [Call.goThrough, hbody, Option.bind_eq_bind, Option.bind_some, hrest]
    rfl
  . refine hcounting.congr ?_ rfl
    intro x hx
    unfold Frame.get?
    have hne : x ≠ "_item" := by
      rintro rfl
      simp at hx
    rw [hrest, List.lookup_cons, beq_eq_false_iff_ne.2 hne]

theorem bindItems (c : Call α) (p : Parameter) (items : List α)
    (h : Counting f text bound (items.length + left))
    : ∃ g,
        items.foldlM (fun f a => c.goThrough f "_item" (BoundStatement.bindItem p) a) f = some g ∧
        Counting g text
          (bound ++ items.map fun a => c.toValue (p.converter.elim id c.convert a)) left ∧
        Revised bindingVars f.vars g.vars := by
  induction items generalizing f bound with
  | nil =>
    refine ⟨f, rfl, ?_, .refl _⟩
    simpa using h
  | cons a rest ih =>
    have hlength : (a :: rest).length + left = rest.length + left + 1 := by
      rw [List.length_cons]
      omega
    rw [hlength] at h
    obtain ⟨f', hf', hcounting', hrevised'⟩ := h.goThrough c p a
    obtain ⟨g, hg, hcounting, hrevised⟩ := ih hcounting'
    refine ⟨g, ?_, ?_, hrevised'.trans hrevised⟩
    . rw [List.foldlM_cons, hf']
      exact hg
    . simpa using hcounting

end Counting

namespace BoundStatement

theorem length_itemValues (c : Call α) (p : Parameter)
    : (itemValues c p).length = (c.items p.name).length := by
  simp [itemValues]

theorem exec_emitBinds (c : Call α) {f : Frame α β} {text : List Char} {bound : List Value}
    (ps : List Parameter) (h : Counting f text bound (ps.flatMap (valuesOf c)).length)
    (hps : ∀ p ∈ ps, f.get? p.name = some (c.passed p))
    : ∃ g, execAll c f (emitBinds ps) = some g ∧
        Underway g text (bound ++ ps.flatMap (valuesOf c)) 0 ∧
        Revised bindingVars f.vars g.vars := by
  induction ps generalizing f bound with
  | nil =>
    refine ⟨f, rfl, ?_, .refl _⟩
    simpa using h.toUnderway
  | cons p rest ih =>
    have hpassed := hps p List.mem_cons_self
    have hrest {f' : Frame α β} (hrevised : Revised bindingVars f.vars f'.vars)
        (q : Parameter) (hq : q ∈ rest) : f'.get? q.name = some (c.passed q) :=
      (hrevised.lookup_of_ne_held (c.ne_held_of_passed (hps q (List.mem_cons_of_mem _ hq)))).trans
        (hps q (List.mem_cons_of_mem _ hq))
    rw [List.flatMap_cons, List.length_append] at h
    rw [List.flatMap_cons, ← List.append_assoc]
    cases hp : p.multiple with
    | true =>
      have hvalues : valuesOf c p = itemValues c p := by simp [valuesOf, hp]
      rw [hvalues, length_itemValues] at h
      rw [hvalues]
      obtain ⟨f', hf', hcounting, hrevised'⟩ := h.bindItems c p
      obtain ⟨g, hg, hunderway, hrevised⟩ := ih hcounting (hrest hrevised')
      refine ⟨g, ?_, hunderway, hrevised'.trans hrevised⟩
      have hloop : Code.Stmt.exec c f (.forIn "_item" (.method (.var p.name) .iter []) (bindItem p))
          = some f' := by
        rw [Code.Stmt.exec, Frame.items?, hpassed, Call.passed, if_pos hp]
        exact hf'
      simp only [bindItem] at hloop
      simp only [emitBinds, hp, if_true, execAll, hloop, Option.bind_eq_bind, Option.bind_some, hg]
    | false =>
      have hvalues : valuesOf c p = [valueOf c p] := by simp [valuesOf, hp]
      have hbound := c.bound?_scalarValue (p := p) (f := f) (a := c.argument p.name)
        (by rw [hpassed, Call.passed, if_neg (by simp [hp])])
      rw [hvalues, List.length_singleton, Nat.add_comm] at h
      rw [hvalues]
      cases rest with
      | nil =>
        -- Behind the last scalar the index does not move on.
        obtain ⟨g, hg, hunderway, hrevised⟩ := h.bindTo c hbound
        have hg : Code.Stmt.exec c f (BoundStatement.bindTo (.var "_arg_index") (scalarValue p)) = some g := hg
        refine ⟨g, ?_, by simpa [valueOf] using hunderway, hrevised.mono (by simp)⟩
        simp [emitBinds, hp, execAll, hg]
      | cons q more =>
        obtain ⟨f', f'', hf', hf'', hcounting, hrevised'⟩ := h.bindNext c hbound
        obtain ⟨g, hg, hunderway, hrevised⟩ := ih hcounting (hrest hrevised')
        have hf' : Code.Stmt.exec c f (BoundStatement.bindTo (.var "_arg_index") (scalarValue p)) = some f' := hf'
        have hf'' : advance.exec c f' = some f'' := hf''
        refine ⟨g, ?_, hunderway, hrevised'.trans hrevised⟩
        have hemit : emitBinds (p :: q :: more)
            = BoundStatement.bindTo (.var "_arg_index") (scalarValue p) :: advance :: emitBinds (q :: more) := by
          simp [emitBinds, hp]
        simp only [hemit, execAll, hf', hf'', Option.bind_eq_bind, Option.bind_some, hg]

theorem declares_emitBinds (ps : List Parameter) : ∀ s ∈ emitBinds ps, s.declares = [] := by
  intro s hs
  induction ps with
  | nil => cases hs
  | cons p rest ih =>
    unfold emitBinds at hs
    split at hs
    . rcases List.mem_cons.1 hs with rfl | hs
      . rfl
      . exact ih hs
    . rcases List.mem_cons.1 hs with rfl | hs
      . rfl
      . rcases List.mem_append.1 hs with hs | hs
        . split at hs
          . cases hs
          . cases List.mem_singleton.1 hs
            rfl
        . exact ih hs

theorem mem_emitBinds {ps : List Parameter} {p : Parameter} (hp : p ∈ ps)
    : (if p.multiple then .forIn "_item" (.method (.var p.name) .iter []) (bindItem p)
        else bindTo (.var "_arg_index") (scalarValue p)) ∈ emitBinds ps := by
  induction ps with
  | nil => cases hp
  | cons q rest ih =>
    unfold emitBinds
    rcases List.mem_cons.1 hp with rfl | hp
    . split
      . exact List.mem_cons_self
      . exact List.mem_cons_self
    . have ih := ih hp
      split
      . exact List.mem_cons_of_mem _ ih
      . exact List.mem_cons_of_mem _ (List.mem_append_right _ ih)

/-- A parameter that is hidden by data of the code cannot be bound. -/
theorem execAll_emitBinds_eq_none {c : Call α} {f : Frame α β} {ps : List Parameter} {p : Parameter}
    (hp : p ∈ ps) (hheld : ∃ mutable d, f.get? p.name = some (.held mutable d))
    (hcount : ∀ path n, c.convertCount path n = none)
    : execAll c f (emitBinds ps) = none := by
  apply Code.execAll_eq_none (declares_emitBinds ps) (mem_emitBinds hp)
  rintro g ⟨xs, hrevised⟩
  obtain ⟨mutable, d, hd⟩ := hheld
  obtain ⟨e, he, _⟩ := hrevised.lookup_held hd
  have he : g.get? p.name = some (.held mutable e) := he
  split
  . simp [Code.Stmt.exec, Frame.items?, he]
  . exact Call.exec_bindTo_eq_none _ (c.bound?_scalarValue_of_held he fun n _ path => hcount path n)

theorem count_pieces (c : Call α) (ps : List Parameter)
    : ((ps.map (pieceOf c)).flatten).count '?' = (ps.flatMap (valuesOf c)).length := by
  induction ps with
  | nil => rfl
  | cons p rest ih =>
    rw [List.map_cons, List.flatten_cons, List.count_append, ih, List.flatMap_cons,
      List.length_append]
    cases hp : p.multiple with
    | true => simp [pieceOf, valuesOf, hp, count_marks, length_itemValues]
    | false => simp [pieceOf, valuesOf, hp]

theorem slotsSizes_eq (c : Call α) (slots : List Slot)
    : slotsSizes c slots
        =
      ((paramsIn slots).filter (·.multiple)).map fun p => (c.items p.name).length := by
  induction slots with
  | nil => rfl
  | cons s rest ih =>
    cases s with
    | text chars => exact ih
    | param p =>
      change (if p.multiple then _ else _) = ((p :: paramsIn rest).filter (·.multiple)).map _
      cases hp : p.multiple with
      | true => simp [hp, ih]
      | false => simp [hp, ih]

theorem length_values (c : Call α) (ps : List Parameter)
    : (ps.flatMap (valuesOf c)).length
        =
      (ps.filter fun p => !p.multiple).length +
        ((ps.filter (·.multiple)).map fun p => (c.items p.name).length).sum := by
  induction ps with
  | nil => rfl
  | cons p rest ih =>
    rw [List.flatMap_cons, List.length_append, ih]
    cases hp : p.multiple with
    | true =>
      simp only [valuesOf, hp, if_true, length_itemValues, Bool.not_true, Bool.false_eq_true,
        not_false_eq_true, List.filter_cons_of_neg, List.filter_cons_of_pos, List.map_cons,
        List.sum_cons]
      omega
    | false =>
      simp only [valuesOf, hp, Bool.false_eq_true, if_false, List.length_nil, Bool.not_false,
        not_false_eq_true, List.filter_cons_of_neg, List.filter_cons_of_pos, List.length_cons]
      omega

theorem eval_argCountExpr (s : BoundStatement) (c : Call α) {f : Frame α β}
    (h : Sizes f 0 (slotsSizes c s.slots))
    : c.eval f s.argCountExpr = some (.count (s.params.flatMap (valuesOf c)).length) := by
  let scalars := (s.params.filter fun p => !p.multiple).length
  have hscalars : c.eval f (.number scalars true) = some (.count scalars) := rfl
  have hsum := eval_foldl_add c h hscalars
  rw [slotsSizes_eq, List.length_map, ← List.range_eq_range'] at hsum
  rw [length_values]
  exact hsum

inductive Aligned : List Section → List Slot → Prop where
  | nil : Aligned [] []
  | text (h : Aligned rest found) : Aligned (.text chars :: rest) (.text chars :: found)
  | placeholder (h : Aligned rest found) : Aligned (.placeholder p :: rest) (.param param :: found)

theorem aligned_of_slotsOf {params : List Parameter} {highest : Nat} {sections : List Section}
    {found : List Slot} (h : slotsOf params highest sections = .ok found) : Aligned sections found := by
  induction sections generalizing highest found with
  | nil =>
    cases h
    exact .nil
  | cons s rest ih =>
    cases s with
    | text chars =>
      rw [slotsOf] at h
      obtain ⟨more, hmore, rfl⟩ := cons_eq_ok_iff.1 h
      exact .text (ih hmore)
    | placeholder p =>
      rw [slotsOf] at h
      split at h
      . split at h
        . obtain ⟨more, hmore, rfl⟩ := cons_eq_ok_iff.1 h
          exact .placeholder (ih hmore)
        . cases h
      . cases h

theorem Aligned.length_eq {sections : List Section} {found : List Slot} (h : Aligned sections found)
    : (paramsIn found).length = (placeholdersIn sections).length := by
  induction h with
  | nil => rfl
  | text _ ih => exact ih
  | placeholder _ ih => exact congrArg Nat.succ ih

theorem Aligned.text_eq {sections : List Section} {found : List Slot} (h : Aligned sections found)
    (c : Call α) : slotsText c found = fill sections ((paramsIn found).map (pieceOf c)) := by
  induction h with
  | nil => rfl
  | text _ ih => exact congrArg (_ ++ ·) ih
  | placeholder _ ih => exact congrArg (pieceOf c _ ++ ·) ih

def declarations (s : BoundStatement) : List Stmt :=
  [.bind false "_sql" none (.var "_string_builder"),
   .bind false "_arg_count" (some .count) s.argCountExpr,
   .bind true "_statement" none (.call .acquire [.var "_sql", .var "_arg_count"]),
   .bind true "_arg_index" (some .count) (.number 1 false)]

def expandedFront (s : BoundStatement) : List Stmt :=
  .bind true "_string_builder" none (.call .newText []) :: (emitText [] 0 s.slots ++ s.declarations)

theorem emitExpanded_eq (s : BoundStatement) : s.emitExpanded = s.expandedFront ++ emitBinds s.params := by
  simp [emitExpanded, expandedFront, declarations]

theorem scopeAfter_expandedFront {s : BoundStatement} (hs : s.isExpandable = true)
    : scopeAfter [] s.expandedFront = s.locals := by
  have htext := scopeAfter_emitText ["_string_builder"] s.template [] 0 s.slots
  rw [locals, if_pos hs, expandedFront, scopeAfter, Code.scopeAfter_append]
  change scopeAfter (scopeAfter ["_string_builder"] _) _ = _
  rw [htext]
  rfl

theorem scopeAfter_emit (s : BoundStatement) (source : StatementSource)
    : scopeAfter [] (s.emit source) = s.locals := by
  unfold emit
  split
  . next hs =>
    rw [emitExpanded_eq, Code.scopeAfter_append, (Code.stmtReads_eq_flatMap (declares_emitBinds _) _).2,
      scopeAfter_expandedFront hs]
  . next hs =>
    rw [locals, if_neg hs, emitFixed, scopeAfter, (Code.stmtReads_eq_flatMap ?_ _).2]
    . rfl
    . intro b hb
      obtain ⟨_, _, rfl⟩ := List.mem_map.1 hb
      rfl

theorem exec_declarations (s : BoundStatement) (c : Call α) {f : Frame α β} {text : List Char}
    (htexting : Texting f text) (hsizes : Sizes f 0 (slotsSizes c s.slots))
    : let count := (s.params.flatMap (valuesOf c)).length
      ∃ g, execAll c f s.declarations = some g ∧ Counting g text [] count ∧
        g.datum? "_arg_count" = some (.count count) := by
  intro count
  -- The frames after each of the four declarations.
  let f₁ := f.declare false "_sql" (.text (String.ofList text))
  let f₂ := f₁.declare false "_arg_count" (.count count)
  let f₃ := f₂.declare true "_statement" (.statement (.acquire (String.ofList text) count))
  let f₄ := f₃.declare true "_arg_index" (.count 1)
  have hsql : c.eval f (.var "_string_builder") = some (.text (String.ofList text)) := by
    simp [Call.eval, Frame.datum?, htexting.builder]
  have hcount : c.eval f₁ s.argCountExpr = some (.count count) := by
    apply eval_argCountExpr
    apply hsizes.congr
    intro j
    exact f.get?_declare_ne _ _ (sizeName_ne (by decide))
  have hacquire : c.eval f₂ (.call .acquire [.var "_sql", .var "_arg_count"])
      = some (.statement (.acquire (String.ofList text) count)) := by
    have htext : f₂.datum? "_sql" = some (.text (String.ofList text)) := rfl
    have hnumber : f₂.datum? "_arg_count" = some (.count count) := rfl
    simp only [Call.eval, htext, hnumber, Option.bind_eq_bind, Option.bind_some]
    rfl
  have hindex : c.eval f₃ (.number 1 false) = some (.count 1) := rfl
  have hunderway : Underway f₃ text [] count :=
    Underway.declare f₂ htexting.noted true text count fun _ => rfl
  refine ⟨f₄, ?_, ⟨hunderway.congr rfl rfl, rfl⟩, rfl⟩
  simp only [declarations, execAll, Option.bind_eq_bind, Option.bind_some, Code.exec_bind hsql,
    Code.exec_bind hcount, Code.exec_bind hacquire, Code.exec_bind hindex, f₁, f₂, f₃, f₄]

theorem exec_emitExpanded {s : BoundStatement} (hs : s.isExpandable = true) {c : Call α} {f : Frame α β}
    (hopens : c.Opens f s.params) (hhidden : s.hidden = [])
    : ∃ g, execAll c f s.emitExpanded = some g ∧
        Built g (slotsText c s.slots) (s.params.flatMap (valuesOf c)) ∧
        g.datum? "_arg_count" = some (.count (s.params.flatMap (valuesOf c)).length) := by
  rw [hidden_eq_nil, ← scopeAfter_expandedFront hs] at hhidden
  let f₀ := f.declare true "_string_builder" (.text "")
  have hstart : Texting f₀ [] := ⟨f.get?_declare_self .., hopens.noted⟩
  obtain ⟨f₁, h₁, htexting, hsizes, _⟩ := exec_emitText c s.slots hstart [] 0 fun p hp => by
    have hapart := hhidden p hp
    rw [expandedFront, scopeAfter, Code.scopeAfter_append] at hapart
    have hapart : p.name ∉ scopeAfter ["_string_builder"] (emitText [] 0 s.slots) :=
      fun h => hapart (Code.mem_scopeAfter.2 (Or.inr h))
    refine ⟨(f.get?_declare_ne _ _ ?_).trans (hopens.passed p hp), hapart⟩
    rintro heq
    exact hapart (Code.mem_scopeAfter.2 (Or.inr (heq ▸ List.mem_singleton_self _)))
  obtain ⟨f₂, h₂, hcounting, hcount⟩ := s.exec_declarations c htexting hsizes
  have hfront : execAll c f s.expandedFront = some f₂ := by
    have hnew : c.eval f (.call .newText []) = some (.text "") := rfl
    rw [expandedFront, execAll, Code.exec_bind hnew, Option.bind_eq_bind, Option.bind_some,
      Code.execAll_append, h₁, Option.bind_some, h₂]
  obtain ⟨g, hg, hdone, hrevised⟩ := exec_emitBinds c s.params hcounting fun p hp =>
    (Code.get?_of_execAll hfront (c.ne_held_of_passed (hopens.passed p hp)) (hhidden p hp)).trans
      (hopens.passed p hp)
  refine ⟨g, ?_, ?_, ?_⟩
  . rw [emitExpanded_eq, Code.execAll_append, hfront, Option.bind_some, hg]
  . simpa using hdone.built
  . have hsame : g.get? "_arg_count" = f₂.get? "_arg_count" := hrevised.lookup_eq (by simp)
    rw [← hcount, Frame.datum?, hsame, Frame.datum?]

theorem execAll_emitExpanded_eq_none {s : BoundStatement} (hs : s.isExpandable = true) {c : Call α}
    (hcount : ∀ path n, c.convertCount path n = none) (f : Frame α β) (hhidden : s.hidden ≠ [])
    : execAll c f s.emitExpanded = none := by
  obtain ⟨p, hp, hlocal⟩ := exists_of_hidden hhidden
  rw [← scopeAfter_expandedFront hs] at hlocal
  rw [emitExpanded_eq, Code.execAll_append]
  cases hfront : execAll c f s.expandedFront with
  | none => rfl
  | some g =>
    have hnothing : ∀ x ∈ ([] : List String), ∃ mutable d, f.get? x = some (.held mutable d) := by simp
    exact execAll_emitBinds_eq_none hp (Code.held_of_execAll hfront hnothing hlocal) hcount

/-- With collections of any sizes, the code declares the statement with one question mark for each scalar
and as many for each collection as it has items, counts as many arguments as there are question marks,
and binds each slot once, in order, to the arguments and items in the order of the text. That is so if no
parameter that is bound is called like a variable that the code has by then, and otherwise the code makes no
sense unless a converter takes a count for the argument. A method with such a statement asks for no field. -/
theorem resolve_expandable_faithful (m : Method) (sql : String) (s : BoundStatement)
    (h : resolve m sql = .ok s) (hs : s.isExpandable = true)
    : s.params.length = (Template.ofString sql).placeholders.length ∧
      (∀ {α β : Type} (c : Call α) (f : Frame α β) (source : StatementSource), c.Opens f s.params →
        let pieces := s.params.map (pieceOf c)
        let values := s.params.flatMap (valuesOf c)
        (s.hidden = [] → ∃ g, execAll c f (s.emit source) = some g ∧
          Built g (fill (Template.ofString sql).sections pieces) values ∧
          g.datum? "_arg_count" = some (.count (pieces.flatten.count '?')) ∧
          pieces.flatten.count '?' = values.length) ∧
        (s.hidden ≠ [] → (∀ path n, c.convertCount path n = none) →
          execAll c f (s.emit source) = none)) ∧
      ∀ (i : Interface) (q : WriteQuery) (ignored : List Parameter) (d : Draft),
        q.statement = s →
        ((i.draftMethod ⟨m, .write q, ignored⟩).run.run d).2.fields = d.fields := by
  have haligned := aligned_of_slotsOf (slotsOf_of_resolve h).2
  refine ⟨haligned.length_eq, ?_, ?_⟩
  . intro α β c f source hopens
    have hemit : s.emit source = s.emitExpanded := by simp [emit, hs]
    rw [hemit]
    constructor
    . intro hhidden
      obtain ⟨g, hg, hbuilt, hcount⟩ := exec_emitExpanded hs hopens hhidden
      rw [haligned.text_eq c] at hbuilt
      refine ⟨g, hg, hbuilt, ?_, count_pieces c s.params⟩
      rw [count_pieces, hcount]
    . exact fun hhidden hcount => execAll_emitExpanded_eq_none hs hcount f hhidden
  . intro i q ignored d hq
    subst hq
    exact q.fields_draftMethod_expandable m ignored i d hs

def deleteUsersSql : String :=
  "DELETE FROM user WHERE id IN (:ids) AND age > ? OR id IN (:ids)"

def deleteUsers : Method :=
  let text : Code.TypeExpr := .path false [.mk "String" .none]
  ⟨"delete_users", [⟨"age", text, false, none⟩, ⟨"ids", .slice text, true, none⟩], none, .direct,
    .write deleteUsersSql⟩

theorem resolve_expandable_faithful_deleteUsers
    : ∃ s, resolve deleteUsers deleteUsersSql = .ok s ∧ s.isExpandable = true ∧
        (∀ {β : Type} (c : Call Nat), c.items "ids" = [7, 8] →
          let f : Frame Nat β := c.opening deleteUsers.params
          c.Opens f s.params ∧
          ∃ g, execAll c f (s.emit .fresh) = some g ∧
            g.datum? "_arg_count" = some (.count 5) ∧
            Built g "DELETE FROM user WHERE id IN (?,?) AND age > ? OR id IN (?,?)".toList
              ([7, 8, c.argument "age", 7, 8].map c.toValue)) := by
  have hchecked : (match resolve deleteUsers deleteUsersSql with
      | .ok s =>
        s.isExpandable && s.hidden.isEmpty &&
          s.params.map (fun p => (p.name, p.multiple, p.converter.isNone))
            == [("ids", true, true), ("age", false, true), ("ids", true, true)]
      | .error _ => false) = true := by decide +kernel
  cases hr : resolve deleteUsers deleteUsersSql with
  | error e => simp [hr] at hchecked
  | ok s =>
    have hsubset := params_subset_of_resolve hr
    simp only [hr, Bool.and_eq_true, beq_iff_eq, List.isEmpty_iff] at hchecked
    obtain ⟨⟨hs, hhidden⟩, hparams⟩ := hchecked
    refine ⟨s, rfl, hs, ?_⟩
    intro β c hitems f
    have hopens : c.Opens f s.params := (c.opens_opening (by decide)).mono hsubset
    obtain ⟨_, hcode, _⟩ := resolve_expandable_faithful deleteUsers deleteUsersSql s hr hs
    obtain ⟨g, hg, hbuilt, hcount, _⟩ := (hcode c f .fresh hopens).1 hhidden
    obtain ⟨p, q, r, hlist⟩ := List.length_eq_three.1 (by simpa using congrArg List.length hparams)
    rw [hlist] at hparams
    simp only [List.map_cons, List.map_nil, List.cons.injEq, Prod.mk.injEq, and_true,
      Option.isNone_iff_eq_none] at hparams
    obtain ⟨⟨hp, hpm, hpc⟩, ⟨hq, hqm, hqc⟩, hr, hrm, hrc⟩ := hparams
    have hpieces : s.params.map (pieceOf c) = [marks 2, ['?'], marks 2] := by
      simp [hlist, pieceOf, hp, hpm, hqm, hr, hrm, hitems]
    have hvalues : s.params.flatMap (valuesOf c)
        = [7, 8, c.argument "age", 7, 8].map c.toValue := by
      simp [hlist, valuesOf, itemValues, valueOf, hp, hpm, hpc, hq, hqm, hqc, hr, hrm, hrc, hitems]
    rw [hpieces, hvalues] at hbuilt
    rw [hpieces] at hcount
    have htext : fill (Template.ofString deleteUsersSql).sections [marks 2, ['?'], marks 2]
        = "DELETE FROM user WHERE id IN (?,?) AND age > ? OR id IN (?,?)".toList := by
      decide +kernel
    exact ⟨hopens, g, hg, hcount, htext ▸ hbuilt⟩

def pruneUsersSql : String :=
  "DELETE FROM user WHERE id IN (:ids) AND age > :_arg_count"

def pruneUsers : Method :=
  let age : Code.TypeExpr := .path false [.mk "Age" .none]
  ⟨"prune_users", [⟨"ids", .slice (.path false [.mk "i64" .none]), true, none⟩,
    ⟨"_arg_count", age, false, some ⟨false, [.mk "Years" .none]⟩⟩], none, .direct, .write pruneUsersSql⟩

def pruneCall : Call Int64 where
  argument _ := 30
  items _ := [7, 8]
  convert _ := id
  convertCount _ n := some (.ofNat n)
  toValue := .integer
  field _ := none

def boundIn (f : Frame α β) : List Value :=
  match f.datum? "_statement" with
  | some (.statement t) => t.bindings
  | _ => []

/-- The number of arguments is bound in the place of the age. -/
theorem binds_count_pruneUsers
    : ∃ s, resolve pruneUsers pruneUsersSql = .ok s ∧ s.isExpandable = true ∧
        s.params.flatMap (valuesOf pruneCall) = [.integer 7, .integer 8, .integer 30] ∧
        ∃ f : Frame Int64 Empty, pruneCall.Opens f s.params ∧
          ∃ g, execAll pruneCall f (s.emit .fresh) = some g ∧
            (boundIn g == [.integer 7, .integer 8, .integer 3]) = true ∧
            ∀ text, ¬Built g text (s.params.flatMap (valuesOf pruneCall)) := by
  let f : Frame Int64 Empty := pruneCall.opening pruneUsers.params
  have hchecked : (match resolve pruneUsers pruneUsersSql with
      | .ok s =>
        s.isExpandable &&
          s.params.map (fun p => (p.name, p.multiple)) == [("ids", true), ("_arg_count", false)] &&
          (execAll pruneCall f (s.emit .fresh)).any fun g =>
            boundIn g == [.integer 7, .integer 8, .integer 3]
      | .error _ => false) = true := by decide +kernel
  cases hr : resolve pruneUsers pruneUsersSql with
  | error e => simp [hr] at hchecked
  | ok s =>
    simp only [hr, Bool.and_eq_true, Option.any_eq_true] at hchecked
    obtain ⟨⟨hs, hparams⟩, g, hg, hbound⟩ := hchecked
    have hparams := eq_of_beq hparams
    obtain ⟨p, q, hlist⟩ := List.length_eq_two.1 (by simpa using congrArg List.length hparams)
    simp only [hlist, List.map_cons, List.map_nil, List.cons.injEq, Prod.mk.injEq, and_true] at hparams
    obtain ⟨⟨_, hp⟩, _, hq⟩ := hparams
    have hconvert (p : Parameter) : p.converter.elim id pruneCall.convert = id := by
      cases p.converter with
      | none | some => rfl
    have hvalues : s.params.flatMap (valuesOf pruneCall) = [.integer 7, .integer 8, .integer 30] := by
      rw [hlist]
      simp only [List.flatMap_cons, List.flatMap_nil, valuesOf, hp, hq, itemValues, valueOf, hconvert]
      rfl
    have hopens : pruneCall.Opens f s.params :=
      (pruneCall.opens_opening (by decide)).mono (params_subset_of_resolve hr)
    refine ⟨s, rfl, hs, hvalues, f, hopens, g, hg, hbound, ?_⟩
    intro text hbuilt
    rw [hvalues] at hbuilt
    have hthirty : boundIn g = [.integer 7, .integer 8, .integer 30] := by
      rw [boundIn, hbuilt.statement]
    rw [hthirty] at hbound
    exact absurd hbound (by decide)

end BoundStatement

end DataAccess

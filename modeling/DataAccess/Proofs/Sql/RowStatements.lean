import DataAccess.Proofs.Lists
import DataAccess.Sql.Conflict

/-!
This module contains the statements on the rows of a table as they are put together from words, names and
slots. Each slot is for a column.
-/

namespace DataAccess.Sql

/-- What becomes of the value in a slot: it is part of a new row, it is written over a value of a row, or it
is compared with a value of a row. -/
inductive SlotUse where
  | inserted
  | changed
  | tested
deriving DecidableEq, Repr

structure ColumnSlot where
  use : SlotUse
  column : String
deriving DecidableEq, Repr

inductive Piece where
  | word (letters : String)
  | blank
  | symbol (c : Char)
  | name (text : String)
  | slot (s : ColumnSlot)
deriving DecidableEq, Repr

namespace Piece

/-- How a piece is written: a name as it is between backticks, and a slot as a question mark. -/
def source : Piece → List Char
  | word letters => letters.toList
  | blank => [' ']
  | symbol c => [c]
  | name text => '\x60' :: text.toList ++ ['\x60']
  | slot _ => ['?']

def name? : Piece → Option String
  | name text => some text
  | _ => none

def slot? : Piece → Option ColumnSlot
  | slot s => some s
  | _ => none

end Piece

inductive RowStatement where
  | insert (policy : Option ConflictPolicy) (table : String) (columns : List String)
  | delete (table : String) (keys : List String)
  | update (policy : Option ConflictPolicy) (table : String) (columns keys : List String)
deriving DecidableEq, Repr

namespace RowStatement

def table : RowStatement → String
  | insert _ table _ | delete table _ | update _ table _ _ => table

def names : RowStatement → List String
  | insert _ table columns => table :: columns
  | delete table keys => table :: keys
  | update _ table columns keys => table :: (columns ++ keys)

def verb (word : String) : Option ConflictPolicy → List Piece
  | some policy => [.word word, .blank, .word "OR", .blank, .word policy.keyword, .blank]
  | none => [.word word, .blank]

def equation (use : SlotUse) (column : String) : List Piece :=
  [.name column, .blank, .symbol '=', .blank, .slot ⟨use, column⟩]

def condition (keys : List String) : List Piece :=
  [.blank, .word "AND", .blank].intercalate (keys.map (equation .tested))

/-- The pieces of a statement. In an insertion the values stand in the order of the columns. -/
def pieces : RowStatement → List Piece
  | insert policy table columns =>
    verb "INSERT" policy ++ [.word "INTO", .blank, .name table, .blank, .symbol '('] ++
      [.symbol ','].intercalate (columns.map fun column => [.name column]) ++
      [.symbol ')', .blank, .word "VALUES", .blank, .symbol '('] ++
      [.symbol ','].intercalate (columns.map fun column => [.slot ⟨.inserted, column⟩]) ++ [.symbol ')']
  | delete table keys =>
    [.word "DELETE", .blank, .word "FROM", .blank, .name table, .blank, .word "WHERE", .blank] ++
      condition keys
  | update policy table columns keys =>
    verb "UPDATE" policy ++ [.name table, .blank, .word "SET", .blank] ++
      [.symbol ','].intercalate (columns.map (equation .changed)) ++ [.blank, .word "WHERE", .blank] ++
      condition keys

def text (st : RowStatement) : String :=
  String.ofList (st.pieces.flatMap Piece.source)

def slots (st : RowStatement) : List ColumnSlot :=
  st.pieces.filterMap Piece.slot?

end RowStatement

namespace RowStatement

theorem filterMap_verb {f : Piece → Option α} (hword : ∀ letters, f (.word letters) = none)
    (hblank : f .blank = none) (letters : String) (policy : Option ConflictPolicy)
    : (verb letters policy).filterMap f = [] := by
  cases policy with
  | none => simp [verb, hword, hblank]
  | some policy => simp [verb, hword, hblank]

section

variable (policy : Option ConflictPolicy) (table : String) (columns keys : List String)

theorem slots_equations {separator : List Piece} (h : separator.filterMap Piece.slot? = [])
    (use : SlotUse)
    : (separator.intercalate (columns.map (equation use))).filterMap Piece.slot?
        =
      columns.map (ColumnSlot.mk use) := by
  rw [filterMap_intercalate (g := fun column => some ⟨use, column⟩) h fun _ => rfl]
  exact congrFun List.filterMap_eq_map' columns

@[simp]
theorem slots_insert : (insert policy table columns).slots = columns.map (ColumnSlot.mk .inserted) := by
  unfold slots pieces
  simp only [List.filterMap_append]
  rw [filterMap_verb (fun _ => rfl) rfl, filterMap_intercalate (g := fun _ => none) rfl fun _ => rfl,
    filterMap_intercalate (g := fun column => some ⟨.inserted, column⟩) rfl fun _ => rfl]
  simp [List.filterMap_cons, Piece.slot?]

@[simp]
theorem slots_delete : (delete table keys).slots = keys.map (ColumnSlot.mk .tested) := by
  unfold slots pieces condition
  rw [List.filterMap_append, slots_equations keys rfl]
  rfl

@[simp]
theorem slots_update
    : (update policy table columns keys).slots
        =
      columns.map (ColumnSlot.mk .changed) ++ keys.map (ColumnSlot.mk .tested) := by
  unfold slots pieces condition
  simp only [List.filterMap_append]
  rw [filterMap_verb (fun _ => rfl) rfl, slots_equations columns rfl, slots_equations keys rfl]
  simp [List.filterMap_cons, Piece.slot?]

end

theorem filterMap_name?_pieces (st : RowStatement) : st.pieces.filterMap Piece.name? = st.names := by
  have hequations {separator : List Piece} (h : separator.filterMap Piece.name? = []) (use : SlotUse)
      (columns : List String)
      : (separator.intercalate (columns.map (equation use))).filterMap Piece.name? = columns := by
    rw [filterMap_intercalate (g := some) h fun _ => rfl, List.filterMap_some]
  cases st with
  | insert policy table columns =>
    unfold pieces
    simp only [List.filterMap_append]
    rw [filterMap_verb (fun _ => rfl) rfl, filterMap_intercalate (g := some) rfl fun _ => rfl,
      filterMap_intercalate (g := fun _ => none) rfl fun _ => rfl]
    simp [List.filterMap_cons, Piece.name?, names]
  | delete table keys =>
    unfold pieces condition
    rw [List.filterMap_append, hequations rfl]
    rfl
  | update policy table columns keys =>
    unfold pieces condition
    simp only [List.filterMap_append]
    rw [filterMap_verb (fun _ => rfl) rfl, hequations rfl, hequations rfl]
    simp [List.filterMap_cons, Piece.name?, names]

theorem name?_of_getLast? (st : RowStatement) : ∀ p ∈ st.pieces.getLast?, p.name? = none := by
  have hend (front : List Piece) {back : List Piece} (hne : back ≠ [])
      (h : ∀ p ∈ back.getLast?, p.name? = none) : ∀ p ∈ (front ++ back).getLast?, p.name? = none := by
    rwa [List.getLast?_append_of_ne_nil _ hne]
  have hcondition (keys : List String) : ∀ p ∈ (condition keys).getLast?, p.name? = none := by
    apply forall_getLast?_intercalate
    . rintro _ ⟨⟩
      rfl
    . rintro key _ ⟨⟩
      rfl
  cases st with
  | insert policy table columns =>
    apply hend _ (List.cons_ne_nil _ _)
    rintro _ ⟨⟩
    rfl
  | delete table keys =>
    apply forall_getLast?_append _ (hcondition keys)
    rintro _ ⟨⟩
    rfl
  | update policy table columns keys =>
    apply forall_getLast?_append _ (hcondition keys)
    apply hend _ (List.cons_ne_nil _ _)
    rintro _ ⟨⟩
    rfl

end RowStatement

end DataAccess.Sql

import DataAccess.Compile.AdapterCode
import DataAccess.Proofs.Binding.Denotation
import DataAccess.Proofs.Sql.Sections
import DataAccess.Sql.Tables
import DataAccess.Sql.Verb

/-!
This module shows that a statement whose placeholders are written as question marks is read like the
statement itself, up to what the placeholders are called. No question mark joins what stands before it
to what stands behind it.
-/

namespace DataAccess

namespace Sql

def Lexeme.positional : Lexeme → Lexeme
  | .placeholder _ _ => .placeholder .anonymous ['?']
  | l => l

def Section.positional : Section → Section
  | .placeholder _ => .placeholder .anonymous
  | s => s

def positionalSource (lexemes : List Lexeme) : List Char :=
  lexemes.flatMap fun l => l.positional.source

theorem scan_cons (before : Option Char) (c : Char) (s : List Char)
    : scan before (c :: s)
        =
      (next before c s).1 :: scan (next before c s).1.trailing (next before c s).2 := by
  rw [scan]

theorem Lexeme.positional_eq (l : Lexeme)
    : (∃ p source, l = .placeholder p source) ∨ l.positional = l := by
  cases l with
  | placeholder p source => exact Or.inl ⟨p, source, rfl⟩
  | _ => exact Or.inr rfl

/-- The rest of a statement begins like before, unless it begins with a placeholder. -/
theorem positionalSource_standsFor (before : Option Char) (s : List Char)
    : StandsFor (positionalSource (scan before s)) s := by
  cases s with
  | nil =>
    rw [scan]
    exact Or.inl rfl
  | cons c s =>
    rw [scan_cons, positionalSource, List.flatMap_cons]
    obtain ⟨p, source, hl⟩ | hl := (next before c s).1.positional_eq
    . rw [hl]
      exact Or.inr ⟨List.cons_ne_nil c s, rfl⟩
    . rw [hl, source_next]
      exact Or.inl rfl

theorem Section.Written.endsRun_isDigit {p : Placeholder} {chars rest : List Char}
    (h : Written (.placeholder p) chars rest)
    : EndsRun Char.isDigit rest := by
  cases h with
  | anonymous hend => exact hend
  | numbered _ _ hend => exact hend
  | named _ _ _ hend =>
    intro c hc
    -- Digits belong to words.
    have h := hend c hc
    simp only [continuesWord, Text.isLetterOrNumeral, Bool.or_eq_false_iff] at h
    exact h.1.1.1.2

theorem scan_positional_append (before : Option Char) (c : Char) (s : List Char)
    (h : StandsFor s' (next before c s).2)
    : scan before ((next before c s).1.positional.source ++ s')
        =
      (next before c s).1.positional :: scan (next before c s).1.trailing s' := by
  obtain ⟨p, source, hl⟩ | hl := (next before c s).1.positional_eq
  . have hends : EndsRun Char.isDigit s' :=
      h.endsRun rfl (written_of_next (Prod.ext hl rfl)).endsRun_isDigit
    have hmark : next before '?' ([] ++ s') = (.placeholder .anonymous ['?'], s') :=
      next_mark before (by simp) hends
    rw [hl]
    change scan before ('?' :: ([] ++ s')) = _
    rw [scan_cons, hmark]
    rfl
  . rw [hl, source_next, List.cons_append, scan_cons, next_append before c s h]

theorem scan_positionalSource (before : Option Char) (s : List Char)
    : scan before (positionalSource (scan before s)) = (scan before s).map Lexeme.positional := by
  fun_induction scan before s with
  | case1 => rw [positionalSource, List.flatMap_nil, scan, List.map_nil]
  | case2 before c s ih =>
    rw [List.map_cons, ← ih]
    exact scan_positional_append before c s (positionalSource_standsFor _ _)

theorem Section.cons_positional (l : Lexeme) (more : List Section)
    : cons l.positional (more.map Section.positional) = (cons l more).map Section.positional := by
  cases l with
  | placeholder p source => rfl
  | _ =>
    rcases more with _ | ⟨t | p, rest⟩
    all_goals rfl

theorem foldr_cons_positional (lexemes : List Lexeme)
    : (lexemes.map Lexeme.positional).foldr Section.cons []
        =
      (lexemes.foldr Section.cons []).map Section.positional := by
  induction lexemes with
  | nil => rfl
  | cons l more ih =>
    rw [List.map_cons, List.foldr_cons, ih, Section.cons_positional]
    rfl

theorem tokens_positional (l : Lexeme) : l.positional.tokens = l.tokens := by
  cases l with
  | _ => rfl

def Section.marked : Section → List Char
  | .text chars => chars
  | .placeholder _ => ['?']

theorem Section.marked_positional (s : Section) : s.positional.marked = s.marked := by
  cases s with
  | text chars => rfl
  | placeholder p => rfl

theorem flatMap_marked_cons (l : Lexeme) (more : List Section)
    : (Section.cons l more).flatMap Section.marked
        =
      l.positional.source ++ more.flatMap Section.marked := by
  cases l with
  | placeholder p source => rfl
  | _ =>
    rcases more with _ | ⟨t | p, rest⟩
    . rfl
    . exact List.append_assoc _ _ _
    . rfl

namespace Template

theorem positional_eq (t : Template)
    : t.positional = String.ofList (positionalSource t.lexemes) := by
  change String.ofList (t.sections.flatMap Section.marked) = _
  congr 1
  unfold sections positionalSource
  induction t.lexemes with
  | nil => rfl
  | cons l more ih => rw [List.foldr_cons, List.flatMap_cons, flatMap_marked_cons, ih]

def rescanned (sql : String) : Template :=
  ofString (ofString sql).positional

theorem lexemes_rescanned (sql : String)
    : (rescanned sql).lexemes
        =
      (ofString sql).lexemes.map Lexeme.positional := by
  unfold rescanned
  rw [positional_eq]
  change scan none (String.ofList (positionalSource (scan none sql.toList))).toList = _
  rw [String.toList_ofList, scan_positionalSource]
  rfl

theorem sections_rescanned (sql : String)
    : (rescanned sql).sections
        =
      (ofString sql).sections.map Section.positional := by
  unfold sections
  rw [lexemes_rescanned, foldr_cons_positional]

theorem tokens_rescanned (sql : String) : (rescanned sql).tokens = (ofString sql).tokens := by
  unfold tokens
  rw [lexemes_rescanned, List.flatMap_map]
  exact List.flatMap_congr fun l _ => tokens_positional l

theorem placeholders_positional (sections : List Section)
    : BoundStatement.placeholdersIn (sections.map Section.positional)
        =
      List.replicate (BoundStatement.placeholdersIn sections).length .anonymous := by
  induction sections with
  | nil => rfl
  | cons s rest ih =>
    cases s with
    | text chars => exact ih
    | placeholder p => exact congrArg (Placeholder.anonymous :: ·) ih

end Template

end Sql

namespace BoundStatement

/-- Matching finds a slot for each placeholder. -/
theorem length_of_slotsOf {params : List Parameter} {highest : Nat} {sections : List Sql.Section}
    {slots : List Slot} (h : slotsOf params highest sections = .ok slots) (t : Sql.Template)
    : (BoundStatement.mk t slots).argCount = (placeholdersIn sections).length := by
  induction sections generalizing highest slots with
  | nil =>
    cases h
    rfl
  | cons s rest ih =>
    cases s with
    | text chars =>
      obtain ⟨more, hmore, rfl⟩ := cons_eq_ok_iff.1 h
      change (BoundStatement.mk t more).argCount = _
      exact ih hmore
    | placeholder p =>
      unfold slotsOf at h
      split at h
      . next i next _ =>
        split at h
        . obtain ⟨more, hmore, rfl⟩ := cons_eq_ok_iff.1 h
          exact congrArg (· + 1) (ih hmore)
        . cases h
      . cases h

end BoundStatement

/-- A statement with question marks for its placeholders has the same texts in the same places and a
nameless placeholder in each place between them, is of the same kind and names the same tables. Writing
question marks once more changes nothing. The text that is run or prepared for a method gets as many
slots as there are placeholders in it. -/
theorem Sql.Template.positional_fixed (sql : String)
    : (rescanned sql).sections = (ofString sql).sections.map Section.positional ∧
      (rescanned sql).kind = (ofString sql).kind ∧
      (rescanned sql).tables = (ofString sql).tables ∧
      (rescanned sql).positional = (ofString sql).positional ∧
      (rescanned sql).placeholders
        = List.replicate (ofString sql).placeholders.length .anonymous ∧
      ∀ (m : Method) (s : BoundStatement),
        BoundStatement.resolve m sql = .ok s →
        s.fixedStatement .fresh
          = .call .acquire
              [.text (ofString sql).positional, .number (rescanned sql).placeholders.length true] ∧
        (preparedRequest m s).value
          = .call .newSharedStatement
              [.text (ofString sql).positional, .number (rescanned sql).placeholders.length true] := by
  have hplaceholders : (rescanned sql).placeholders
      = List.replicate (ofString sql).placeholders.length .anonymous := by
    change BoundStatement.placeholdersIn (rescanned sql).sections = _
    rw [sections_rescanned]
    exact placeholders_positional (ofString sql).sections
  refine ⟨sections_rescanned sql, ?_, ?_, ?_, hplaceholders, ?_⟩
  . unfold kind
    rw [tokens_rescanned]
  . unfold tables
    rw [tokens_rescanned]
  . change String.ofList ((rescanned sql).sections.flatMap Section.marked) = _
    rw [sections_rescanned, List.flatMap_map]
    exact congrArg String.ofList (List.flatMap_congr fun s _ => s.marked_positional)
  . intro m s hs
    obtain ⟨htemplate, hslots⟩ := BoundStatement.slotsOf_of_resolve hs
    have htemplate : s.template = ofString sql := htemplate
    have hcount : s.argCount = (ofString sql).placeholders.length :=
      BoundStatement.length_of_slotsOf hslots s.template
    rw [hplaceholders, List.length_replicate, ← hcount, ← htemplate]
    exact ⟨rfl, rfl⟩

end DataAccess

import DataAccess.Proofs.Sql.Grammar
import DataAccess.Sql.Tables
import DataAccess.Sql.Verb

/-!
This module contains string literals and comments as the regions of a statement whose content is not read.
Main statement: whatever such a region contains, the placeholders, the kind and the tables of the statement
are the same, and what stands in front of the region and behind it is read as if the region were not there.
-/

namespace DataAccess.Sql

/-- The regions of a statement that are skipped, as far as they are closed. -/
inductive Region where
  | literal
  | block
  | line

namespace Region

/-- A region of this kind can have the content. -/
def Admits : Region → List Char → Prop
  | literal, _ => True
  | block, content => ¬['*', '/'] <:+: content
  | line, content => '\n' ∉ content

def source : Region → List Char → List Char
  | literal, content => '\'' :: (doubled '\'' content ++ ['\''])
  | block, content => '/' :: '*' :: (content ++ ['*', '/'])
  | line, content => '-' :: '-' :: (content ++ ['\n'])

def EndsBefore : Region → List Char → Prop
  | literal, behind => behind.head? ≠ some '\''
  | _, _ => True

def lexeme (r : Region) (content : List Char) : Lexeme :=
  match r with
  | literal => .literal (r.source content)
  | _ => .comment (r.source content)

def tokens : Region → List Token
  | literal => [.literal]
  | _ => []

variable (r : Region) (content : List Char) {behind : List Char}

theorem source_lexeme : (r.lexeme content).source = r.source content := by
  cases r with
  | _ => rfl

theorem tokens_lexeme : (r.lexeme content).tokens = r.tokens := by
  cases r with
  | _ => rfl

theorem trailing_lexeme : (r.lexeme content).trailing.any continuesWord = false := by
  have hlast (front : List Char) {c : Char} (hc : continuesWord c = false)
      : (front ++ [c]).getLast?.any continuesWord = false := by
    rw [List.getLast?_concat]
    exact hc
  cases r with
  | literal => exact hlast ('\'' :: doubled '\'' content) (by decide)
  | block =>
    have h := hlast ('/' :: '*' :: (content ++ ['*'])) (c := '/') (by decide)
    rwa [List.cons_append, List.cons_append, List.append_assoc] at h
  | line => exact hlast ('-' :: '-' :: content) (by decide)

theorem head?_source (content' : List Char)
    : (r.source content' ++ behind).head? = (r.source content ++ behind).head? := by
  cases r with
  | _ => rfl

theorem written (before : Option Char) {content : List Char} (hcontent : r.Admits content)
    (hends : r.EndsBefore behind)
    : (r.lexeme content).Written before behind := by
  cases r with
  | literal => exact .text (.closed nofun fun hhead => absurd hhead hends)
  | block => exact .block (.ended hcontent)
  | line => exact .line (.ended hcontent)

end Region

/-- What is in front of a text matters only as far as it belongs to a word. -/
theorem scan_congr {before before' : Option Char}
    (h : before.any continuesWord = before'.any continuesWord) (s : List Char)
    : scan before s = scan before' s := by
  cases s with
  | nil => rw [scan, scan]
  | cons c rest =>
    have hnext : next before c rest = next before' c rest := by
      unfold next
      rw [h]
    rw [scan, scan, hnext]

def Lexeme.placeholder? : Lexeme → Option Placeholder
  | placeholder p _ => some p
  | _ => none

theorem Region.placeholder?_lexeme (r : Region) (content : List Char)
    : (r.lexeme content).placeholder? = none := by
  cases r with
  | _ => rfl

theorem Template.placeholders_eq (t : Template)
    : t.placeholders = t.lexemes.filterMap Lexeme.placeholder? := by
  unfold placeholders sections
  induction t.lexemes with
  | nil => rfl
  | cons l more ih =>
    rw [List.foldr_cons, List.filterMap_cons, ← ih]
    generalize more.foldr Section.cons [] = sections
    cases l with
    | placeholder p source => rfl
    | _ =>
      rcases sections with _ | ⟨_ | _, _⟩
      all_goals rfl

theorem Reaches.scan_region {front behind content : List Char} {lexemes : List Lexeme} {r : Region}
    (h : Reaches front lexemes (r.source content ++ behind)) (hcontent : r.Admits content)
    (hends : r.EndsBefore behind)
    : scan none (front ++ (r.source content ++ behind))
        =
      lexemes ++ r.lexeme content :: scan none behind := by
  obtain ⟨_, before, hfront⟩ := h
  have hregion := scan_append_of_written (r.written before hcontent hends)
  have hnone : scan (r.lexeme content).trailing behind = scan none behind :=
    scan_congr (r.trailing_lexeme content) behind
  rw [r.source_lexeme, hnone] at hregion
  rw [hfront, hregion]

theorem Reaches.congr {front rest rest' : List Char} {lexemes : List Lexeme}
    (h : Reaches front lexemes rest) (hhead : rest'.head? = rest.head?)
    : Reaches front lexemes rest' := by
  obtain ⟨after, h⟩ := reaches_iff.1 h
  exact reaches_iff.2 ⟨after, h.congr hhead⟩

/-- A statement with a string literal or a comment in it, to which the scanner comes when it has read what is
in front of it as some lexemes. With any other content of the region the statement has the same placeholders,
kind and tables. In front of the region the same is read, and what is behind it is read like a statement of
its own. -/
theorem Template.content_unread (r : Region) {front behind content content' : List Char}
    {lexemes : List Lexeme} (hcontent : r.Admits content) (hcontent' : r.Admits content')
    (hends : r.EndsBefore behind) (hfront : Reaches front lexemes (r.source content ++ behind))
    : let t := ofString (String.ofList (front ++ (r.source content ++ behind)))
      let t' := ofString (String.ofList (front ++ (r.source content' ++ behind)))
      let rest := ofString (String.ofList behind)
      t'.placeholders = t.placeholders ∧ t'.kind = t.kind ∧ t'.tables = t.tables ∧
        t.lexemes = lexemes ++ r.lexeme content :: rest.lexemes ∧
        t'.lexemes = lexemes ++ r.lexeme content' :: rest.lexemes := by
  intro t t' rest
  have hlexemes : t.lexemes = lexemes ++ r.lexeme content :: rest.lexemes := by
    simpa [t, rest, ofString] using hfront.scan_region hcontent hends
  have hlexemes' : t'.lexemes = lexemes ++ r.lexeme content' :: rest.lexemes := by
    have hfront' := hfront.congr (r.head?_source content content')
    simpa [t', rest, ofString] using hfront'.scan_region hcontent' hends
  have htokens : t'.tokens = t.tokens := by
    unfold tokens
    rw [hlexemes, hlexemes']
    simp [r.tokens_lexeme]
  refine ⟨?_, ?_, ?_, hlexemes, hlexemes'⟩
  . rw [placeholders_eq, placeholders_eq, hlexemes, hlexemes']
    simp [r.placeholder?_lexeme]
  . unfold kind
    rw [htokens]
  . unfold tables
    rw [htokens]

/-- A literal with a placeholder and a table in it, between a comment and a placeholder of the statement. -/
theorem Template.content_unread_literal
    : let t := ofString "SELECT /*?*/':no'' FROM posts',:name FROM users"
      let t' := ofString "SELECT /*?*/'',:name FROM users"
      t'.placeholders = t.placeholders ∧ t'.kind = t.kind ∧ t'.tables = t.tables ∧
        t.placeholders = [.named ':' "name"] ∧ t.tables = ["users"] := by
  intro t t'
  have hreaches : Reaches "SELECT /*?*/".toList
      [.word "SELECT".toList, .blank ' ', .comment "/*?*/".toList]
      (Region.literal.source ":no' FROM posts".toList ++ ",:name FROM users".toList) :=
    ⟨by decide +kernel, some '/', by decide +kernel⟩
  have hempty : Region.literal.Admits [] := trivial
  have hends : ",:name FROM users".toList.head? ≠ some '\'' := by decide +kernel
  obtain ⟨hplaceholders, hkind, htables, _⟩ := content_unread .literal trivial hempty hends hreaches
  exact ⟨hplaceholders, hkind, htables, by decide +kernel, by decide +kernel⟩

end DataAccess.Sql

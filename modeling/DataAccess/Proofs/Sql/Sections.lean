import DataAccess.Proofs.Sql.Lookahead
import DataAccess.Sql.Template
import Mathlib.Data.List.Chain
import Mathlib.Data.Nat.Digits.Defs

/-!
This module shows that the sections of a statement are the statement, cut into pieces: nothing is lost
and nothing is invented, texts are as long as they can be, and so are the names and numbers of
placeholders.
-/

namespace DataAccess.Sql

def decimalValue (digits : List Char) : Nat :=
  Nat.ofDigits 10 (digits.reverse.map fun d => d.toNat - '0'.toNat)

namespace Section

inductive Written : Section → List Char → List Char → Prop where
  | text (hne : chars ≠ []) : Written (.text chars) chars rest
  | anonymous (hend : EndsRun Char.isDigit rest) : Written (.placeholder .anonymous) ['?'] rest
  | numbered (hne : digits ≠ []) (hdigits : ∀ d ∈ digits, d.isDigit = true)
    (hend : EndsRun Char.isDigit rest) :
    Written (.placeholder (.numbered (min (2 ^ 64 - 1) (decimalValue digits)))) ('?' :: digits) rest
  | named (hsigil : sigil ∈ [':', '@', '$']) (hfirst : startsWord first = true)
    (hletters : ∀ c ∈ letters, continuesWord c = true) (hend : EndsRun continuesWord rest) :
    Written (.placeholder (.named sigil (String.ofList (first :: letters))))
      (sigil :: first :: letters) rest

def isText : Section → Bool
  | .text _ => true
  | .placeholder _ => false

/-- A text is cut into sections, each of which is written in its place. -/
inductive Cut : List Section → List Char → Prop where
  | nil : Cut [] []
  | cons (hfirst : Written s chars rest) (hrest : Cut sections rest) :
    Cut (s :: sections) (chars ++ rest)

/-- A lexeme in front makes a placeholder, a longer text or a new one. -/
theorem cons_cases (l : Lexeme) (more : List Section)
    : (∃ p source, l = .placeholder p source ∧ cons l more = .placeholder p :: more) ∨
      (∃ t rest, more = .text t :: rest ∧ cons l more = .text (l.source ++ t) :: rest) ∨
      ((∀ s, more.head? = some s → s.isText = false) ∧ cons l more = .text l.source :: more) := by
  fun_cases cons l more
  case case1 p source => exact Or.inl ⟨p, source, rfl, rfl⟩
  case case2 t rest _ => exact Or.inr (Or.inl ⟨t, rest, rfl, rfl⟩)
  case case3 _ hmore =>
    refine Or.inr (Or.inr ⟨?_, rfl⟩)
    intro s hs
    cases s with
    | placeholder p => rfl
    | text t =>
      obtain ⟨rest, rfl⟩ := List.head?_eq_some_iff.1 hs
      exact (hmore t rest rfl).elim

end Section

theorem slotNumber_eq (digits : List Char)
    : slotNumber digits = min (2 ^ 64 - 1) (decimalValue digits) := by
  unfold slotNumber decimalValue
  rw [Nat.ofDigits_eq_foldr, List.foldr_map, List.foldr_reverse]
  change min (2 ^ 64 - 1) _ = _
  congr 2
  funext n d
  simp
  omega

theorem written_mark (s : List Char)
    : let digits := s.takeWhile Char.isDigit
      (Section.placeholder (if digits.isEmpty then .anonymous else .numbered (slotNumber digits))).Written
        ('?' :: digits) (s.dropWhile Char.isDigit) := by
  intro digits
  have hends : EndsRun Char.isDigit (s.dropWhile Char.isDigit) := .dropWhile _ s
  split
  . next hempty =>
    rw [List.isEmpty_iff.1 hempty]
    exact .anonymous hends
  . next hdigits =>
    rw [slotNumber_eq]
    exact .numbered (mt List.isEmpty_iff.2 hdigits) (fun _ => List.mem_takeWhile_imp) hends

theorem written_named {sigil : Char} {s : List Char} (hsigil : isSigil sigil = true)
    (hstart : s.head?.any startsWord = true)
    : (Section.placeholder (.named sigil (String.ofList (s.takeWhile continuesWord)))).Written
        (sigil :: s.takeWhile continuesWord) (s.dropWhile continuesWord) := by
  have hends : EndsRun continuesWord (s.dropWhile continuesWord) := .dropWhile _ s
  cases s with
  | nil => cases hstart
  | cons first more =>
    have hfirst : startsWord first = true := hstart
    rw [List.takeWhile_cons_of_pos (continuesWord_of_startsWord hfirst)]
    apply Section.Written.named _ hfirst (fun _ => List.mem_takeWhile_imp) hends
    simpa [isSigil, or_assoc] using hsigil

theorem written_of_next {before : Option Char} {c : Char} {s source rest : List Char}
    {p : Placeholder} (h : next before c s = (.placeholder p source, rest))
    : (Section.placeholder p).Written source rest := by
  revert h
  fun_cases next before c s
  case case6 _ _ _ _ _ hc _ _ =>
    intro h
    obtain ⟨hmark, rfl⟩ := Prod.mk.inj h
    obtain ⟨rfl, rfl⟩ := Lexeme.placeholder.inj hmark
    rw [hc]
    exact written_mark s
  case case8 _ _ _ _ _ _ _ hnamed _ =>
    intro h
    cases h
    simp only [Bool.and_eq_true] at hnamed
    exact written_named hnamed.1.1 hnamed.2
  all_goals
    intro h
    cases h

namespace Section

theorem Cut.lengthen {t chars front : List Char} {more : List Section}
    (h : Cut (.text t :: more) chars) (hfront : front ≠ [])
    : Cut (.text (front ++ t) :: more) (front ++ chars) := by
  obtain _ | ⟨_ | _, hrest⟩ := h
  rw [← List.append_assoc]
  exact .cons (.text (List.append_ne_nil_of_left_ne_nil hfront t)) hrest

theorem cut_scan (before : Option Char) (s : List Char)
    : Cut ((scan before s).foldr Section.cons []) s := by
  fun_induction scan before s with
  | case1 => exact .nil
  | case2 before c rest ih =>
    have hne := next_source_ne_nil before c rest
    rw [← next_source_append before c rest]
    rcases hn : next before c rest with ⟨l, after⟩
    rw [hn] at ih hne
    rw [List.foldr_cons]
    dsimp only at ih hne ⊢
    generalize (scan l.trailing after).foldr Section.cons [] = more at ih ⊢
    obtain ⟨p, source, rfl, hcons⟩ | ⟨t, others, rfl, hcons⟩ | ⟨_, hcons⟩ := cons_cases l more
    . rw [hcons]
      exact .cons (written_of_next hn) ih
    . rw [hcons]
      exact ih.lengthen hne
    . rw [hcons]
      exact .cons (.text hne) ih

/-- Two sections of which at most one is a text. -/
def Apart (a b : Section) : Prop :=
  ¬(a.isText = true ∧ b.isText = true)

theorem isChain_apart (lexemes : List Lexeme)
    : (lexemes.foldr Section.cons []).IsChain Apart := by
  induction lexemes with
  | nil => exact .nil
  | cons l more ih =>
    rw [List.foldr_cons]
    generalize more.foldr Section.cons [] = sections at ih ⊢
    obtain ⟨p, source, _, hcons⟩ | ⟨t, rest, rfl, hcons⟩ | ⟨hmore, hcons⟩ := cons_cases l sections
    . rw [hcons]
      exact List.isChain_cons.2 ⟨fun s _ h => Bool.false_ne_true h.1, ih⟩
    . rw [hcons]
      -- Being next to a text is the same for all texts.
      obtain ⟨hnext, hrest⟩ := List.isChain_cons.1 ih
      exact List.isChain_cons.2 ⟨hnext, hrest⟩
    . rw [hcons]
      refine List.isChain_cons.2 ⟨fun s hs h => ?_, ih⟩
      rw [hmore s hs] at h
      exact Bool.false_ne_true h.2

end Section

/-- Every text, also one that leaves a quotation or a comment open, is cut into its sections. Each of
them is written as it stands in the text: no text is empty or next to another one, and names and numbers
are as long as they can be. -/
theorem Template.cut_sections (sql : String)
    : Section.Cut (ofString sql).sections sql.toList ∧
        (ofString sql).sections.IsChain Section.Apart :=
  ⟨Section.cut_scan none sql.toList, Section.isChain_apart _⟩

end DataAccess.Sql

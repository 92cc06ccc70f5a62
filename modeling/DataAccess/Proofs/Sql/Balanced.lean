import DataAccess.Proofs.Sql.Unread

/-!
This module contains texts in which all that is opened is closed. Main statement: such a text in parentheses is
passed over by the search for the main verb, whatever verbs, literals and comments there are in it.
-/

namespace DataAccess.Sql

/-- Each literal, quoted name and comment of a text is closed, and the parentheses outside of them are
balanced. -/
inductive Balanced : List Char → Prop where
  | nil : Balanced []
  | region (r : Region) (hcontent : r.Admits content) (hends : r.EndsBefore rest) (hrest : Balanced rest) :
    Balanced (r.source content ++ rest)
  | quoted (hquotes : NameQuotes start close) (hname : close = ']' → ']' ∉ name)
    (hends : rest.head? = some close → close = ']') (hrest : Balanced rest) :
    Balanced (start :: (doubled close name ++ [close]) ++ rest)
  | parens (hinside : Balanced inside) (hrest : Balanced rest) : Balanced ('(' :: (inside ++ ')' :: rest))
  | other (hc : c ∉ ['\'', '"', '\x60', '[', '(', ')']) (hline : c = '-' → rest.head? ≠ some '-')
    (hblock : c = '/' → rest.head? ≠ some '*') (hrest : Balanced rest) : Balanced (c :: rest)

def tokensBehind (before : Option Char) (s : List Char) : List Token :=
  (scan before s).flatMap Lexeme.tokens

/-- The search for the main verb comes from a text to what is behind it and has found nothing, if at least so
many parentheses are open. -/
def PassedOver (outer : Nat) (s rest : List Char) : Prop :=
  ∀ before, ∃ after, ∀ depth, outer ≤ depth →
    mainVerb depth (tokensBehind before s) = mainVerb depth (tokensBehind after rest)

section

variable {depth : Nat} {t : Token} {more : List Token}

theorem mainVerb_word {text : String}
    (h : depth ≠ 0 ∨ StatementKind.ofVerb (text.map Char.toUpper) = .other)
    : mainVerb depth (.word text :: more) = mainVerb depth more := by
  refine if_neg ?_
  rintro ⟨hdepth, hverb⟩
  rcases h with h | h
  . exact h hdepth
  . exact hverb h

theorem mainVerb_verb {text : String} (h : StatementKind.ofVerb (text.map Char.toUpper) ≠ .other)
    : mainVerb 0 (.word text :: more) = .ofVerb (text.map Char.toUpper) :=
  if_pos ⟨rfl, h⟩

theorem mainVerb_symbol {c : Char} (hopen : c ≠ '(') (hclose : c ≠ ')')
    : mainVerb depth (.symbol c :: more) = mainVerb depth more := by
  rw [mainVerb.eq_4]
  . rfl
  . simpa using hopen
  . simpa using hclose

end

section

variable {outer : Nat} {s middle rest : List Char}

theorem tokensBehind_of_written {before : Option Char} {l : Lexeme} (h : l.Written before rest)
    : tokensBehind before (l.source ++ rest) = l.tokens ++ tokensBehind l.trailing rest := by
  unfold tokensBehind
  rw [scan_append_of_written h, List.flatMap_cons]

namespace PassedOver

theorem refl (outer : Nat) (s : List Char) : PassedOver outer s s :=
  fun before => ⟨before, fun _ _ => rfl⟩

theorem trans (h : PassedOver outer s middle) (h' : PassedOver outer middle rest)
    : PassedOver outer s rest := by
  intro before
  obtain ⟨between, hbetween⟩ := h before
  obtain ⟨after, hafter⟩ := h' between
  exact ⟨after, fun depth hdepth => (hbetween depth hdepth).trans (hafter depth hdepth)⟩

theorem mono {outer' : Nat} (h : PassedOver outer s rest) (hle : outer ≤ outer') : PassedOver outer' s rest := by
  intro before
  obtain ⟨after, hafter⟩ := h before
  exact ⟨after, fun depth hdepth => hafter depth (hle.trans hdepth)⟩

theorem of_written {l : Lexeme} (h : ∀ before, l.Written before rest)
    (htokens : ∀ depth more, outer ≤ depth → mainVerb depth (l.tokens ++ more) = mainVerb depth more)
    : PassedOver outer (l.source ++ rest) rest := by
  intro before
  refine ⟨l.trailing, fun depth hdepth => ?_⟩
  rw [tokensBehind_of_written (h before), htokens depth _ hdepth]

theorem region {r : Region} {content : List Char} (hcontent : r.Admits content) (hends : r.EndsBefore rest)
    : PassedOver outer (r.source content ++ rest) rest := by
  have hregion : PassedOver outer ((r.lexeme content).source ++ rest) rest := by
    apply of_written fun before => r.written before hcontent hends
    intro depth more _
    cases r with
    | _ => rfl
  rwa [r.source_lexeme] at hregion

theorem quoted {start close : Char} {name : List Char} (hquotes : NameQuotes start close)
    (hname : close = ']' → ']' ∉ name) (hends : rest.head? = some close → close = ']')
    : PassedOver outer (start :: (doubled close name ++ [close]) ++ rest) rest := by
  let source := start :: (doubled close name ++ [close])
  have hwritten (before : Option Char) : (Lexeme.quoted source name).Written before rest :=
    .quoted hquotes (.closed hname hends)
  exact of_written hwritten fun _ _ _ => rfl

theorem parens (h : PassedOver 1 (s ++ ')' :: rest) (')' :: rest))
    : PassedOver 0 ('(' :: (s ++ ')' :: rest)) rest := by
  have halone {c : Char} (hc : c ∈ ['(', ')']) (before : Option Char) (rest : List Char)
      : (Lexeme.symbol c).Written before rest := by
    apply Lexeme.Written.symbol
    rcases List.mem_pair.1 hc with rfl | rfl
    all_goals
      constructor
      case named => rfl
      all_goals first
        | decide
        | rintro ⟨⟩
  intro before
  obtain ⟨between, hbetween⟩ := h (some '(')
  refine ⟨some ')', fun depth _ => ?_⟩
  have hopen := tokensBehind_of_written (halone (c := '(') (by decide) before (s ++ ')' :: rest))
  have hclose := tokensBehind_of_written (halone (c := ')') (by decide) between rest)
  calc
    mainVerb depth (tokensBehind before ('(' :: (s ++ ')' :: rest)))
    _ = mainVerb (depth + 1) (tokensBehind (some '(') (s ++ ')' :: rest)) := congrArg (mainVerb depth) hopen
    _ = mainVerb (depth + 1) (tokensBehind between (')' :: rest)) := hbetween (depth + 1) (Nat.le_add_left 1 depth)
    _ = mainVerb depth (tokensBehind (some ')') rest) := congrArg (mainVerb (depth + 1)) hclose

end PassedOver

namespace Balanced

def openers : List Char :=
  ['\'', '"', '\x60', '[', '(', ')', '-', '/']

theorem of_cons {c : Char} (h : Balanced (c :: s)) (hc : c ∉ openers) : Balanced s := by
  generalize htext : c :: s = text at h
  cases h with
  | nil => cases htext
  | region r =>
    exfalso
    cases r with
    | _ =>
      cases htext
      exact hc (by decide)
  | quoted hquotes =>
    exfalso
    cases htext
    cases hquotes with
    | _ => exact hc (by decide)
  | parens =>
    exfalso
    cases htext
    exact hc (by decide)
  | other _ _ _ hrest =>
    cases htext
    exact hrest

theorem dropWhile {p : Char → Bool} (hp : openers.any p = false) (h : Balanced s)
    : Balanced (s.dropWhile p) := by
  induction s with
  | nil => exact h
  | cons c s ih =>
    rw [List.dropWhile_cons]
    split
    . next hc =>
      refine ih (h.of_cons fun hmem => ?_)
      rw [List.any_eq_false] at hp
      exact hp c hmem hc
    . exact h

theorem append_of_plain {run : List Char} (hrun : run.all (fun c => c ∉ openers) = true) (h : Balanced s)
    : Balanced (run ++ s) := by
  induction run with
  | nil => exact h
  | cons c run ih =>
    obtain ⟨hplain, hrun⟩ := Bool.and_eq_true_iff.1 hrun
    have hc := of_decide_eq_true hplain
    refine .other (fun hmem => hc ?_) (fun hdash => absurd ?_ hc) (fun hslash => absurd ?_ hc) (ih hrun)
    . exact List.mem_append_left ['-', '/'] hmem
    . rw [hdash]
      decide
    . rw [hslash]
      decide

end Balanced

theorem head_of_append_paren {x : Char} (hx : x ≠ ')') (h : (s ++ ')' :: rest).head? = some x)
    : s.head? = some x := by
  cases s with
  | nil => exact absurd (Option.some.inj h).symm hx
  | cons => exact h

/-- A lexeme that begins with a character of no meaning for the balance ends in front of the parenthesis, and
the rest of the text is balanced. -/
theorem next_other {c : Char} (hc : c ∉ ['\'', '"', '\x60', '[', '(', ')'])
    (hline : c = '-' → s.head? ≠ some '-') (hblock : c = '/' → s.head? ≠ some '*') (h : Balanced s)
    (before : Option Char) (rest : List Char)
    : ∃ s', (next before c (s ++ ')' :: rest)).2 = s' ++ ')' :: rest ∧ Balanced s' ∧ s'.length ≤ s.length ∧
        ∀ depth more, 1 ≤ depth →
          mainVerb depth ((next before c (s ++ ')' :: rest)).1.tokens ++ more) = mainVerb depth more := by
  have hrun {p : Char → Bool} (hclose : p ')' = false) (hp : Balanced.openers.any p = false)
      : ∃ s', (s ++ ')' :: rest).dropWhile p = s' ++ ')' :: rest ∧ Balanced s' ∧ s'.length ≤ s.length := by
    refine ⟨s.dropWhile p, ?_, h.dropWhile hp, (List.dropWhile_sublist p).length_le⟩
    rw [List.dropWhile_append]
    split
    . next hnil =>
      rw [List.isEmpty_iff.1 hnil, List.dropWhile_cons, hclose]
      rfl
    . rfl
  simp only [List.mem_cons, List.not_mem_nil, or_false, not_or] at hc
  obtain ⟨hliteral, hdouble, hback, hbracket, hopen, hclose⟩ := hc
  fun_cases next before c (s ++ ')' :: rest)
  case case1 heq _ => exact absurd heq hliteral
  case case2 heq _ =>
    rcases heq with heq | heq
    . exact absurd heq hdouble
    . exact absurd heq hback
  case case3 heq _ => exact absurd heq hbracket
  case case4 heq _ => exact absurd (head_of_append_paren (by decide) heq.2) (hline heq.1)
  case case5 heq _ => exact absurd (head_of_append_paren (by decide) heq.2) (hblock heq.1)
  case case6 =>
    obtain ⟨s', hs', hbalanced, hle⟩ := hrun (p := Char.isDigit) (by decide) (by decide)
    exact ⟨s', hs', hbalanced, hle, fun _ _ _ => rfl⟩
  case case7 heq =>
    obtain ⟨s', rfl⟩ := List.head?_eq_some_iff.1 (head_of_append_paren (by decide) heq.2)
    exact ⟨s', rfl, h.of_cons (by decide), Nat.le_succ _, fun _ _ _ => rfl⟩
  case case8 =>
    obtain ⟨s', hs', hbalanced, hle⟩ := hrun (p := continuesWord) (by decide) (by decide)
    exact ⟨s', hs', hbalanced, hle, fun _ _ _ => rfl⟩
  case case9 =>
    obtain ⟨s', hs', hbalanced, hle⟩ := hrun (p := continuesWord) (by decide) (by decide)
    exact ⟨s', hs', hbalanced, hle, fun _ _ hdepth => mainVerb_word (.inl (Nat.ne_of_gt hdepth))⟩
  case case10 =>
    obtain ⟨s', hs', hbalanced, hle⟩ := hrun (p := continuesNumber) (by decide) (by decide)
    exact ⟨s', hs', hbalanced, hle, fun _ _ _ => rfl⟩
  case case11 => exact ⟨s, rfl, h, Nat.le_refl _, fun _ _ _ => rfl⟩
  case case12 => exact ⟨s, rfl, h, Nat.le_refl _, fun _ _ _ => mainVerb_symbol hopen hclose⟩

theorem Balanced.passedOver (h : Balanced s) (rest : List Char)
    : PassedOver 1 (s ++ ')' :: rest) (')' :: rest) := by
  -- A lexeme may be made of many characters, so the induction is on what is left behind it.
  induction hn : s.length using Nat.strong_induction_on generalizing s rest with
  | _ n ih =>
  subst hn
  have hlater {s' : List Char} (h' : Balanced s') (hlt : s'.length < s.length) (rest : List Char)
      : PassedOver 1 (s' ++ ')' :: rest) (')' :: rest) := ih s'.length hlt h' rest rfl
  cases h with
  | nil => exact .refl 1 _
  | @region content s' r hcontent hends hrest =>
    have hends : r.EndsBefore (s' ++ ')' :: rest) := by
      cases r with
      | literal => exact fun hquote => hends (head_of_append_paren (by decide) hquote)
      | block | line => trivial
    have hlt : s'.length < (r.source content ++ s').length := by
      rw [List.length_append]
      refine Nat.lt_add_of_pos_left (List.length_pos_iff.2 ?_)
      cases r with
      | _ => exact List.cons_ne_nil _ _
    rw [List.append_assoc]
    exact (PassedOver.region hcontent hends).trans (hlater hrest hlt rest)
  | @quoted start close name s' hquotes hname hends hrest =>
    have hends : (s' ++ ')' :: rest).head? = some close → close = ']' := by
      intro hhead
      refine hends (head_of_append_paren ?_ hhead)
      cases hquotes with
      | _ => decide
    have hlt : s'.length < (start :: (doubled close name ++ [close]) ++ s').length := by
      rw [List.length_append]
      exact Nat.lt_add_of_pos_left (Nat.succ_pos _)
    rw [List.append_assoc]
    exact (PassedOver.quoted hquotes hname hends).trans (hlater hrest hlt rest)
  | @parens inside s' hinside hrest =>
    have hlength : ('(' :: (inside ++ ')' :: s')).length = inside.length + (s'.length + 1) + 1 := by
      rw [List.length_cons, List.length_append, List.length_cons]
    have hparens := (hlater hinside (by omega) (s' ++ ')' :: rest)).parens.mono (Nat.zero_le 1)
    rw [List.cons_append, List.append_assoc]
    exact hparens.trans (hlater hrest (by omega) rest)
  | @other c rest' hc hline hblock hrest =>
    intro before
    obtain ⟨s', hs', hbalanced, hle, htokens⟩ := next_other hc hline hblock hrest before rest
    obtain ⟨after, hafter⟩ := hlater hbalanced (Nat.lt_succ_of_le hle) rest _
    refine ⟨after, fun depth hdepth => ?_⟩
    rw [← hafter depth hdepth]
    unfold tokensBehind
    rw [List.cons_append, scan, hs', List.flatMap_cons, htokens depth _ hdepth]

end

end DataAccess.Sql

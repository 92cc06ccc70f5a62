import DataAccess.Proofs.Sql.Sections

/-!
This module contains the lexical grammar of statements: how each lexeme is written, and what it stands
between. Main statement: the scanner cuts a text into lexemes as the grammar does, and there is no other way
to cut it.
-/

namespace DataAccess.Sql

def doubled (close : Char) (content : List Char) : List Char :=
  content.flatMap fun c => if c = close then [close, close] else [c]

/-- A text is written in front of a closing quote, or of the end of the statement. A closing bracket
cannot be doubled, so that it is in no text. -/
inductive UpToQuote (close : Char) (content : List Char) : List Char → List Char → Prop where
  | closed (hbracket : close = ']' → ']' ∉ content) (hend : rest.head? = some close → close = ']') :
    UpToQuote close content (doubled close content ++ [close]) rest
  | unclosed (hbracket : close = ']' → ']' ∉ content) :
    UpToQuote close content (doubled close content) []

inductive UpToLineEnd : List Char → List Char → Prop where
  | ended (hbody : '\n' ∉ body) : UpToLineEnd (body ++ ['\n']) rest
  | unended (hbody : '\n' ∉ body) : UpToLineEnd body []

inductive UpToBlockEnd : List Char → List Char → Prop where
  | ended (hbody : ¬['*', '/'] <:+: body) : UpToBlockEnd (body ++ ['*', '/']) rest
  | unended (hbody : ¬['*', '/'] <:+: body) : UpToBlockEnd body []

inductive NameQuotes : Char → Char → Prop where
  | double : NameQuotes '"' '"'
  | back : NameQuotes '\x60' '\x60'
  | brackets : NameQuotes '[' ']'

structure StandsAlone (before : Option Char) (c : Char) (rest : List Char) : Prop where
  begins : c ∉ ['\'', '"', '\x60', '[', '?']
  word : startsWord c = false
  number : c.isDigit = false
  blank : Text.isBlank c = false
  line : c = '-' → rest.head? ≠ some '-'
  block : c = '/' → rest.head? ≠ some '*'
  cast : c = ':' → rest.head? ≠ some ':'
  named : (isSigil c && !before.any continuesWord && rest.head?.any startsWord) = false

namespace Lexeme

/-- A lexeme is written like this between the last character of the text in front of it and the text
behind it. -/
inductive Written (before : Option Char) : Lexeme → List Char → Prop where
  | blank (hc : Text.isBlank c = true) (hword : startsWord c = false) : Written before (.blank c) rest
  | line (h : UpToLineEnd body rest) : Written before (.comment ('-' :: '-' :: body)) rest
  | block (h : UpToBlockEnd body rest) : Written before (.comment ('/' :: '*' :: body)) rest
  | text (h : UpToQuote '\'' content chars rest) : Written before (.literal ('\'' :: chars)) rest
  | number (hc : c.isDigit = true) (hword : startsWord c = false)
    (hdigits : ∀ d ∈ digits, continuesNumber d = true) (hend : EndsRun continuesNumber rest) :
    Written before (.literal (c :: digits)) rest
  | quoted (hquotes : NameQuotes start close) (h : UpToQuote close name chars rest) :
    Written before (.quoted (start :: chars) name) rest
  | word (hc : startsWord c = true) (hletters : ∀ d ∈ letters, continuesWord d = true)
    (hend : EndsRun continuesWord rest) : Written before (.word (c :: letters)) rest
  | cast : Written before .cast rest
  | symbol (h : StandsAlone before c rest) : Written before (.symbol c) rest
  | placeholder (h : (Section.placeholder p).Written chars rest)
    (hbefore : ∀ sigil name, p = .named sigil name → before.any continuesWord = false) :
    Written before (.placeholder p chars) rest

end Lexeme

/-- A text is cut into lexemes, where `rest` is behind it. It stands behind one character, and `rest` stands
behind the other one. -/
inductive ReadsAs (rest : List Char)
    : Option Char → List Char → List Lexeme → Option Char → Prop where
  | nil : ReadsAs rest before [] [] before
  | cons (hfirst : l.Written before (more ++ rest)) (hmore : ReadsAs rest l.trailing more lexemes after) :
    ReadsAs rest before (l.source ++ more) (l :: lexemes) after

theorem isDigit_of_isBlank {c : Char} (h : Text.isBlank c = true) : c.isDigit = false := by
  rw [Bool.eq_false_iff]
  intro hdigit
  simp only [Text.isBlank, Char.isWhitespace, Text.Ranges.has, Bool.or_eq_true, Bool.and_eq_true,
    beq_iff_eq, decide_eq_true_eq, or_assoc] at h
  rcases h with rfl | rfl | rfl | rfl | rfl | rfl | ⟨h, _⟩
  case inr.inr.inr.inr.inr.inr =>
    simp only [Char.isDigit, ge_iff_le, Bool.and_eq_true, decide_eq_true_eq] at hdigit
    have hle : c.toNat ≤ 57 := hdigit.2
    omega
  all_goals revert hdigit; decide

section

variable {close : Char} {content source rest s : List Char}

theorem doubled_cons_of_eq (close : Char) (content : List Char)
    : doubled close (close :: content) = close :: close :: doubled close content := by
  simp [doubled]

theorem doubled_cons_of_ne {c : Char} (h : c ≠ close) (content : List Char)
    : doubled close (c :: content) = c :: doubled close content := by
  simp [doubled, h]

theorem doubled_of_not_mem (h : close ∉ content) : doubled close content = content := by
  induction content with
  | nil => rfl
  | cons c content ih =>
    obtain ⟨hc, hcontent⟩ := not_or.1 (mt List.mem_cons.2 h)
    rw [doubled_cons_of_ne (Ne.symm hc), ih hcontent]

namespace UpToQuote

theorem cons_inside {c : Char} (h : UpToQuote close content source rest) (hc : c ≠ close)
    : UpToQuote close (c :: content) (c :: source) rest := by
  have hnot (hbracket : close = ']' → ']' ∉ content) (hclose : close = ']') : ']' ∉ c :: content :=
    List.not_mem_cons_of_ne_of_not_mem (hclose ▸ hc.symm) (hbracket hclose)
  cases h with
  | closed hbracket hend =>
    have h := UpToQuote.closed (hnot hbracket) hend
    rwa [doubled_cons_of_ne hc] at h
  | unclosed hbracket =>
    have h := UpToQuote.unclosed (hnot hbracket)
    rwa [doubled_cons_of_ne hc] at h

theorem cons_doubled (h : UpToQuote close content source rest) (hclose : close ≠ ']')
    : UpToQuote close (close :: content) (close :: close :: source) rest := by
  cases h with
  | closed _ hend =>
    have h : UpToQuote close (close :: content) _ rest := .closed (fun h => absurd h hclose) hend
    rwa [doubled_cons_of_eq] at h
  | unclosed =>
    have h : UpToQuote close (close :: content) _ [] := .unclosed fun h => absurd h hclose
    rwa [doubled_cons_of_eq] at h

end UpToQuote

namespace Quotation

theorem upToQuote_read (close : Char) (s : List Char)
    : UpToQuote close (read close s).content (read close s).source (read close s).rest := by
  fun_induction read close s with
  | case1 => exact .unclosed fun _ => List.not_mem_nil
  | case2 d more hdoubled ih =>
    obtain ⟨rfl, hclose⟩ := hdoubled
    exact ih.cons_doubled hclose
  | case3 d more hend =>
    refine .closed (fun _ => List.not_mem_nil) fun hhead => ?_
    by_contra hclose
    exact hend ⟨Option.some.inj hhead, hclose⟩
  | case4 => exact .closed (fun _ => List.not_mem_nil) fun h => absurd h (Option.some_ne_none close).symm
  | case5 c rest hne ih => exact ih.cons_inside hne

theorem read_doubled (hbracket : close = ']' → ']' ∉ content) (s : List Char)
    : read close (doubled close content ++ s)
        =
      ⟨doubled close content ++ (read close s).source, content ++ (read close s).content,
        (read close s).rest⟩ := by
  induction content with
  | nil => rfl
  | cons c content ih =>
    have hcontent := ih fun hclose hmem => hbracket hclose (List.mem_cons_of_mem c hmem)
    by_cases hc : c = close
    . subst hc
      have hne : c ≠ ']' := by
        rintro rfl
        exact hbracket rfl List.mem_cons_self
      rw [doubled_cons_of_eq, List.cons_append, List.cons_append, read_escaped hne, hcontent]
      rfl
    . rw [doubled_cons_of_ne hc, List.cons_append, read_inside hc, hcontent]
      rfl

theorem read_of_upToQuote (h : UpToQuote close content source rest)
    : read close (source ++ rest) = ⟨source, content, rest⟩ := by
  cases h with
  | closed hbracket hend =>
    have hread : read close ([close] ++ rest) = ⟨[close], [], rest⟩ := read_closed hend
    rw [List.append_assoc, read_doubled hbracket, hread]
    simp
  | unclosed hbracket =>
    rw [read_doubled hbracket, read]
    simp

end Quotation

theorem upToLineEnd_splitLine (s : List Char) : UpToLineEnd (splitLine s).1 (splitLine s).2 := by
  have hcons {c : Char} {body rest : List Char} (hc : c ≠ '\n') (h : UpToLineEnd body rest)
      : UpToLineEnd (c :: body) rest := by
    cases h with
    | ended hbody =>
      have hnot := List.not_mem_cons_of_ne_of_not_mem hc.symm hbody
      exact UpToLineEnd.ended hnot
    | unended hbody => exact .unended (List.not_mem_cons_of_ne_of_not_mem hc.symm hbody)
  fun_induction splitLine s with
  | case1 => exact .unended List.not_mem_nil
  | case2 => exact UpToLineEnd.ended List.not_mem_nil
  | case3 c rest hc ih => exact hcons hc ih

theorem splitLine_of_upToLineEnd {line : List Char} (h : UpToLineEnd line rest)
    : splitLine (line ++ rest) = (line, rest) := by
  have hbody {body : List Char} (hbody : '\n' ∉ body) (s : List Char)
      : splitLine (body ++ s) = (body ++ (splitLine s).1, (splitLine s).2) := by
    induction body with
    | nil => rfl
    | cons c body ih =>
      have hc := List.ne_of_not_mem_cons hbody
      rw [List.cons_append, splitLine, if_neg hc.symm, ih (List.not_mem_of_not_mem_cons hbody)]
      rfl
  cases h with
  | ended hnot =>
    rw [List.append_assoc, hbody hnot]
    rfl
  | unended hnot => rw [hbody hnot, splitLine, List.append_nil]

theorem upToBlockEnd_splitBlockComment (s : List Char)
    : UpToBlockEnd (splitBlockComment s).1 (splitBlockComment s).2 := by
  have hnil : ¬['*', '/'] <:+: ([] : List Char) := by simp
  fun_induction splitBlockComment s with
  | case1 => exact .unended hnil
  | case2 => exact UpToBlockEnd.ended hnil
  | case3 c rest hopen ih =>
    have hsplit := splitBlockComment_append rest
    -- An end that begins with the first character is the one that has been excluded.
    have hcons {body more : List Char} (hrest : body ++ more = rest) (hbody : ¬['*', '/'] <:+: body)
        : ¬['*', '/'] <:+: c :: body := by
      rw [List.infix_cons_iff, List.cons_prefix_cons]
      rintro (⟨rfl, tail, rfl⟩ | hinfix)
      . exact hopen _ rfl hrest.symm
      . exact hbody hinfix
    generalize (splitBlockComment rest).1 = line, (splitBlockComment rest).2 = behind at ih hsplit
    cases ih with
    | ended hbody =>
      rw [List.append_assoc] at hsplit
      exact UpToBlockEnd.ended (hcons hsplit hbody)
    | unended hbody => exact .unended (hcons hsplit hbody)

theorem splitBlockComment_of_upToBlockEnd {block : List Char} (h : UpToBlockEnd block rest)
    : splitBlockComment (block ++ rest) = (block, rest) := by
  have hbody {body s : List Char} (hbody : ¬['*', '/'] <:+: body) (hs : s.head? ≠ some '/')
      : splitBlockComment (body ++ s) = (body ++ (splitBlockComment s).1, (splitBlockComment s).2) := by
    induction body with
    | nil => rfl
    | cons c body ih =>
      rw [List.infix_cons_iff, not_or, List.cons_prefix_cons] at hbody
      have hopen : ∀ more, c = '*' → body ++ s = '/' :: more → False := by
        rintro more rfl hmore
        cases body with
        | nil => exact hs (congrArg List.head? hmore)
        | cons d body =>
          obtain rfl := (List.cons.inj hmore).1
          exact hbody.1 ⟨rfl, body, rfl⟩
      rw [List.cons_append, splitBlockComment.eq_3 _ _ hopen, ih hbody.2]
      rfl
  cases h with
  | ended hnot =>
    rw [List.append_assoc, hbody hnot (by simp)]
    rfl
  | unended hnot => rw [hbody hnot (by simp), splitBlockComment, List.append_nil]

namespace Lexeme

variable {before : Option Char} {l : Lexeme}

theorem written_next (before : Option Char) (c : Char) (s : List Char)
    : (next before c s).1.Written before (next before c s).2 := by
  fun_cases next before c s
  case case1 hc q =>
    subst hc
    exact .text (Quotation.upToQuote_read _ _)
  case case2 hc q =>
    rcases hc with rfl | rfl
    . exact .quoted .double (Quotation.upToQuote_read _ _)
    . exact .quoted .back (Quotation.upToQuote_read _ _)
  case case3 hc q =>
    subst hc
    exact .quoted .brackets (Quotation.upToQuote_read _ _)
  case case4 hc line =>
    obtain ⟨rfl, hs⟩ := hc
    obtain ⟨more, rfl⟩ := List.head?_eq_some_iff.1 hs
    exact .line (upToLineEnd_splitLine more)
  case case5 hc block =>
    obtain ⟨rfl, hs⟩ := hc
    obtain ⟨more, rfl⟩ := List.head?_eq_some_iff.1 hs
    exact .block (upToBlockEnd_splitBlockComment more)
  case case6 hc digits p =>
    subst hc
    refine .placeholder (written_mark s) fun sigil name hp => ?_
    unfold p at hp
    split at hp
    . cases hp
    . cases hp
  case case7 hc => exact .cast
  case case8 hnamed name =>
    simp only [Bool.and_eq_true, Bool.not_eq_true'] at hnamed
    obtain ⟨⟨hsigil, hbefore⟩, hstart⟩ := hnamed
    exact .placeholder (written_named hsigil hstart) fun _ _ _ => hbefore
  case case9 hword => exact .word hword (fun _ => List.mem_takeWhile_imp) (.dropWhile _ s)
  case case10 hword hnumber =>
    exact .number hnumber (by simpa using hword) (fun _ => List.mem_takeWhile_imp) (.dropWhile _ s)
  case case11 hword _ hblank => exact .blank hblank (by simpa using hword)
  case case12 hliteral hquoted hbracket hline hblock hmark hcast hnamed hword hnumber hblank =>
    obtain ⟨hdouble, hback⟩ := not_or.1 hquoted
    exact .symbol {
      begins := by simp [hliteral, hdouble, hback, hbracket, hmark]
      word := by simpa using hword
      number := by simpa using hnumber
      blank := by simpa using hblank
      line := fun hc hs => hline ⟨hc, hs⟩
      block := fun hc hs => hblock ⟨hc, hs⟩
      cast := fun hc hs => hcast ⟨hc, hs⟩
      named := Bool.eq_false_iff.2 hnamed }

theorem Written.next (h : l.Written before rest)
    : ∃ c tail, l.source = c :: tail ∧ Sql.next before c (tail ++ rest) = (l, rest) := by
  cases h with
  | @blank c _ hc hword =>
    refine ⟨c, [], rfl, (next_plain before hc rfl).trans ?_⟩
    rw [hword, isDigit_of_isBlank hc, hc]
    rfl
  | @line body _ h =>
    have hline : splitLine ('-' :: (body ++ rest)) = ('-' :: body, rest) := by
      rw [splitLine, if_neg (by decide), splitLine_of_upToLineEnd h]
    refine ⟨'-', '-' :: body, rfl, (next_line before rfl).trans ?_⟩
    rw [List.cons_append, hline]
  | @block body _ h =>
    refine ⟨'/', '*' :: body, rfl, ?_⟩
    rw [List.cons_append, next_block, splitBlockComment_of_upToBlockEnd h]
  | @text content chars _ h =>
    refine ⟨'\'', chars, rfl, ?_⟩
    rw [next_literal, Quotation.read_of_upToQuote h]
  | @number c digits _ hc hword hdigits hend =>
    exact ⟨c, digits, rfl, next_number before hc hword hdigits hend⟩
  | @quoted start close name chars _ hquotes h =>
    refine ⟨start, chars, rfl, ?_⟩
    cases hquotes with
    | double => rw [next_quoted before (.inl rfl), Quotation.read_of_upToQuote h]
    | back => rw [next_quoted before (.inr rfl), Quotation.read_of_upToQuote h]
    | brackets => rw [next_bracketed, Quotation.read_of_upToQuote h]
  | @word c letters _ hc hletters hend => exact ⟨c, letters, rfl, next_word before hc hletters hend⟩
  | cast => exact ⟨':', [':'], rfl, rfl⟩
  | @symbol c _ h =>
    have hbegins := h.begins
    simp only [List.mem_cons, List.not_mem_nil, or_false, not_or] at hbegins
    obtain ⟨hliteral, hdouble, hback, hbracket, hmark⟩ := hbegins
    refine ⟨c, [], rfl, (next_single before hliteral (not_or.2 ⟨hdouble, hback⟩) hbracket (not_and.2 h.line)
      (not_and.2 h.block) hmark (not_and.2 h.cast) h.named h.word h.number).trans ?_⟩
    rw [h.blank]
    rfl
  | @placeholder p chars _ h hbefore =>
    cases h with
    | anonymous hend => exact ⟨'?', [], rfl, next_mark before (List.forall_mem_nil _) hend⟩
    | numbered hne hdigits hend =>
      refine ⟨'?', _, rfl, (next_mark before hdigits hend).trans ?_⟩
      rw [if_neg (mt List.isEmpty_iff.1 hne), slotNumber_eq]
    | @named sigil first letters _ hsigil hfirst hletters hend =>
      have hname : ∀ c ∈ first :: letters, continuesWord c = true :=
        List.forall_mem_cons.2 ⟨continuesWord_of_startsWord hfirst, hletters⟩
      have hsigil : isSigil sigil = true := by simpa [isSigil, or_assoc] using hsigil
      exact ⟨sigil, first :: letters, rfl, next_named before hsigil (hbefore _ _ rfl) hfirst hname hend⟩

theorem Written.congr (h : l.Written before rest) (hhead : s.head? = rest.head?) : l.Written before s := by
  have hends {p : Char → Bool} (hend : EndsRun p rest) : EndsRun p s := by
    intro c hc
    exact hend c (hhead ▸ hc)
  have hnil (hrest : rest = []) : s = [] := by
    subst hrest
    exact List.head?_eq_none_iff.1 hhead
  have hquote {close : Char} {content chars : List Char} (h : UpToQuote close content chars rest)
      : UpToQuote close content chars s := by
    cases h with
    | closed hbracket hend => exact .closed hbracket (hhead ▸ hend)
    | unclosed hbracket =>
      rw [hnil rfl]
      exact .unclosed hbracket
  cases h with
  | blank hc hword => exact .blank hc hword
  | line h =>
    cases h with
    | ended hbody => exact .line (.ended hbody)
    | unended hbody =>
      rw [hnil rfl]
      exact .line (.unended hbody)
  | block h =>
    cases h with
    | ended hbody => exact .block (.ended hbody)
    | unended hbody =>
      rw [hnil rfl]
      exact .block (.unended hbody)
  | text h => exact .text (hquote h)
  | number hc hword hdigits hend => exact .number hc hword hdigits (hends hend)
  | quoted hquotes h => exact .quoted hquotes (hquote h)
  | word hc hletters hend => exact .word hc hletters (hends hend)
  | cast => exact .cast
  | symbol h =>
    exact .symbol { h with
      line := hhead ▸ h.line
      block := hhead ▸ h.block
      cast := hhead ▸ h.cast
      named := hhead ▸ h.named }
  | placeholder h hbefore =>
    refine .placeholder ?_ hbefore
    cases h with
    | anonymous hend => exact .anonymous (hends hend)
    | numbered hne hdigits hend => exact .numbered hne hdigits (hends hend)
    | named hsigil hfirst hletters hend => exact .named hsigil hfirst hletters (hends hend)

end Lexeme

theorem scan_append_of_written {before : Option Char} {l : Lexeme} (h : l.Written before rest)
    : scan before (l.source ++ rest) = l :: scan l.trailing rest := by
  obtain ⟨c, tail, hsource, hnext⟩ := h.next
  rw [hsource, List.cons_append, scan, hnext]

end

namespace ReadsAs

variable {rest front : List Char} {before after : Option Char} {lexemes : List Lexeme}

theorem scan_append (h : ReadsAs rest before front lexemes after)
    : scan before (front ++ rest) = lexemes ++ scan after rest := by
  induction h with
  | nil => rfl
  | cons hfirst _ ih => rw [List.append_assoc, scan_append_of_written hfirst, ih, List.cons_append]

theorem of_scan (before : Option Char) (s : List Char) : ∃ after, ReadsAs [] before s (scan before s) after := by
  fun_induction scan before s with
  | case1 before => exact ⟨before, .nil⟩
  | case2 before c rest ih =>
    obtain ⟨after, hmore⟩ := ih
    have hfirst := Lexeme.written_next before c rest
    rw [← List.append_nil (next before c rest).2] at hfirst
    refine ⟨after, ?_⟩
    rw [← next_source_append before c rest]
    exact .cons hfirst hmore

theorem append {middle : Option Char} {more : List Char} {lexemes' : List Lexeme}
    (h : ReadsAs (more ++ rest) before front lexemes middle) (h' : ReadsAs rest middle more lexemes' after)
    : ReadsAs rest before (front ++ more) (lexemes ++ lexemes') after := by
  induction h with
  | nil => exact h'
  | cons hfirst _ ih =>
    rw [List.append_assoc]
    rw [← List.append_assoc] at hfirst
    exact .cons hfirst (ih h')

/-- What a text stands in front of matters by its first character only. -/
theorem congr {s : List Char} (h : ReadsAs rest before front lexemes after) (hhead : s.head? = rest.head?)
    : ReadsAs s before front lexemes after := by
  induction h with
  | nil => exact .nil
  | @cons more _ _ _ _ hfirst _ ih =>
    refine .cons (hfirst.congr ?_) ih
    cases more with
    | nil => exact hhead
    | cons => rfl

theorem flatMap_source (h : ReadsAs rest before front lexemes after)
    : lexemes.flatMap Lexeme.source = front := by
  induction h with
  | nil => rfl
  | cons _ _ ih => rw [List.flatMap_cons, ih]

theorem part {first : List Lexeme} (h : ReadsAs rest before front (first ++ lexemes) after)
    : ∃ middle chars more, chars ++ more = front ∧ ReadsAs (more ++ rest) before chars first middle := by
  induction first generalizing before front with
  | nil => exact ⟨before, [], front, rfl, .nil⟩
  | cons l first ih =>
    obtain _ | ⟨hfirst, hmore⟩ := h
    obtain ⟨middle, chars, more, rfl, hchars⟩ := ih hmore
    rw [List.append_assoc] at hfirst
    exact ⟨middle, _, more, List.append_assoc _ _ _, .cons hfirst hchars⟩

end ReadsAs

def Reaches (front : List Char) (lexemes : List Lexeme) (rest : List Char) : Prop :=
  lexemes.flatMap Lexeme.source = front ∧
    ∃ before, scan none (front ++ rest) = lexemes ++ scan before rest

theorem reaches_iff {front rest : List Char} {lexemes : List Lexeme}
    : Reaches front lexemes rest ↔ ∃ after, ReadsAs rest none front lexemes after := by
  constructor
  . rintro ⟨hsource, before, hscan⟩
    obtain ⟨after, h⟩ := ReadsAs.of_scan none (front ++ rest)
    rw [hscan] at h
    obtain ⟨middle, chars, more, heq, hchars⟩ := h.part
    obtain rfl := hchars.flatMap_source.symm.trans hsource
    obtain rfl := List.append_cancel_left heq
    rw [List.append_nil] at hchars
    exact ⟨middle, hchars⟩
  . rintro ⟨after, h⟩
    exact ⟨h.flatMap_source, after, h.scan_append⟩

/-- A text is scanned as some lexemes if and only if it is cut into them by the grammar. -/
theorem scan_eq_iff {s : List Char} {lexemes : List Lexeme}
    : scan none s = lexemes ↔ ∃ after, ReadsAs [] none s lexemes after := by
  constructor
  . rintro rfl
    exact ReadsAs.of_scan none s
  . rintro ⟨after, h⟩
    have hscan := h.scan_append
    rwa [List.append_nil, scan, List.append_nil] at hscan

end DataAccess.Sql

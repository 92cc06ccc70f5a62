import DataAccess.Sql.Lexeme
import Mathlib.Data.List.TakeWhile

/-!
This module contains how far the scanner looks ahead: a lexeme depends on its own characters and on the
first one behind it, and a question mark there is as good as any other character that has ended the
lexeme.
-/

namespace DataAccess.Sql

def EndsRun (p : Char → Bool) (s : List Char) : Prop :=
  ∀ c, s.head? = some c → p c = false

/-- A text can stand for another one behind a lexeme: it begins like the other one, or it begins with a
question mark where the other one begins with whatever character. -/
def StandsFor (s' s : List Char) : Prop :=
  s'.head? = s.head? ∨ s ≠ [] ∧ s'.head? = some '?'

variable {p : Char → Bool} {s s' rest rest' : List Char}

theorem EndsRun.dropWhile (p : Char → Bool) (s : List Char) : EndsRun p (s.dropWhile p) := by
  intro c hc
  have h := List.head?_dropWhile_not p s
  rw [hc] at h
  exact h

theorem takeWhile_append_of_ends {run : List Char} (hrun : ∀ c ∈ run, p c = true)
    (hs : EndsRun p s)
    : (run ++ s).takeWhile p = run := by
  rw [List.takeWhile_append_of_pos hrun]
  cases s with
  | nil => simp
  | cons c more => simp [hs c rfl]

theorem dropWhile_append_of_ends {run : List Char} (hrun : ∀ c ∈ run, p c = true)
    (hs : EndsRun p s)
    : (run ++ s).dropWhile p = s := by
  rw [List.dropWhile_append_of_pos hrun]
  cases s with
  | nil => rfl
  | cons c more => simp [hs c rfl]

namespace StandsFor

theorem nil (h : StandsFor s' []) : s' = [] := by
  rcases h with h | ⟨hne, _⟩
  . exact List.head?_eq_none_iff.1 h
  . exact absurd rfl hne

theorem append (h : StandsFor s' s) (front : List Char) : StandsFor (front ++ s') (front ++ s) := by
  cases front with
  | nil => exact h
  | cons => exact Or.inl rfl

theorem head (h : StandsFor s' s) {c : Char} (hc : c ≠ '?') (hs : s'.head? = some c)
    : s.head? = some c := by
  rcases h with h | ⟨_, h⟩
  . rw [← h, hs]
  . rw [h] at hs
    cases hs
    exact absurd rfl hc

theorem endsRun (h : StandsFor s' s) (hp : p '?' = false) (hs : EndsRun p s) : EndsRun p s' := by
  intro c hc
  by_cases hmark : c = '?'
  . rw [hmark]
    exact hp
  . exact hs c (h.head hmark hc)

theorem head_any (h : StandsFor s' s) (hp : p '?' = false) (hs : s.head?.any p = false)
    : s'.head?.any p = false := by
  rcases h with h | ⟨_, h⟩
  . rw [h, hs]
  . rw [h]
    exact hp

end StandsFor

namespace Quotation

variable {close c : Char}

theorem read_escaped (hclose : close ≠ ']') (s : List Char)
    : read close (close :: close :: s) = cons [close, close] close (read close s) := by
  rw [read, if_pos rfl, if_pos ⟨rfl, hclose⟩]

theorem read_closed (h : s.head? = some close → close = ']')
    : read close (close :: s) = ⟨[close], [], s⟩ := by
  cases s with
  | nil => simp [read]
  | cons d more =>
    have hend : ¬(d = close ∧ close ≠ ']') := by
      rintro ⟨rfl, hne⟩
      exact hne (h rfl)
    rw [read, if_pos rfl, if_neg hend]

theorem read_inside (h : c ≠ close) (s : List Char)
    : read close (c :: s) = cons [c] c (read close s) := by
  rw [read.eq_def]
  exact if_neg h

theorem read_append (hclose : close ≠ '?') (s : List Char)
    (h : StandsFor s' (read close s).rest)
    : read close ((read close s).source ++ s') = { read close s with rest := s' } := by
  fun_induction read close s with
  | case1 =>
    rw [h.nil]
    rfl
  | case2 d more hdoubled ih =>
    obtain ⟨rfl, hbracket⟩ := hdoubled
    exact (read_escaped hbracket _).trans (congrArg (cons [d, d] d) (ih h))
  | case3 d more hend =>
    apply read_closed
    intro hhead
    by_contra hbracket
    exact hend ⟨Option.some.inj (h.head hclose hhead), hbracket⟩
  | case4 =>
    rw [h.nil]
    exact read_closed (by simp)
  | case5 c rest hne ih =>
    exact (read_inside hne _).trans (congrArg (cons [c] c) (ih h))

end Quotation

theorem splitLine_append_of_standsFor (s : List Char) (h : StandsFor s' (splitLine s).2)
    : splitLine ((splitLine s).1 ++ s') = ((splitLine s).1, s') := by
  fun_induction splitLine s with
  | case1 =>
    rw [h.nil]
    rfl
  | case2 => rfl
  | case3 c rest hc ih =>
    change splitLine (c :: ((splitLine rest).1 ++ s')) = _
    rw [splitLine, if_neg hc, ih h]

theorem splitBlockComment_append_of_standsFor (s : List Char)
    (h : StandsFor s' (splitBlockComment s).2)
    : splitBlockComment ((splitBlockComment s).1 ++ s') = ((splitBlockComment s).1, s') := by
  fun_induction splitBlockComment s with
  | case1 =>
    rw [h.nil]
    rfl
  | case2 => rfl
  | case3 c rest hopen ih =>
    have hstill : ∀ more, c = '*' → (splitBlockComment rest).1 ++ s' = '/' :: more → False := by
      intro more hc hmore
      have hrest : StandsFor ((splitBlockComment rest).1 ++ s') rest := by
        have h := h.append (splitBlockComment rest).1
        rwa [splitBlockComment_append] at h
      have hslash : rest.head? = some '/' := hrest.head (by decide) (by rw [hmore]; rfl)
      obtain ⟨tail, rfl⟩ := List.head?_eq_some_iff.1 hslash
      exact hopen tail hc rfl
    change splitBlockComment (c :: ((splitBlockComment rest).1 ++ s')) = _
    rw [splitBlockComment.eq_3 _ _ hstill, ih h]

section Next

variable (before : Option Char) {c : Char}

theorem next_literal (s : List Char)
    : next before '\'' s
        =
      (.literal ('\'' :: (Quotation.read '\'' s).source), (Quotation.read '\'' s).rest) := rfl

theorem next_quoted (hc : c = '"' ∨ c = '\x60') (s : List Char)
    : next before c s
        =
      (.quoted (c :: (Quotation.read c s).source) (Quotation.read c s).content,
        (Quotation.read c s).rest) := by
  rcases hc with rfl | rfl
  . rfl
  . rfl

theorem next_bracketed (s : List Char)
    : next before '[' s
        =
      (.quoted ('[' :: (Quotation.read ']' s).source) (Quotation.read ']' s).content,
        (Quotation.read ']' s).rest) := rfl

theorem next_line (h : s.head? = some '-')
    : next before '-' s = (.comment ('-' :: (splitLine s).1), (splitLine s).2) := by
  obtain ⟨more, rfl⟩ := List.head?_eq_some_iff.1 h
  rfl

theorem next_block (s : List Char)
    : next before '/' ('*' :: s)
        =
      (.comment ('/' :: '*' :: (splitBlockComment s).1), (splitBlockComment s).2) := rfl

/-- A question mark takes all digits behind it for its number. -/
theorem next_mark {digits : List Char} (hdigits : ∀ d ∈ digits, d.isDigit = true)
    (hs : EndsRun Char.isDigit s)
    : next before '?' (digits ++ s)
        =
      (.placeholder (if digits.isEmpty then .anonymous else .numbered (slotNumber digits))
        ('?' :: digits), s) := by
  have hmark (s : List Char) : next before '?' s
      = (.placeholder (if (s.takeWhile Char.isDigit).isEmpty then .anonymous
            else .numbered (slotNumber (s.takeWhile Char.isDigit)))
          ('?' :: s.takeWhile Char.isDigit), s.dropWhile Char.isDigit) := rfl
  rw [hmark, takeWhile_append_of_ends hdigits hs, dropWhile_append_of_ends hdigits hs]

theorem next_named {name : List Char} (hc : isSigil c = true)
    (hbefore : before.any continuesWord = false) (hstart : name.head?.any startsWord = true)
    (hname : ∀ d ∈ name, continuesWord d = true) (hs : EndsRun continuesWord s)
    : next before c (name ++ s)
        =
      (.placeholder (.named c (String.ofList name)) (c :: name), s) := by
  have hhead : (name ++ s).head? = name.head? := by
    cases name with
    | nil => cases hstart
    | cons => rfl
  have hcolon : name.head? ≠ some ':' := by
    intro hcolon
    rw [hcolon] at hstart
    cases hstart
  have hne : ∀ d ∈ ['\'', '"', '\x60', '[', '-', '/', '?'], c ≠ d := by
    have hsigil : c = ':' ∨ c = '@' ∨ c = '$' := by simpa [isSigil, or_assoc] using hc
    rcases hsigil with rfl | rfl | rfl
    . simp
    . simp
    . simp
  have hquoted : ¬(c = '"' ∨ c = '\x60') := not_or.2 ⟨hne _ (by decide), hne _ (by decide)⟩
  unfold next
  rw [if_neg (hne _ (by decide)), if_neg hquoted, if_neg (hne _ (by decide)),
    if_neg fun h => hne '-' (by decide) h.1, if_neg fun h => hne '/' (by decide) h.1,
    if_neg (hne _ (by decide)), hhead, if_neg fun h => hcolon h.2, hc, hbefore, hstart,
    takeWhile_append_of_ends hname hs, dropWhile_append_of_ends hname hs]
  rfl

def marks : List Char :=
  ['\'', '"', '\x60', '[', '-', '/', '?', ':', '@', '$']

theorem next_plain {kind : Char → Bool} (hc : kind c = true) (hkind : marks.any kind = false)
    : next before c s
        =
      if startsWord c then (.word (c :: s.takeWhile continuesWord), s.dropWhile continuesWord)
      else if c.isDigit then
        (.literal (c :: s.takeWhile continuesNumber), s.dropWhile continuesNumber)
      else if Text.isBlank c then (.blank c, s)
      else (.symbol c, s) := by
  have hne (d : Char) (hd : d ∈ marks) : c ≠ d := by
    rintro rfl
    exact List.any_eq_false.1 hkind c hd hc
  have hsigil : isSigil c = false := by
    simp [isSigil, hne ':' (by decide), hne '@' (by decide), hne '$' (by decide)]
  have hquoted : ¬(c = '"' ∨ c = '\x60') := not_or.2 ⟨hne _ (by decide), hne _ (by decide)⟩
  unfold next
  rw [if_neg (hne _ (by decide)), if_neg hquoted, if_neg (hne _ (by decide)),
    if_neg fun h => hne '-' (by decide) h.1, if_neg fun h => hne '/' (by decide) h.1,
    if_neg (hne _ (by decide)), if_neg fun h => hne ':' (by decide) h.1, hsigil]
  rfl

theorem next_word {letters : List Char} (hc : startsWord c = true)
    (hletters : ∀ d ∈ letters, continuesWord d = true) (hs : EndsRun continuesWord s)
    : next before c (letters ++ s) = (.word (c :: letters), s) := by
  rw [next_plain before hc rfl, if_pos hc, takeWhile_append_of_ends hletters hs,
    dropWhile_append_of_ends hletters hs]

theorem next_number {digits : List Char} (hc : c.isDigit = true) (hword : startsWord c = false)
    (hdigits : ∀ d ∈ digits, continuesNumber d = true) (hs : EndsRun continuesNumber s)
    : next before c (digits ++ s) = (.literal (c :: digits), s) := by
  rw [next_plain before hc rfl, hword, if_neg Bool.false_ne_true, if_pos hc,
    takeWhile_append_of_ends hdigits hs, dropWhile_append_of_ends hdigits hs]

theorem next_single (hliteral : c ≠ '\'') (hquoted : ¬(c = '"' ∨ c = '\x60')) (hbracketed : c ≠ '[')
    (hline : ¬(c = '-' ∧ s.head? = some '-')) (hblock : ¬(c = '/' ∧ s.head? = some '*'))
    (hmark : c ≠ '?') (hcast : ¬(c = ':' ∧ s.head? = some ':'))
    (hnamed : (isSigil c && !before.any continuesWord && s.head?.any startsWord) = false)
    (hword : startsWord c = false) (hnumber : c.isDigit = false)
    : next before c s = (if Text.isBlank c then .blank c else .symbol c, s) := by
  unfold next
  rw [if_neg hliteral, if_neg hquoted, if_neg hbracketed, if_neg hline, if_neg hblock, if_neg hmark,
    if_neg hcast, hnamed, hword, hnumber]
  simp only [Bool.false_eq_true, if_false]
  split
  . rfl
  . rfl

end Next

theorem source_next (before : Option Char) (c : Char) (s : List Char)
    : (next before c s).1.source = c :: (next before c s).1.source.tail := by
  have h := next_source_append before c s
  cases hsource : (next before c s).1.source with
  | nil => exact absurd hsource (next_source_ne_nil before c s)
  | cons d tail =>
    rw [hsource] at h
    rw [(List.cons.inj h).1]
    rfl

theorem continuesWord_of_startsWord {c : Char} (h : startsWord c = true)
    : continuesWord c = true := by
  unfold startsWord at h
  unfold continuesWord
  rw [Bool.or_eq_true] at h ⊢
  exact h.imp_left Text.isLetterOrNumeral_of_isLetter

theorem startsWord_head_takeWhile (h : s.head?.any startsWord = true)
    : (s.takeWhile continuesWord).head?.any startsWord = true := by
  cases s with
  | nil => cases h
  | cons d more =>
    have hd : startsWord d = true := h
    simp [continuesWord_of_startsWord hd, hd]

theorem next_append (before : Option Char) (c : Char) (s : List Char)
    (h : StandsFor s' (next before c s).2)
    : next before c ((next before c s).1.source.tail ++ s') = ((next before c s).1, s') := by
  have hrun (p : Char → Bool) : ∀ d ∈ s.takeWhile p, p d = true := fun _ => List.mem_takeWhile_imp
  have hends (p : Char → Bool) (hp : p '?' = false) (h : StandsFor s' (s.dropWhile p))
      : EndsRun p s' := h.endsRun hp (.dropWhile p s)
  generalize hn : next before c s = n at h ⊢
  -- One case for each lexeme, in the order in which they are tried.
  unfold next at hn
  by_cases hliteral : c = '\''
  case pos =>
    rw [if_pos hliteral] at hn
    subst hn hliteral
    refine (next_literal before _).trans ?_
    rw [Lexeme.source, List.tail_cons, Quotation.read_append (by decide) s h]
  rw [if_neg hliteral] at hn
  by_cases hquoted : c = '"' ∨ c = '\x60'
  case pos =>
    rw [if_pos hquoted] at hn
    subst hn
    refine (next_quoted before hquoted _).trans ?_
    have hmark : c ≠ '?' := by
      rintro rfl
      revert hquoted
      decide
    rw [Lexeme.source, List.tail_cons, Quotation.read_append hmark s h]
  rw [if_neg hquoted] at hn
  by_cases hbracketed : c = '['
  case pos =>
    rw [if_pos hbracketed] at hn
    subst hn hbracketed
    refine (next_bracketed before _).trans ?_
    rw [Lexeme.source, List.tail_cons, Quotation.read_append (by decide) s h]
  rw [if_neg hbracketed] at hn
  by_cases hline : c = '-' ∧ s.head? = some '-'
  case pos =>
    rw [if_pos hline] at hn
    obtain ⟨rfl, hs⟩ := hline
    obtain ⟨more, rfl⟩ := List.head?_eq_some_iff.1 hs
    subst hn
    refine (next_line before rfl).trans ?_
    rw [Lexeme.source, List.tail_cons, splitLine_append_of_standsFor _ h]
  rw [if_neg hline] at hn
  by_cases hblock : c = '/' ∧ s.head? = some '*'
  case pos =>
    rw [if_pos hblock] at hn
    obtain ⟨rfl, hs⟩ := hblock
    obtain ⟨more, rfl⟩ := List.head?_eq_some_iff.1 hs
    subst hn
    refine (next_block before _).trans ?_
    exact congrArg (fun b => (Lexeme.comment ('/' :: '*' :: b.1), b.2))
      (splitBlockComment_append_of_standsFor more h)
  rw [if_neg hblock] at hn
  by_cases hmark : c = '?'
  case pos =>
    rw [if_pos hmark] at hn
    subst hn hmark
    exact next_mark before (hrun _) (hends _ rfl h)
  rw [if_neg hmark] at hn
  by_cases hcast : c = ':' ∧ s.head? = some ':'
  case pos =>
    rw [if_pos hcast] at hn
    obtain ⟨rfl, hs⟩ := hcast
    subst hn
    rfl
  rw [if_neg hcast] at hn
  by_cases hnamed : (isSigil c && !before.any continuesWord && s.head?.any startsWord) = true
  case pos =>
    rw [if_pos hnamed] at hn
    subst hn
    simp only [Bool.and_eq_true, Bool.not_eq_true'] at hnamed
    obtain ⟨⟨hsigil, hbefore⟩, hstart⟩ := hnamed
    exact next_named before hsigil hbefore (startsWord_head_takeWhile hstart) (hrun _)
      (hends _ rfl h)
  rw [if_neg hnamed] at hn
  by_cases hword : startsWord c = true
  case pos =>
    rw [if_pos hword] at hn
    subst hn
    exact next_word before hword (hrun _) (hends _ rfl h)
  rw [if_neg hword] at hn
  by_cases hnumber : c.isDigit = true
  case pos =>
    rw [if_pos hnumber] at hn
    subst hn
    exact next_number before hnumber (by simpa using hword) (hrun _) (hends _ rfl h)
  rw [if_neg hnumber] at hn
  have hsingle : next before c s' = (if Text.isBlank c then .blank c else .symbol c, s') := by
    have hs' : StandsFor s' s := by
      split at hn
      . subst hn
        exact h
      . subst hn
        exact h
    have hnot {a d : Char} (hd : d ≠ '?') (hs : ¬(c = a ∧ s.head? = some d))
        : ¬(c = a ∧ s'.head? = some d) := by
      rintro ⟨rfl, hhead⟩
      exact hs ⟨rfl, hs'.head hd hhead⟩
    apply next_single before hliteral hquoted hbracketed (hnot (by decide) hline)
      (hnot (by decide) hblock) hmark (hnot (by decide) hcast) _ (by simpa using hword)
      (by simpa using hnumber)
    rw [Bool.and_eq_false_iff]
    rcases Bool.and_eq_false_iff.1 (Bool.eq_false_iff.2 hnamed) with hleft | hright
    . exact Or.inl hleft
    . exact Or.inr (hs'.head_any rfl hright)
  split at hn
  case isTrue hc =>
    subst hn
    rwa [if_pos hc] at hsingle
  case isFalse hc =>
    subst hn
    rwa [if_neg hc] at hsingle

end DataAccess.Sql

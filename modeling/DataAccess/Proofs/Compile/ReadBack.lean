import DataAccess.Proofs.Compile.Aligned
import DataAccess.Proofs.Sql.FromLists
import DataAccess.Proofs.Sql.Unread

/-!
This module contains what the scanner makes of the statements of adapters. Main statement: the names in such a
statement are scanned as they are if and only if none of them has a backtick. Then the statement names its
table and no other, and has one anonymous placeholder for each slot of the adapter.
-/

namespace DataAccess.Sql

def Lexeme.quotedName? : Lexeme → Option String
  | quoted _ name => some (String.ofList name)
  | _ => none

def Template.quotedNames (t : Template) : List String :=
  t.lexemes.filterMap Lexeme.quotedName?

namespace Quotation

variable {close d : Char} {behind : List Char}

theorem content_read_closed (hd : d ≠ close) : (read close (close :: d :: behind)).content = [] := by
  have hclosed : read close (close :: d :: behind) = ⟨[close], [], d :: behind⟩ :=
    read_closed fun hhead => absurd (Option.some.inj hhead) hd
  rw [hclosed]

/-- A text that has the closing quote in it is not read as it is. The quote that is meant to close it stands
in front of another character. -/
theorem content_read_ne (hclose : close ≠ ']') (hd : d ≠ close) (content : List Char) (k : Nat)
    (h : 0 < k ∨ close ∈ content)
    : (read close (content ++ close :: d :: behind)).content ≠ List.replicate k close ++ content := by
  have hfront (k : Nat) (s : List Char)
      : List.replicate k close ++ close :: s = close :: (List.replicate k close ++ s) := by
    rw [List.append_cons, ← List.replicate_succ', List.replicate_succ, List.cons_append]
  -- In front stand the quotes by which the text is longer than what is read of it.
  match content with
  | [] =>
    have hk := h.resolve_right List.not_mem_nil
    rw [List.nil_append, content_read_closed hd, List.append_nil]
    intro hnil
    exact absurd ((List.replicate_eq_nil_iff close).1 hnil.symm) hk.ne'
  | c :: more =>
    rw [List.cons_append]
    by_cases hc : close = c
    . subst hc
      rw [hfront]
      cases more with
      | nil =>
        rw [List.nil_append, read_escaped hclose, read_inside hd, List.append_nil]
        intro hcontent
        have hreplicate := (List.cons.inj hcontent).2
        cases k with
        | zero => cases hreplicate
        | succ k => exact hd (List.cons.inj hreplicate).1
      | cons d' more =>
        rw [List.cons_append]
        by_cases hd' : close = d'
        . subst hd'
          rw [read_escaped hclose, hfront]
          intro hcontent
          exact content_read_ne hclose hd more (k + 1) (Or.inl (Nat.succ_pos k)) (List.cons.inj hcontent).2
        . rw [content_read_closed (Ne.symm hd')]
          nofun
    . rw [read_inside (Ne.symm hc)]
      cases k with
      | zero =>
        intro hcontent
        have hmore := h.resolve_left (Nat.lt_irrefl 0)
        have hmem := (List.mem_cons.1 hmore).resolve_left hc
        exact content_read_ne hclose hd more 0 (Or.inr hmem) (List.cons.inj hcontent).2
      | succ k =>
        intro hcontent
        exact hc (List.cons.inj hcontent).1.symm
termination_by content.length

end Quotation

namespace Piece

def separates : Piece → Bool
  | blank => true
  | symbol c => c ∈ ['(', ')', ',', '=']
  | _ => false

/-- The piece is what it looks like: words are words and symbols separate. -/
def sound : Piece → Bool
  | word letters =>
    match letters.toList with
    | c :: more => startsWord c && more.all continuesWord
    | [] => false
  | symbol c => (symbol c).separates
  | _ => true

def lexeme (p : Piece) : Lexeme :=
  match p with
  | word _ => .word p.source
  | blank => .blank ' '
  | symbol c => .symbol c
  | name text => .quoted p.source text.toList
  | slot _ => .placeholder .anonymous p.source

end Piece

def legible : List Piece → Bool
  | [] => true
  | p :: more => p.sound && (p.separates || more.head?.all Piece.separates) && legible more

section

variable {front back : List Piece}

theorem legible_append (hfront : legible front = true) (hback : legible back = true)
    (h : front.getLast?.all Piece.separates = true ∨ back.head?.all Piece.separates = true)
    : legible (front ++ back) = true := by
  induction front with
  | nil => exact hback
  | cons p more ih =>
    simp only [legible, Bool.and_eq_true, Bool.or_eq_true] at hfront
    obtain ⟨⟨hsound, hspaced⟩, hmore⟩ := hfront
    simp only [List.cons_append, legible, Bool.and_eq_true, Bool.or_eq_true]
    cases more with
    | nil =>
      refine ⟨⟨hsound, h.imp_left ?_⟩, hback⟩
      exact id
    | cons q more =>
      refine ⟨⟨hsound, hspaced⟩, ih hmore ?_⟩
      rwa [List.getLast?_cons_cons] at h

theorem legible_of_append (h : legible (front ++ back) = true) : legible back = true := by
  induction front with
  | nil => exact h
  | cons p more ih =>
    rw [List.cons_append, legible, Bool.and_eq_true] at h
    exact ih h.2

theorem legible_intercalate {γ : Type} {separator : List Piece} {part : γ → List Piece}
    (hseparator : legible separator = true) (hne : separator ≠ [])
    (hhead : separator.head?.all Piece.separates = true)
    (hlast : separator.getLast?.all Piece.separates = true) (hpart : ∀ c, legible (part c) = true)
    (cs : List γ) : legible (separator.intercalate (cs.map part)) = true := by
  apply intercalate_induction (P := fun _ s => legible s = true) rfl hpart
  intro c next more s h
  refine legible_append (legible_append (hpart c) hseparator (Or.inr hhead)) h (Or.inl ?_)
  rwa [List.getLast?_append_of_ne_nil _ hne]

end

namespace Piece

variable {p : Piece}

theorem source_lexeme (p : Piece) : p.lexeme.source = p.source := by
  cases p with
  | _ => rfl

theorem source_of_separates (h : p.separates = true)
    : ∃ c, p.source = [c] ∧ c ∈ [' ', '(', ')', ',', '='] := by
  cases p with
  | blank => exact ⟨' ', rfl, List.mem_cons_self⟩
  | symbol c => exact ⟨c, rfl, List.mem_cons_of_mem _ (of_decide_eq_true h)⟩
  | word | name | slot => cases h

theorem written (before : Option Char) {rest : List Char} (hsound : p.sound = true)
    (hname : ∀ text ∈ p.name?, '\x60' ∉ text.toList)
    (hrest : p.separates = true ∨ ∀ c ∈ rest.head?, c ∈ [' ', '(', ')', ',', '='])
    : p.lexeme.Written before rest := by
  have hends {kind : Char → Bool} (hsolid : p.separates = false)
      (hkind : [' ', '(', ')', ',', '='].all (fun c => !kind c) = true) : EndsRun kind rest := by
    intro c hc
    have hmem := hrest.resolve_left (Bool.eq_false_iff.1 hsolid) c hc
    simpa using List.all_eq_true.1 hkind c hmem
  cases p with
  | word letters =>
    have hsource : (word letters).source = letters.toList := rfl
    simp only [lexeme, hsource]
    simp only [sound] at hsound
    split at hsound
    . next c more hletters =>
      rw [Bool.and_eq_true, List.all_eq_true] at hsound
      rw [hletters]
      exact .word hsound.1 hsound.2 (hends rfl (by decide))
    . cases hsound
  | blank => exact .blank (by decide) (by decide)
  | symbol c =>
    have hc : c = '(' ∨ c = ')' ∨ c = ',' ∨ c = '=' := by simpa [sound, separates] using hsound
    rcases hc with rfl | rfl | rfl | rfl
    all_goals
      exact .symbol ⟨by decide, by decide, by decide, by decide, nofun, nofun, nofun, rfl⟩
  | name text =>
    have hquote : UpToQuote '\x60' text.toList (doubled '\x60' text.toList ++ ['\x60']) rest := by
      refine .closed (fun hclose => absurd hclose (by decide)) fun hhead => ?_
      exact absurd (hrest.resolve_left nofun _ hhead) (by decide)
    rw [doubled_of_not_mem (hname text rfl)] at hquote
    exact .quoted .back hquote
  | slot s => exact .placeholder (.anonymous (hends rfl (by decide))) nofun

end Piece

/-- Pieces are scanned as they are meant to be, as far as no name ends early. -/
theorem scan_pieces {front back : List Piece} (h : legible (front ++ back) = true)
    (hnames : ∀ p ∈ front, ∀ text ∈ p.name?, '\x60' ∉ text.toList) (before : Option Char)
    : ∃ after,
        scan before ((front ++ back).flatMap Piece.source)
          = front.map Piece.lexeme ++ scan after (back.flatMap Piece.source) := by
  induction front generalizing before with
  | nil => exact ⟨before, rfl⟩
  | cons p more ih =>
    obtain ⟨hname, hnames⟩ := List.forall_mem_cons.1 hnames
    simp only [List.cons_append, legible, Bool.and_eq_true, Bool.or_eq_true] at h
    obtain ⟨⟨hsound, hspaced⟩, hmore⟩ := h
    have hhead (hall : (more ++ back).head?.all Piece.separates = true)
        : ∀ c ∈ ((more ++ back).flatMap Piece.source).head?, c ∈ [' ', '(', ')', ',', '='] := by
      generalize more ++ back = pieces at hall
      cases pieces with
      | nil => nofun
      | cons q pieces =>
        obtain ⟨c, hc, hmem⟩ := Piece.source_of_separates hall
        rw [List.flatMap_cons, hc]
        rintro _ ⟨⟩
        exact hmem
    obtain ⟨after, hafter⟩ := ih hmore hnames p.lexeme.trailing
    refine ⟨after, ?_⟩
    have hwritten := Piece.written before hsound hname (hspaced.imp_right hhead)
    rw [List.cons_append, List.flatMap_cons, ← p.source_lexeme, scan_append_of_written hwritten, hafter]
    rfl

theorem filterMap_lexeme (pieces : List Piece)
    : (pieces.map Piece.lexeme).filterMap Lexeme.quotedName? = pieces.filterMap Piece.name? := by
  rw [List.filterMap_map]
  apply List.filterMap_congr
  intro p _
  cases p with
  | name text => exact congrArg some String.ofList_toList
  | _ => rfl

theorem quotedNames_ne {front back : List Piece} {text : String}
    (h : legible (front ++ .name text :: back) = true) (hback : back ≠ [])
    (hnames : ∀ p ∈ front, ∀ text ∈ p.name?, '\x60' ∉ text.toList) (htext : '\x60' ∈ text.toList)
    : (scan none ((front ++ .name text :: back).flatMap Piece.source)).filterMap Lexeme.quotedName?
        ≠
      (front ++ .name text :: back).filterMap Piece.name? := by
  obtain ⟨after, hscan⟩ := scan_pieces h hnames none
  obtain ⟨q, more, rfl⟩ := List.exists_cons_of_ne_nil hback
  have hseparates : q.separates = true := by
    have hsuffix := legible_of_append h
    simp only [legible, Bool.and_eq_true] at hsuffix
    exact hsuffix.1.2
  obtain ⟨d, hd, hmem⟩ := Piece.source_of_separates hseparates
  have hne : d ≠ '\x60' := by
    rintro rfl
    revert hmem
    decide
  have hsource : (Piece.name text :: q :: more).flatMap Piece.source
      = '\x60' :: (text.toList ++ '\x60' :: d :: more.flatMap Piece.source) := by
    rw [List.flatMap_cons, List.flatMap_cons, hd]
    simp [Piece.source]
  rw [hscan, hsource, scan, next_quoted after (Or.inr rfl), List.filterMap_append, filterMap_lexeme,
    List.filterMap_append]
  intro heq
  have hcontent := congrArg String.toList (List.cons.inj (List.append_cancel_left heq)).1
  rw [String.toList_ofList] at hcontent
  exact Quotation.content_read_ne (by decide) hne text.toList 0 (Or.inr htext) hcontent

namespace Piece

def tokens (p : Piece) : List Token :=
  p.lexeme.tokens

@[simp]
theorem tokens_word (letters : String) : (word letters).tokens = [.word letters] :=
  congrArg (fun text => [Token.word text]) String.ofList_toList

@[simp]
theorem tokens_blank : blank.tokens = [] := rfl

@[simp]
theorem tokens_symbol (c : Char) : (symbol c).tokens = [.symbol c] := rfl

@[simp]
theorem tokens_name (text : String) : (name text).tokens = [.quoted text] :=
  congrArg (fun text => [Token.quoted text]) String.ofList_toList

def introduces (p : Piece) : Bool :=
  p.tokens.any Token.introduces

theorem introduces_word {letters : String}
    (h : letters ∈ ["AND", "DELETE", "INSERT", "OR", "SET", "VALUES", "WHERE"])
    : (word letters).introduces = false := by
  revert letters
  decide +kernel

theorem introduces_policy (policy : ConflictPolicy) : (word policy.keyword).introduces = false := by
  cases policy with
  | _ => decide +kernel

@[simp]
theorem introduces_blank : blank.introduces = false := rfl

@[simp]
theorem introduces_symbol (c : Char) : (symbol c).introduces = false := rfl

@[simp]
theorem introduces_name (text : String) : (name text).introduces = false := rfl

@[simp]
theorem introduces_slot (s : ColumnSlot) : (slot s).introduces = false := rfl

end Piece

theorem mentions_append {front : List Piece} (h : ∀ p ∈ front, p.introduces = false) (rest : List Token)
    : mentions (front.flatMap Piece.tokens ++ rest) = mentions rest := by
  refine (Passing.eq.related_append _ rest ?_).symm
  intro t ht
  obtain ⟨p, hp, ht⟩ := List.mem_flatMap.1 ht
  exact Bool.eq_false_iff.2 (List.any_eq_false.1 (h p hp) t ht)

theorem mentions_introduced {front back : List Piece} {letters keyword : String}
    (hfront : ∀ p ∈ front, p.introduces = false) (hback : ∀ p ∈ back, p.introduces = false)
    (hkeyword : (Token.word letters).keyword = some keyword)
    : mentions ((front ++ .word letters :: back).flatMap Piece.tokens)
        =
      tablesAfter keyword (back.flatMap Piece.tokens) := by
  have hnil := mentions_append hback []
  rw [List.append_nil] at hnil
  rw [List.flatMap_append, mentions_append hfront, List.flatMap_cons, Piece.tokens_word,
    List.singleton_append, mentions, hkeyword, hnil]
  exact List.append_nil _

namespace RowStatement

theorem legible_verb {letters : String} (h : (Piece.word letters).sound = true)
    (policy : Option ConflictPolicy)
    : legible (verb letters policy) = true ∧ (verb letters policy).getLast?.all Piece.separates = true := by
  have hword (more : List Piece) (hmore : legible (.blank :: more) = true)
      : legible (.word letters :: .blank :: more) = true := by
    rw [legible, hmore, h]
    rfl
  cases policy with
  | none => exact ⟨hword [] rfl, rfl⟩
  | some policy =>
    refine ⟨hword _ ?_, rfl⟩
    cases policy with
    | _ => decide

theorem legible_condition (keys : List String) : legible (condition keys) = true :=
  legible_intercalate (by decide) (List.cons_ne_nil _ _) rfl rfl (fun _ => rfl) keys

theorem legible_list {part : String → List Piece} (h : ∀ c, legible (part c) = true) (columns : List String)
    : legible ([.symbol ','].intercalate (columns.map part)) = true :=
  legible_intercalate rfl (List.cons_ne_nil _ _) rfl rfl h columns

theorem legible_between {front list back : List Piece} (hfront : legible front = true)
    (hlist : legible list = true) (hback : legible back = true)
    (hlast : front.getLast?.all Piece.separates = true) (hfirst : back.head?.all Piece.separates = true)
    : legible (front ++ list ++ back) = true :=
  legible_append (legible_append hfront hlist (Or.inl hlast)) hback (Or.inr hfirst)

theorem legible_pieces (st : RowStatement) : legible st.pieces = true := by
  have hends (front : List Piece) {back : List Piece} (hne : back ≠ [])
      (h : back.getLast?.all Piece.separates = true)
      : (front ++ back).getLast?.all Piece.separates = true := by
    rwa [List.getLast?_append_of_ne_nil _ hne]
  cases st with
  | insert policy table columns =>
    have hword : (Piece.word "INSERT").sound = true := by decide
    obtain ⟨hverb, hlast⟩ := legible_verb hword policy
    have hopen : legible [.word "INTO", .blank, .name table, .blank, .symbol '('] = true := rfl
    have hvalues : legible [.symbol ')', .blank, .word "VALUES", .blank, .symbol '('] = true := rfl
    have hcolumns := legible_between (legible_append hverb hopen (Or.inl hlast))
      (legible_list (fun column => (rfl : legible [.name column] = true)) columns) hvalues
      (hends _ (List.cons_ne_nil _ _) rfl) rfl
    exact legible_between hcolumns (legible_list (fun _ => rfl) columns) rfl
      (hends _ (List.cons_ne_nil _ _) rfl) rfl
  | delete table keys =>
    exact legible_append rfl (legible_condition keys) (Or.inl rfl)
  | update policy table columns keys =>
    have hword : (Piece.word "UPDATE").sound = true := by decide
    obtain ⟨hverb, hlast⟩ := legible_verb hword policy
    have hset : legible [.name table, .blank, .word "SET", .blank] = true := rfl
    have hwhere : legible [.blank, .word "WHERE", .blank] = true := rfl
    have hcolumns := legible_between (legible_append hverb hset (Or.inl hlast))
      (legible_list (fun column => (rfl : legible (equation .changed column) = true)) columns) hwhere
      (hends _ (List.cons_ne_nil _ _) rfl) rfl
    exact legible_append hcolumns (legible_condition keys) (Or.inl (hends _ (List.cons_ne_nil _ _) rfl))

theorem lexemes_ofString_text (st : RowStatement)
    : (Template.ofString st.text).lexemes = scan none (st.pieces.flatMap Piece.source) := by
  simp [Template.ofString, text]

theorem not_mem_of_mem_pieces {st : RowStatement} (h : ∀ name ∈ st.names, '\x60' ∉ name.toList)
    : ∀ p ∈ st.pieces, ∀ text ∈ p.name?, '\x60' ∉ text.toList := by
  intro p hp text htext
  apply h
  rw [← st.filterMap_name?_pieces]
  exact List.mem_filterMap.2 ⟨p, hp, htext⟩

/-- Without backticks in its names, a statement is scanned as the pieces that it is written from. -/
theorem lexemes_eq_map {st : RowStatement} (h : ∀ name ∈ st.names, '\x60' ∉ name.toList)
    : (Template.ofString st.text).lexemes = st.pieces.map Piece.lexeme := by
  have hlegible : legible (st.pieces ++ []) = true := by
    rw [List.append_nil]
    exact st.legible_pieces
  obtain ⟨after, hscan⟩ := scan_pieces hlegible (not_mem_of_mem_pieces h) none
  rw [lexemes_ofString_text]
  simpa [scan] using hscan

theorem placeholders_eq_replicate {st : RowStatement} (h : ∀ name ∈ st.names, '\x60' ∉ name.toList)
    : (Template.ofString st.text).placeholders = List.replicate st.slots.length .anonymous := by
  have hslot (p : Piece) : p.lexeme.placeholder? = p.slot?.map fun _ => .anonymous := by
    cases p with
    | _ => rfl
  rw [Template.placeholders_eq, lexemes_eq_map h, List.filterMap_map, slots, ← List.map_const',
    List.map_filterMap]
  exact List.filterMap_congr fun p _ => hslot p

/-- Names are scanned as they are if and only if they have no backticks. -/
theorem quotedNames_eq_iff (st : RowStatement)
    : (Template.ofString st.text).quotedNames = st.names ↔ ∀ name ∈ st.names, '\x60' ∉ name.toList := by
  constructor
  . intro h name hname hbacktick
    let broken (p : Piece) : Bool := p.name?.any fun text => '\x60' ∈ text.toList
    rw [← st.filterMap_name?_pieces, List.mem_filterMap] at hname
    obtain ⟨p, hp, htext⟩ := hname
    have hfound : st.pieces.find? broken ≠ none := by
      intro hnone
      have hp := List.find?_eq_none.1 hnone p hp
      simp [broken, htext, hbacktick] at hp
    obtain ⟨first, hfirst⟩ := Option.ne_none_iff_exists'.1 hfound
    obtain ⟨hfirst, front, back, hpieces, hfront⟩ := List.find?_eq_some_iff_append.1 hfirst
    obtain ⟨text, htext, hmem⟩ := (Option.any_eq_true _ _).1 hfirst
    obtain rfl : first = .name text := by
      cases first with
      | name => exact congrArg Piece.name (Option.some.inj htext)
      | _ => cases htext
    have hback : back ≠ [] := by
      rintro rfl
      have hlast := st.name?_of_getLast? (.name text) (by simp [hpieces])
      cases hlast
    refine quotedNames_ne (hpieces ▸ st.legible_pieces) hback ?_ (of_decide_eq_true hmem) ?_
    . intro p hp name hname hbacktick
      simpa [broken, Option.mem_def.1 hname, hbacktick] using hfront p hp
    . rw [← hpieces, ← lexemes_ofString_text, st.filterMap_name?_pieces]
      exact h
  . intro h
    rw [Template.quotedNames, lexemes_eq_map h, filterMap_lexeme, st.filterMap_name?_pieces]

theorem tokens_eq_flatMap {st : RowStatement} (h : ∀ name ∈ st.names, '\x60' ∉ name.toList)
    : (Template.ofString st.text).tokens = st.pieces.flatMap Piece.tokens := by
  rw [Template.tokens, lexemes_eq_map h, List.flatMap_map]
  rfl

section

variable (policy : Option ConflictPolicy) (table : String) (columns keys : List String)

theorem introduces_condition : ∀ p ∈ condition keys, p.introduces = false :=
  forall_mem_intercalate (by simp [Piece.introduces_word]) (fun key => by simp [equation]) keys

theorem introduces_list {part : String → List Piece} (h : ∀ c, ∀ p ∈ part c, p.introduces = false)
    : ∀ p ∈ [Piece.symbol ','].intercalate (columns.map part), p.introduces = false :=
  forall_mem_intercalate (by simp) h columns

theorem mentions_insert : mentions ((insert policy table columns).pieces.flatMap Piece.tokens) = [table] := by
  let names : List Piece := [Piece.symbol ','].intercalate (columns.map fun column => [Piece.name column])
  let slots : List Piece :=
    [Piece.symbol ','].intercalate (columns.map fun column => [Piece.slot ⟨.inserted, column⟩])
  let back : List Piece := [Piece.blank, .name table, .blank, .symbol '('] ++ (names ++
    ([Piece.symbol ')', .blank, .word "VALUES", .blank, .symbol '('] ++ (slots ++ [Piece.symbol ')'])))
  have hpieces : (insert policy table columns).pieces = verb "INSERT" policy ++ .word "INTO" :: back := by
    simp [pieces, back, names, slots]
  have hverb : ∀ p ∈ verb "INSERT" policy, p.introduces = false := by
    cases policy with
    | none => simp [verb, Piece.introduces_word]
    | some policy => simp [verb, Piece.introduces_word, Piece.introduces_policy]
  have hback : ∀ p ∈ back, p.introduces = false := by
    simp only [back, List.forall_mem_append]
    exact ⟨by simp, introduces_list columns (by simp), by simp [Piece.introduces_word],
      introduces_list columns (by simp), by simp⟩
  have hinto : (Token.word "INTO").keyword = some "INTO" := by decide +kernel
  rw [hpieces, mentions_introduced hverb hback hinto]
  simp [back, tablesAfter, tableName, plainName, Token.name?]

theorem mentions_delete : mentions ((delete table keys).pieces.flatMap Piece.tokens) = [table] := by
  let front : List Piece := [.word "DELETE", .blank]
  let back : List Piece := [Piece.blank, .name table, .blank, .word "WHERE", .blank] ++ condition keys
  have hfront : ∀ p ∈ front, p.introduces = false := by simp [front, Piece.introduces_word]
  have hback : ∀ p ∈ back, p.introduces = false :=
    List.forall_mem_append.2 ⟨by simp [Piece.introduces_word], introduces_condition keys⟩
  have hfrom : (Token.word "FROM").keyword = some "FROM" := by decide +kernel
  have hwhere (rest : List Token) : dropAlias (.word "WHERE" :: rest) = .word "WHERE" :: rest := by
    have hkeyword : (Token.word "WHERE").keyword ≠ some "AS" := by decide +kernel
    have hname : (Token.word "WHERE").name? = none := by decide +kernel
    simp [dropAlias, plainName, hkeyword, hname]
  have htable (rest : List Token) : tableList (.quoted table :: .word "WHERE" :: rest) = [table] := by
    have hname : tableName (.quoted table :: .word "WHERE" :: rest) = some (table, .word "WHERE" :: rest) := rfl
    rw [tableList_of_tableName hname, hwhere]
  refine (mentions_introduced hfront hback hfrom).trans ?_
  simpa [back, tablesAfter] using htable _

theorem mentions_update
    : mentions ((update policy table columns keys).pieces.flatMap Piece.tokens) = [table] := by
  let back : List Piece := [Piece.name table, .blank, .word "SET", .blank] ++
    ([Piece.symbol ','].intercalate (columns.map (equation .changed)) ++
      ([Piece.blank, .word "WHERE", .blank] ++ condition keys))
  have hback : ∀ p ∈ back, p.introduces = false := by
    simp only [back, List.forall_mem_append]
    exact ⟨by simp [Piece.introduces_word], introduces_list columns fun c => by simp [equation],
      by simp [Piece.introduces_word], introduces_condition keys⟩
  have hupdate : (Token.word "UPDATE").keyword = some "UPDATE" := by decide +kernel
  have hor : (Token.word "OR").keyword = some "OR" := by decide +kernel
  cases policy with
  | none =>
    have hpieces : (update none table columns keys).pieces = [] ++ .word "UPDATE" :: .blank :: back := by
      simp [pieces, verb, back]
    rw [hpieces, mentions_introduced (List.forall_mem_nil _) (List.forall_mem_cons.2 ⟨rfl, hback⟩) hupdate]
    simp [back, tablesAfter, tableName, plainName, Token.name?, Token.keyword]
  | some policy =>
    let resolution : List Piece := [.blank, .word "OR", .blank, .word policy.keyword, .blank]
    have hresolution : ∀ p ∈ resolution, p.introduces = false := by
      simp [resolution, Piece.introduces_word, Piece.introduces_policy]
    have hpieces : (update (some policy) table columns keys).pieces
        = [] ++ .word "UPDATE" :: (resolution ++ back) := by
      simp [pieces, verb, back, resolution]
    rw [hpieces,
      mentions_introduced (List.forall_mem_nil _) (List.forall_mem_append.2 ⟨hresolution, hback⟩) hupdate]
    simp [back, resolution, tablesAfter, tableName, plainName, Token.name?, hor]

end

theorem mentions_pieces (st : RowStatement) : mentions (st.pieces.flatMap Piece.tokens) = [st.table] := by
  cases st with
  | insert policy table columns => exact mentions_insert policy table columns
  | delete table keys => exact mentions_delete table keys
  | update policy table columns keys => exact mentions_update policy table columns keys

theorem tables_eq_singleton {st : RowStatement} (h : ∀ name ∈ st.names, '\x60' ∉ name.toList)
    : (Template.ofString st.text).tables = [st.table] := by
  rw [Template.tables, tokens_eq_flatMap h, mentions_pieces]
  rfl

end RowStatement

end DataAccess.Sql

namespace DataAccess

open Sql (Template)

/-- The names in the statements of an adapter are scanned as they are if and only if none of them has a
backtick. Then each statement names the table that the adapter reports, once and no other, and it has as many
placeholders as the adapter has slots, all of them anonymous. -/
theorem adapters_read_back (op : ShortcutOp) (e : Entity) (table : String)
    : List.Forall₂
        (fun (p : AdapterCode.Part) (s : AdapterStatement) =>
          let t := Template.ofString p.sql
          (t.quotedNames = s.statement.names ↔ ∀ name ∈ s.statement.names, '\x60' ∉ name.toList) ∧
            ((∀ name ∈ s.statement.names, '\x60' ∉ name.toList) →
              t.tables = [table] ∧ t.placeholders = List.replicate p.slots .anonymous))
        (AdapterCode.parts (adapterRequest op e table).value) (op.statements e table) := by
  have hread {p : AdapterCode.Part} {s : AdapterStatement} (h : p.Performs e s)
      : let t := Template.ofString p.sql
        (t.quotedNames = s.statement.names ↔ ∀ name ∈ s.statement.names, '\x60' ∉ name.toList) ∧
          ((∀ name ∈ s.statement.names, '\x60' ∉ name.toList) →
            t.tables = [s.statement.table] ∧ t.placeholders = List.replicate p.slots .anonymous) := by
    dsimp only
    rw [h.sql, h.slots]
    refine ⟨s.statement.quotedNames_eq_iff, fun hnames => ⟨?_, ?_⟩⟩
    . exact Sql.RowStatement.tables_eq_singleton hnames
    . exact Sql.RowStatement.placeholders_eq_replicate hnames
  have hperforms := AdapterCode.performs_adapterRequest op e table
  cases op with
  | insert | delete | update =>
    obtain ⟨hfirst, _⟩ := List.forall₂_cons.1 hperforms
    exact .cons (hread hfirst) .nil
  | upsert =>
    obtain ⟨hinsert, hrest⟩ := List.forall₂_cons.1 hperforms
    obtain ⟨hupdate, _⟩ := List.forall₂_cons.1 hrest
    exact .cons (hread hinsert) (.cons (hread hupdate) .nil)

def disguised : Entity where
  name := "Disguised"
  table := "from, into"
  fields := [⟨"id", "?, ?", false, none⟩, ⟨"note", "a FROM b", true, none⟩]
  primaryKey := ["id"]
  projectionOf := none

theorem adapters_read_back_disguised
    : ∃ p, AdapterCode.parts (adapterRequest .delete disguised disguised.table).value = [p] ∧
        (∀ name ∈ ["from, into", "?, ?"], '\x60' ∉ name.toList) ∧
        (Template.ofString p.sql).quotedNames = ["from, into", "?, ?"] ∧
        (Template.ofString p.sql).tables = ["from, into"] ∧
        (Template.ofString p.sql).placeholders = [.anonymous] := by
  have hread := (List.forall₂_cons.1 (adapters_read_back .delete disguised disguised.table)).1
  have hnames : ∀ name ∈ ["from, into", "?, ?"], '\x60' ∉ name.toList := by decide
  obtain ⟨htables, hplaceholders⟩ := hread.2 hnames
  exact ⟨_, rfl, hnames, hread.1.2 hnames, htables, hplaceholders⟩

/-- A backtick in the name of a key column: what follows it is scanned as a name that is left open. -/
def ticked : Entity where
  name := "Ticked"
  table := "t"
  fields := [⟨"id", "i\x60d", false, none⟩]
  primaryKey := ["id"]
  projectionOf := none

theorem unread_ticked
    : ticked.fields ≠ [] ∧ ticked.hasCompleteKey = true ∧
        ∃ p, AdapterCode.parts (adapterRequest .delete ticked ticked.table).value = [p] ∧
          p.slots = 1 ∧ (Template.ofString p.sql).placeholders = [] := by
  refine ⟨List.cons_ne_nil _ _, by decide, _, rfl, rfl, ?_⟩
  decide +kernel

end DataAccess

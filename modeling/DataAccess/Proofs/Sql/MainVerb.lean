import DataAccess.Proofs.Compile.Classified
import DataAccess.Proofs.Sql.Balanced

/-!
This module contains `WITH` statements as they are written: parts of a text, each with what is behind it. Main
statement: the kind of such a statement is that of the verb behind its common tables, and no method gets a
category in which statements of that kind have no place.
-/

namespace DataAccess.Sql

/-- The verbs that statements are known by. -/
inductive MainVerb where
  | select
  | values
  | insert
  | replace
  | update
  | delete
deriving DecidableEq

namespace MainVerb

def word : MainVerb → String
  | select => "SELECT"
  | values => "VALUES"
  | insert => "INSERT"
  | replace => "REPLACE"
  | update => "UPDATE"
  | delete => "DELETE"

def kind : MainVerb → StatementKind
  | select | values => .select
  | insert | replace => .insert
  | update => .update
  | delete => .delete

theorem ofVerb_word (v : MainVerb) : StatementKind.ofVerb v.word = v.kind := by
  cases v with
  | _ => rfl

theorem kind_ne_other (v : MainVerb) : v.kind ≠ .other := by
  cases v with
  | _ => decide

theorem ofVerb_eq_other {text : String} (h : ∀ v : MainVerb, text ≠ v.word)
    : StatementKind.ofVerb text = .other := by
  unfold StatementKind.ofVerb
  split
  . exact absurd rfl (h .select)
  . exact absurd rfl (h .values)
  . exact absurd rfl (h .insert)
  . exact absurd rfl (h .replace)
  . exact absurd rfl (h .update)
  . exact absurd rfl (h .delete)
  . rfl

end MainVerb

inductive Gap : List Char → List Char → Prop where
  | done : Gap s s
  | blank (hc : Text.isBlank c = true) (h : Gap s rest) : Gap (c :: s) rest
  | comment (r : Region) (hr : r ≠ .literal) (hcontent : r.Admits content) (h : Gap s rest) :
    Gap (r.source content ++ s) rest

inductive BareWord (p : String → Prop) : List Char → List Char → Prop where
  | mk (hp : p ((String.ofList letters).map Char.toUpper)) (h : (Lexeme.word letters).Written none behind)
    (hgap : Gap behind rest) : BareWord p (letters ++ behind) rest

abbrev Keyword (word : String) : List Char → List Char → Prop :=
  BareWord (· = word)

inductive CommonName : List Char → List Char → Prop where
  | quoted (h : (Lexeme.quoted source name).Written none behind) (hgap : Gap behind rest) :
    CommonName (source ++ behind) rest
  | bare (h : BareWord (fun text => ∀ v : MainVerb, text ≠ v.word) s rest) : CommonName s rest

inductive Enclosed : List Char → List Char → Prop where
  | mk (h : Balanced inside) (hgap : Gap behind rest) : Enclosed ('(' :: (inside ++ ')' :: behind)) rest

/-- Whether the rows of a common table are kept, if that is said. -/
inductive Materialization : List Char → List Char → Prop where
  | unsaid : Materialization s s
  | kept (h : Keyword "MATERIALIZED" s rest) : Materialization s rest
  | unkept (hnot : Keyword "NOT" s middle) (h : Keyword "MATERIALIZED" middle rest) : Materialization s rest

inductive CommonTable : List Char → List Char → Prop where
  | mk (hname : CommonName s s₁) (hcolumns : Enclosed s₁ s₂ ∨ s₁ = s₂) (has : Keyword "AS" s₂ s₃)
    (hkept : Materialization s₃ s₄) (hbody : Enclosed s₄ rest) : CommonTable s rest

inductive CommonTables : List Char → List Char → Prop where
  | last (h : CommonTable s rest) : CommonTables s rest
  | cons (h : CommonTable s (',' :: behind)) (hgap : Gap behind others) (hmore : CommonTables others rest) :
    CommonTables s rest

/-- A statement with common tables and the verb behind them. -/
inductive WithStatement (v : MainVerb) : List Char → Prop where
  | mk (hfront : Gap s s₀) (hwith : Keyword "WITH" s₀ s₁) (hrecursive : Keyword "RECURSIVE" s₁ s₂ ∨ s₁ = s₂)
    (htables : CommonTables s₂ s₃) (hverb : Keyword v.word s₃ rest) : WithStatement v s

theorem startsWord_of_isBlank {c : Char} (h : Text.isBlank c = true) : startsWord c = false := by
  have hcode : c.toNat ∈ [0x20, 0x09, 0x0D, 0x0A, 0x0B, 0x0C, 0x85, 0xA0, 0x1680, 0x2028, 0x2029, 0x202F, 0x205F,
      0x3000] ++ List.range' 0x2000 11 := by
    simp only [Text.isBlank, Char.isWhitespace, Text.Ranges.has, Text.blankRanges, List.any_cons, List.any_nil,
      Bool.or_eq_true, Bool.and_eq_true, beq_iff_eq, decide_eq_true_eq, Bool.false_eq_true, or_false, or_assoc] at h
    rcases h with rfl | rfl | rfl | rfl | rfl | rfl | h
    case inr.inr.inr.inr.inr.inr =>
      simp only [List.mem_append, List.mem_cons, List.not_mem_nil, or_false, List.mem_range'_1]
      omega
    all_goals decide
  have hnone : ∀ n ∈ [0x20, 0x09, 0x0D, 0x0A, 0x0B, 0x0C, 0x85, 0xA0, 0x1680, 0x2028, 0x2029, 0x202F, 0x205F,
      0x3000] ++ List.range' 0x2000 11, startsWord (Char.ofNat n) = false := by
    decide +kernel
  have hstart := hnone c.toNat hcode
  rwa [Char.ofNat_toNat] at hstart

section

variable {s rest : List Char} {v : MainVerb}

theorem Gap.tokens (h : Gap s rest) (before : Option Char)
    : ∃ after, tokensBehind before s = tokensBehind after rest := by
  induction h generalizing before with
  | done => exact ⟨before, rfl⟩
  | @blank c s rest hc _ ih =>
    obtain ⟨after, hafter⟩ := ih (Lexeme.blank c).trailing
    have hwritten : (Lexeme.blank c).Written before s := .blank hc (startsWord_of_isBlank hc)
    exact ⟨after, (tokensBehind_of_written hwritten).trans hafter⟩
  | @comment content s rest r hr hcontent _ ih =>
    obtain ⟨after, hafter⟩ := ih (r.lexeme content).trailing
    have hends : r.EndsBefore s := by
      cases r with
      | literal => exact absurd rfl hr
      | block | line => trivial
    have hregion := tokensBehind_of_written (r.written before hcontent hends)
    have hnone : (r.lexeme content).tokens = [] := by
      cases r with
      | literal => exact absurd rfl hr
      | block | line => rfl
    rw [r.source_lexeme, hnone] at hregion
    exact ⟨after, hregion.trans hafter⟩

theorem BareWord.tokens {p : String → Prop} (h : BareWord p s rest) (before : Option Char)
    : ∃ text after, p (text.map Char.toUpper) ∧
        tokensBehind before s = .word text :: tokensBehind after rest := by
  cases h with
  | @mk letters behind _ hp hwritten hgap =>
    have hword : (Lexeme.word letters).Written before behind := by
      cases hwritten with
      | word hc hletters hend => exact .word hc hletters hend
    obtain ⟨after, hafter⟩ := hgap.tokens (Lexeme.word letters).trailing
    refine ⟨String.ofList letters, after, hp, ?_⟩
    rw [← hafter]
    exact tokensBehind_of_written hword

namespace PassedOver

theorem gap (h : Gap s rest) : PassedOver 0 s rest := by
  intro before
  obtain ⟨after, hafter⟩ := h.tokens before
  exact ⟨after, fun depth _ => congrArg (mainVerb depth) hafter⟩

theorem bareWord {p : String → Prop} (h : BareWord p s rest)
    (hp : ∀ text, p text → StatementKind.ofVerb text = .other) : PassedOver 0 s rest := by
  intro before
  obtain ⟨text, after, htext, htokens⟩ := h.tokens before
  refine ⟨after, fun depth _ => ?_⟩
  rw [htokens, mainVerb_word (.inr (hp _ htext))]

theorem keyword {word : String} (h : Keyword word s rest) (hword : StatementKind.ofVerb word = .other)
    : PassedOver 0 s rest :=
  bareWord h fun _ htext => htext ▸ hword

theorem commonName (h : CommonName s rest) : PassedOver 0 s rest := by
  cases h with
  | @quoted source name behind _ hwritten hgap =>
    have hquoted (before : Option Char) : (Lexeme.quoted source name).Written before behind := by
      cases hwritten with
      | quoted hquotes h => exact .quoted hquotes h
    exact (of_written hquoted fun _ _ _ => rfl).trans (gap hgap)
  | bare h => exact bareWord h fun _ => MainVerb.ofVerb_eq_other

theorem enclosed (h : Enclosed s rest) : PassedOver 0 s rest := by
  cases h with
  | @mk inside behind _ h hgap => exact (h.passedOver behind).parens.trans (gap hgap)

theorem materialization (h : Materialization s rest) : PassedOver 0 s rest := by
  cases h with
  | unsaid => exact refl 0 s
  | kept h => exact keyword h rfl
  | unkept hnot h => exact (keyword hnot rfl).trans (keyword h rfl)

theorem commonTable (h : CommonTable s rest) : PassedOver 0 s rest := by
  cases h with
  | mk hname hcolumns has hkept hbody =>
    refine (commonName hname).trans (.trans ?_ ((keyword has rfl).trans
      ((materialization hkept).trans (enclosed hbody))))
    rcases hcolumns with h | rfl
    . exact enclosed h
    . exact refl 0 _

theorem comma (s : List Char) : PassedOver 0 (',' :: s) s := by
  have hcomma (before : Option Char) : (Lexeme.symbol ',').Written before s := by
    apply Lexeme.Written.symbol
    constructor
    case named => rfl
    all_goals first
      | decide
      | rintro ⟨⟩
  exact of_written hcomma fun _ _ _ => mainVerb_symbol (by decide) (by decide)

theorem commonTables (h : CommonTables s rest) : PassedOver 0 s rest := by
  induction h with
  | last h => exact commonTable h
  | @cons _ behind _ _ h hgap _ ih => exact (commonTable h).trans ((comma behind).trans ((gap hgap).trans ih))

end PassedOver

/-- The kind of a `WITH` statement is that of its main verb. -/
theorem WithStatement.kind_eq {sql : String} (h : WithStatement v sql.toList)
    : (Template.ofString sql).kind = v.kind := by
  generalize hs : sql.toList = s at h
  cases h with
  | @mk s₀ s₁ s₂ s₃ rest hfront hwith hrecursive htables hverb =>
    obtain ⟨before, hbefore⟩ := hfront.tokens none
    obtain ⟨text, after, htext, hword⟩ := hwith.tokens before
    have htokens : (Template.ofString sql).tokens = .word text :: tokensBehind after s₁ := by
      change (scan none sql.toList).flatMap Lexeme.tokens = _
      rw [hs]
      exact hbefore.trans hword
    have hpassed : PassedOver 0 s₁ s₃ := by
      refine .trans ?_ (PassedOver.commonTables htables)
      rcases hrecursive with h | rfl
      . exact .keyword h rfl
      . exact .refl 0 _
    obtain ⟨front, hfront⟩ := hpassed after
    obtain ⟨verb, behind, hverb, hfound⟩ := hverb.tokens front
    have hkeyword : (Template.ofString sql).tokens.findSome? Token.keyword = some "WITH" := by
      rw [htokens]
      exact congrArg some htext
    have hother : StatementKind.ofVerb (text.map Char.toUpper) = .other := htext ▸ rfl
    have hsome : StatementKind.ofVerb (verb.map Char.toUpper) = v.kind := hverb ▸ v.ofVerb_word
    calc
      (Template.ofString sql).kind
      _ = mainVerb 0 (Template.ofString sql).tokens := by
        unfold Template.kind
        rw [hkeyword]
        rfl
      _ = mainVerb 0 (tokensBehind after s₁) := by rw [htokens, mainVerb_word (.inr hother)]
      _ = mainVerb 0 (.word verb :: tokensBehind behind rest) := by rw [hfront 0 (Nat.le_refl 0), hfound]
      _ = v.kind := by rw [mainVerb_verb (hsome ▸ v.kind_ne_other), hsome]

end

/-- A method gets no category, and if its placeholders all stand for parameters, then for this reason. -/
def Rejected (i : Interface) (m : Method) (sql : String) (why : Misfit) : Prop :=
  (∃ p, i.classify m = .error p) ∧
    ∀ s, BoundStatement.resolve m sql = .ok s → i.resolve m = .error (.unclassifiable m.name why)

section

variable {i : Interface} {m : Method} {sql : String}

theorem rejected_of_resolve {why : Misfit}
    (h : i.resolve m = BoundStatement.resolve m sql >>= fun _ => .error (.unclassifiable m.name why))
    : Rejected i m sql why := by
  refine ⟨?_, fun s hs => by rw [h, hs]; rfl⟩
  cases hm : i.classify m with
  | error p => exact ⟨p, rfl⟩
  | ok c =>
    obtain ⟨s, _, hs⟩ := exists_of_bind_eq_ok (h.symm.trans (Interface.problems_of_classify hm).2.1)
    cases hs

theorem rejected_read {declared : Option ResultShape} {observed : List String} {inTransaction : Bool}
    (hkind : m.kind = .read sql declared observed inTransaction) (hselect : (Template.ofString sql).kind ≠ .select)
    (hother : (Template.ofString sql).kind ≠ .other) : Rejected i m sql .readWrites := by
  have hresolve : i.resolve m = i.resolveRead m sql declared observed inTransaction := by
    unfold Interface.resolve
    rw [hkind]
  refine rejected_of_resolve (hresolve.trans ?_)
  unfold Interface.resolveRead
  cases hs : BoundStatement.resolve m sql with
  | error => rfl
  | ok s =>
    have hwrites : (s.template.kind != .select && s.template.kind != .other) = true := by
      rw [(BoundStatement.slotsOf_of_resolve hs).1, bne_iff_ne.2 hselect, bne_iff_ne.2 hother]
      rfl
    exact if_pos hwrites

theorem rejected_write (hkind : m.kind = .write sql) (hselect : (Template.ofString sql).kind = .select)
    : Rejected i m sql .writeReads := by
  have hresolve : i.resolve m = Interface.resolveWrite m sql := by
    unfold Interface.resolve
    rw [hkind]
  refine rejected_of_resolve (hresolve.trans ?_)
  unfold Interface.resolveWrite
  cases hs : BoundStatement.resolve m sql with
  | error => rfl
  | ok s =>
    have hreads : (s.template.kind == .select) = true := by
      rw [(BoundStatement.slotsOf_of_resolve hs).1, beq_iff_eq.2 hselect]
    exact if_pos hreads

end

/-- The kind of a `WITH` statement is that of the verb behind its common tables. If it writes, then no method has
it for a read query, and if it reads, then none has it for a write query. -/
theorem kind_of_withStatement {v : MainVerb} {sql : String} (h : WithStatement v sql.toList)
    : (Template.ofString sql).kind = v.kind ∧
        ∀ (i : Interface) (m : Method),
          (∀ declared observed inTransaction, m.kind = .read sql declared observed inTransaction →
            v.kind ≠ .select → Rejected i m sql .readWrites) ∧
          (m.kind = .write sql → v.kind = .select → Rejected i m sql .writeReads) := by
  have hverb := h.kind_eq
  refine ⟨hverb, fun i m => ⟨fun declared observed inTransaction hkind hwrites => ?_, fun hkind hreads => ?_⟩⟩
  . exact rejected_read hkind (hverb ▸ hwrites) (hverb ▸ v.kind_ne_other)
  . exact rejected_write hkind (hverb.trans hreads)

/-- A statement that replaces rows, with parentheses and other verbs in its common tables. -/
theorem kind_of_withStatement_replace
    : let sql := "/*)*/WITH recursive [sel)](x) AS NOT MATERIALIZED (WITH y AS (DELETE FROM t WHERE z='(' AND " ++
        "w=?) SELECT :z), b as (VALUES (1)) ReplAce INTO c SELECT * FROM b"
      WithStatement .replace sql.toList ∧ (Template.ofString sql).kind = .insert ∧
        ∀ (i : Interface) (m : Method), m.kind = .read sql none [] true → Rejected i m sql .readWrites := by
  intro sql
  have hspace {s : List Char} : Gap (' ' :: s) s := .blank (by decide +kernel) .done
  have hword {p : String → Prop} {letters rest : List Char} (hp : p ((String.ofList letters).map Char.toUpper))
      (hletters : (letters.head?.any startsWord && letters.all continuesWord) = true)
      : BareWord p (letters ++ ' ' :: rest) rest := by
    cases letters with
    | nil => cases hletters
    | cons first letters =>
      obtain ⟨hfirst, hletters⟩ := Bool.and_eq_true_iff.1 hletters
      refine .mk hp (.word hfirst (List.forall_mem_cons.1 (List.all_eq_true.1 hletters)).2 ?_) hspace
      rintro _ ⟨⟩
      decide +kernel
  let verb := "ReplAce".toList ++ ' ' :: "INTO c SELECT * FROM b".toList
  let values := "VALUES ".toList ++ '(' :: ("1".toList ++ [] ++ ')' :: [])
  let second := "b".toList ++ ' ' :: ("as".toList ++ ' ' :: '(' :: (values ++ ')' :: ' ' :: verb))
  let deletion := "DELETE FROM t WHERE z=".toList ++ (Region.literal.source ['('] ++ (" AND w=?".toList ++ []))
  let body := "WITH y AS ".toList ++ '(' :: (deletion ++ ')' :: (" SELECT :z".toList ++ []))
  let first := '[' :: (doubled ']' "sel)".toList ++ [']']) ++ '(' :: ("x".toList ++ [] ++ ')' :: ' ' ::
    ("AS".toList ++ ' ' :: ("NOT".toList ++ ' ' :: ("MATERIALIZED".toList ++ ' ' :: '(' ::
      (body ++ ')' :: ',' :: ' ' :: second)))))
  have hvalues : Balanced values :=
    .append_of_plain (by decide +kernel) (.parens (.append_of_plain (by decide +kernel) .nil) .nil)
  have hsecond : CommonTable second verb := by
    refine .mk (.bare (hword ?_ (by decide +kernel))) (.inr rfl) (hword (by decide +kernel) (by decide +kernel))
      .unsaid (.mk hvalues hspace)
    rintro (_ | _)
    all_goals decide +kernel
  have hdeletion : Balanced deletion := by
    refine .append_of_plain (by decide +kernel) (.region .literal trivial ?_ ?_)
    . exact fun hquote => absurd hquote (by decide +kernel)
    . exact .append_of_plain (by decide +kernel) .nil
  have hbody : Balanced body :=
    .append_of_plain (by decide +kernel) (.parens hdeletion (.append_of_plain (by decide +kernel) .nil))
  have hfirst : CommonTable first (',' :: ' ' :: second) := by
    have hname : NameQuotes '[' ']' := .brackets
    have hcolumn : Balanced ("x".toList ++ []) := .append_of_plain (by decide +kernel) .nil
    refine .mk (.quoted (.quoted hname (.closed ?_ nofun)) .done) (.inl (.mk hcolumn hspace)) (hword ?_ ?_)
      (.unkept (hword ?_ ?_) (hword ?_ ?_)) (.mk hbody .done)
    all_goals decide +kernel
  have htables : CommonTables first verb := .cons hfirst hspace (.last hsecond)
  have hwith : WithStatement .replace sql.toList := by
    have htext : sql.toList =
        Region.block.source [')'] ++ ("WITH".toList ++ ' ' :: ("recursive".toList ++ ' ' :: first)) := by
      decide +kernel
    have hcomment : ¬['*', '/'] <:+: [')'] := by decide
    rw [htext]
    refine .mk (.comment .block nofun hcomment .done) (hword ?_ ?_) (.inl (hword ?_ ?_)) htables (hword ?_ ?_)
    all_goals decide +kernel
  obtain ⟨hkind, hrejected⟩ := kind_of_withStatement hwith
  exact ⟨hwith, hkind, fun i m hm => (hrejected i m).1 none [] true hm (by decide)⟩

end DataAccess.Sql

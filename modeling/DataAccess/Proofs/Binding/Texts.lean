import DataAccess.Proofs.Binding.Slots

/-!
This module contains the text of a statement with collections, as the code appends it piece by piece,
and the sizes of the collections, which the code keeps in variables of their own and adds up.
-/

namespace DataAccess

open Code (Call Datum Expr Frame Revised Stmt Variable execAll)
open Sql (Section Template)

def marks (n : Nat) : List Char :=
  (List.replicate n '?').intersperse ','

theorem marks_succ_succ (n : Nat) : marks (n + 2) = '?' :: ',' :: marks (n + 1) := by
  simp [marks, List.replicate_succ]

theorem count_marks (n : Nat) : (marks n).count '?' = n := by
  induction n with
  | zero => rfl
  | succ n ih =>
    cases n with
    | zero => rfl
    | succ n =>
      rw [marks_succ_succ]
      simpa using ih

theorem toList_appendPlaceholders (text : String) (n : Nat)
    : (appendPlaceholders text n).toList = text.toList ++ marks n := by
  have hmarks : (",".intercalate (List.replicate n "?")).toList = marks n := by
    induction n with
    | zero => simp [marks]
    | succ n ih =>
      cases n with
      | zero => simp [marks]
      | succ n =>
        rw [List.replicate_succ, List.replicate_succ, String.intercalate_cons_cons,
          ← List.replicate_succ, marks_succ_succ]
        simp [ih]
  rw [appendPlaceholders, String.toList_append, hmarks]

def pieceOf (c : Call α) (p : Parameter) : List Char :=
  if p.multiple then marks (c.items p.name).length else ['?']

def Code.Frame.AgreesBut (xs : List String) (g f : Frame α β) : Prop :=
  ∀ x, x ∉ xs → g.get? x = f.get? x

theorem Code.Call.ne_held_of_passed (c : Call α) {f : Frame α β} {p : Parameter}
    (h : f.get? p.name = some (c.passed p)) (mutable : Bool) (d : Datum)
    : f.get? p.name ≠ some (.held mutable d) := by
  rw [h]
  unfold passed
  split
  . exact nofun
  . exact nofun

namespace BoundStatement

def slotsText (c : Call α) : List Slot → List Char
  | [] => []
  | .text chars :: rest => chars ++ slotsText c rest
  | .param p :: rest => pieceOf c p ++ slotsText c rest

def slotsSizes (c : Call α) : List Slot → List Nat
  | [] => []
  | .text _ :: rest => slotsSizes c rest
  | .param p :: rest =>
    if p.multiple then (c.items p.name).length :: slotsSizes c rest else slotsSizes c rest

theorem sizeName_injective : Function.Injective sizeName := by
  intro j k h
  exact Nat.repr_injective ((String.append_right_inj _).1 h)

theorem sizeName_ne {k : Nat} {x : String} (h : x.toList[1]? ≠ some 'i') : sizeName k ≠ x := by
  intro hk
  apply h
  rw [← hk]
  simp [sizeName]

def Sizes (f : Frame α β) (k : Nat) : List Nat → Prop
  | [] => True
  | n :: rest => f.datum? (sizeName (k + 1)) = some (.count n) ∧ Sizes f (k + 1) rest

theorem Sizes.congr {f g : Frame α β} {k : Nat} {ns : List Nat} (h : Sizes f k ns)
    (hg : ∀ j, g.get? (sizeName j) = f.get? (sizeName j)) : Sizes g k ns := by
  induction ns generalizing k with
  | nil => trivial
  | cons n rest ih =>
    refine ⟨?_, ih h.2⟩
    rw [← h.1, Frame.datum?, hg, Frame.datum?]

theorem eval_foldl_add (c : Call α) {f : Frame α β} {k : Nat} {ns : List Nat} (h : Sizes f k ns)
    {first : Expr} {m : Nat} (hfirst : c.eval f first = some (.count m))
    : c.eval f (((List.range' k ns.length).map fun j => Expr.var (sizeName (j + 1))).foldl .add first)
        =
      some (.count (m + ns.sum)) := by
  induction ns generalizing k first m with
  | nil => exact hfirst
  | cons n rest ih =>
    obtain ⟨hn, hrest⟩ := h
    have hsum : c.eval f (.add first (.var (sizeName (k + 1)))) = some (.count (m + n)) := by
      simp only [Call.eval, hfirst, hn, Option.bind_eq_bind, Option.bind_some]
      rfl
    rw [List.length_cons, List.range'_succ, List.map_cons, List.foldl_cons, ih hrest hsum,
      List.sum_cons, Nat.add_assoc]

structure Texting (f : Frame α β) (text : List Char) : Prop where
  builder : f.get? "_string_builder" = some (.held true (.text (String.ofList text)))
  noted : f.noted = []

namespace Texting

variable {f : Frame α β} {text : List Char}

theorem change (h : Texting f text) {g : Datum → Option Datum} {u : List Char}
    (hg : g (.text (String.ofList text)) = some (.text (String.ofList u)))
    : ∃ f', f.change "_string_builder" g = some f' ∧ Texting f' u ∧
        f'.AgreesBut ["_string_builder"] f :=
  ⟨_, Frame.change_of_held h.builder hg, ⟨f.get?_put_self _ h.builder, h.noted⟩,
    fun _ hx => (Revised.replace h.builder (e := .text (String.ofList u)) trivial).lookup_eq hx⟩

theorem appendText (c : Call α) (h : Texting f text) (pending : List Char)
    : ∃ g, execAll c f (appendText pending) = some g ∧ Texting g (text ++ pending) ∧
        g.AgreesBut ["_string_builder"] f := by
  unfold BoundStatement.appendText
  split
  . next hempty =>
    rw [List.isEmpty_iff.1 hempty, List.append_nil]
    exact ⟨f, rfl, h, fun _ _ => rfl⟩
  . obtain ⟨g, hg, htexting, hagrees⟩ :=
      h.change (g := Call.appendText (String.ofList pending)) (u := text ++ pending)
        (by simp [Call.appendText])
    refine ⟨g, ?_, htexting, hagrees⟩
    simp only [execAll, Code.Stmt.exec, Call.step, Call.effect, Call.eval, Option.bind_eq_bind,
      Option.bind_some, hg]

theorem appendItems (c : Call α) (h : Texting f text) {x : String} {l : List α}
    (hx : f.get? x = some (.items l)) (k : Nat)
    : ∃ g,
        execAll c f
          [.bind false (sizeName k) none (.method (.var x) .len []),
           .run (.call .appendPlaceholders
            [.borrowMut (.var "_string_builder"), .var (sizeName k)])] = some g ∧
        Texting g (text ++ marks l.length) ∧
        g.datum? (sizeName k) = some (.count l.length) ∧
        g.AgreesBut ["_string_builder", sizeName k] f := by
  have hname : sizeName k ≠ "_string_builder" := sizeName_ne (by decide)
  let f' := f.declare false (sizeName k) (.count l.length)
  have hsize : f'.datum? (sizeName k) = some (.count l.length) := by
    unfold Frame.datum?
    rw [f.get?_declare_self]
  have h' : Texting f' text := ⟨(f.get?_declare_ne _ _ hname.symm).trans h.builder, h.noted⟩
  obtain ⟨g, hg, htexting, hagrees⟩ :=
    h'.change (g := Call.appendMarks l.length) (u := text ++ marks l.length)
      (by
        simp only [Call.appendMarks, Option.some.injEq, Datum.text.injEq]
        apply String.ext
        simp [toList_appendPlaceholders])
  refine ⟨g, ?_, htexting, ?_, ?_⟩
  . have hlen : c.eval f (.method (.var x) .len []) = some (.count l.length) := by
      simp [Call.eval, Frame.items?, hx]
    have happend : Code.Stmt.exec c f' (.run (.call .appendPlaceholders
        [.borrowMut (.var "_string_builder"), .var (sizeName k)])) = some g := by
      simp only [Code.Stmt.exec, Call.step, Call.effect, Call.eval, hsize, Option.bind_eq_bind,
        Option.bind_some, hg]
    simp only [execAll, Code.exec_bind hlen, Option.bind_eq_bind, Option.bind_some]
    rw [happend]
    rfl
  . rw [← hsize, Frame.datum?, hagrees _ (by simpa using hname), Frame.datum?]
  . intro y hy
    simp only [List.mem_cons, List.not_mem_nil, or_false, not_or] at hy
    rw [hagrees y (by simpa using hy.1), f.get?_declare_ne _ _ hy.2]

end Texting

def paramsIn (slots : List Slot) : List Parameter :=
  slots.filterMap fun
    | .param p => some p
    | .text _ => none

/-- The code for the text appends what is pending and then the text of the slots, as long as it hides none of
the collections. It leaves the sizes of earlier collections alone. -/
theorem exec_emitText (c : Call α) (slots : List Slot) {f : Frame α β} {text : List Char}
    (h : Texting f text) (pending : List Char) (k : Nat)
    (hparams : ∀ p ∈ paramsIn slots, f.get? p.name = some (c.passed p) ∧
      p.name ∉ Code.scopeAfter ["_string_builder"] (emitText pending k slots))
    : ∃ g, execAll c f (emitText pending k slots) = some g ∧
        Texting g (text ++ pending ++ slotsText c slots) ∧
        Sizes g k (slotsSizes c slots) ∧
        ∀ j ≤ k, g.get? (sizeName j) = f.get? (sizeName j) := by
  induction slots generalizing f text pending k with
  | nil =>
    obtain ⟨g, hg, htexting, hagrees⟩ := h.appendText c pending
    refine ⟨g, hg, by simpa [slotsText] using htexting, trivial, ?_⟩
    intro j _
    apply hagrees
    simpa using sizeName_ne (by decide)
  | cons s rest ih =>
    cases s with
    | text chars =>
      obtain ⟨g, hg, htexting, hsizes, hearlier⟩ := ih h (pending ++ chars) k hparams
      exact ⟨g, hg, by simpa [slotsText] using htexting, hsizes, hearlier⟩
    | param p =>
      have hmore (q : Parameter) (hq : q ∈ paramsIn rest) := hparams q (List.mem_cons_of_mem _ hq)
      cases hp : p.multiple with
      | false =>
        have hemit : emitText pending k (.param p :: rest) = emitText (pending ++ ['?']) k rest := by
          simp [emitText, hp]
        rw [hemit] at hmore ⊢
        obtain ⟨g, hg, htexting, hsizes, hearlier⟩ := ih h (pending ++ ['?']) k hmore
        refine ⟨g, hg, ?_, ?_, hearlier⟩
        . simpa [slotsText, pieceOf, hp] using htexting
        . simpa [slotsSizes, hp] using hsizes
      | true =>
        let own : List Stmt :=
          [.bind false (sizeName (k + 1)) none (.method (.var p.name) .len []),
           .run (.call .appendPlaceholders
            [.borrowMut (.var "_string_builder"), .var (sizeName (k + 1))])]
        have hemit : emitText pending k (.param p :: rest)
            = (BoundStatement.appendText pending ++ own) ++ emitText [] (k + 1) rest := by
          simp [emitText, hp, own]
        have hne {q : Parameter}
            (hq : q.name ∉ Code.scopeAfter ["_string_builder"] (emitText pending k (.param p :: rest)))
            : q.name ≠ "_string_builder" ∧ q.name ≠ sizeName (k + 1) ∧
                q.name ∉ Code.scopeAfter ["_string_builder"] (emitText [] (k + 1) rest) := by
          rw [hemit, Code.scopeAfter_append, Code.scopeAfter_append, scopeAfter_appendText,
            Code.mem_scopeAfter, not_or] at hq
          obtain ⟨hrest, hown⟩ := hq
          have hown : q.name ∉ [sizeName (k + 1), "_string_builder"] := hown
          rw [Code.mem_scopeAfter, not_or]
          simp only [List.mem_cons, List.not_mem_nil, or_false, not_or] at hown ⊢
          exact ⟨hown.2, hown.1, hrest, hown.2⟩
        obtain ⟨hpassed, hapart⟩ := hparams p List.mem_cons_self
        have hitems : f.get? p.name = some (.items (c.items p.name)) := by
          rw [hpassed, Call.passed, if_pos hp]
        obtain ⟨f₁, h₁, htexting₁, hagrees₁⟩ := h.appendText c pending
        rw [← hagrees₁ p.name (by simpa using (hne hapart).1)] at hitems
        obtain ⟨f₂, h₂, htexting₂, hsize₂, hagrees₂⟩ := htexting₁.appendItems c hitems (k + 1)
        have hearlier₂ {x : String} (hbuilder : x ≠ "_string_builder") (hsize : x ≠ sizeName (k + 1))
            : f₂.get? x = f.get? x := by
          rw [hagrees₂ x (by simp [hbuilder, hsize]), hagrees₁ x (by simpa using hbuilder)]
        obtain ⟨g, hg, htexting, hsizes, hearlier⟩ := ih htexting₂ [] (k + 1) fun q hq => by
          obtain ⟨hpassed, hapart⟩ := hmore q hq
          obtain ⟨hbuilder, hsize, hrest⟩ := hne hapart
          exact ⟨(hearlier₂ hbuilder hsize).trans hpassed, hrest⟩
        refine ⟨g, ?_, ?_, ?_, ?_⟩
        . rw [hemit, Code.execAll_append, Code.execAll_append, h₁, Option.bind_some, h₂,
            Option.bind_some, hg]
        . simpa [slotsText, pieceOf, hp] using htexting
        . simp only [slotsSizes, hp, if_true]
          refine ⟨?_, hsizes⟩
          -- The rest only declares later sizes, so this one is still there.
          rw [← hsize₂, Frame.datum?, hearlier _ (Nat.le_refl _), Frame.datum?]
        . intro j hj
          have hsize : sizeName j ≠ sizeName (k + 1) := by
            intro heq
            have := sizeName_injective heq
            omega
          rw [hearlier j (by omega), hearlier₂ (sizeName_ne (by decide)) hsize]

end BoundStatement

end DataAccess

import DataAccess.Proofs.Binding.Meaning
import DataAccess.Proofs.Compile.Variables

/-!
This module contains what becomes of the variables in a frame while code runs. Code puts variables in front
of the others, and changes those that are there only where they hold data of its own, which keep their kind.
Main statements: a variable that code has declared holds data at the end of it, and code makes no sense if a
part of it makes none wherever it may be run.
-/

namespace DataAccess.Code

def Datum.Alike : Datum → Datum → Prop
  | .text _, .text _ | .count _, .count _ | .statement _, .statement _ => True
  | _, _ => False

theorem Datum.Alike.trans {d e e' : Datum} (h : d.Alike e) (h' : e.Alike e') : d.Alike e' := by
  cases d <;> cases e <;> cases e' <;> trivial

theorem Datum.Alike.eq_statement {s : Statement} {d : Datum} (h : (Datum.statement s).Alike d)
    : ∃ t, d = .statement t := by
  cases d with
  | statement t => exact ⟨t, rfl⟩
  | text | count => contradiction

inductive Revised (xs : List String)
    : List (String × Variable α β) → List (String × Variable α β) → Prop where
  | nil : Revised xs [] []
  | same (v : String × Variable α β) (h : Revised xs vars revised) : Revised xs (v :: vars) (v :: revised)
  | changed (hx : x ∈ xs) (hd : d.Alike e) (h : Revised xs vars revised) :
    Revised xs ((x, .held true d) :: vars) ((x, .held true e) :: revised)

namespace Revised

variable {xs ys : List String} {vars revised final : List (String × Variable α β)} {x : String}

theorem refl (vars : List (String × Variable α β)) : Revised xs vars vars := by
  induction vars with
  | nil => exact .nil
  | cons v rest ih => exact .same v ih

theorem mono (h : Revised xs vars revised) (hxs : xs ⊆ ys) : Revised ys vars revised := by
  induction h with
  | nil => exact .nil
  | same v _ ih => exact .same v ih
  | changed hx hd _ ih => exact .changed (hxs hx) hd ih

theorem trans (h : Revised xs vars revised) (h' : Revised xs revised final) : Revised xs vars final := by
  induction h with
  | nil => exact h'
  | same v _ ih =>
    cases h' with
    | same _ h' => exact .same v (ih h')
    | changed hx hd h' => exact .changed hx hd (ih h')
  | changed hx hd _ ih =>
    cases h' with
    | same _ h' => exact .changed hx hd (ih h')
    | changed _ hd' h' => exact .changed hx (hd.trans hd') (ih h')

theorem lookup_eq (h : Revised xs vars revised) (hx : x ∉ xs) : revised.lookup x = vars.lookup x := by
  induction h with
  | nil => rfl
  | same v _ ih => rw [List.lookup_cons, List.lookup_cons, ih]
  | changed hy _ _ ih =>
    have hne : x ≠ _ := fun heq => hx (heq ▸ hy)
    rw [List.lookup_cons, List.lookup_cons, beq_eq_false_iff_ne.2 hne, ih]

theorem lookup_held (h : Revised xs vars revised) (hheld : vars.lookup x = some (.held mutable d))
    : ∃ e, revised.lookup x = some (.held mutable e) ∧ d.Alike e := by
  have hrefl : d.Alike d := by cases d <;> trivial
  induction h with
  | nil => cases hheld
  | same v _ ih =>
    rw [List.lookup_cons] at hheld ⊢
    split
    . next heq =>
      rw [heq] at hheld
      exact ⟨d, hheld, hrefl⟩
    . next hne =>
      rw [hne] at hheld
      exact ih hheld
  | changed _ hd _ ih =>
    rw [List.lookup_cons] at hheld ⊢
    split
    . next heq =>
      rw [heq] at hheld
      cases hheld
      exact ⟨_, rfl, hd⟩
    . next hne =>
      rw [hne] at hheld
      exact ih hheld

theorem lookup_of_ne_held (h : Revised xs vars revised)
    (hx : ∀ mutable d, vars.lookup x ≠ some (.held mutable d)) : revised.lookup x = vars.lookup x := by
  induction h with
  | nil => rfl
  | same w _ ih =>
    rw [List.lookup_cons] at hx
    rw [List.lookup_cons, List.lookup_cons]
    split
    . rfl
    . next hne =>
      rw [hne] at hx
      exact ih hx
  | changed _ _ _ ih =>
    rw [List.lookup_cons] at hx
    rw [List.lookup_cons, List.lookup_cons]
    split
    . next heq =>
      rw [heq] at hx
      exact absurd rfl (hx _ _)
    . next hne =>
      rw [hne] at hx
      exact ih hx

theorem of_argument {a : α} (h : Revised xs ((x, .argument a) :: vars) revised)
    : ∃ rest, revised = (x, .argument a) :: rest ∧ Revised xs vars rest := by
  cases h with
  | same _ h => exact ⟨_, rfl, h⟩

theorem replace (h : vars.lookup x = some (.held true d)) (hd : d.Alike e)
    : Revised [x] vars (replace x (.held true e) vars) := by
  induction vars with
  | nil => cases h
  | cons v rest ih =>
    obtain ⟨y, old⟩ := v
    unfold Code.replace
    rw [List.lookup_cons] at h
    split
    . next heq =>
      rw [beq_iff_eq.2 heq.symm] at h
      cases h
      rw [heq]
      exact .changed List.mem_cons_self hd (refl rest)
    . next hne =>
      rw [beq_eq_false_iff_ne.2 (Ne.symm hne)] at h
      exact .same _ (ih h)

end Revised

theorem lookup_replace_self {vars : List (String × Variable α β)} {x : String} (h : (vars.lookup x).isSome)
    (v : Variable α β) : (replace x v vars).lookup x = some v := by
  induction vars with
  | nil => cases h
  | cons w rest ih =>
    obtain ⟨y, old⟩ := w
    unfold replace
    split
    . next heq => rw [List.lookup_cons, beq_iff_eq.2 heq.symm]
    . next hne =>
      rw [List.lookup_cons, beq_eq_false_iff_ne.2 (Ne.symm hne)] at h ⊢
      exact ih h

namespace Frame

variable {f g : Frame α β} {x y : String}

@[simp]
theorem get?_push_self (f : Frame α β) (x : String) (v : Variable α β) : (f.push x v).get? x = some v :=
  List.lookup_cons_self

theorem get?_push_ne (f : Frame α β) (v : Variable α β) (h : y ≠ x) : (f.push x v).get? y = f.get? y := by
  unfold get? push
  rw [List.lookup_cons, beq_eq_false_iff_ne.2 h]

@[simp]
theorem get?_note (f : Frame α β) (h : Happening) (x : String) : (f.note h).get? x = f.get? x := rfl

theorem get?_declare_self (f : Frame α β) (mutable : Bool) (x : String) (d : Datum)
    : (f.declare mutable x d).get? x = some (.held mutable d) := by
  cases d with
  | text | count | statement => exact get?_push_self ..

theorem get?_declare_ne (f : Frame α β) (mutable : Bool) (d : Datum) (h : y ≠ x)
    : (f.declare mutable x d).get? y = f.get? y := by
  cases d with
  | text | count | statement => exact get?_push_ne f _ h

theorem change_eq_some {change : Datum → Option Datum} (h : f.change x change = some g)
    : ∃ d e, f.get? x = some (.held true d) ∧ change d = some e ∧ g = f.put x (.held true e) := by
  unfold Frame.change at h
  obtain ⟨v, hv, h⟩ := Option.bind_eq_some_iff.1 h
  split at h
  . next d =>
    obtain ⟨e, he, h⟩ := Option.bind_eq_some_iff.1 h
    cases h
    exact ⟨d, e, hv, he, rfl⟩
  . cases h

theorem change_of_held {change : Datum → Option Datum} {d e : Datum}
    (h : f.get? x = some (.held true d)) (hd : change d = some e)
    : f.change x change = some (f.put x (.held true e)) := by
  simp only [Frame.change, h, hd, Option.bind_eq_bind, Option.bind_some]
  rfl

theorem get?_put_self (v : Variable α β) (h : f.get? x = some w) : (f.put x v).get? x = some v :=
  lookup_replace_self (Option.isSome_of_eq_some h) v

theorem revised_of_change {change : Datum → Option Datum} (h : f.change x change = some g)
    (hchange : ∀ d e, change d = some e → d.Alike e)
    : Revised [x] f.vars g.vars := by
  obtain ⟨d, e, hd, he, rfl⟩ := change_eq_some h
  exact Revised.replace hd (hchange d e he)

end Frame

namespace Call

theorem alike_of_appendText {s : String} {d e : Datum} (h : appendText s d = some e) : d.Alike e := by
  cases d with
  | text => cases h; trivial
  | count | statement => cases h

theorem alike_of_appendMarks {n : Nat} {d e : Datum} (h : appendMarks n d = some e) : d.Alike e := by
  cases d with
  | text => cases h; trivial
  | count | statement => cases h

theorem alike_of_addCount {n : Nat} {d e : Datum} (h : addCount n d = some e) : d.Alike e := by
  cases d with
  | count => cases h; trivial
  | text | statement => cases h

theorem alike_of_bindSlot {slot : Nat} {v : Value} {d e : Datum} (h : bindSlot slot v d = some e)
    : d.Alike e := by
  cases d with
  | statement => cases h; trivial
  | text | count => cases h

variable {c : Call α} {f g : Frame α β}

theorem revised_of_effect {e : Expr} (h : c.effect f e = some g)
    : ∃ xs, Revised xs f.vars g.vars := by
  unfold effect at h
  split at h
  . next x e =>
    obtain ⟨d, _, h⟩ := Option.bind_eq_some_iff.1 h
    cases d with
    | text => exact ⟨[x], Frame.revised_of_change h fun _ _ => alike_of_appendText⟩
    | count | statement => cases h
  . next x e =>
    obtain ⟨d, _, h⟩ := Option.bind_eq_some_iff.1 h
    cases d with
    | count => exact ⟨[x], Frame.revised_of_change h fun _ _ => alike_of_appendMarks⟩
    | text | statement => cases h
  . next x slot e =>
    obtain ⟨d, _, h⟩ := Option.bind_eq_some_iff.1 h
    cases d with
    | count =>
      obtain ⟨a, _, h⟩ := Option.bind_eq_some_iff.1 h
      obtain ⟨f', hf', h⟩ := Option.bind_eq_some_iff.1 h
      cases h
      exact ⟨[x], Frame.revised_of_change (g := f') hf' fun _ _ => alike_of_bindSlot⟩
    | text | statement => cases h
  . cases h

theorem revised_of_step {s : Stmt} (h : c.step f s = some g)
    : ∃ xs, Revised xs f.vars g.vars := by
  unfold step at h
  split at h
  . exact revised_of_effect h
  . next x e =>
    obtain ⟨d, _, h⟩ := Option.bind_eq_some_iff.1 h
    cases d with
    | count => exact ⟨[x], Frame.revised_of_change h fun _ _ => alike_of_addCount⟩
    | text | statement => cases h
  . cases h

theorem revised_of_foldlM {step : Frame α β → γ → Option (Frame α β)}
    (hstep : ∀ f a g, step f a = some g → ∃ xs, Revised xs f.vars g.vars) {l : List γ}
    (h : l.foldlM step f = some g) : ∃ xs, Revised xs f.vars g.vars := by
  induction l generalizing f with
  | nil =>
    cases h
    exact ⟨[], .refl _⟩
  | cons a rest ih =>
    obtain ⟨f', hf', hrest⟩ := Option.bind_eq_some_iff.1 h
    obtain ⟨xs, hxs⟩ := hstep f a f' hf'
    obtain ⟨ys, hys⟩ := ih hrest
    exact ⟨xs ++ ys, (hxs.mono (List.subset_append_left ..)).trans (hys.mono (List.subset_append_right ..))⟩

/-- Behind a loop's body there is nothing left of the variable that it was gone through with. -/
theorem revised_of_goThrough {x : String} {body : List Stmt} {a : α} (h : c.goThrough f x body a = some g)
    : ∃ xs, Revised xs f.vars g.vars := by
  obtain ⟨f', hf', h⟩ := Option.bind_eq_some_iff.1 h
  cases h
  obtain ⟨xs, hxs⟩ := revised_of_foldlM (fun _ _ _ => revised_of_step) hf'
  obtain ⟨rest, hrest, hxs⟩ := hxs.of_argument
  refine ⟨xs, ?_⟩
  rw [hrest]
  exact hxs

end Call

variable {c : Call α} {f g : Frame α β}

theorem revised_of_exec {s : Stmt} (hs : s.declares = []) (h : s.exec c f = some g)
    : ∃ xs, Revised xs f.vars g.vars := by
  unfold Stmt.exec at h
  split at h
  . cases hs
  . next items body =>
    obtain ⟨l, _, h⟩ := Option.bind_eq_some_iff.1 h
    exact Call.revised_of_foldlM (fun _ _ _ => Call.revised_of_goThrough) h
  . exact Call.revised_of_step h

theorem held_of_execAll {code : List Stmt} {scope : List String} (h : execAll c f code = some g)
    (hscope : ∀ x ∈ scope, ∃ mutable d, f.get? x = some (.held mutable d)) {x : String}
    (hx : x ∈ scopeAfter scope code) : ∃ mutable d, g.get? x = some (.held mutable d) := by
  induction code generalizing f scope with
  | nil =>
    cases h
    exact hscope x hx
  | cons s rest ih =>
    obtain ⟨f', hf', hrest⟩ := Option.bind_eq_some_iff.1 h
    apply ih hrest ?_ hx
    intro y hy
    cases hs : s.declares with
    | nil =>
      obtain ⟨xs, hxs⟩ := revised_of_exec hs hf'
      rw [hs] at hy
      obtain ⟨mutable, d, hd⟩ := hscope y hy
      obtain ⟨e, he, _⟩ := hxs.lookup_held hd
      exact ⟨mutable, e, he⟩
    | cons =>
      unfold Stmt.declares at hs hy
      split at hs
      . next mutable name type e =>
        obtain ⟨d, _, hd⟩ := Option.bind_eq_some_iff.1 hf'
        cases hd
        by_cases hne : y = name
        . exact ⟨mutable, d, hne ▸ f.get?_declare_self mutable name d⟩
        . rw [f.get?_declare_ne mutable d hne]
          exact hscope y ((List.mem_cons.1 hy).resolve_left hne)
      . cases hs

/-- A variable that holds no data stays what it is, unless code declares one of its name. -/
theorem get?_of_execAll {code : List Stmt} (h : execAll c f code = some g) {x : String}
    (hx : ∀ mutable d, f.get? x ≠ some (.held mutable d)) (hcode : x ∉ scopeAfter [] code)
    : g.get? x = f.get? x := by
  induction code generalizing f with
  | nil =>
    cases h
    rfl
  | cons s rest ih =>
    obtain ⟨f', hf', hrest⟩ := Option.bind_eq_some_iff.1 h
    simp only [mem_scopeAfter, List.not_mem_nil, or_false, not_exists, not_and] at hcode ih
    have hsame : f'.get? x = f.get? x := by
      have hne := hcode s List.mem_cons_self
      cases hs : s.declares with
      | nil =>
        obtain ⟨xs, hxs⟩ := revised_of_exec hs hf'
        exact hxs.lookup_of_ne_held hx
      | cons =>
        unfold Stmt.declares at hs hne
        split at hs
        . next mutable name type e =>
          obtain ⟨d, _, hd⟩ := Option.bind_eq_some_iff.1 hf'
          cases hd
          exact f.get?_declare_ne mutable d (List.ne_of_not_mem_cons hne)
        . cases hs
    rw [← hsame] at hx ⊢
    exact ih hrest hx fun s hs => hcode s (List.mem_cons_of_mem _ hs)

/-- Code that declares nothing makes no sense if one of its statements makes none, however its variables are
by then. -/
theorem execAll_eq_none {code : List Stmt} (hcode : ∀ s ∈ code, s.declares = []) {s : Stmt} (hs : s ∈ code)
    (hnone : ∀ g : Frame α β, (∃ xs, Revised xs f.vars g.vars) → s.exec c g = none)
    : execAll c f code = none := by
  induction code generalizing f with
  | nil => cases hs
  | cons s' rest ih =>
    rw [execAll]
    rcases List.mem_cons.1 hs with rfl | hs
    . rw [hnone f ⟨[], .refl _⟩]
      rfl
    . cases hf' : s'.exec c f with
      | none => rfl
      | some f' =>
        obtain ⟨xs, hxs⟩ := revised_of_exec (hcode s' List.mem_cons_self) hf'
        apply ih (fun s hs => hcode s (List.mem_cons_of_mem _ hs)) hs
        rintro g ⟨ys, hys⟩
        exact hnone g ⟨xs ++ ys, (hxs.mono (List.subset_append_left ..)).trans
          (hys.mono (List.subset_append_right ..))⟩

end DataAccess.Code

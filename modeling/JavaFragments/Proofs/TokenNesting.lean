import JavaFragments.Token
import Mathlib.Data.List.Basic

/-! # Nesting inside a fragment

Among the tokens of one fragment a start calls for the end of its kind. `Nested` says that each
start has its end behind it, that what stands between the two nests as well, and that no end stands
without a start. Reading the tokens with a stack of the ends that are due decides it. -/
set_option autoImplicit false

namespace JavaFragments

namespace Token

/-- The end that a start calls for. -/
def closing? : Token → Option Token
  | .startBlock block => some (.endBlock block)
  | .startMarker marker => some (.endMarker marker)
  | _ => none

def isEnd : Token → Bool
  | .endBlock _ => true
  | .endMarker _ => true
  | _ => false

/-- Neither a start nor an end. -/
def standsAlone (token : Token) : Bool :=
  token.closing?.isNone && !token.isEnd

theorem isEnd_of_closing {opening closing : Token} (h : opening.closing? = some closing) :
    closing.isEnd = true ∧ closing.closing? = none := by
  cases opening <;> cases h <;> exact ⟨rfl, rfl⟩

end Token

inductive Nested : List Token → Prop where
  | nil : Nested []
  | alone {token : Token} {rest : List Token} (h : token.standsAlone = true) :
      Nested rest → Nested (token :: rest)
  | enclosed {opening closing : Token} {inside rest : List Token}
      (h : opening.closing? = some closing) :
      Nested inside → Nested rest → Nested (opening :: (inside ++ closing :: rest))

namespace Nested
variable {front back inside ts : List Token}

theorem append (hfront : Nested front) (hback : Nested back) : Nested (front ++ back) := by
  induction hfront with
  | nil => exact hback
  | alone h _ ih => exact .alone h ih
  | enclosed h hinside _ _ ih =>
      rw [List.cons_append, List.append_assoc, List.cons_append]
      exact .enclosed h hinside ih

theorem ofAlone (h : ts.all Token.standsAlone = true) : Nested ts := by
  induction ts with
  | nil => exact .nil
  | cons token rest ih =>
      rw [List.all_cons, Bool.and_eq_true] at h
      exact .alone h.1 (ih h.2)

end Nested

/-! ## Reading with a stack -/

/-- The ends that are due behind a token, the innermost first. Only the innermost one may come. -/
def nestingStep (due : List Token) (token : Token) : Option (List Token) :=
  match token.closing? with
  | some closing => some (closing :: due)
  | none =>
      if token.isEnd then
        match due with
        | [] => none
        | closing :: outer => if token = closing then some outer else none
      else some due

section Steps
variable {token opening closing : Token}

theorem nestingStep_start (h : opening.closing? = some closing) (due : List Token) :
    nestingStep due opening = some (closing :: due) := by
  simp only [nestingStep, h]

theorem nestingStep_end (h : closing.isEnd = true ∧ closing.closing? = none) (due : List Token) :
    nestingStep (closing :: due) closing = some due := by
  simp [nestingStep, h.1, h.2]

theorem nestingStep_alone (h : token.standsAlone = true) (due : List Token) :
    nestingStep due token = some due := by
  rw [Token.standsAlone, Bool.and_eq_true, Option.isNone_iff_eq_none, Bool.not_eq_true'] at h
  simp [nestingStep, h.1, h.2]

/-- What a token can do: open, close the innermost, or stand alone. -/
theorem nestingStep_cases {due behind : List Token} (h : nestingStep due token = some behind) :
    (∃ closing, token.closing? = some closing ∧ behind = closing :: due) ∨
      due = token :: behind ∨ (token.standsAlone = true ∧ behind = due) := by
  unfold nestingStep at h
  cases hstart : token.closing? with
  | some closing =>
      simp only [hstart, Option.some.injEq] at h
      exact .inl ⟨closing, rfl, h.symm⟩
  | none =>
      simp only [hstart] at h
      by_cases hend : token.isEnd = true
      · rw [if_pos hend] at h
        cases due with
        | nil => cases h
        | cons closing outer =>
            by_cases hsame : token = closing
            · simp only [if_pos hsame, Option.some.injEq] at h
              exact .inr (.inl (by rw [hsame, h]))
            · simp only [if_neg hsame] at h
              cases h
      · rw [if_neg hend, Option.some.injEq] at h
        rw [Bool.not_eq_true] at hend
        exact .inr (.inr ⟨by rw [Token.standsAlone, hstart, hend]; rfl, h.symm⟩)

end Steps

/-- Nested tokens leave the ends that are due as they are. -/
theorem Nested.read {ts : List Token} (h : Nested ts) (due : List Token) :
    ts.foldlM nestingStep due = some due := by
  induction h generalizing due with
  | nil => rfl
  | alone h _ ih => rw [List.foldlM_cons, nestingStep_alone h, Option.bind_eq_bind,
      Option.bind_some, ih]
  | enclosed h _ _ ihInside ihRest =>
      rw [List.foldlM_cons, nestingStep_start h, Option.bind_eq_bind, Option.bind_some,
        List.foldlM_append, ihInside, Option.bind_eq_bind, Option.bind_some, List.foldlM_cons,
        nestingStep_end (Token.isEnd_of_closing h), Option.bind_eq_bind, Option.bind_some, ihRest]

/-- The tokens bring the ends that are due in their turn, and nest between them. -/
inductive Settles : List Token → List Token → Prop where
  | nested {ts : List Token} : Nested ts → Settles [] ts
  | due {closing : Token} {outer inside rest : List Token} :
      Nested inside → Settles outer rest → Settles (closing :: outer) (inside ++ closing :: rest)

theorem Settles.behind {due front back : List Token} (hfront : Nested front)
    (h : Settles due back) : Settles due (front ++ back) := by
  cases h with
  | nested hback => exact .nested (hfront.append hback)
  | due hinside hrest =>
      rw [← List.append_assoc]
      exact .due (hfront.append hinside) hrest

theorem settles_of_read {due ts : List Token} (h : ts.foldlM nestingStep due = some []) :
    Settles due ts := by
  induction ts generalizing due with
  | nil =>
      cases Option.some.inj h
      exact .nested .nil
  | cons token rest ih =>
      rw [List.foldlM_cons, Option.bind_eq_bind, Option.bind_eq_some_iff] at h
      obtain ⟨behind, hstep, hread⟩ := h
      have hrest := ih hread
      rcases nestingStep_cases hstep with ⟨closing, hstart, rfl⟩ | rfl | ⟨halone, rfl⟩
      · -- The end of this start is the first that is due behind it.
        cases hrest with
        | @due _ _ inside rest hinside hrest =>
            have hblock : Nested (token :: (inside ++ [closing])) := .enclosed hstart hinside .nil
            have hall := hrest.behind hblock
            rw [List.cons_append, List.append_assoc] at hall
            exact hall
      · exact .due .nil hrest
      · exact hrest.behind (.alone halone .nil)

/-- Tokens nest just where reading them leaves no end due. -/
theorem nested_iff_read (ts : List Token) : Nested ts ↔ ts.foldlM nestingStep [] = some [] := by
  constructor
  · intro h
    exact h.read []
  · intro h
    cases settles_of_read h with
    | nested h => exact h

instance (ts : List Token) : Decidable (Nested ts) :=
  decidable_of_iff _ (nested_iff_read ts).symm

example : ¬ Nested [.startBlock .parameters, .keyword "this", .endBlock .resources] := by
  decide

end JavaFragments

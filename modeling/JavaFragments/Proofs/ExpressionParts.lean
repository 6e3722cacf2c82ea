import JavaFragments.Phrase.Expression

/-! # The parts of an expression

`parts` are the expressions directly below an expression, in printed order. Facts about all
expressions are proved by `induction_on_parts`. -/
set_option autoImplicit false

namespace JavaFragments

namespace Expression

def parts : Expression → List Expression
  | .field object _ => object.toList
  | .call object _ arguments => object.toList ++ arguments
  | .new _ arguments => arguments
  | .binary _ left right => [left, right]
  | .unary _ operand => [operand]
  | .assignment _ target value => [target, value]
  | .typeCast _ operand => [operand]
  | .instanceOf operand _ => [operand]
  | .conditional condition whenTrue whenFalse => [condition, whenTrue, whenFalse]
  | .arrayAccess array index => [array, index]
  | .lambda _ body => [body]
  | _ => []

theorem sizeOf_lt_of_mem_parts {part e : Expression} (h : part ∈ e.parts) :
    sizeOf part < sizeOf e := by
  have hobject : ∀ object : Option Expression, part ∈ object.toList →
      sizeOf part < sizeOf object := by
    rintro (_ | object) hpart
    · cases hpart
    · cases List.mem_singleton.1 hpart
      simp
  cases e with
  | field object _ =>
      have := hobject object h
      simp
      omega
  | call object _ arguments =>
      simp only [parts, List.mem_append] at h
      rcases h with h | h
      · have := hobject object h
        simp
        omega
      · have := List.sizeOf_lt_of_mem h
        simp
        omega
  | new _ arguments =>
      have := List.sizeOf_lt_of_mem (show part ∈ arguments from h)
      simp
      omega
  | binary | unary | assignment | typeCast | instanceOf | conditional | arrayAccess | lambda =>
      simp only [parts, List.mem_cons, List.not_mem_nil, or_false] at h
      rcases h with rfl | rfl | rfl <;> simp <;> omega
  | _ => simp [parts] at h

/-- What holds of an expression when it holds of its parts holds of every expression. -/
theorem induction_on_parts {motive : Expression → Prop}
    (step : ∀ e : Expression, (∀ part ∈ e.parts, motive part) → motive e) (e : Expression) :
    motive e :=
  step e fun part _ => induction_on_parts step part
termination_by sizeOf e
decreasing_by exact sizeOf_lt_of_mem_parts ‹_›

end Expression

theorem expressionPhrases_eq_map (env : Environment) (expressions : List Expression) :
    expressionPhrases env expressions = expressions.map (Expression.phrase env) := by
  induction expressions with
  | nil => rfl
  | cons e rest ih => rw [expressionPhrases, ih, List.map_cons]

end JavaFragments

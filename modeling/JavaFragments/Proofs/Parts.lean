import JavaFragments.Statement

/-! # The parts of a statement

`parts` are the statements directly below a statement, in printed order, and `Within` is the
closure of that. Facts about all statements are proved by `induction_on_parts`.

A `try` with an empty list of resources is a fault. `faultPath?` leads to the first one in printed
order: it lists the statements around it, the outermost first. -/
set_option autoImplicit false

namespace JavaFragments

def SwitchBlock.body : SwitchBlock → Statement
  | .label _ body => body
  | .multiLabels _ body => body

namespace Statement

def parts : Statement → List Statement
  | .doWhile _ body => body.toList
  | .forLoop _ _ _ _ body => body.toList
  | .forEach _ _ _ body => body.toList
  | .ifThen _ body => body.toList
  | .ifElse _ whenTrue whenFalse => [whenTrue, whenFalse]
  | .labelled _ statement => statement.toList
  | .sequence statements => statements
  | .switch _ blocks => blocks.map SwitchBlock.body
  | .synchronized _ body => body.toList
  | .tryCatch _ body catchClauses finallyBody =>
      body :: (catchClauses.map CatchClause.body ++ finallyBody.toList)
  | .whileLoop _ body => body.toList
  | _ => []

/-- The statement itself, or one anywhere below it. -/
inductive Within : Statement → Statement → Prop where
  | self (s : Statement) : Within s s
  | inside {inner part outer : Statement} :
      part ∈ outer.parts → Within inner part → Within inner outer

theorem sizeOf_body_lt (b : SwitchBlock) : sizeOf b.body < sizeOf b := by
  cases b <;> simp only [SwitchBlock.body, SwitchBlock.label.sizeOf_spec,
    SwitchBlock.multiLabels.sizeOf_spec] <;> omega

theorem sizeOf_clause_lt (c : CatchClause) : sizeOf c.body < sizeOf c := by
  cases c
  simp only [CatchClause.mk.sizeOf_spec]
  omega

theorem sizeOf_lt_of_mem_toList {body : Option Statement} {part : Statement}
    (h : part ∈ body.toList) : sizeOf part < sizeOf body := by
  have hb : body = some part := by simpa using h
  simp only [hb, Option.some.sizeOf_spec]
  omega

theorem sizeOf_lt_of_mem_parts {part s : Statement} (h : part ∈ s.parts) :
    sizeOf part < sizeOf s := by
  cases s with
  | doWhile _ body | whileLoop _ body | ifThen _ body | labelled _ body | synchronized _ body
  | forEach _ _ _ body | forLoop _ _ _ _ body =>
      have := sizeOf_lt_of_mem_toList h
      simp
      omega
  | ifElse _ whenTrue whenFalse =>
      simp only [parts, List.mem_cons, List.not_mem_nil, or_false] at h
      rcases h with rfl | rfl
      · simp only [ifElse.sizeOf_spec]
        omega
      · simp only [ifElse.sizeOf_spec]
        omega
  | sequence statements =>
      have := List.sizeOf_lt_of_mem (show part ∈ statements from h)
      simp
      omega
  | switch _ blocks =>
      obtain ⟨b, hb, rfl⟩ := List.mem_map.1 h
      have := List.sizeOf_lt_of_mem hb
      have := sizeOf_body_lt b
      simp
      omega
  | tryCatch _ body catchClauses finallyBody =>
      simp only [parts, List.mem_cons, List.mem_append, List.mem_map] at h
      rcases h with rfl | ⟨c, hc, rfl⟩ | h
      · simp
        omega
      · have := List.sizeOf_lt_of_mem hc
        have := sizeOf_clause_lt c
        simp
        omega
      · have := sizeOf_lt_of_mem_toList h
        simp
        omega
  | _ => simp [parts] at h

/-- What holds of a statement when it holds of its parts holds of every statement. -/
theorem induction_on_parts {motive : Statement → Prop}
    (step : ∀ s : Statement, (∀ part ∈ s.parts, motive part) → motive s) (s : Statement) :
    motive s :=
  step s fun part _ => induction_on_parts step part
termination_by sizeOf s
decreasing_by exact sizeOf_lt_of_mem_parts ‹_›

theorem count_eq_zero {s : Statement} (h : s.count = 0) : s = .sequence [] := by
  cases s with
  | sequence statements => rw [List.eq_nil_of_length_eq_zero h]
  | _ => cases h

/-- The statement and all those below it, in printed order. -/
def nodes (s : Statement) : List Statement :=
  s :: s.parts.attach.flatMap fun ⟨part, _⟩ => part.nodes
termination_by sizeOf s
decreasing_by exact sizeOf_lt_of_mem_parts ‹_›

theorem nodes_eq (s : Statement) : s.nodes = s :: s.parts.flatMap nodes := by
  rw [nodes]
  simp

/-- A `try` with an empty list of resources. -/
def lacksResources : Statement → Bool
  | .tryCatch (some []) .. => true
  | _ => false

/-- The statements around the first fault of a statement, and nothing where it has none. -/
def faultPath? (s : Statement) : Option (List Statement) :=
  if s.lacksResources then some []
  else (s.parts.attach.findSome? fun ⟨part, _⟩ => part.faultPath?).map (s :: ·)
termination_by sizeOf s
decreasing_by exact sizeOf_lt_of_mem_parts ‹_›

theorem faultPath?_eq (s : Statement) :
    s.faultPath? =
      if s.lacksResources then some [] else (s.parts.findSome? faultPath?).map (s :: ·) := by
  rw [faultPath?]
  simp

theorem faultPath?_eq_none_iff (s : Statement) :
    s.faultPath? = none ↔ ∀ t : Statement, t.Within s → t.lacksResources = false := by
  induction s using induction_on_parts with
  | step s ih =>
      rw [faultPath?_eq]
      constructor
      · intro h t ht
        split at h
        · simp at h
        · rename_i hs
          have hparts : ∀ part ∈ s.parts, part.faultPath? = none := by
            simpa using h
          cases ht with
          | self => simpa using hs
          | inside hpart hin => exact (ih _ hpart).1 (hparts _ hpart) t hin
      · intro h
        rw [if_neg (by simp [h s (.self s)])]
        have hparts : ∀ part ∈ s.parts, part.faultPath? = none := fun part hpart =>
          (ih part hpart).2 fun t ht => h t (.inside hpart ht)
        simpa using hparts

end Statement

end JavaFragments

import JavaFragments.Proofs.Balance
import JavaFragments.Proofs.ExpressionTokens
import JavaFragments.Proofs.Renumbering
import JavaFragments.Proofs.UnbracedRuns

/-! # Unbraced bodies

An `if` takes braces for a body of several elements and a loop for a body of several fragments. So
an unbraced body can be silent, such as a sequence of an empty sequence or a comment, and it can
spread, such as a sequence of one sequence. `holdsBody` says which bodies are neither, by the tree
alone, and the unbraced blocks of a method hold one statement each just if all its bodies do. -/
set_option autoImplicit false

namespace JavaFragments

namespace Statement

mutual

/-- The number of fragments of a statement that prints comments at most, and nothing for any other
statement. -/
def silence? : Statement → Option Nat
  | .comment _ => some 1
  | .byteCode _ => some 1
  | .sequence statements => silences? statements
  | .tryCatch none body [] none => body.silence?.map (· + 2)
  | _ => none

/-- Between each two statements stands a spacer. -/
def silences? : List Statement → Option Nat
  | [] => some 0
  | [s] => s.silence?
  | s :: rest => Option.map₂ (· + ·) (s.silence?.map (· + 1)) (silences? rest)

end

/-- Whether the statement prints several statements side by side. -/
def spreads : Statement → Bool
  | .sequence [] => false
  | .sequence [s] => s.spreads
  | .sequence _ => true
  | .labelled _ (some s) => s.spreads
  | _ => false

/-- Whether the body of the statement, where it is printed without braces, prints one statement. An
`if` in the place of an `else` branch always takes braces. -/
def holdsBody (chained : Bool) : Statement → Bool
  | .ifThen _ (some body) =>
      chained || body.count != 1 || (body.silence?.isNone && !body.spreads)
  | .forLoop _ _ _ _ body => silences? body.toList != some 1
  | .forEach _ _ _ body => silences? body.toList != some 1
  | .whileLoop _ body => silences? body.toList != some 1
  | _ => true

/-- The parts of a statement, and whether each of them stands in the place of an `else` branch. -/
def placedParts (chained : Bool) : Statement → List (Bool × Statement)
  | .ifElse _ whenTrue whenFalse => [(false, whenTrue), (true, whenFalse)]
  | .sequence [s] => [(chained && s.isConditional, s)]
  | s => s.parts.map fun part => (false, part)

theorem mem_parts_of_mem_placedParts {chained : Bool} {s : Statement} {placed : Bool × Statement}
    (h : placed ∈ s.placedParts chained) : placed.2 ∈ s.parts := by
  unfold placedParts at h
  split at h
  · rcases placed with ⟨flag, part⟩
    simp at h
    rcases h with ⟨-, rfl⟩ | ⟨-, rfl⟩ <;> simp [parts]
  · rw [List.mem_singleton] at h
    simp [h, parts]
  · obtain ⟨part, hpart, rfl⟩ := List.mem_map.1 h
    exact hpart

/-- The statement and all those below it, and whether each stands in the place of an `else`. -/
def placedNodes (chained : Bool) (s : Statement) : List (Bool × Statement) :=
  (chained, s) :: (s.placedParts chained).attach.flatMap fun ⟨(flag, part), _⟩ =>
    part.placedNodes flag
termination_by sizeOf s
decreasing_by exact sizeOf_lt_of_mem_parts (mem_parts_of_mem_placedParts ‹_›)

theorem placedNodes_eq (chained : Bool) (s : Statement) :
    s.placedNodes chained = (chained, s) :: (s.placedParts chained).flatMap fun placed =>
      placed.2.placedNodes placed.1 := by
  rw [placedNodes]
  conv_rhs => rw [← List.attach_map_subtype_val (s.placedParts chained), List.flatMap_map]

/-- All bodies that are printed without braces print one statement. -/
def HoldsBodies (chained : Bool) (s : Statement) : Prop :=
  ∀ placed ∈ s.placedNodes chained, placed.2.holdsBody placed.1 = true

theorem holdsBodies_iff (chained : Bool) (s : Statement) :
    s.HoldsBodies chained ↔ s.holdsBody chained = true ∧
      ∀ placed ∈ s.placedParts chained, placed.2.HoldsBodies placed.1 := by
  rw [HoldsBodies, placedNodes_eq, List.forall_mem_cons, List.forall_mem_flatMap]
  rfl

/-- Where a statement takes no body without braces and chains none of its parts. -/
theorem holdsBodies_iff_parts (chained : Bool) {s : Statement}
    (hbody : s.holdsBody chained = true)
    (hparts : s.placedParts chained = s.parts.map fun part => (false, part)) :
    s.HoldsBodies chained ↔ ∀ part ∈ s.parts, part.HoldsBodies false := by
  rw [holdsBodies_iff, hparts, List.forall_mem_map]
  exact and_iff_right hbody

end Statement

/-! ## Phrases and comments -/

theorem not_isComment_simpleStatement (phrase : Phrase) :
    ¬ IsComment (simpleStatement phrase).tokens :=
  not_isComment_of_head fun h => by cases h

theorem not_isComment_expression (env : Environment) (e : Expression) :
    ¬ IsComment (e.phrase env).tokens := by
  rintro ⟨inner, heq⟩
  have hall := e.ofExpression env
  rw [OfExpression, heq] at hall
  cases hall

theorem not_isComment_jump {word : String} (label : Option String) :
    ¬ IsComment (jumpPhrase word label).tokens := by
  cases label <;> exact not_isComment_keyword _ _

theorem isComment_commentPhrase (text : String) : IsComment (commentPhrase text).tokens :=
  ⟨_, rfl⟩

namespace Head

def isComment : Head → Bool
  | .comment _ => true
  | _ => false

theorem isComment_phrase (env : Environment) (head : Head) :
    IsComment (head.phrase env).tokens ↔ head.isComment = true := by
  cases head with
  | comment text => exact iff_of_true (isComment_commentPhrase text) rfl
  | guard | loopEnd | emptySynchronized | returnVoid =>
      exact iff_of_false (not_isComment_keyword _ _) Bool.false_ne_true
  | jump word target => exact iff_of_false (not_isComment_jump target) Bool.false_ne_true
  | lambda e => exact iff_of_false (not_isComment_expression env e) Bool.false_ne_true
  | label | labelOf | semicolon =>
      exact iff_of_false (not_isComment_of_head fun h => by cases h) Bool.false_ne_true
  | switchLabel entry =>
      cases entry <;> exact iff_of_false (not_isComment_keyword _ _) Bool.false_ne_true
  | _ => exact iff_of_false (not_isComment_simpleStatement _) Bool.false_ne_true

end Head

/-! ## The shape of a layout -/

namespace Layout

/-- The number of fragments of a layout that yields comments at most. -/
@[simp] def silence? : {scope : Scope} → Layout scope → Option Nat
  | _, .nothing | _, .reported _ | _, .done => some 0
  | _, .said head => if head.isComment then some 1 else none
  | _, .spacer _ => some 1
  | _, .part s => s.silence?
  | _, .both first second => Option.map₂ (· + ·) first.silence? second.silence?
  | _, .block _ body rest => Option.map₂ (· + ·) (body.silence?.map (· + 2)) rest.silence?
  | _, .declared _ | _, .loop .. | _, .attempt .. | _, .clause .. | _, .branch _ => none

/-- The layout puts several statements side by side. -/
@[simp] def Spreads : {scope : Scope} → Layout scope → Prop
  | _, .spacer kind => kind = .betweenStatements
  | _, .part s => s.spreads = true
  | _, .both first second => first.Spreads ∨ second.Spreads
  | _, .block _ _ rest | _, .attempt _ _ rest | _, .clause _ _ rest => rest.Spreads
  | _, .nothing | _, .reported _ | _, .said _ | _, .declared _ | _, .loop .. => False
  | _, .done | _, .branch _ => False

/-- All bodies that are printed without braces print one statement. -/
@[simp] def HoldsBodies : {scope : Scope} → Layout scope → Prop
  | _, .part s => s.HoldsBodies false
  | _, .branch s => s.HoldsBodies true
  | _, .both first second => first.HoldsBodies ∧ second.HoldsBodies
  | _, .loop _ body => body.HoldsBodies ∧ body.silence? ≠ some 1
  | _, .block kind body rest =>
      ((kind = .singleStatement → body.silence? = none ∧ ¬ body.Spreads) ∧ body.HoldsBodies) ∧
        rest.HoldsBodies
  | _, .attempt _ body rest => body.HoldsBodies false ∧ rest.HoldsBodies
  | _, .clause _ body rest => body.HoldsBodies ∧ rest.HoldsBodies
  | _, .nothing | _, .reported _ | _, .said _ | _, .spacer _ | _, .declared _ | _, .done => True

section Lists

theorem silence?_statements (statements : List Statement) :
    (spaced .betweenStatements (statements.map .part)).silence? =
      Statement.silences? statements := by
  induction statements with
  | nil => rfl
  | cons s rest ih =>
      cases rest with
      | nil => rfl
      | cons second rest =>
          have hcons : Statement.silences? (s :: second :: rest) =
              Option.map₂ (· + ·) (s.silence?.map (· + 1))
                (Statement.silences? (second :: rest)) := by
            rw [Statement.silences?]
            simp
          rw [hcons, List.map_cons, List.map_cons, spaced_cons, ← List.map_cons, silence?,
            silence?, silence?, silence?, ih]
          cases s.silence? with
          | none => rfl
          | some n => cases Statement.silences? (second :: rest) <;> simp [Nat.add_assoc]

theorem silence?_body (b : Option Statement) :
    (body b).silence? = Statement.silences? b.toList := by
  cases b <;> rfl

theorem spreads_statements (statements : List Statement) :
    (spaced .betweenStatements (statements.map .part)).Spreads ↔
      (Statement.sequence statements).spreads = true := by
  rcases statements with _ | ⟨first, _ | ⟨second, rest⟩⟩
  · simp [spaced, Statement.spreads]
  · simp [spaced, Statement.spreads]
  · simp [spaced_cons, Statement.spreads]

theorem holdsBodies_spaced (kind : Spacer) (layouts : List (Layout .own)) :
    (spaced kind layouts).HoldsBodies ↔ ∀ layout ∈ layouts, layout.HoldsBodies := by
  induction layouts with
  | nil => simp [spaced]
  | cons first rest ih =>
      cases rest with
      | nil => simp [spaced]
      | cons second rest =>
          rw [spaced_cons, HoldsBodies, HoldsBodies, ih, List.forall_mem_cons]
          simp

theorem holdsBodies_body (b : Option Statement) :
    (body b).HoldsBodies ↔ ∀ part ∈ b.toList, part.HoldsBodies false := by
  cases b <;> simp [body]

theorem silence?_clauses (catchClauses : List CatchClause) (finallyBody : Option Statement) :
    (clauses finallyBody catchClauses).silence? =
      if catchClauses.isEmpty && finallyBody.isNone then some 0 else none := by
  cases catchClauses <;> cases finallyBody <;> rfl

theorem not_spreads_clauses (catchClauses : List CatchClause) (finallyBody : Option Statement) :
    ¬ (clauses finallyBody catchClauses).Spreads := by
  induction catchClauses with
  | nil => cases finallyBody <;> exact id
  | cons c rest ih => exact ih

theorem holdsBodies_clauses (catchClauses : List CatchClause) (finallyBody : Option Statement) :
    (clauses finallyBody catchClauses).HoldsBodies ↔
      ∀ part ∈ catchClauses.map CatchClause.body ++ finallyBody.toList,
        part.HoldsBodies false := by
  induction catchClauses with
  | nil => cases finallyBody <;> simp [clauses]
  | cons c rest ih => simp [clauses, ih]

end Lists

end Layout

theorem SwitchBlock.holdsBodies_layout (b : SwitchBlock) :
    b.layout.HoldsBodies ↔ b.body.HoldsBodies false := by
  cases b with
  | label label body => simp [layout, Layout.labelled, SwitchBlock.body]
  | multiLabels labels body =>
      simp [layout, Layout.labelled, Layout.holdsBodies_spaced, SwitchBlock.body]

namespace Statement

theorem silence?_layout (s : Statement) : s.layout.silence? = s.silence? := by
  cases s with
  | doWhile condition body =>
      exact Option.map₂_none_right _ _
  | labelled label statement => cases statement <;> rfl
  | sequence statements => exact Layout.silence?_statements statements
  | synchronized monitor body => cases body <;> rfl
  | tryCatch resources body catchClauses finallyBody =>
      cases resources with
      | some resources => rfl
      | none =>
          rw [layout, Layout.silence?, Layout.silence?_clauses, Layout.silence?]
          cases catchClauses <;> cases finallyBody <;> cases hbody : body.silence? <;>
            simp [silence?, hbody]
  | _ => rfl

theorem silence?_branchLayout (s : Statement) : s.branchLayout.silence? = none := by
  unfold branchLayout
  split
  · rfl
  · rfl
  · split <;> rfl
  · rfl

theorem spreads_layout (s : Statement) : s.layout.Spreads ↔ s.spreads = true := by
  cases s with
  | ifThen condition body =>
      cases body with
      | none => simp [layout, Layout.guarded, spreads]
      | some b =>
          rw [layout, Layout.guarded]
          split <;> simp [spreads]
  | labelled label statement => cases statement <;> simp [layout, spreads]
  | sequence statements => exact Layout.spreads_statements statements
  | synchronized monitor body => cases body <;> simp [layout, spreads]
  | tryCatch resources body catchClauses finallyBody =>
      have hclauses := Layout.not_spreads_clauses catchClauses finallyBody
      cases resources <;> exact iff_of_false hclauses Bool.false_ne_true
  | _ => simp [layout, spreads]

theorem not_spreads_branchLayout (s : Statement) : ¬ s.branchLayout.Spreads := by
  unfold branchLayout
  split
  · exact id
  · exact id
  · split <;> exact id
  · exact id

theorem holdsBodies_emptySequence : (sequence []).HoldsBodies false :=
  (holdsBodies_iff_parts _ rfl rfl).2 fun _ hpart => nomatch hpart

theorem holdsBodies_layout (s : Statement) : s.layout.HoldsBodies ↔ s.HoldsBodies false := by
  cases s with
  | forLoop | forEach | whileLoop =>
      rw [holdsBodies_iff]
      simp [layout, Layout.holdsBodies_body, Layout.silence?_body, holdsBody, placedParts, parts,
        and_comm]
  | doWhile condition body =>
      rw [holdsBodies_iff_parts _ rfl rfl]
      simp [layout, Layout.holdsBodies_body, parts]
  | ifThen condition body =>
      rw [holdsBodies_iff]
      cases body with
      | none => simp [layout, Layout.guarded, holdsBody, placedParts, parts]
      | some b =>
          rw [layout, Layout.HoldsBodies, Layout.guarded]
          split
          · rename_i hcount
            obtain rfl := count_eq_zero hcount
            simp [holdsBody, count, placedParts, parts, holdsBodies_emptySequence]
          · rename_i hcount
            simp [holdsBody, hcount, placedParts, parts]
          · rename_i hcount
            have hmany : b.count ≠ 1 := hcount
            simp [holdsBody, hmany, placedParts, parts]
  | ifElse condition whenTrue whenFalse =>
      rw [holdsBodies_iff]
      simp [layout, holdsBody, placedParts]
  | labelled label statement =>
      rw [holdsBodies_iff_parts _ rfl rfl]
      cases statement <;> simp [layout, parts]
  | sequence statements =>
      rw [layout, Layout.holdsBodies_spaced, List.forall_mem_map, holdsBodies_iff]
      rcases statements with _ | ⟨first, _ | ⟨second, rest⟩⟩
      · simp [holdsBody, placedParts, parts]
      · simp [holdsBody, placedParts]
      · simp [holdsBody, placedParts, parts]
  | switch condition blocks =>
      rw [holdsBodies_iff_parts _ rfl rfl]
      simp [layout, Layout.holdsBodies_spaced, SwitchBlock.holdsBodies_layout, parts]
  | synchronized monitor body =>
      rw [holdsBodies_iff_parts _ rfl rfl]
      cases body <;> simp [layout, parts]
  | tryCatch resources body catchClauses finallyBody =>
      rw [holdsBodies_iff_parts _ rfl rfl, parts, List.forall_mem_cons]
      cases resources <;> simp only [layout, Layout.HoldsBodies, Layout.holdsBodies_clauses]
      simp
  | _ =>
      rw [holdsBodies_iff_parts _ rfl rfl]
      simp [layout, parts]

/-- Only a conditional differs in the place of an `else` branch. -/
theorem holdsBodies_of_not_conditional {s : Statement} (h : s.unwrapped.isConditional = false) :
    s.HoldsBodies true ↔ s.HoldsBodies false := by
  have hsame : s.holdsBody true = s.holdsBody false ∧ s.placedParts true = s.placedParts false := by
    cases s with
    | ifThen | ifElse => cases h
    | sequence statements =>
        rcases statements with _ | ⟨first, _ | ⟨second, rest⟩⟩
        · exact ⟨rfl, rfl⟩
        · have hfirst : first.isConditional = false := h
          simp [holdsBody, placedParts, hfirst]
        · exact ⟨rfl, rfl⟩
    | _ => exact ⟨rfl, rfl⟩
  rw [holdsBodies_iff, holdsBodies_iff, hsame.1, hsame.2]

theorem holdsBodies_branchLayout (s : Statement) :
    s.branchLayout.HoldsBodies ↔ s.HoldsBodies true := by
  cases s using branchLayout_cases with
  | ifThen condition body =>
      rw [branchLayout, Layout.HoldsBodies, Layout.holdsBodies_body, Layout.HoldsBodies, and_true]
      exact (holdsBodies_iff_parts true (s := .ifThen condition body) (by cases body <;> rfl)
        rfl).symm
  | ifElse condition whenTrue whenFalse =>
      rw [holdsBodies_iff]
      simp [branchLayout, holdsBody, placedParts]
  | chained first hfirst hlayout =>
      rw [hlayout, Layout.HoldsBodies, holdsBodies_iff true (.sequence [first])]
      simp [holdsBody, placedParts, hfirst]
  | placed s hplain hlayout =>
      rw [hlayout, Layout.HoldsBodies, Layout.HoldsBodies, and_true, holdsBodies_layout,
        holdsBodies_of_not_conditional hplain]

end Statement

/-! ## The shape of a yield -/

/-- Tokens in fragments of their own hold no block. -/
theorem shaped_tokensRun (run : List (List Token)) :
    ∃ silence, Shaped silence False True (run.map .tokens) := by
  induction run with
  | nil => exact ⟨_, shaped_nil⟩
  | cons ts rest ih =>
      obtain ⟨silence, hrest⟩ := ih
      by_cases hts : IsComment ts
      · exact ⟨_, ((shaped_comment hts).append hrest).congr (by simp) (by simp)⟩
      · exact ⟨_, hrest.behind hts⟩

/-- A body that yields nothing holds one statement wherever it needs to. -/
theorem Shaped.sound_of_nil {silence : Option Nat} {spread sound : Prop}
    (h : Shaped silence spread sound []) : sound ∧ silence ≠ some 1 :=
  ⟨h.sound_iff.1 (shaped_nil.sound_iff.2 trivial), fun hone => by
    simpa using h.length_eq 1 hone⟩

/-- A loop takes braces off a single fragment, which is to be neither a comment nor a spacer. -/
theorem Shaped.loopBody {silence : Option Nat} {spread sound : Prop} {inner : List Fragment}
    (h : Shaped silence spread sound inner) (hinner : inner ≠ []) (group : Group) :
    Shaped (silence.map (· + 2)) False (sound ∧ silence ≠ some 1)
      (JavaFragments.bracketed (loopKind inner) group inner []) := by
  rcases inner with _ | ⟨fragment, _ | ⟨second, rest⟩⟩
  · exact absurd rfl hinner
  · exact h.unbraced_one group
  · have hsilence : silence ≠ some 1 := fun hone => by simpa using h.length_eq 1 hone
    exact (h.braced .statements (by decide) group).congr Iff.rfl (and_iff_left hsilence).symm

/-- What a layout yields where it succeeds has the shape of the layout. -/
theorem Layout.Yields.shaped {env : Environment} {printer : DeclarationPrinter}
    (hprinter : printer.PrintsTokens) {scope : Scope} {layout : Layout scope}
    {outer : Option Group} {low high : Group} {run : List Fragment} {mentioned : List ClassType}
    {failure : Option FragmentationError}
    (h : layout.Yields env printer.writer outer low run mentioned high failure)
    (hok : failure = none) : Shaped layout.silence? layout.Spreads layout.HoldsBodies run := by
  have hkeyword := not_isComment_keyword
  induction h with
  | nothing | reported | done => exact shaped_nil
  | said head =>
      have hcomment := head.isComment_phrase env
      rw [silence?]
      split
      · rename_i hhead
        exact shaped_comment (hcomment.2 hhead)
      · rename_i hhead
        exact shaped_tokens (mt hcomment.1 hhead)
  | spacer kind => exact shaped_spacer kind
  | @declared declaration _ _ _ hrun =>
      obtain ⟨tokens, htokens⟩ := hprinter declaration env
      obtain ⟨silence, hshaped⟩ := shaped_tokensRun tokens
      have hsemicolon : ¬ IsComment [.semicolon] := not_isComment_of_head (by decide)
      have hall := hshaped.append (shaped_tokens hsemicolon)
      rw [Option.map₂_none_right] at hall
      rw [printer.run_eq hrun, htokens]
      exact hall.congr (by simp [Spreads]) (by simp [HoldsBodies])
  | @part s _ _ _ _ _ _ ih =>
      rw [silence?, ← s.silence?_layout]
      exact (ih hok).congr s.spreads_layout s.holdsBodies_layout
  | both _ _ ihFirst ihSecond => exact (ihFirst rfl).append (ihSecond hok)
  | @emptyLoop head _ _ _ _ _ ih =>
      obtain ⟨word, ts, hhead⟩ := head.tokens_phrase env
      rw [hhead]
      exact (shaped_tokens (hkeyword word (ts ++ [.semicolon]))).congr Iff.rfl
        (iff_of_true trivial (ih rfl).sound_of_nil)
  | @loop head _ _ high _ _ _ hinner ih =>
      obtain ⟨word, ts, hhead⟩ := head.tokens_phrase env
      rw [hhead]
      exact ((ih rfl).loopBody hinner high).behind (hkeyword word ts)
  | @block kind _ _ low _ _ inner clauses _ _ _ _ _ ihBody ihRest =>
      have hrow := ((ihBody rfl).bracketed kind low).append (ihRest hok)
      rw [bracketed_append, List.nil_append] at hrow
      exact hrow.congr (by simp [Spreads]) Iff.rfl
  | @attempt resource resources body _ low _ _ _ _ _ _ _ _ _ _ ihBody ihRest =>
      obtain ⟨ts, hhead⟩ := tokens_resourcesHead env resource resources
      have hrow := ((ihBody rfl).braced .statements (by decide) low).append (ihRest hok)
      rw [bracketed_append, List.nil_append] at hrow
      rw [hhead]
      exact (hrow.behind (hkeyword "try" ts)).congr (by simp [Spreads])
        (and_congr_left' body.holdsBodies_layout)
  | @emptyAttempt resource resources body _ _ _ _ ih =>
      obtain ⟨ts, hhead⟩ := tokens_resourcesHead env resource resources
      have hsound := body.holdsBodies_layout.1 (ih rfl).sound_of_nil.1
      rw [shrunk, hhead]
      exact (shaped_tokens (hkeyword "try" (ts ++ [.space, .emptyBraces]))).congr Iff.rfl
        (iff_of_true trivial (And.intro hsound trivial))
  | @clause head _ _ group _ _ _ _ _ _ _ _ _ _ _ ihBody ihRest =>
      obtain ⟨ts, hhead⟩ := head.tokens_phrase env
      have hrow := ((ihBody rfl).braced .statements (by decide) group).append (ihRest hok)
      rw [bracketed_append, List.nil_append] at hrow
      rw [hhead]
      exact (hrow.behind (hkeyword head.word ts)).congr (by simp [Spreads]) Iff.rfl
  | @emptyClause head _ _ _ _ _ _ _ ih =>
      obtain ⟨ts, hhead⟩ := head.tokens_phrase env
      rw [shrunk, hhead]
      exact (shaped_tokens (hkeyword head.word (ts ++ [.space, .emptyBraces]))).congr Iff.rfl
        (iff_of_true trivial (And.intro (ih rfl).sound_of_nil.1 trivial))
  | @branch s _ _ _ _ _ _ _ ih =>
      have hbranch := ih hok
      rw [s.silence?_branchLayout] at hbranch
      exact hbranch.congr (iff_of_false s.not_spreads_branchLayout id) s.holdsBodies_branchLayout
  | stopped | failedLoop | failedBlock | failedAttempt | noResources | failedClause => cases hok

/-- The unbraced blocks of a method hold one statement each just if its unbraced bodies do. -/
theorem unbraced_blocks_hold_one_iff {body : Statement} {env : Environment}
    {result : FragmentedBody} (h : fragmentBody body env = .ok result) :
    (∀ group inside, Balanced inside → HasBlock .singleStatement group inside result.fragments →
        Speaks inside ∧ ¬ Spreads inside) ↔
      body.HoldsBodies false := by
  obtain ⟨hok, hfragments⟩ := fragmentBody_ok h
  obtain ⟨run, mentioned, hyields, hrun, -⟩ :=
    (Session.start env declarationHead).fragment_yields declarationHead.writer_appends body
  have hshaped := hyields.shaped declarationHead_printsTokens hok
  rw [hfragments, hrun]
  exact hshaped.sound_iff.trans body.holdsBodies_layout

/-- A loop without braces around a `return`, and behind it an `if` with an `else`, in the place of
which stands an `if` around a comment, which takes braces there. -/
theorem unbraced_blocks_hold_one_in_loop :
    let loop := Statement.whileLoop (.named "a") (some .returnVoid)
    let chained := Statement.ifThen (.named "c") (some (.comment "nothing"))
    let body := Statement.sequence [loop, .ifElse (.named "b") .returnVoid chained]
    let inside : List Fragment := [.tokens [.keyword "return", .semicolon]]
    ∃ result, fragmentBody body ⟨"Main"⟩ = .ok result ∧
      HasBlock .singleStatement 0 inside result.fragments ∧
      (Speaks inside ∧ ¬ Spreads inside) ∧
      ∀ group inside, Balanced inside → HasBlock .singleStatement group inside result.fragments →
        Speaks inside ∧ ¬ Spreads inside := by
  intro loop chained body inside
  have hreturn : Statement.returnVoid.HoldsBodies false :=
    (Statement.holdsBodies_iff_parts _ rfl rfl).2 fun _ hpart => nomatch hpart
  have hcomment : (Statement.comment "nothing").HoldsBodies false :=
    (Statement.holdsBodies_iff_parts _ rfl rfl).2 fun _ hpart => nomatch hpart
  have hloop : loop.HoldsBodies false :=
    (Statement.holdsBodies_iff_parts _ rfl rfl).2 (List.forall_mem_singleton.2 hreturn)
  have hchained : chained.HoldsBodies true :=
    (Statement.holdsBodies_iff_parts _ rfl rfl).2 (List.forall_mem_singleton.2 hcomment)
  have hbranches : (Statement.ifElse (.named "b") .returnVoid chained).HoldsBodies false :=
    (Statement.holdsBodies_iff _ _).2 ⟨rfl, List.forall_mem_cons.2
      ⟨hreturn, List.forall_mem_singleton.2 hchained⟩⟩
  have hbody : body.HoldsBodies false :=
    (Statement.holdsBodies_iff_parts _ rfl rfl).2 (List.forall_mem_cons.2
      ⟨hloop, List.forall_mem_singleton.2 hbranches⟩)
  obtain ⟨result, h, hblock⟩ : ∃ result, fragmentBody body ⟨"Main"⟩ = .ok result ∧
      HasBlock .singleStatement 0 inside result.fragments := ⟨_, rfl, [_], _, rfl⟩
  have hall := (unbraced_blocks_hold_one_iff h).2 hbody
  exact ⟨result, h, hblock, hall 0 inside (.tokens _ .nil) hblock, hall⟩

/-- The body is a sequence of one statement, and that is the empty sequence. -/
theorem unbraced_block_around_nothing :
    ¬ ∀ body env result, fragmentBody body env = .ok result →
        ∀ group inside, Balanced inside →
          HasBlock .singleStatement group inside result.fragments →
            Speaks inside ∧ ¬ Spreads inside := by
  intro h
  have hok : fragmentBody (.ifThen (.named "c") (some (.sequence [.sequence []]))) ⟨"Main"⟩ =
      .ok _ := rfl
  obtain ⟨⟨ts, hmem, -⟩, -⟩ := h _ _ _ hok 0 [] .nil ⟨[_], [], rfl⟩
  cases hmem

end JavaFragments

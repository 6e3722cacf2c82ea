import JavaFragments.Proofs.Unclosed
import JavaFragments.Proofs.Yields

/-! # Faults and the blocks they leave open

A statement fails at its first `try` with an empty list of resources, and only there. It then
leaves the blocks open that stand around that `try` and outside every loop, since a loop throws
away what its body wrote. `Yields.meets` says so of every layout, for a writer of declarations that
adds balanced fragments. -/
set_option autoImplicit false

namespace JavaFragments

/-- Adds balanced fragments behind those that are there, whichever these are. -/
def DeclarationWriter.AddsBalanced (writer : DeclarationWriter) : Prop :=
  ∀ declaration env fragments, ∃ run,
    writer declaration env fragments = fragments ++ run ∧ Balanced run

theorem DeclarationWriter.AddsBalanced.appends {writer : DeclarationWriter}
    (h : writer.AddsBalanced) : writer.Appends := by
  intro declaration env fragments
  obtain ⟨run, hrun, -⟩ := h declaration env fragments
  exact ⟨run, hrun⟩

namespace Statement

def isLoop : Statement → Bool
  | .forLoop .. => true
  | .forEach .. => true
  | .whileLoop .. => true
  | _ => false

/-- The statements whose bodies are written inside a block that is already started. -/
def opensBlock : Statement → Bool
  | .doWhile .. => true
  | .ifThen .. => true
  | .ifElse .. => true
  | .switch .. => true
  | .synchronized .. => true
  | .tryCatch .. => true
  | _ => false

/-- A statement that opens a block stands on the path, and no loop stands around it. -/
def BlockOutsideLoops (path : List Statement) : Prop :=
  ∃ outer block inner, path = outer ++ block :: inner ∧ block.opensBlock = true ∧
    ∀ s ∈ outer, s.isLoop = false

/-- The first fault lies below a statement that opens a block and has no loop around it. -/
def FaultLeavesBlock (s : Statement) : Prop :=
  ∃ path, s.faultPath? = some path ∧ BlockOutsideLoops path

def leavesBlock : List Statement → Bool
  | [] => false
  | s :: inner => !s.isLoop && (s.opensBlock || leavesBlock inner)

theorem isLoop_eq_false_of_opensBlock {s : Statement} (h : s.opensBlock = true) :
    s.isLoop = false := by
  cases s <;> first | rfl | simp [opensBlock] at h

theorem leavesBlock_iff (path : List Statement) :
    leavesBlock path = true ↔ BlockOutsideLoops path := by
  induction path with
  | nil => simp [leavesBlock, BlockOutsideLoops]
  | cons s rest ih =>
      simp only [leavesBlock, Bool.and_eq_true, Bool.not_eq_true', Bool.or_eq_true, ih]
      constructor
      · rintro ⟨hs, hb | ⟨outer, block, inner, rfl, hb, ho⟩⟩
        · exact ⟨[], s, rest, rfl, hb, by simp⟩
        · refine ⟨s :: outer, block, inner, rfl, hb, fun t ht => ?_⟩
          rcases List.mem_cons.1 ht with rfl | ht
          · exact hs
          · exact ho t ht
      · rintro ⟨outer, block, inner, hpath, hb, ho⟩
        cases outer with
        | nil =>
            obtain ⟨rfl, rfl⟩ := List.cons.inj hpath
            exact ⟨isLoop_eq_false_of_opensBlock hb, Or.inl hb⟩
        | cons t outer =>
            obtain ⟨rfl, rfl⟩ := List.cons.inj hpath
            exact ⟨ho s (List.mem_cons_self ..), Or.inr ⟨outer, block, inner, rfl, hb,
              fun u hu => ho u (List.mem_cons_of_mem _ hu)⟩⟩

/-- Nothing for a statement without a fault, and else whether the fault leaves a block open. -/
def fate (s : Statement) : Option Bool := s.faultPath?.map leavesBlock

theorem fate_eq (s : Statement) :
    s.fate = if s.lacksResources then some false
      else (s.parts.findSome? fate).map fun open? => !s.isLoop && (s.opensBlock || open?) := by
  have hfate : fate = Option.map leavesBlock ∘ faultPath? := rfl
  rw [fate, faultPath?_eq]
  split
  · rfl
  · rw [hfate, ← List.map_findSome?, Option.map_map, Option.map_map]
    rfl

theorem fate_of_opensBlock {s : Statement} (hblock : s.opensBlock = true)
    (hresources : s.lacksResources = false) :
    s.fate = (s.parts.findSome? fate).map fun _ => true := by
  rw [fate_eq, hresources, isLoop_eq_false_of_opensBlock hblock, hblock]
  rfl

theorem fate_of_isLoop {s : Statement} (hloop : s.isLoop = true)
    (hresources : s.lacksResources = false) :
    s.fate = (s.parts.findSome? fate).map fun _ => false := by
  rw [fate_eq, hresources, hloop]
  rfl

theorem fate_of_plain {s : Statement} (hloop : s.isLoop = false) (hblock : s.opensBlock = false)
    (hresources : s.lacksResources = false) : s.fate = s.parts.findSome? fate := by
  rw [fate_eq, hresources, hloop, hblock]
  simp

theorem findSome?_fate_cons (s : Statement) (rest : List Statement) :
    (s :: rest).findSome? fate = s.fate.or (rest.findSome? fate) := by
  rw [List.findSome?_cons]
  cases s.fate <;> rfl

theorem fate_of_count_eq_zero {s : Statement} (h : s.count = 0) : s.fate = none := by
  cases s with
  | sequence statements =>
      have hnil : statements = [] := List.eq_nil_of_length_eq_zero h
      rw [hnil]
      exact fate_of_plain rfl rfl rfl
  | _ => exact absurd h Nat.one_ne_zero

end Statement

namespace Layout

/-- The fate of a layout, by those of the statements in it. -/
@[simp] def fate : {scope : Scope} → Layout scope → Option Bool
  | _, .nothing | _, .said _ | _, .spacer _ | _, .reported _ | _, .declared _ | _, .done => none
  | _, .part s => s.fate
  | _, .both first second => first.fate.or second.fate
  | _, .loop _ body => body.fate.map fun _ => false
  | _, .block _ body rest => (body.fate.map fun _ => true).or rest.fate
  | _, .attempt [] _ _ => some false
  | _, .attempt (_ :: _) body rest => (body.fate.map fun _ => true).or rest.fate
  | _, .clause _ body rest => (body.fate.map fun _ => true).or rest.fate
  | _, .branch s => s.fate.map fun _ => true

theorem fate_spaced (kind : Spacer) (layouts : List (Layout .own)) :
    (spaced kind layouts).fate = layouts.findSome? fate := by
  induction layouts with
  | nil => rfl
  | cons first rest ih =>
      rw [List.findSome?_cons]
      cases rest with
      | nil => cases hfirst : first.fate <;> simp [spaced, hfirst]
      | cons second rest =>
          rw [spaced_cons, fate, fate, ih, fate, Option.none_or]
          cases first.fate <;> rfl

theorem fate_body (b : Option Statement) :
    (body b).fate = b.toList.findSome? Statement.fate := by
  cases b with
  | none => rfl
  | some b => simp [body]

theorem fate_clauses (catchClauses : List CatchClause) (finallyBody : Option Statement) :
    (clauses finallyBody catchClauses).fate =
      ((catchClauses.map CatchClause.body ++ finallyBody.toList).findSome? Statement.fate).map
        fun _ => true := by
  induction catchClauses with
  | nil => cases finallyBody <;> simp [clauses]
  | cons c rest ih =>
      rw [clauses, fate, ih, fate, List.map_cons, List.cons_append, Statement.findSome?_fate_cons,
        Option.map_or]

end Layout

theorem SwitchBlock.fate_layout (b : SwitchBlock) : b.layout.fate = b.body.fate := by
  have hlabels : ∀ labels : Layout .own, labels.fate = none →
      (Layout.labelled labels b.body).fate = b.body.fate := by
    intro labels h
    simp [Layout.labelled, h]
  cases b with
  | label label body => exact hlabels _ rfl
  | multiLabels labels body =>
      refine hlabels _ ?_
      simp [Layout.fate_spaced]

namespace Statement

/-- The layout of a statement meets the fate of the statement. -/
theorem fate_layout (s : Statement) : s.layout.fate = s.fate := by
  have hplain := fun hl hb hr => fate_of_plain (s := s) hl hb hr
  have hloop := fun hl hr => fate_of_isLoop (s := s) hl hr
  have hblock := fun hb hr => fate_of_opensBlock (s := s) hb hr
  cases s with
  | forLoop | forEach | whileLoop =>
      rw [hloop rfl rfl, layout, Layout.fate, Layout.fate_body]
      rfl
  | doWhile condition body =>
      rw [hblock rfl rfl]
      simp [layout, Layout.fate_body, parts]
  | ifThen condition body =>
      rw [hblock rfl rfl]
      cases body with
      | none => rfl
      | some b =>
          rw [layout, Layout.guarded]
          split
          · rename_i hcount
            simp [parts, fate_of_count_eq_zero hcount]
          · simp [parts]
          · simp [parts]
  | ifElse condition whenTrue whenFalse =>
      rw [hblock rfl rfl]
      simp [layout, parts, findSome?_fate_cons, Option.map_or]
  | labelled label statement =>
      rw [hplain rfl rfl rfl]
      cases statement <;> simp [layout, parts]
  | sequence statements =>
      rw [hplain rfl rfl rfl, layout, Layout.fate_spaced, List.findSome?_map]
      rfl
  | switch condition blocks =>
      rw [hblock rfl rfl]
      have hblocks : (blocks.map SwitchBlock.layout).findSome? Layout.fate =
          (blocks.map SwitchBlock.body).findSome? fate := by
        rw [List.findSome?_map, List.findSome?_map]
        exact congrArg (List.findSome? · blocks) (funext SwitchBlock.fate_layout)
      simp [layout, Layout.fate_spaced, hblocks, parts]
  | synchronized monitor body =>
      rw [hblock rfl rfl]
      cases body <;> simp [layout, parts]
  | tryCatch resources body catchClauses finallyBody =>
      rcases resources with _ | _ | ⟨r, rs⟩
      · rw [hblock rfl rfl, layout, Layout.fate, Layout.fate_clauses, Layout.fate, parts,
          findSome?_fate_cons, Option.map_or]
      · rw [fate_eq]
        rfl
      · rw [hblock rfl rfl, layout, Layout.fate, Layout.fate_clauses, parts,
          findSome?_fate_cons, Option.map_or]
  | _ => exact (hplain rfl rfl rfl).symm

theorem fate_branchLayout (s : Statement) : s.branchLayout.fate = s.fate.map fun _ => true := by
  cases s using branchLayout_cases with
  | ifThen condition body =>
      rw [fate_of_opensBlock rfl rfl, Option.map_map, branchLayout, Layout.fate, Layout.fate_body,
        Layout.fate, Option.or_none]
      rfl
  | ifElse condition whenTrue whenFalse =>
      rw [fate_of_opensBlock rfl rfl]
      simp [branchLayout, parts, findSome?_fate_cons, Option.map_or]
  | chained first _ hlayout =>
      have hfirst : (sequence [first]).fate = first.fate := by
        rw [← fate_layout]
        rfl
      rw [hlayout, hfirst, Layout.fate]
  | placed s _ hlayout =>
      rw [hlayout, Layout.fate, Layout.fate, fate_layout, Option.or_none]

end Statement

/-! ## What runs meet their fate -/

/-- A run that is balanced where there is no fault, and else balanced but for blocks that are left
open. -/
inductive Meets : Option Bool → Option FragmentationError → List Fragment → Prop where
  | ok {run : List Fragment} : Balanced run → Meets none none run
  | error (blocks : List OpenBlock) {leavesOpen : Bool} {run : List Fragment} :
      Unclosed blocks run → (leavesOpen = true ↔ blocks ≠ []) →
        Meets (some leavesOpen) (some .emptyResourceList) run

namespace Meets
variable {fate : Option Bool} {failure : Option FragmentationError} {e : FragmentationError}
  {front back run inner : List Fragment}

theorem balanced (h : Meets fate none run) : fate = none ∧ Balanced run := by
  cases h with
  | ok hbalanced => exact ⟨rfl, hbalanced⟩

theorem behind (h : Meets fate failure back) (hfront : Balanced front) :
    Meets fate failure (front ++ back) := by
  cases h with
  | ok hbalanced => exact .ok (hfront.append hbalanced)
  | error blocks hblocks hopen =>
      have hboth := (Unclosed.balanced hfront).append hblocks
      rw [List.append_nil] at hboth
      exact .error blocks hboth hopen

/-- The first fault decides. -/
theorem or (h : Meets fate (some e) run) (other : Option Bool) :
    Meets (fate.or other) (some e) run := by
  cases h with
  | error blocks hblocks hopen => exact .error blocks hblocks hopen

/-- A loop throws away what its body wrote. -/
theorem dropped (h : Meets fate (some e) run) : Meets (fate.map fun _ => false) (some e) [] := by
  cases h with
  | error blocks hblocks hopen => exact .error [] (.balanced .nil) (by simp)

theorem opened (h : Meets fate (some e) run) (kind : BlockKind) (group : Group) :
    Meets (fate.map fun _ => true) (some e) (.startBlock kind group :: run) := by
  cases h with
  | error blocks hblocks hopen => exact .error _ (hblocks.start ⟨kind, group⟩) (by simp)

/-- A fault behind a block, in the rest of the group. -/
theorem behindBlock (h : Meets fate failure back) (hinner : Balanced inner) (kind : BlockKind)
    (group : Group) : Meets fate failure (bracketed kind group inner back) := by
  have hblock := h.behind (.block kind group hinner .nil)
  simpa [bracketed] using hblock

end Meets

/-- What a layout yields meets the fate of the layout. -/
theorem Layout.Yields.meets {env : Environment} {writer : DeclarationWriter}
    (hwriter : writer.AddsBalanced) {scope : Scope} {layout : Layout scope} {outer : Option Group}
    {low high : Group} {run : List Fragment} {mentioned : List ClassType}
    {failure : Option FragmentationError}
    (h : layout.Yields env writer outer low run mentioned high failure) :
    Meets layout.fate failure run := by
  induction h with
  | nothing | reported | done => exact .ok .nil
  | said => exact .ok (.tokens _ .nil)
  | spacer kind => exact .ok (.spacer kind .nil)
  | declared declaration hrun =>
      obtain ⟨run', hrun', hbalanced⟩ := hwriter declaration env _
      rw [← List.append_cancel_left (hrun.symm.trans hrun')] at hbalanced
      exact .ok (hbalanced.append (.tokens _ .nil))
  | @part s _ _ _ _ _ _ ih =>
      rw [s.fate_layout] at ih
      exact ih
  | both _ _ ihFirst ihSecond =>
      obtain ⟨hfate, hbalanced⟩ := ihFirst.balanced
      rw [fate, hfate]
      exact ihSecond.behind hbalanced
  | stopped _ ih => exact ih.or _
  | emptyLoop _ ih =>
      rw [fate, ih.balanced.1]
      exact .ok (.tokens _ .nil)
  | loop _ _ ih =>
      obtain ⟨hfate, hinner⟩ := ih.balanced
      rw [fate, hfate]
      exact .ok (.tokens _ (.block _ _ hinner .nil))
  | failedLoop _ ih => exact ih.dropped
  | block _ _ ihBody ihRest =>
      obtain ⟨hfate, hinner⟩ := ihBody.balanced
      rw [fate, hfate]
      exact ihRest.behindBlock hinner _ _
  | failedBlock _ ih => exact (ih.opened _ _).or _
  | @attempt _ _ body _ _ _ _ _ _ _ _ _ _ _ _ ihBody ihRest =>
      obtain ⟨hfate, hinner⟩ := ihBody.balanced
      rw [body.fate_layout] at hfate
      rw [fate, hfate]
      exact (ihRest.behindBlock hinner _ _).behind (.tokens _ .nil)
  | @emptyAttempt _ _ body _ _ _ _ ih =>
      have hfate := ih.balanced.1
      rw [body.fate_layout] at hfate
      rw [fate, hfate]
      exact .ok (.tokens _ .nil)
  | @failedAttempt _ _ body _ _ _ _ _ _ _ ih =>
      rw [body.fate_layout] at ih
      exact ((ih.opened _ _).or _).behind (.tokens _ .nil)
  | noResources => exact .error [] (.balanced .nil) (by simp)
  | clause _ _ _ ihBody ihRest =>
      obtain ⟨hfate, hinner⟩ := ihBody.balanced
      rw [fate, hfate]
      exact (ihRest.behindBlock hinner _ _).behind (.tokens _ .nil)
  | emptyClause _ _ ih =>
      rw [fate, ih.balanced.1]
      exact .ok (.tokens _ .nil)
  | failedClause _ ih => exact ((ih.opened _ _).or _).behind (.tokens _ .nil)
  | @branch s _ _ _ _ _ _ _ ih =>
      rw [s.fate_branchLayout] at ih
      exact ih

end JavaFragments

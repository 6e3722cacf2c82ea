import JavaFragments.Proofs.Balance
import JavaFragments.Proofs.Dues
import JavaFragments.Proofs.Renumbering

/-! # Spacers and blocks are accounted for

What a statement prints costs what its tree is due. With the price of one thing at one and all
others at zero this counts that thing: a sequence has spacers for the gaps between its elements, a
`switch` for its blocks and their labels. -/
set_option autoImplicit false

namespace JavaFragments

/-! ## What the tree says -/

namespace Statement

/-- The gaps between the elements of a sequence. -/
def gaps : Statement → Nat
  | .sequence statements => statements.length - 1
  | _ => 0

def isSwitch : Statement → Bool
  | .switch .. => true
  | _ => false

def switchBlocks : Statement → List SwitchBlock
  | .switch _ blocks => blocks
  | _ => []

/-- A `try` without resources. -/
def isPlainTry : Statement → Bool
  | .tryCatch none .. => true
  | _ => false

def isDoWhile : Statement → Bool
  | .doWhile .. => true
  | _ => false

end Statement

/-! ## What fragments cost -/

namespace Tariff

def price (tariff : Tariff) : Fragment → Nat
  | .tokens _ => 0
  | .startBlock kind _ => tariff.start kind
  | .endBlock .. => 0
  | .spacer kind => tariff.spacer kind

def cost (tariff : Tariff) (fragments : List Fragment) : Nat :=
  (fragments.map tariff.price).sum

/-- One for each spacer of a kind. -/
def spacersOf (kind : Spacer) : Tariff :=
  ⟨fun other => if other = kind then 1 else 0, 0, 0, fun _ => 0⟩

def tryBodies : Tariff := ⟨fun _ => 0, 1, 0, fun _ => 0⟩

def doWhiles : Tariff := ⟨fun _ => 0, 0, 1, fun _ => 0⟩

variable (tariff : Tariff)

theorem cost_nil : tariff.cost [] = 0 := rfl

theorem cost_cons (fragment : Fragment) (rest : List Fragment) :
    tariff.cost (fragment :: rest) = tariff.price fragment + tariff.cost rest := by
  rw [cost, List.map_cons, List.sum_cons, cost]

theorem cost_append (front back : List Fragment) :
    tariff.cost (front ++ back) = tariff.cost front + tariff.cost back := by
  rw [cost, List.map_append, List.sum_append, cost, cost]

theorem cost_bracketed (kind : BlockKind) (group : Group) (inside rest : List Fragment) :
    tariff.cost (bracketed kind group inside rest) =
      tariff.start kind + tariff.cost inside + tariff.cost rest := by
  rw [bracketed, cost_cons, cost_append, cost_cons, price, price]
  omega

theorem cost_ofTokens (run : List (List Token)) : tariff.cost (run.map .tokens) = 0 := by
  induction run with
  | nil => rfl
  | cons ts rest ih => rw [List.map_cons, cost_cons, ih, price]

theorem cost_eq_countP {counted : Fragment → Bool}
    (h : ∀ fragment, tariff.price fragment = (counted fragment).toNat) (fragments : List Fragment) :
    tariff.cost fragments = fragments.countP counted := by
  rw [cost, funext h, sum_toNat]

theorem cost_spacersOf (kind : Spacer) (fragments : List Fragment) :
    (spacersOf kind).cost fragments = fragments.count (.spacer kind) := by
  refine cost_eq_countP _ (fun fragment => ?_) fragments
  cases fragment with
  | spacer other => cases other <;> cases kind <;> rfl
  | startBlock other group => cases other <;> rfl
  | _ => rfl

theorem cost_tryBodies (fragments : List Fragment) :
    tryBodies.cost fragments = Fragment.blockCount .tryBody fragments := by
  refine cost_eq_countP _ (fun fragment => ?_) fragments
  cases fragment with
  | startBlock other group => cases other <;> rfl
  | _ => rfl

theorem cost_doWhiles (fragments : List Fragment) :
    doWhiles.cost fragments = Fragment.blockCount .doWhile fragments := by
  refine cost_eq_countP _ (fun fragment => ?_) fragments
  cases fragment with
  | startBlock other group => cases other <;> rfl
  | _ => rfl

end Tariff

/-! ## Tariffs that count -/

namespace Statement

/-- How many spacers of a kind a statement has for itself. -/
def ownSpacers (kind : Spacer) (s : Statement) : Nat :=
  match kind with
  | .betweenStatements => s.gaps
  | .betweenSwitchLabels => (s.switchBlocks.map SwitchBlock.labelGaps).sum
  | .afterSwitchLabel => s.switchBlocks.length
  | .afterSwitchBlock => s.switchBlocks.length
  | .betweenSwitchLabelBlocks => s.switchBlocks.length - 1
  | .afterEndStatementsBlock => s.isSwitch.toNat

theorem due_spacersOf (kind : Spacer) (s : Statement) :
    s.due (.spacersOf kind) = s.ownSpacers kind := by
  unfold due
  split <;> cases kind <;>
    simp [Tariff.spacersOf, ownSpacers, gaps, isSwitch, switchBlocks]

theorem due_tryBodies (s : Statement) : s.due .tryBodies = s.isPlainTry.toNat := by
  unfold due
  split <;> simp [Tariff.tryBodies, isPlainTry]

theorem due_doWhiles (s : Statement) : s.due .doWhiles = s.isDoWhile.toNat := by
  unfold due
  split <;> simp [Tariff.doWhiles, isDoWhile]

end Statement

/-- Where a layout succeeds, what it yields costs what the layout is due for its fragments. -/
theorem Layout.Yields.cost_eq {tariff : Tariff} (hlone : ∀ body, tariff.lone body = 0)
    {env : Environment} {printer : DeclarationPrinter} (hprinter : printer.PrintsTokens)
    {scope : Scope} {layout : Layout scope} {outer : Option Group} {low high : Group}
    {run : List Fragment} {mentioned : List ClassType} {failure : Option FragmentationError}
    (h : layout.Yields env printer.writer outer low run mentioned high failure)
    (hok : failure = none) : tariff.cost run = layout.dues tariff := by
  induction h with
  | nothing | said | spacer | reported | done => rfl
  | @declared declaration _ _ _ hrun =>
      obtain ⟨tokens, htokens⟩ := hprinter declaration env
      rw [printer.run_eq hrun, htokens, tariff.cost_append, tariff.cost_ofTokens]
      rfl
  | @part s _ _ _ _ _ _ ih => exact (ih hok).trans (s.dues_layout tariff)
  | both _ _ ihFirst ihSecond => rw [tariff.cost_append, ihFirst rfl, ihSecond hok, dues]
  | emptyLoop _ ih => exact ih rfl
  | @loop _ _ _ _ inner _ _ _ ih =>
      have hkind : tariff.start (loopKind inner) = 0 := by
        unfold loopKind
        split <;> rfl
      rw [tariff.cost_cons, tariff.cost_bracketed, hkind, ih rfl, dues, tariff.cost_nil,
        Tariff.price]
      omega
  | block _ _ ihBody ihRest =>
      rw [tariff.cost_bracketed, ihBody rfl, ihRest hok, dues]
  | @attempt _ _ body _ _ _ _ _ _ _ _ _ _ _ _ ihBody ihRest =>
      rw [tariff.cost_cons, tariff.cost_bracketed, ihBody rfl, ihRest hok, dues, body.dues_layout,
        hlone, ite_self, Tariff.price, Tariff.start]
      omega
  | @emptyAttempt _ _ body _ _ _ _ ih =>
      rw [dues, hlone, ite_self, ← body.dues_layout, ← ih rfl]
      rfl
  | clause _ _ _ ihBody ihRest =>
      rw [tariff.cost_cons, tariff.cost_bracketed, ihBody rfl, ihRest hok, dues, Tariff.price,
        Tariff.start]
      omega
  | emptyClause _ _ ih =>
      rw [dues, ← ih rfl]
      rfl
  | @branch s _ _ _ _ _ _ _ ih => exact (ih hok).trans (s.dues_branchLayout tariff)
  | stopped | failedLoop | failedBlock | failedAttempt | noResources | failedClause => cases hok

/-- What a method body prints costs what its tree is due. -/
theorem cost_fragmentBody {tariff : Tariff} (hlone : ∀ body, tariff.lone body = 0)
    {body : Statement} {env : Environment} {result : FragmentedBody}
    (h : fragmentBody body env = .ok result) : tariff.cost result.fragments = body.dues tariff := by
  obtain ⟨hok, hfragments⟩ := fragmentBody_ok h
  obtain ⟨run, mentioned, hyields, hrun, -⟩ :=
    (Session.start env declarationHead).fragment_yields declarationHead.writer_appends body
  rw [hfragments, hrun]
  exact (hyields.cost_eq hlone declarationHead_printsTokens hok).trans (body.dues_layout tariff)

/-- The spacers and the blocks of `try` and `do` in a method body are those of its tree. -/
theorem spacers_and_blocks_accounted_for {body : Statement} {env : Environment}
    {result : FragmentedBody} (h : fragmentBody body env = .ok result) :
    let blocks := body.nodes.flatMap Statement.switchBlocks
    result.fragments.count (.spacer .betweenStatements) = (body.nodes.map Statement.gaps).sum ∧
      result.fragments.count (.spacer .afterEndStatementsBlock) =
        body.nodes.countP Statement.isSwitch ∧
      result.fragments.count (.spacer .afterSwitchLabel) = blocks.length ∧
      result.fragments.count (.spacer .afterSwitchBlock) = blocks.length ∧
      result.fragments.count (.spacer .betweenSwitchLabelBlocks) =
        (body.nodes.map fun s => s.switchBlocks.length - 1).sum ∧
      result.fragments.count (.spacer .betweenSwitchLabels) =
        (blocks.map SwitchBlock.labelGaps).sum ∧
      Fragment.blockCount .tryBody result.fragments = body.nodes.countP Statement.isPlainTry ∧
      Fragment.blockCount .doWhile result.fragments = body.nodes.countP Statement.isDoWhile := by
  intro blocks
  have hspacers : ∀ kind, result.fragments.count (.spacer kind) =
      (body.nodes.map (Statement.ownSpacers kind)).sum := by
    intro kind
    rw [← Tariff.cost_spacersOf, cost_fragmentBody (fun _ => rfl) h, Statement.dues,
      funext (Statement.due_spacersOf kind)]
  have hblocks : (body.nodes.map fun s => s.switchBlocks.length).sum = blocks.length := by
    rw [List.length_flatMap]
  have hlabels : (body.nodes.map fun s => (s.switchBlocks.map SwitchBlock.labelGaps).sum).sum =
      (blocks.map SwitchBlock.labelGaps).sum := by
    rw [List.map_flatMap, List.flatMap_def, List.sum_flatten, List.map_map]
    rfl
  refine ⟨hspacers _, ?_, ?_, ?_, hspacers _, ?_, ?_, ?_⟩
  · rw [← Tariff.sum_toNat]
    exact hspacers .afterEndStatementsBlock
  · rw [← hblocks]
    exact hspacers .afterSwitchLabel
  · rw [← hblocks]
    exact hspacers .afterSwitchBlock
  · rw [← hlabels]
    exact hspacers .betweenSwitchLabels
  · rw [← Tariff.cost_tryBodies, cost_fragmentBody (fun _ => rfl) h, Statement.dues,
      funext Statement.due_tryBodies, Tariff.sum_toNat]
  · rw [← Tariff.cost_doWhiles, cost_fragmentBody (fun _ => rfl) h, Statement.dues,
      funext Statement.due_doWhiles, Tariff.sum_toNat]

/-- A loop whose body is a `switch` of three blocks, and behind it a `try` in a `do`. -/
theorem spacers_and_blocks_accounted_for_in_loop :
    let inner := Statement.switch .thisReference [.label .default .returnVoid,
      .multiLabels [.default, .expression .nullLiteral, .default] (.sequence []),
      .label .default (.breakTo none)]
    let body := Statement.sequence [.whileLoop .thisReference (some inner),
      .doWhile .thisReference (some (.tryCatch none .returnVoid [] none))]
    ∃ result, fragmentBody body ⟨"Main"⟩ = .ok result ∧
      result.fragments.count (.spacer .betweenSwitchLabelBlocks) = 2 := by
  intro inner body
  have h : fragmentBody body ⟨"Main"⟩ = .ok _ := rfl
  have htree : (body.nodes.map fun s => s.switchBlocks.length - 1).sum = 2 := by
    simp [body, inner, Statement.nodes_eq, Statement.parts, SwitchBlock.body,
      Statement.switchBlocks]
  exact ⟨_, h, (spacers_and_blocks_accounted_for h).2.2.2.2.1.trans htree⟩

end JavaFragments

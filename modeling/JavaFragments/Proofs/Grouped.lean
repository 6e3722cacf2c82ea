import JavaFragments.Fragment.Balance
import Mathlib.Data.Finset.Card

/-! # Grouped runs

The blocks of one group stand in a row: behind the end of a block come the words of the next clause
and its start. `Grouped none fresh run` says this of a run that brings in the groups `fresh`, and
`Grouped (some group) fresh run` of the clauses behind a block of `group`. -/
set_option autoImplicit false

namespace JavaFragments

/-- The words that lead from one block of a group to the next. -/
def clauseWords : List String := ["else", "catch", "finally"]

/-- A block, and what stands behind it. -/
def bracketed (kind : BlockKind) (group : Group) (inner rest : List Fragment) : List Fragment :=
  .startBlock kind group :: (inner ++ .endBlock kind group :: rest)

theorem bracketed_append (kind : BlockKind) (group : Group) (inner rest back : List Fragment) :
    bracketed kind group inner rest ++ back = bracketed kind group inner (rest ++ back) := by
  simp [bracketed]

inductive Grouped : Option Group → List Group → List Fragment → Prop where
  | nil (behind : Option Group) : Grouped behind [] []
  /-- Also a clause that has no block any more. -/
  | tokens (behind : Option Group) (ts : List Token) : Grouped behind [] [.tokens ts]
  | spacer (kind : Spacer) : Grouped none [] [.spacer kind]
  | append {fresh fresh' : List Group} {front back : List Fragment} :
      Grouped none fresh front → Grouped none fresh' back → fresh.Disjoint fresh' →
        Grouped none (fresh ++ fresh') (front ++ back)
  | row (kind : BlockKind) (group : Group) {fresh fresh' : List Group}
      {inner clauses : List Fragment} :
      Grouped none fresh inner → Grouped (some group) fresh' clauses → fresh.Disjoint fresh' →
        group ∉ fresh → group ∉ fresh' →
        (clauses = [] ∨ kind = .tryBody ∨ kind = .statements) →
        Grouped none (group :: (fresh ++ fresh')) (bracketed kind group inner clauses)
  | clause (word : String) (ts : List Token) (group : Group) {fresh fresh' : List Group}
      {inner clauses : List Fragment} :
      word ∈ clauseWords → Grouped none fresh inner → Grouped (some group) fresh' clauses →
        fresh.Disjoint fresh' → group ∉ fresh → group ∉ fresh' →
        Grouped (some group) (fresh ++ fresh')
          (.tokens (.keyword word :: ts) :: bracketed .statements group inner clauses)

/-- The groups of the starts and ends, in their order. -/
def groupsIn (fragments : List Fragment) : List Group :=
  fragments.filterMap Fragment.group?

@[simp] theorem groupsIn_nil : groupsIn [] = [] := rfl

@[simp] theorem groupsIn_tokens (ts : List Token) (rest : List Fragment) :
    groupsIn (.tokens ts :: rest) = groupsIn rest := rfl

@[simp] theorem groupsIn_spacer (kind : Spacer) (rest : List Fragment) :
    groupsIn (.spacer kind :: rest) = groupsIn rest := rfl

@[simp] theorem groupsIn_startBlock (kind : BlockKind) (group : Group) (rest : List Fragment) :
    groupsIn (.startBlock kind group :: rest) = group :: groupsIn rest := rfl

@[simp] theorem groupsIn_endBlock (kind : BlockKind) (group : Group) (rest : List Fragment) :
    groupsIn (.endBlock kind group :: rest) = group :: groupsIn rest := rfl

@[simp] theorem groupsIn_append (front back : List Fragment) :
    groupsIn (front ++ back) = groupsIn front ++ groupsIn back :=
  List.filterMap_append

@[simp] theorem groupsIn_bracketed (kind : BlockKind) (group : Group)
    (inner rest : List Fragment) :
    groupsIn (bracketed kind group inner rest) =
      group :: (groupsIn inner ++ group :: groupsIn rest) := by
  simp [bracketed]

namespace Grouped
variable {behind : Option Group} {fresh : List Group} {run : List Fragment}

theorem nodup (h : Grouped behind fresh run) : fresh.Nodup := by
  induction h with
  | nil | tokens | spacer => exact List.nodup_nil
  | append _ _ hapart ihFront ihBack => exact ihFront.append ihBack hapart
  | row kind group _ _ hapart hin hbehind _ ihInner ihClauses =>
      refine List.nodup_cons.2 ⟨?_, ihInner.append ihClauses hapart⟩
      rw [List.mem_append]
      rintro (hmem | hmem)
      · exact hin hmem
      · exact hbehind hmem
  | clause _ _ _ _ _ _ hapart _ _ ihInner ihClauses => exact ihInner.append ihClauses hapart

theorem mem_groupsIn_of_fresh (h : Grouped behind fresh run) {g : Group} (hg : g ∈ fresh) :
    g ∈ groupsIn run := by
  induction h with
  | nil | tokens | spacer => cases hg
  | append _ _ _ ihFront ihBack =>
      rw [groupsIn_append, List.mem_append]
      exact (List.mem_append.1 hg).imp ihFront ihBack
  | row kind group _ _ _ _ _ _ ihInner ihClauses =>
      rw [groupsIn_bracketed]
      rcases List.mem_cons.1 hg with rfl | hg
      · exact List.mem_cons_self ..
      · rcases List.mem_append.1 hg with hg | hg
        · simp [ihInner hg]
        · simp [ihClauses hg]
  | clause _ _ group _ _ _ _ _ _ ihInner ihClauses =>
      rw [groupsIn_tokens, groupsIn_bracketed]
      rcases List.mem_append.1 hg with hg | hg
      · simp [ihInner hg]
      · simp [ihClauses hg]

theorem fresh_or_behind (h : Grouped behind fresh run) {g : Group} (hg : g ∈ groupsIn run) :
    g ∈ fresh ∨ behind = some g := by
  induction h with
  | nil | tokens | spacer => cases hg
  | append _ _ _ ihFront ihBack =>
      rw [groupsIn_append, List.mem_append] at hg
      have hfresh := hg.imp ihFront ihBack
      simp only [reduceCtorEq, or_false] at hfresh ⊢
      exact List.mem_append.2 hfresh
  | row kind group _ _ _ _ _ _ ihInner ihClauses =>
      rw [groupsIn_bracketed] at hg
      simp only [List.mem_cons, List.mem_append] at hg
      left
      rcases hg with rfl | hg | rfl | hg
      · simp
      · simpa using Or.inr (Or.inl ((ihInner hg).resolve_right (by simp)))
      · simp
      · rcases ihClauses hg with hg | hg
        · simp [hg]
        · simp [Option.some.inj hg]
  | clause _ _ group _ _ _ _ _ _ ihInner ihClauses =>
      rw [groupsIn_tokens, groupsIn_bracketed] at hg
      simp only [List.mem_cons, List.mem_append] at hg
      rcases hg with rfl | hg | rfl | hg
      · exact .inr rfl
      · exact .inl (List.mem_append_left _ ((ihInner hg).resolve_right (by simp)))
      · exact .inr rfl
      · exact (ihClauses hg).imp_left (List.mem_append_right _)

/-- A run of its own has the groups that it brings in. -/
theorem mem_groupsIn_iff (h : Grouped none fresh run) (g : Group) :
    g ∈ groupsIn run ↔ g ∈ fresh :=
  ⟨fun hg => (h.fresh_or_behind hg).resolve_right (by simp), h.mem_groupsIn_of_fresh⟩

theorem card_groupsIn (h : Grouped none fresh run) :
    (groupsIn run).toFinset.card = fresh.length := by
  have hsame : (groupsIn run).toFinset = fresh.toFinset := by
    ext g
    rw [List.mem_toFinset, List.mem_toFinset, h.mem_groupsIn_iff]
  rw [hsame, List.toFinset_card_of_nodup h.nodup]

end Grouped

/-- A block of a group that is open already stands behind a clause word, and that behind the end of
a block of the group. -/
def Linked (run : List Fragment) : Prop :=
  ∀ front kind group back, run = front ++ .startBlock kind group :: back →
    group ∈ groupsIn front →
      ∃ before kind' word ts, word ∈ clauseWords ∧
        front = before ++ [.endBlock kind' group, .tokens (.keyword word :: ts)]

theorem linked_of_no_group_before {run : List Fragment}
    (h : ∀ front kind group back, run = front ++ .startBlock kind group :: back →
      groupsIn front = []) : Linked run := by
  intro front kind group back hrun hmem
  rw [h front kind group back hrun] at hmem
  cases hmem

theorem linked_singleton (fragment : Fragment) : Linked [fragment] := by
  refine linked_of_no_group_before fun front kind group back hrun => ?_
  cases front with
  | nil => rfl
  | cons first rest => simp at hrun

theorem linked_clauseHead (kind : BlockKind) {word : String} (hword : word ∈ clauseWords)
    (ts : List Token) (group : Group) :
    Linked [.endBlock kind group, .tokens (.keyword word :: ts),
      .startBlock .statements group] := by
  intro front kind' g back hrun _
  rcases front with _ | ⟨first, _ | ⟨second, _ | ⟨third, rest⟩⟩⟩
  · simp at hrun
  · simp at hrun
  · simp only [List.cons_append, List.nil_append, List.cons.injEq, Fragment.startBlock.injEq]
      at hrun
    obtain ⟨rfl, rfl, ⟨-, rfl⟩, -⟩ := hrun
    exact ⟨[], kind, word, ts, hword, rfl⟩
  · simp at hrun

/-- Two runs may share the group whose end stands first in the second run. -/
theorem Linked.append {first second : List Fragment} (hfirst : Linked first)
    (hsecond : Linked second)
    (hshared : ∀ g ∈ groupsIn first, g ∈ groupsIn second →
      ∃ kind rest, second = .endBlock kind g :: rest) : Linked (first ++ second) := by
  intro front kind group back hrun hmem
  have hstart : ∀ between, second = between ++ .startBlock kind group :: back →
      group ∈ groupsIn first → group ∈ groupsIn between := by
    intro between hsplit hgroup
    obtain ⟨kind', rest, hend⟩ := hshared group hgroup (by rw [hsplit]; simp)
    rw [hend] at hsplit
    cases between with
    | nil => simp at hsplit
    | cons _ _ =>
        obtain ⟨rfl, -⟩ := List.cons.inj hsplit
        simp
  rcases List.append_eq_append_iff.1 hrun with ⟨between, hfront, hsplit⟩ | ⟨rest, hsplit, hback⟩
  · have hbetween : group ∈ groupsIn between := by
      rw [hfront, groupsIn_append, List.mem_append] at hmem
      exact hmem.elim (hstart between hsplit) id
    obtain ⟨before, kind', word, ts, hword, hlink⟩ :=
      hsecond between kind group back hsplit hbetween
    exact ⟨first ++ before, kind', word, ts, hword, by rw [hfront, hlink, List.append_assoc]⟩
  · cases rest with
    | nil =>
        rw [List.append_nil] at hsplit
        exact absurd (hstart [] hback.symm (hsplit ▸ hmem)) (by simp)
    | cons _ rest =>
        obtain ⟨rfl, -⟩ := List.cons.inj hback
        exact hfirst front kind group rest hsplit hmem

/-- What stands in front of a block may end with the end of another block of its group. -/
theorem Linked.bracketed {kind : BlockKind} {group : Group} (lead : List Fragment)
    {inner rest : List Fragment}
    (hlead : Linked (lead ++ [.startBlock kind group])) (hinner : Linked inner)
    (hrest : Linked (.endBlock kind group :: rest))
    (hgroups : ∀ g ∈ groupsIn lead, g = group) (hin : group ∉ groupsIn inner)
    (hapart : ∀ g ∈ groupsIn inner, g ∉ groupsIn rest) :
    Linked (lead ++ bracketed kind group inner rest) := by
  have hopen : ∀ g ∈ groupsIn (lead ++ [.startBlock kind group]), g = group := by
    intro g hg
    rw [groupsIn_append, List.mem_append] at hg
    exact hg.elim (hgroups g) (by simp)
  have hfilled : Linked (lead ++ [.startBlock kind group] ++ inner) := by
    refine hlead.append hinner fun g hg hg' => ?_
    rw [hopen g hg] at hg'
    exact absurd hg' hin
  have hclosed : Linked (lead ++ [.startBlock kind group] ++ inner ++
      .endBlock kind group :: rest) := by
    refine hfilled.append hrest fun g hg hg' => ?_
    rw [groupsIn_append, List.mem_append] at hg
    rcases hg with hg | hg
    · exact ⟨kind, rest, by rw [hopen g hg]⟩
    · rcases List.mem_cons.1 hg' with rfl | hg'
      · exact absurd hg hin
      · exact absurd hg' (hapart g hg)
  simpa [JavaFragments.bracketed] using hclosed

namespace Grouped
variable {behind : Option Group} {fresh fresh' : List Group} {run : List Fragment}

/-- The groups of a block are not those of the clauses behind it. -/
theorem apart_of_disjoint {group : Group} {inner clauses : List Fragment}
    (hinner : Grouped none fresh inner) (hclauses : Grouped (some group) fresh' clauses)
    (hapart : fresh.Disjoint fresh') (hin : group ∉ fresh) :
    ∀ g ∈ groupsIn inner, g ∉ groupsIn clauses := by
  intro g hg hg'
  rw [hinner.mem_groupsIn_iff] at hg
  rcases hclauses.fresh_or_behind hg' with hfresh | heq
  · exact hapart hg hfresh
  · exact hin (Option.some.inj heq ▸ hg)

/-- Clauses are linked behind the end of the block that they follow. -/
theorem linked_behind (h : Grouped behind fresh run) :
    match behind with
    | none => Linked run
    | some group => ∀ kind, Linked (.endBlock kind group :: run) := by
  induction h with
  | nil behind =>
      cases behind with
      | none => exact linked_of_no_group_before fun front _ _ _ hrun => by simp at hrun
      | some group => exact fun kind => linked_singleton _
  | tokens behind ts =>
      cases behind with
      | none => exact linked_singleton _
      | some group =>
          exact fun kind => (linked_singleton _).append (linked_singleton _) (by simp)
  | spacer kind => exact linked_singleton _
  | append hfront hback hapart ihFront ihBack =>
      refine Linked.append ihFront ihBack fun g hg hg' => ?_
      rw [hfront.mem_groupsIn_iff] at hg
      rw [hback.mem_groupsIn_iff] at hg'
      exact absurd hg' (hapart hg)
  | row kind group hinner hclauses hapart hin _ _ ihInner ihClauses =>
      refine Linked.bracketed [] (linked_singleton _) ihInner (ihClauses kind) (by simp) ?_
        (hinner.apart_of_disjoint hclauses hapart hin)
      rwa [hinner.mem_groupsIn_iff]
  | clause word ts group hword hinner hclauses hapart hin _ ihInner ihClauses =>
      intro kind
      refine Linked.bracketed [.endBlock kind group, .tokens (.keyword word :: ts)]
        (linked_clauseHead kind hword ts group) ihInner (ihClauses .statements) (by simp) ?_
        (hinner.apart_of_disjoint hclauses hapart hin)
      rwa [hinner.mem_groupsIn_iff]

theorem linked (h : Grouped none fresh run) : Linked run := h.linked_behind

end Grouped

/-- The starts and ends of one group. -/
def edgesOf (group : Group) (fragments : List Fragment) : List Fragment :=
  fragments.filter fun fragment => fragment.group? = some group

/-- Blocks of one group, each closed before the next starts. -/
def blocksInRow (group : Group) (kinds : List BlockKind) : List Fragment :=
  kinds.flatMap fun kind => [.startBlock kind group, .endBlock kind group]

/-- How the blocks of one group may follow one another. -/
inductive GroupKinds : List BlockKind → Prop where
  | absent : GroupKinds []
  | singleStatement : GroupKinds [.singleStatement]
  | doWhile : GroupKinds [.doWhile]
  | tryBody (clauses : Nat) : GroupKinds (.tryBody :: List.replicate clauses .statements)
  | statements (clauses : Nat) : GroupKinds (List.replicate (clauses + 1) .statements)

theorem groupKinds_singleton (kind : BlockKind) : GroupKinds [kind] := by
  cases kind with
  | statements => exact .statements 0
  | singleStatement => exact .singleStatement
  | tryBody => exact .tryBody 0
  | doWhile => exact .doWhile

@[simp] theorem edgesOf_nil (group : Group) : edgesOf group [] = [] := rfl

@[simp] theorem edgesOf_tokens (group : Group) (ts : List Token) (rest : List Fragment) :
    edgesOf group (.tokens ts :: rest) = edgesOf group rest := by
  simp [edgesOf, Fragment.group?]

@[simp] theorem edgesOf_spacer (group : Group) (kind : Spacer) (rest : List Fragment) :
    edgesOf group (.spacer kind :: rest) = edgesOf group rest := by
  simp [edgesOf, Fragment.group?]

@[simp] theorem edgesOf_startBlock_self (kind : BlockKind) (group : Group)
    (rest : List Fragment) :
    edgesOf group (.startBlock kind group :: rest) =
      .startBlock kind group :: edgesOf group rest := by
  simp [edgesOf, Fragment.group?]

@[simp] theorem edgesOf_endBlock_self (kind : BlockKind) (group : Group) (rest : List Fragment) :
    edgesOf group (.endBlock kind group :: rest) = .endBlock kind group :: edgesOf group rest := by
  simp [edgesOf, Fragment.group?]

@[simp] theorem edgesOf_append (group : Group) (front back : List Fragment) :
    edgesOf group (front ++ back) = edgesOf group front ++ edgesOf group back :=
  List.filter_append ..

theorem edgesOf_eq_nil {group : Group} {fragments : List Fragment}
    (h : group ∉ groupsIn fragments) : edgesOf group fragments = [] := by
  rw [edgesOf, List.filter_eq_nil_iff]
  intro fragment hmem hgroup
  exact h (List.mem_filterMap.2 ⟨fragment, hmem, of_decide_eq_true hgroup⟩)

theorem edgesOf_bracketed_self (kind : BlockKind) (group : Group) {inner : List Fragment}
    (h : group ∉ groupsIn inner) (rest : List Fragment) :
    edgesOf group (bracketed kind group inner rest) =
      .startBlock kind group :: .endBlock kind group :: edgesOf group rest := by
  simp [bracketed, edgesOf_eq_nil h]

theorem edgesOf_bracketed_of_ne (kind : BlockKind) {group g : Group} (h : group ≠ g)
    (inner rest : List Fragment) :
    edgesOf g (bracketed kind group inner rest) = edgesOf g (inner ++ rest) := by
  simp [edgesOf, bracketed, Fragment.group?, h]

/-- The blocks of the group stand in a row of the right kinds. -/
def InRow (group : Group) (run : List Fragment) : Prop :=
  ∃ kinds, edgesOf group run = blocksInRow group kinds ∧ GroupKinds kinds

theorem InRow.append {group : Group} {front back : List Fragment} (hfront : InRow group front)
    (hback : InRow group back) (hapart : group ∈ groupsIn front → group ∉ groupsIn back) :
    InRow group (front ++ back) := by
  by_cases hgroup : group ∈ groupsIn front
  · rw [InRow, edgesOf_append, edgesOf_eq_nil (hapart hgroup), List.append_nil]
    exact hfront
  · rw [InRow, edgesOf_append, edgesOf_eq_nil hgroup, List.nil_append]
    exact hback

theorem InRow.bracketed_of_ne {kind : BlockKind} {group g : Group} {inner rest : List Fragment}
    (hne : group ≠ g) (hinner : InRow g inner) (hrest : InRow g rest)
    (hapart : g ∈ groupsIn inner → g ∉ groupsIn rest) :
    InRow g (bracketed kind group inner rest) := by
  rw [InRow, edgesOf_bracketed_of_ne kind hne]
  exact hinner.append hrest hapart

/-- The clauses behind a block are all of one kind. -/
theorem Grouped.inRow_behind {behind : Option Group} {fresh : List Group} {run : List Fragment}
    (h : Grouped behind fresh run) (g : Group) :
    InRow g run ∧ (behind = some g →
      ∃ n, edgesOf g run = blocksInRow g (List.replicate n .statements)) := by
  induction h with
  | nil | tokens | spacer => exact ⟨⟨[], rfl, .absent⟩, fun _ => ⟨0, rfl⟩⟩
  | append hfront hback hapart ihFront ihBack =>
      refine ⟨ihFront.1.append ihBack.1 ?_, by simp⟩
      rw [hfront.mem_groupsIn_iff, hback.mem_groupsIn_iff]
      exact fun hg => hapart hg
  | row kind group hinner hclauses hapart hin _ hkind ihInner ihClauses =>
      refine ⟨?_, by simp⟩
      by_cases hne : group = g
      · subst hne
        rw [← hinner.mem_groupsIn_iff] at hin
        obtain ⟨n, hn⟩ := ihClauses.2 rfl
        rw [InRow, edgesOf_bracketed_self kind group hin]
        rcases hkind with rfl | rfl | rfl
        · exact ⟨[kind], rfl, groupKinds_singleton kind⟩
        · exact ⟨_, by rw [hn]; rfl, .tryBody n⟩
        · exact ⟨_, by rw [hn]; rfl, .statements n⟩
      · exact ihInner.1.bracketed_of_ne hne ihClauses.1
          (hinner.apart_of_disjoint hclauses hapart hin g)
  | clause word ts group hword hinner hclauses hapart hin _ ihInner ihClauses =>
      by_cases hne : group = g
      · subst hne
        rw [← hinner.mem_groupsIn_iff] at hin
        obtain ⟨n, hn⟩ := ihClauses.2 rfl
        have hedges := (edgesOf_bracketed_self .statements group hin _).trans
          (congrArg (.startBlock .statements group :: .endBlock .statements group :: ·) hn)
        rw [InRow, edgesOf_tokens, hedges]
        exact ⟨⟨_, rfl, .statements n⟩, fun _ => ⟨n + 1, rfl⟩⟩
      · refine ⟨?_, fun heq => absurd (Option.some.inj heq) hne⟩
        rw [InRow, edgesOf_tokens]
        exact ihInner.1.bracketed_of_ne hne ihClauses.1
          (hinner.apart_of_disjoint hclauses hapart hin g)

theorem Grouped.inRow {fresh : List Group} {run : List Fragment} (h : Grouped none fresh run)
    (g : Group) : InRow g run :=
  (h.inRow_behind g).1

/-- In a row of blocks, each start is followed by its end. -/
theorem end_of_blocksInRow {group : Group} {kinds : List BlockKind} {front back : List Fragment}
    {kind : BlockKind} {next : Fragment}
    (h : blocksInRow group kinds = front ++ .startBlock kind group :: next :: back) :
    ∃ kind', next = .endBlock kind' group := by
  induction kinds generalizing front with
  | nil => simp [blocksInRow] at h
  | cons first rest ih =>
      have hcons : blocksInRow group (first :: rest) =
          .startBlock first group :: .endBlock first group :: blocksInRow group rest := rfl
      rw [hcons] at h
      rcases front with _ | ⟨x, _ | ⟨y, front⟩⟩
      · simp only [List.nil_append, List.cons.injEq] at h
        exact ⟨first, h.2.1.symm⟩
      · simp at h
      · simp only [List.cons_append, List.cons.injEq] at h
        exact ih h.2.2

/-- The first edge of a group in a balanced run is a start. -/
theorem Balanced.edgesOf_ne_end {run : List Fragment} (h : Balanced run) (group : Group)
    (kind : BlockKind) (rest : List Fragment) :
    edgesOf group run ≠ .endBlock kind group :: rest := by
  induction h generalizing rest with
  | nil => simp
  | tokens ts _ ih =>
      rw [edgesOf_tokens]
      exact ih rest
  | spacer spacerKind _ ih =>
      rw [edgesOf_spacer]
      exact ih rest
  | @block k g inside back _ _ ihInside ihBack =>
      by_cases hg : g = group
      · subst hg
        rw [List.cons_append, edgesOf_startBlock_self]
        simp
      · have hedges := edgesOf_bracketed_of_ne k hg inside back
        rw [bracketed, edgesOf_append] at hedges
        rw [List.cons_append, hedges]
        cases hinside : edgesOf group inside with
        | nil => exact ihBack rest
        | cons first others =>
            intro heq
            obtain ⟨rfl, -⟩ := List.cons.inj heq
            exact ihInside others hinside

/-- No block of a group stands inside another block of the group. -/
theorem InRow.not_inside {group : Group} {run : List Fragment} (h : InRow group run)
    {kind : BlockKind} {front inside back : List Fragment}
    (hrun : run = front ++ bracketed kind group inside back) (hinside : Balanced inside) :
    group ∉ groupsIn inside := by
  obtain ⟨kinds, hedges, -⟩ := h
  intro hmem
  rw [hrun, bracketed, edgesOf_append, edgesOf_startBlock_self, edgesOf_append,
    edgesOf_endBlock_self] at hedges
  cases hinner : edgesOf group inside with
  | nil =>
      obtain ⟨fragment, hfragment, hgroup⟩ := List.mem_filterMap.1 hmem
      have hedge : fragment ∈ edgesOf group inside :=
        List.mem_filter.2 ⟨hfragment, decide_eq_true hgroup⟩
      rw [hinner] at hedge
      cases hedge
  | cons first others =>
      rw [hinner] at hedges
      obtain ⟨kind', rfl⟩ := end_of_blocksInRow hedges.symm
      exact hinside.edgesOf_ne_end group kind' others hinner

end JavaFragments

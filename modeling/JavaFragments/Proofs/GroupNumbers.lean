import JavaFragments.Proofs.Grouped

/-! # Group numbers of runs

A run that spans the numbers from `low` up to `high` has a group for each of them, but for those
that are lost. Such runs join end to end, and there is a rule for each way to put a run
together. -/
set_option autoImplicit false

namespace JavaFragments

/-- The numbers lie from `low` up to `high`. -/
def Numbered (low high : Nat) (groups : List Nat) : Prop :=
  ∀ g ∈ groups, low ≤ g ∧ g < high

namespace Numbered
variable {a a' b b' c group : Nat} {groups groups' : List Nat}

theorem widen (h : Numbered a b groups) (hlow : a' ≤ a) (hhigh : b ≤ b') :
    Numbered a' b' groups := by
  intro g hg
  have := h g hg
  omega

theorem append (h : Numbered a b groups) (h' : Numbered a b groups') :
    Numbered a b (groups ++ groups') := by
  intro g hg
  exact (List.mem_append.1 hg).elim (h g) (h' g)

theorem cons (h : Numbered a b groups) (hlow : a ≤ group) (hhigh : group < b) :
    Numbered a b (group :: groups) := by
  intro g hg
  rcases List.mem_cons.1 hg with rfl | hg
  · exact ⟨hlow, hhigh⟩
  · exact h g hg

theorem disjoint (h : Numbered a b groups) (h' : Numbered b c groups') :
    groups.Disjoint groups' := by
  intro g hg hg'
  have := h g hg
  have := h' g hg'
  omega

theorem not_mem (h : Numbered a b groups) (hgroup : group < a ∨ b ≤ group) : group ∉ groups := by
  intro hmem
  have := h group hmem
  omega

end Numbered

/-- A grouped run with the group numbers from `low` up to `high`, of which `lost` name no block. -/
def Spans (behind : Option Group) (low high lost : Nat) (run : List Fragment) : Prop :=
  ∃ fresh, Grouped behind fresh run ∧ Numbered low high fresh ∧ high = low + fresh.length + lost

namespace Spans
variable {behind : Option Group} {a b c group lost lost' : Nat}
  {front back inner clauses : List Fragment}

theorem nil (behind : Option Group) (a : Nat) : Spans behind a a 0 [] :=
  ⟨[], .nil behind, by simp [Numbered], rfl⟩

theorem tokens (behind : Option Group) (a : Nat) (ts : List Token) :
    Spans behind a a 0 [.tokens ts] :=
  ⟨[], .tokens behind ts, by simp [Numbered], rfl⟩

theorem spacer (a : Nat) (kind : Spacer) : Spans none a a 0 [.spacer kind] :=
  ⟨[], .spacer kind, by simp [Numbered], rfl⟩

theorem append (hfront : Spans none a b lost front) (hback : Spans none b c lost' back) :
    Spans none a c (lost + lost') (front ++ back) := by
  obtain ⟨fresh, hgrouped, hrange, hcount⟩ := hfront
  obtain ⟨fresh', hgrouped', hrange', hcount'⟩ := hback
  refine ⟨fresh ++ fresh', hgrouped.append hgrouped' (hrange.disjoint hrange'), ?_, ?_⟩
  · exact (hrange.widen (by omega) (by omega)).append (hrange'.widen (by omega) (by omega))
  · rw [List.length_append]
    omega

theorem le (h : Spans behind a b lost front) : a ≤ b := by
  obtain ⟨fresh, -, -, hcount⟩ := h
  omega

theorem ofTokens (a : Nat) (run : List (List Token)) :
    Spans none a a 0 (run.map Fragment.tokens) := by
  induction run with
  | nil => exact nil none a
  | cons ts rest ih => exact (tokens none a ts).append ih

/-- Where nothing is printed, all numbers are lost. -/
theorem say_for_nothing (h : Spans none a b lost []) (behind : Option Group) (ts : List Token) :
    Spans behind a b lost [.tokens ts] := by
  obtain ⟨fresh, hgrouped, -, hcount⟩ := h
  have hnone : fresh = [] := List.eq_nil_iff_forall_not_mem.2 fun g hg =>
    absurd (hgrouped.mem_groupsIn_of_fresh hg) (by simp)
  subst hnone
  exact ⟨[], .tokens behind ts, by simp [Numbered], hcount⟩

/-- The number is taken, and no block keeps it. -/
theorem lose (h : Spans none (a + 1) b lost front) : Spans none a b (lost + 1) front := by
  obtain ⟨fresh, hgrouped, hrange, hcount⟩ := h
  exact ⟨fresh, hgrouped, hrange.widen (by omega) (by omega), by omega⟩

theorem row (kind : BlockKind) (hinner : Spans none (group + 1) b lost inner)
    (hclauses : Spans (some group) b c lost' clauses)
    (hkind : clauses = [] ∨ kind = .tryBody ∨ kind = .statements) :
    Spans none group c (lost + lost') (bracketed kind group inner clauses) := by
  obtain ⟨fresh, hgrouped, hrange, hcount⟩ := hinner
  obtain ⟨fresh', hgrouped', hrange', hcount'⟩ := hclauses
  refine ⟨_, .row kind group hgrouped hgrouped' (hrange.disjoint hrange')
    (hrange.not_mem (by omega)) (hrange'.not_mem (by omega)) hkind, ?_, ?_⟩
  · have hwide : Numbered group c fresh := hrange.widen (by omega) (by omega)
    exact (hwide.append (hrange'.widen (by omega) (by omega))).cons (by omega) (by omega)
  · rw [List.length_cons, List.length_append]
    omega

/-- A block that is written before it gets its number. -/
theorem late (kind : BlockKind) (hinner : Spans none a b lost inner) :
    Spans none a (b + 1) lost (bracketed kind b inner []) := by
  obtain ⟨fresh, hgrouped, hrange, hcount⟩ := hinner
  refine ⟨_, .row kind b hgrouped (.nil _) (by simp) (hrange.not_mem (by omega)) (by simp)
    (.inl rfl), ?_, ?_⟩
  · rw [List.append_nil]
    exact (hrange.widen (by omega) (by omega)).cons (by omega) (by omega)
  · rw [List.append_nil, List.length_cons]
    omega

theorem clause {word : String} (hword : word ∈ clauseWords) (ts : List Token)
    (hgroup : group < a) (hinner : Spans none a b lost inner)
    (hclauses : Spans (some group) b c lost' clauses) :
    Spans (some group) a c (lost + lost')
      (.tokens (.keyword word :: ts) :: bracketed .statements group inner clauses) := by
  obtain ⟨fresh, hgrouped, hrange, hcount⟩ := hinner
  obtain ⟨fresh', hgrouped', hrange', hcount'⟩ := hclauses
  refine ⟨_, .clause word ts group hword hgrouped hgrouped' (hrange.disjoint hrange')
    (hrange.not_mem (by omega)) (hrange'.not_mem (by omega)), ?_, ?_⟩
  · exact (hrange.widen (by omega) (by omega)).append (hrange'.widen (by omega) (by omega))
  · rw [List.length_append]
    omega

end Spans

end JavaFragments

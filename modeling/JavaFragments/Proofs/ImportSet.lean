import JavaFragments.Proofs.Balance
import JavaFragments.Proofs.StatementMentions

/-! # The imports of a method body

The imports of an accepted body are those of the classes that are counted in it, less those that
are visible without an import. Where a class is counted more than once, the last occurrence gives
the dotted name. -/
set_option autoImplicit false

namespace JavaFragments

/-- The class of this internal name is not visible by its package alone. -/
def Environment.NeedsImport (env : Environment) (internalName : String) : Prop :=
  InternalName.package internalName ≠ "" ∧
    InternalName.package internalName ≠ "java/lang" ∧
    InternalName.package internalName ≠ env.package

instance (env : Environment) (internalName : String) : Decidable (env.NeedsImport internalName) :=
  inferInstanceAs (Decidable (_ ∧ _ ∧ _))

/-- The last class of its internal name. -/
def LastNamed (types : List ClassType) (t : ClassType) : Prop :=
  ∃ front back, types = front ++ t :: back ∧
    ∀ later ∈ back, later.internalName ≠ t.internalName

theorem lastNamed_nil (t : ClassType) : ¬ LastNamed [] t := by
  rintro ⟨front, back, h, -⟩
  simp at h

theorem lastNamed_concat {types : List ClassType} {u t : ClassType} :
    LastNamed (types ++ [u]) t ↔
      t = u ∨ (LastNamed types t ∧ t.internalName ≠ u.internalName) := by
  constructor
  · rintro ⟨front, back, h, hlater⟩
    rcases List.eq_nil_or_concat back with rfl | ⟨back, last, rfl⟩
    · exact .inl (List.singleton_inj.1 (List.append_inj' h rfl).2).symm
    · rw [List.concat_eq_append] at h hlater
      rw [← List.cons_append, ← List.append_assoc] at h
      obtain ⟨rfl, hlast⟩ := List.append_inj' h rfl
      obtain rfl := List.singleton_inj.1 hlast
      rw [List.forall_mem_append, List.forall_mem_singleton] at hlater
      exact .inr ⟨⟨front, back, rfl, hlater.1⟩, hlater.2.symm⟩
  · rintro (rfl | ⟨⟨front, back, rfl, hlater⟩, hne⟩)
    · exact ⟨types, [], rfl, by simp⟩
    · refine ⟨front, back ++ [u], by simp, ?_⟩
      rw [List.forall_mem_append, List.forall_mem_singleton]
      exact ⟨hlater, hne.symm⟩

theorem exists_lastNamed_concat {types : List ClassType} {u : ClassType} {name dotted : String} :
    (∃ t, LastNamed (types ++ [u]) t ∧ t.internalName = name ∧ t.qualifiedName = dotted) ↔
      (name = u.internalName ∧ dotted = u.qualifiedName) ∨
        (name ≠ u.internalName ∧
          ∃ t, LastNamed types t ∧ t.internalName = name ∧ t.qualifiedName = dotted) := by
  constructor
  · rintro ⟨t, hlast, rfl, rfl⟩
    rcases lastNamed_concat.1 hlast with rfl | ⟨hlast, hne⟩
    · exact .inl ⟨rfl, rfl⟩
    · exact .inr ⟨hne, t, hlast, rfl, rfl⟩
  · rintro (⟨rfl, rfl⟩ | ⟨hne, t, hlast, rfl, rfl⟩)
    · exact ⟨u, lastNamed_concat.2 (.inl rfl), rfl, rfl⟩
    · exact ⟨t, lastNamed_concat.2 (.inr ⟨hlast, hne⟩), rfl, rfl⟩

/-- Where a name occurs, there is a last class of that name. -/
theorem exists_lastNamed {types : List ClassType} {t : ClassType} (h : t ∈ types) :
    ∃ last, LastNamed types last ∧ last.internalName = t.internalName := by
  induction types using List.reverseRecOn with
  | nil => cases h
  | append_singleton types u ih =>
      by_cases hname : u.internalName = t.internalName
      · exact ⟨u, lastNamed_concat.2 (.inl rfl), hname⟩
      · rcases List.mem_append.1 h with hmem | hmem
        · obtain ⟨last, hlast, heq⟩ := ih hmem
          exact ⟨last, lastNamed_concat.2 (.inr ⟨hlast, fun h => hname (h.symm.trans heq)⟩), heq⟩
        · exact absurd (congrArg ClassType.internalName (List.mem_singleton.1 hmem)).symm hname

theorem LastNamed.mem {types : List ClassType} {t : ClassType} (h : LastNamed types t) :
    t ∈ types := by
  obtain ⟨front, back, rfl, -⟩ := h
  simp

namespace Imports

theorem isVisible_eq_false_iff {t : ClassType} {env : Environment} :
    isVisible t env = false ↔ env.NeedsImport t.internalName := by
  simp only [isVisible, Bool.or_eq_false_iff, decide_eq_false_iff_not, and_assoc]
  exact Iff.rfl

/-- An insertion changes the entry of its own key alone. -/
theorem mem_insertEntry_iff {key value name dotted : String} {entries : List (String × String)}
    (h : Ascending entries) :
    (name, dotted) ∈ insertEntry key value entries ↔
      (name = key ∧ dotted = value) ∨ (name ≠ key ∧ (name, dotted) ∈ entries) := by
  induction entries with
  | nil => simp [insertEntry]
  | cons head rest ih =>
      obtain ⟨k, v⟩ := head
      obtain ⟨hhead, hrest⟩ := List.pairwise_cons.1 h
      unfold insertEntry
      by_cases hname : name = key
      · subst hname
        split
        · rename_i hlt
          have hnew : (name, dotted) ∉ (k, v) :: rest := by
            intro hmem
            rcases List.mem_cons.1 hmem with heq | hmem
            · cases heq
              exact String.lt_irrefl _ hlt
            · exact String.lt_asymm hlt (hhead _ hmem)
          rw [List.mem_cons, or_iff_left hnew]
          simp
        · split
          · rename_i heq
            have hnew : (name, dotted) ∉ rest := fun hmem =>
              absurd (hhead _ hmem) (heq ▸ String.lt_irrefl _)
            simp [hnew]
          · rename_i hne
            simp [ih hrest, hne]
      · split
        · simp [hname]
        · split
          · rename_i heq
            simp [hname, ← heq]
          · simp [ih hrest, hname]

/-- What is imported for the classes, one after another. -/
theorem mem_insertAll_iff {types : List ClassType} {env : Environment} {name dotted : String} :
    (name, dotted) ∈ (empty.insertAll types env).entries ↔
      env.NeedsImport name ∧
        ∃ t, LastNamed types t ∧ t.internalName = name ∧ t.qualifiedName = dotted := by
  induction types using List.reverseRecOn with
  | nil =>
      have hnone : (name, dotted) ∉ (empty.insertAll [] env).entries := List.not_mem_nil
      simp [hnone, lastNamed_nil]
  | append_singleton types u ih =>
      have hstep : (empty.insertAll (types ++ [u]) env).entries =
          ((empty.insertAll types env).insert u env).entries := by
        rw [insertAll_append]
        rfl
      rw [hstep, exists_lastNamed_concat]
      by_cases hvisible : isVisible u env = false
      · have hneeds := isVisible_eq_false_iff.1 hvisible
        have hentries : ((empty.insertAll types env).insert u env).entries =
            insertEntry u.internalName u.qualifiedName (empty.insertAll types env).entries := by
          rw [insert, if_neg (by simp [hvisible])]
        rw [hentries, mem_insertEntry_iff (empty.insertAll types env).ascending, ih]
        by_cases hname : name = u.internalName
        · simp [hname, hneeds]
        · simp [hname]
      · have hneeds := isVisible_eq_false_iff.not.1 hvisible
        rw [insert, if_pos (by simpa using hvisible), ih]
        refine and_congr_right fun hname => ?_
        have hne : name ≠ u.internalName := fun heq => hneeds (heq ▸ hname)
        simp [hne]

theorem internalNames_pairwise (imports : Imports) :
    imports.internalNames.Pairwise (· < ·) :=
  List.pairwise_map.2 imports.ascending

theorem mem_internalNames_iff {imports : Imports} {name : String} :
    name ∈ imports.internalNames ↔ ∃ dotted, (name, dotted) ∈ imports.entries := by
  simp [internalNames]

end Imports

/-- The classes that count for the imports of a statement, in printed order. -/
def Statement.countedClasses (s : Statement) : List ClassType :=
  countedIn s.types

theorem imports_of_fragmentBody {body : Statement} {env : Environment} {result : FragmentedBody}
    (h : fragmentBody body env = .ok result) :
    result.imports = ((Session.start env declarationHead).fragment body).1.imports := by
  obtain ⟨hok, -⟩ := fragmentBody_ok h
  rw [fragmentBody_of_accepted hok] at h
  unfold Session.finish at h
  split at h
  · exact (congrArg FragmentedBody.imports (Except.ok.inj h)).symm
  · cases h

end JavaFragments

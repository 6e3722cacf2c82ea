import JavaFragments.Proofs.ImportSet
import JavaFragments.Proofs.Pieces

/-! # Names derived from internal names

The simple name of a class is empty where its internal name ends in a dollar sign. The dotted name
has a component for each stretch between two separators, so one of them is empty just where a
dollar sign or a dot of a segment does not stand between two other characters. The dotted name
always ends in the simple name. -/
set_option autoImplicit false

namespace JavaFragments

namespace InternalName

/-- The segments of an internal name. A slash stands between each two of them. -/
def segments (name : String) : List (List Char) :=
  name.toList.splitOn '/'

/-- The components of a dotted name. A dot stands between each two of them. -/
def components (dotted : String) : List (List Char) :=
  dotted.toList.splitOn '.'

/-- What separates components inside a segment. -/
def marks : List Char := ['$', '.']

/-- No mark stands first, last or in front of another one. -/
def MarksApart (segment : List Char) : Prop :=
  ∀ m ∈ marks, ¬ [m] <+: segment ∧ ¬ [m] <:+ segment ∧ ∀ n ∈ marks, ¬ [m, n] <:+: segment

/-! ## Components -/

def endsComponent (c : Char) : Bool :=
  isSeparator c || c = '.'

theorem mem_marks_of_endsComponent {c : Char} (h : endsComponent c = true) (hslash : c ≠ '/') :
    c ∈ marks := by
  simpa [marks, endsComponent, isSeparator, hslash] using h

theorem dotted_cons (c : Char) (rest : List Char) :
    dotted (c :: rest) = (if isSeparator c then '.' else c) :: dotted rest := rfl

theorem dotted_append (front back : List Char) :
    dotted (front ++ back) = dotted front ++ dotted back :=
  List.map_append

theorem splitOn_dotted (cs : List Char) :
    (dotted cs).splitOn '.' = cs.splitOnP endsComponent := by
  induction cs with
  | nil => rfl
  | cons c rest ih =>
      rw [dotted_cons, List.splitOn_cons_eq_if_modifyHead, List.splitOnP_cons_eq_if_modifyHead, ih]
      by_cases hseparator : isSeparator c = true
      · simp [hseparator, endsComponent]
      · simp [hseparator, endsComponent]

theorem components_qualifiedName (name : String) :
    components (qualifiedName name) = (segments name).flatMap (List.splitOnP endsComponent) := by
  have hsome : segments name ≠ [] := List.splitOn_ne_nil '/' name.toList
  have hname : ['/'].intercalate (segments name) = name.toList :=
    List.intercalate_splitOn '/'
  have hslash : endsComponent '/' = true := by decide
  rw [components, qualifiedName, String.toList_ofList, splitOn_dotted,
    ← Text.splitOnP_intercalate hslash hsome, hname]

theorem marksApart_iff {segment : List Char} (hsome : segment ≠ []) (hslash : '/' ∉ segment) :
    MarksApart segment ↔ [] ∉ segment.splitOnP endsComponent := by
  constructor
  · intro h hempty
    have hmark : ∀ c, endsComponent c = true → c ∈ segment → c ∈ marks := fun c hc hmem =>
      mem_marks_of_endsComponent hc fun heq => hslash (heq ▸ hmem)
    rcases Text.nil_mem_splitOnP_iff.1 hempty with
      hnil | ⟨c, hc, hfirst⟩ | ⟨c, hc, hlast⟩ | ⟨c, d, hc, hd, hnext⟩
    · exact hsome hnil
    · exact (h c (hmark c hc (hfirst.subset (by simp)))).1 hfirst
    · exact (h c (hmark c hc (hlast.subset (by simp)))).2.1 hlast
    · exact (h c (hmark c hc (hnext.subset (by simp)))).2.2 d
        (hmark d hd (hnext.subset (by simp))) hnext
  · intro h m hm
    have hends : ∀ c ∈ marks, endsComponent c = true := by
      simp [marks, endsComponent, isSeparator]
    refine ⟨fun hfirst => ?_, fun hlast => ?_, fun n hn hnext => ?_⟩
    · exact h (Text.nil_mem_splitOnP_iff.2 (.inr (.inl ⟨m, hends m hm, hfirst⟩)))
    · exact h (Text.nil_mem_splitOnP_iff.2 (.inr (.inr (.inl ⟨m, hends m hm, hlast⟩))))
    · exact h (Text.nil_mem_splitOnP_iff.2
        (.inr (.inr (.inr ⟨m, n, hends m hm, hends n hn, hnext⟩))))

/-- A dotted name is well formed just if the marks of all its segments stand apart. -/
theorem nil_not_mem_components_iff {name : String} (hname : [] ∉ segments name) :
    [] ∉ components (qualifiedName name) ↔ ∀ segment ∈ segments name, MarksApart segment := by
  rw [components_qualifiedName, List.mem_flatMap]
  push Not
  refine forall₂_congr fun segment hsegment => ?_
  exact (marksApart_iff (fun h => hname (h ▸ hsegment))
    (Text.not_mem_of_mem_splitOn hsegment)).symm

/-! ## The simple name -/

theorem afterLastSeparator_concat (cs : List Char) (c : Char) :
    afterLastSeparator (cs ++ [c]) =
      if isSeparator c then [] else afterLastSeparator cs ++ [c] := by
  rw [afterLastSeparator, List.reverse_concat, List.takeWhile_cons]
  cases isSeparator c with
  | true => rfl
  | false => simp [afterLastSeparator]

theorem afterLastSeparator_eq_nil_iff {cs : List Char} :
    afterLastSeparator cs = [] ↔ cs = [] ∨ ∃ c, isSeparator c = true ∧ [c] <:+ cs := by
  induction cs using List.reverseRecOn with
  | nil => simp [afterLastSeparator]
  | append_singleton cs c ih =>
      rw [afterLastSeparator_concat]
      simp [List.singleton_suffix_append_singleton_iff]

/-- The dotted name of a class is its simple name behind a dot, or nothing but that. -/
theorem dotted_eq_append (cs : List Char) :
    ∃ front, dotted cs = front ++ afterLastSeparator cs ∧ (front = [] ∨ ['.'] <:+ front) := by
  induction cs using List.reverseRecOn with
  | nil => exact ⟨[], rfl, .inl rfl⟩
  | append_singleton cs c ih =>
      obtain ⟨front, hdotted, hfront⟩ := ih
      rw [afterLastSeparator_concat, dotted_append, dotted_cons]
      by_cases hseparator : isSeparator c = true
      · rw [if_pos hseparator, if_pos hseparator]
        exact ⟨dotted cs ++ ['.'], (List.append_nil _).symm, .inr (List.suffix_append ..)⟩
      · rw [if_neg hseparator, if_neg hseparator, hdotted]
        exact ⟨front, List.append_assoc .., hfront⟩

theorem simpleName_eq_empty_iff {name : String} (hname : [] ∉ segments name) :
    simpleName name = "" ↔ ['$'] <:+ name.toList := by
  have hsome : name.toList ≠ [] := by
    intro hnil
    rw [segments, hnil, List.splitOn_nil] at hname
    exact hname List.mem_cons_self
  have hslash : ¬ ['/'] <:+ name.toList := by
    rintro ⟨front, hfront⟩
    rw [segments, ← hfront, List.splitOn_append_cons_self, List.splitOn_nil] at hname
    exact hname (List.mem_append_right _ List.mem_cons_self)
  have hempty : simpleName name = "" ↔ afterLastSeparator name.toList = [] := by
    rw [simpleName, ← String.toList_inj, String.toList_ofList, String.toList_empty]
  rw [hempty, afterLastSeparator_eq_nil_iff, or_iff_right hsome]
  constructor
  · rintro ⟨c, hc, hlast⟩
    have hdollar : c = '/' ∨ c = '$' := by simpa [isSeparator] using hc
    rcases hdollar with rfl | rfl
    · exact absurd hlast hslash
    · exact hlast
  · intro hlast
    exact ⟨'$', by decide, hlast⟩

end InternalName

/-- Of classes with derived names, each one that needs an import has one, under its dotted name. -/
theorem Imports.mem_insertAll_ofInternalName_iff {env : Environment} {names : List String}
    {name dotted : String} :
    (name, dotted) ∈ (Imports.empty.insertAll (names.map .ofInternalName) env).entries ↔
      name ∈ names ∧ env.NeedsImport name ∧ dotted = InternalName.qualifiedName name := by
  have hderived : ∀ t ∈ names.map ClassType.ofInternalName,
      t.internalName ∈ names ∧ t.qualifiedName = InternalName.qualifiedName t.internalName := by
    rw [List.forall_mem_map]
    exact fun n hn => ⟨hn, rfl⟩
  rw [mem_insertAll_iff]
  constructor
  · rintro ⟨hneeds, t, hlast, rfl, rfl⟩
    obtain ⟨hmem, hdotted⟩ := hderived t hlast.mem
    exact ⟨hmem, hneeds, hdotted⟩
  · rintro ⟨hmem, hneeds, rfl⟩
    obtain ⟨t, hlast, hname⟩ :=
      exists_lastNamed (List.mem_map_of_mem hmem : ClassType.ofInternalName name ∈ _)
    have hinternal : t.internalName = name := hname
    exact ⟨hneeds, t, hlast, hinternal, hinternal ▸ (hderived t hlast.mem).2⟩

/-- A class prints a text just if its internal name does not end in a dollar sign. Where the class
needs an import, it is imported by its dotted name. That name has no empty component just if the
marks of each segment stand apart, and it ends in the name that is printed. -/
theorem derived_names_well_formed_iff (env : Environment) {name : String}
    (hname : [] ∉ InternalName.segments name) :
    let t := ClassType.ofInternalName name
    (∀ arguments dimension, ∃ rest,
        (ClassType.unmentionedPhrase env { t with arguments, dimension }).tokens =
          t.reference env :: rest) ∧
      ((t.reference env).print ≠ "" ↔ ¬ ['$'] <:+ name.toList) ∧
      (∀ (names : List String) dotted,
        (name, dotted) ∈ (Imports.empty.insertAll (names.map .ofInternalName) env).entries ↔
          name ∈ names ∧ env.NeedsImport name ∧ dotted = t.qualifiedName) ∧
      ([] ∉ InternalName.components t.qualifiedName ↔
        ∀ segment ∈ InternalName.segments name, InternalName.MarksApart segment) ∧
      ∃ front, t.qualifiedName.toList = front ++ t.name.toList ∧
        (front = [] ∨ ['.'] <:+ front) := by
  intro t
  refine ⟨fun arguments dimension => ?_, ?_, fun names dotted => ?_, ?_, ?_⟩
  · obtain ⟨rest, hphrase, -⟩ :=
      ClassType.phrase_behind_reference env { t with arguments, dimension }
    exact ⟨rest.tokens, by rw [hphrase]; rfl⟩
  · exact not_congr (InternalName.simpleName_eq_empty_iff hname)
  · exact Imports.mem_insertAll_ofInternalName_iff
  · exact InternalName.nil_not_mem_components_iff hname
  · show ∃ front, (InternalName.qualifiedName name).toList =
      front ++ (InternalName.simpleName name).toList ∧ _
    rw [InternalName.qualifiedName, InternalName.simpleName, String.toList_ofList,
      String.toList_ofList]
    exact InternalName.dotted_eq_append name.toList

/-- It prints `D` and is imported as `a..b.C.D`. -/
theorem derived_names_well_formed_iff_of_leading_dollar :
    let t := ClassType.ofInternalName "a/$b/C$D"
    [] ∉ InternalName.segments "a/$b/C$D" ∧ (t.reference ⟨"Main"⟩).print ≠ "" ∧
      ("a/$b/C$D", "a..b.C.D") ∈ (Imports.empty.insertAll [t] ⟨"Main"⟩).entries ∧
      [] ∈ InternalName.components t.qualifiedName := by
  intro t
  have hname : [] ∉ InternalName.segments "a/$b/C$D" := by decide
  obtain ⟨-, hprint, himports, hcomponents, -⟩ := derived_names_well_formed_iff ⟨"Main"⟩ hname
  refine ⟨hname, hprint.2 (by decide), ?_, ?_⟩
  · exact (himports ["a/$b/C$D"] "a..b.C.D").2 (by decide)
  · by_contra hfull
    obtain ⟨hfirst, -⟩ := hcomponents.1 hfull ['$', 'b'] (by decide) '$' (by decide)
    exact hfirst ⟨['b'], rfl⟩

/-- The class `Predef$` of the package `scala` has no simple name, and its dotted name ends in a
dot. -/
theorem empty_name_of_trailing_dollar :
    ¬ ∀ name, [] ∉ InternalName.segments name →
      (ClassType.ofInternalName name).name ≠ "" ∧
        [] ∉ InternalName.components (ClassType.ofInternalName name).qualifiedName := by
  intro h
  obtain ⟨hsimple, -⟩ := h "scala/Predef$" (by decide)
  exact hsimple (by decide)

end JavaFragments

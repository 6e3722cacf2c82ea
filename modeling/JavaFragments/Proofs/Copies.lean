import JavaFragments.LocalVariable

/-! # Copies of local variables

A variable that is copied from slot to slot stays what its type makes of it. The copy of a variable
is classified as its declared type is, unless the variable is an object of a type that calls for
another kind. No variable that is classified from a type is such an object, and no copy of a
primitive variable is one. -/
set_option autoImplicit false

namespace JavaFragments

inductive VariableKind where
  | primitive
  | object
  | generic
deriving DecidableEq

/-- The kind that a variable of the type has. An array of a primitive type is an object. -/
def JavaType.variableKind : JavaType → VariableKind
  | .primitive t => if t.dimension = 0 then .primitive else .object
  | .classType _ => .object
  | .memberType _ _ => .object
  | .typeVariable _ => .generic

theorem JavaType.variableKind_eq_primitive_iff {type : JavaType} :
    type.variableKind = .primitive ↔ ∃ kind, type = .primitive ⟨kind, 0⟩ := by
  constructor
  · intro h
    cases type with
    | primitive t =>
        obtain ⟨kind, dimension⟩ := t
        rw [variableKind] at h
        split at h
        · rename_i hzero
          have hdimension : dimension = 0 := hzero
          exact ⟨kind, by rw [hdimension]⟩
        · cases h
    | classType t => cases h
    | memberType member outer => cases h
    | typeVariable t => cases h
  · rintro ⟨kind, rfl⟩
    rfl

theorem JavaType.variableKind_eq_generic_iff {type : JavaType} :
    type.variableKind = .generic ↔ ∃ t, type = .typeVariable t := by
  constructor
  · intro h
    cases type with
    | primitive t =>
        rw [variableKind] at h
        split at h <;> cases h
    | classType t => cases h
    | memberType member outer => cases h
    | typeVariable t => exact ⟨t, rfl⟩
  · rintro ⟨t, rfl⟩
    rfl

theorem VariableKind.eq_object_iff {kind : VariableKind} :
    kind = .object ↔ kind ≠ .primitive ∧ kind ≠ .generic := by
  cases kind <;> decide

namespace LocalVariable

def kind : LocalVariable → VariableKind
  | .primitive .. => .primitive
  | .object .. => .object
  | .generic .. => .generic

/-! ## One step -/

theorem ofPrimitive_kind (slot : Slot) (type : PrimitiveType) :
    (ofPrimitive slot type).kind = (JavaType.primitive type).variableKind := by
  rw [ofPrimitive, JavaType.variableKind]
  split <;> rfl

theorem slot_classify (index offset : UInt32) (origin : Origin) :
    (classify index offset origin).slot = ⟨index, offset, none⟩ := by
  cases origin with
  | type t =>
      cases t with
      | primitive t => exact slot_ofPrimitive _ t
      | classType t => rfl
      | memberType member outer => rfl
      | typeVariable t => rfl
  | copyOf v =>
      cases v with
      | primitive slot t => exact slot_ofPrimitive _ t
      | object slot t => rfl
      | generic slot t => rfl

section Types
variable (index offset : UInt32) (type : JavaType)

theorem kind_classify_type : (classify index offset (.type type)).kind = type.variableKind := by
  cases type with
  | primitive t => exact ofPrimitive_kind _ t
  | classType t => rfl
  | memberType member outer => rfl
  | typeVariable t => rfl

theorem declaredType_classify_type :
    (classify index offset (.type type)).declaredType = type := by
  cases type with
  | primitive t => exact declaredType_ofPrimitive _ t
  | classType t => rfl
  | memberType member outer => rfl
  | typeVariable t => rfl

end Types

/-- The variable is no object of a type that calls for another kind. -/
def FitsType (v : LocalVariable) : Prop :=
  v.kind = .object → v.declaredType.variableKind = .object

theorem fitsType_classify_type (index offset : UInt32) (type : JavaType) :
    (classify index offset (.type type)).FitsType := by
  rw [FitsType, kind_classify_type, declaredType_classify_type]
  exact id

/-- These are all the variables whose copies are classified as their types are. -/
theorem classify_copyOf_iff (index offset : UInt32) {v : LocalVariable} :
    classify index offset (.copyOf v) = classify index offset (.type v.declaredType) ↔
      v.FitsType := by
  cases v with
  | primitive slot type => exact ⟨fun _ h => (nomatch h), fun _ => rfl⟩
  | generic slot type => exact ⟨fun _ h => (nomatch h), fun _ => rfl⟩
  | object slot type =>
      constructor
      · intro h _
        calc type.variableKind
            = (classify index offset (.type type)).kind :=
              (kind_classify_type index offset type).symm
          _ = .object := congrArg kind h.symm
      · intro h
        have hkind : type.variableKind = .object := h rfl
        cases type with
        | primitive t =>
            rw [JavaType.variableKind] at hkind
            split at hkind
            · cases hkind
            · rename_i hdimension
              exact (if_neg hdimension).symm
        | classType t => rfl
        | memberType member outer => rfl
        | typeVariable t => cases hkind

/-! ## Many steps -/

/-- What a variable has become when it is copied into one slot after the other. -/
def copiedTo (v : LocalVariable) : List (UInt32 × UInt32) → LocalVariable
  | [] => v
  | (index, offset) :: rest => (classify index offset (.copyOf v)).copiedTo rest

/-- All that is left of the slots in between is the last one. -/
theorem copiedTo_classify_type (type : JavaType) (index offset : UInt32)
    (slots : List (UInt32 × UInt32)) :
    (classify index offset (.type type)).copiedTo slots =
      classify (slots.getLastD (index, offset)).1 (slots.getLastD (index, offset)).2
        (.type type) := by
  induction slots generalizing index offset with
  | nil => rfl
  | cons slot rest ih =>
      have hstep := (classify_copyOf_iff slot.1 slot.2).2 (fitsType_classify_type index offset type)
      rw [declaredType_classify_type] at hstep
      rw [copiedTo, hstep, ih, List.getLastD_cons]

/-- A variable that is classified from a type and then copied any number of times is what the type
makes of it, in the slot named last. So is every copy of an array in a primitive variable. -/
theorem copies_stay_classified (type : JavaType) (index offset : UInt32)
    (slots : List (UInt32 × UInt32)) :
    let v := (classify index offset (.type type)).copiedTo slots
    let last := slots.getLastD (index, offset)
    v.declaredType = type ∧
      v.slot = ⟨last.1, last.2, none⟩ ∧
      (v.kind = .primitive ↔ ∃ kind, type = .primitive ⟨kind, 0⟩) ∧
      (v.kind = .generic ↔ ∃ t, type = .typeVariable t) ∧
      (v.kind = .object ↔
        (¬ ∃ kind, type = .primitive ⟨kind, 0⟩) ∧ ¬ ∃ t, type = .typeVariable t) ∧
      (∀ i o, classify i o (.copyOf v) = classify i o (.type v.declaredType)) ∧
      ∀ slot array, array.dimension ≠ 0 → ∀ first rest,
        (LocalVariable.primitive slot array).copiedTo (first :: rest) =
          .object ⟨(rest.getLastD first).1, (rest.getLastD first).2, none⟩
            (.primitive array) := by
  intro v last
  have hv : v = classify last.1 last.2 (.type type) :=
    copiedTo_classify_type type index offset slots
  have hkind : v.kind = type.variableKind := by rw [hv, kind_classify_type]
  refine ⟨?_, ?_, ?_, ?_, ?_, fun i o => ?_, fun slot array harray first rest => ?_⟩
  · rw [hv, declaredType_classify_type]
  · rw [hv, slot_classify]
  · rw [hkind, JavaType.variableKind_eq_primitive_iff]
  · rw [hkind, JavaType.variableKind_eq_generic_iff]
  · rw [VariableKind.eq_object_iff, hkind, ← JavaType.variableKind_eq_primitive_iff,
      ← JavaType.variableKind_eq_generic_iff]
  · rw [hv]
    exact (classify_copyOf_iff i o).2 (fitsType_classify_type last.1 last.2 type)
  · -- The first copy is classified from the type of the array, so the rest is a run as above.
    show (classify first.1 first.2 (.type (.primitive array))).copiedTo rest = _
    rw [copiedTo_classify_type]
    exact if_neg harray

/-- An array of `int` in a primitive variable, copied twice. -/
theorem copies_stay_classified_of_array :
    let array : PrimitiveType := ⟨.int, 1⟩
    array.dimension ≠ 0 ∧
      (LocalVariable.primitive ⟨0, 0, some "a"⟩ array).copiedTo [(1, 4), (2, 8)] =
        .object ⟨2, 8, none⟩ (.primitive array) := by
  intro array
  have hdimension : array.dimension ≠ 0 := by decide
  obtain ⟨-, -, -, -, -, -, hcopies⟩ := copies_stay_classified (.primitive array) 0 0 []
  exact ⟨hdimension, hcopies ⟨0, 0, some "a"⟩ array hdimension (1, 4) [(2, 8)]⟩

end LocalVariable

end JavaFragments

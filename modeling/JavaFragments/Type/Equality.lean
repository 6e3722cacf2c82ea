import JavaFragments.Type

/-! # Equality of types

Types are equal when they agree in every part, printed names included. -/
set_option autoImplicit false

namespace JavaFragments

mutual

def JavaType.equal : JavaType → JavaType → Bool
  | .primitive a, .primitive b => a == b
  | .classType a, .classType b => a.equal b
  | .memberType a outer, .memberType b outer' => a.equal b && outer.equal outer'
  | .typeVariable a, .typeVariable b => a == b
  | _, _ => false
termination_by structural a => a

def ClassType.equal : ClassType → ClassType → Bool
  | ⟨internalName, qualifiedName, name, arguments, dimension⟩, b =>
      internalName == b.internalName && qualifiedName == b.qualifiedName && name == b.name &&
        (match arguments, b.arguments with
          | none, none => true
          | some x, some y => x.equal y
          | _, _ => false) &&
        dimension == b.dimension
termination_by structural a => a

def TypeArgument.equal : TypeArgument → TypeArgument → Bool
  | .type a, .type b => a.equal b
  | .wildcard, .wildcard => true
  | .wildcardExtends a, .wildcardExtends b => a.equal b
  | .wildcardSuper a, .wildcardSuper b => a.equal b
  | .list first second rest, .list first' second' rest' =>
      first.equal first' && second.equal second' && equalArguments rest rest'
  | _, _ => false
termination_by structural a => a

def equalArguments : List TypeArgument → List TypeArgument → Bool
  | [], [] => true
  | a :: rest, b :: rest' => a.equal b && equalArguments rest rest'
  | _, _ => false
termination_by structural a => a

end

mutual

theorem JavaType.eq_of_equal : ∀ {a b : JavaType}, a.equal b = true → a = b
  | .primitive a, b, h => by cases b <;> simp_all [JavaType.equal]
  | .classType a, b, h => by
      cases b <;> simp only [JavaType.equal, Bool.false_eq_true] at h
      rw [ClassType.eq_of_equal h]
  | .memberType a outer, b, h => by
      cases b <;> simp only [JavaType.equal, Bool.false_eq_true, Bool.and_eq_true] at h
      rw [ClassType.eq_of_equal h.1, JavaType.eq_of_equal h.2]
  | .typeVariable a, b, h => by cases b <;> simp_all [JavaType.equal]

theorem ClassType.eq_of_equal : ∀ {a b : ClassType}, a.equal b = true → a = b
  | ⟨_, _, _, none, _⟩, ⟨_, _, _, arguments, _⟩, h => by
      cases arguments <;> simp_all [ClassType.equal]
  | ⟨_, _, _, some x, _⟩, ⟨_, _, _, arguments, _⟩, h => by
      cases arguments with
      | none => simp [ClassType.equal] at h
      | some y =>
          simp only [ClassType.equal, Bool.and_eq_true, beq_iff_eq] at h
          obtain ⟨⟨⟨⟨h1, h2⟩, h3⟩, hxy⟩, h4⟩ := h
          rw [h1, h2, h3, h4, TypeArgument.eq_of_equal hxy]

theorem TypeArgument.eq_of_equal : ∀ {a b : TypeArgument}, a.equal b = true → a = b
  | .type a, b, h => by
      cases b <;> simp only [TypeArgument.equal, Bool.false_eq_true] at h
      rw [JavaType.eq_of_equal h]
  | .wildcard, b, h => by cases b <;> simp_all [TypeArgument.equal]
  | .wildcardExtends a, b, h => by
      cases b <;> simp only [TypeArgument.equal, Bool.false_eq_true] at h
      rw [JavaType.eq_of_equal h]
  | .wildcardSuper a, b, h => by
      cases b <;> simp only [TypeArgument.equal, Bool.false_eq_true] at h
      rw [JavaType.eq_of_equal h]
  | .list first second rest, b, h => by
      cases b <;> simp only [TypeArgument.equal, Bool.false_eq_true, Bool.and_eq_true] at h
      rw [TypeArgument.eq_of_equal h.1.1, TypeArgument.eq_of_equal h.1.2,
        eq_of_equalArguments h.2]

theorem eq_of_equalArguments : ∀ {as bs : List TypeArgument}, equalArguments as bs = true → as = bs
  | [], bs, h => by cases bs <;> simp_all [equalArguments]
  | a :: rest, bs, h => by
      cases bs <;> simp only [equalArguments, Bool.false_eq_true, Bool.and_eq_true] at h
      rw [TypeArgument.eq_of_equal h.1, eq_of_equalArguments h.2]

end

mutual

theorem JavaType.equal_self : ∀ a : JavaType, a.equal a = true
  | .primitive a => by simp [JavaType.equal]
  | .classType a => by simp [JavaType.equal, a.equal_self]
  | .memberType a outer => by simp [JavaType.equal, a.equal_self, outer.equal_self]
  | .typeVariable a => by simp [JavaType.equal]

theorem ClassType.equal_self : ∀ a : ClassType, a.equal a = true
  | ⟨_, _, _, none, _⟩ => by simp [ClassType.equal]
  | ⟨_, _, _, some x, _⟩ => by simp [ClassType.equal, x.equal_self]

theorem TypeArgument.equal_self : ∀ a : TypeArgument, a.equal a = true
  | .type a => by simp [TypeArgument.equal, a.equal_self]
  | .wildcard => by simp [TypeArgument.equal]
  | .wildcardExtends a => by simp [TypeArgument.equal, a.equal_self]
  | .wildcardSuper a => by simp [TypeArgument.equal, a.equal_self]
  | .list first second rest => by
      simp [TypeArgument.equal, first.equal_self, second.equal_self, equalArguments_self rest]

theorem equalArguments_self : ∀ as : List TypeArgument, equalArguments as as = true
  | [] => rfl
  | a :: rest => by simp [equalArguments, a.equal_self, equalArguments_self rest]

end

instance : DecidableEq JavaType := fun a b =>
  decidable_of_iff (a.equal b = true) ⟨JavaType.eq_of_equal, fun h => h ▸ a.equal_self⟩

instance : DecidableEq ClassType := fun a b =>
  decidable_of_iff (a.equal b = true) ⟨ClassType.eq_of_equal, fun h => h ▸ a.equal_self⟩

instance : DecidableEq TypeArgument := fun a b =>
  decidable_of_iff (a.equal b = true) ⟨TypeArgument.eq_of_equal, fun h => h ▸ a.equal_self⟩

end JavaFragments

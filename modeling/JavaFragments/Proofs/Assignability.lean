import JavaFragments.Type.Assignable

/-! # Assignability as an order

Acceptance is reflexive and transitive on types and on type arguments. Two types accept each other
just if they agree but for what is printed: `erased` drops the dotted and the printed name of every
class and takes a member type as the class that it denotes. -/
set_option autoImplicit false

namespace JavaFragments

mutual

/-- The type without printed names, a member type as the class that it denotes. -/
def JavaType.erased : JavaType → JavaType
  | .primitive t => .primitive t
  | .classType t => .classType t.erased
  | .memberType member _ => .classType member.erased
  | .typeVariable t => .typeVariable t

def ClassType.erased : ClassType → ClassType
  | ⟨internalName, _, _, none, dimension⟩ => ⟨internalName, "", "", none, dimension⟩
  | ⟨internalName, _, _, some arguments, dimension⟩ =>
      ⟨internalName, "", "", some arguments.erased, dimension⟩

def TypeArgument.erased : TypeArgument → TypeArgument
  | .type t => .type t.erased
  | .wildcard => .wildcard
  | .wildcardExtends bound => .wildcardExtends bound.erased
  | .wildcardSuper bound => .wildcardSuper bound.erased
  | .list first second rest => .list first.erased second.erased (erasedArguments rest)

def erasedArguments : List TypeArgument → List TypeArgument
  | [] => []
  | argument :: rest => argument.erased :: erasedArguments rest

end

/-! ## What is accepted -/

namespace JavaType

theorem accepts_primitive {a : PrimitiveType} {b : JavaType} :
    (primitive a).accepts b = true ↔ .primitive a = b := by
  cases b <;> simp [accepts]

theorem accepts_typeVariable {a : TypeVariable} {b : JavaType} :
    (typeVariable a).accepts b = true ↔ .typeVariable a = b := by
  cases b <;> simp [accepts]

/-- A class or member type accepts what denotes a class that its own class accepts. -/
theorem accepts_iff_of_class {a b : JavaType} {x : ClassType} (h : a.classType? = some x) :
    a.accepts b = true ↔ ∃ y, b.classType? = some y ∧ x.accepts y = true := by
  cases a with
  | primitive t => cases h
  | typeVariable t => cases h
  | classType t =>
      obtain rfl : t = x := Option.some.inj h
      cases hb : b.classType? <;> simp [accepts, hb]
  | memberType member outer =>
      obtain rfl : member = x := Option.some.inj h
      cases hb : b.classType? <;> simp [accepts, hb]

theorem erased_of_class {a : JavaType} {x : ClassType} (h : a.classType? = some x) :
    a.erased = .classType x.erased := by
  cases a with
  | primitive t => cases h
  | typeVariable t => cases h
  | classType t => rw [← Option.some.inj h, erased]
  | memberType member outer => rw [← Option.some.inj h, erased]

/-- Only what denotes a class becomes a class. -/
theorem class_of_erased {b : JavaType} {x : ClassType} (h : b.erased = .classType x) :
    ∃ y, b.classType? = some y ∧ y.erased = x := by
  cases b with
  | primitive t => cases h
  | typeVariable t => cases h
  | classType t => exact ⟨t, rfl, by simpa [erased] using h⟩
  | memberType member outer => exact ⟨member, rfl, by simpa [erased] using h⟩

end JavaType

/-- Of the same class and dimension, both raw or both with arguments that are accepted. -/
theorem ClassType.accepts_iff {a b : ClassType} :
    a.accepts b = true ↔ a.dimension = b.dimension ∧ a.internalName = b.internalName ∧
      Option.Rel (fun x y => TypeArgument.accepts x y = true) a.arguments b.arguments := by
  obtain ⟨internalName, _, _, arguments, dimension⟩ := a
  obtain ⟨internalName', _, _, arguments', dimension'⟩ := b
  cases arguments <;> cases arguments' <;> simp [ClassType.accepts, and_assoc]

theorem acceptPairwise_cons {a : TypeArgument} {rest bs : List TypeArgument} :
    acceptPairwise (a :: rest) bs = true ↔
      ∃ b rest', bs = b :: rest' ∧ a.accepts b = true ∧ acceptPairwise rest rest' = true := by
  cases bs with
  | nil => simp [acceptPairwise]
  | cons b rest' => simp [acceptPairwise, and_assoc]

namespace TypeArgument

theorem accepts_type {a : JavaType} {b : TypeArgument} :
    (type a).accepts b = true ↔ ∃ y, b = .type y ∧ a.accepts y = true := by
  cases b <;> simp [accepts]

/-- An upper bound accepts such a bound and a type. -/
theorem accepts_wildcardExtends {a : JavaType} {b : TypeArgument} :
    (wildcardExtends a).accepts b = true ↔
      ∃ y, (b = .wildcardExtends y ∨ b = .type y) ∧ a.accepts y = true := by
  cases b <;> simp [accepts]

theorem accepts_wildcardSuper {a : JavaType} {b : TypeArgument} :
    (wildcardSuper a).accepts b = true ↔
      ∃ y, (b = .wildcardSuper y ∨ b = .type y) ∧ a.accepts y = true := by
  cases b <;> simp [accepts]

theorem accepts_list {first second : TypeArgument} {rest : List TypeArgument} {b : TypeArgument} :
    (list first second rest).accepts b = true ↔
      ∃ first' second' rest', b = .list first' second' rest' ∧ first.accepts first' = true ∧
        second.accepts second' = true ∧ acceptPairwise rest rest' = true := by
  cases b <;> simp [accepts, and_assoc]

end TypeArgument

/-! ## Transitivity -/

mutual

theorem JavaType.accepts_trans : ∀ {a b c : JavaType}, a.accepts b = true → b.accepts c = true →
    a.accepts c = true
  | .primitive a, b, c, hab, hbc => by
      obtain rfl := JavaType.accepts_primitive.1 hab
      exact hbc
  | .typeVariable a, b, c, hab, hbc => by
      obtain rfl := JavaType.accepts_typeVariable.1 hab
      exact hbc
  | .classType a, b, c, hab, hbc => by
      obtain ⟨y, hy, hay⟩ := (JavaType.accepts_iff_of_class rfl).1 hab
      obtain ⟨z, hz, hyz⟩ := (JavaType.accepts_iff_of_class hy).1 hbc
      exact (JavaType.accepts_iff_of_class rfl).2 ⟨z, hz, a.accepts_trans hay hyz⟩
  | .memberType a outer, b, c, hab, hbc => by
      obtain ⟨y, hy, hay⟩ := (JavaType.accepts_iff_of_class rfl).1 hab
      obtain ⟨z, hz, hyz⟩ := (JavaType.accepts_iff_of_class hy).1 hbc
      exact (JavaType.accepts_iff_of_class rfl).2 ⟨z, hz, a.accepts_trans hay hyz⟩

theorem ClassType.accepts_trans : ∀ {a b c : ClassType}, a.accepts b = true →
    b.accepts c = true → a.accepts c = true
  | ⟨internalName, qualifiedName, name, none, dimension⟩, b, c, hab, hbc => by
      obtain ⟨hdimension, hname, harguments⟩ := ClassType.accepts_iff.1 hab
      obtain ⟨hdimension', hname', harguments'⟩ := ClassType.accepts_iff.1 hbc
      refine ClassType.accepts_iff.2 ⟨hdimension.trans hdimension', hname.trans hname', ?_⟩
      cases hb : b.arguments with
      | none => rwa [hb] at harguments'
      | some y => rw [hb] at harguments; cases harguments
  | ⟨internalName, qualifiedName, name, some x, dimension⟩, b, c, hab, hbc => by
      obtain ⟨hdimension, hname, harguments⟩ := ClassType.accepts_iff.1 hab
      obtain ⟨hdimension', hname', harguments'⟩ := ClassType.accepts_iff.1 hbc
      refine ClassType.accepts_iff.2 ⟨hdimension.trans hdimension', hname.trans hname', ?_⟩
      cases hb : b.arguments with
      | none => rw [hb] at harguments; cases harguments
      | some y =>
          rw [hb] at harguments harguments'
          obtain ⟨hxy⟩ := harguments
          cases hc : c.arguments with
          | none => rw [hc] at harguments'; cases harguments'
          | some z =>
              rw [hc] at harguments'
              obtain ⟨hyz⟩ := harguments'
              exact .some (x.accepts_trans hxy hyz)

theorem TypeArgument.accepts_trans : ∀ {a b c : TypeArgument}, a.accepts b = true →
    b.accepts c = true → a.accepts c = true
  | .type a, b, c, hab, hbc => by
      obtain ⟨y, rfl, hay⟩ := TypeArgument.accepts_type.1 hab
      obtain ⟨z, rfl, hyz⟩ := TypeArgument.accepts_type.1 hbc
      exact TypeArgument.accepts_type.2 ⟨z, rfl, a.accepts_trans hay hyz⟩
  | .wildcard, b, c, hab, hbc => rfl
  | .wildcardExtends a, b, c, hab, hbc => by
      obtain ⟨y, rfl | rfl, hay⟩ := TypeArgument.accepts_wildcardExtends.1 hab
      · obtain ⟨z, hz, hyz⟩ := TypeArgument.accepts_wildcardExtends.1 hbc
        exact TypeArgument.accepts_wildcardExtends.2 ⟨z, hz, a.accepts_trans hay hyz⟩
      · obtain ⟨z, rfl, hyz⟩ := TypeArgument.accepts_type.1 hbc
        exact TypeArgument.accepts_wildcardExtends.2 ⟨z, .inr rfl, a.accepts_trans hay hyz⟩
  | .wildcardSuper a, b, c, hab, hbc => by
      obtain ⟨y, rfl | rfl, hay⟩ := TypeArgument.accepts_wildcardSuper.1 hab
      · obtain ⟨z, hz, hyz⟩ := TypeArgument.accepts_wildcardSuper.1 hbc
        exact TypeArgument.accepts_wildcardSuper.2 ⟨z, hz, a.accepts_trans hay hyz⟩
      · obtain ⟨z, rfl, hyz⟩ := TypeArgument.accepts_type.1 hbc
        exact TypeArgument.accepts_wildcardSuper.2 ⟨z, .inr rfl, a.accepts_trans hay hyz⟩
  | .list first second rest, b, c, hab, hbc => by
      obtain ⟨first', second', rest', rfl, h1, h2, hrest⟩ := TypeArgument.accepts_list.1 hab
      obtain ⟨first'', second'', rest'', rfl, h1', h2', hrest'⟩ := TypeArgument.accepts_list.1 hbc
      exact TypeArgument.accepts_list.2 ⟨first'', second'', rest'', rfl, first.accepts_trans h1 h1',
        second.accepts_trans h2 h2', acceptPairwise_trans hrest hrest'⟩

theorem acceptPairwise_trans : ∀ {as bs cs : List TypeArgument}, acceptPairwise as bs = true →
    acceptPairwise bs cs = true → acceptPairwise as cs = true
  | [], [], cs, hab, hbc => hbc
  | a :: rest, bs, cs, hab, hbc => by
      obtain ⟨b, rest', rfl, h, hrest⟩ := acceptPairwise_cons.1 hab
      obtain ⟨c, rest'', rfl, h', hrest'⟩ := acceptPairwise_cons.1 hbc
      exact acceptPairwise_cons.2
        ⟨c, rest'', rfl, a.accepts_trans h h', acceptPairwise_trans hrest hrest'⟩

end

/-! ## Acceptance up to printed names -/

mutual

theorem JavaType.accepts_of_erased_eq : ∀ {a b : JavaType}, a.erased = b.erased →
    a.accepts b = true
  | .primitive a, b, h => by
      cases b <;> simp_all [JavaType.erased, JavaType.accepts]
  | .typeVariable a, b, h => by
      cases b <;> simp_all [JavaType.erased, JavaType.accepts]
  | .classType a, b, h => by
      obtain ⟨y, hy, hya⟩ := JavaType.class_of_erased h.symm
      exact (JavaType.accepts_iff_of_class rfl).2 ⟨y, hy, a.accepts_of_erased_eq hya.symm⟩
  | .memberType a outer, b, h => by
      obtain ⟨y, hy, hya⟩ := JavaType.class_of_erased h.symm
      exact (JavaType.accepts_iff_of_class rfl).2 ⟨y, hy, a.accepts_of_erased_eq hya.symm⟩

theorem ClassType.accepts_of_erased_eq : ∀ {a b : ClassType}, a.erased = b.erased →
    a.accepts b = true
  | ⟨_, _, _, none, _⟩, ⟨_, _, _, none, _⟩, h => by
      simp_all [ClassType.erased, ClassType.accepts]
  | ⟨_, _, _, none, _⟩, ⟨_, _, _, some _, _⟩, h => by simp [ClassType.erased] at h
  | ⟨_, _, _, some _, _⟩, ⟨_, _, _, none, _⟩, h => by simp [ClassType.erased] at h
  | ⟨_, _, _, some x, _⟩, ⟨_, _, _, some y, _⟩, h => by
      simp only [ClassType.erased, ClassType.mk.injEq, Option.some.injEq, true_and] at h
      obtain ⟨hname, hxy, hdimension⟩ := h
      exact ClassType.accepts_iff.2 ⟨hdimension, hname, .some (x.accepts_of_erased_eq hxy)⟩

theorem TypeArgument.accepts_of_erased_eq : ∀ {a b : TypeArgument}, a.erased = b.erased →
    a.accepts b = true
  | .type a, b, h => by
      cases b <;> simp only [TypeArgument.erased, reduceCtorEq, TypeArgument.type.injEq] at h
      exact TypeArgument.accepts_type.2 ⟨_, rfl, a.accepts_of_erased_eq h⟩
  | .wildcard, b, h => rfl
  | .wildcardExtends a, b, h => by
      cases b <;>
        simp only [TypeArgument.erased, reduceCtorEq, TypeArgument.wildcardExtends.injEq] at h
      exact TypeArgument.accepts_wildcardExtends.2 ⟨_, .inl rfl, a.accepts_of_erased_eq h⟩
  | .wildcardSuper a, b, h => by
      cases b <;>
        simp only [TypeArgument.erased, reduceCtorEq, TypeArgument.wildcardSuper.injEq] at h
      exact TypeArgument.accepts_wildcardSuper.2 ⟨_, .inl rfl, a.accepts_of_erased_eq h⟩
  | .list first second rest, b, h => by
      cases b <;> simp only [TypeArgument.erased, reduceCtorEq, TypeArgument.list.injEq] at h
      obtain ⟨h1, h2, hrest⟩ := h
      exact TypeArgument.accepts_list.2 ⟨_, _, _, rfl, first.accepts_of_erased_eq h1,
        second.accepts_of_erased_eq h2, acceptPairwise_of_erased_eq hrest⟩

theorem acceptPairwise_of_erased_eq : ∀ {as bs : List TypeArgument},
    erasedArguments as = erasedArguments bs → acceptPairwise as bs = true
  | [], [], h => rfl
  | [], b :: rest, h => by simp [erasedArguments] at h
  | a :: rest, [], h => by simp [erasedArguments] at h
  | a :: rest, b :: rest', h => by
      simp only [erasedArguments, List.cons.injEq] at h
      exact acceptPairwise_cons.2
        ⟨b, rest', rfl, a.accepts_of_erased_eq h.1, acceptPairwise_of_erased_eq h.2⟩

end

mutual

theorem JavaType.erased_eq_of_accepts : ∀ {a b : JavaType}, a.accepts b = true →
    b.accepts a = true → a.erased = b.erased
  | .primitive a, b, hab, hba => by rw [JavaType.accepts_primitive.1 hab]
  | .typeVariable a, b, hab, hba => by rw [JavaType.accepts_typeVariable.1 hab]
  | .classType a, b, hab, hba => by
      obtain ⟨y, hy, hay⟩ := (JavaType.accepts_iff_of_class rfl).1 hab
      obtain ⟨_, ⟨⟩, hya⟩ := (JavaType.accepts_iff_of_class hy).1 hba
      rw [JavaType.erased_of_class hy, JavaType.erased, a.erased_eq_of_accepts hay hya]
  | .memberType a outer, b, hab, hba => by
      obtain ⟨y, hy, hay⟩ := (JavaType.accepts_iff_of_class rfl).1 hab
      obtain ⟨_, ⟨⟩, hya⟩ := (JavaType.accepts_iff_of_class hy).1 hba
      rw [JavaType.erased_of_class hy, JavaType.erased, a.erased_eq_of_accepts hay hya]

theorem ClassType.erased_eq_of_accepts : ∀ {a b : ClassType}, a.accepts b = true →
    b.accepts a = true → a.erased = b.erased
  | ⟨_, _, _, none, _⟩, ⟨_, _, _, none, _⟩, hab, hba => by
      obtain ⟨hdimension, hname, -⟩ := ClassType.accepts_iff.1 hab
      simp_all [ClassType.erased]
  | ⟨_, _, _, none, _⟩, ⟨_, _, _, some _, _⟩, hab, hba => by simp [ClassType.accepts] at hab
  | ⟨_, _, _, some _, _⟩, ⟨_, _, _, none, _⟩, hab, hba => by simp [ClassType.accepts] at hab
  | ⟨_, _, _, some x, _⟩, ⟨_, _, _, some y, _⟩, hab, hba => by
      obtain ⟨hdimension, hname, ⟨hxy⟩⟩ := ClassType.accepts_iff.1 hab
      obtain ⟨-, -, ⟨hyx⟩⟩ := ClassType.accepts_iff.1 hba
      simp_all [ClassType.erased, x.erased_eq_of_accepts hxy hyx]

theorem TypeArgument.erased_eq_of_accepts : ∀ {a b : TypeArgument}, a.accepts b = true →
    b.accepts a = true → a.erased = b.erased
  | .type a, b, hab, hba => by
      obtain ⟨y, rfl, hay⟩ := TypeArgument.accepts_type.1 hab
      obtain ⟨_, ⟨⟩, hya⟩ := TypeArgument.accepts_type.1 hba
      rw [TypeArgument.erased, TypeArgument.erased, a.erased_eq_of_accepts hay hya]
  | .wildcard, b, hab, hba => by cases b <;> simp_all [TypeArgument.accepts]
  | .wildcardExtends a, b, hab, hba => by
      obtain ⟨y, rfl | rfl, hay⟩ := TypeArgument.accepts_wildcardExtends.1 hab
      · obtain ⟨_, ⟨⟨⟩⟩ | ⟨⟨⟩⟩, hya⟩ := TypeArgument.accepts_wildcardExtends.1 hba
        rw [TypeArgument.erased, TypeArgument.erased, a.erased_eq_of_accepts hay hya]
      · obtain ⟨_, ⟨⟩, -⟩ := TypeArgument.accepts_type.1 hba
  | .wildcardSuper a, b, hab, hba => by
      obtain ⟨y, rfl | rfl, hay⟩ := TypeArgument.accepts_wildcardSuper.1 hab
      · obtain ⟨_, ⟨⟨⟩⟩ | ⟨⟨⟩⟩, hya⟩ := TypeArgument.accepts_wildcardSuper.1 hba
        rw [TypeArgument.erased, TypeArgument.erased, a.erased_eq_of_accepts hay hya]
      · obtain ⟨_, ⟨⟩, -⟩ := TypeArgument.accepts_type.1 hba
  | .list first second rest, b, hab, hba => by
      obtain ⟨first', second', rest', rfl, h1, h2, hrest⟩ := TypeArgument.accepts_list.1 hab
      obtain ⟨_, _, _, ⟨⟩, h1', h2', hrest'⟩ := TypeArgument.accepts_list.1 hba
      rw [TypeArgument.erased, TypeArgument.erased, first.erased_eq_of_accepts h1 h1',
        second.erased_eq_of_accepts h2 h2', erased_eq_of_acceptPairwise hrest hrest']

theorem erased_eq_of_acceptPairwise : ∀ {as bs : List TypeArgument}, acceptPairwise as bs = true →
    acceptPairwise bs as = true → erasedArguments as = erasedArguments bs
  | [], [], hab, hba => rfl
  | a :: rest, bs, hab, hba => by
      obtain ⟨b, rest', rfl, h, hrest⟩ := acceptPairwise_cons.1 hab
      obtain ⟨_, _, ⟨⟩, h', hrest'⟩ := acceptPairwise_cons.1 hba
      rw [erasedArguments, erasedArguments, a.erased_eq_of_accepts h h',
        erased_eq_of_acceptPairwise hrest hrest']

end

/-- Acceptance is a partial order on types and on type arguments, up to what is printed. -/
theorem accepts_partialOrder :
    ((∀ a : JavaType, a.accepts a = true) ∧
      (∀ a b c : JavaType, a.accepts b = true → b.accepts c = true → a.accepts c = true) ∧
      ∀ a b : JavaType, (a.accepts b = true ∧ b.accepts a = true) ↔ a.erased = b.erased) ∧
    (∀ a : TypeArgument, a.accepts a = true) ∧
      (∀ a b c : TypeArgument, a.accepts b = true → b.accepts c = true → a.accepts c = true) ∧
      ∀ a b : TypeArgument, (a.accepts b = true ∧ b.accepts a = true) ↔ a.erased = b.erased := by
  refine ⟨⟨?_, ?_, ?_⟩, ?_, ?_, ?_⟩
  · intro a
    exact JavaType.accepts_of_erased_eq rfl
  · intro a b c hab hbc
    exact JavaType.accepts_trans hab hbc
  · intro a b
    constructor
    · rintro ⟨hab, hba⟩
      exact JavaType.erased_eq_of_accepts hab hba
    · intro h
      exact ⟨JavaType.accepts_of_erased_eq h, JavaType.accepts_of_erased_eq h.symm⟩
  · intro a
    exact TypeArgument.accepts_of_erased_eq rfl
  · intro a b c hab hbc
    exact TypeArgument.accepts_trans hab hbc
  · intro a b
    constructor
    · rintro ⟨hab, hba⟩
      exact TypeArgument.erased_eq_of_accepts hab hba
    · intro h
      exact ⟨TypeArgument.accepts_of_erased_eq h, TypeArgument.accepts_of_erased_eq h.symm⟩

/-- Maps from anything to a bounded wildcard, from strings to the same, and from strings to arrays
of integers, the last one as a member type. -/
theorem accepts_partialOrder_of_maps :
    let mapOf := fun key value =>
      { ClassType.ofInternalName "java/util/Map" with arguments := some (.list key value []) }
    let string := TypeArgument.type (.ofInternalName "java/lang/String")
    let integers := JavaType.primitive ⟨.int, 1⟩
    let anyKey := JavaType.classType (mapOf .wildcard (.wildcardExtends integers))
    let stringKey := JavaType.classType (mapOf string (.wildcardExtends integers))
    let member := JavaType.memberType (mapOf string (.type integers)) (.ofInternalName "Outer")
    anyKey.accepts stringKey = true ∧ stringKey.accepts member = true ∧
      anyKey.accepts member = true := by
  intro mapOf string integers anyKey stringKey member
  have h : anyKey.accepts stringKey = true := by decide
  have h' : stringKey.accepts member = true := by decide
  exact ⟨h, h', accepts_partialOrder.1.2.1 anyKey stringKey member h h'⟩

end JavaFragments

import JavaFragments.Format.Statement
import JavaFragments.Proofs.ModifierText

/-! # Reading fields back

What a field was written from is read from it again, by each of the ways to read a field. A reader
that refuses null does not confuse a value with a missing one. A record may hold other fields than
those that are read, as a node does that writes the fields of its content beside its tag. -/
set_option autoImplicit false

namespace JavaFragments

/-- The words of different values are different. -/
class LawfulWorded (α : Type) [Worded α] : Prop where
  ofWord?_word (a : α) : Worded.ofWord? (Worded.word a) = some a

instance : LawfulWorded Primitive := ⟨fun a => by cases a <;> rfl⟩
instance : LawfulWorded TypeKind := ⟨fun a => by cases a <;> rfl⟩
instance : LawfulWorded BinaryOperator := ⟨fun a => by cases a <;> rfl⟩
instance : LawfulWorded UnaryOperator := ⟨fun a => by cases a <;> rfl⟩
instance : LawfulWorded TypeTag := ⟨fun a => by cases a <;> rfl⟩
instance : LawfulWorded ArgumentTag := ⟨fun a => by cases a <;> rfl⟩
instance : LawfulWorded ExpressionTag := ⟨fun a => by cases a <;> rfl⟩
instance : LawfulWorded StatementTag := ⟨fun a => by cases a <;> rfl⟩
instance : LawfulWorded SwitchBlockTag := ⟨fun a => by cases a <;> rfl⟩
instance : LawfulWorded SwitchLabelTag := ⟨fun a => by cases a <;> rfl⟩

namespace Document

@[simp] theorem find?_record (name key : String) (x : Document)
    (fields : List (String × Document)) :
    (record ((key, x) :: fields)).find? name =
      if name = key then some x else (record fields).find? name := by
  show List.lookup name ((key, x) :: fields) = _
  rw [List.lookup_cons]
  by_cases h : name = key
  · rw [if_pos h, beq_iff_eq.2 h]
  · rw [if_neg h, beq_eq_false_iff_ne.2 h]
    rfl

/-- What a reader makes of a field that may be missing or null. -/
def optionalOf {α : Type} (read : Document → Option α) : Option Document → Option (Option α)
  | none => some none
  | some .null => some none
  | some x => (read x).map some

/-- What a reader makes of a field that may be missing. -/
def defaultedOf {α : Type} (value : α) (read : Document → Option α) : Option Document → Option α
  | none => some value
  | some x => read x

section Fields
variable {α : Type} {d x : Document} {name : String}

@[simp] theorem required_eq_bind (d : Document) (name : String) (read : Document → Option α) :
    (d.required name fun x _ => read x) = (d.find? name).bind read := by
  unfold required
  split
  · rename_i h
    exact (congrArg (Option.bind · read) h).symm
  · rename_i h
    exact (congrArg (Option.bind · read) h).symm

@[simp] theorem optional_eq_optionalOf (d : Document) (name : String)
    (read : Document → Option α) :
    (d.optional name fun x _ => read x) = optionalOf read (d.find? name) := by
  unfold optional
  split
  · rename_i h
    exact (congrArg (optionalOf read) h).symm
  · rename_i h
    exact (congrArg (optionalOf read) h).symm
  · rename_i x hnull h
    refine Eq.trans ?_ (congrArg (optionalOf read) h).symm
    cases x <;> first | rfl | exact absurd rfl hnull

@[simp] theorem optionalOf_null (read : Document → Option α) :
    optionalOf read (some .null) = some none := rfl

@[simp] theorem optionalOf_record (read : Document → Option α)
    (fields : List (String × Document)) :
    optionalOf read (some (record fields)) = (read (record fields)).map some := rfl

@[simp] theorem defaulted_eq_defaultedOf (d : Document) (name : String) (value : α)
    (read : Document → Option α) :
    (d.defaulted name value fun x _ => read x) = defaultedOf value read (d.find? name) := by
  unfold defaulted
  split
  · rename_i h
    exact (congrArg (defaultedOf value read) h).symm
  · rename_i h
    exact (congrArg (defaultedOf value read) h).symm

@[simp] theorem defaultedOf_some (value : α) (read : Document → Option α) (x : Document) :
    defaultedOf value read (some x) = read x := by
  rw [defaultedOf]

theorem optionalOf_some {read : Document → Option α} {a : α} (hnull : read .null = none)
    (h : read x = some a) : optionalOf read (some x) = some (some a) := by
  unfold optionalOf
  split
  · rename_i heq
    cases heq
  · rename_i heq
    rw [Option.some.inj heq, hnull] at h
    cases h
  · rename_i y _ heq
    rw [← Option.some.inj heq, h]
    rfl

@[simp] theorem optionalOf_ofOption {write : α → Document} {read : Document → Option α}
    (hnull : read .null = none) {o : Option α} (h : ∀ a ∈ o, read (write a) = some a) :
    optionalOf read (some (ofOption write o)) = some o := by
  cases o with
  | none => rfl
  | some a => exact optionalOf_some hnull (h a rfl)

@[simp] theorem each_list {write : α → Document} {read : Document → Option α} {as : List α}
    (h : ∀ a ∈ as, read (write a) = some a) :
    ((list (as.map write)).each fun x _ => read x) = some as := by
  induction as with
  | nil => rfl
  | cons a rest ih =>
      have hrest := ih fun b hb => h b (List.mem_cons_of_mem _ hb)
      rw [each] at hrest ⊢
      rw [List.map_cons, readAll_cons, h a List.mem_cons_self, hrest]

theorem tag?_of_find? [Worded α] [LawfulWorded α] {a : α} (h : d.find? name = some (ofWorded a)) :
    d.tag? name = some a := by
  rw [tag?, h]
  exact LawfulWorded.ofWord?_word a

@[simp] theorem tag?_record [Worded α] [LawfulWorded α] (a : α) (name : String)
    (fields : List (String × Document)) :
    (record ((name, ofWorded a) :: fields)).tag? name = some a :=
  tag?_of_find? (by simp)

@[simp] theorem nodeWord?_ofWorded [Worded α] [LawfulWorded α] (a : α) :
    nodeWord? (ofWorded a) = some a :=
  LawfulWorded.ofWord?_word a

end Fields

attribute [simp] character?_ofCharacter word32?_ofWord32 int64?_ofInt64

@[simp] theorem bool?_bool (value : Bool) : bool? (.bool value) = some value := rfl

@[simp] theorem text?_text (value : String) : text? (.text value) = some value := rfl

@[simp] theorem modifiers?_ofModifiers (m : Modifiers) : modifiers? (ofModifiers m) = some m :=
  m.ofText?_text

end Document

end JavaFragments

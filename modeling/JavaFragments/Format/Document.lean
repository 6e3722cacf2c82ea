import JavaFragments.Double

/-! # Documents

The values that trees are written as: records with named fields, lists and plain values. Every
field of a record is smaller than the record, so a tree is read by recursion on its document. -/
set_option autoImplicit false

namespace JavaFragments

inductive Document where
  | null
  | bool (value : Bool)
  | integer (value : Int)
  | double (value : Double)
  | text (value : String)
  | list (items : List Document)
  | record (fields : List (String × Document))

namespace Document

/-- The field of a record, and nothing of any other document. -/
def find? (name : String) : Document → Option Document
  | .record fields => fields.lookup name
  | _ => none

theorem sizeOf_lt_of_lookup {name : String} {x : Document} :
    ∀ {fields : List (String × Document)}, fields.lookup name = some x →
      sizeOf x < sizeOf fields := by
  intro fields
  induction fields with
  | nil => intro h; cases h
  | cons head rest ih =>
      obtain ⟨key, value⟩ := head
      intro h
      rw [List.lookup_cons] at h
      split at h
      · cases h; simp; omega
      · have := ih h; simp; omega

theorem sizeOf_lt_of_find? {name : String} {d x : Document} (h : d.find? name = some x) :
    sizeOf x < sizeOf d := by
  cases d with
  | record fields =>
      have := sizeOf_lt_of_lookup (show fields.lookup name = some x from h)
      simp; omega
  | null => cases h
  | bool value => cases h
  | integer value => cases h
  | double value => cases h
  | text value => cases h
  | list items => cases h

theorem sizeOf_lt_of_mem_list {x : Document} {items : List Document} (h : x ∈ items) :
    sizeOf x < sizeOf (Document.list items) := by
  have := List.sizeOf_lt_of_mem h
  simp; omega

end Document

end JavaFragments

import JavaFragments.Environment
import JavaFragments.Type

/-! # Imports

The classes that need an import, in ascending order of their internal names, each with its dotted
name. A class of the default package, of `java/lang` or of the current package needs none. -/
set_option autoImplicit false

namespace JavaFragments

namespace Imports

/-- Writes an entry into an ascending list, in place of an older one with the same key. -/
def insertEntry (key value : String) : List (String × String) → List (String × String)
  | [] => [(key, value)]
  | (k, v) :: rest =>
      if key < k then (key, value) :: (k, v) :: rest
      else if key = k then (key, value) :: rest
      else (k, v) :: insertEntry key value rest

def Ascending (entries : List (String × String)) : Prop :=
  entries.Pairwise fun a b => a.1 < b.1

theorem mem_insertEntry {key value : String} {e : String × String} :
    ∀ {entries : List (String × String)}, e ∈ insertEntry key value entries →
      e = (key, value) ∨ e ∈ entries := by
  intro entries
  induction entries with
  | nil => intro h; simpa [insertEntry] using h
  | cons head rest ih =>
      obtain ⟨k, v⟩ := head
      intro h
      unfold insertEntry at h
      split at h
      · simpa using h
      · split at h
        · rcases List.mem_cons.1 h with h | h
          · exact Or.inl h
          · exact Or.inr (List.mem_cons_of_mem _ h)
        · rcases List.mem_cons.1 h with h | h
          · exact Or.inr (h ▸ List.mem_cons_self ..)
          · exact (ih h).imp id (List.mem_cons_of_mem _)

theorem ascending_insertEntry (key value : String) :
    ∀ {entries : List (String × String)}, Ascending entries →
      Ascending (insertEntry key value entries) := by
  intro entries
  induction entries with
  | nil => intro _; simp [Ascending, insertEntry]
  | cons head rest ih =>
      obtain ⟨k, v⟩ := head
      intro h
      obtain ⟨hhead, hrest⟩ := List.pairwise_cons.1 h
      unfold insertEntry
      split
      · rename_i hlt
        refine List.pairwise_cons.2 ⟨fun e he => ?_, h⟩
        rcases List.mem_cons.1 he with he | he
        · exact he ▸ hlt
        · exact String.lt_trans hlt (hhead e he)
      · split
        · rename_i heq
          exact List.pairwise_cons.2 ⟨fun e he => heq ▸ hhead e he, hrest⟩
        · rename_i hnlt hne
          refine List.pairwise_cons.2 ⟨fun e he => ?_, ih hrest⟩
          rcases mem_insertEntry he with he | he
          · subst he
            have hle : k ≤ key := hnlt
            exact Std.lt_of_le_of_ne hle (fun e => hne e.symm)
          · exact hhead e he

end Imports

/-- Internal names with their dotted names. -/
structure Imports where
  entries : List (String × String)
  ascending : Imports.Ascending entries

namespace Imports

def empty : Imports := ⟨[], List.Pairwise.nil⟩

/-- Whether the class is visible from the environment without an import. -/
def isVisible (t : ClassType) (env : Environment) : Bool :=
  t.package = "" || t.package = "java/lang" || t.package = env.package

def insert (imports : Imports) (t : ClassType) (env : Environment) : Imports :=
  if isVisible t env then imports
  else ⟨insertEntry t.internalName t.qualifiedName imports.entries,
    ascending_insertEntry _ _ imports.ascending⟩

def insertAll (imports : Imports) (types : List ClassType) (env : Environment) : Imports :=
  types.foldl (fun imports t => imports.insert t env) imports

def internalNames (imports : Imports) : List String :=
  imports.entries.map Prod.fst

def qualifiedNames (imports : Imports) : List String :=
  imports.entries.map Prod.snd

def contains (imports : Imports) (internalName : String) : Bool :=
  imports.internalNames.contains internalName

def size (imports : Imports) : Nat :=
  imports.entries.length

def isEmpty (imports : Imports) : Bool :=
  imports.entries.isEmpty

theorem insertAll_append (imports : Imports) (front back : List ClassType) (env : Environment) :
    imports.insertAll (front ++ back) env = (imports.insertAll front env).insertAll back env := by
  simp [insertAll]

end Imports

end JavaFragments

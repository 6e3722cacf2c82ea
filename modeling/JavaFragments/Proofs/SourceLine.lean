import JavaFragments.Fragment.Print
import JavaFragments.Proofs.Renumbering

/-! # Lines of source, piece by piece

A line of source can be written from the front: each fragment is set behind the text so far, and
whether a space goes between them depends on that text alone. So the line of two runs is that of
the first with that of the second behind it. The numbers of groups do not show in it, nor do
fragments that print nothing. -/
set_option autoImplicit false

namespace JavaFragments

/-! ## Texts side by side -/

theorem endsWithSpace_iff {text : String} :
    endsWithSpace text = true ↔ [' '] <:+ text.toList := by
  rw [endsWithSpace, beq_iff_eq, List.singleton_suffix_iff_getLast?_eq_some]

theorem endsWithSpace_append {front back : String} (h : back ≠ "") :
    endsWithSpace (front ++ back) = endsWithSpace back := by
  have hback : back.toList ≠ [] := by simpa using h
  rw [endsWithSpace, endsWithSpace, String.toList_append, List.getLast?_append_of_ne_nil _ hback]

/-- What is set between a text and one behind it. -/
def spaceBehind (text : String) : String :=
  if endsWithSpace text then "" else " "

theorem spaceBehind_append {front back : String} (h : back ≠ "") :
    spaceBehind (front ++ back) = spaceBehind back := by
  rw [spaceBehind, spaceBehind, endsWithSpace_append h]

theorem joinSpaced_empty (text : String) : joinSpaced text "" = text :=
  if_pos rfl

theorem empty_joinSpaced (text : String) : joinSpaced "" text = text := by
  unfold joinSpaced
  split
  · rename_i h
    simpa using h.symm
  · simp

theorem joinSpaced_of_ne {front back : String} (hfront : front ≠ "") (hback : back ≠ "") :
    joinSpaced front back = front ++ spaceBehind front ++ back := by
  have hf : front.isEmpty = false := by simpa using hfront
  have hb : back.isEmpty = false := by simpa using hback
  rw [joinSpaced, spaceBehind, hf, hb, Bool.false_or]
  cases endsWithSpace front with
  | true => simp
  | false => simp

theorem joinSpaced_eq (front back : String) :
    joinSpaced front back = front ++
      (if front ≠ "" ∧ back ≠ "" ∧ ¬ [' '] <:+ front.toList then " " else "") ++ back := by
  by_cases hfront : front = ""
  · rw [hfront, empty_joinSpaced]
    simp
  by_cases hback : back = ""
  · rw [hback, joinSpaced_empty]
    simp
  rw [joinSpaced_of_ne hfront hback, spaceBehind]
  simp only [endsWithSpace_iff]
  by_cases hspace : [' '] <:+ front.toList
  · simp [hspace]
  · simp [hspace, hfront, hback]

theorem joinSpaced_assoc (a b c : String) :
    joinSpaced (joinSpaced a b) c = joinSpaced a (joinSpaced b c) := by
  by_cases ha : a = ""
  · rw [ha, empty_joinSpaced, empty_joinSpaced]
  by_cases hb : b = ""
  · rw [hb, joinSpaced_empty, empty_joinSpaced]
  by_cases hc : c = ""
  · rw [hc, joinSpaced_empty, joinSpaced_empty]
  have hab : a ++ spaceBehind a ++ b ≠ "" := by simp [ha]
  have hbc : b ++ spaceBehind b ++ c ≠ "" := by simp [hb]
  calc joinSpaced (joinSpaced a b) c
      = a ++ spaceBehind a ++ b ++ spaceBehind b ++ c := by
        rw [joinSpaced_of_ne ha hb, joinSpaced_of_ne hab hc, spaceBehind_append hb]
    _ = a ++ spaceBehind a ++ (b ++ spaceBehind b ++ c) := by simp only [String.append_assoc]
    _ = joinSpaced a (joinSpaced b c) := by
        rw [joinSpaced_of_ne hb hc, joinSpaced_of_ne ha hbc]

namespace Fragment

/-! ## From the front -/

/-- Fragments behind a text that is written already. -/
def writtenBehind (line : String) (fragments : List Fragment) : String :=
  fragments.foldl (fun line fragment => joinSpaced line fragment.print) line

theorem writtenBehind_append (line : String) (front back : List Fragment) :
    writtenBehind line (front ++ back) = writtenBehind (writtenBehind line front) back :=
  List.foldl_append

/-- The invariant of the loop: behind any text stands the line of the fragments that are left. -/
theorem writtenBehind_eq (line : String) (fragments : List Fragment) :
    writtenBehind line fragments = joinSpaced line (sourceLine fragments) := by
  induction fragments generalizing line with
  | nil => exact (joinSpaced_empty line).symm
  | cons fragment rest ih =>
      show writtenBehind (joinSpaced line fragment.print) rest = _
      rw [ih, joinSpaced_assoc, sourceLine]

theorem sourceLine_eq_writtenBehind (fragments : List Fragment) :
    sourceLine fragments = writtenBehind "" fragments := by
  rw [writtenBehind_eq, empty_joinSpaced]

theorem sourceLine_append (front back : List Fragment) :
    sourceLine (front ++ back) = joinSpaced (sourceLine front) (sourceLine back) := by
  rw [sourceLine_eq_writtenBehind (front ++ back), writtenBehind_append, writtenBehind_eq,
    ← sourceLine_eq_writtenBehind]

/-! ## What does not show -/

theorem print_renumber (change : Group → Group) (fragment : Fragment) :
    (fragment.renumber change).print = fragment.print := by
  cases fragment with
  | startBlock kind group => cases kind <;> rfl
  | endBlock kind group => cases kind <;> rfl
  | tokens ts => rfl
  | spacer kind => rfl

/-- The same fragment up to the number of its group. -/
def SameButGroup (f g : Fragment) : Prop :=
  ∃ change, g = f.renumber change

theorem sourceLine_of_sameButGroup {fragments others : List Fragment}
    (h : List.Forall₂ SameButGroup fragments others) :
    sourceLine others = sourceLine fragments := by
  induction h with
  | nil => rfl
  | cons hfragment hrest ih =>
      obtain ⟨change, rfl⟩ := hfragment
      rw [sourceLine, sourceLine, print_renumber, ih]

/-- A spacer, an edge of a block without braces, or tokens none of which prints a text. -/
def IsSilent : Fragment → Prop
  | .tokens ts => ∀ t ∈ ts, t.print = ""
  | .startBlock kind _ => kind = .singleStatement
  | .endBlock kind _ => kind = .singleStatement
  | .spacer _ => True

instance : (fragment : Fragment) → Decidable fragment.IsSilent
  | .tokens ts => inferInstanceAs (Decidable (∀ t ∈ ts, t.print = ""))
  | .startBlock kind _ => inferInstanceAs (Decidable (kind = .singleStatement))
  | .endBlock kind _ => inferInstanceAs (Decidable (kind = .singleStatement))
  | .spacer _ => inferInstanceAs (Decidable True)

theorem join_eq_empty_iff {texts : List String} :
    String.join texts = "" ↔ ∀ text ∈ texts, text = "" := by
  rw [← String.toList_inj]
  simp [String.toList_join]

theorem print_eq_empty_iff {fragment : Fragment} : fragment.print = "" ↔ fragment.IsSilent := by
  cases fragment with
  | tokens ts =>
      rw [print, printTokens, join_eq_empty_iff, List.forall_mem_map]
      rfl
  | startBlock kind group => cases kind <;> simp [print, IsSilent]
  | endBlock kind group => cases kind <;> simp [print, IsSilent]
  | spacer kind => simp [print, IsSilent]

theorem sourceLine_of_silent {fragments : List Fragment}
    (h : ∀ fragment ∈ fragments, fragment.IsSilent) : sourceLine fragments = "" := by
  induction fragments with
  | nil => rfl
  | cons fragment rest ih =>
      obtain ⟨hfragment, hrest⟩ := List.forall_mem_cons.1 h
      rw [sourceLine, print_eq_empty_iff.2 hfragment, empty_joinSpaced, ih hrest]

/-- The line of two runs is that of the first and that of the second, with one space between them
just where both print something and the first does not end in a space. Other numbers of groups
leave a line as it is, and so do fragments that print nothing, wherever they are inserted. -/
theorem sourceLine_composes (front back : List Fragment) :
    sourceLine (front ++ back) =
        sourceLine front ++
          (if sourceLine front ≠ "" ∧ sourceLine back ≠ "" ∧
              ¬ [' '] <:+ (sourceLine front).toList then " " else "") ++
          sourceLine back ∧
      (∀ others, List.Forall₂ SameButGroup front others →
        sourceLine others = sourceLine front) ∧
      ∀ silent : List Fragment, (∀ fragment ∈ silent, fragment.IsSilent) →
        sourceLine (front ++ silent ++ back) = sourceLine (front ++ back) := by
  refine ⟨?_, fun others h => sourceLine_of_sameButGroup h, fun silent hsilent => ?_⟩
  · rw [sourceLine_append, joinSpaced_eq]
  · rw [sourceLine_append, sourceLine_append front silent, sourceLine_of_silent hsilent,
      joinSpaced_empty, ← sourceLine_append]

/-- An inserted line number and an inserted spacer, and a space at the end of a head. -/
theorem sourceLine_composes_behind_head :
    let front := [Fragment.tokens [.keyword "try", .space], .startBlock .singleStatement 4]
    let silent := [Fragment.spacer .betweenStatements, .tokens [.lineNumber 9, .newLine 0]]
    let back := [Fragment.tokens [.keyword "return", .semicolon], .endBlock .statements 4]
    sourceLine (front ++ back) = "try return; \x7d" ∧
      sourceLine [.tokens [.keyword "try", .space], .startBlock .singleStatement 7] = "try " ∧
      sourceLine (front ++ silent ++ back) = sourceLine (front ++ back) := by
  intro front silent back
  obtain ⟨happend, hrenumbered, hinserted⟩ := sourceLine_composes front back
  refine ⟨happend.trans (by decide), ?_, hinserted silent (by decide)⟩
  exact hrenumbered _ (.cons ⟨id, rfl⟩ (.cons ⟨fun _ => 7, rfl⟩ .nil))

end Fragment

end JavaFragments

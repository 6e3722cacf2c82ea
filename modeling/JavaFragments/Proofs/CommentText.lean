import JavaFragments.Fragment.Print
import JavaFragments.Fragmentation.Session
import JavaFragments.Proofs.Edits
import JavaFragments.Proofs.Pieces

/-! # The text of a comment

A comment prints its lines that are not empty, one below the other, between its two delimiters. The
closing delimiter stands nowhere else in the print unless it stands in the text itself: then the
comment ends there, and the rest of the text is printed as source. -/
set_option autoImplicit false

namespace JavaFragments

/-- What ends a comment. -/
def commentEnd : List Char := ['*', '/']

/-- The comment ends in front of the end of the print. -/
def ClosesEarly (printed : List Char) : Prop :=
  ∃ front back, printed = front ++ commentEnd ++ back ∧ back ≠ []

theorem closesEarly_iff {printed : List Char} :
    ClosesEarly printed ↔ commentEnd <:+: printed.dropLast := by
  constructor
  · rintro ⟨front, back, rfl, hback⟩
    rw [List.dropLast_append_of_ne_nil hback]
    exact ⟨front, back.dropLast, rfl⟩
  · rintro ⟨front, back, hprinted⟩
    have hsome : printed ≠ [] := by
      rintro rfl
      simp [commentEnd] at hprinted
    refine ⟨front, back ++ [printed.getLast hsome], ?_, by simp⟩
    rw [← List.append_assoc, hprinted, List.dropLast_concat_getLast hsome]

/-! ## Tokens of lines -/

/-- One token for each line, and one line break between each two of them. -/
def lineTokens (lines : List (List Char)) : List Token :=
  (lines.map fun line => Token.text (String.ofList line)).intersperse (.newLine 1)

theorem join_ofToken (separator : Token) (ts : List Token) :
    Phrase.join separator (ts.map .ofToken) = .ofTokens (ts.intersperse separator) := by
  induction ts with
  | nil => rfl
  | cons first rest ih =>
      cases rest with
      | nil => rfl
      | cons second rest =>
          rw [List.map_cons, List.map_cons, Phrase.join, ← List.map_cons, ih,
            List.intersperse_cons_cons]
          · rfl
          · exact fun h => nomatch h

theorem commentPhrase_eq (text : String) :
    commentPhrase text = .ofTokens (.startMarker .comment ::
      (lineTokens ((text.toList.splitOn '\n').filter fun line => !line.isEmpty) ++
        [.endMarker .comment])) := by
  have hlines : (commentLines text).map (fun line => Phrase.ofToken (.text line)) =
      (((text.toList.splitOn '\n').filter fun line => !line.isEmpty).map
        fun line => Token.text (String.ofList line)).map .ofToken := by
    rw [commentLines, List.map_map, List.map_map]
    rfl
  rw [commentPhrase, hlines, join_ofToken, lineTokens]
  rfl

theorem toList_printTokens (ts : List Token) :
    (printTokens ts).toList = ts.flatMap fun t => t.print.toList := by
  rw [printTokens, String.toList_join, List.flatMap_map]

theorem print_intersperse (separator : Token) (ts : List Token) :
    (printTokens (ts.intersperse separator)).toList =
      separator.print.toList.intercalate (ts.map fun t => t.print.toList) := by
  rw [toList_printTokens]
  induction ts with
  | nil => rfl
  | cons first rest ih =>
      cases rest with
      | nil => simp
      | cons second rest =>
          rw [List.intersperse_cons_cons, List.flatMap_cons, List.flatMap_cons, ih]
          simp [List.intercalate_cons_cons]

theorem print_lineTokens (lines : List (List Char)) :
    (printTokens (lineTokens lines)).toList = ['\n'].intercalate lines := by
  have hlines : (lines.map fun line => Token.text (String.ofList line)).map
      (fun t => t.print.toList) = lines := by
    rw [List.map_map]
    exact List.map_id'' (fun line => String.toList_ofList) lines
  rw [lineTokens, print_intersperse, hlines]
  rfl

/-- What is printed for the lines of a comment. -/
def commentText (lines : List (List Char)) : List Char :=
  ['/', '*', ' '] ++ ['\n'].intercalate lines ++ [' ', '*', '/']

theorem print_comment (lines : List (List Char)) :
    (printTokens (.startMarker .comment :: (lineTokens lines ++ [.endMarker .comment]))).toList =
      commentText lines := by
  rw [toList_printTokens, List.flatMap_cons, List.flatMap_append, ← toList_printTokens,
    print_lineTokens, commentText, List.append_assoc]
  rfl

/-! ## The closing delimiter -/

/-- The spaces of the delimiters and the line breaks keep an end that comes early inside a line. -/
theorem closesEarly_commentText_iff (lines : List (List Char)) :
    ClosesEarly (commentText lines) ↔ ∃ line ∈ lines, commentEnd <:+: line := by
  have hprinted : (commentText lines).dropLast =
      ['/', '*'] ++ ' ' :: (['\n'].intercalate lines ++ ' ' :: ['*']) := by
    rw [commentText, List.dropLast_append_of_ne_nil (by decide)]
    simp
  have hspace : ' ' ∉ commentEnd := by decide
  have hbreak : '\n' ∉ commentEnd := by decide
  have hsome : commentEnd ≠ [] := by decide
  have hfirst : ¬ commentEnd <:+: ['/', '*'] := by decide
  have hlast : ¬ commentEnd <:+: ['*'] := by decide
  rw [closesEarly_iff, hprinted, Text.infix_append_cons_iff hspace hsome, or_iff_right hfirst,
    Text.infix_append_cons_iff hspace hsome, or_iff_left hlast,
    Text.infix_intercalate_iff hbreak hsome]

/-- A comment prints as one comment unless its text holds the end of one. -/
theorem comment_closes_early_iff (text : String) (env : Environment) (writer : DeclarationWriter)
    (draft : Draft) :
    ∃ pieces : List (List Char),
      (pieces ≠ [] ∧ (∀ piece ∈ pieces, '\n' ∉ piece) ∧
        text.toList = ['\n'].intercalate pieces) ∧
      let lines := pieces.filter fun piece => !piece.isEmpty
      let fragment := Fragment.tokens (.startMarker .comment ::
        ((lines.map fun line => Token.text (String.ofList line)).intersperse (.newLine 1) ++
          [.endMarker .comment]))
      (Statement.comment text).write env writer .alone draft =
          (.ok (), Edit.pushed draft fragment) ∧
        (Statement.byteCode text).write env writer .alone draft =
          (.ok (), Edit.pushed draft fragment) ∧
        fragment.print.toList = "/* ".toList ++ ['\n'].intercalate lines ++ " */".toList ∧
        (ClosesEarly fragment.print.toList ↔ commentEnd <:+: text.toList) := by
  have htext : ['\n'].intercalate (text.toList.splitOn '\n') = text.toList :=
    List.intercalate_splitOn '\n'
  refine ⟨text.toList.splitOn '\n', ⟨List.splitOn_ne_nil '\n' text.toList,
    fun piece hpiece => Text.not_mem_of_mem_splitOn hpiece, htext.symm⟩, ?_⟩
  intro lines fragment
  have hwritten : Edit.say env (commentPhrase text) draft =
      (.ok (), Edit.pushed draft fragment) := by
    rw [commentPhrase_eq]
    rfl
  have hprint : fragment.print.toList = commentText lines := print_comment lines
  refine ⟨?_, ?_, hprint, ?_⟩
  · rw [Statement.write]
    exact hwritten
  · rw [Statement.write]
    exact hwritten
  · rw [hprint, closesEarly_commentText_iff]
    constructor
    · rintro ⟨line, hline, hend⟩
      rw [← htext, Text.infix_intercalate_iff (by decide) (by decide)]
      exact ⟨line, List.mem_of_mem_filter hline, hend⟩
    · intro hend
      rw [← htext, Text.infix_intercalate_iff (by decide) (by decide)] at hend
      obtain ⟨piece, hpiece, hend⟩ := hend
      have hsome : piece ≠ [] := by
        rintro rfl
        exact absurd (List.infix_nil.1 hend) (by decide)
      exact ⟨piece, List.mem_filter.2 ⟨hpiece, by simpa using hsome⟩, hend⟩

example : (Fragment.tokens (commentPhrase "first\n\nsecond\n").tokens).print =
    "/* first\nsecond */" := by decide

/-- The comment of this text ends behind its first letter. -/
theorem comment_closed_by_its_text :
    ¬ ∀ text env, ∃ tokens imports,
      fragmentBody (.comment text) env = .ok ⟨[.tokens tokens], imports⟩ ∧
        ¬ ClosesEarly (Fragment.tokens tokens).print.toList := by
  intro h
  obtain ⟨tokens, imports, hbody, hcloses⟩ := h "a*/b" ⟨"Main"⟩
  have hrun : fragmentBody (.comment "a*/b") ⟨"Main"⟩ =
      .ok ⟨[.tokens [.startMarker .comment, .text "a*/b", .endMarker .comment]], .empty⟩ := rfl
  rw [hrun] at hbody
  cases hbody
  exact hcloses ⟨['/', '*', ' ', 'a'], ['b', ' ', '*', '/'], by decide, by decide⟩

end JavaFragments

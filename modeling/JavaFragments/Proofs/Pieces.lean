import Mathlib.Data.List.Infix

/-! # Texts in pieces

A text that is split at some characters has a piece without characters just where such a character
stands first, last or next to another one. A pattern that does not hold the character between the
pieces of a text stands in the text just where it stands in one of the pieces. -/
set_option autoImplicit false

namespace JavaFragments.Text

section Splitting
variable {p : Char → Bool}

theorem not_mem_of_mem_splitOn {c : Char} {text piece : List Char} (h : piece ∈ text.splitOn c) :
    c ∉ piece := by
  induction text generalizing piece with
  | nil =>
      rw [List.splitOn_nil, List.mem_singleton] at h
      rw [h]
      exact List.not_mem_nil
  | cons d rest ih =>
      rw [List.splitOn_cons_eq_if_modifyHead] at h
      split at h
      · rcases List.mem_cons.1 h with rfl | h
        · exact List.not_mem_nil
        · exact ih h
      · rename_i hne
        obtain ⟨first, others, hsplit⟩ := List.exists_cons_of_ne_nil (List.splitOn_ne_nil c rest)
        rw [hsplit] at ih h
        rcases List.mem_cons.1 h with rfl | h
        · have hd : c ≠ d := fun heq => hne (by rw [heq, beq_self_eq_true])
          exact List.not_mem_cons_of_ne_of_not_mem hd (ih List.mem_cons_self)
        · exact ih (List.mem_cons_of_mem _ h)

/-- A text in pieces is split in each of them where the character between them is split at. -/
theorem splitOnP_intercalate {separator : Char} (hseparator : p separator = true)
    {pieces : List (List Char)} (hsome : pieces ≠ []) :
    ([separator].intercalate pieces).splitOnP p = pieces.flatMap (List.splitOnP p) := by
  induction pieces with
  | nil => exact absurd rfl hsome
  | cons first rest ih =>
      cases rest with
      | nil => simp
      | cons second rest =>
          rw [List.intercalate_cons_cons, List.append_assoc, List.singleton_append,
            List.splitOnP_append_cons _ _ hseparator, ih (List.cons_ne_nil _ _)]
          rfl

theorem tail_splitOnP_cons (c : Char) (rest : List Char) :
    ((c :: rest).splitOnP p).tail =
      if p c then rest.splitOnP p else (rest.splitOnP p).tail := by
  rw [List.splitOnP_cons_eq_if_modifyHead]
  split
  · rfl
  · rw [List.tail_modifyHead]

theorem nil_mem_splitOnP_iff_tail {text : List Char} :
    [] ∈ text.splitOnP p ↔
      text = [] ∨ (∃ c, p c = true ∧ [c] <+: text) ∨ [] ∈ (text.splitOnP p).tail := by
  cases text with
  | nil => simp
  | cons c rest =>
      rw [tail_splitOnP_cons, List.splitOnP_cons_eq_if_modifyHead]
      by_cases hc : p c = true
      · simp [hc]
      · obtain ⟨first, others, hsplit⟩ := List.exists_cons_of_ne_nil (List.splitOnP_ne_nil p rest)
        simp [hc, hsplit]

theorem exists_suffix_cons_iff {c : Char} {rest : List Char} :
    (∃ d, p d = true ∧ [d] <:+ c :: rest) ↔
      (p c = true ∧ rest = []) ∨ ∃ d, p d = true ∧ [d] <:+ rest := by
  simp only [List.suffix_cons_iff, List.cons.injEq, and_or_left, exists_or]
  refine or_congr_left ⟨?_, ?_⟩
  · rintro ⟨d, hd, rfl, hrest⟩
    exact ⟨hd, hrest.symm⟩
  · rintro ⟨hc, rfl⟩
    exact ⟨c, hc, rfl, rfl⟩

theorem exists_infix_cons_iff {c : Char} {rest : List Char} :
    (∃ d e, p d = true ∧ p e = true ∧ [d, e] <:+: c :: rest) ↔
      (p c = true ∧ ∃ e, p e = true ∧ [e] <+: rest) ∨
        ∃ d e, p d = true ∧ p e = true ∧ [d, e] <:+: rest := by
  simp only [List.infix_cons_iff, List.cons_prefix_cons, and_or_left, exists_or]
  refine or_congr_left ⟨?_, ?_⟩
  · rintro ⟨d, e, hd, he, rfl, hprefix⟩
    exact ⟨hd, e, he, hprefix⟩
  · rintro ⟨hc, e, he, hprefix⟩
    exact ⟨c, e, hc, he, rfl, hprefix⟩

/-- An empty piece behind the first one ends a text or lies between two split characters. -/
theorem nil_mem_tail_splitOnP_iff {text : List Char} :
    [] ∈ (text.splitOnP p).tail ↔
      (∃ c, p c = true ∧ [c] <:+ text) ∨ ∃ c d, p c = true ∧ p d = true ∧ [c, d] <:+: text := by
  induction text with
  | nil => simp
  | cons c rest ih =>
      rw [tail_splitOnP_cons, exists_suffix_cons_iff, exists_infix_cons_iff]
      by_cases hc : p c = true
      · rw [if_pos hc, nil_mem_splitOnP_iff_tail, ih]
        simp only [hc, true_and]
        rw [or_or_or_comm, or_assoc]
      · rw [if_neg hc, ih]
        simp [hc]

theorem nil_mem_splitOnP_iff {text : List Char} :
    [] ∈ text.splitOnP p ↔
      text = [] ∨ (∃ c, p c = true ∧ [c] <+: text) ∨ (∃ c, p c = true ∧ [c] <:+ text) ∨
        ∃ c d, p c = true ∧ p d = true ∧ [c, d] <:+: text := by
  rw [nil_mem_splitOnP_iff_tail, nil_mem_tail_splitOnP_iff]

end Splitting

section Patterns
variable {c : Char} {pattern : List Char}

theorem prefix_append_cons_iff (hc : c ∉ pattern) {front back : List Char} :
    pattern <+: front ++ c :: back ↔ pattern <+: front := by
  constructor
  · intro h
    by_cases hlength : pattern.length ≤ front.length
    · exact List.prefix_of_prefix_length_le h (List.prefix_append ..) hlength
    · have hlonger : (front ++ [c]).length ≤ pattern.length := by
        rw [List.length_append, List.length_singleton]
        omega
      have hfront : front ++ [c] <+: front ++ c :: back := ⟨back, by simp⟩
      have hinside : front ++ [c] <+: pattern :=
        List.prefix_of_prefix_length_le hfront h hlonger
      exact absurd (hinside.subset (by simp)) hc
  · exact fun h => h.trans (List.prefix_append ..)

/-- A pattern without a character stands on one side of it. -/
theorem infix_append_cons_iff (hc : c ∉ pattern) (hsome : pattern ≠ [])
    {front back : List Char} :
    pattern <:+: front ++ c :: back ↔ pattern <:+: front ∨ pattern <:+: back := by
  induction front with
  | nil =>
      have hfirst : ¬ pattern <+: [] ++ c :: back := fun h =>
        hsome (List.prefix_nil.1 ((prefix_append_cons_iff hc).1 h))
      rw [List.nil_append] at hfirst
      rw [List.nil_append, List.infix_cons_iff, or_iff_right hfirst, List.infix_nil,
        or_iff_right hsome]
  | cons d front ih =>
      rw [List.cons_append, List.infix_cons_iff, ih, ← List.cons_append,
        prefix_append_cons_iff hc, List.infix_cons_iff, or_assoc]

theorem infix_intercalate_iff (hc : c ∉ pattern) (hsome : pattern ≠ [])
    {pieces : List (List Char)} :
    pattern <:+: [c].intercalate pieces ↔ ∃ piece ∈ pieces, pattern <:+: piece := by
  induction pieces with
  | nil => simp [hsome]
  | cons first rest ih =>
      cases rest with
      | nil => simp
      | cons second rest =>
          rw [List.intercalate_cons_cons, List.append_assoc, List.singleton_append,
            infix_append_cons_iff hc hsome, ih]
          simp

end Patterns

end JavaFragments.Text

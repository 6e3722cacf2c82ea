import JavaFragments.Proofs.Grouped
import JavaFragments.Proofs.Matching
import Mathlib.Data.Option.NAry

/-! # Runs with unbraced blocks

A block without braces is to hold one statement: something that is no comment, and no spacer between
statements on its own level. `Shaped` follows through every way to build a run whether all its
unbraced blocks do so, and what the run would be as the inside of one: how long it is where it is
silent, and whether it spreads over several statements. -/
set_option autoImplicit false

namespace JavaFragments

/-- Nothing but a comment. -/
def IsComment (ts : List Token) : Prop :=
  ∃ inner, ts = .startMarker .comment :: (inner ++ [.endMarker .comment])

/-- Some fragment prints more than a comment. -/
def Speaks (run : List Fragment) : Prop :=
  ∃ ts, .tokens ts ∈ run ∧ ¬ IsComment ts

/-- Several statements stand side by side in the run. -/
def Spreads (run : List Fragment) : Prop :=
  OnOwnLevel (.spacer .betweenStatements) run

/-- Each block without braces holds one statement. -/
def UnbracedHoldOne (run : List Fragment) : Prop :=
  ∀ group inside, Balanced inside → HasBlock .singleStatement group inside run →
    Speaks inside ∧ ¬ Spreads inside

/-- `silence` is the length of a run that does not speak, and nothing for one that does. -/
structure Shaped (silence : Option Nat) (spread sound : Prop) (run : List Fragment) : Prop where
  balanced : Balanced run
  speaks_iff : Speaks run ↔ silence = none
  length_eq : ∀ n, silence = some n → run.length = n
  spreads_iff : Spreads run ↔ spread
  sound_iff : UnbracedHoldOne run ↔ sound

section Runs
variable {silence silence' : Option Nat} {spread spread' sound sound' : Prop}
  {run front back inner : List Fragment}

theorem not_isComment_of_head {ts : List Token}
    (h : ts.head? ≠ some (.startMarker .comment)) : ¬ IsComment ts := by
  rintro ⟨inner, rfl⟩
  exact h rfl

theorem not_isComment_keyword (word : String) (ts : List Token) :
    ¬ IsComment (.keyword word :: ts) :=
  not_isComment_of_head (by simp)

theorem speaks_append : Speaks (front ++ back) ↔ Speaks front ∨ Speaks back := by
  simp only [Speaks, List.mem_append, or_and_right, exists_or]

theorem speaks_bracketed (kind : BlockKind) (group : Group) :
    Speaks (bracketed kind group inner []) ↔ Speaks inner := by
  simp [Speaks, bracketed]

theorem unbracedHoldOne_append (hfront : Balanced front) :
    UnbracedHoldOne (front ++ back) ↔ UnbracedHoldOne front ∧ UnbracedHoldOne back := by
  constructor
  · intro h
    exact ⟨fun group inside hinside hblock =>
        h group inside hinside ((hasBlock_append hfront hinside).2 (.inl hblock)),
      fun group inside hinside hblock =>
        h group inside hinside ((hasBlock_append hfront hinside).2 (.inr hblock))⟩
  · rintro ⟨hf, hb⟩ group inside hinside hblock
    exact ((hasBlock_append hfront hinside).1 hblock).elim (hf group inside hinside)
      (hb group inside hinside)

theorem unbracedHoldOne_bracketed (hinner : Balanced inner) (kind : BlockKind) (group : Group) :
    UnbracedHoldOne (bracketed kind group inner []) ↔
      (kind = .singleStatement → Speaks inner ∧ ¬ Spreads inner) ∧ UnbracedHoldOne inner := by
  constructor
  · intro h
    refine ⟨?_, fun g inside hinside hblock =>
      h g inside hinside ((hasBlock_bracketed hinner hinside).2 (.inr hblock))⟩
    rintro rfl
    exact h group inner hinner ((hasBlock_bracketed hinner hinner).2 (.inl ⟨rfl, rfl, rfl⟩))
  · rintro ⟨hone, h⟩ g inside hinside hblock
    rcases (hasBlock_bracketed hinner hinside).1 hblock with ⟨rfl, -, rfl⟩ | hblock
    · exact hone rfl
    · exact h g inside hinside hblock

theorem unbracedHoldOne_singleton (fragment : Fragment) : UnbracedHoldOne [fragment] :=
  fun _ _ _ hblock => absurd hblock hasBlock_singleton

theorem not_spreads_tokens (ts : List Token) : ¬ Spreads [.tokens ts] := by
  rintro ⟨before, after, heq, -⟩
  rcases before with _ | ⟨_, _ | ⟨_, _⟩⟩ <;> simp at heq

theorem Shaped.congr (h : Shaped silence spread sound run) (hspread : spread ↔ spread')
    (hsound : sound ↔ sound') : Shaped silence spread' sound' run := by
  rw [← propext hspread, ← propext hsound]
  exact h

theorem shaped_nil : Shaped (some 0) False True [] where
  balanced := .nil
  speaks_iff := by simp [Speaks]
  length_eq := by simp
  spreads_iff := by simp [Spreads, OnOwnLevel]
  sound_iff := by simp [UnbracedHoldOne, HasBlock, bracketed]

theorem shaped_tokens {ts : List Token} (h : ¬ IsComment ts) :
    Shaped none False True [.tokens ts] where
  balanced := .tokens ts .nil
  speaks_iff := by simp [Speaks, h]
  length_eq := by simp
  spreads_iff := iff_of_false (not_spreads_tokens ts) id
  sound_iff := iff_of_true (unbracedHoldOne_singleton _) trivial

theorem shaped_comment {ts : List Token} (h : IsComment ts) :
    Shaped (some 1) False True [.tokens ts] where
  balanced := .tokens ts .nil
  speaks_iff := by simp [Speaks, h]
  length_eq := by simp
  spreads_iff := iff_of_false (not_spreads_tokens ts) id
  sound_iff := iff_of_true (unbracedHoldOne_singleton _) trivial

theorem shaped_spacer (kind : Spacer) :
    Shaped (some 1) (kind = .betweenStatements) True [.spacer kind] where
  balanced := .spacer kind .nil
  speaks_iff := by simp [Speaks]
  length_eq := by simp
  spreads_iff := by
    constructor
    · rintro ⟨before, after, heq, -⟩
      rcases before with _ | ⟨_, _ | ⟨_, _⟩⟩ <;> simp at heq
      exact heq.1
    · rintro rfl
      exact ⟨[], [], rfl, .nil⟩
  sound_iff := iff_of_true (unbracedHoldOne_singleton _) trivial

theorem Shaped.append (hfront : Shaped silence spread sound front)
    (hback : Shaped silence' spread' sound' back) :
    Shaped (Option.map₂ (· + ·) silence silence') (spread ∨ spread') (sound ∧ sound')
      (front ++ back) where
  balanced := hfront.balanced.append hback.balanced
  speaks_iff := by
    rw [speaks_append, hfront.speaks_iff, hback.speaks_iff, Option.map₂_eq_none_iff]
  length_eq := by
    intro n hn
    obtain ⟨a, b, ha, hb, rfl⟩ := Option.map₂_eq_some_iff.1 hn
    rw [List.length_append, hfront.length_eq a ha, hback.length_eq b hb]
  spreads_iff := by
    rw [Spreads, onOwnLevel_append hfront.balanced]
    exact or_congr hfront.spreads_iff hback.spreads_iff
  sound_iff := by
    rw [unbracedHoldOne_append hfront.balanced, hfront.sound_iff, hback.sound_iff]

theorem balanced_bracketed (h : Balanced inner) (kind : BlockKind) (group : Group) :
    Balanced (bracketed kind group inner []) :=
  .block kind group h .nil

theorem Shaped.bracketed (h : Shaped silence spread sound inner) (kind : BlockKind)
    (group : Group) :
    Shaped (silence.map (· + 2)) False
      ((kind = .singleStatement → silence = none ∧ ¬ spread) ∧ sound)
      (bracketed kind group inner []) where
  balanced := balanced_bracketed h.balanced kind group
  speaks_iff := by rw [speaks_bracketed, h.speaks_iff, Option.map_eq_none_iff]
  length_eq := by
    intro n hn
    obtain ⟨m, hm, rfl⟩ := Option.map_eq_some_iff.1 hn
    simp [JavaFragments.bracketed, h.length_eq m hm]
  spreads_iff := iff_of_false (not_onOwnLevel_bracketed h.balanced kind group _) id
  sound_iff := by
    rw [unbracedHoldOne_bracketed h.balanced, h.speaks_iff, h.spreads_iff, h.sound_iff]

theorem Shaped.braced (h : Shaped silence spread sound inner) (kind : BlockKind)
    (hkind : kind ≠ .singleStatement) (group : Group) :
    Shaped (silence.map (· + 2)) False sound (JavaFragments.bracketed kind group inner []) := by
  have hblock := h.bracketed kind group
  simpa [hkind] using hblock

/-- A phrase in front, which speaks. -/
theorem Shaped.behind (h : Shaped silence spread sound run) {ts : List Token}
    (hts : ¬ IsComment ts) : Shaped none spread sound (.tokens ts :: run) := by
  have hboth := (shaped_tokens hts).append h
  simpa using hboth

/-- A single fragment that speaks does not spread. -/
theorem Shaped.unbraced_one {fragment : Fragment}
    (h : Shaped silence spread sound [fragment]) (group : Group) :
    Shaped (silence.map (· + 2)) False (sound ∧ silence ≠ some 1)
      (JavaFragments.bracketed .singleStatement group [fragment] []) := by
  have hblock := h.bracketed .singleStatement group
  have hiff : (silence = none ∧ ¬ spread) ↔ silence ≠ some 1 := by
    cases hsilence : silence with
    | some n => simp [← h.length_eq n hsilence]
    | none =>
        have hspeaks := h.speaks_iff.2 hsilence
        obtain ⟨ts, hmem, -⟩ := hspeaks
        rw [← h.spreads_iff, ← List.mem_singleton.1 hmem]
        simp [not_spreads_tokens]
  simpa [hiff, and_comm] using hblock

end Runs

end JavaFragments

import JavaFragments.Text.Literal
import Mathlib.Algebra.Ring.Parity

/-! # Literals as a compiler reads them

A compiler reads the characters between two quotes in two passes. The first replaces the Unicode
escapes, a backslash with `u` and four hexadecimal digits, wherever an even number of backslashes
stands directly in front. The second replaces the escapes of two characters. What `escape` writes is
read back so, whatever the text. It holds no control character and no quote that would end the
literal. -/
set_option autoImplicit false

namespace JavaFragments.Text

/-! ## The two passes -/

/-- Half of a surrogate pair is no character. -/
def character? (code : Nat) : Option Char :=
  if code.isValidChar then some (Char.ofNat code) else none

/-- The first pass. Behind an odd number of backslashes a backslash begins no Unicode escape. -/
def readUnicode (odd : Bool) : List Char → Option (List Char)
  | [] => some []
  | c :: rest =>
      if c ≠ backslash then (readUnicode false rest).map (c :: ·)
      else if odd then (readUnicode false rest).map (backslash :: ·)
      else
        match rest with
        | 'u' :: p :: q :: r :: s :: others =>
            ((Hex.number? [p, q, r, s]).bind character?).bind fun d =>
              (readUnicode false others).map (d :: ·)
        | 'u' :: _ => none
        | rest => (readUnicode true rest).map (backslash :: ·)

/-- The character that is meant by a letter behind a backslash. -/
def meaning? (letter : Char) : Option Char :=
  if letter = 'b' then some '\x08'
  else if letter = 't' then some '\t'
  else if letter = 'n' then some '\n'
  else if letter = 'f' then some '\x0c'
  else if letter = 'r' then some '\r'
  else if letter = doubleQuote ∨ letter = singleQuote ∨ letter = backslash then some letter
  else none

/-- The second pass. -/
def readLetters : List Char → Option (List Char)
  | [] => some []
  | c :: rest =>
      if c ≠ backslash then (readLetters rest).map (c :: ·)
      else
        match rest with
        | [] => none
        | letter :: others =>
            (meaning? letter).bind fun d => (readLetters others).map (d :: ·)

/-- The text that is meant by the characters between two quotes. -/
def meant? (cs : List Char) : Option (List Char) :=
  (readUnicode false cs).bind readLetters

/-- How many backslashes stand directly in front of what comes next. -/
def backslashesAtEnd (cs : List Char) : Nat :=
  (cs.reverse.takeWhile (· = backslash)).length

/-! ## How one character is written -/

/-- The three ways in which a character is written between two quotes. -/
inductive Written (quote c : Char) : List Char → Prop where
  | letter {letter : Char} (h : meaning? letter = some c) : Written quote c [backslash, letter]
  | number (h : isControl c = true) :
      Written quote c (backslash :: 'u' :: Hex.digits 4 c.toNat)
  | plain (hbackslash : c ≠ backslash) (hquote : c ≠ quote) (hcontrol : isControl c = false) :
      Written quote c [c]

theorem shortEscape?_backslash : shortEscape? backslash ≠ none := by decide

theorem meaning?_of_shortEscape {c letter : Char} (h : shortEscape? c = some letter) :
    meaning? letter = some c := by
  unfold shortEscape? at h
  split_ifs at h with hc hc hc hc hc hc <;> cases h <;> subst hc <;> decide

theorem meaning?_quote {quote : Char} (hquote : quote = singleQuote ∨ quote = doubleQuote) :
    meaning? quote = some quote := by
  rcases hquote with rfl | rfl <;> decide

theorem written_escapeChar {quote : Char} (hquote : quote = singleQuote ∨ quote = doubleQuote)
    (c : Char) : Written quote c (escapeChar quote c) := by
  unfold escapeChar
  cases hshort : shortEscape? c with
  | some letter => exact .letter (meaning?_of_shortEscape hshort)
  | none =>
      by_cases hc : c = quote
      · rw [if_pos hc, hc]
        exact .letter (meaning?_quote hquote)
      · rw [if_neg hc]
        by_cases hcontrol : isControl c = true
        · rw [if_pos hcontrol]
          exact .number hcontrol
        · rw [if_neg hcontrol]
          refine .plain ?_ hc (by simpa using hcontrol)
          rintro rfl
          exact shortEscape?_backslash hshort

/-- The letters that are escapes. -/
theorem letter_of_meaning? {letter c : Char} (h : meaning? letter = some c) :
    letter ∈ ['b', 't', 'n', 'f', 'r', doubleQuote, singleQuote, backslash] := by
  unfold meaning? at h
  split_ifs at h with hb ht hn hf hr hmark
  · simp [hb]
  · simp [ht]
  · simp [hn]
  · simp [hf]
  · simp [hr]
  · rcases hmark with rfl | rfl | rfl <;> simp

/-! ## Reading one character -/

theorem exists_four_digits {n : Nat} (h : n < Nat.pow 16 4) :
    ∃ p q r s, Hex.digits 4 n = [p, q, r, s] ∧ Hex.number? [p, q, r, s] = some n :=
  ⟨_, _, _, _, rfl, Hex.number?_digits h⟩

theorem toNat_lt_of_isControl {c : Char} (h : isControl c = true) : c.toNat < Nat.pow 16 4 := by
  rw [isControl, Bool.or_eq_true, Bool.and_eq_true, decide_eq_true_eq, decide_eq_true_eq,
    decide_eq_true_eq] at h
  have hpow : Nat.pow 16 4 = 65536 := rfl
  omega

theorem readUnicode_plain {c : Char} (h : c ≠ backslash) (odd : Bool) (rest : List Char) :
    readUnicode odd (c :: rest) = (readUnicode false rest).map (c :: ·) := by
  rw [readUnicode.eq_def]
  exact if_pos h

theorem readLetters_plain {c : Char} (h : c ≠ backslash) (rest : List Char) :
    readLetters (c :: rest) = (readLetters rest).map (c :: ·) := by
  rw [readLetters.eq_def]
  exact if_pos h

theorem readUnicode_behind_backslash (rest : List Char) :
    readUnicode true (backslash :: rest) = (readUnicode false rest).map (backslash :: ·) := by
  rw [readUnicode.eq_def]
  rfl

theorem readUnicode_backslash {rest : List Char} (h : rest.head? ≠ some 'u') :
    readUnicode false (backslash :: rest) = (readUnicode true rest).map (backslash :: ·) := by
  rw [readUnicode.eq_def]
  show (match rest with
    | 'u' :: p :: q :: r :: s :: others => _
    | 'u' :: _ => none
    | rest => (readUnicode true rest).map (backslash :: ·)) = _
  split
  · exact absurd rfl h
  · exact absurd rfl h
  · rfl

/-- An escape of two characters passes the first pass as it is. -/
theorem readUnicode_letter {letter c : Char} (h : meaning? letter = some c) (rest : List Char) :
    readUnicode false (backslash :: letter :: rest) =
      (readUnicode false rest).map ([backslash, letter] ++ ·) := by
  have hu : (letter :: rest).head? ≠ some 'u' := by
    intro hhead
    cases hhead
    cases h
  rw [readUnicode_backslash hu]
  by_cases hletter : letter = backslash
  · rw [hletter, readUnicode_behind_backslash, Option.map_map]
    rfl
  · rw [readUnicode_plain hletter, Option.map_map]
    rfl

theorem readUnicode_number {c : Char} (h : c.toNat < Nat.pow 16 4) (rest : List Char) :
    readUnicode false (backslash :: 'u' :: (Hex.digits 4 c.toNat ++ rest)) =
      (readUnicode false rest).map (c :: ·) := by
  obtain ⟨p, q, r, s, hdigits, hread⟩ := exists_four_digits h
  have hvalid : character? c.toNat = some c := by
    rw [character?, if_pos (show c.toNat.isValidChar from c.valid), Char.ofNat_toNat]
  rw [hdigits, readUnicode.eq_def]
  show ((Hex.number? [p, q, r, s]).bind character?).bind
    (fun d => (readUnicode false rest).map (d :: ·)) = _
  rw [hread, Option.bind_some, hvalid, Option.bind_some]

theorem readLetters_letter {letter c : Char} (h : meaning? letter = some c) (rest : List Char) :
    readLetters (backslash :: letter :: rest) = (readLetters rest).map (c :: ·) := by
  rw [readLetters.eq_def]
  show (meaning? letter).bind (fun d => (readLetters rest).map (d :: ·)) = _
  rw [h, Option.bind_some]

/-- What is left of a character by the first pass gives the character in the second. -/
theorem Written.read {quote c : Char} {text : List Char} (h : Written quote c text) :
    ∃ left, (∀ rest, readUnicode false (text ++ rest) = (readUnicode false rest).map (left ++ ·)) ∧
      ∀ rest, readLetters (left ++ rest) = (readLetters rest).map (c :: ·) := by
  cases h with
  | @letter letter hletter =>
      exact ⟨[backslash, letter], readUnicode_letter hletter, readLetters_letter hletter⟩
  | number hcontrol =>
      have hplain : c ≠ backslash := by
        rintro rfl
        exact absurd hcontrol (by decide)
      exact ⟨[c], readUnicode_number (toNat_lt_of_isControl hcontrol), readLetters_plain hplain⟩
  | plain hbackslash _ _ =>
      exact ⟨[c], readUnicode_plain hbackslash false, readLetters_plain hbackslash⟩

theorem meant?_escape {quote : Char} (hquote : quote = singleQuote ∨ quote = doubleQuote)
    (cs : List Char) : meant? (escape quote cs) = some cs := by
  have hboth : ∃ left, readUnicode false (escape quote cs) = some left ∧
      readLetters left = some cs := by
    induction cs with
    | nil => exact ⟨[], rfl, rfl⟩
    | cons c rest ih =>
        obtain ⟨others, hunicode, hletters⟩ := ih
        obtain ⟨left, hfirst, hsecond⟩ := (written_escapeChar hquote c).read
        refine ⟨left ++ others, ?_, ?_⟩
        · rw [escape, hfirst, hunicode, Option.map_some]
        · rw [hsecond, hletters, Option.map_some]
  obtain ⟨left, hunicode, hletters⟩ := hboth
  rw [meant?, hunicode, Option.bind_some, hletters]

/-! ## No control characters -/

theorem digit_ne {n : Nat} (h : n < 16) :
    Hex.digit n ≠ backslash ∧ Hex.digit n ≠ singleQuote ∧ Hex.digit n ≠ doubleQuote ∧
      isControl (Hex.digit n) = false := by
  revert n
  decide

theorem Written.no_control {quote c d : Char} {text : List Char} (h : Written quote c text)
    (hd : d ∈ text) : isControl d = false := by
  cases h with
  | letter hletter =>
      have hmem := letter_of_meaning? hletter
      simp only [List.mem_cons, List.not_mem_nil, or_false] at hd hmem
      rcases hd with rfl | rfl
      · rfl
      · rcases hmem with rfl | rfl | rfl | rfl | rfl | rfl | rfl | rfl <;> rfl
  | number =>
      rw [List.mem_cons, List.mem_cons] at hd
      rcases hd with rfl | rfl | hd
      · rfl
      · rfl
      · obtain ⟨k, hk, rfl⟩ := Hex.exists_of_mem_digits hd
        exact (digit_ne hk).2.2.2
  | plain _ _ hcontrol =>
      rw [List.mem_singleton.1 hd]
      exact hcontrol

theorem no_control_escape {quote : Char} (hquote : quote = singleQuote ∨ quote = doubleQuote)
    (cs : List Char) : ∀ d ∈ escape quote cs, isControl d = false := by
  induction cs with
  | nil =>
      intro d hd
      cases hd
  | cons c rest ih =>
      intro d hd
      rcases List.mem_append.1 hd with hd | hd
      · exact (written_escapeChar hquote c).no_control hd
      · exact ih d hd

/-! ## Backslashes in front of quotes -/

theorem backslashesAtEnd_backslash (cs : List Char) :
    backslashesAtEnd (cs ++ [backslash]) = backslashesAtEnd cs + 1 := by
  simp [backslashesAtEnd]

theorem backslashesAtEnd_other (cs : List Char) {c : Char} (h : c ≠ backslash) :
    backslashesAtEnd (cs ++ [c]) = 0 := by
  simp [backslashesAtEnd, h]

theorem Written.even_backslashes {quote c : Char} {text before : List Char}
    (h : Written quote c text) (heven : Even (backslashesAtEnd before)) :
    Even (backslashesAtEnd (before ++ text)) := by
  cases h with
  | @letter letter _ =>
      have hsplit : before ++ [backslash, letter] = before ++ [backslash] ++ [letter] := by simp
      rw [hsplit]
      by_cases hletter : letter = backslash
      · rw [hletter, backslashesAtEnd_backslash, backslashesAtEnd_backslash]
        exact heven.add_one.add_one
      · rw [backslashesAtEnd_other _ hletter]
        exact Even.zero
  | number _ =>
      have hsplit : before ++ backslash :: 'u' :: Hex.digits 4 c.toNat =
          before ++ backslash :: 'u' :: Hex.digits 3 (c.toNat / 16) ++
            [Hex.digit (c.toNat % 16)] := by
        rw [Hex.digits]
        simp
      rw [hsplit, backslashesAtEnd_other _ (digit_ne (Nat.mod_lt _ (by decide))).1]
      exact Even.zero
  | plain hbackslash _ _ =>
      rw [backslashesAtEnd_other _ hbackslash]
      exact Even.zero

/-- A quote in the text of a character is the letter of an escape. -/
theorem Written.odd_backslashes {quote c : Char}
    (hquote : quote = singleQuote ∨ quote = doubleQuote) {text before front back : List Char}
    (h : Written quote c text) (heven : Even (backslashesAtEnd before))
    (htext : text = front ++ quote :: back) : Odd (backslashesAtEnd (before ++ front)) := by
  have hmem : quote ∈ text := by
    rw [htext]
    simp
  have hne : quote ≠ backslash := by
    rcases hquote with rfl | rfl <;> decide
  cases h with
  | @letter letter _ =>
      rcases front with _ | ⟨first, _ | ⟨second, front⟩⟩
      · exact absurd (List.cons.inj htext).1.symm hne
      · rw [← (List.cons.inj htext).1, backslashesAtEnd_backslash]
        exact heven.add_one
      · simp at htext
  | number _ =>
      rw [List.mem_cons, List.mem_cons] at hmem
      rcases hmem with hmem | hmem | hmem
      · exact absurd hmem hne
      · rcases hquote with rfl | rfl <;> exact absurd hmem (by decide)
      · obtain ⟨k, hk, hdigit⟩ := Hex.exists_of_mem_digits hmem
        rcases hquote with rfl | rfl
        · exact absurd hdigit.symm (digit_ne hk).2.1
        · exact absurd hdigit.symm (digit_ne hk).2.2.1
  | plain _ hplain _ => exact absurd (List.mem_singleton.1 hmem).symm hplain

/-- Character by character, since the text of each keeps the number of backslashes even. -/
theorem backslashes_escape {quote : Char} (hquote : quote = singleQuote ∨ quote = doubleQuote)
    (cs : List Char) {before : List Char} (heven : Even (backslashesAtEnd before)) :
    Even (backslashesAtEnd (before ++ escape quote cs)) ∧
      ∀ front back, escape quote cs = front ++ quote :: back →
        Odd (backslashesAtEnd (before ++ front)) := by
  induction cs generalizing before with
  | nil =>
      refine ⟨by rwa [escape, List.append_nil], fun front back h => ?_⟩
      simp [escape] at h
  | cons c rest ih =>
      have hwritten := written_escapeChar hquote c
      obtain ⟨hend, hquotes⟩ := ih (hwritten.even_backslashes heven)
      refine ⟨by rwa [escape, ← List.append_assoc], fun front back h => ?_⟩
      rw [escape, List.append_eq_append_iff] at h
      rcases h with ⟨others, hfront, hrest⟩ | ⟨others, hchar, hrest⟩
      · rw [hfront, ← List.append_assoc]
        exact hquotes others back hrest
      · rcases others with _ | ⟨d, others⟩
        · -- The quote is the first character of what is written for the rest.
          rw [List.append_nil] at hchar
          rw [← hchar, ← List.append_nil (before ++ escapeChar quote c)]
          exact hquotes [] back hrest.symm
        · rw [← (List.cons.inj hrest).1] at hchar
          exact hwritten.odd_backslashes hquote heven hchar

/-- What stands between two quotes has no control character in it and no quote that ends the
literal. The quote behind it does end it, and what is read is the text that was written. -/
theorem quoted_reads_back {quote : Char} (hquote : quote = singleQuote ∨ quote = doubleQuote)
    (text : String) :
    (∀ c ∈ escape quote text.toList, isControl c = false) ∧
      (∀ front back, escape quote text.toList = front ++ quote :: back →
        Odd (backslashesAtEnd front)) ∧
      Even (backslashesAtEnd (escape quote text.toList)) ∧
      meant? (escape quote text.toList) = some text.toList ∧
      ∀ other, quoted quote other = quoted quote text → other = text := by
  have hnone : Even (backslashesAtEnd []) := Even.zero
  obtain ⟨hend, hquotes⟩ := backslashes_escape hquote text.toList hnone
  refine ⟨no_control_escape hquote text.toList, hquotes, hend, meant?_escape hquote text.toList,
    ?_⟩
  intro other h
  have hsame : escape quote other.toList = escape quote text.toList := by
    rw [quoted, quoted, String.ofList_inj] at h
    simpa using h
  have hother := meant?_escape hquote other.toList
  rw [hsame, meant?_escape hquote text.toList, Option.some.injEq] at hother
  exact (String.toList_inj.1 hother).symm

/-- A backslash before a quote, one before what looks like a Unicode escape, a control character
and a quote of the other kind. -/
theorem quoted_reads_back_of_backslashes :
    let cs := [backslash, doubleQuote, backslash, 'u', '0', '0', '2', '2', '\x07', singleQuote,
      backslash]
    Odd (backslashesAtEnd [backslash, backslash, backslash]) ∧
      meant? (escape doubleQuote cs) = some cs := by
  intro cs
  have hquote : doubleQuote = singleQuote ∨ doubleQuote = doubleQuote := .inr rfl
  have hreads := quoted_reads_back hquote (String.ofList cs)
  rw [String.toList_ofList] at hreads
  exact ⟨hreads.2.1 [backslash, backslash, backslash] _ rfl, hreads.2.2.2.1⟩

end JavaFragments.Text

import JavaFragments.Format.Modifiers

/-! # Reading modifiers back from their text

The text of modifiers names the flags that are set and gives the other bits as one number. Since
every flag is a single bit, the flags and the number together hold every bit, and reading the text
gives the modifiers again. -/
set_option autoImplicit false

namespace JavaFragments

/-! ## Digits without leading zeros -/

namespace Text.Hex

theorem numberFrom?_dropWhile (cs : List Char) :
    numberFrom? 0 (cs.dropWhile (· = '0')) = numberFrom? 0 cs := by
  induction cs with
  | nil => rfl
  | cons c rest ih =>
      by_cases hzero : c = '0'
      · subst hzero
        rw [List.dropWhile_cons_of_pos (by decide), ih]
        rfl
      · rw [List.dropWhile_cons_of_neg (by simpa using hzero)]

/-- A number other than zero has a digit that is not a leading zero. -/
theorem number?_shortDigits {count n : Nat} (hn : n < Nat.pow 16 count) (hpos : n ≠ 0) :
    number? (shortDigits count n) = some n := by
  have hread : numberFrom? 0 (shortDigits count n) = some n := by
    rw [shortDigits, numberFrom?_dropWhile, numberFrom?_digits 0 count n hn, Nat.mul_zero,
      Nat.zero_add]
  cases hdigits : shortDigits count n with
  | nil =>
      rw [hdigits] at hread
      exact absurd (Option.some.inj hread).symm hpos
  | cons c rest =>
      rw [hdigits] at hread
      exact hread

end Text.Hex

namespace Modifiers

/-! ## Parts between bars -/

/-- A part that holds neither blanks nor bars, and something at all. -/
def Plain (part : List Char) : Prop :=
  part ≠ [] ∧ ∀ c ∈ part, Text.isBlank c = false ∧ c ≠ '|'

/-- Drops what is blank in front of something plain. -/
theorem dropWhile_padded {part front back : List Char} (h : Plain part)
    (hfront : ∀ c ∈ front, Text.isBlank c = true) :
    (front ++ (part ++ back)).dropWhile Text.isBlank = part ++ back := by
  obtain ⟨hne, hplain⟩ := h
  cases part with
  | nil => exact absurd rfl hne
  | cons c rest =>
      have hc := (hplain c List.mem_cons_self).1
      rw [List.dropWhile_append_of_pos hfront, List.cons_append,
        List.dropWhile_cons_of_neg (by simp [hc])]

theorem Plain.reverse {part : List Char} (h : Plain part) : Plain part.reverse :=
  ⟨by simpa using h.1, by simpa using h.2⟩

theorem trimmed_padded {part front back : List Char} (h : Plain part)
    (hfront : ∀ c ∈ front, Text.isBlank c = true) (hback : ∀ c ∈ back, Text.isBlank c = true) :
    Text.trimmed (front ++ (part ++ back)) = part := by
  have hbehind : ∀ c ∈ back.reverse, Text.isBlank c = true := by simpa using hback
  have hreverse : (back.reverse ++ (part.reverse ++ [])).dropWhile Text.isBlank =
      part.reverse ++ [] := dropWhile_padded h.reverse hbehind
  rw [List.append_nil] at hreverse
  rw [Text.trimmed, dropWhile_padded h hfront, List.reverse_append, hreverse, List.reverse_reverse]

theorem Plain.trimmed {part : List Char} (h : Plain part) : Text.trimmed part = part := by
  have hpadded : Text.trimmed ([] ++ (part ++ [])) = part :=
    trimmed_padded h (by simp) (by simp)
  rwa [List.nil_append, List.append_nil] at hpadded

theorem bitsOfPart?_padded {part front back : List Char} (h : Plain part)
    (hfront : ∀ c ∈ front, Text.isBlank c = true) (hback : ∀ c ∈ back, Text.isBlank c = true) :
    bitsOfPart? (front ++ (part ++ back)) = bitsOfPart? part := by
  rw [bitsOfPart?, bitsOfPart?, trimmed_padded h hfront hback, h.trimmed]

/-- A space in front of a part, where another part stands in front of it. -/
def spaceIf : Bool → List Char
  | true => [' ']
  | false => []

theorem isBlank_of_mem_spaceIf {inFront : Bool} {c : Char} (h : c ∈ spaceIf inFront) :
    Text.isBlank c = true := by
  cases inFront with
  | false => cases h
  | true => rw [List.mem_singleton.1 h]; decide

/-- The parts of a text are read by themselves. -/
theorem bitsOfParts?_splitOn {parts : List (List Char)} (hplain : ∀ part ∈ parts, Plain part)
    (hne : parts ≠ []) (inFront : Bool) :
    bitsOfParts? ((spaceIf inFront ++ [' ', '|', ' '].intercalate parts).splitOn '|') =
      bitsOfParts? parts := by
  induction parts generalizing inFront with
  | nil => exact absurd rfl hne
  | cons part rest ih =>
      have hpart := hplain part List.mem_cons_self
      have hfront : ∀ c ∈ spaceIf inFront, Text.isBlank c = true := fun c => isBlank_of_mem_spaceIf
      have hbar : ∀ back ∈ [[], [' ']], '|' ∉ spaceIf inFront ++ (part ++ back) := by
        intro back hback hmem
        rcases List.mem_append.1 hmem with hmem | hmem
        · exact absurd (hfront _ hmem) (by decide)
        rcases List.mem_append.1 hmem with hmem | hmem
        · exact (hpart.2 _ hmem).2 rfl
        · simp only [List.mem_cons, List.not_mem_nil, or_false] at hback
          rcases hback with rfl | rfl
          · cases hmem
          · exact absurd hmem (by decide)
      cases rest with
      | nil =>
          have hread : bitsOfPart? (spaceIf inFront ++ (part ++ [])) = bitsOfPart? part :=
            bitsOfPart?_padded hpart hfront (by simp)
          rw [List.append_nil] at hread
          have hsplit := List.splitOn_eq_singleton (hbar [] (by simp))
          rw [List.append_nil] at hsplit
          rw [List.intercalate_singleton, hsplit, bitsOfParts?, hread]
          rfl
      | cons next rest =>
          have hread : bitsOfPart? (spaceIf inFront ++ (part ++ [' '])) = bitsOfPart? part :=
            bitsOfPart?_padded hpart hfront (List.forall_mem_singleton.2 rfl)
          have hrest := ih (fun p hp => hplain p (List.mem_cons_of_mem _ hp)) (by simp) true
          have hparts : spaceIf inFront ++ [' ', '|', ' '].intercalate (part :: next :: rest) =
              spaceIf inFront ++ (part ++ [' ']) ++
                '|' :: (spaceIf true ++ [' ', '|', ' '].intercalate (next :: rest)) := by
            rw [List.intercalate_cons_cons]
            simp [spaceIf]
          have hfirst : ∀ c ∈ spaceIf inFront ++ (part ++ [' ']), (c == '|') = false := by
            intro c hc
            rw [beq_eq_false_iff_ne]
            rintro rfl
            exact hbar [' '] (by simp) hc
          rw [hparts, List.splitOn,
            List.splitOnP_append_cons_of_forall_mem hfirst '|' (by simp), ← List.splitOn,
            bitsOfParts?, hread, hrest, ← bitsOfParts?]

/-! ## Bits -/

theorem and_or_distrib (x a b : UInt32) : x &&& (a ||| b) = x &&& a ||| x &&& b := by
  apply UInt32.eq_of_toBitVec_eq
  simp only [UInt32.toBitVec_and, UInt32.toBitVec_or]
  exact BitVec.and_or_distrib_left

theorem exists_bit_of_mem_flags : ∀ flag ∈ flags,
    ∃ place : Fin 32, flag.2.toBitVec = BitVec.twoPow 32 place := by
  decide

/-- A flag is a single bit: it is set, or nothing of it is. -/
theorem and_flag (m : Modifiers) {flag : String × UInt32} (h : flag ∈ flags) :
    m.bits &&& flag.2 = if m.contains flag.2 then flag.2 else 0 := by
  obtain ⟨place, hplace⟩ := exists_bit_of_mem_flags flag h
  by_cases hcontains : m.contains flag.2 = true
  · rw [if_pos hcontains]
    exact beq_iff_eq.1 hcontains
  · rw [if_neg hcontains]
    have hne : m.bits &&& flag.2 ≠ flag.2 := fun heq => hcontains (beq_iff_eq.2 heq)
    apply UInt32.eq_of_toBitVec_eq
    have hbit := BitVec.and_twoPow m.bits.toBitVec place
    rw [← hplace, ← UInt32.toBitVec_and] at hbit
    rw [hbit, if_neg]
    · rfl
    · intro hset
      rw [if_pos hset] at hbit
      exact hne (UInt32.eq_of_toBitVec_eq hbit)

/-- All the bits of some flags. -/
def bitsOf (flags : List (String × UInt32)) : UInt32 :=
  flags.foldr (fun (_, flag) bits => flag ||| bits) 0

/-- The flags that are set hold the bits that all the flags stand for. -/
theorem bitsOf_set (m : Modifiers) {set : List (String × UInt32)} (h : ∀ flag ∈ set, flag ∈ flags) :
    bitsOf (set.filter fun (_, flag) => m.contains flag) = m.bits &&& bitsOf set := by
  induction set with
  | nil => exact (UInt32.and_zero).symm
  | cons flag rest ih =>
      have hrest := ih fun f hf => h f (List.mem_cons_of_mem _ hf)
      have hflag := and_flag m (h flag List.mem_cons_self)
      have hcons : bitsOf (flag :: rest) = flag.2 ||| bitsOf rest := rfl
      rw [hcons, and_or_distrib, ← hrest, hflag, List.filter_cons]
      by_cases hcontains : m.contains flag.2 = true
      · rw [if_pos hcontains, if_pos hcontains]
        rfl
      · rw [if_neg hcontains, if_neg hcontains, UInt32.zero_or]

theorem bits_eq (m : Modifiers) :
    bitsOf (flags.filter fun (_, flag) => m.contains flag) ||| m.unnamedBits = m.bits := by
  have hall : bitsOf flags ||| ~~~namedBits = -1 := UInt32.or_not_self
  rw [bitsOf_set m fun _ h => h, unnamedBits, ← and_or_distrib, hall, UInt32.and_neg_one]

/-! ## The whole text -/

theorem plain_of_mem_flags : ∀ flag ∈ flags, Plain flag.1.toList := by
  have hflags : ∀ flag ∈ flags, flag.1.toList ≠ [] ∧
      flag.1.toList.all (fun c => !Text.isBlank c && c != '|') = true := by
    decide
  intro flag hflag
  obtain ⟨hne, hall⟩ := hflags flag hflag
  refine ⟨hne, fun c hc => ?_⟩
  simpa using List.all_eq_true.1 hall c hc

theorem bitsOfPart?_flag : ∀ flag ∈ flags, bitsOfPart? flag.1.toList = some flag.2 := by
  decide

/-- The digits of the bits that have no name. -/
theorem plain_number (n : Nat) : Plain ('0' :: 'x' :: Text.Hex.shortDigits 8 n) := by
  have hdigit : ∀ k < 16, Text.isBlank (Text.Hex.digit k) = false ∧ Text.Hex.digit k ≠ '|' := by
    decide
  refine ⟨by simp, fun c hc => ?_⟩
  rcases List.mem_cons.1 hc with rfl | hc
  · decide
  rcases List.mem_cons.1 hc with rfl | hc
  · decide
  · obtain ⟨k, hk, rfl⟩ :=
      Text.Hex.exists_of_mem_digits ((List.dropWhile_sublist _).subset hc)
    exact hdigit k hk

theorem bitsOfHex?_shortDigits (bits : UInt32) (h : bits ≠ 0) :
    bitsOfHex? (Text.Hex.shortDigits 8 bits.toNat) = some bits := by
  have hpos : bits.toNat ≠ 0 := fun hzero => h (UInt32.toNat_inj.1 hzero)
  have hread : Text.Hex.number? (Text.Hex.shortDigits 8 bits.toNat) = some bits.toNat :=
    Text.Hex.number?_shortDigits bits.toNat_lt hpos
  have hplus : '+' ∉ Text.Hex.shortDigits 8 bits.toNat := by
    intro hmem
    obtain ⟨k, hk, hdigit⟩ :=
      Text.Hex.exists_of_mem_digits ((List.dropWhile_sublist _).subset hmem)
    exact absurd hdigit (by revert k; decide)
  unfold bitsOfHex?
  split
  · rename_i rest hdigits
    rw [hdigits] at hplus
    exact absurd List.mem_cons_self hplus
  · rw [hread]
    dsimp only
    rw [if_pos bits.toNat_lt, UInt32.ofNat_toNat]

theorem bitsOfPart?_number {bits : UInt32} (h : bits ≠ 0) :
    bitsOfPart? ('0' :: 'x' :: Text.Hex.shortDigits 8 bits.toNat) = some bits := by
  rw [bitsOfPart?, (plain_number bits.toNat).trimmed]
  exact bitsOfHex?_shortDigits bits h

theorem plain_of_mem_parts (m : Modifiers) : ∀ part ∈ m.parts.map String.toList, Plain part := by
  intro part hpart
  rw [parts, List.map_append, List.map_map, List.mem_append] at hpart
  rcases hpart with hpart | hpart
  · obtain ⟨flag, hflag, rfl⟩ := List.mem_map.1 hpart
    exact plain_of_mem_flags flag ((List.mem_filter.1 hflag).1)
  · split at hpart
    · cases hpart
    · rw [List.map_singleton, List.mem_singleton, String.toList_ofList] at hpart
      rw [hpart]
      exact plain_number _

theorem bitsOfParts?_flags {set : List (String × UInt32)} (h : ∀ flag ∈ set, flag ∈ flags)
    {back : List (List Char)} {more : UInt32} (hback : bitsOfParts? back = some more) :
    bitsOfParts? (set.map (fun flag => flag.1.toList) ++ back) = some (bitsOf set ||| more) := by
  induction set with
  | nil =>
      rw [List.map_nil, List.nil_append, hback]
      exact congrArg some UInt32.zero_or.symm
  | cons flag rest ih =>
      have hflag := bitsOfPart?_flag flag (h flag List.mem_cons_self)
      have hrest := ih fun f hf => h f (List.mem_cons_of_mem _ hf)
      rw [List.map_cons, List.cons_append, bitsOfParts?, hflag, hrest]
      exact congrArg some (UInt32.or_assoc ..).symm

/-- The parts hold all the bits. -/
theorem bitsOfParts?_parts (m : Modifiers) :
    bitsOfParts? (m.parts.map String.toList) = some m.bits := by
  have hset : ∀ flag ∈ flags.filter (fun (_, flag) => m.contains flag), flag ∈ flags :=
    fun flag hflag => (List.mem_filter.1 hflag).1
  have hnumber : bitsOfParts? ((if m.unnamedBits = 0 then []
      else [String.ofList ('0' :: 'x' :: Text.Hex.shortDigits 8 m.unnamedBits.toNat)]).map
        String.toList) = some m.unnamedBits := by
    by_cases hzero : m.unnamedBits = 0
    · rw [if_pos hzero, hzero]
      rfl
    · rw [if_neg hzero, List.map_singleton, String.toList_ofList, bitsOfParts?,
        bitsOfPart?_number hzero]
      exact congrArg some UInt32.or_zero
  rw [parts, List.map_append, List.map_map]
  exact (bitsOfParts?_flags hset hnumber).trans (congrArg some m.bits_eq)

/-- Modifiers are read back from their text, with the bits that have no name. -/
theorem ofText?_text (m : Modifiers) : ofText? m.text = some m := by
  have hparts := bitsOfParts?_parts m
  have hplain := plain_of_mem_parts m
  have htext : m.text.toList = [' ', '|', ' '].intercalate (m.parts.map String.toList) :=
    String.toList_intercalate
  rw [ofText?, htext]
  generalize m.parts.map String.toList = pieces at hparts hplain
  cases pieces with
  | nil =>
      have hblank : ([' ', '|', ' '].intercalate ([] : List (List Char))).all Text.isBlank = true :=
        rfl
      rw [if_pos hblank]
      have hbits : m.bits = 0 := (Option.some.inj hparts).symm
      exact congrArg some (congrArg mk hbits.symm)
  | cons piece rest =>
      obtain ⟨hne, hpiece⟩ := hplain piece List.mem_cons_self
      have hblank : ([' ', '|', ' '].intercalate (piece :: rest)).all Text.isBlank = false := by
        cases piece with
        | nil => exact absurd rfl hne
        | cons c others =>
            have hc := (hpiece c List.mem_cons_self).1
            cases rest with
            | nil => simp [hc]
            | cons next rest => simp [List.intercalate_cons_cons, hc]
      have hread := bitsOfParts?_splitOn hplain (by simp) false
      rw [hblank, if_neg (by simp)]
      rw [spaceIf, List.nil_append] at hread
      rw [hread, hparts]
      rfl

end Modifiers

end JavaFragments

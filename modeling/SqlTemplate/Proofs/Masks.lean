import Mathlib
import SqlTemplate.Proofs.ByteOffsets
import SqlTemplate.Proofs.Checks
import SqlTemplate.Proofs.Clauses

/-!
# Masks of conditions

The mask of a condition is its text with underscores for the content of literals, as many as the
content has bytes (`Condition.maskedChars`). So it has the offsets of the text, and apart from the
content it is the text byte for byte (`Condition.bytes_maskedChars`). It differs from the visible
text in that an underscore may stand there several times (`Condition.Stretches`), and nothing that
conditions are checked for depends on that (`Condition.checkVisible_maskedChars`).
-/

namespace SqlTemplate.Condition

open String (utf8Len)

/-- What stands for the character in the mask. -/
def Mark.masked (m : Mark) : List Char :=
  if m.content then List.replicate m.char.utf8Size '_' else [m.char]

/-- The mask of a marked text. -/
def maskedChars (ms : List Mark) : List Char :=
  ms.flatMap Mark.masked

/-- For each byte of a marked text, whether it is content of a literal. -/
def contentBytes (ms : List Mark) : List Bool :=
  ms.flatMap fun m => List.replicate m.char.utf8Size m.content

variable {ms ns : List Mark} {m : Mark} {c : Char} {s t : List Char}

section Length

@[simp] theorem maskedChars_nil : maskedChars [] = [] := rfl

@[simp] theorem maskedChars_cons (m : Mark) (ms : List Mark) :
    maskedChars (m :: ms) = m.masked ++ maskedChars ms :=
  rfl

@[simp] theorem maskedChars_append (ms ns : List Mark) :
    maskedChars (ms ++ ns) = maskedChars ms ++ maskedChars ns :=
  List.flatMap_append

@[simp] theorem utf8Len_replicate_underscore (n : Nat) : utf8Len (List.replicate n '_') = n := by
  induction n with
  | zero => rfl
  | succ n ih => rw [List.replicate_succ, String.utf8Len_cons, ih]; rfl

@[simp] theorem Mark.utf8Len_masked (m : Mark) : utf8Len m.masked = m.char.utf8Size := by
  rw [masked]
  split <;> simp

/-- A mask is as long as its text. -/
@[simp] theorem utf8Len_maskedChars (ms : List Mark) :
    utf8Len (maskedChars ms) = utf8Len (chars ms) := by
  induction ms with
  | nil => rfl
  | cons m ms ih =>
      rw [maskedChars_cons, chars_cons, String.utf8Len_append, String.utf8Len_cons, ih,
        Mark.utf8Len_masked, Nat.add_comm]

end Length

section Bytes

open Text (bytes)

/-- A byte of the mask, from the byte of the text. -/
def hide (content : Bool) (b : UInt8) : UInt8 :=
  if content then '_'.toUInt8 else b

theorem zipWith_hide_replicate (content : Bool) (bs : List UInt8) :
    List.zipWith hide (List.replicate bs.length content) bs = bs.map (hide content) := by
  induction bs with
  | nil => rfl
  | cons b bs ih => simp [List.replicate_succ, ih]

theorem bytes_replicate_underscore (n : Nat) :
    bytes (List.replicate n '_') = List.replicate n '_'.toUInt8 := by
  have hone : String.utf8EncodeChar '_' = ['_'.toUInt8] := by decide
  rw [bytes, List.flatMap_replicate, hone]
  simp

theorem Mark.bytes_masked (m : Mark) :
    bytes m.masked =
      List.zipWith hide (List.replicate m.char.utf8Size m.content) (bytes [m.char]) := by
  have hbytes : bytes [m.char] = String.utf8EncodeChar m.char := List.flatMap_singleton _ _
  rw [hbytes, ← String.length_utf8EncodeChar, zipWith_hide_replicate, masked]
  split
  next hcontent =>
    rw [bytes_replicate_underscore, hcontent, ← String.length_utf8EncodeChar]
    exact List.map_const'.symm
  next hcontent =>
    rw [hbytes, Bool.eq_false_iff.2 hcontent]
    exact (List.map_id _).symm

/-- The mask is the text byte for byte, but for the content of literals. -/
theorem bytes_maskedChars (ms : List Mark) :
    bytes (maskedChars ms) = List.zipWith hide (contentBytes ms) (bytes (chars ms)) := by
  induction ms with
  | nil => rfl
  | cons m ms ih =>
      have hlength : (List.replicate m.char.utf8Size m.content).length =
          (bytes [m.char]).length := by
        simp [bytes, String.length_utf8EncodeChar]
      have hmask : bytes (maskedChars (m :: ms)) = bytes m.masked ++ bytes (maskedChars ms) :=
        List.flatMap_append
      have htext : bytes (chars (m :: ms)) = bytes [m.char] ++ bytes (chars ms) := by
        rw [chars_cons, ← List.singleton_append]
        exact List.flatMap_append
      rw [hmask, htext, Mark.bytes_masked, ih, ← List.zipWith_append hlength]
      rfl

end Bytes

section Checks

/-- The second text is the first one, where an underscore may stand several times for one. -/
inductive Stretches : List Char → List Char → Prop where
  | nil : Stretches [] []
  | cons (c : Char) {s t : List Char} (h : Stretches s t) : Stretches (c :: s) (c :: t)
  | again {s t : List Char} (h : Stretches s ('_' :: t)) : Stretches s ('_' :: '_' :: t)

theorem Stretches.replicate_append (h : Stretches s t) (n : Nat) :
    Stretches ('_' :: s) (List.replicate (n + 1) '_' ++ t) := by
  induction n with
  | zero => exact .cons '_' h
  | succ n ih => exact .again ih

theorem stretches_maskedChars (ms : List Mark) :
    Stretches (visibleChars ms) (maskedChars ms) := by
  induction ms with
  | nil => exact .nil
  | cons m ms ih =>
      rw [visibleChars_cons, maskedChars_cons, Mark.visible, Mark.masked]
      split
      next =>
        obtain ⟨n, hn⟩ := Nat.exists_eq_succ_of_ne_zero m.char.utf8Size_pos.ne'
        rw [hn]
        exact ih.replicate_append n
      next => exact .cons m.char ih

theorem Stretches.head?_eq (h : Stretches s t) : t.head? = s.head? := by
  induction h with
  | nil => rfl
  | cons c _ _ => rfl
  | again _ ih => exact ih

theorem Stretches.mem_iff (h : Stretches s t) (c : Char) : c ∈ t ↔ c ∈ s := by
  induction h with
  | nil => rfl
  | cons a _ ih => rw [List.mem_cons, List.mem_cons, ih]
  | again _ ih => rw [← ih]; simp

theorem occursTwice_cons (c a : Char) (s : List Char) :
    occursTwice c (a :: s) = ((a == c && s.head? == some c) || occursTwice c s) := by
  cases s with
  | nil => simp [occursTwice]
  | cons b s => simp [occursTwice]

theorem Stretches.occursTwice_eq (h : Stretches s t) (hc : c ≠ '_') :
    occursTwice c t = occursTwice c s := by
  have hunderscore : ('_' == c) = false := beq_eq_false_iff_ne.2 (Ne.symm hc)
  induction h with
  | nil => rfl
  | cons a h ih => rw [occursTwice_cons, occursTwice_cons, ih, h.head?_eq]
  | again _ ih => rw [occursTwice_cons, ih, hunderscore, Bool.false_and, Bool.false_or]

theorem occursLessGreater_cons (a : Char) (s : List Char) :
    occursLessGreater (a :: s) = ((a == '<' && s.head? == some '>') || occursLessGreater s) := by
  cases s with
  | nil => simp [occursLessGreater]
  | cons b s => simp [occursLessGreater]

theorem Stretches.occursLessGreater_eq (h : Stretches s t) :
    occursLessGreater t = occursLessGreater s := by
  induction h with
  | nil => rfl
  | cons a h ih => rw [occursLessGreater_cons, occursLessGreater_cons, ih, h.head?_eq]
  | again _ ih => rw [occursLessGreater_cons, ih]; rfl

theorem Stretches.hasSingleEquals_eq (h : Stretches s t) (previous : Option Char) :
    hasSingleEquals previous t = hasSingleEquals previous s := by
  induction h generalizing previous with
  | nil => rfl
  | cons a h ih => rw [hasSingleEquals, hasSingleEquals, ih, h.head?_eq]
  | again _ ih =>
      rw [← ih]
      simp [hasSingleEquals]

/-- A call does not reach back behind an underscore. -/
theorem hasLooseParenthesis_underscore (name before : List Char) (opened : Option Bool)
    (s : List Char) : hasLooseParenthesis (name ++ '_' :: before) opened s =
      hasLooseParenthesis name opened s := by
  induction s generalizing name opened with
  | nil => rfl
  | cons c s ih =>
      have hget : ((name ++ '_' :: before).take 3 == "teg".toList) =
          (name.take 3 == "teg".toList) := by
        match name with
        | [] => simp
        | [a] => simp
        | [a, b] => simp
        | a :: b :: d :: name => simp
      have hempty : ((name ++ '_' :: before).head? == some '(') =
          (name.head? == some '(') := by
        cases name <;> simp
      simp only [hasLooseParenthesis, ← List.cons_append, ih, hget, hempty]

theorem Stretches.hasLooseParenthesis_eq (h : Stretches s t) (before : List Char)
    (opened : Option Bool) :
    hasLooseParenthesis before opened t = hasLooseParenthesis before opened s := by
  induction h generalizing before opened with
  | nil => rfl
  | cons a _ ih => simp only [hasLooseParenthesis, ih]
  | @again _ t _ ih =>
      have hskip : ∀ before : List Char, hasLooseParenthesis before opened ('_' :: t) =
          hasLooseParenthesis [] opened t := by
        intro before
        exact hasLooseParenthesis_underscore [] before opened t
      rw [← ih, hskip]
      exact hskip ('_' :: before)

/-- The mask passes the checks if the visible text does, and else it has the same fault. -/
theorem checkVisible_maskedChars (ms : List Mark) :
    checkVisible (maskedChars ms) = checkVisible (visibleChars ms) := by
  have h := stretches_maskedChars ms
  have hquotation : (maskedChars ms).contains '"' = (visibleChars ms).contains '"' := by
    rw [Bool.eq_iff_iff, List.contains_iff_mem, List.contains_iff_mem, h.mem_iff]
  rw [checkVisible, checkVisible, hquotation, h.hasLooseParenthesis_eq,
    h.occursTwice_eq (by decide), h.occursTwice_eq (by decide), h.occursLessGreater_eq,
    h.hasSingleEquals_eq]

end Checks

end SqlTemplate.Condition

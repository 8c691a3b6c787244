import Mathlib
import SqlTemplate.Text.Split

/-!
# Texts cut at byte offsets

An offset counts the bytes of the UTF-8 encoding. A text can be cut at an offset that is between two
of its characters, or at one of its ends (`Text.IsBoundary`), and nowhere else
(`Text.splitAtByte?_eq_some_iff`). `Text.slice?` is the part of a text between two offsets. There is
none if one of them is inside of a character or behind the end, or if they are not in order
(`Text.isSome_slice?_iff`).
-/

namespace SqlTemplate.Text

open String (utf8Len)

/-- The parts of the text in front of the offset and behind it. -/
def splitAtByte? : Nat → List Char → Option (List Char × List Char)
  | n, [] => if n = 0 then some ([], []) else none
  | n, c :: s =>
    if n = 0 then some ([], c :: s)
    else if c.utf8Size ≤ n then consCut c (splitAtByte? (n - c.utf8Size) s)
    else none

/-- The part of the text between two offsets. -/
def slice? (s : List Char) (start stop : Nat) : Option (List Char) :=
  if start ≤ stop then
    (splitAtByte? start s).bind fun (_, rest) =>
      (splitAtByte? (stop - start) rest).map Prod.fst
  else none

/-- The bytes of the text. -/
def bytes (s : List Char) : List UInt8 :=
  s.flatMap String.utf8EncodeChar

/-- The offset is between two characters of the text, or at one of its ends. -/
def IsBoundary (s : List Char) (n : Nat) : Prop :=
  ∃ a b, a ++ b = s ∧ utf8Len a = n

variable {s a b t : List Char} {n start stop : Nat}

theorem bytes_eq_toByteArray : bytes s = (String.ofList s).toByteArray.data.toList := by
  rw [String.toByteArray_ofList, List.utf8Encode, List.toList_data_toByteArray, bytes]

theorem isBoundary_iff_isValid :
    IsBoundary s n ↔ (⟨n⟩ : String.Pos.Raw).IsValid (String.ofList s) := by
  rw [String.Pos.Raw.isValid_iff_exists_append]
  constructor
  · rintro ⟨a, b, rfl, rfl⟩
    exact ⟨String.ofList a, String.ofList b, String.ofList_append, by simp⟩
  · rintro ⟨a, b, hs, hn⟩
    refine ⟨a.toList, b.toList, ?_, ?_⟩
    · rw [← String.toList_append, ← hs, String.toList_ofList]
    · rw [String.utf8Len_toList]
      exact (congrArg String.Pos.Raw.byteIdx hn).symm

theorem IsBoundary.le (h : IsBoundary s n) : n ≤ utf8Len s := by
  obtain ⟨a, b, rfl, rfl⟩ := h
  simp

theorem splitAtByte?_utf8Len_append (a b : List Char) :
    splitAtByte? (utf8Len a) (a ++ b) = some (a, b) := by
  induction a with
  | nil => cases b <;> simp [splitAtByte?]
  | cons c a ih =>
      have hpos : utf8Len a + c.utf8Size ≠ 0 := by
        have hc := c.utf8Size_pos
        omega
      rw [List.cons_append, String.utf8Len_cons, splitAtByte?, if_neg hpos,
        if_pos (Nat.le_add_left _ _), Nat.add_sub_cancel, ih]
      rfl

theorem append_of_splitAtByte?_eq_some (h : splitAtByte? n s = some (a, b)) :
    a ++ b = s ∧ utf8Len a = n := by
  fun_induction splitAtByte? n s generalizing a with
  | case1 => cases h; exact ⟨rfl, String.utf8Len_nil⟩
  | case2 => cases h
  | case3 => cases h; exact ⟨rfl, String.utf8Len_nil⟩
  | case4 n c s _ hfits ih =>
      obtain ⟨⟨a', b'⟩, hcut, heq⟩ := Option.map_eq_some_iff.1 h
      cases heq
      obtain ⟨happend, hlength⟩ := ih hcut
      refine ⟨congrArg (c :: ·) happend, ?_⟩
      rw [String.utf8Len_cons, hlength]
      omega
  | case5 => cases h

theorem splitAtByte?_eq_some_iff :
    splitAtByte? n s = some (a, b) ↔ a ++ b = s ∧ utf8Len a = n := by
  constructor
  · exact append_of_splitAtByte?_eq_some
  · rintro ⟨rfl, rfl⟩
    exact splitAtByte?_utf8Len_append a b

theorem slice?_eq_some_iff : slice? s start stop = some t ↔
    ∃ a b, a ++ t ++ b = s ∧ utf8Len a = start ∧ utf8Len (a ++ t) = stop := by
  constructor
  · intro h
    rw [slice?] at h
    split at h
    next hle =>
      obtain ⟨⟨a, rest⟩, hrest, hmap⟩ := Option.bind_eq_some_iff.1 h
      obtain ⟨⟨_, b⟩, hpart, rfl⟩ := Option.map_eq_some_iff.1 hmap
      obtain ⟨rfl, rfl⟩ := append_of_splitAtByte?_eq_some hrest
      obtain ⟨rfl, hlength⟩ := append_of_splitAtByte?_eq_some hpart
      refine ⟨a, b, List.append_assoc _ _ _, rfl, ?_⟩
      rw [String.utf8Len_append, hlength]
      omega
    next => cases h
  · rintro ⟨a, b, rfl, rfl, rfl⟩
    rw [slice?, String.utf8Len_append, if_pos (Nat.le_add_right _ _), Nat.add_sub_cancel_left,
      List.append_assoc, splitAtByte?_utf8Len_append, Option.bind_some]
    dsimp only
    rw [splitAtByte?_utf8Len_append, Option.map_some]

/-- There is a part between two offsets if and only if they are boundaries and in order. -/
theorem isSome_slice?_iff : (slice? s start stop).isSome ↔
    start ≤ stop ∧ IsBoundary s start ∧ IsBoundary s stop := by
  constructor
  · intro h
    obtain ⟨t, ht⟩ := Option.isSome_iff_exists.1 h
    obtain ⟨a, b, rfl, rfl, rfl⟩ := slice?_eq_some_iff.1 ht
    exact ⟨by simp, ⟨a, t ++ b, by simp, rfl⟩, ⟨a ++ t, b, rfl, rfl⟩⟩
  · rintro ⟨hle, ⟨a, rest, hrest, rfl⟩, ⟨whole, b, rfl, rfl⟩⟩
    obtain ⟨t, ht⟩ : ∃ t, a ++ t = whole := by
      rcases List.append_eq_append_iff.1 hrest with ⟨t, rfl, -⟩ | ⟨t, rfl, -⟩
      · exact ⟨t, rfl⟩
      · -- The first offset is not behind the second one, so nothing is between them.
        rw [String.utf8Len_append] at hle
        have ht : t = [] := String.utf8Len_eq_zero.1 (by omega)
        exact ⟨[], by simp [ht]⟩
    subst ht
    exact Option.isSome_iff_exists.2 ⟨t, slice?_eq_some_iff.2 ⟨a, b, rfl, rfl, rfl⟩⟩

end SqlTemplate.Text

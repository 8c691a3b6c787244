/-!
# Blanks

`isBlank` is the Unicode property of white space. A text is a list of characters
here; `trimStart`, `trimEnd` and `trim` remove the blanks at its ends and nothing
else, so what is removed is always a prefix and a suffix of blanks
(`blanks_append_trimStart`, `trimEnd_append_blanks`).
-/

namespace SqlTemplate.Text

/-- The characters with the Unicode property of white space. -/
def isBlank (c : Char) : Bool :=
  let n := c.toNat
  (9 ≤ n && n ≤ 13) || n == 0x20 || n == 0x85 || n == 0xA0 || n == 0x1680
    || (0x2000 ≤ n && n ≤ 0x200A) || n == 0x2028 || n == 0x2029 || n == 0x202F
    || n == 0x205F || n == 0x3000

/-- The text without the blanks it starts with. -/
def trimStart (s : List Char) : List Char :=
  s.dropWhile isBlank

/-- The text without the blanks it ends with. -/
def trimEnd : List Char → List Char
  | [] => []
  | c :: s =>
    match trimEnd s with
    | [] => if isBlank c then [] else [c]
    | d :: t => c :: d :: t

/-- The text without the blanks at either end. -/
def trim (s : List Char) : List Char :=
  trimEnd (trimStart s)

@[simp] theorem trimStart_nil : trimStart [] = [] := rfl

@[simp] theorem trimEnd_nil : trimEnd [] = [] := rfl

@[simp] theorem trim_nil : trim [] = [] := rfl

theorem trimStart_cons (c : Char) (s : List Char) :
    trimStart (c :: s) = if isBlank c then trimStart s else c :: s := by
  by_cases h : isBlank c <;> simp [trimStart, h]

/-- Nothing but blanks is lost at the start. -/
theorem blanks_append_trimStart (s : List Char) :
    s.takeWhile isBlank ++ trimStart s = s :=
  List.takeWhile_append_dropWhile

/-- Nothing but blanks is lost at the end. -/
theorem trimEnd_append_blanks (s : List Char) :
    ∃ t, trimEnd s ++ t = s ∧ ∀ c ∈ t, isBlank c := by
  induction s with
  | nil => exact ⟨[], rfl, by simp⟩
  | cons c s ih =>
    obtain ⟨t, ht, hb⟩ := ih
    rw [trimEnd]
    split
    next h =>
      rw [h, List.nil_append] at ht
      by_cases hc : isBlank c
      · refine ⟨c :: s, by simp [hc], ?_⟩
        intro x hx
        rcases List.mem_cons.1 hx with rfl | hx
        · exact hc
        · exact hb x (ht ▸ hx)
      · exact ⟨s, by simp [hc], ht ▸ hb⟩
    next d r h =>
      rw [h] at ht
      exact ⟨t, by simp [← ht], hb⟩

end SqlTemplate.Text

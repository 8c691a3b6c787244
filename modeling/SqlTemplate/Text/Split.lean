/-!
# Cutting texts

A text is cut at the first occurrence of another text (`cutAt?`) or of a character
(`cutAtChar?`), or at every occurrence of a character (`fields`). The separators are
dropped, the rest is kept in order: joining the parts with the separator gives the text
back (`append_of_cutAt?_eq_some`, `intercalate_fields`).
-/

namespace SqlTemplate.Text

/-- What is left of `s` after the text `p` at its start. -/
def dropStart? : List Char → List Char → Option (List Char)
  | [], s => some s
  | _ :: _, [] => none
  | p :: ps, c :: s => if p = c then dropStart? ps s else none

def startsWith (p s : List Char) : Bool :=
  (dropStart? p s).isSome

/-- What is left of `s` before the text `p` at its end. -/
def dropEnd? (p s : List Char) : Option (List Char) :=
  (dropStart? p.reverse s.reverse).map List.reverse

/-- The parts of `s` before and after the first occurrence of `sep`. -/
def cutAt? (sep : List Char) : List Char → Option (List Char × List Char)
  | [] => if sep = [] then some ([], []) else none
  | c :: s =>
    match dropStart? sep (c :: s) with
    | some rest => some ([], rest)
    | none => (cutAt? sep s).map fun (before, rest) => (c :: before, rest)

def occurs (part s : List Char) : Bool :=
  (cutAt? part s).isSome

/-- The parts of `s` between the occurrences of the character `sep`. -/
def fields (sep : Char) : List Char → List (List Char)
  | [] => [[]]
  | c :: s =>
    if c = sep then [] :: fields sep s
    else
      match fields sep s with
      | [] => [[c]]
      | first :: rest => (c :: first) :: rest

/-- The parts of `s` before and after the first occurrence of the character `sep`. -/
def cutAtChar? (sep : Char) : List Char → Option (List Char × List Char)
  | [] => none
  | c :: s =>
    if c = sep then some ([], s)
    else (cutAtChar? sep s).map fun (before, rest) => (c :: before, rest)

/-- Puts a character before the first part of a cut. -/
def consCut (c : Char) (cut : Option (List Char × List Char)) :
    Option (List Char × List Char) :=
  cut.map fun (before, rest) => (c :: before, rest)

theorem append_of_dropStart?_eq_some {p s r : List Char} (h : dropStart? p s = some r) :
    p ++ r = s := by
  induction p generalizing s with
  | nil => simpa [dropStart?] using h.symm
  | cons a p ih =>
    cases s with
    | nil => simp [dropStart?] at h
    | cons c s =>
      rw [dropStart?] at h
      split at h
      next hac => rw [hac, List.cons_append, ih h]
      next => simp at h

@[simp] theorem dropStart?_append (p s : List Char) : dropStart? p (p ++ s) = some s := by
  induction p with
  | nil => rfl
  | cons a p ih => simp [dropStart?, ih]

/-- A cut loses the separator only. -/
theorem append_of_cutAt?_eq_some {sep s a b : List Char} (h : cutAt? sep s = some (a, b)) :
    a ++ sep ++ b = s := by
  induction s generalizing a b with
  | nil =>
    rw [cutAt?] at h
    split at h
    next hs => simp_all
    next => simp at h
  | cons c s ih =>
    rw [cutAt?] at h
    split at h
    next r hr =>
      simp only [Option.some.injEq, Prod.mk.injEq] at h
      obtain ⟨rfl, rfl⟩ := h
      simpa using append_of_dropStart?_eq_some hr
    next =>
      obtain ⟨⟨a', b'⟩, h', he⟩ := Option.map_eq_some_iff.1 h
      simp only [Prod.mk.injEq] at he
      obtain ⟨rfl, rfl⟩ := he
      simpa using ih h'

theorem fields_ne_nil (sep : Char) (s : List Char) : fields sep s ≠ [] := by
  cases s with
  | nil => simp [fields]
  | cons c s =>
    rw [fields]
    split
    · simp
    · split <;> simp

/-- The fields of a text, joined with the separator, are the text. -/
theorem intercalate_fields (sep : Char) (s : List Char) :
    [sep].intercalate (fields sep s) = s := by
  induction s with
  | nil => rfl
  | cons c s ih =>
    rw [fields]
    split
    next hc =>
      subst hc
      cases hf : fields c s with
      | nil => exact absurd hf (fields_ne_nil c s)
      | cons f r => rw [hf] at ih; simp [← ih, List.intercalate]
    next hc =>
      cases hf : fields sep s with
      | nil => exact absurd hf (fields_ne_nil sep s)
      | cons f r =>
        rw [hf] at ih
        cases r with
        | nil => simpa [List.intercalate] using ih
        | cons g r => simpa [List.intercalate] using ih

end SqlTemplate.Text

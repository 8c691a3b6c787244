import Mathlib
import SqlTemplate.Config.Basic
import SqlTemplate.Like

/-!
# What LIKE patterns match

`Like.Matches` gives LIKE patterns their meaning in SQL, by one rule for each thing that can stand
at the start of a pattern: the wildcard for any text, the wildcard for any one character, an escape
character with the character that it takes literally, and every other character. A pattern that ends
with an escape character matches nothing. `Like.isMatch` decides the relation by trying all ends of
the text behind a wildcard (`isMatch_iff`).

A text whose wildcards are escaped matches itself and nothing else, whatever pattern stands behind
it (`matches_escapeWildcards_append_iff`). So the pattern that an option makes of a text finds the
text where the option says (`matches_apply_iff`).
-/

namespace SqlTemplate

namespace Like

/-- The text matches the pattern, with the given escape character. -/
inductive Matches (escape : Char) : List Char → List Char → Prop where
  | nil : Matches escape [] []
  | anyText {p t : List Char} (hescape : anyText ≠ escape) (skipped : List Char)
      (h : Matches escape p t) : Matches escape (anyText :: p) (skipped ++ t)
  | anyChar {p t : List Char} (hescape : anyChar ≠ escape) (c : Char)
      (h : Matches escape p t) : Matches escape (anyChar :: p) (c :: t)
  | escaped {p t : List Char} (c : Char) (h : Matches escape p t) :
      Matches escape (escape :: c :: p) (c :: t)
  | plain {c : Char} {p t : List Char} (hc : c ≠ escape ∧ c ≠ anyText ∧ c ≠ anyChar)
      (h : Matches escape p t) : Matches escape (c :: p) (c :: t)

/-- Where a text is found in another one. -/
def Finds (like : Like) (s t : List Char) : Prop :=
  match like with
  | .startsWith => s <+: t
  | .endsWith => s <:+ t
  | .contains => s <:+: t

section Rules

variable {escape : Char} {p t : List Char}

theorem matches_nil_iff : Matches escape [] t ↔ t = [] := by
  constructor
  · intro h
    cases h
    rfl
  · rintro rfl
    exact .nil

theorem matches_anyText_iff (h : escape ≠ anyText) :
    Matches escape (anyText :: p) t ↔ ∃ u, u <:+ t ∧ Matches escape p u := by
  constructor
  · intro hmatch
    cases hmatch with
    | anyText _ skipped hp => exact ⟨_, List.suffix_append skipped _, hp⟩
    | escaped => exact absurd rfl h
    | plain hc => exact absurd rfl hc.2.1
  · rintro ⟨u, ⟨skipped, rfl⟩, hp⟩
    exact .anyText h.symm skipped hp

theorem matches_anyChar_iff (h : escape ≠ anyChar) :
    Matches escape (anyChar :: p) t ↔ ∃ c u, t = c :: u ∧ Matches escape p u := by
  constructor
  · intro hmatch
    cases hmatch with
    | anyChar _ c hp => exact ⟨c, _, rfl, hp⟩
    | escaped => exact absurd rfl h
    | plain hc => exact absurd rfl hc.2.2
  · rintro ⟨c, u, rfl, hp⟩
    exact .anyChar h.symm c hp

theorem matches_escape_iff (c : Char) :
    Matches escape (escape :: c :: p) t ↔ ∃ u, t = c :: u ∧ Matches escape p u := by
  constructor
  · intro hmatch
    cases hmatch with
    | anyText hescape => exact absurd rfl hescape
    | anyChar hescape => exact absurd rfl hescape
    | escaped _ hp => exact ⟨_, rfl, hp⟩
    | plain hc => exact absurd rfl hc.1
  · rintro ⟨u, rfl, hp⟩
    exact .escaped c hp

/-- Behind the escape character a character has to come. -/
theorem not_matches_escape : ¬ Matches escape [escape] t := by
  intro hmatch
  cases hmatch with
  | anyText hescape => exact absurd rfl hescape
  | anyChar hescape => exact absurd rfl hescape
  | plain hc => exact absurd rfl hc.1

theorem matches_plain_iff {c : Char} (hc : c ≠ escape ∧ c ≠ anyText ∧ c ≠ anyChar) :
    Matches escape (c :: p) t ↔ ∃ u, t = c :: u ∧ Matches escape p u := by
  constructor
  · intro hmatch
    cases hmatch with
    | anyText => exact absurd rfl hc.2.1
    | anyChar => exact absurd rfl hc.2.2
    | escaped => exact absurd rfl hc.1
    | plain _ hp => exact ⟨_, rfl, hp⟩
  · rintro ⟨u, rfl, hp⟩
    exact .plain hc hp

end Rules

/-- Whether the text matches the pattern. -/
def isMatch (escape : Char) : List Char → List Char → Bool
  | [], t => t.isEmpty
  | c :: p, t =>
    if c = escape then
      match p, t with
      | d :: p, e :: t => d == e && isMatch escape p t
      | _, _ => false
    else if c = anyText then t.tails.any fun u => isMatch escape p u
    else
      match t with
      | e :: t => (c == anyChar || c == e) && isMatch escape p t
      | [] => false

theorem isMatch_iff (escape : Char) (p t : List Char) :
    isMatch escape p t = true ↔ Matches escape p t := by
  fun_induction isMatch escape p t with
  | case1 t => rw [matches_nil_iff, List.isEmpty_iff]
  | case2 d p e t ih =>
      rw [matches_escape_iff, Bool.and_eq_true, beq_iff_eq, ih]
      simp [eq_comm]
  | case3 p t hshort =>
      -- The pattern or the text ends behind the escape character.
      refine iff_of_false Bool.false_ne_true fun hmatch => ?_
      cases p with
      | nil => exact not_matches_escape hmatch
      | cons d p =>
          obtain ⟨u, rfl, -⟩ := (matches_escape_iff d).1 hmatch
          exact hshort d p d u rfl rfl
  | case4 p t hescape ih =>
      rw [matches_anyText_iff (Ne.symm hescape), List.any_eq_true]
      simp only [List.mem_tails, ih]
  | case5 c p hescape htext e t ih =>
      rw [Bool.and_eq_true, Bool.or_eq_true, beq_iff_eq, beq_iff_eq, ih]
      by_cases hchar : c = anyChar
      · subst hchar
        rw [matches_anyChar_iff (Ne.symm hescape)]
        simp
      · rw [matches_plain_iff ⟨hescape, htext, hchar⟩]
        simp [hchar, eq_comm]
  | case6 c p hescape htext =>
      by_cases hchar : c = anyChar
      · subst hchar
        rw [matches_anyChar_iff (Ne.symm hescape)]
        simp
      · rw [matches_plain_iff ⟨hescape, htext, hchar⟩]
        simp

instance (escape : Char) (p t : List Char) : Decidable (Matches escape p t) :=
  decidable_of_iff _ (isMatch_iff escape p t)

example : Matches '|' "a|%_%".toList "a%bcd".toList ∧
    ¬ Matches '|' "a|%_%".toList "abcd".toList := by decide

section Escaping

variable {escape : Char}

/-- A text with its wildcards escaped matches itself, in front of any pattern. -/
theorem matches_escapeWildcards_append_iff {s p t : List Char} :
    Matches escape (escapeWildcards escape s ++ p) t ↔ ∃ u, t = s ++ u ∧ Matches escape p u := by
  induction s generalizing t with
  | nil => simp
  | cons c s ih =>
      -- However the character is written, it matches itself alone.
      have hhead : ∀ q, Matches escape (escapeWildcards escape [c] ++ q) t ↔
          ∃ u, t = c :: u ∧ Matches escape q u := by
        intro q
        by_cases hspecial : c = escape ∨ c = anyText ∨ c = anyChar
        · have hpair : escapeWildcards escape [c] = [escape, c] := by
            simp [escapeWildcards, hspecial]
          rw [hpair]
          exact matches_escape_iff c
        · have hsame : escapeWildcards escape [c] = [c] := by simp [escapeWildcards, hspecial]
          rw [hsame]
          exact matches_plain_iff (by simpa using hspecial)
      have hcons : escapeWildcards escape (c :: s) =
          escapeWildcards escape [c] ++ escapeWildcards escape s :=
        escapeWildcards_append escape [c] s
      rw [hcons, List.append_assoc, hhead]
      constructor
      · rintro ⟨v, rfl, hv⟩
        obtain ⟨u, rfl, hu⟩ := ih.1 hv
        exact ⟨u, rfl, hu⟩
      · rintro ⟨u, rfl, hu⟩
        exact ⟨s ++ u, rfl, ih.2 ⟨u, rfl, hu⟩⟩

/-- A text with its wildcards escaped matches nothing but itself. -/
theorem matches_escapeWildcards_iff {s t : List Char} :
    Matches escape (escapeWildcards escape s) t ↔ t = s := by
  rw [← List.append_nil (escapeWildcards escape s), matches_escapeWildcards_append_iff]
  simp [matches_nil_iff]

/-- The wildcard for any text matches every text at the end of a pattern. -/
theorem matches_anyText (h : escape ≠ anyText) (t : List Char) : Matches escape [anyText] t := by
  rw [matches_anyText_iff h]
  exact ⟨[], List.nil_suffix, .nil⟩

end Escaping

/-- The pattern for a text matches the texts in which it is found where the option says. -/
theorem matches_apply_iff (like : Like) {escape : Char} (htext : escape ≠ anyText)
    (s t : String) :
    Matches escape (like.apply escape s).toList t.toList ↔ like.Finds s.toList t.toList := by
  rw [apply, String.toList_ofList]
  cases like with
  | startsWith =>
      rw [pattern, matches_escapeWildcards_append_iff]
      constructor
      · rintro ⟨u, ht, -⟩
        exact ⟨u, ht.symm⟩
      · rintro ⟨u, ht⟩
        exact ⟨u, ht.symm, matches_anyText htext u⟩
  | endsWith =>
      rw [pattern, matches_anyText_iff htext]
      simp only [matches_escapeWildcards_iff, exists_eq_right]
      rfl
  | contains =>
      rw [pattern, matches_anyText_iff htext]
      simp only [matches_escapeWildcards_append_iff]
      constructor
      · rintro ⟨_, ⟨skipped, ht⟩, u, rfl, -⟩
        exact ⟨skipped, u, by rw [← ht, List.append_assoc]⟩
      · rintro ⟨skipped, u, ht⟩
        refine ⟨s.toList ++ u, ⟨skipped, ?_⟩, u, rfl, matches_anyText htext u⟩
        rw [← ht, List.append_assoc]

end Like

/-- The escape character of a configuration that is not refused is no wildcard. -/
theorem Config.likeEscape_ne_anyText {c d : Config} (h : c.validate = .ok d) :
    d.likeEscape ≠ Like.anyText := by
  rw [validate] at h
  split at h
  next => cases h
  next =>
    split at h
    next => cases h
    next hfit =>
      cases h
      intro hescape
      exact hfit (by simp [isUnfitEscape, hescape])

namespace Like

/-- Wildcards and escape characters of the text stand for themselves. -/
theorem matches_apply_iff_wildcards :
    ('|' : Char) ≠ anyText ∧ contains.apply '|' "5%_|" = "%5|%|_||%" ∧
      Matches '|' (contains.apply '|' "5%_|").toList "15%_||".toList ∧
      ¬ Matches '|' (contains.apply '|' "5%_|").toList "15%x||".toList := by
  have hescape : ('|' : Char) ≠ anyText :=
    Config.likeEscape_ne_anyText (c := {}) (d := {}) rfl
  have hfound : contains.Finds "5%_|".toList "15%_||".toList := ⟨['1'], ['|'], by decide⟩
  have hmissing : ¬ contains.Finds "5%_|".toList "15%x||".toList := by
    change ¬ "5%_|".toList <:+: "15%x||".toList
    decide
  refine ⟨hescape, by decide, (matches_apply_iff _ hescape _ _).2 hfound, ?_⟩
  exact fun h => hmissing ((matches_apply_iff _ hescape _ _).1 h)

end Like

end SqlTemplate

import Mathlib
import SqlTemplate.Proofs.Trimming

/-!
# Numerals

A numeral is an optional minus sign and digits, with digits behind a point or without. The digits
that are read are put onto the number before them, and while that number fits it is exact
(`Decimal.readDigits_whole`, `Decimal.readDigits_places`). So a numeral is read as the decimal it
denotes (`Numeral.ofText?_text`).
-/

namespace SqlTemplate

theorem Text.toLower_of_isDigit {c : Char} (h : c.isDigit = true) : c.toLower = c := by
  rw [Char.toLower]
  split
  next hupper =>
    simp [Char.isDigit, UInt32.le_iff_toNat_le] at h hupper
    omega
  next => rfl

theorem Text.isBlank_eq_false_of_isDigit {c : Char} (h : c.isDigit = true) :
    isBlank c = false := by
  have hdigit : 48 ≤ c.toNat ∧ c.toNat ≤ 57 := by
    simpa [Char.isDigit, UInt32.le_iff_toNat_le] using h
  simp [isBlank]
  omega

theorem Term.isDigit_of_isDigits {ds : List Char} (h : isDigits ds = true) :
    ds ≠ [] ∧ ∀ c ∈ ds, c.isDigit = true := by
  rw [isDigits, Bool.and_eq_true, List.all_eq_true] at h
  refine ⟨?_, h.2⟩
  rintro rfl
  cases h.1

/-- A number may have a minus sign. -/
theorem Term.isNumber_sign {s : List Char} (h : ∀ r, s = '-' :: r → False) :
    isNumber ('-' :: s) = isNumber s :=
  (isNumber.eq_1 s).trans (isNumber.eq_2 s h).symm

namespace Number

open Text (digitsValue digitValue)

/-- The number that digits make of the one before them. -/
def digitsOnto (n : Nat) (ds : List Char) : Nat :=
  ds.foldl (fun n c => n * 10 + digitValue c) n

theorem digitsOnto_append (n : Nat) (ds es : List Char) :
    digitsOnto n (ds ++ es) = digitsOnto (digitsOnto n ds) es :=
  List.foldl_append

theorem le_digitsOnto (n : Nat) (ds : List Char) : n ≤ digitsOnto n ds := by
  induction ds generalizing n with
  | nil => exact Nat.le_refl n
  | cons c ds ih => exact Nat.le_trans (by omega) (ih (n * 10 + digitValue c))

namespace Decimal

section Digits

variable {mantissa scale : Nat} {ds : List Char}

theorem readDigits_whole (hds : ∀ c ∈ ds, c.isDigit = true)
    (hfits : digitsOnto mantissa ds < Nat.pow 2 96) (scale : Nat) (rest : List Char) :
    readDigits mantissa scale false (ds ++ rest) =
      readDigits (digitsOnto mantissa ds) scale false rest := by
  induction ds generalizing mantissa with
  | nil => rfl
  | cons c ds ih =>
      rw [List.forall_mem_cons] at hds
      have hpoint : c ≠ '.' := by
        rintro rfl
        exact absurd hds.1 (by decide)
      have hnext : ¬ Nat.pow 2 96 ≤ mantissa * 10 + (c.toNat - '0'.toNat) :=
        Nat.not_le.2 (Nat.lt_of_le_of_lt (le_digitsOnto _ ds) hfits)
      rw [List.cons_append, readDigits, if_neg hpoint, if_neg (by simp [hds.1])]
      dsimp only
      rw [if_neg hnext, if_pos (by rfl)]
      exact ih hds.2 hfits

theorem readDigits_places (hds : ∀ c ∈ ds, c.isDigit = true)
    (hfits : digitsOnto mantissa ds < Nat.pow 2 96) (hscale : scale + ds.length ≤ maxScale) :
    readDigits mantissa scale true ds = some (digitsOnto mantissa ds, scale + ds.length) := by
  induction ds generalizing mantissa scale with
  | nil => rfl
  | cons c ds ih =>
      rw [List.forall_mem_cons] at hds
      have hpoint : c ≠ '.' := by
        rintro rfl
        exact absurd hds.1 (by decide)
      have hnext : ¬ Nat.pow 2 96 ≤ mantissa * 10 + (c.toNat - '0'.toNat) :=
        Nat.not_le.2 (Nat.lt_of_le_of_lt (le_digitsOnto _ ds) hfits)
      rw [List.length_cons] at hscale ⊢
      rw [readDigits, if_neg hpoint, if_neg (by simp [hds.1])]
      dsimp only
      rw [if_neg hnext, if_neg (by simp)]
      by_cases hroom : scale + 1 < maxScale
      · have hrest : readDigits (mantissa * 10 + (c.toNat - '0'.toNat)) (scale + 1) true ds =
            some (digitsOnto mantissa (c :: ds), scale + 1 + ds.length) :=
          ih hds.2 hfits (by omega)
        rw [if_pos hroom, hrest, Nat.add_right_comm, Nat.add_assoc]
      · -- There is room for no further place, and no digit is left.
        have hnil : ds = [] := List.length_eq_zero_iff.1 (by omega)
        subst hnil
        rw [if_neg hroom]
        rfl

end Digits

end Decimal

/-- A number as it is written: digits before the point and behind it, of which there may be none
behind it, and then there is no point. -/
structure Numeral where
  negative : Bool
  whole : List Char
  places : List Char
  whole_ne_nil : whole ≠ []
  isDigit_whole : ∀ c ∈ whole, c.isDigit = true
  isDigit_places : ∀ c ∈ places, c.isDigit = true

namespace Numeral

/-- The digits and the point. -/
def unsigned (n : Numeral) : List Char :=
  n.whole ++ if n.places = [] then [] else '.' :: n.places

def text (n : Numeral) : List Char :=
  (if n.negative then ['-'] else []) ++ n.unsigned

/-- The number that is written, with as many places as are written. A zero has no sign. -/
structure Denotes (n : Numeral) (d : Decimal) : Prop where
  mantissa : d.mantissa = digitsValue (n.whole ++ n.places)
  scale : d.scale = n.places.length
  negative : d.negative = (n.negative && d.mantissa != 0)

variable {n : Numeral} {d : Decimal}

theorem exists_cons_of_unsigned (n : Numeral) :
    ∃ c s, n.unsigned = c :: s ∧ c.isDigit = true := by
  obtain ⟨c, s, hwhole⟩ := List.exists_cons_of_ne_nil n.whole_ne_nil
  refine ⟨c, _, by rw [unsigned, hwhole, List.cons_append], n.isDigit_whole c ?_⟩
  rw [hwhole]
  exact List.mem_cons_self

theorem readDigits_unsigned (h : n.Denotes d) :
    Decimal.readDigits 0 0 false n.unsigned = some (d.mantissa, d.scale) := by
  have hvalue : digitsOnto (digitsOnto 0 n.whole) n.places = d.mantissa := by
    rw [← digitsOnto_append, h.mantissa]
    rfl
  have hplaces : digitsOnto (digitsOnto 0 n.whole) n.places < Nat.pow 2 96 := by
    rw [hvalue]
    exact d.mantissa_lt
  have hwhole : digitsOnto 0 n.whole < Nat.pow 2 96 :=
    Nat.lt_of_le_of_lt (le_digitsOnto _ n.places) hplaces
  rw [unsigned, Decimal.readDigits_whole n.isDigit_whole hwhole]
  by_cases hpoint : n.places = []
  · rw [if_pos hpoint, ← hvalue, h.scale, hpoint]
    rfl
  · have hscale : 0 + n.places.length ≤ Decimal.maxScale := by
      rw [Nat.zero_add, ← h.scale]
      exact d.scale_le
    rw [if_neg hpoint, Decimal.readDigits, if_pos rfl, if_neg Bool.false_ne_true,
      Decimal.readDigits_places n.isDigit_places hplaces hscale, hvalue, h.scale, Nat.zero_add]

/-- A numeral is read as the decimal it denotes. -/
theorem ofText?_text (h : n.Denotes d) : Decimal.ofText? n.text 0 = some d := by
  obtain ⟨c, s, hunsigned, hc⟩ := n.exists_cons_of_unsigned
  have hsign : c ≠ '-' := by
    rintro rfl
    exact absurd hc (by decide)
  have hparts : Decimal.ofParts? (n.negative && d.mantissa != 0) d.mantissa d.scale = some d := by
    rw [← h.negative, Decimal.ofParts?, dif_pos ⟨d.mantissa_lt, d.scale_le⟩]
  have hdigits := readDigits_unsigned h
  rw [hunsigned] at hdigits
  rw [text, hunsigned]
  cases hnegative : n.negative with
  | true =>
      rw [hnegative, Bool.true_and] at hparts
      simp [Decimal.ofText?, hdigits, hparts]
  | false =>
      rw [hnegative, Bool.false_and] at hparts
      simp [Decimal.ofText?, hsign, hdigits, hparts]

theorem isDigits_of_forall {ds : List Char} (hne : ds ≠ []) (h : ∀ c ∈ ds, c.isDigit = true) :
    Term.isDigits ds = true := by
  rw [Term.isDigits, List.isEmpty_eq_false_iff.2 hne, List.all_eq_true.2 h]
  rfl

theorem point_not_mem {ds : List Char} (h : ∀ c ∈ ds, c.isDigit = true) : '.' ∉ ds :=
  fun hmem => absurd (h '.' hmem) (by decide)

/-- A numeral has the form of a number. -/
theorem isNumber_text (n : Numeral) : Term.isNumber n.text = true := by
  have hsign : ∀ r, n.unsigned = '-' :: r → False := by
    intro r hr
    obtain ⟨c, s, hunsigned, hc⟩ := n.exists_cons_of_unsigned
    rw [(List.cons.inj (hunsigned.symm.trans hr)).1] at hc
    exact absurd hc (by decide)
  have hwhole := isDigits_of_forall n.whole_ne_nil n.isDigit_whole
  have hunsigned : Term.isNumber n.unsigned = true := by
    rw [Term.isNumber.eq_2 _ hsign, unsigned]
    by_cases hpoint : n.places = []
    · rw [if_pos hpoint, List.append_nil,
        (Text.cutAtChar?_eq_none_iff n.whole).2 (point_not_mem n.isDigit_whole)]
      exact hwhole
    · rw [if_neg hpoint, Text.cutAtChar?_append_cons (point_not_mem n.isDigit_whole)]
      dsimp only
      rw [hwhole, isDigits_of_forall hpoint n.isDigit_places]
      rfl
  rw [text]
  cases n.negative with
  | true => exact (Term.isNumber_sign hsign).trans hunsigned
  | false => exact hunsigned

theorem mem_text {c : Char} (h : c ∈ n.text) : c.isDigit = true ∨ c = '-' ∨ c = '.' := by
  rw [text, unsigned, List.mem_append, List.mem_append] at h
  rcases h with h | h | h
  · split at h
    next => exact .inr (.inl (List.mem_singleton.1 h))
    next => cases h
  · exact .inl (n.isDigit_whole c h)
  · split at h
    next => cases h
    next =>
      rcases List.mem_cons.1 h with rfl | h
      · exact .inr (.inr rfl)
      · exact .inl (n.isDigit_places c h)

end Numeral

end Number

end SqlTemplate

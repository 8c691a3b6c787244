import Mathlib
import SqlTemplate.Calendar.Basic
import SqlTemplate.Number.Decimal

/-!
# The orders of numbers and times

Decimals are compared by cross multiplication. That is the order of the rational numbers that they
denote (`Decimal.value`, `compare_eq`), so it is total, and equal are the decimals that denote one
number, whatever their scales. Of two equal binary numbers either both have a decimal or neither has
one. Times are compared field by field, which is a total order in which only equal times are equal.
-/

namespace SqlTemplate

namespace Number.Decimal

/-- The number that the decimal denotes. -/
def value (d : Decimal) : ℚ :=
  d.signed / 10 ^ d.scale

/-- The number that the decimal has at the scale of another one tells which is less. -/
theorem value_lt_iff (a b : Decimal) :
    a.value < b.value ↔ a.signed * Int.pow 10 b.scale < b.signed * Int.pow 10 a.scale := by
  rw [value, value, div_lt_div_iff₀ (by positivity) (by positivity)]
  exact_mod_cast Iff.rfl

theorem value_eq_iff (a b : Decimal) : a.value = b.value ↔ a.equals b = true := by
  rw [value, value, div_eq_div_iff (by positivity) (by positivity), equals, beq_iff_eq]
  exact_mod_cast Iff.rfl

/-- Decimals compare as the numbers that they denote. -/
theorem compare_eq (a b : Decimal) : a.compare b = Ord.compare a.value b.value := by
  rcases lt_trichotomy a.value b.value with h | h | h
  · rw [compare_lt_iff_lt.2 h, compare, compare_lt_iff_lt]
    exact (value_lt_iff a b).1 h
  · rw [compare_eq_iff_eq.2 h, compare_eq_iff]
    exact (value_eq_iff a b).1 h
  · rw [compare_gt_iff_gt.2 h, compare, compare_gt_iff_gt]
    exact (value_lt_iff b a).1 h

theorem equals_trans {a b c : Decimal} (hab : a.equals b = true) (hbc : b.equals c = true) :
    a.equals c = true := by
  rw [← value_eq_iff] at *
  exact hab.trans hbc

theorem halve_zero (n scale : Nat) : halve n 0 scale = (0, scale) := by
  induction n with
  | zero => rfl
  | succ n ih => simp [halve, ih]

/-- Both zeros are decimals. -/
theorem isSome_ofBinary64?_of_isZero {x : Binary64} (h : x.isZero = true) :
    (ofBinary64? x).isSome = true := by
  have hmagnitude : x.magnitude = 0 := eq_of_beq h
  have hfield : x.exponentField = 0 := by simp [Binary64.exponentField, hmagnitude]
  have hsignificand : x.significand = 0 := by
    simp [Binary64.significand, hfield, Binary64.fractionField, hmagnitude]
  have hexponent : x.exponent = -1074 := by simp [Binary64.exponent, hfield]
  simp [ofBinary64?, Binary64.isFinite, hfield, hexponent, hsignificand, halve_zero, limitScale,
    limitPrecision, dropZeros, ofParts?]

theorem isSome_ofBinary64?_of_equals {x y : Binary64} (h : x.equals y = true) :
    (ofBinary64? x).isSome = (ofBinary64? y).isSome := by
  simp only [Binary64.equals, Bool.and_eq_true, Bool.or_eq_true, beq_iff_eq] at h
  rcases h.2 with ⟨hx, hy⟩ | rfl
  · rw [isSome_ofBinary64?_of_isZero hx, isSome_ofBinary64?_of_isZero hy]
  · rfl

instance : Std.TransCmp compare := by
  have h : compare = compareOn value := funext fun a => funext fun b => compare_eq a b
  rw [h]
  infer_instance

end Number.Decimal

namespace Calendar

instance : Std.TransCmp Date.compare :=
  inferInstanceAs (Std.TransCmp (compareLex (compareOn Date.year)
    (compareLex (compareOn Date.month) (compareOn Date.day))))

instance : Std.TransCmp Time.compare :=
  inferInstanceAs (Std.TransCmp (compareLex (compareOn Time.hour)
    (compareLex (compareOn Time.minute)
      (compareLex (compareOn Time.second) (compareOn Time.nanosecond)))))

instance : Std.TransCmp fun a b : DateTime => a.date.compare b.date where
  eq_swap := Std.OrientedCmp.eq_swap
  isLE_trans := Std.TransCmp.isLE_trans

instance : Std.TransCmp fun a b : DateTime => a.time.compare b.time where
  eq_swap := Std.OrientedCmp.eq_swap
  isLE_trans := Std.TransCmp.isLE_trans

instance : Std.TransCmp DateTime.compare :=
  inferInstanceAs (Std.TransCmp (compareLex
    (fun a b : DateTime => a.date.compare b.date) fun a b : DateTime => a.time.compare b.time))

theorem DateTime.compare_eq_iff (a b : DateTime) : a.compare b = .eq ↔ a = b := by
  obtain ⟨⟨year, month, day⟩, ⟨hour, minute, second, nanosecond⟩⟩ := a
  obtain ⟨⟨year', month', day'⟩, ⟨hour', minute', second', nanosecond'⟩⟩ := b
  simp only [compare, Date.compare, Time.compare, Ordering.then_eq_eq, compare_eq_iff_eq, mk.injEq,
    Date.mk.injEq, Time.mk.injEq]

end Calendar

end SqlTemplate

import Mathlib
import SqlTemplate.Calendar.Reading

/-!
# Texts of dates

What dates and times are written with: digits, blanks and a few marks. Every reader takes nothing
else from the start of a text (`Calendar.Reads`), so a text that is read as a whole holds nothing
else (`Calendar.DateTime.isDateChar_of_ofLiteral?_eq_some`).
-/

namespace SqlTemplate.Calendar

/-- What dates and times are written with. -/
def IsDateChar (c : Char) : Prop :=
  c.isDigit = true ∨ Text.isBlank c = true ∨ c ∈ ['+', '-', '/', ':', '.']

/-- What is not left over of a text is what dates and times are written with. -/
def Reads (s rest : List Char) : Prop :=
  ∀ c ∈ s, IsDateChar c ∨ c ∈ rest

variable {s rest t : List Char} {c mark : Char}

theorem Reads.refl (s : List Char) : Reads s s :=
  fun _ hc => .inr hc

theorem Reads.trans (hs : Reads s rest) (hrest : Reads rest t) : Reads s t :=
  fun c hc => (hs c hc).elim .inl (hrest c)

theorem Reads.cons (hc : IsDateChar c) (hs : Reads s rest) : Reads (c :: s) rest :=
  List.forall_mem_cons.2 ⟨.inl hc, hs⟩

theorem reads_append (hs : ∀ c ∈ s, IsDateChar c) (rest : List Char) : Reads (s ++ rest) rest :=
  fun c hc => (List.mem_append.1 hc).imp_left (hs c)

theorem reads_trimStart (s : List Char) : Reads s (Text.trimStart s) := by
  have hblanks : ∀ c ∈ s.takeWhile Text.isBlank, IsDateChar c :=
    fun c hc => .inr (.inl (List.mem_takeWhile_imp hc))
  have hreads := reads_append hblanks (Text.trimStart s)
  rwa [Text.blanks_append_trimStart] at hreads

theorem reads_takeDigits (limit : Nat) (s : List Char) : Reads s (Text.takeDigits limit s).2 := by
  have hdigits : ∀ c ∈ (Text.takeDigits limit s).1, IsDateChar c :=
    fun c hc => .inl (List.all_eq_true.1 (Text.all_isDigit_takeDigits limit s) c hc)
  have hreads := reads_append hdigits (Text.takeDigits limit s).2
  rwa [Text.takeDigits_append] at hreads

theorem reads_of_readNumber {width n : Nat} (h : readNumber width s = some (n, rest)) :
    Reads s rest := by
  have hreads := (reads_trimStart s).trans (reads_takeDigits width (Text.trimStart s))
  rw [readNumber] at h
  split at h
  next => cases h
  next hdigits =>
    cases h
    rwa [hdigits] at hreads

theorem reads_of_readBounded {low high width n : Nat}
    (h : readBounded low high width s = some (n, rest)) : Reads s rest := by
  obtain ⟨⟨m, r⟩, hnumber, h⟩ := Option.bind_eq_some_iff.1 h
  dsimp only at h
  split at h
  next =>
    cases h
    exact reads_of_readNumber hnumber
  next => cases h

theorem reads_of_readSigned {n : Nat} (h : readYear.readSigned s = some (n, rest)) :
    Reads s rest := by
  have hreads := reads_takeDigits s.length s
  rw [readYear.readSigned] at h
  split at h
  next => cases h
  next hdigits =>
    cases h
    rwa [hdigits] at hreads

theorem reads_of_readYear {year : Int} (h : readYear s = some (year, rest)) : Reads s rest := by
  have hstart := reads_trimStart s
  have hsign : ∀ c ∈ ['+', '-'], IsDateChar c := by
    intro c hc
    refine .inr (.inr ?_)
    fin_cases hc <;> decide
  rw [readYear] at h
  split at h
  next r htrim =>
    obtain ⟨⟨n, r'⟩, hsigned, heq⟩ := Option.map_eq_some_iff.1 h
    cases heq
    rw [htrim] at hstart
    exact hstart.trans (.cons (hsign _ (by decide)) (reads_of_readSigned hsigned))
  next r htrim =>
    obtain ⟨⟨n, r'⟩, hsigned, heq⟩ := Option.map_eq_some_iff.1 h
    cases heq
    rw [htrim] at hstart
    exact hstart.trans (.cons (hsign _ (by decide)) (reads_of_readSigned hsigned))
  next =>
    obtain ⟨⟨n, r'⟩, hnumber, heq⟩ := Option.map_eq_some_iff.1 h
    cases heq
    exact hstart.trans (reads_of_readNumber hnumber)

theorem reads_of_readMark (hmark : IsDateChar mark) (h : readMark mark s = some rest) :
    Reads s rest := by
  cases s with
  | nil => cases h
  | cons c s =>
      rw [readMark] at h
      split at h
      next hc =>
        cases h
        exact .cons (hc ▸ hmark) (.refl _)
      next => cases h

theorem reads_of_readDate (hmark : IsDateChar mark) {date : Date}
    (h : readDate mark s = some (date, rest)) : Reads s rest := by
  obtain ⟨⟨year, r₁⟩, hyear, h⟩ := Option.bind_eq_some_iff.1 h
  obtain ⟨r₂, hfirst, h⟩ := Option.bind_eq_some_iff.1 h
  obtain ⟨⟨month, r₃⟩, hmonth, h⟩ := Option.bind_eq_some_iff.1 h
  obtain ⟨r₄, hsecond, h⟩ := Option.bind_eq_some_iff.1 h
  obtain ⟨⟨day, r₅⟩, hday, h⟩ := Option.bind_eq_some_iff.1 h
  obtain ⟨date', -, h⟩ := Option.bind_eq_some_iff.1 h
  cases h
  exact (reads_of_readYear hyear).trans <| (reads_of_readMark hmark hfirst).trans <|
    (reads_of_readBounded hmonth).trans <| (reads_of_readMark hmark hsecond).trans <|
    reads_of_readBounded hday

theorem reads_of_readFraction {n : Nat} (h : readFraction s = some (n, rest)) : Reads s rest := by
  have hreads := reads_takeDigits 9 s
  rw [readFraction] at h
  split at h
  next => cases h
  next ds r _ hdigits =>
    cases h
    rw [hdigits] at hreads
    have hskipped : ∀ c ∈ r.takeWhile Char.isDigit, IsDateChar c :=
      fun c hc => .inl (List.mem_takeWhile_imp hc)
    have hrest := reads_append hskipped (r.dropWhile Char.isDigit)
    rw [List.takeWhile_append_dropWhile] at hrest
    exact hreads.trans hrest

theorem reads_of_readTime {time : Time} (h : readTime s = some (time, rest)) : Reads s rest := by
  have hcolon : IsDateChar ':' := .inr (.inr (by decide))
  have hpoint : IsDateChar '.' := .inr (.inr (by decide))
  obtain ⟨⟨hour, r₁⟩, hhour, h⟩ := Option.bind_eq_some_iff.1 h
  obtain ⟨r₂, hfirst, h⟩ := Option.bind_eq_some_iff.1 h
  obtain ⟨⟨minute, r₃⟩, hminute, h⟩ := Option.bind_eq_some_iff.1 h
  obtain ⟨r₄, hsecond, h⟩ := Option.bind_eq_some_iff.1 h
  obtain ⟨⟨second, r₅⟩, hseconds, h⟩ := Option.bind_eq_some_iff.1 h
  have hreads : Reads r₅ rest := by
    dsimp only at h
    split at h
    next =>
      obtain ⟨⟨nanosecond, r₆⟩, hfraction, h⟩ := Option.bind_eq_some_iff.1 h
      cases h
      exact .cons hpoint (reads_of_readFraction hfraction)
    next =>
      cases h
      exact .refl _
  exact (reads_of_readBounded hhour).trans <| (reads_of_readMark hcolon hfirst).trans <|
    (reads_of_readBounded hminute).trans <| (reads_of_readMark hcolon hsecond).trans <|
    (reads_of_readBounded hseconds).trans hreads

theorem whole?_eq_some {α : Type} {r : Option (α × List Char)} {a : α} (h : whole? r = some a) :
    r = some (a, []) := by
  unfold whole? at h
  split at h
  next =>
    cases h
    rfl
  next => cases h

theorem Reads.isDateChar (h : Reads s []) : ∀ c ∈ s, IsDateChar c :=
  fun c hc => (h c hc).resolve_right List.not_mem_nil

theorem Date.isDateChar_of_ofText?_eq_some (hmark : IsDateChar mark) {date : Date}
    (h : Date.ofText? mark s = some date) : ∀ c ∈ s, IsDateChar c :=
  (reads_of_readDate hmark (whole?_eq_some h)).isDateChar

theorem DateTime.isDateChar_of_ofText?_eq_some {t : DateTime} (h : DateTime.ofText? s = some t) :
    ∀ c ∈ s, IsDateChar c := by
  obtain ⟨⟨date, r⟩, hdate, h⟩ := Option.bind_eq_some_iff.1 (whole?_eq_some h)
  obtain ⟨⟨time, r'⟩, htime, h⟩ := Option.bind_eq_some_iff.1 h
  cases h
  have hhyphen : IsDateChar '-' := .inr (.inr (by decide))
  have hreads := (reads_of_readDate hhyphen hdate).trans <|
    (reads_trimStart r).trans (reads_of_readTime htime)
  exact hreads.isDateChar

/-- A date literal holds only what dates and times are written with. -/
theorem DateTime.isDateChar_of_ofLiteral?_eq_some {t : DateTime}
    (h : DateTime.ofLiteral? s = some t) : ∀ c ∈ s, IsDateChar c := by
  have hhyphen : IsDateChar '-' := .inr (.inr (by decide))
  have hslash : IsDateChar '/' := .inr (.inr (by decide))
  rcases (Option.orElse_eq_some _ _ _).1 h with h | ⟨-, h⟩
  · exact isDateChar_of_ofText?_eq_some h
  · obtain ⟨date, hdate, -⟩ := Option.map_eq_some_iff.1 h
    rcases (Option.orElse_eq_some _ _ _).1 hdate with h | ⟨-, h⟩
    · exact Date.isDateChar_of_ofText?_eq_some hhyphen h
    · exact Date.isDateChar_of_ofText?_eq_some hslash h

end SqlTemplate.Calendar

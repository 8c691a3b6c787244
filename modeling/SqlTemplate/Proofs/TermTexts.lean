import Mathlib
import SqlTemplate.Proofs.Clauses
import SqlTemplate.Proofs.DateTexts
import SqlTemplate.Proofs.Numerals
import SqlTemplate.Proofs.WrittenPaths

/-!
# Texts of terms

Which texts are read as terms. No character that operators start with stands in a word, a date
literal or a number (`Term.path_of_ofUnquoted_eq_ok`), and one in a path stands in an index
(`Path.exists_index_of_mem_starts`), whose text may be anything. So of the terms that start with
no quote mark, only paths may hold an operator.
-/

namespace SqlTemplate

open Text (quoteMark)

theorem Text.mem_trim {s : List Char} {c : Char} (h : c ∈ s) (hc : isBlank c = false) :
    c ∈ trim s := by
  obtain ⟨blanks, hend, hblanks⟩ := trimEnd_append_blanks (trimStart s)
  have hstart : ∀ d ∈ s.takeWhile isBlank, isBlank d = true := fun d hd =>
    List.mem_takeWhile_imp hd
  have hnotBlank : isBlank c ≠ true := Bool.eq_false_iff.1 hc
  rw [← blanks_append_trimStart s, ← hend, List.mem_append, List.mem_append] at h
  rcases h with h | h | h
  · exact absurd (hstart c h) hnotBlank
  · exact h
  · exact absurd (hblanks c h) hnotBlank

namespace Operator

variable {c : Char} {s : List Char}

theorem not_mem_starts_of_isDateChar (h : Calendar.IsDateChar c) : c ∉ starts := by
  intro hc
  rw [starts] at hc
  rcases h with h | h | h
  · fin_cases hc <;> exact absurd h (by decide)
  · fin_cases hc <;> exact absurd h (by decide)
  · fin_cases hc <;> exact absurd h (by decide)

theorem not_mem_starts_of_continuesIdentifier (h : Text.continuesIdentifier c = true) :
    c ∉ starts := by
  intro hc
  rw [starts] at hc
  fin_cases hc <;> exact absurd h (by decide)

/-- No such character is a letter in another case. -/
theorem not_mem_starts_of_map_toLower {w : List Char} (hw : ∀ c ∈ w, c ∉ starts)
    (h : s.map Char.toLower = w) : ∀ c ∈ s, c ∉ starts := by
  intro c hc hmem
  have hlower : c.toLower = c := by
    rw [starts] at hmem
    fin_cases hmem <;> rfl
  refine hw c ?_ hmem
  rw [← h, ← hlower]
  exact List.mem_map_of_mem hc

end Operator

namespace Term

variable {s : List Char} {t : Term}

theorem not_mem_starts_of_ofWord?_eq_some (h : ofWord? s = some t) :
    ∀ c ∈ s, c ∉ Operator.starts := by
  have hword : ∀ w : String, (∀ c ∈ w.toList, c ∉ Operator.starts) →
      String.ofList (s.map Char.toLower) = w → ∀ c ∈ s, c ∉ Operator.starts := by
    rintro w hw rfl
    exact Operator.not_mem_starts_of_map_toLower hw String.toList_ofList.symm
  rw [ofWord?] at h
  split at h
  next heq => exact hword _ (fun c hc => by fin_cases hc <;> decide) heq
  next heq => exact hword _ (fun c hc => by fin_cases hc <;> decide) heq
  next heq => exact hword _ (fun c hc => by fin_cases hc <;> decide) heq
  next => cases h

/-- A date literal is the word for a date and a text between quote marks, with blanks between
them. -/
theorem exists_of_dateContent?_eq_some {content : List Char} (h : dateContent? s = some content) :
    ∃ word blanks, s = word ++ (blanks ++ quoteMark :: (content ++ [quoteMark])) ∧
      word.map Char.toLower = "date".toList ∧ ∀ c ∈ blanks, Text.isBlank c = true := by
  rw [dateContent?] at h
  dsimp only at h
  split at h
  next hword =>
    split at h
    next c r hrest =>
      split at h
      next hc =>
        obtain ⟨inner, hinner, h⟩ := Option.bind_eq_some_iff.1 h
        split at h
        next => cases h
        next =>
          cases h
          subst hc
          refine ⟨(s.splitAt 4).1, (s.splitAt 4).2.takeWhile Text.isBlank, ?_, hword.1,
            fun c hc => List.mem_takeWhile_imp hc⟩
          rw [Text.append_of_dropEnd?_eq_some hinner, ← hrest, Text.blanks_append_trimStart,
            List.splitAt_eq, List.take_append_drop]
      next => cases h
    next => cases h
  next => cases h

theorem isDateChar_of_isNumber (h : isNumber s = true) : ∀ c ∈ s, Calendar.IsDateChar c := by
  have hdigits : ∀ ds : List Char, isDigits ds = true → ∀ c ∈ ds, Calendar.IsDateChar c :=
    fun ds h c hc => .inl ((isDigit_of_isDigits h).2 c hc)
  have hpoint : ∀ ds whole places, Text.cutAtChar? '.' ds = some (whole, places) →
      (isDigits whole && isDigits places) = true → ∀ c ∈ ds, Calendar.IsDateChar c := by
    intro ds whole places hcut h
    obtain ⟨-, rfl⟩ := Text.eq_append_of_cutAtChar?_eq_some hcut
    rw [Bool.and_eq_true] at h
    rw [List.forall_mem_append, List.forall_mem_cons]
    exact ⟨hdigits whole h.1, .inr (.inr (by decide)), hdigits places h.2⟩
  by_cases hsign : ∃ r, s = '-' :: r
  · obtain ⟨r, rfl⟩ := hsign
    refine List.forall_mem_cons.2 ⟨.inr (.inr (by decide)), ?_⟩
    rw [isNumber.eq_1] at h
    split at h
    next => exact hdigits r h
    next hcut => exact hpoint r _ _ hcut h
  · rw [isNumber.eq_2 _ fun r heq => hsign ⟨r, heq⟩] at h
    split at h
    next => exact hdigits s h
    next hcut => exact hpoint s _ _ hcut h

theorem ne_string_of_ofWord?_eq_some (h : ofWord? s = some t) (r : String) : t ≠ .string r := by
  rintro rfl
  rw [ofWord?] at h
  split at h <;> cases h

/-- What starts with no quote mark is read as no string, and only a path may hold a character that
operators start with. -/
theorem path_of_ofUnquoted_eq_ok (h : ofUnquoted s = .ok t) :
    (∀ r, t ≠ .string r) ∧
      ((∀ c ∈ s, c ∉ Operator.starts) ∨ ∃ p, t = .path p ∧ Path.ofText s = .ok p) := by
  rw [ofUnquoted] at h
  split at h
  next content hcontent =>
    split at h
    next date hdate =>
      cases h
      refine ⟨by rintro r ⟨⟩, .inl ?_⟩
      obtain ⟨word, blanks, rfl, hword, hblanks⟩ := exists_of_dateContent?_eq_some hcontent
      have hdateWord : ∀ c ∈ "date".toList, c ∉ Operator.starts :=
        fun c hc => by fin_cases hc <;> decide
      have hchars := Calendar.DateTime.isDateChar_of_ofLiteral?_eq_some hdate
      rw [List.forall_mem_append, List.forall_mem_append, List.forall_mem_cons,
        List.forall_mem_append, List.forall_mem_singleton]
      exact ⟨Operator.not_mem_starts_of_map_toLower hdateWord hword,
        fun c hc => Operator.not_mem_starts_of_isDateChar (.inr (.inl (hblanks c hc))), by decide,
        fun c hc => Operator.not_mem_starts_of_isDateChar (hchars c hc), by decide⟩
    next => cases h
  next =>
    dsimp only at h
    split at h
    next t' hterm =>
      cases h
      split at hterm
      next hnumber =>
        obtain ⟨d, -, rfl⟩ := Option.map_eq_some_iff.1 hterm
        have hchars := isDateChar_of_isNumber hnumber
        refine ⟨by rintro r ⟨⟩, .inl fun c hc => ?_⟩
        exact Operator.not_mem_starts_of_isDateChar (hchars c hc)
      next =>
        obtain ⟨p, hp, rfl⟩ := Option.map_eq_some_iff.1 hterm
        refine ⟨by rintro r ⟨⟩, .inr ⟨p, rfl, ?_⟩⟩
        cases hread : Path.ofText s with
        | error e =>
            rw [hread] at hp
            cases hp
        | ok p' =>
            rw [hread] at hp
            cases hp
            rfl
    next => cases h

end Term

section Paths

variable {s part : List Char} {path : String} {segment : Segment} {root : PathRoot} {p : Path}
  {c : Char}

theorem not_mem_starts_of_isIdentifier (h : Text.isIdentifier s = true) :
    ∀ c ∈ s, c ∉ Operator.starts :=
  fun c hc => Operator.not_mem_starts_of_continuesIdentifier
    (List.all_eq_true.1 (Text.all_continuesIdentifier_of_isIdentifier h) c hc)

theorem PathRoot.not_mem_starts_of_rootOfText (h : Path.rootOfText path part = .ok root) :
    ∀ c ∈ part, c ∉ Operator.starts := by
  rw [Path.rootOfText] at h
  split at h
  next hloop =>
    rw [hloop]
    exact fun c hc => by fin_cases hc <;> decide
  next =>
    split at h
    next hname => exact not_mem_starts_of_isIdentifier hname
    next => cases h

theorem Segment.exists_index_of_mem_starts (h : Segment.ofText path part = .ok segment)
    (hmem : c ∈ part) (hc : c ∈ Operator.starts) :
    ∃ raw, segment = .index raw ∧ c ∈ raw.toList := by
  rw [Segment.ofText] at h
  split at h
  next name hname =>
    split at h
    next hidentifier =>
      rw [← Text.append_of_dropEnd?_eq_some hname, List.mem_append] at hmem
      rcases hmem with hmem | hmem
      · exact absurd hc (not_mem_starts_of_isIdentifier hidentifier c hmem)
      · fin_cases hmem <;> exact absurd hc (by decide)
    next => cases h
  next =>
    split at h
    next raw hraw =>
      obtain ⟨rest, hstart, hend⟩ := Option.bind_eq_some_iff.1 hraw
      cases h
      refine ⟨_, rfl, ?_⟩
      rw [String.toList_ofList]
      rw [← Text.append_of_dropStart?_eq_some hstart, ← Text.append_of_dropEnd?_eq_some hend,
        List.mem_append, List.mem_append] at hmem
      rcases hmem with hmem | hmem | hmem
      · fin_cases hmem <;> exact absurd hc (by decide)
      · exact Text.mem_trim hmem (Operator.isBlank_eq_false_of_mem_starts hc)
      · rw [List.mem_singleton.1 hmem] at hc
        exact absurd hc (by decide)
    next =>
      split at h
      next hidentifier => exact absurd hc (not_mem_starts_of_isIdentifier hidentifier c hmem)
      next => cases h

/-- A character that operators start with stands in an index. -/
theorem Path.exists_index_of_mem_starts (h : Path.ofText s = .ok p) (hmem : c ∈ s)
    (hc : c ∈ Operator.starts) : ∃ raw, .index raw ∈ p.segments ∧ c ∈ raw.toList := by
  obtain ⟨part, hpart, hmem⟩ : ∃ part ∈ (Text.fields '.' s).map Text.trim, c ∈ part := by
    by_contra hnone
    have hblank := Operator.isBlank_eq_false_of_mem_starts hc
    have hfields : ∀ f ∈ Text.fields '.' s, c ∉ f := fun f hf hcf =>
      hnone ⟨_, List.mem_map_of_mem hf, Text.mem_trim hcf hblank⟩
    have hpoint : c ∉ ['.'] := by
      rintro hpoint
      rw [List.mem_singleton.1 hpoint] at hc
      exact absurd hc (by decide)
    have happend : ∀ a b : List Char, c ∉ a → c ∉ b → c ∉ a ++ b := fun a b ha hb hab =>
      (List.mem_append.1 hab).elim ha hb
    rw [← Text.intercalate_fields '.' s] at hmem
    exact Text.intercalate_of_append List.not_mem_nil happend hpoint hfields hmem
  rw [Path.ofText] at h
  split at h
  next => cases h
  next first rest hparts =>
    rw [hparts] at hpart
    obtain ⟨root, hroot, h⟩ := Except.bind_eq_ok_iff.1 h
    obtain ⟨segments, hsegments, h⟩ := Except.bind_eq_ok_iff.1 h
    cases h
    rcases List.mem_cons.1 hpart with rfl | hpart
    · exact absurd hc (PathRoot.not_mem_starts_of_rootOfText hroot c hmem)
    · obtain ⟨segment, hsegment, hread⟩ := Except.exists_of_mem_of_mapM_eq_ok hsegments hpart
      obtain ⟨raw, rfl, hraw⟩ := Segment.exists_index_of_mem_starts hread hmem hc
      exact ⟨raw, hsegment, hraw⟩

end Paths

end SqlTemplate

import Mathlib
import SqlTemplate.Condition.Reading
import SqlTemplate.Proofs.Result
import SqlTemplate.Template.Options

/-!
# Trimmed texts

Blanks around a text mean nothing to what reads it. The ends of a text are trimmed one
apart from the other (`Text.trimStart_trimEnd`), and a separator that is no blank keeps them
apart: trimming before a cut trims the outer ends of the parts and nothing else
(`Text.trim_append_cons`, `Text.map_trim_fields_trim`).

So the options of a path are read from the trimmed text as from the text itself
(`Options.split_trim`), and a term and a condition are the same (`Term.ofText_trim`,
`Condition.ofText_trim`).
-/

namespace SqlTemplate

namespace Text

theorem trimEnd_cons (c : Char) (s : List Char) :
    trimEnd (c :: s) = if trimEnd s = [] ∧ isBlank c = true then [] else c :: trimEnd s := by
  rw [trimEnd]
  split
  next h => simp [h]
  next d t h => simp [h]

theorem trimEnd_trimEnd (s : List Char) : trimEnd (trimEnd s) = trimEnd s := by
  induction s with
  | nil => rfl
  | cons c s ih =>
      rw [trimEnd_cons]
      split
      next => rfl
      next h => rw [trimEnd_cons, ih, if_neg h]

theorem trimStart_trimStart (s : List Char) : trimStart (trimStart s) = trimStart s := by
  induction s with
  | nil => rfl
  | cons c s ih =>
      by_cases hc : isBlank c = true
      · rw [trimStart_cons, if_pos hc, ih]
      · rw [trimStart_cons, if_neg hc, trimStart_cons, if_neg hc]

/-- One end is trimmed whether the other one is or not. -/
theorem trimStart_trimEnd (s : List Char) : trimStart (trimEnd s) = trimEnd (trimStart s) := by
  induction s with
  | nil => rfl
  | cons c s ih =>
      by_cases hc : isBlank c = true
      · rw [trimStart_cons, if_pos hc, ← ih, trimEnd_cons]
        split
        next h => rw [h.1]
        next => rw [trimStart_cons, if_pos hc]
      · have hcons : ∀ t, trimStart (c :: t) = c :: t := by
          intro t
          rw [trimStart_cons, if_neg hc]
        rw [hcons, trimEnd_cons, if_neg fun h => hc h.2, hcons]

theorem trim_trimStart (s : List Char) : trim (trimStart s) = trim s := by
  rw [trim, trim, trimStart_trimStart]

theorem trim_trimEnd (s : List Char) : trim (trimEnd s) = trim s := by
  rw [trim, trim, trimStart_trimEnd, trimEnd_trimEnd]

@[simp] theorem trim_trim (s : List Char) : trim (trim s) = trim s := by
  rw [trim.eq_1 s, trim_trimEnd, trim_trimStart, trim]

theorem isPrefix_trimEnd (s : List Char) : trimEnd s <+: s := by
  obtain ⟨t, ht, -⟩ := trimEnd_append_blanks s
  exact ⟨t, ht⟩

/-- What is left of a text stands in it. -/
theorem isInfix_trim (s : List Char) : trim s <:+: s := by
  have hstart : trimStart s <:+ s := ⟨_, blanks_append_trimStart s⟩
  exact (isPrefix_trimEnd (trimStart s)).isInfix.trans hstart.isInfix

section Separator

variable {sep : Char}

theorem trimEnd_append_cons (h : isBlank sep = false) (s t : List Char) :
    trimEnd (s ++ sep :: t) = s ++ sep :: trimEnd t := by
  induction s with
  | nil => rw [List.nil_append, trimEnd_cons, h, if_neg (by simp), List.nil_append]
  | cons c s ih => rw [List.cons_append, trimEnd_cons, ih, if_neg (by simp), List.cons_append]

theorem trimStart_append_cons (h : isBlank sep = false) (s t : List Char) :
    trimStart (s ++ sep :: t) = trimStart s ++ sep :: t := by
  induction s with
  | nil => rw [List.nil_append, trimStart_cons, h, if_neg Bool.false_ne_true]; rfl
  | cons c s ih =>
      rw [List.cons_append, trimStart_cons, trimStart_cons]
      split
      next => exact ih
      next => rfl

/-- Around a character that is no blank only the outer ends are trimmed. -/
theorem trim_append_cons (h : isBlank sep = false) (s t : List Char) :
    trim (s ++ sep :: t) = trimStart s ++ sep :: trimEnd t := by
  rw [trim, trimStart_append_cons h, trimEnd_append_cons h]

theorem cutAtChar?_eq_none_iff (s : List Char) : cutAtChar? sep s = none ↔ sep ∉ s := by
  induction s with
  | nil => simp [cutAtChar?]
  | cons c s ih =>
      by_cases hc : c = sep
      · simp [cutAtChar?, hc]
      · simp [cutAtChar?, hc, ih, Ne.symm hc]

theorem cutAtChar?_append_cons {a : List Char} (h : sep ∉ a) (b : List Char) :
    cutAtChar? sep (a ++ sep :: b) = some (a, b) := by
  induction a with
  | nil => simp [cutAtChar?]
  | cons c a ih =>
      rw [List.mem_cons, not_or] at h
      obtain ⟨hc, ha⟩ := h
      rw [List.cons_append, cutAtChar?, if_neg (Ne.symm hc), ih ha]
      rfl

/-- A text is cut at its first separator. -/
theorem eq_append_of_cutAtChar?_eq_some {s a b : List Char}
    (h : cutAtChar? sep s = some (a, b)) : sep ∉ a ∧ s = a ++ sep :: b := by
  induction s generalizing a with
  | nil => cases h
  | cons c s ih =>
      rw [cutAtChar?] at h
      split at h
      next hc =>
        cases h
        exact ⟨List.not_mem_nil, by rw [hc, List.nil_append]⟩
      next hc =>
        obtain ⟨⟨a', b'⟩, h', he⟩ := Option.map_eq_some_iff.1 h
        cases he
        obtain ⟨ha, rfl⟩ := ih h'
        exact ⟨List.not_mem_cons_of_ne_of_not_mem (Ne.symm hc) ha, rfl⟩

theorem map_trimEnd_fields_trimEnd (h : isBlank sep = false) (s : List Char) :
    (fields sep (trimEnd s)).map trimEnd = (fields sep s).map trimEnd := by
  induction s with
  | nil => rfl
  | cons c s ih =>
      obtain ⟨f, fs, hf⟩ := List.exists_cons_of_ne_nil (fields_ne_nil sep s)
      rw [hf, List.map_cons] at ih
      rw [trimEnd_cons]
      by_cases hc : c = sep
      · rw [if_neg (by simp [hc, h]), fields, fields, if_pos hc, if_pos hc, List.map_cons,
          List.map_cons, ih, hf, List.map_cons]
      · rw [fields, if_neg hc, hf, List.map_cons]
        split
        next hblank =>
          -- Nothing is left of the text, so it is one field of blanks.
          rw [hblank.1] at ih
          obtain ⟨hfirst, hrest⟩ := List.cons.inj ih
          rw [trimEnd_cons, ← hfirst, if_pos ⟨rfl, hblank.2⟩, ← hrest]
          rfl
        next =>
          rw [fields, if_neg hc]
          cases hg : fields sep (trimEnd s) with
          | nil => exact absurd hg (fields_ne_nil sep (trimEnd s))
          | cons g gs =>
              rw [hg, List.map_cons] at ih
              obtain ⟨hfirst, hrest⟩ := List.cons.inj ih
              rw [List.map_cons, trimEnd_cons, trimEnd_cons, hfirst, hrest]

/-- The last field of a trimmed text is trimmed, and the others are as they were. -/
theorem map_trim_fields_trimEnd (h : isBlank sep = false) (s : List Char) :
    (fields sep (trimEnd s)).map trim = (fields sep s).map trim := by
  have hmap : ∀ fs : List (List Char), fs.map trim = (fs.map trimEnd).map trimStart := by
    intro fs
    rw [List.map_map]
    apply List.map_congr_left
    intro f _
    exact (trimStart_trimEnd f).symm
  rw [hmap, hmap, map_trimEnd_fields_trimEnd h]

/-- The first field of a trimmed text is trimmed, and the others are as they were. -/
theorem map_trim_fields_trimStart (h : isBlank sep = false) (s : List Char) :
    (fields sep (trimStart s)).map trim = (fields sep s).map trim := by
  induction s with
  | nil => rfl
  | cons c s ih =>
      rw [trimStart_cons]
      split
      next hc =>
        have hne : c ≠ sep := by
          rintro rfl
          exact Bool.false_ne_true (h.symm.trans hc)
        obtain ⟨f, fs, hf⟩ := List.exists_cons_of_ne_nil (fields_ne_nil sep s)
        have htrim : trim (c :: f) = trim f := by rw [trim, trimStart_cons, if_pos hc, ← trim]
        rw [ih, fields, if_neg hne, hf, List.map_cons, List.map_cons, htrim]
      next => rfl

theorem map_trim_fields_trim (h : isBlank sep = false) (s : List Char) :
    (fields sep (trim s)).map trim = (fields sep s).map trim := by
  rw [trim, map_trim_fields_trimEnd h, map_trim_fields_trimStart h]

end Separator

end Text

namespace Options

theorem add_trim (expression : String) (o : Options) (option : List Char) :
    add expression o (Text.trim option) = add expression o option := by
  simp only [add, Text.trim_trim]

/-- Which options are accepted does not depend on what messages name. -/
theorem add_eq_ok {expression : String} {o o' : Options} {option : List Char}
    (h : add expression o option = .ok o') (other : String) : add other o option = .ok o' := by
  rw [add] at h ⊢
  split at h
  next hword => rwa [if_pos hword]
  next hword =>
    rw [if_neg hword]
    split at h
    next => cases h
    next => exact h
    next => cases h

theorem foldlM_add_eq_ok {expression : String} {o o' : Options} {options : List (List Char)}
    (h : options.foldlM (add expression) o = .ok o') (other : String) :
    options.foldlM (add other) o = .ok o' := by
  induction options generalizing o with
  | nil => exact h
  | cons option options ih =>
      rw [List.foldlM_cons] at h ⊢
      obtain ⟨p, hp, h⟩ := Except.bind_eq_ok_iff.1 h
      exact Except.bind_eq_ok_iff.2 ⟨p, add_eq_ok hp other, ih h⟩

theorem foldlM_add_map_trim (expression : String) (o : Options) (options : List (List Char)) :
    (options.map Text.trim).foldlM (add expression) o = options.foldlM (add expression) o := by
  rw [List.foldlM_map]
  simp only [add_trim]

/-- The path and the options are those of the trimmed text. -/
theorem split_trim {s path : List Char} {o : Options}
    (h : split (String.ofList s) = .ok (path, o)) :
    split (String.ofList (Text.trim s)) = .ok (path, o) := by
  have hcolon : Text.isBlank ':' = false := by decide
  have hbar : Text.isBlank '|' = false := by decide
  rw [split, String.toList_ofList] at h ⊢
  cases hcut : Text.cutAtChar? ':' s with
  | none =>
      have hnone : Text.cutAtChar? ':' (Text.trim s) = .none := by
        rw [Text.cutAtChar?_eq_none_iff] at hcut ⊢
        exact fun hmem => hcut ((Text.isInfix_trim s).subset hmem)
      rw [hcut] at h
      rw [hnone]
      simpa using h
  | some cut =>
      obtain ⟨a, b⟩ := cut
      obtain ⟨ha, rfl⟩ := Text.eq_append_of_cutAtChar?_eq_some hcut
      have hsome : Text.cutAtChar? ':' (Text.trim (a ++ ':' :: b)) =
          some (Text.trimStart a, Text.trimEnd b) := by
        have hstart : ':' ∉ Text.trimStart a :=
          fun hmem => ha ((List.dropWhile_suffix _).subset hmem)
        rw [Text.trim_append_cons hcolon, Text.cutAtChar?_append_cons hstart]
      rw [hcut] at h
      rw [hsome]
      obtain ⟨p, hp, h⟩ := Except.bind_eq_ok_iff.1 h
      have hfields : (Text.fields '|' (Text.trimEnd b)).foldlM
          (add (String.ofList (Text.trim (a ++ ':' :: b)))) none = .ok p := by
        rw [← foldlM_add_map_trim, Text.map_trim_fields_trimEnd hbar, foldlM_add_map_trim]
        exact foldlM_add_eq_ok hp _
      refine Except.bind_eq_ok_iff.2 ⟨p, hfields, ?_⟩
      split at h
      next => cases h
      next haccepted =>
        rw [if_neg haccepted, Text.trim_trimStart]
        exact h

end Options

/-- The term is that of the trimmed text. -/
theorem Term.ofText_trim (s : List Char) : ofText (Text.trim s) = ofText s := by
  rw [ofText, ofText, Text.trim_trim]

namespace Condition

/-- The condition is that of the trimmed text. -/
theorem ofText_trim (s : List Char) : ofText (Text.trim s) = ofText s := by
  simp only [ofText, Text.trim_trim]

theorem expression_of_ofText_eq_ok {s : List Char} {c : Condition} (h : ofText s = .ok c) :
    c.expression = String.ofList (Text.trim s) := by
  rw [ofText] at h
  split at h
  next => cases h
  next =>
    obtain ⟨marks, -, h⟩ := Except.bind_eq_ok_iff.1 h
    obtain ⟨-, -, h⟩ := Except.bind_eq_ok_iff.1 h
    obtain ⟨clauses, -, h⟩ := Except.bind_eq_ok_iff.1 h
    cases h
    rfl

end Condition

end SqlTemplate

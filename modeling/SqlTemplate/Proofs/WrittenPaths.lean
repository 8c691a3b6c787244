import Mathlib
import SqlTemplate.Proofs.CanonicalComments
import SqlTemplate.Template.Path

/-!
# Written paths

The written form of a path joins its parts with points. A point stands in no part, so the text is
cut into the parts again (`Text.fields_intercalate`), and every part is read as what it was written
for (`Segment.ofText_text`, `Path.rootOfText_text`). So a path is read from its parts with any
blanks around each (`Path.ofText_of_map_trim_fields`), and from its written form
(`Path.ofText_text`).
-/

namespace SqlTemplate

namespace Text

theorem trim_of_forall_isBlank_eq_false {s : List Char} (h : ∀ c ∈ s, isBlank c = false) :
    trim s = s := by
  have hend : trimEnd s = s := by
    induction s with
    | nil => rfl
    | cons c s ih =>
        rw [List.forall_mem_cons] at h
        rw [trimEnd_cons, ih h.2, if_neg (by simp [h.1])]
  cases s with
  | nil => rfl
  | cons c s => rw [trim, trimStart_cons_of_not_isBlank (h c List.mem_cons_self), hend]

theorem not_mem_of_isIdentifier {s : List Char} {c : Char} (h : isIdentifier s = true)
    (hc : continuesIdentifier c = false) : c ∉ s := by
  intro hmem
  have hall := List.all_eq_true.1 (all_continuesIdentifier_of_isIdentifier h) c hmem
  cases hc.symm.trans hall

theorem trim_of_isIdentifier {s : List Char} (h : isIdentifier s = true) : trim s = s := by
  refine trim_of_forall_isBlank_eq_false fun c hc => ?_
  exact isBlank_eq_false_of_continuesIdentifier
    (List.all_eq_true.1 (all_continuesIdentifier_of_isIdentifier h) c hc)

@[simp] theorem dropEnd?_append (p s : List Char) : dropEnd? p (s ++ p) = some s := by
  rw [dropEnd?, List.reverse_append, dropStart?_append, Option.map_some, List.reverse_reverse]

theorem append_of_dropEnd?_eq_some {p s r : List Char} (h : dropEnd? p s = some r) :
    r ++ p = s := by
  obtain ⟨t, ht, rfl⟩ := Option.map_eq_some_iff.1 h
  rw [← List.reverse_inj, List.reverse_append, List.reverse_reverse]
  exact append_of_dropStart?_eq_some ht

section Fields

variable {sep : Char}

theorem fields_of_not_mem {s : List Char} (h : sep ∉ s) : fields sep s = [s] := by
  induction s with
  | nil => rfl
  | cons c s ih =>
      rw [List.mem_cons, not_or] at h
      rw [fields, if_neg (Ne.symm h.1), ih h.2]

theorem fields_append_cons {f : List Char} (h : sep ∉ f) (s : List Char) :
    fields sep (f ++ sep :: s) = f :: fields sep s := by
  induction f with
  | nil => rw [List.nil_append, fields, if_pos rfl]
  | cons c f ih =>
      rw [List.mem_cons, not_or] at h
      rw [List.cons_append, fields, if_neg (Ne.symm h.1), ih h.2]

/-- Texts without the separator are the fields of the text they make. -/
theorem fields_intercalate {fs : List (List Char)} (hne : fs ≠ []) (h : ∀ f ∈ fs, sep ∉ f) :
    fields sep ([sep].intercalate fs) = fs := by
  induction fs with
  | nil => exact absurd rfl hne
  | cons f fs ih =>
      rw [List.forall_mem_cons] at h
      cases fs with
      | nil => rw [List.intercalate_singleton, fields_of_not_mem h.1]
      | cons g fs =>
          rw [List.intercalate_cons_cons, List.append_assoc, List.singleton_append,
            fields_append_cons h.1, ih (List.cons_ne_nil g fs) h.2]

/-- What holds of parts and their separator, and of two texts put together, holds of the parts
joined with the separator. -/
theorem intercalate_of_append {P : List Char → Prop} (hnil : P [])
    (happend : ∀ a b, P a → P b → P (a ++ b)) {sep : List Char} (hsep : P sep)
    {parts : List (List Char)} (hparts : ∀ part ∈ parts, P part) : P (sep.intercalate parts) := by
  induction parts with
  | nil => exact hnil
  | cons part parts ih =>
      rw [List.forall_mem_cons] at hparts
      cases parts with
      | nil =>
          rw [List.intercalate_singleton]
          exact hparts.1
      | cons next parts =>
          rw [List.intercalate_cons_cons]
          exact happend _ _ (happend _ _ hparts.1 hsep) (ih hparts.2)

end Fields

end Text

namespace Segment

/-- The step has a written form of its own: names are identifiers, and an index is a text that
stands in one part of a path, between its parentheses. -/
def IsWritable : Segment → Prop
  | .property name | .method name => Text.isIdentifier name.toList = true
  | .index raw => raw.toList ≠ [] ∧ (∀ c ∈ ['.', '(', ')'], c ∉ raw.toList) ∧
      Text.trim raw.toList = raw.toList

theorem toList_text_index (raw : String) :
    (index raw).text.toList = "get(".toList ++ raw.toList ++ ")".toList := by
  rw [text, String.toList_append, String.toList_append]

theorem toList_text_method (name : String) :
    (method name).text.toList = name.toList ++ "()".toList := by
  rw [text, String.toList_append]

variable {s : Segment}

/-- A written step is read as what it was written for. -/
theorem ofText_text (h : s.IsWritable) (path : String) : ofText path s.text.toList = .ok s := by
  cases s with
  | property name =>
      have hend : Text.dropEnd? "()".toList name.toList = none := by
        refine Option.eq_none_iff_forall_ne_some.2 fun r hr => ?_
        have hmem : ')' ∈ name.toList := by
          rw [← Text.append_of_dropEnd?_eq_some hr]
          exact List.mem_append_right _ (by decide)
        exact Text.not_mem_of_isIdentifier h (by decide) hmem
      have hstart : Text.dropStart? "get(".toList name.toList = none := by
        refine Option.eq_none_iff_forall_ne_some.2 fun r hr => ?_
        have hmem : '(' ∈ name.toList := by
          rw [← Text.append_of_dropStart?_eq_some hr]
          exact List.mem_append_left _ (by decide)
        exact Text.not_mem_of_isIdentifier h (by decide) hmem
      have hname : Text.isIdentifier name.toList = true := h
      rw [text, ofText, hend, hstart]
      dsimp only [Option.bind_none]
      rw [if_pos hname, String.ofList_toList]
  | method name =>
      have hname : Text.isIdentifier name.toList = true := h
      rw [toList_text_method, ofText, Text.dropEnd?_append]
      dsimp only
      rw [if_pos hname, String.ofList_toList]
  | index raw =>
      obtain ⟨hne, hchars, htrim⟩ := h
      have hend : Text.dropEnd? "()".toList (index raw).text.toList = none := by
        refine Option.eq_none_iff_forall_ne_some.2 fun r hr => ?_
        have happend := Text.append_of_dropEnd?_eq_some hr
        -- The character before the last one is the last one of the index.
        rw [toList_text_index, show "()".toList = ['('] ++ ")".toList from rfl,
          ← List.append_assoc] at happend
        have hraw := List.append_cancel_right happend
        have hlast : raw.toList.getLast? = some '(' := by
          have h := congrArg List.getLast? hraw
          rw [List.getLast?_concat, List.getLast?_append] at h
          cases hr : raw.toList.getLast? with
          | none => exact absurd (List.getLast?_eq_none_iff.1 hr) hne
          | some c => rw [hr] at h; exact h.symm
        exact hchars '(' (by decide) (List.mem_of_getLast? hlast)
      rw [ofText, hend, toList_text_index, List.append_assoc, Text.dropStart?_append,
        Option.bind_some, Text.dropEnd?_append]
      dsimp only
      rw [htrim, String.ofList_toList]

theorem point_not_mem_text (h : s.IsWritable) : '.' ∉ s.text.toList := by
  cases s with
  | property name => exact Text.not_mem_of_isIdentifier h (by decide)
  | method name =>
      rw [toList_text_method, List.mem_append, not_or]
      exact ⟨Text.not_mem_of_isIdentifier h (by decide), by decide⟩
  | index raw =>
      rw [toList_text_index, List.mem_append, List.mem_append, not_or, not_or]
      exact ⟨⟨by decide, h.2.1 '.' (by decide)⟩, by decide⟩

theorem trim_text (h : s.IsWritable) : Text.trim s.text.toList = s.text.toList := by
  cases s with
  | property name => exact Text.trim_of_isIdentifier h
  | method name =>
      have hopening : Text.isBlank '(' = false := by decide
      have hclosing : Text.isBlank ')' = false := by decide
      rw [toList_text_method]
      refine Text.trim_of_forall_isBlank_eq_false fun c hc => ?_
      rcases List.mem_append.1 hc with hc | hc
      · exact Text.isBlank_eq_false_of_continuesIdentifier
          (List.all_eq_true.1 (Text.all_continuesIdentifier_of_isIdentifier h) c hc)
      · rcases List.mem_pair.1 hc with rfl | rfl
        · exact hopening
        · exact hclosing
  | index raw =>
      have hg : Text.isBlank 'g' = false := by decide
      have hclosing : Text.isBlank ')' = false := by decide
      have htext : (index raw).text.toList = 'g' :: ("et(".toList ++ raw.toList) ++ ')' :: [] :=
        toList_text_index raw
      rw [htext, Text.trim_append_cons hclosing, Text.trimStart_cons_of_not_isBlank hg,
        Text.trimEnd_nil]

end Segment

namespace Path

/-- The written parts of a path. -/
def parts (p : Path) : List (List Char) :=
  p.root.text.toList :: p.segments.map fun s => s.text.toList

theorem parts_ne_nil (p : Path) : p.parts ≠ [] :=
  List.cons_ne_nil _ _

theorem toList_text (p : Path) : p.text.toList = ['.'].intercalate p.parts := by
  rw [text, String.toList_intercalate, parts, List.map_cons, List.map_map]
  rfl

/-- The path has a written form of its own. -/
structure IsWritable (p : Path) : Prop where
  root : ∀ name, p.root = .argument name → Text.isIdentifier name.toList = true
  segments : ∀ s ∈ p.segments, s.IsWritable

variable {p : Path}

theorem rootOfText_text (h : p.IsWritable) (path : String) :
    rootOfText path p.root.text.toList = .ok p.root := by
  cases hroot : p.root with
  | loop => rfl
  | argument name =>
      have hname := h.root name hroot
      have hne : name.toList ≠ loopVariable.toList := by
        intro heq
        rw [heq] at hname
        exact absurd hname (by decide)
      rw [PathRoot.text, rootOfText, if_neg hne, if_pos hname, String.ofList_toList]

theorem part_of_isWritable (h : p.IsWritable) :
    ∀ part ∈ p.parts, '.' ∉ part ∧ Text.trim part = part := by
  refine List.forall_mem_cons.2 ⟨?_, List.forall_mem_map.2 fun s hs => ?_⟩
  · cases hroot : p.root with
    | loop => decide
    | argument name =>
        have hname := h.root name hroot
        exact ⟨Text.not_mem_of_isIdentifier hname (by decide), Text.trim_of_isIdentifier hname⟩
  · exact ⟨Segment.point_not_mem_text (h.segments s hs), Segment.trim_text (h.segments s hs)⟩

/-- A path is read from its written parts, with any blanks around each of them. -/
theorem ofText_of_map_trim_fields {s : List Char} (h : p.IsWritable)
    (hparts : (Text.fields '.' s).map Text.trim = p.parts) : ofText s = .ok p := by
  have hsegments : (p.segments.map fun s => s.text.toList).mapM
      (Segment.ofText (String.ofList s)) = .ok p.segments :=
    Except.mapM_map_eq_ok fun s hs => Segment.ofText_text (h.segments s hs) _
  rw [ofText, hparts, parts]
  refine Except.bind_eq_ok_iff.2 ⟨p.root, rootOfText_text h _, ?_⟩
  exact Except.bind_eq_ok_iff.2 ⟨p.segments, hsegments, rfl⟩

/-- A path is read from its written form. -/
theorem ofText_text (h : p.IsWritable) : ofText p.text.toList = .ok p := by
  refine ofText_of_map_trim_fields h ?_
  rw [toList_text, Text.fields_intercalate p.parts_ne_nil
    fun part hpart => (part_of_isWritable h part hpart).1]
  exact (List.map_congr_left fun part hpart => (part_of_isWritable h part hpart).2).trans
    (List.map_id _)

end Path

end SqlTemplate

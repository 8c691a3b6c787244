import Mathlib
import SqlTemplate.Proofs.Marks
import SqlTemplate.Proofs.WrittenPaths

/-!
# Texts of paths

A text is cut at its points, and each part is taken without the blanks around it. The first part
says where the path starts (`PathRoot.Spells`) and each other part is a step (`Segment.Spells`):
an identifier, an identifier with empty parentheses behind it, or an index. A part that can be read
as a method is no index, so `get()` is the method of that name. Texts with such parts are paths and
no other ones are (`Path.ofText_eq_ok_iff`).

The written form of a path is such a text, and so it is with blanks around any of its parts
(`Path.reads_padded`).
-/

namespace SqlTemplate

namespace Text

/-- The second text is the first one with blanks around it. -/
def Pads (s padded : List Char) : Prop :=
  ∃ a b, (∀ c ∈ a, isBlank c = true) ∧ (∀ c ∈ b, isBlank c = true) ∧ padded = a ++ s ++ b

theorem Pads.trim_eq {s padded : List Char} (h : Pads s padded) : trim padded = trim s := by
  obtain ⟨a, b, ha, hb, rfl⟩ := h
  exact trim_append_of_blanks ha hb s

theorem Pads.not_mem {s padded : List Char} {c : Char} (h : Pads s padded)
    (hc : isBlank c = false) (hs : c ∉ s) : c ∉ padded := by
  obtain ⟨a, b, ha, hb, rfl⟩ := h
  rw [List.mem_append, List.mem_append, not_or, not_or]
  exact ⟨⟨fun h => Bool.false_ne_true (hc.symm.trans (ha c h)), hs⟩,
    fun h => Bool.false_ne_true (hc.symm.trans (hb c h))⟩

/-- Parts with blanks around them are the fields of the text they make, and without the blanks they
are the parts again. -/
theorem fields_of_forall₂_pads {sep : Char} (hsep : isBlank sep = false)
    {parts padded : List (List Char)} (h : List.Forall₂ Pads parts padded) (hne : parts ≠ [])
    (hparts : ∀ part ∈ parts, sep ∉ part ∧ trim part = part) :
    (fields sep ([sep].intercalate padded)).map trim = parts := by
  have hpadded : padded ≠ [] ∧ (∀ f ∈ padded, sep ∉ f) ∧ padded.map trim = parts := by
    induction h with
    | nil => exact absurd rfl hne
    | @cons part f parts padded hpads hrest ih =>
        rw [List.forall_mem_cons] at hparts
        obtain ⟨⟨hmem, htrim⟩, hparts⟩ := hparts
        have hf : trim f = part := hpads.trim_eq.trans htrim
        refine ⟨List.cons_ne_nil f padded, ?_⟩
        rw [List.forall_mem_cons, List.map_cons, hf]
        cases hrest with
        | nil => exact ⟨⟨hpads.not_mem hsep hmem, fun f hf => nomatch hf⟩, rfl⟩
        | cons =>
            obtain ⟨-, hmems, hmap⟩ := ih (List.cons_ne_nil _ _) hparts
            exact ⟨⟨hpads.not_mem hsep hmem, hmems⟩, congrArg (part :: ·) hmap⟩
  obtain ⟨hne, hmems, hmap⟩ := hpadded
  rw [fields_intercalate hne hmems, hmap]

theorem dropEnd?_eq_some_iff {p s r : List Char} : dropEnd? p s = some r ↔ s = r ++ p := by
  constructor
  · intro h
    exact (append_of_dropEnd?_eq_some h).symm
  · rintro rfl
    exact dropEnd?_append p r

theorem dropStart?_eq_some_iff {p s r : List Char} : dropStart? p s = some r ↔ s = p ++ r := by
  constructor
  · intro h
    exact (append_of_dropStart?_eq_some h).symm
  · rintro rfl
    exact dropStart?_append p r

end Text

/-- The part of a text says where a path starts. -/
inductive PathRoot.Spells : List Char → PathRoot → Prop where
  | loop : Spells loopVariable.toList .loop
  | argument {name : List Char} (h : Text.isIdentifier name = true) :
      Spells name (.argument (String.ofList name))

/-- The part of a text is a step. -/
inductive Segment.Spells : List Char → Segment → Prop where
  | property {name : List Char} (h : Text.isIdentifier name = true) :
      Spells name (.property (String.ofList name))
  | method {name : List Char} (h : Text.isIdentifier name = true) :
      Spells (name ++ "()".toList) (.method (String.ofList name))
  | index {raw : List Char} (hne : raw ≠ []) (hlast : raw.getLast? ≠ some '(') :
      Spells ("get(".toList ++ raw ++ ")".toList) (.index (String.ofList (Text.trim raw)))

theorem Path.rootOfText_eq_ok_iff {path : String} {part : List Char} {root : PathRoot} :
    rootOfText path part = .ok root ↔ PathRoot.Spells part root := by
  rw [rootOfText]
  constructor
  · intro h
    split at h
    next hpart =>
      subst hpart
      cases h
      exact .loop
    next =>
      split at h
      next hname =>
        cases h
        exact .argument hname
      next => cases h
  · intro h
    cases h with
    | loop => exact if_pos rfl
    | argument hname =>
        have hne : part ≠ loopVariable.toList := by
          rintro rfl
          exact absurd hname (by decide)
        rw [if_neg hne, if_pos hname]

namespace Segment

/-- What stands between the parentheses of an index tells it from a method. -/
theorem dropEnd?_index_eq_none_iff {raw : List Char} :
    Text.dropEnd? "()".toList ("get(".toList ++ raw ++ ")".toList) = none ↔
      raw ≠ [] ∧ raw.getLast? ≠ some '(' := by
  have hcut (r : List Char) : "get(".toList ++ raw ++ ")".toList = r ++ "()".toList ↔
      "get(".toList ++ raw = r ++ ['('] := by
    rw [show "()".toList = ['('] ++ ")".toList from rfl, ← List.append_assoc,
      List.append_cancel_right_eq]
  simp only [Option.eq_none_iff_forall_ne_some, Ne, Text.dropEnd?_eq_some_iff, hcut]
  rcases List.eq_nil_or_concat raw with rfl | ⟨t, c, rfl⟩
  · exact ⟨fun h => absurd rfl (h "get".toList), fun h => absurd rfl h.1⟩
  · simp only [List.concat_eq_append, ← List.append_assoc, List.getLast?_concat]
    constructor
    · intro h
      refine ⟨by simp, ?_⟩
      rintro ⟨⟩
      exact h _ rfl
    · rintro ⟨-, hc⟩ r hr
      obtain ⟨-, hr⟩ := List.append_inj' hr rfl
      cases hr
      exact hc rfl

variable {path : String} {part : List Char} {s : Segment}

theorem ofText_eq_ok_iff : ofText path part = .ok s ↔ Spells part s := by
  constructor
  · intro h
    rw [ofText] at h
    split at h
    next name hend =>
      obtain rfl := Text.dropEnd?_eq_some_iff.1 hend
      split at h
      next hname =>
        cases h
        exact .method hname
      next => cases h
    next hend =>
      split at h
      next raw hraw =>
        cases h
        obtain ⟨t, ht, hraw⟩ := Option.bind_eq_some_iff.1 hraw
        obtain rfl := Text.dropStart?_eq_some_iff.1 ht
        obtain rfl := Text.dropEnd?_eq_some_iff.1 hraw
        rw [← List.append_assoc] at hend ⊢
        obtain ⟨hne, hlast⟩ := dropEnd?_index_eq_none_iff.1 hend
        exact .index hne hlast
      next =>
        split at h
        next hname =>
          cases h
          exact .property hname
        next => cases h
  · intro h
    cases h with
    | property hname =>
        have hwritable : (property (String.ofList part)).IsWritable := by
          rwa [IsWritable, String.toList_ofList]
        have hread := ofText_text hwritable path
        rwa [text, String.toList_ofList] at hread
    | method hname =>
        rw [ofText, Text.dropEnd?_append]
        exact if_pos hname
    | index hne hlast =>
        rw [ofText, dropEnd?_index_eq_none_iff.2 ⟨hne, hlast⟩, List.append_assoc,
          Text.dropStart?_append, Option.bind_some, Text.dropEnd?_append]

end Segment

namespace Path

/-- The parts of a text are those of a path. -/
inductive Spells : List (List Char) → Path → Prop where
  | mk {first rest root segments} (hroot : PathRoot.Spells first root)
      (hsegments : List.Forall₂ Segment.Spells rest segments) :
      Spells (first :: rest) ⟨root, segments⟩

variable {p : Path}

theorem ofText_eq_ok_iff {s : List Char} :
    ofText s = .ok p ↔ Spells ((Text.fields '.' s).map Text.trim) p := by
  obtain ⟨first, rest, hparts⟩ : ∃ first rest, (Text.fields '.' s).map Text.trim = first :: rest :=
    List.exists_cons_of_ne_nil (mt List.map_eq_nil_iff.1 (Text.fields_ne_nil '.' s))
  rw [ofText, hparts]
  simp only [Except.bind_eq_ok_iff, rootOfText_eq_ok_iff, Except.mapM_eq_ok_iff,
    Segment.ofText_eq_ok_iff]
  constructor
  · rintro ⟨root, hroot, segments, hsegments, h⟩
    cases h
    exact ⟨hroot, hsegments⟩
  · rintro ⟨hroot, hsegments⟩
    exact ⟨_, hroot, _, hsegments, rfl⟩

theorem ofText_trim {s : List Char} (h : ofText s = .ok p) : ofText (Text.trim s) = .ok p := by
  rw [ofText_eq_ok_iff] at h ⊢
  rwa [Text.map_trim_fields_trim (by decide)]

/-- A path is read from its written form, and also from its parts with any blanks around each of
them. A text is read as a path if its parts are those of the path, without the blanks around each,
and only then. -/
theorem reads_padded :
    (∀ p : Path, p.IsWritable → ofText p.text.toList = .ok p ∧
      ∀ padded, List.Forall₂ Text.Pads p.parts padded →
        ofText (['.'].intercalate padded) = .ok p) ∧
    ∀ (s : List Char) (p : Path),
      ofText s = .ok p ↔ Spells ((Text.fields '.' s).map Text.trim) p := by
  refine ⟨fun p h => ⟨ofText_text h, fun padded hpadded => ?_⟩, fun s p => ofText_eq_ok_iff⟩
  exact ofText_of_map_trim_fields h
    (Text.fields_of_forall₂_pads (by decide) hpadded p.parts_ne_nil (part_of_isWritable h))

/-- A property, a method and an index can have one name. -/
theorem reads_padded_get :
    let p : Path := ⟨.loop, [.property "get", .method "get", .index "get"]⟩
    p.IsWritable ∧ ofText "#current.get.get().get(get)".toList = .ok p ∧
      ofText " #current .get. get(). get(get) ".toList = .ok p := by
  intro p
  have hget : Text.isIdentifier "get".toList = true := by cbv
  have hindex : (Segment.index "get").IsWritable := ⟨by decide, by simp, by cbv⟩
  have hwritable : p.IsWritable := by
    refine ⟨fun name h => (by cases h), ?_⟩
    simp only [p, List.forall_mem_cons]
    exact ⟨hget, hget, hindex, List.forall_mem_nil _⟩
  have hspace : ∀ c ∈ [' '], Text.isBlank c = true := List.forall_mem_singleton.2 (by decide)
  have hnone : ∀ c ∈ ([] : List Char), Text.isBlank c = true := List.forall_mem_nil _
  have hpadded : List.Forall₂ Text.Pads p.parts
      [" #current ".toList, "get".toList, " get()".toList, " get(get) ".toList] :=
    .cons ⟨_, _, hspace, hspace, by decide⟩ (.cons ⟨_, _, hnone, hnone, by decide⟩
      (.cons ⟨_, _, hspace, hnone, by decide⟩ (.cons ⟨_, _, hspace, hspace, by decide⟩ .nil)))
  exact ⟨hwritable, (reads_padded.1 p hwritable).1, (reads_padded.1 p hwritable).2 _ hpadded⟩

end Path

end SqlTemplate

import Mathlib
import SqlTemplate.Arguments.Document
import SqlTemplate.Proofs.JsonTexts
import SqlTemplate.Proofs.Result

/-!
# Arguments as documents

Arguments are written as an object with a member for each, and one for the declared types by
their names (`Arguments.document`). Read again, they are the same arguments with the same declared
types if no type of an object is declared, and only then
(`Arguments.ofDocument_document_iff`): the name of such a type lacks the mark by which it is
declared, so it is read as no type or as another one (`ValueType.ofText?_ne_object`).

Reading a document comes down to putting entries one after another (`Entries.putAll`), because the
members that are arguments and the declared types do not get in each other's way
(`Arguments.foldlM_putMember`).
-/

namespace SqlTemplate

namespace Entries

variable {α β : Type}

/-- The entries with others put one after another. -/
def putAll (es new : Entries α) : Entries α :=
  new.foldl (fun es (name, a) => es.put name a) es

theorem nodup_names_put {es : Entries α} (h : es.names.Nodup) (name : String) (a : α) :
    (es.put name a).names.Nodup := by
  rw [names_put]
  split
  next => exact h
  next hname =>
    rw [← List.concat_eq_append]
    exact h.concat hname

theorem nodup_names_putAll {es : Entries α} (h : es.names.Nodup) (new : Entries α) :
    (es.putAll new).names.Nodup := by
  induction new generalizing es with
  | nil => exact h
  | cons e new ih => exact ih (nodup_names_put h e.1 e.2)

/-- An entry is taken out from among the others. -/
theorem exists_append_of_get?_eq_some {key : String} {a : α} {es : Entries α}
    (hnames : es.names.Nodup) (h : es.get? key = some a) :
    ∃ before after : Entries α, es = before ++ (key, a) :: after ∧
      (names (before ++ after)).Nodup ∧ key ∉ names (before ++ after) ∧
      ∀ name, name ≠ key → get? name (before ++ after) = es.get? name := by
  obtain ⟨before, after, rfl⟩ := List.append_of_mem (mem_of_get?_eq_some h)
  have hperm : (before ++ (key, a) :: after).Perm ((key, a) :: (before ++ after)) :=
    List.perm_middle
  have hcons : (names ((key, a) :: (before ++ after))).Nodup :=
    (hperm.map Prod.fst).nodup_iff.1 hnames
  obtain ⟨hkey, hrest⟩ := List.nodup_cons.1 hcons
  refine ⟨before, after, rfl, hrest, hkey, fun name hname => ?_⟩
  rw [get?_append, get?_append, get?_cons, if_neg (Ne.symm hname)]

/-- Under a name there is the entry put there, or what was there. -/
theorem get?_putAll {new : Entries α} (h : new.names.Nodup) (es : Entries α) (name : String) :
    (es.putAll new).get? name = (new.get? name).or (es.get? name) :=
  get?_foldl (fun name a es => get?_put_self name a es)
    (fun _ _ a es hname => get?_put_of_ne hname a es) h es name

end Entries

namespace ValueType

/-- A type that is no object type is declared by its name. -/
theorem ofText?_name {type : ValueType} (h : ∀ name, type ≠ .object name) :
    ofText? type.name = some type := by
  cases type with
  | object name => exact absurd rfl (h name)
  | _ => decide

/-- The name of an object type does not declare it. -/
theorem ofText?_ne_object (name : String) : ofText? name ≠ some (.object name) := by
  intro h
  rw [ofText?] at h
  split at h
  next rest hdrop =>
    have happend := Text.append_of_dropStart?_eq_some hdrop
    cases h
    have hlength := congrArg List.length happend
    rw [List.length_append, String.toList_ofList] at hlength
    exact absurd hlength (by simp [objectMark])
  next =>
    have hmem := Entries.mem_of_get?_eq_some h
    simp [declaredNames] at hmem

end ValueType

namespace Arguments

/-- The arguments as a document. -/
def document (a : Arguments) : Json :=
  Json.ofMembers (Value.toJsonEntries a.values ++
    [(typesKey, Json.ofMembers (a.types.map fun (name, type) => (name, .string type.name)))])

/-- The type that a member declares. -/
def declaration : String × Json → Except ArgumentsError (String × ValueType)
  | (name, .string typeName) =>
    match ValueType.ofText? typeName with
    | some type => .ok (name, type)
    | none => .error (.unknownType name typeName)
  | (name, _) => .error (.typeNotString name)

theorem declareMember_eq (a : Arguments) (m : String × Json) :
    a.declareMember m = (declaration m).map fun (name, type) => a.declare name type := by
  obtain ⟨name, j⟩ := m
  cases j with
  | string typeName =>
      rw [declareMember, declaration]
      cases ValueType.ofText? typeName <;> rfl
  | _ => rfl

/-- The members of `$types` are declared one after another, or one of them is no declaration. -/
theorem foldlM_declareMember (members : List (String × Json)) (a : Arguments) :
    members.foldlM declareMember a =
      (members.mapM declaration).map fun types => { a with types := a.types.putAll types } := by
  induction members generalizing a with
  | nil => rfl
  | cons m members ih =>
      rw [List.foldlM_cons, List.mapM_cons, declareMember_eq]
      cases declaration m with
      | error e => rfl
      | ok type =>
          change members.foldlM declareMember (a.declare type.1 type.2) = _
          rw [ih]
          cases members.mapM declaration <;> rfl

/-- Members that are arguments are put one after another. -/
theorem foldlM_putMember {members : Entries Json} (h : typesKey ∉ members.names)
    (a : Arguments) :
    List.foldlM putMember a members =
      .ok { a with values := a.values.putAll (Value.ofJsonMembers members) } := by
  induction members generalizing a with
  | nil => rfl
  | cons m members ih =>
      obtain ⟨name, j⟩ := m
      rw [Entries.names, List.map_cons, List.mem_cons, not_or] at h
      have hput : a.putMember (name, j) = .ok (a.put name (.ofJson j)) := if_neg (Ne.symm h.1)
      rw [List.foldlM_cons, hput]
      exact ih h.2 _

/-- The declared types and the arguments in front of them and behind them are read apart. -/
theorem foldlM_putMember_types {before after types : Entries Json}
    (hbefore : typesKey ∉ before.names) (hafter : typesKey ∉ after.names) :
    List.foldlM putMember empty (before ++ (typesKey, .object types) :: after) =
      (List.mapM declaration types).map fun declared =>
        ⟨Entries.putAll [] (Value.ofJsonMembers (before ++ after)),
          Entries.putAll [] declared⟩ := by
  rw [List.foldlM_append, foldlM_putMember hbefore]
  change List.foldlM putMember _ (_ :: _) = _
  have htypes (a : Arguments) : a.putMember (typesKey, .object types) =
      types.foldlM declareMember a := by
    rw [putMember.eq_1, if_pos rfl]
  rw [List.foldlM_cons, htypes, foldlM_declareMember]
  cases List.mapM declaration types with
  | error e => rfl
  | ok declared =>
      change List.foldlM putMember _ after = _
      rw [foldlM_putMember hafter, Value.ofJsonMembers_eq_map, Value.ofJsonMembers_eq_map,
        Value.ofJsonMembers_eq_map, List.map_append]
      simp [Entries.putAll, Except.map, empty]

variable {a : Arguments} {text : String}

/-- In the document the declared types stand among the arguments. -/
theorem exists_document_eq (hnames : a.values.names.Nodup) (hkey : typesKey ∉ a.values.names)
    (htypes : a.types.names.Nodup) :
    ∃ before after types : Entries Json,
      a.document = .object (before ++ (typesKey, .object types) :: after) ∧
      (Entries.names (before ++ after)).Nodup ∧ typesKey ∉ Entries.names (before ++ after) ∧
      (∀ name, Entries.get? name (before ++ after) = (a.values.get? name).map Value.toJson) ∧
      types.names.Nodup ∧
      ∀ name, types.get? name = (a.types.get? name).map fun type => .string type.name := by
  let shown : ValueType → Json := fun type => .string type.name
  have hshown : Entries.names (a.types.map fun (name, type) => (name, shown type)) =
      a.types.names := Entries.names_map shown a.types
  obtain ⟨types, hobject, hsorted, hget⟩ := Json.exists_ofMembers (hshown ▸ htypes)
  have hvalues : (Value.toJsonEntries a.values).names = a.values.names := by
    rw [Value.toJsonEntries_eq_map, Entries.names_map Value.toJson]
  let given : Entries Json := Value.toJsonEntries a.values ++ [(typesKey, .object types)]
  have hgiven (name : String) : given.get? name = ((a.values.get? name).map Value.toJson).or
      (if typesKey = name then some (.object types) else none) := by
    rw [Entries.get?_append, Value.toJsonEntries_eq_map, Entries.get?_map Value.toJson]
    rfl
  have hnone : a.values.get? typesKey = none := Entries.get?_eq_none_iff.2 hkey
  have hgivenNames : given.names.Nodup := by
    have hconcat : given.names = a.values.names.concat typesKey := by
      rw [List.concat_eq_append, ← hvalues]
      exact List.map_append
    rw [hconcat]
    exact hnames.concat hkey
  obtain ⟨members, hdocument, hmembers, hmembersGet⟩ := Json.exists_ofMembers hgivenNames
  have htypesGet : members.get? typesKey = some (.object types) := by
    rw [hmembersGet, hgiven, hnone, if_pos rfl]
    rfl
  obtain ⟨before, after, rfl, hrest, hrestKey, hrestGet⟩ :=
    Entries.exists_append_of_get?_eq_some (hmembers.imp fun h => ne_of_lt h) htypesGet
  refine ⟨before, after, types, ?_, hrest, hrestKey, fun name => ?_,
    hsorted.imp fun h => ne_of_lt h, fun name => ?_⟩
  · rw [← hdocument, document]
    exact congrArg (fun j => Json.ofMembers (_ ++ [(typesKey, j)])) hobject
  · by_cases hname : name = typesKey
    · rw [hname, hnone, Entries.get?_eq_none_iff.2 hrestKey]
      rfl
    · rw [hrestGet name hname, hmembersGet, hgiven, if_neg (Ne.symm hname), Option.or_none]
  · rw [hget]
    exact Entries.get?_map shown a.types name

theorem declaration_eq_ok_iff {name : String} {j : Json} {declared : String × ValueType} :
    declaration (name, j) = .ok declared ↔
      ∃ typeName type, j = .string typeName ∧ ValueType.ofText? typeName = some type ∧
        declared = (name, type) := by
  cases j with
  | string typeName =>
      rw [declaration]
      cases htype : ValueType.ofText? typeName with
      | none => simp [htype]
      | some type => simp [htype, eq_comm]
  | _ => simp [declaration]

/-- What is declared under a name is the type that the member under the name names. -/
theorem get?_of_mapM_declaration {members : Entries Json} {declared : Entries ValueType}
    (h : List.mapM declaration members = .ok declared) :
    declared.names = members.names ∧
      ∀ name typeName, members.get? name = some (.string typeName) →
        declared.get? name = ValueType.ofText? typeName := by
  have hall := Except.forall₂_of_mapM_eq_ok h
  clear h
  induction hall with
  | nil => exact ⟨rfl, fun name typeName h => nomatch h⟩
  | @cons m d members declared hfirst _ ih =>
      obtain ⟨name, j⟩ := m
      obtain ⟨typeName, type, rfl, htype, rfl⟩ := declaration_eq_ok_iff.1 hfirst
      refine ⟨congrArg (name :: ·) ih.1, fun other otherName hget => ?_⟩
      rw [Entries.get?_cons] at hget ⊢
      by_cases hname : name = other
      · rw [if_pos hname] at hget ⊢
        cases hget
        exact htype.symm
      · rw [if_neg hname] at hget ⊢
        exact ih.2 other otherName hget

/-- What is declared under a name is what the name of its type declares. -/
theorem get?_declared {types : Entries Json} (hnames : types.names.Nodup)
    (hget : ∀ name,
      types.get? name = (a.types.get? name).map fun type => .string type.name)
    {declared : Entries ValueType} (h : List.mapM declaration types = .ok declared)
    (name : String) :
    (Entries.putAll [] declared).get? name =
      (a.types.get? name).bind fun type => ValueType.ofText? type.name := by
  obtain ⟨hsame, hall⟩ := get?_of_mapM_declaration h
  rw [Entries.get?_putAll (hsame ▸ hnames), Entries.get?_nil, Option.or_none]
  have htype := hget name
  cases hname : a.types.get? name with
  | none =>
      rw [hname, Option.map_none, Entries.get?_eq_none_iff, ← hsame] at htype
      exact Entries.get?_eq_none_iff.2 htype
  | some type =>
      rw [hname] at htype
      exact hall name _ htype

/-- The document of arguments that documents keep is read back from its text. -/
theorem ofText?_compact_document (hvalues : (Value.map a.values).IsJson)
    (hdepth : a.document.depth ≤ Json.maxNesting) :
    Json.ofText? a.document.compact = some a.document := by
  refine Json.ofText?_compact (Json.isExact_ofMembers (Json.membersAreExact_iff.2 ?_)) hdepth
  intro m hm
  rcases List.mem_append.1 hm with hm | hm
  · exact Json.membersAreExact_iff.1 (Value.membersAreExact_toJsonEntries _ hvalues.2) m hm
  · rw [List.mem_singleton.1 hm]
    refine Json.isExact_ofMembers (Json.membersAreExact_iff.2 fun n hn => ?_)
    obtain ⟨type, -, rfl⟩ := List.mem_map.1 hn
    exact trivial

/-- From the document of the arguments equal arguments are read, and for each declared type the
one that its name declares. -/
theorem exists_ofDocument_eq (hvalues : (Value.map a.values).IsJson)
    (hkey : typesKey ∉ a.values.names) (htypes : a.types.names.Nodup)
    (htext : Json.ofText? text = some a.document) :
    ∃ values : Entries Value, ∃ types : Entries Json,
      ofDocument text = (List.mapM declaration types).map (fun declared =>
        ⟨values, Entries.putAll [] declared⟩) ∧
      (Value.map values).equals (.map a.values) = true ∧ types.names.Nodup ∧
      ∀ name, types.get? name = (a.types.get? name).map fun type => .string type.name := by
  obtain ⟨before, after, types, hdocument, hrest, hrestKey, hrestGet, hnames, hget⟩ :=
    exists_document_eq hvalues.1 hkey htypes
  have hkeys : typesKey ∉ before.names ∧ typesKey ∉ after.names := by
    rw [Entries.names, List.map_append, List.mem_append, not_or] at hrestKey
    exact hrestKey
  let values : Entries Value := Entries.putAll [] (Value.ofJsonMembers (before ++ after))
  refine ⟨values, types, ?_, ?_, hnames, hget⟩
  · rw [ofDocument, htext, hdocument]
    exact foldlM_putMember_types hkeys.1 hkeys.2
  · have hread : (Value.ofJsonMembers (before ++ after)).names.Nodup := by
      rw [Value.ofJsonMembers_eq_map, Entries.names_map Value.ofJson]
      exact hrest
    have hempty : (Entries.names ([] : Entries Value)).Nodup := List.nodup_nil
    refine Value.equals_map (f := fun v => .ofJson v.toJson)
      (Entries.nodup_names_putAll hempty _) hvalues.1 (fun name => ?_)
      fun name v hmem => Value.equals_of_mem_entries a.values hvalues.2 hmem
    rw [Entries.get?_putAll hread, Value.ofJsonMembers_eq_map, Entries.get?_map Value.ofJson,
      hrestGet, Option.map_map]
    exact Option.or_none

/-- The arguments and the declared types are read back from the document exactly if no type of an
object is declared. -/
theorem ofDocument_document_iff (hvalues : (Value.map a.values).IsJson)
    (hkey : typesKey ∉ a.values.names) (htypes : a.types.names.Nodup)
    (htext : Json.ofText? text = some a.document) :
    (∃ b, ofDocument text = .ok b ∧ (Value.map b.values).equals (.map a.values) = true ∧
        ∀ name, b.types.get? name = a.types.get? name) ↔
      ∀ name typeName, (name, .object typeName) ∉ a.types := by
  obtain ⟨values, types, hread, hequals, hnames, hget⟩ :=
    exists_ofDocument_eq hvalues hkey htypes htext
  rw [hread]
  constructor
  · rintro ⟨b, hb, -, hsame⟩ name typeName hmem
    obtain ⟨declared, hmapM, rfl⟩ := Except.map_eq_ok_iff.1 hb
    have htype := (get?_declared hnames hget hmapM name).symm.trans (hsame name)
    rw [(Entries.get?_eq_some_iff htypes).2 hmem] at htype
    exact ValueType.ofText?_ne_object typeName htype
  · intro hobject
    have hname (name : String) (type : ValueType) (h : a.types.get? name = some type) :
        ValueType.ofText? type.name = some type := by
      refine ValueType.ofText?_name fun typeName htype => ?_
      exact hobject name typeName (htype ▸ Entries.mem_of_get?_eq_some h)
    cases hmapM : List.mapM declaration types with
    | ok declared =>
        refine ⟨_, rfl, hequals, fun name => ?_⟩
        rw [get?_declared hnames hget hmapM]
        cases htype : a.types.get? name with
        | none => rfl
        | some type => exact hname name type htype
    | error e =>
        -- Each of the types is declared by its name.
        obtain ⟨⟨name, j⟩, hmem, herror⟩ := Except.exists_mem_of_mapM_eq_error hmapM
        have hj := (Entries.get?_eq_some_iff hnames).2 hmem
        rw [hget] at hj
        obtain ⟨type, htype, rfl⟩ := Option.map_eq_some_iff.1 hj
        have hok : declaration (name, .string type.name) = .ok (name, type) :=
          declaration_eq_ok_iff.2 ⟨_, type, rfl, hname name type htype, rfl⟩
        cases herror.symm.trans hok

/-- Arguments in another order than that of their names, with nested values, and the type of a null
that is no argument. -/
theorem ofDocument_document_nested :
    let a : Arguments :=
      ⟨[("q", .list [.int64 (-3), .null]), ("m", .map [("b", .bool true), ("a", .string "x")])],
        [("q", .list), ("p", .bigint)]⟩
    (Value.map a.values).IsJson ∧ typesKey ∉ a.values.names ∧ a.types.names.Nodup ∧
      Json.ofText? a.document.compact = some a.document ∧
      ∃ b, ofDocument a.document.compact = .ok b ∧
        (Value.map b.values).equals (.map a.values) = true ∧
        ∀ name, b.types.get? name = a.types.get? name := by
  intro a
  have hvalues : (Value.map a.values).IsJson :=
    ⟨by decide, ⟨trivial, trivial, trivial⟩, ⟨by decide, trivial, trivial, trivial⟩, trivial⟩
  have htext : Json.ofText? a.document.compact = some a.document :=
    ofText?_compact_document hvalues (by decide)
  have hobject : ∀ name typeName, (name, .object typeName) ∉ a.types := by simp [a]
  exact ⟨hvalues, by decide, by decide, htext,
    (ofDocument_document_iff hvalues (by decide) (by decide) htext).2 hobject⟩

/-- The name of an object type is read as no type, so the document is refused. -/
theorem not_forall_ofDocument_document :
    ¬ ∀ (a : Arguments) (text : String), (Value.map a.values).IsJson →
        typesKey ∉ a.values.names → a.types.names.Nodup →
        Json.ofText? text = some a.document →
        ∃ b, ofDocument text = .ok b ∧ (Value.map b.values).equals (.map a.values) = true ∧
          ∀ name, b.types.get? name = a.types.get? name := by
  intro h
  let a : Arguments := ⟨[("m", .null)], [("m", .object "Member")]⟩
  have hvalues : (Value.map a.values).IsJson := ⟨by decide, trivial, trivial⟩
  have htext : Json.ofText? a.document.compact = some a.document :=
    ofText?_compact_document hvalues (by decide)
  obtain ⟨b, hb, -⟩ := h a _ hvalues (by decide) (by decide) htext
  have herror : ofDocument a.document.compact = .error (.unknownType "m" "Member") := by
    rw [ofDocument, htext]
    rfl
  cases hb.symm.trans herror

end Arguments

end SqlTemplate

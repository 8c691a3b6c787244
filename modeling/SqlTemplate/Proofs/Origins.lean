import Mathlib
import SqlTemplate.Proofs.Inlining
import SqlTemplate.Proofs.Scenes

/-!
# Where the pieces of an evaluation come from

Everything that an evaluation adds is added by a node of a scene that is reached
(`exists_adds_of_mem_traceNodes`): a text, a connector or a separator that stands there, or
what a variable gives there (`Scene.Adds`). So what holds of all that the nodes of a scene add,
in whatever loops and embedded texts, holds of the whole SQL.

On the way the configuration stays as it is, and the arguments become fewer at most
(`Scene.Reaches.partOf`).
-/

namespace SqlTemplate

open Template (Node Variable readNodes embeddedArguments traceNodes embeddingPieces)

namespace Trace

theorem mem_pieces_andThen {t : Trace} {enabled : Bool} {next : Bool → Trace} {p : Piece}
    (h : p ∈ (t.andThen enabled next).pieces) :
    p ∈ t.pieces ∨ p ∈ (next (enabled || t.counts)).pieces := by
  obtain ⟨e, he, hp⟩ := List.mem_flatMap.1 h
  rcases mem_events_andThen he with he | ⟨-, he⟩
  · exact .inl (List.mem_flatMap.2 ⟨e, he, hp⟩)
  · exact .inr (List.mem_flatMap.2 ⟨e, he, hp⟩)

theorem exists_mem_pieces_of_all {fs : List (Bool → Trace)} {enabled : Bool} {p : Piece}
    (h : p ∈ (all fs enabled).pieces) : ∃ f ∈ fs, ∃ b, p ∈ (f b).pieces := by
  induction fs generalizing enabled with
  | nil => cases h
  | cons f fs ih =>
      rcases mem_pieces_andThen h with h | h
      · exact ⟨f, List.mem_cons_self, enabled, h⟩
      · obtain ⟨g, hg, b, h⟩ := ih h
        exact ⟨g, List.mem_cons_of_mem f hg, b, h⟩

theorem exists_mem_of_ofResult {r : Except TemplateError (List Piece)} {p : Piece}
    (h : p ∈ (ofResult r).pieces) : ∃ ps, r = .ok ps ∧ p ∈ ps := by
  cases r with
  | error e => cases h
  | ok ps =>
      rw [ofResult, pieces_ofAct] at h
      exact ⟨ps, rfl, h⟩

end Trace

namespace Scene

/-- The piece is added by one of the nodes, not by what is entered from there. -/
inductive Adds : Scene → Piece → Prop where
  | text {env loops ns s} (hmem : Node.text s ∈ ns) : Adds ⟨env, loops, ns⟩ (.literal s)
  | connector {env loops ns word rest} (hmem : Node.connector word rest ∈ ns) :
      Adds ⟨env, loops, ns⟩ (.connector word)
  | rest {env loops ns word rest} (hmem : Node.connector word rest ∈ ns) :
      Adds ⟨env, loops, ns⟩ (.literal rest)
  | separator {env loops ns s} (hmem : Node.separator s ∈ ns) :
      Adds ⟨env, loops, ns⟩ (.literal s)
  | bound {env loops ns v ps p} (hmem : Node.bind v ∈ ns)
      (h : v.boundPieces env loops = .ok ps) (hp : p ∈ ps) : Adds ⟨env, loops, ns⟩ p
  | inserted {env loops ns v mode s} (hmem : Node.embedded v mode ∈ ns) :
      Adds ⟨env, loops, ns⟩ (.inserted s)

/-- The piece is added in a scene that is reached. -/
def Contains (scene : Scene) (p : Piece) : Prop :=
  ∃ reached, scene.Reaches reached ∧ reached.Adds p

theorem Adds.contains {scene : Scene} {p : Piece} (h : scene.Adds p) : scene.Contains p :=
  ⟨scene, .refl, h⟩

theorem Contains.of_enters {scene inner : Scene} {p : Piece} (h : inner.Contains p)
    (hstep : scene.Enters inner) : scene.Contains p := by
  obtain ⟨reached, hreaches, hadds⟩ := h
  exact ⟨reached, .head hstep hreaches, hadds⟩

/-- A piece of an embedded text is added in a scene that is reached from where it is embedded. -/
def Finds (env : Environment) (pieces : Variable.PieceEmbedding) : Prop :=
  ∀ {loops ns v mode r text ps p}, Node.embedded v mode ∈ ns → v.Embeds env loops r text →
    pieces loops v r text = .ok ps → p ∈ ps → Contains ⟨env, loops, ns⟩ p

end Scene

namespace Template.Node

variable {pieces : Variable.PieceEmbedding} {env : Environment}

mutual

/-- What a node adds is added in a scene that is reached from any nodes it is one of. -/
theorem contains_of_mem_trace (hpieces : Scene.Finds env pieces) {loops : List Loop}
    {enabled : Bool} {p : Piece} {ns : List Node} :
    (n : Node) → n ∈ ns → p ∈ (n.trace pieces env loops enabled).pieces →
      Scene.Contains ⟨env, loops, ns⟩ p
  | .text s, hmem, h => by
      obtain rfl := List.mem_singleton.1 h
      exact (Scene.Adds.text hmem).contains
  | .connector word rest, hmem, h => by
      rcases Trace.mem_pieces_andThen h with h | h
      · rw [Trace.pieces_ofAct, Act.pieces] at h
        split at h
        next =>
          obtain rfl := List.mem_singleton.1 h
          exact (Scene.Adds.connector hmem).contains
        next => cases h
      · obtain rfl := List.mem_singleton.1 h
        exact (Scene.Adds.rest hmem).contains
  | .bind v, hmem, h => by
      obtain ⟨ps, hps, hp⟩ := Trace.exists_mem_of_ofResult h
      exact (Scene.Adds.bound hmem hps hp).contains
  | .embedded v mode, hmem, h => by
      obtain ⟨ps, hps, hp⟩ := Trace.exists_mem_of_ofResult h
      rcases Variable.embeddedPieces_cases hps with ⟨r, text, hr, hembeds, htext, hps⟩ | hall
      · exact hpieces hmem ⟨hr, hembeds, htext⟩ hps hp
      · obtain ⟨s, rfl⟩ := hall p hp
        exact (Scene.Adds.inserted hmem).contains
  | .ifBlock condition body otherwise, hmem, h => by
      rw [trace] at h
      split at h
      next => cases h
      next htruth =>
        rw [Trace.pieces_asPart] at h
        exact (contains_of_mem_traceAll hpieces body (List.Subset.refl body) h).of_enters
          (.taken hmem htruth)
      next htruth =>
        obtain ⟨second, rfl, hsecond⟩ := contains_of_mem_traceOption hpieces otherwise h
        exact hsecond.of_enters (.otherwise hmem htruth)
  | .forBlock expression path options body, hmem, h => by
      rw [trace] at h
      split at h
      next => cases h
      next r hr =>
        split at h
        next elements helements =>
          obtain ⟨f, hf, b, h⟩ := Trace.exists_mem_pieces_of_all h
          obtain ⟨turn, hturn, rfl⟩ := List.mem_map.1 hf
          exact (contains_of_mem_traceAll hpieces body (List.Subset.refl body) h).of_enters
            (.turn hmem hr helements hturn)
        next => cases h
  | .block body, hmem, h =>
      (contains_of_mem_traceAll hpieces body (List.Subset.refl body)
        (Trace.mem_pieces_of_mem_pieces_asBlock h)).of_enters (.block hmem)
  | .first body, hmem, h => by
      rw [trace] at h
      split at h
      next hfirst =>
        exact (contains_of_mem_traceAll hpieces body (List.Subset.refl body) h).of_enters
          (.first hmem hfirst)
      next => cases h
  | .last body, hmem, h => by
      rw [trace] at h
      split at h
      next hlast =>
        exact (contains_of_mem_traceAll hpieces body (List.Subset.refl body) h).of_enters
          (.last hmem hlast)
      next => cases h
  | .separator s, hmem, h => by
      rw [trace] at h
      split at h
      next =>
        obtain rfl := List.mem_singleton.1 h
        exact (Scene.Adds.separator hmem).contains
      next => cases h

/-- The same of nodes that stand one behind the other. -/
theorem contains_of_mem_traceAll (hpieces : Scene.Finds env pieces) {loops : List Loop}
    {enabled : Bool} {p : Piece} {ns : List Node} :
    (ms : List Node) → ms ⊆ ns → p ∈ (traceAll pieces env loops enabled ms).pieces →
      Scene.Contains ⟨env, loops, ns⟩ p
  | [], _, h => nomatch h
  | m :: ms, hsub, h => by
      obtain ⟨hm, hms⟩ := List.cons_subset.1 hsub
      rcases Trace.mem_pieces_andThen h with h | h
      · exact contains_of_mem_trace hpieces m hm h
      · exact contains_of_mem_traceAll hpieces ms hms h

/-- The same of the second part of a condition. -/
theorem contains_of_mem_traceOption (hpieces : Scene.Finds env pieces) {loops : List Loop}
    {enabled : Bool} {p : Piece} :
    (otherwise : Option (List Node)) →
      p ∈ (traceOption pieces env loops enabled otherwise).pieces →
      ∃ second, otherwise = some second ∧ Scene.Contains ⟨env, loops, second⟩ p
  | none, h => nomatch h
  | some second, h => by
      rw [traceOption, Trace.pieces_asPart] at h
      exact ⟨second, rfl, contains_of_mem_traceAll hpieces second (List.Subset.refl second) h⟩

end

end Template.Node

namespace Template

/-- At every level the pieces of embedded texts are added in scenes that are reached. -/
theorem finds_embeddingPieces {levels : Nat} {env : Environment}
    (hlevels : env.remainingDepth = levels) : Scene.Finds env (embeddingPieces levels env) := by
  induction levels generalizing env with
  | zero =>
      intro loops ns v mode r text ps p hmem hembeds h
      cases h
  | succ levels ih =>
      intro loops ns v mode r text ps p hmem hembeds h hp
      obtain ⟨inner, hread, hinner⟩ := Except.bind_eq_ok_iff.1 h
      obtain ⟨-, rfl⟩ := Trace.toResult_eq_ok_iff.1 hinner
      have hdepth : 0 < env.remainingDepth := by omega
      have hnested : (env.nested (embeddedArguments v r) text).remainingDepth = levels :=
        Environment.remainingDepth_nested hlevels _ text
      exact (Node.contains_of_mem_traceAll (ih hnested) inner (List.Subset.refl inner)
        hp).of_enters (.text hmem hembeds hdepth hread)

/-- What an evaluation adds is added by a node of a scene that is reached. -/
theorem exists_adds_of_mem_traceNodes {env : Environment} {loops : List Loop} {enabled : Bool}
    {ns : List Node} {p : Piece} (h : p ∈ (traceNodes env loops enabled ns).pieces) :
    ∃ scene, Scene.Reaches ⟨env, loops, ns⟩ scene ∧ scene.Adds p :=
  Node.contains_of_mem_traceAll (finds_embeddingPieces rfl) ns (List.Subset.refl ns) h

end Template

namespace Template.Variable

variable {v : Variable} {env : Environment} {loops : List Loop}

/-- A list stands for elements that are not null. -/
theorem isNull_eq_false_of_mem_elements {w u : Value} {us : List Value}
    (h : elements w = .ok us) (hu : u ∈ us) : u.isNull = false := by
  rw [elements.eq_def] at h
  split at h
  next => cases h
  next items _ =>
    split at h
    next => cases h
    next =>
      cases h
      simpa using List.of_mem_filter hu
  next => cases h
  next => cases h

/-- A bound variable binds an element of a list, or the value that it leads to. -/
theorem placeholder_cases {ps : List Piece} {w : Value} {type : ValueType}
    (h : v.boundPieces env loops = .ok ps) (hp : .placeholder w type ∈ ps) :
    ∃ r, v.resolve env loops = .ok r ∧
      ((v.inScope = true ∧ ∃ present, elements r.target = .ok present ∧ w ∈ present ∧
          type = w.type) ∨
        (v.inScope = false ∧ w = r.target ∧ type = r.targetType)) := by
  obtain ⟨r, hr, h⟩ := Except.bind_eq_ok_iff.1 h
  refine ⟨r, hr, ?_⟩
  split at h
  next hscope =>
    obtain ⟨present, hpresent, h⟩ := Except.bind_eq_ok_iff.1 h
    cases h
    rcases mem_or_inserted_of_mem_listed hp with hp | ⟨s, -, hs⟩
    · obtain ⟨u, hu, hplaceholder⟩ := List.mem_map.1 hp
      cases hplaceholder
      exact .inl ⟨hscope, present, Except.mapError_eq_ok_iff.1 hpresent, hu, rfl⟩
    · cases hs
  next hscope =>
    obtain ⟨u, hu, h⟩ := Except.bind_eq_ok_iff.1 h
    cases h
    rcases List.mem_cons.1 hp with hplaceholder | hp
    · cases hplaceholder
      refine .inr ⟨by simpa using hscope, ?_, rfl⟩
      exact eq_of_scalar_eq_ok (Except.mapError_eq_ok_iff.1 hu)
    · obtain ⟨s, -, hs⟩ := List.mem_map.1 hp
      cases hs

end Template.Variable

namespace Environment.PartOf

variable {inner middle outer : Environment}

theorem refl (env : Environment) : env.PartOf env :=
  ⟨rfl, fun _ _ _ h => h⟩

theorem trans (h : inner.PartOf middle) (h' : middle.PartOf outer) : inner.PartOf outer where
  config := h'.config.trans h.config
  root root loops first hfirst := h'.root root loops first (h.root root loops first hfirst)

end Environment.PartOf

/-- In a scene that is reached nothing is found that is not found where the evaluation began. -/
theorem Scene.Reaches.partOf {scene reached : Scene} (h : scene.Reaches reached) :
    reached.environment.PartOf scene.environment := by
  induction h with
  | refl => exact .refl scene.environment
  | tail _ hstep ih =>
      rcases hstep.part_or_text with ⟨n, -, -, henv, -⟩ | ⟨v, mode, r, text, -, hembeds, -, -, henv⟩
      · rw [henv]
        exact ih
      · rw [henv]
        exact (Template.partOf_nested hembeds.1 _).trans ih

namespace Template

variable {t : Template} {arguments : Arguments} {config : Config} {q : BoundSql}

/-- What a template gives is put together from pieces that nodes of reached scenes add. -/
theorem exists_pieces_of_evaluate (h : t.evaluate arguments config = .ok q) :
    ∃ ps, t.pieces arguments config = .ok ps ∧ q = .ofPieces ps ∧
      ∀ p ∈ ps, ∃ scene, (t.scene arguments config).Reaches scene ∧ scene.Adds p := by
  rw [← map_pieces, Except.map_eq_ok_iff] at h
  obtain ⟨ps, hps, rfl⟩ := h
  refine ⟨ps, hps, rfl, ?_⟩
  obtain ⟨-, rfl⟩ := Trace.toResult_eq_ok_iff.1 hps
  exact fun p hp => exists_adds_of_mem_traceNodes hp

/-- The value at a place is bound in a scene that is reached, under the type at this place. -/
theorem exists_adds_of_evaluate (h : t.evaluate arguments config = .ok q) {k : Nat} {w : Value}
    {type : ValueType} (hw : q.values[k]? = some w) (ht : q.types[k]? = some type) :
    ∃ scene, (t.scene arguments config).Reaches scene ∧ scene.Adds (.placeholder w type) := by
  obtain ⟨ps, -, rfl, hall⟩ := exists_pieces_of_evaluate h
  obtain ⟨before, after, rfl, -⟩ := BoundSql.exists_placeholder hw ht
  exact hall _ (List.mem_append_right before List.mem_cons_self)

/-- Every value is bound in a scene that is reached. -/
theorem exists_adds_of_mem_values (h : t.evaluate arguments config = .ok q) {w : Value}
    (hw : w ∈ q.values) :
    ∃ type scene, (t.scene arguments config).Reaches scene ∧
      scene.Adds (.placeholder w type) := by
  obtain ⟨k, hk, hw⟩ := List.getElem_of_mem hw
  have hlength : q.types.length = q.values.length := by
    obtain ⟨ps, -, rfl, -⟩ := exists_pieces_of_evaluate h
    exact BoundSql.length_types_ofPieces ps
  have htype : k < q.types.length := hlength ▸ hk
  exact ⟨q.types[k], exists_adds_of_evaluate h (List.getElem?_eq_some_iff.2 ⟨hk, hw⟩)
    (List.getElem?_eq_getElem htype)⟩

end Template

end SqlTemplate

import SqlTemplate.Proofs.NodeTrace

/-!
# Dropped connectors

What has been done in a block before a connector is dropped. Texts were added and other
connectors were dropped, and that is all: no variable has come, no part of a condition was
finished, and no block was added (`Trace.Possible.pairwise_joinsNothing`). The texts stand
in no other parts than the connector itself.

The block counts only when a part is finished, so the texts of the parts around a connector
do not keep it from being dropped, whether they are blank or not. That the connector had
nothing to join to is the same as that these texts are blank (`Template.dropped_connector`).
-/

namespace SqlTemplate

/-- Whether the text holds blanks only. -/
def Text.AllBlank (s : String) : Prop :=
  ∀ c ∈ s.toList, isBlank c = true

/-- Whether the piece holds blanks only. -/
def Piece.IsBlank : Piece → Prop
  | .literal s | .connector s | .inserted s => Text.AllBlank s
  | .placeholder .. => False

namespace Act

/-- Whether a connector is dropped. -/
def IsDrop : Act → Prop
  | .connector _ kept => kept = false
  | _ => False

/-- Whether the act joins nothing: a text is added, or a connector is dropped. -/
def JoinsNothing : Act → Prop
  | .text _ => True
  | .connector _ kept => kept = false
  | _ => False

end Act

/-- If the second event drops a connector, the first one joins nothing and stands in no
other parts. -/
def Event.JoinsNothingBefore (e f : Event) : Prop :=
  f.act.IsDrop → e.act.JoinsNothing ∧ e.depth ≤ f.depth

namespace Trace

/-- Whether a connector behind the events has nothing to join to: no taken part of a
condition has added more than blanks, and no variable has come. -/
def NothingToJoin (es : List Event) : Prop :=
  (∀ e ∈ es, 0 < e.depth → ∀ p ∈ e.act.pieces, p.IsBlank) ∧
    ∀ e ∈ es, ∀ ps, e.act ≠ .value ps

/-- Where texts were added and connectors were dropped only, a connector has nothing to join
to if and only if the texts in parts of conditions are blank. -/
theorem nothingToJoin_iff {es : List Event} (h : ∀ e ∈ es, e.act.JoinsNothing) :
    NothingToJoin es ↔
      ∀ e ∈ es, ∀ s, e.act = .text s → 0 < e.depth → Text.AllBlank s := by
  constructor
  · intro hnothing e he s hs hdepth
    refine hnothing.1 e he hdepth (.literal s) ?_
    rw [hs]
    exact List.mem_singleton_self _
  · intro hblank
    constructor
    · intro e he hdepth p hp
      have hjoins := h e he
      cases hact : e.act with
      | text s =>
          rw [hact] at hp
          cases List.mem_singleton.1 hp
          exact hblank e he s hact hdepth
      | connector word kept =>
          rw [hact] at hjoins hp
          cases hjoins
          cases hp
      | value | partEnd | block =>
          rw [hact] at hjoins
          cases hjoins
    · intro e he ps hact
      have hjoins := h e he
      rw [hact] at hjoins
      cases hjoins

namespace Possible

variable {adjust enabled : Bool} {Given : List Piece → Prop} {t : Trace}

/-- A connector is dropped in a block that does not count. -/
theorem enabled_eq_false_of_isDrop (h : Possible adjust Given enabled t) {e : Event}
    (he : e ∈ t.events) (hdrop : e.act.IsDrop) : adjust = true ∧ enabled = false := by
  induction h generalizing e with
  | idle => cases he
  | failed => cases he
  | text =>
      cases List.mem_singleton.1 he
      cases hdrop
  | connector enabled word =>
      cases List.mem_singleton.1 he
      have hkept : (enabled || !adjust) = false := hdrop
      simpa [and_comm] using hkept
  | value =>
      cases List.mem_singleton.1 he
      cases hdrop
  | andThen ht hnext iht ihnext =>
      rcases mem_events_andThen he with he | ⟨-, he⟩
      · exact iht he hdrop
      · obtain ⟨hadjust, hcounts⟩ := ihnext he hdrop
        exact ⟨hadjust, (Bool.or_eq_false_iff.1 hcounts).1⟩
  | part ht ih =>
      rcases mem_events_asPart he with ⟨f, hf, rfl⟩ | rfl
      · exact ih hf hdrop
      · cases hdrop
  | block enabled ht ih =>
      obtain ⟨ps, rfl⟩ := mem_events_asBlock he
      cases hdrop

/-- As long as a block does not count, texts are added and connectors are dropped. -/
theorem joinsNothing_of_counts_eq_false (h : Possible adjust Given enabled t)
    (hadjust : adjust = true) (henabled : enabled = false) (hcounts : t.counts = false)
    {e : Event} (he : e ∈ t.events) : e.act.JoinsNothing := by
  induction h generalizing e with
  | idle => cases he
  | failed => cases he
  | text =>
      cases List.mem_singleton.1 he
      trivial
  | connector enabled word =>
      cases List.mem_singleton.1 he
      rw [hadjust, henabled]
      rfl
  | value =>
      cases List.mem_singleton.1 he
      cases hcounts
  | andThen ht hnext iht ihnext =>
      obtain ⟨htcounts, hncounts⟩ := counts_eq_false_of_andThen hcounts
      rcases mem_events_andThen he with he | ⟨hfailure, he⟩
      · exact iht henabled htcounts he
      · refine ihnext ?_ (hncounts hfailure) he
        rw [henabled, htcounts]
        rfl
  | part ht ih =>
      rcases mem_events_asPart he with ⟨f, hf, rfl⟩ | rfl
      · rw [counts_asPart, Bool.or_eq_false_iff] at hcounts
        have hjoins : f.act.JoinsNothing := ih henabled hcounts.1 hf
        exact hjoins
      · cases counts_eq_false_of_mem hcounts he
  | block enabled ht ih =>
      obtain ⟨ps, rfl⟩ := mem_events_asBlock he
      cases counts_eq_false_of_mem hcounts he

/-- As long as a block does not count no part is finished, so what is done without failing
stands in no part. -/
theorem depth_eq_zero_of_counts_eq_false (h : Possible adjust Given enabled t)
    (hcounts : t.counts = false) (hfailure : t.failure = none) {e : Event}
    (he : e ∈ t.events) : e.depth = 0 := by
  induction h generalizing e with
  | idle => cases he
  | failed => cases he
  | text | connector | value =>
      cases List.mem_singleton.1 he
      rfl
  | andThen ht hnext iht ihnext =>
      obtain ⟨htcounts, hncounts⟩ := counts_eq_false_of_andThen hcounts
      obtain ⟨htfailure, hnfailure⟩ := failure_eq_none_of_andThen hfailure
      rcases mem_events_andThen he with he | ⟨-, he⟩
      · exact iht htcounts htfailure he
      · exact ihnext (hncounts htfailure) hnfailure he
  | part ht ih =>
      -- A part that has not failed is finished, and so the block counts.
      rw [failure_asPart] at hfailure
      rw [counts_asPart, hfailure] at hcounts
      cases (Bool.or_eq_false_iff.1 hcounts).2
  | block enabled ht ih =>
      obtain ⟨ps, rfl⟩ := mem_events_asBlock he
      rfl

/-- All that comes before a dropped connector joins nothing and stands in no other parts. -/
theorem pairwise_joinsNothing (h : Possible adjust Given enabled t) :
    t.events.Pairwise Event.JoinsNothingBefore := by
  induction h with
  | idle => exact .nil
  | failed => exact .nil
  | text | connector | value => exact List.pairwise_singleton _ _
  | @andThen enabled t next ht hnext iht ihnext =>
      cases hf : t.failure with
      | some _ =>
          rw [Trace.andThen, hf]
          exact iht
      | none =>
          simp only [Trace.andThen, hf]
          refine List.pairwise_append.2 ⟨iht, ihnext, ?_⟩
          -- The drop shows that the first trace has not made the block count.
          intro e he f hfmem hdrop
          obtain ⟨hadjust, hcounts⟩ := hnext.enabled_eq_false_of_isDrop hfmem hdrop
          obtain ⟨henabled, hcounts⟩ := Bool.or_eq_false_iff.1 hcounts
          refine ⟨ht.joinsNothing_of_counts_eq_false hadjust henabled hcounts he, ?_⟩
          rw [ht.depth_eq_zero_of_counts_eq_false hcounts hf he]
          exact Nat.zero_le f.depth
  | @part enabled t ht ih =>
      have hmap : (t.events.map Event.inPart).Pairwise Event.JoinsNothingBefore := by
        refine List.pairwise_map.2 (ih.imp ?_)
        intro e f hef hdrop
        obtain ⟨hjoins, hdepth⟩ := hef hdrop
        exact ⟨hjoins, Nat.succ_le_succ hdepth⟩
      rw [asPart]
      split
      next => exact hmap
      next =>
        refine List.pairwise_append.2 ⟨hmap, List.pairwise_singleton _ _, ?_⟩
        intro e he f hf hdrop
        rw [List.mem_singleton.1 hf] at hdrop
        cases hdrop
  | block enabled ht ih =>
      rw [asBlock]
      split
      next => exact .nil
      next =>
        split
        next => exact List.pairwise_singleton _ _
        next => exact .nil

end Possible

end Trace

namespace Template

/-- Before a dropped connector of a block texts were added and connectors were dropped, in
no other parts than those around it. It had nothing to join to if and only if the texts of
these parts are blank. -/
theorem dropped_connector (levels : Nat) (env : Environment) (loops : List Loop)
    (body : List Node) :
    let t := Node.traceAll (embeddingPieces levels env) env loops false body
    (∀ enabled, Node.evaluate (embedding levels env) env loops enabled (.block body) =
        (t.run false).asBlock enabled) ∧
      ∀ before depth word after,
        t.events = before ++ ⟨depth, .connector word false⟩ :: after →
        (∀ e ∈ before, e.act.JoinsNothing ∧ e.depth ≤ depth) ∧
          (Trace.NothingToJoin before ↔
            ∀ e ∈ before, ∀ s, e.act = .text s → 0 < e.depth → Text.AllBlank s) := by
  intro t
  constructor
  · intro enabled
    rw [Node.evaluate, Node.run_traceAll (isOf_embeddingPieces levels env)]
  · intro before depth word after hevents
    have hpossible : Trace.Possible env.config.adjustConnector (fun _ => True) false t :=
      Node.possible_traceAll (Variable.gives_true _ env) loops false body
    have hjoins : ∀ e ∈ before, e.act.JoinsNothing ∧ e.depth ≤ depth := by
      have hpairs := hpossible.pairwise_joinsNothing
      rw [hevents, List.pairwise_append] at hpairs
      intro e he
      exact hpairs.2.2 e he _ List.mem_cons_self rfl
    exact ⟨hjoins, Trace.nothingToJoin_iff fun e he => (hjoins e he).1⟩

/-- A block with a connector in a part in a part:
`/*BEGIN*/where /*IF p.a*/X = 1/*IF p.b*/ and Y = 2/*END*//*END*//*END*/`. -/
def nestedConnector : List Node :=
  let condition (name : String) : Condition :=
    ⟨"p." ++ name, .and, [⟨"p." ++ name,
      .standalone false (.path ⟨.argument "p", [.property name]⟩)⟩]⟩
  [.text "where ",
    .ifBlock (condition "a") [
      .text "X = 1",
      .ifBlock (condition "b") [.connector " and " "Y = 2"] none] none]

/-- The environment in which both parts are taken. -/
def nestedEnvironment : Environment :=
  ⟨⟨[("p", .map [("a", .bool true), ("b", .bool true)])], []⟩, {}, "", 0⟩

/-- A connector is dropped behind the text of the part around it. -/
theorem dropped_connector_nested :
    let before : List Event := [⟨0, .text "where "⟩, ⟨1, .text "X = 1"⟩]
    let t := Node.traceAll (embeddingPieces 8 nestedEnvironment) nestedEnvironment [] false
      nestedConnector
    t.events = before ++ ⟨2, .connector " and " false⟩ ::
        [⟨2, .text "Y = 2"⟩, ⟨1, .partEnd⟩, ⟨0, .partEnd⟩] ∧
      (t.run false).added.sql = "where X = 1Y = 2" ∧ ¬ Trace.NothingToJoin before := by
  intro before t
  have hevents : t.events = before ++ ⟨2, .connector " and " false⟩ ::
      [⟨2, .text "Y = 2"⟩, ⟨1, .partEnd⟩, ⟨0, .partEnd⟩] := by cbv
  have hsql : (t.run false).added.sql = "where X = 1Y = 2" := by cbv
  refine ⟨hevents, hsql, ?_⟩
  rw [((dropped_connector 8 nestedEnvironment [] nestedConnector).2 before _ _ _ hevents).2]
  intro hblank
  have hX : Text.isBlank 'X' = true :=
    hblank ⟨1, .text "X = 1"⟩ (by simp [before]) "X = 1" rfl (by decide) 'X' (by decide)
  cases hX

/-- A connector may be dropped though it has something to join to. -/
theorem not_forall_nothingToJoin :
    ¬ ∀ (levels : Nat) (env : Environment) (loops : List Loop) (body : List Node),
      env.config.adjustConnector = true → ∀ before depth word after,
      (Node.traceAll (embeddingPieces levels env) env loops false body).events =
        before ++ ⟨depth, .connector word false⟩ :: after →
      Trace.NothingToJoin before := by
  intro h
  have hevents : (Node.traceAll (embeddingPieces 8 nestedEnvironment) nestedEnvironment []
      false nestedConnector).events =
        [⟨0, .text "where "⟩, ⟨1, .text "X = 1"⟩] ++ ⟨2, .connector " and " false⟩ ::
          [⟨2, .text "Y = 2"⟩, ⟨1, .partEnd⟩, ⟨0, .partEnd⟩] := by cbv
  have hblank : Text.AllBlank "X = 1" :=
    (h 8 nestedEnvironment [] nestedConnector rfl _ _ _ _ hevents).1 ⟨1, .text "X = 1"⟩
      (by simp) (by decide) (.literal "X = 1") (List.mem_singleton_self _)
  have hX : Text.isBlank 'X' = true := hblank 'X' (by decide)
  cases hX

end Template

end SqlTemplate

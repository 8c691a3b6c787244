import Mathlib
import SqlTemplate.Proofs.Grammar
import SqlTemplate.Proofs.Lexemes

/-!
# Reading with a stack of open blocks

A template can be read in one pass, comment by comment, with the open blocks on a stack
(`Machine.run`). The opening of a block puts a frame on the stack, its end takes one off, and
the mark of a second part is accepted in one state of a frame only. Loops are looked for on the
stack. At the end of the text the stack has to be empty; of several open blocks the innermost
one is named.

The descent finds the same nodes in every text, or the same error (`readNodes_eq_readByStack`).
What it does with the lexemes of a part is what the machine does with them, up to the mark that
ends the part (`Machine.exists_runLexemes_of_reads`).
-/

namespace SqlTemplate.Template

/-- A block that is open. -/
structure Frame where
  /-- The nodes before the block, in the block around it. -/
  before : List Node
  opening : Opening
  place : Place
  /-- The nodes of the first part, if the second part has begun. -/
  first? : Option (List Node)

/-- The open blocks, from the innermost outwards, and the nodes of the part that is read. -/
structure Machine where
  frames : List Frame
  nodes : List Node

namespace Machine

/-- No block is open and nothing is read. -/
def start : Machine := ⟨[], []⟩

/-- Whether the machine is in a loop; the flag says whether the text stands in one. -/
def inLoop (m : Machine) (outer : Bool) : Bool :=
  outer || m.frames.any fun f => f.opening.isLoop

/-- Puts a node behind the others. -/
def add (m : Machine) (n : Node) : Machine :=
  { m with nodes := m.nodes ++ [n] }

/-- Opens a block. -/
def push (m : Machine) (o : Opening) (p : Place) : Machine :=
  ⟨⟨m.nodes, o, p, none⟩ :: m.frames, []⟩

/-- Ends the innermost block, if there is one. -/
def pop? (m : Machine) : Option Machine :=
  match m.frames with
  | [] => none
  | ⟨before, o, _, none⟩ :: fs => some ⟨fs, before ++ [o.node m.nodes none]⟩
  | ⟨before, o, _, some part⟩ :: fs => some ⟨fs, before ++ [o.node part (some m.nodes)]⟩

/-- Begins the second part of the innermost block, if that is a condition without one. -/
def switch? (m : Machine) : Option Machine :=
  match m.frames with
  | ⟨before, .ifBlock condition, p, none⟩ :: fs =>
    some ⟨⟨before, .ifBlock condition, p, some m.nodes⟩ :: fs, []⟩
  | _ => none

/-- Reads a comment with the test value behind it. -/
def step (m : Machine) (s : Source) (outer : Bool) (p : Place) (testValue : List Char) :
    Except TemplateError Machine :=
  match Directive.ofBody p.body with
  | .plain => .ok (m.add (.text (String.ofList (commentText p.body))))
  | .bind e => do
    let v ← s.readVariable (m.inLoop outer) p e testValue
    return m.add (.bind v)
  | .embedded mode e => do
    let v ← s.readVariable (m.inLoop outer) p e testValue
    return m.add (.embedded v mode)
  | .ifMark e => do
    let condition ← s.readCondition (m.inLoop outer) e
    return m.push (.ifBlock condition) p
  | .forMark e => do
    let (path, options) ← s.readPath (m.inLoop outer) p e
    if options.notLike then .error (s.malformed p "notLike cannot be used on a FOR source")
    else return m.push (.forBlock (String.ofList (Text.trim e)) path options) p
  | .beginMark => .ok (m.push .block p)
  | .firstMark => if m.inLoop outer then .ok (m.push .first p) else .error (s.unexpected p)
  | .lastMark => if m.inLoop outer then .ok (m.push .last p) else .error (s.unexpected p)
  | .nextMark t =>
    if m.inLoop outer then
      match Source.quoted? t with
      | some t => .ok (m.add (.separator (String.ofList t)))
      | none => .error (s.malformed p "NEXT needs a quoted text")
    else .error (s.unexpected p)
  | .elseMark => m.switch?.elim (.error (s.unexpected p)) .ok
  | .endMark => m.pop?.elim (.error (s.unexpected p)) .ok

/-- The nodes of the whole text, at its end. -/
def finish (m : Machine) (s : Source) : Except TemplateError (List Node) :=
  match m.frames with
  | [] => .ok m.nodes
  | f :: _ =>
    let p := f.place
    .error (s.fail (.unclosedBlock p.directive p.start.line p.start.column) (Text.trim p.body))

/-- Reads the rest of a text. -/
def run (m : Machine) (s : Source) (outer : Bool) (c : Cursor) :
    Except TemplateError (List Node) :=
  match h : c.next with
  | .error kind => .error (s.fail kind [])
  | .ok (.stop, _) => m.finish s
  | .ok (.text t, c') =>
    have := Cursor.length_rest_next_lt h (by simp)
    (m.add (.text t)).run s outer c'
  | .ok (.comment body, c') =>
    have h₁ := Cursor.length_rest_next_lt h (by simp)
    have h₂ := c'.length_rest_takeTestValue_le (.ofBody body.toList)
    let taken := c'.takeTestValue (.ofBody body.toList)
    match m.step s outer ⟨body.toList, c.position⟩ taken.1 with
    | .error e => .error e
    | .ok m' => m'.run s outer taken.2
termination_by c.rest.length

end Machine

/-- Reads the nodes of a text with a stack of open blocks. -/
def readByStack (text : String) (inLoop : Bool) : Except TemplateError (List Node) :=
  Machine.start.run ⟨text, none⟩ inLoop (.ofText text)

namespace Machine

variable {s : Source} {outer : Bool} {m : Machine}

/-- Reads lexemes, behind which there is a fault or the end of the text. -/
def runLexemes (m : Machine) (s : Source) (outer : Bool) (fault : Option ErrorKind) :
    List Lexeme → Except TemplateError (List Node)
  | [] =>
    match fault with
    | some kind => .error (s.fail kind [])
    | none => m.finish s
  | .text t :: ls => (m.add (.text t)).runLexemes s outer fault ls
  | .comment body start testValue :: ls =>
    match m.step s outer ⟨body, start⟩ testValue with
    | .error e => .error e
    | .ok m' => m'.runLexemes s outer fault ls

/-- One pass over the text is one pass over its lexemes. -/
theorem run_of_lexes {c : Cursor} {ls : List Lexeme} {fault : Option ErrorKind}
    (h : c.Lexes ls fault) (m : Machine) :
    m.run s outer c = m.runLexemes s outer fault ls := by
  induction h generalizing m with
  | fault hnext =>
      rw [run]
      split <;> simp_all [runLexemes]
  | stop hnext =>
      rw [run]
      split <;> simp_all [runLexemes]
  | text hnext _ ih =>
      rw [run]
      split <;> simp_all [runLexemes]
  | comment hnext _ ih =>
      rw [run]
      split <;> simp_all [runLexemes]

/-- The machine with nodes behind the others. -/
def addAll (m : Machine) (ns : List Node) : Machine :=
  { m with nodes := m.nodes ++ ns }

/-- The machine behind the mark that ends a part, if the mark may stand there. -/
def closedBy (m : Machine) : Closing → Option Machine
  | .stop => some m
  | .endMark => m.pop?
  | .elseMark => m.switch?

/-- The machine behind a comment, given what the comment says. -/
def after (m : Machine) (s : Source) (p : Place) : Item → Except TemplateError Machine
  | .node n => .ok (m.add n)
  | .opening o => .ok (m.push o p)
  | .closing c => (m.closedBy c).elim (.error (s.unexpected p)) .ok

/-- The innermost open block. -/
def block? (m : Machine) : Option OpenBlock :=
  m.frames.head?.map fun f => ⟨f.place, f.opening.allowsElse && f.first?.isNone⟩

theorem step_eq (p : Place) (testValue : List Char) :
    m.step s outer p testValue =
      s.item (m.inLoop outer) p testValue >>= m.after s p := by
  rw [step, Source.item]
  cases Directive.ofBody p.body with
  | ifMark e =>
      dsimp only
      cases s.readCondition (m.inLoop outer) e <;> rfl
  | bind e =>
      dsimp only
      cases s.readVariable (m.inLoop outer) p e testValue <;> rfl
  | embedded mode e =>
      dsimp only
      cases s.readVariable (m.inLoop outer) p e testValue <;> rfl
  | forMark e =>
      dsimp only
      cases s.readPath (m.inLoop outer) p e with
      | error e => rfl
      | ok r =>
          dsimp only [bind, Except.bind]
          split <;> rfl
  | nextMark t =>
      dsimp only
      split
      next => cases Source.quoted? t <;> rfl
      next => rfl
  | firstMark | lastMark =>
      dsimp only
      split <;> rfl
  | plain | beginMark | endMark | elseMark => rfl

theorem step_eq_of_item {fault : Option ErrorKind} {inLoop : Bool} {p : Place}
    {testValue : List Char} {i : Item} (hloop : m.inLoop outer = inLoop)
    (h : Source.item ⟨s.text, fault⟩ inLoop p testValue = .ok i) :
    m.step s outer p testValue = m.after s p i := by
  have hitem : s.item inLoop p testValue = .ok i := h
  rw [step_eq, hloop, hitem]
  rfl

@[simp] theorem addAll_nil (m : Machine) : m.addAll [] = m := by
  rw [addAll, List.append_nil]

theorem addAll_cons (m : Machine) (n : Node) (ns : List Node) :
    m.addAll (n :: ns) = (m.add n).addAll ns := by
  rw [addAll, addAll, add, List.append_assoc]
  rfl

theorem inLoop_push (m : Machine) (o : Opening) (p : Place) :
    (m.push o p).inLoop outer = (m.inLoop outer || o.isLoop) := by
  rw [inLoop, inLoop, push, List.any_cons, Bool.or_assoc]
  exact congrArg (outer || ·) (Bool.or_comm _ _)

theorem pop?_addAll_push (m : Machine) (o : Opening) (p : Place) (part : List Node) :
    ((m.push o p).addAll part).pop? = some (m.add (o.node part none)) := rfl

/-- The machine in the second part of a block. -/
def pushSecond (m : Machine) (o : Opening) (p : Place) (part : List Node) : Machine :=
  ⟨⟨m.nodes, o, p, some part⟩ :: m.frames, []⟩

theorem inLoop_pushSecond (m : Machine) (o : Opening) (p : Place) (part : List Node) :
    (m.pushSecond o p part).inLoop outer = (m.inLoop outer || o.isLoop) :=
  inLoop_push m o p

theorem block?_push (m : Machine) (o : Opening) (p : Place) :
    (m.push o p).block? = some ⟨p, o.allowsElse⟩ := by
  simp [push, block?]

theorem block?_pushSecond (m : Machine) (o : Opening) (p : Place) (part : List Node) :
    (m.pushSecond o p part).block? = some ⟨p, false⟩ := by
  simp [pushSecond, block?]

theorem switch?_addAll_push {o : Opening} (h : o.allowsElse = true) (m : Machine) (p : Place)
    (part : List Node) : ((m.push o p).addAll part).switch? = some (m.pushSecond o p part) := by
  cases o with
  | ifBlock condition => rfl
  | forBlock | block | first | last => cases h

theorem pop?_addAll_pushSecond (m : Machine) (o : Opening) (p : Place)
    (part second : List Node) :
    ((m.pushSecond o p part).addAll second).pop? =
      some (m.add (o.node part (some second))) := rfl

/-- Where a mark may end a sequence is where the machine accepts it. -/
theorem isSome_closedBy {c : Closing} (hc : c ≠ .stop) (m : Machine) :
    (m.closedBy c).isSome = c.closes m.block? := by
  obtain ⟨frames, nodes⟩ := m
  cases frames with
  | nil =>
      cases c with
      | stop => exact absurd rfl hc
      | endMark => rfl
      | elseMark => rfl
  | cons f fs =>
      obtain ⟨before, o, p, first?⟩ := f
      cases c with
      | stop => exact absurd rfl hc
      | endMark => cases first? <;> rfl
      | elseMark => cases o <;> cases first? <;> rfl

/-- The machine reads the nodes that the rules allow, and goes on behind the mark. -/
theorem exists_runLexemes_of_reads {fault : Option ErrorKind} {inLoop : Bool}
    {ls : List Lexeme} {ns : List Node} {c : Closing} {rest : List Lexeme}
    (h : Source.Reads ⟨s.text, fault⟩ inLoop ls ns c rest) (hloop : m.inLoop outer = inLoop)
    (hcloses : c.closes m.block? = true) :
    ∃ m', (m.addAll ns).closedBy c = some m' ∧
      m.runLexemes s outer fault ls = m'.runLexemes s outer fault rest := by
  -- The machine varies: a part is read with one more frame, what is behind it without.
  induction h generalizing m with
  | stop => exact ⟨m, by rw [addAll_nil]; rfl, rfl⟩
  | @text _ t _ _ _ _ _ ih =>
      rw [addAll_cons, runLexemes]
      exact ih hloop hcloses
  | @node _ _ _ _ n _ _ _ _ hitem _ ih =>
      have hstep := step_eq_of_item hloop hitem
      rw [addAll_cons, runLexemes, hstep]
      exact ih hloop hcloses
  | @closing _ _ _ _ c _ hitem =>
      have hstep := step_eq_of_item hloop hitem
      have hsome : (m.closedBy c).isSome = true := by
        rw [isSome_closedBy, hcloses]
        rintro rfl
        exact Source.item_ne_closing_stop _ _ _ hitem
      obtain ⟨m', hm'⟩ := Option.isSome_iff_exists.1 hsome
      rw [after, hm'] at hstep
      rw [addAll_nil, runLexemes, hstep]
      exact ⟨m', hm', rfl⟩
  | @block _ body start _ o part _ _ _ _ _ hitem _ _ ihpart ihrest =>
      have hstep := step_eq_of_item hloop hitem
      obtain ⟨m₁, hm₁, hpart⟩ := ihpart (m := m.push o ⟨body, start⟩)
        (by rw [inLoop_push, hloop]) rfl
      cases (pop?_addAll_push m o ⟨body, start⟩ part).symm.trans hm₁
      rw [addAll_cons, runLexemes, hstep]
      dsimp only [after]
      rw [hpart]
      exact ihrest hloop hcloses
  | @parts _ body start _ o part _ second _ _ _ _ _ hitem hallows _ _ _ ihpart ihsecond
      ihrest =>
      have hstep := step_eq_of_item hloop hitem
      obtain ⟨m₁, hm₁, hpart⟩ := ihpart (m := m.push o ⟨body, start⟩)
        (by rw [inLoop_push, hloop]) (by rw [block?_push]; exact hallows)
      cases (switch?_addAll_push hallows m ⟨body, start⟩ part).symm.trans hm₁
      obtain ⟨m₂, hm₂, hsecond⟩ := ihsecond (m := m.pushSecond o ⟨body, start⟩ part)
        (by rw [inLoop_pushSecond, hloop]) rfl
      cases (pop?_addAll_pushSecond m o ⟨body, start⟩ part second).symm.trans hm₂
      rw [addAll_cons, runLexemes, hstep]
      dsimp only [after]
      rw [hpart, hsecond]
      exact ihrest hloop hcloses

section Blocks

variable {fault : Option ErrorKind} {inLoop : Bool} {o : Opening} {ls mid : List Lexeme}
  {part second : List Node}

theorem runLexemes_push (hloop : m.inLoop outer = inLoop) (p : Place)
    (h : Source.Reads ⟨s.text, fault⟩ (inLoop || o.isLoop) ls part .endMark mid) :
    (m.push o p).runLexemes s outer fault ls =
      (m.add (o.node part none)).runLexemes s outer fault mid := by
  obtain ⟨m', hm', hrun⟩ := exists_runLexemes_of_reads h (m := m.push o p)
    (by rw [inLoop_push, hloop]) (by rw [block?_push]; rfl)
  cases (pop?_addAll_push m o p part).symm.trans hm'
  exact hrun

theorem runLexemes_push_of_elseMark (hloop : m.inLoop outer = inLoop) (p : Place)
    (hallows : o.allowsElse = true)
    (h : Source.Reads ⟨s.text, fault⟩ (inLoop || o.isLoop) ls part .elseMark mid) :
    (m.push o p).runLexemes s outer fault ls =
      (m.pushSecond o p part).runLexemes s outer fault mid := by
  obtain ⟨m', hm', hrun⟩ := exists_runLexemes_of_reads h (m := m.push o p)
    (by rw [inLoop_push, hloop]) (by rw [block?_push]; exact hallows)
  cases (switch?_addAll_push hallows m p part).symm.trans hm'
  exact hrun

theorem runLexemes_pushSecond (hloop : m.inLoop outer = inLoop) (p : Place)
    (h : Source.Reads ⟨s.text, fault⟩ (inLoop || o.isLoop) ls second .endMark mid) :
    (m.pushSecond o p part).runLexemes s outer fault ls =
      (m.add (o.node part (some second))).runLexemes s outer fault mid := by
  obtain ⟨m', hm', hrun⟩ := exists_runLexemes_of_reads h (m := m.pushSecond o p part)
    (by rw [inLoop_pushSecond, hloop]) (by rw [block?_pushSecond]; rfl)
  cases (pop?_addAll_pushSecond m o p part second).symm.trans hm'
  exact hrun

end Blocks

/-- The machine stops at the error at which the descent stops. -/
theorem runLexemes_of_fails {fault : Option ErrorKind} {inLoop : Bool}
    {block : Option OpenBlock} {ls : List Lexeme} {e : TemplateError}
    (h : Source.Fails ⟨s.text, fault⟩ inLoop block ls e) (hloop : m.inLoop outer = inLoop)
    (hblock : m.block? = block) : m.runLexemes s outer fault ls = .error e := by
  induction h generalizing m with
  | fault hfault =>
      obtain rfl : fault = some _ := hfault
      rfl
  | unclosed hfault =>
      obtain rfl : fault = none := hfault
      obtain ⟨f, hf, rfl⟩ := Option.map_eq_some_iff.1 hblock
      obtain ⟨fs, hframes⟩ := List.head?_eq_some_iff.1 hf
      rw [runLexemes, finish, hframes]
      rfl
  | text _ ih =>
      rw [runLexemes]
      exact ih hloop hblock
  | @item inLoop _ body start testValue _ e hitem =>
      have hitem' : s.item inLoop ⟨body, start⟩ testValue = .error e := hitem
      rw [runLexemes, step_eq, hloop, hitem']
      rfl
  | node hitem _ ih =>
      rw [runLexemes, step_eq_of_item hloop hitem]
      exact ih hloop hblock
  | @unexpected _ _ _ _ _ c _ hitem hcloses =>
      -- What the descent refuses in a block the innermost frame refuses.
      have hnone : m.closedBy c = none := by
        rw [← Option.not_isSome_iff_eq_none, isSome_closedBy, hblock, hcloses]
        · exact Bool.false_ne_true
        · rintro rfl
          exact Source.item_ne_closing_stop _ _ _ hitem
      rw [runLexemes, step_eq_of_item hloop hitem, after, hnone]
      rfl
  | part hitem _ ih =>
      rw [runLexemes, step_eq_of_item hloop hitem]
      exact ih (by rw [inLoop_push, hloop]) (block?_push m _ _)
  | second hitem hallows hpart _ ih =>
      rw [runLexemes, step_eq_of_item hloop hitem, after]
      dsimp only
      rw [runLexemes_push_of_elseMark hloop _ hallows hpart]
      exact ih (by rw [inLoop_pushSecond, hloop]) (block?_pushSecond m _ _ _)
  | behindBlock hitem hpart _ ih =>
      rw [runLexemes, step_eq_of_item hloop hitem, after]
      dsimp only
      rw [runLexemes_push hloop _ hpart]
      exact ih hloop hblock
  | behindParts hitem hallows hpart hsecond _ ih =>
      rw [runLexemes, step_eq_of_item hloop hitem, after]
      dsimp only
      rw [runLexemes_push_of_elseMark hloop _ hallows hpart,
        runLexemes_pushSecond hloop _ hsecond]
      exact ih hloop hblock

end Machine

/-- The descent and the stack of open blocks read every text alike: they find the same nodes,
or they stop at the same error. -/
theorem readNodes_eq_readByStack (text : String) (inLoop : Bool) :
    readNodes text inLoop = readByStack text inLoop := by
  have hlexes := Cursor.lexes_readAll (.ofText text)
  have hloop : Machine.start.inLoop inLoop = inLoop := Bool.or_false inLoop
  rw [readByStack, Machine.run_of_lexes hlexes]
  cases h : readNodes text inLoop with
  | error e =>
      rcases Except.bind_eq_error_iff.1 h with h | ⟨r, -, h⟩
      · have hfails := Source.fails_of_sequence_eq_error h
        exact (Machine.runLexemes_of_fails (s := ⟨text, none⟩) hfails hloop rfl).symm
      · cases h
  | ok ns =>
      have hreads := readNodes_eq_ok_iff.1 h
      obtain ⟨m, hm, hrun⟩ :=
        Machine.exists_runLexemes_of_reads (s := ⟨text, none⟩) hreads hloop rfl
      cases hm
      have hfault : (Lexeme.readAll (.ofText text)).2 = none := fault_eq_none_of_reads hreads rfl
      rw [hrun, hfault]
      rfl

end SqlTemplate.Template

import SqlTemplate.Like
import SqlTemplate.Text.Blank
import SqlTemplate.Text.Split

/-!
# Options of a path

A path in a comment may be followed by a colon and options separated by bars: one LIKE
option, or the option that keeps a variable from taking over the LIKE option of the loop
around it. `Options.split` cuts a path off its options and says in words what is wrong
with options it does not accept.
-/

namespace SqlTemplate

/-- What is said behind the colon of a path. -/
structure Options where
  /-- The LIKE option of the path itself. -/
  like : Option Like
  /-- Whether the LIKE option of the enclosing loop is not taken over. -/
  notLike : Bool
deriving DecidableEq, Repr

namespace Options

def none : Options := ⟨.none, false⟩

/-- The name of the option against taking over. -/
def notLikeKeyword : String := "notLike"

/-- Adds one option; `expression` is the whole text, for messages. -/
def add (expression : String) (o : Options) (option : List Char) : Except String Options :=
  let word := String.ofList (Text.trim option)
  if word = notLikeKeyword then .ok { o with notLike := true }
  else
    match Like.ofKeyword? word, o.like with
    | .none, _ => .error ("unknown option '" ++ word ++ "' in '" ++ expression ++ "'")
    | some like, .none => .ok { o with like := some like }
    | some like, some existing =>
      .error ("options '" ++ existing.keyword ++ "' and '" ++ like.keyword
        ++ "' cannot be combined in '" ++ expression ++ "'")

/-- Cuts an expression into the text of its path and its options. -/
def split (expression : String) : Except String (List Char × Options) :=
  match Text.cutAtChar? ':' expression.toList with
  | .none => .ok (Text.trim expression.toList, none)
  | some (path, options) => do
    let o ← (Text.fields '|' options).foldlM (add expression) none
    if o.notLike && o.like.isSome then
      .error ("'" ++ notLikeKeyword ++ "' cannot be combined with a like option in '"
        ++ expression ++ "'")
    else .ok (Text.trim path, o)

/-- The LIKE option that counts, given the one of the enclosing loop. -/
def effective (o : Options) (inherited : Option Like) : Option Like :=
  if o.notLike then .none else o.like.or inherited

@[simp] theorem effective_none (inherited : Option Like) :
    none.effective inherited = inherited := by
  simp [effective, none]

end Options

end SqlTemplate

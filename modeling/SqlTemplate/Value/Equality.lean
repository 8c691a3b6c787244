import SqlTemplate.Value.Basic

/-!
# Equality of values

Two values are equal if they have one representation and denote one thing: decimals are
equal as numbers whatever their scales, lists item by item in order, maps by their keys
whatever the order, objects only if they are the same object. A NaN is equal to nothing.
Numbers of two representations are not equal here; comparing them as numbers is the
business of conditions.
-/

namespace SqlTemplate.Value

mutual

def equals : Value → Value → Bool
  | .null, .null => true
  | .bool a, .bool b => a == b
  | .int32 a, .int32 b => a == b
  | .int64 a, .int64 b => a == b
  | .float64 a, .float64 b => a.equals b
  | .decimal a, .decimal b => a.equals b
  | .string a, .string b => a == b
  | .bytes a, .bytes b => a == b
  | .date a, .date b => a == b
  | .dateTime a, .dateTime b => a == b
  | .time a, .time b => a == b
  | .list as, .list bs => equalItems as bs
  | .map as, .map bs => as.length == bs.length && containedIn as bs
  | .object a, .object b => a.identity == b.identity
  | _, _ => false

/-- Whether two lists have equal items in order. -/
def equalItems : List Value → List Value → Bool
  | [], [] => true
  | a :: as, b :: bs => equals a b && equalItems as bs
  | _, _ => false

/-- Whether all entries have an equal one under their name. -/
def containedIn : List (String × Value) → List (String × Value) → Bool
  | [], _ => true
  | (name, a) :: as, bs =>
    (match Entries.get? name bs with
      | some b => equals a b
      | none => false) && containedIn as bs

end

end SqlTemplate.Value

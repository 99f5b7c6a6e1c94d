import NodeFleet.Cron.Column

/-!
# Fields of a schedule

A field is a list of items.  Each item stands for some numbers of its column,
or is refused by the column; the field stands for all of them together.
-/

namespace NodeFleet.Cron

/-- The numbers that an item starts from. -/
inductive Span
  | all
  | single (value : Nat)
  | range (first last : Nat)
  | namedRange (first last : List Char)
  deriving DecidableEq, Repr

inductive Item
  | plain (span : Span)
  | stepped (span : Span) (step : Nat)
  | named (name : List Char)
  deriving DecidableEq, Repr

namespace Column

/-- The numbers from `first` to `last`, if both lie in the column in this
order. -/
def between? (column : Column) (first last : Nat) : Option (List Nat) :=
  if column.admits first ∧ column.admits last ∧ first ≤ last then
    some (List.range' first (last + 1 - first))
  else none

def spanned? (column : Column) : Span → Option (List Nat)
  | .all => some column.all
  | .single value => column.between? value value
  | .range first last => column.between? first last
  | .namedRange first last => do
      column.between? (← column.numberOf? first) (← column.numberOf? last)

/-- The numbers that a step runs over; a single number starts a run to the end
of the column. -/
def stepBase? (column : Column) : Span → Option (List Nat)
  | .single value => column.between? value column.high
  | span => column.spanned? span

end Column

/-- Every `step`-th member of a list, from the first; `wait` members are passed
over before it. -/
def everyNth (step : Nat) : Nat → List Nat → List Nat
  | _, [] => []
  | 0, value :: rest => value :: everyNth step (step - 1) rest
  | wait + 1, _ :: rest => everyNth step wait rest

namespace Column

def itemNumbers? (column : Column) : Item → Option (List Nat)
  | .plain span => column.spanned? span
  | .stepped span step =>
      if step = 0 then none else (column.stepBase? span).map (everyNth step 0)
  | .named name => (column.numberOf? name).map fun value => [value]

/-- The numbers of a field, in increasing order. -/
def fieldNumbers? (column : Column) (items : List Item) : Option (List Nat) := do
  let numbers ← items.mapM column.itemNumbers?
  return column.all.filter fun value => numbers.any (·.contains value)

end Column

end NodeFleet.Cron

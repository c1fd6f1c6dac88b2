/-!
# Ordered associations

Pairs of keys and values, in the order in which the keys were first assigned. A
later assignment changes the value and keeps the place.
-/
namespace SqlRenewal

/-- Assigns a value to a key. -/
def assign {α β : Type} [DecidableEq α] (key : α) (value : β) (pairs : List (α × β)) :
    List (α × β) :=
  if pairs.any fun pair => pair.1 == key then
    pairs.map fun pair => if pair.1 = key then (key, value) else pair
  else pairs ++ [(key, value)]

/-- The value of a key. -/
def valueOf? {α β : Type} [DecidableEq α] (key : α) (pairs : List (α × β)) : Option β :=
  (pairs.find? fun pair => pair.1 == key).map (·.2)

end SqlRenewal

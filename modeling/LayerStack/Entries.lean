/-!
# LayerStack.Entries

Things under keys, in the order in which the keys came first.

A key has one value.  Giving it another one leaves it in its place, so the order of entries tells nothing of later
changes.
-/

namespace LayerStack

/-- Things under keys. -/
abbrev Entries (κ β : Type) := List (κ × β)

namespace Entries

variable {κ β : Type} [BEq κ]

/-- Is there an entry for a key? -/
def has (entries : Entries κ β) (key : κ) : Bool := entries.any (·.1 == key)

/-- Gives a key a value; a new key goes to the end. -/
def put (entries : Entries κ β) (key : κ) (value : β) : Entries κ β :=
  if entries.has key then entries.map fun (k, v) => (k, if k == key then value else v) else entries ++ [(key, value)]

/-- Gives keys values, one after the other. -/
def putAll (entries more : Entries κ β) : Entries κ β :=
  more.foldl (fun entries (key, value) => entries.put key value) entries

/-- The entries that pairs make, a later one replacing an earlier one of its key. -/
def ofPairs (pairs : List (κ × β)) : Entries κ β := putAll [] pairs

/-- Takes a key away, if it is there. -/
def erase? (entries : Entries κ β) (key : κ) : Option (Entries κ β) :=
  if entries.has key then some (entries.filter fun (k, _) => !(k == key)) else none

end Entries

end LayerStack

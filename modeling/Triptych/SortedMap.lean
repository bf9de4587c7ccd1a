/-!
# Maps with sorted keys

A finite map from strings, as the list of its entries in the order of their keys. Keys are compared
code point by code point, which is also the order of their UTF-8 bytes. The order is kept by
`insert`, so two maps with the same entries are the same list.
-/

namespace Triptych

/-- The entries of a map, sorted by key. -/
abbrev SortedMap (α : Type) := List (String × α)

namespace SortedMap

variable {α : Type}

/-- Sets the value of a key: an old value is replaced, a new key goes to its place. -/
def insert (key : String) (value : α) : SortedMap α → SortedMap α
  | [] => [(key, value)]
  | (k, v) :: rest =>
    if key < k then (key, value) :: (k, v) :: rest
    else if key = k then (key, value) :: rest
    else (k, v) :: insert key value rest

/-- The value of a key. -/
def get? (key : String) (map : SortedMap α) : Option α :=
  (List.find? (fun entry => entry.1 == key) map).map Prod.snd

/-- The keys, in order. -/
def keys (map : SortedMap α) : List String :=
  List.map Prod.fst map

/-- The map that a list of entries describes; of several entries with one key the last counts. -/
def ofEntries (entries : List (String × α)) : SortedMap α :=
  entries.foldl (fun map entry => insert entry.1 entry.2 map) []

end SortedMap

end Triptych

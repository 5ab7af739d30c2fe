import Mathlib.Data.List.AList

/-!
# Maps with an unspecified iteration order

A loop over a map visits every entry once, in an order that is chosen anew each time.
`MapOrder` is one such choice; what a program computes is claimed for all of them.
-/

namespace Gocoon.GoMaps

set_option autoImplicit false

abbrev GoMap (Key Value : Type) := AList fun _ : Key => Value

abbrev Entry (Key Value : Type) := Sigma fun _ : Key => Value

structure MapOrder (Key Value : Type) where
  visit : GoMap Key Value → List (Entry Key Value)
  everyEntry : ∀ source, (visit source).Perm source.entries

variable {Key Value : Type}

def storedOrder (Key Value : Type) : MapOrder Key Value where
  visit := fun source => source.entries
  everyEntry := fun _ => .rfl

theorem visit_distinct (order : MapOrder Key Value) (source : GoMap Key Value) :
    (order.visit source).NodupKeys :=
  (List.perm_nodupKeys (order.everyEntry source)).mpr source.nodupKeys

theorem visit_lookup [DecidableEq Key] (order : MapOrder Key Value) (source : GoMap Key Value)
    (key : Key) : (order.visit source).dlookup key = source.lookup key :=
  List.perm_dlookup key (visit_distinct order source) (order.everyEntry source)

theorem mem_visit [DecidableEq Key] (order : MapOrder Key Value) (source : GoMap Key Value)
    (key : Key) (value : Value) :
    ⟨key, value⟩ ∈ order.visit source ↔ source.lookup key = some value := by
  rw [(order.everyEntry source).mem_iff]
  exact AList.mem_lookup_iff.symm

end Gocoon.GoMaps

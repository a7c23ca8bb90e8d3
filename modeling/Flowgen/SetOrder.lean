namespace Flowgen

/-!
# Walking through sets

A set of names has no order of its own, but whoever walks through it meets its
names one after the other.  The order follows from how the running process
hashes texts, and from the order in which the names were added.  Two processes
may walk through the same set in different orders.
-/

/--
How a process walks through sets: from the names of a set as they were added,
all of them in the order in which they are met.
-/
structure SetOrder where
  walk : List String → List String
  walk_perm : ∀ names, (walk names).Perm names

namespace SetOrder

/-- Names are met as they were added. -/
def asAdded : SetOrder where
  walk names := names
  walk_perm names := .refl names

/-- Names are met in increasing order. -/
def increasing : SetOrder where
  walk names := names.mergeSort fun first second => first ≤ second
  walk_perm names := names.mergeSort_perm _

instance : Inhabited SetOrder :=
  ⟨asAdded⟩

@[simp] theorem mem_walk
    {order : SetOrder}
    {names : List String}
    {name : String} :
    name ∈ order.walk names ↔ name ∈ names :=
  (order.walk_perm names).mem_iff

@[simp] theorem walk_nil
    {order : SetOrder} :
    order.walk [] = [] :=
  (order.walk_perm []).eq_nil

@[simp] theorem walk_singleton
    {order : SetOrder}
    {name : String} :
    order.walk [name] = [name] :=
  List.perm_singleton.mp (order.walk_perm [name])

@[simp] theorem nodup_walk
    {order : SetOrder}
    {names : List String} :
    (order.walk names).Nodup ↔ names.Nodup :=
  (order.walk_perm names).nodup_iff

end SetOrder

end Flowgen

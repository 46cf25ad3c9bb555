import Mathlib.Data.List.Chain
import Mathlib.Data.Set.Basic

/-! # Routes through a network

A route is the nodes a message visits, each linked to the next, those between its
ends being forwarders. Where every link out of a set of nodes goes to the hub, a
route from the set to a node that is neither in it nor the hub visits the hub between
its ends (`Foundation.Route.visits_hub`), and there is none when the hub forwards
nothing.
-/

namespace Foundation

variable {Node : Type*}

/-- The nodes between the ends of a route from one node to another. -/
structure Route (link : Node → Node → Prop) (forwards : Node → Prop) (source target : Node) where
  between : List Node
  linked : (source :: (between ++ [target])).IsChain link
  forwarded : ∀ node ∈ between, forwards node

section

variable {link : Node → Node → Prop} {forwards : Node → Prop} {source target hub : Node}
  {side : Set Node}

/-- What a chain of links out of a set passes, when it ends elsewhere. -/
theorem mem_between_of_leaves (outside : target ∉ side) (other : target ≠ hub)
    (leaves : ∀ node ∈ side, ∀ next, link node next → next ∈ side ∨ next = hub)
    {between : List Node} {source : Node} (inside : source ∈ side)
    (linked : (source :: (between ++ [target])).IsChain link) : hub ∈ between := by
  induction between generalizing source with
  | nil =>
      rcases leaves source inside target (List.isChain_pair.mp linked) with within | here
      · exact absurd within outside
      · exact absurd here other
  | cons node between ih =>
      obtain ⟨step, later⟩ := List.isChain_cons_cons.mp linked
      rcases leaves source inside node step with within | rfl
      · exact List.mem_cons_of_mem _ (ih within later)
      · exact List.mem_cons_self

namespace Route

/-- A route that starts in a set left only through the hub, and ends elsewhere, visits
the hub. -/
theorem visits_hub (route : Route link forwards source target) (inside : source ∈ side)
    (outside : target ∉ side) (other : target ≠ hub)
    (leaves : ∀ node ∈ side, ∀ next, link node next → next ∈ side ∨ next = hub) :
    hub ∈ route.between :=
  mem_between_of_leaves outside other leaves inside route.linked

/-- A route over two links. -/
def through {middle : Node} (first : link source middle) (second : link middle target)
    (forwards_middle : forwards middle) : Route link forwards source target where
  between := [middle]
  linked := List.isChain_cons_cons.mpr ⟨first, List.isChain_pair.mpr second⟩
  forwarded := List.forall_mem_singleton.mpr forwards_middle

end Route

end

end Foundation

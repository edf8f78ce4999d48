import Egress.Scope

set_option autoImplicit false

namespace Egress

namespace Forest

variable (f : Forest)

theorem isCancelled_append (nodes : List Node) {token : Nat} (cancelled : f.isCancelled token) :
    ({ nodes := f.nodes ++ nodes } : Forest).isCancelled token := by
  obtain ⟨node, found, _⟩ := Option.any_eq_true _ _ |>.mp cancelled
  have inside := (List.getElem?_eq_some_iff.mp found).1
  simpa only [isCancelled, List.getElem?_append_left inside] using cancelled

theorem isCancelled_cancel (top token : Nat) :
    (f.cancel top).isCancelled token =
      (f.nodes[token]?).any fun node => node.cancelled || f.isUnder top token := by
  simp only [isCancelled, cancel, List.getElem?_mapIdx, Option.any_map]

theorem cancel_keeps (top : Nat) {token : Nat} (cancelled : f.isCancelled token) :
    (f.cancel top).isCancelled token := by
  obtain ⟨node, found, was⟩ := Option.any_eq_true _ _ |>.mp cancelled
  simp [isCancelled_cancel, found, was]

theorem cancel_self {top : Nat} (inside : top < f.nodes.length) :
    (f.cancel top).isCancelled top := by
  have under : f.isUnder top top := by
    unfold isUnder
    simp
  simp [isCancelled_cancel, List.getElem?_eq_getElem inside, under]

theorem cancel_length (top : Nat) : (f.cancel top).nodes.length = f.nodes.length := by
  simp [cancel]

end Forest

end Egress

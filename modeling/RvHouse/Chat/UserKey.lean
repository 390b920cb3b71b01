import Mathlib.Data.List.Nodup

/-!
# User keys

`chat_gaming::user_key`: a node of the group together with an identification string. Keys are
compared by their nodes only, and a key without a node is smaller than no other key, so all keys
without a node form one class at the end of the order. `UserKey.cmp` is the comparison that a
`std::map` derives from `operator<`; it is a total preorder (`UserKey.instTransCmp`) in which two
keys are equivalent exactly when they have the same node (`UserKey.cmp_eq_iff`), while `operator==`
also tells two keys without a node apart (`UserKey.eqv_iff`).
-/

namespace RvHouse

open Std

/-- `netcomgrp::node`, identified by its address. -/
structure Node where
  ip : UInt32
  port : UInt16
deriving DecidableEq, Repr

namespace Node

/-- The order of the addresses. -/
def cmp : Node → Node → Ordering := compareLex (compareOn Node.ip) (compareOn Node.port)

instance instTransCmp : TransCmp cmp :=
  inferInstanceAs (TransCmp (compareLex (compareOn Node.ip) (compareOn Node.port)))

instance instLawfulEqCmp : LawfulEqCmp cmp where
  eq_of_compare {a b} h := by
    obtain ⟨hip, hport⟩ : compare a.ip b.ip = .eq ∧ compare a.port b.port = .eq := by
      simpa [cmp, compareLex, compareOn] using h
    cases a
    cases b
    exact congr (congrArg mk (LawfulEqOrd.eq_of_compare hip)) (LawfulEqOrd.eq_of_compare hport)

end Node

/-- `chat_gaming::user_key`. -/
@[ext] structure UserKey where
  node : Option Node := none
  idStr : String := ""
deriving DecidableEq, Repr

namespace UserKey

/-- `user_key(const netcomgrp::node *)`. -/
def ofNode (n : Node) : UserKey := { node := some n }

/-- `user_key(const std::string &)`. -/
def ofIdStr (s : String) : UserKey := { idStr := s }

/-- `user_key::empty`. -/
def empty (k : UserKey) : Bool := k.node.isNone && k.idStr == ""

/-- `operator==`. -/
def eqv (k o : UserKey) : Bool :=
  match k.node, o.node with
  | some n, some m => n == m
  | _, _ => false

/-- `operator<`. -/
def lt (k o : UserKey) : Bool :=
  match k.node, o.node with
  | none, _ => false
  | some _, none => true
  | some n, some m => Node.cmp n m == .lt

/-- The three-way comparison by `operator<`. -/
def cmp (k o : UserKey) : Ordering := if k.lt o then .lt else if o.lt k then .gt else .eq

@[simp] theorem ofNode_node (n : Node) : (ofNode n).node = some n := rfl

theorem eqv_iff {k o : UserKey} : k.eqv o = true ↔ ∃ n, k.node = some n ∧ o.node = some n := by
  obtain ⟨_ | n, _⟩ := k <;> obtain ⟨_ | m, _⟩ := o <;> simp [eqv]
  exact eq_comm

theorem eqv_of_node {k o : UserKey} {n : Node} (ho : o.node = some n) :
    k.eqv o = true ↔ k.node = some n := by
  simp [eqv_iff, ho]

theorem eqv_comm (k o : UserKey) : k.eqv o = o.eqv k := by
  rw [Bool.eq_iff_iff, eqv_iff, eqv_iff]
  simp only [and_comm]

theorem eqv_congr {k o o' : UserKey} (h : o.node = o'.node) : k.eqv o = k.eqv o' := by
  simp only [eqv, h]

/-- No key equals a key without a node, itself included. -/
@[simp] theorem eqv_empty (k : UserKey) : k.eqv {} = false := by
  obtain ⟨_ | n, _⟩ := k <;> rfl

/-- The comparison of the nodes, where no node comes last. -/
theorem cmp_eq_nodes (k o : UserKey) :
    cmp k o = match k.node, o.node with
      | some n, some m => Node.cmp n m
      | some _, none => .lt
      | none, some _ => .gt
      | none, none => .eq := by
  obtain ⟨_ | n, _⟩ := k <;> obtain ⟨_ | m, _⟩ := o <;> try rfl
  have hswap : Node.cmp m n = (Node.cmp n m).swap := OrientedCmp.eq_swap
  simp only [cmp, lt, hswap]
  cases Node.cmp n m <;> rfl

/-- Keys are equivalent exactly when they have the same node. -/
theorem cmp_eq_iff {k o : UserKey} : cmp k o = .eq ↔ k.node = o.node := by
  rw [cmp_eq_nodes]
  obtain ⟨_ | n, _⟩ := k <;> obtain ⟨_ | m, _⟩ := o <;>
    simp [LawfulEqCmp.compare_eq_iff_eq]

instance instTransCmp : TransCmp cmp where
  eq_swap {k o} := by
    simp only [cmp_eq_nodes]
    obtain ⟨_ | n, _⟩ := k <;> obtain ⟨_ | m, _⟩ := o <;> try rfl
    exact Node.instTransCmp.eq_swap
  isLE_trans {a b c} hab hbc := by
    simp only [cmp_eq_nodes] at hab hbc ⊢
    obtain ⟨_ | n, _⟩ := a <;> obtain ⟨_ | m, _⟩ := b <;> obtain ⟨_ | l, _⟩ := c <;>
      first
      | exact Node.instTransCmp.isLE_trans hab hbc
      | simp_all

end UserKey

end RvHouse

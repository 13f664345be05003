import Mathlib

/-! # Cluster nodes

The record the cluster state keeps for each member. `Node`, `NodeStatus` and `Node.Copy` live in
node.go, which is not among the sources, so the record is modelled from the spec's data model.

* `Endpoints`: a node's `map[string]int` from endpoint ID to listener count, `none` for an absent
  key. Go's `int` is 64 bits wide: a count is an `Int`, and the one sum the code computes on it,
  `AddLocalEndpoint`'s `+ 1`, is reduced into `[-2^63, 2^63)` by `wrapInt`.
* `listeners t e`: what `t[e]` reads in Go, `0` for an absent key.
* Nodes are values: `Node.Copy` is the identity and a `*Node` handed to the state is owned by it.
-/

namespace Piko.Cluster
set_option autoImplicit false

/-- Modelled from the spec: `NodeStatus` of node.go, a Go `string` type. The code only compares
statuses and uses their text as the `status` label of the `Nodes` gauge. -/
structure NodeStatus where
  name : String
  deriving DecidableEq, Repr

/-- Modelled from the spec: the constant `NodeStatusActive`. -/
def nodeStatusActive : NodeStatus := ⟨"active"⟩

/-- A node's endpoint table: endpoint ID to listener count, `none` for an absent key. -/
abbrev Endpoints := String → Option Int

/-- `t[e]` on a Go `map[string]int`: the count, or `0` when the key is absent. -/
def listeners (t : Endpoints) (e : String) : Int := (t e).getD 0

/-- Go's 64-bit `int` arithmetic: a sum is reduced into `[-2^63, 2^63)`, so `maxInt64 + 1` is
`-2^63`. -/
def wrapInt (x : Int) : Int := x.bmod (2 ^ 64)

/-- `math.MaxInt64`. -/
def maxInt64 : Int := 2 ^ 63 - 1

theorem wrapInt_of_le {x : Int} (h₁ : -2 ^ 63 ≤ x) (h₂ : x ≤ maxInt64) : wrapInt x = x := by
  rw [wrapInt, Int.bmod_def, maxInt64] at *
  split_ifs <;> omega

/-- Modelled from the spec: the `Node` record of node.go. -/
structure Node where
  id : String
  status : NodeStatus
  proxyAddr : String
  adminAddr : String
  endpoints : Endpoints

@[simp] theorem listeners_update_self (t : Endpoints) (e : String) (v : Option Int) :
    listeners (Function.update t e v) e = v.getD 0 := by
  simp [listeners]

@[simp] theorem listeners_update_ne (t : Endpoints) {e e' : String} (v : Option Int)
    (h : e' ≠ e) : listeners (Function.update t e v) e' = listeners t e' := by
  simp [listeners, Function.update_noteq h]

end Piko.Cluster

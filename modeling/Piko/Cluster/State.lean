import Piko.Cluster.Node

/-! # Cluster state

`State` (state.go): the local node's eventually consistent view of the cluster, one definition per
method. The mutex is left out: every method runs under it, so each is one atomic step.

* Methods that mutate return the new state; those returning `bool` return it alongside.
* A `panic` is an `Except.error` carrying its text.
* The side effects the code performs are state too: the calls made to the functions registered with
  `OnLocalEndpointUpdate` (`callbacks`), the `Nodes` gauge (`metrics`) and the warnings logged.
* Go's `nodes` map becomes an `AList` keyed by node ID. Map iteration order is unspecified in Go;
  `LookupEndpoint` iterates the entries in list order (`lookupIn` takes any order).
-/

namespace Piko.Cluster
set_option autoImplicit false

/-- One call `f(endpointID, listeners)` of the `subscriber`-th function registered with
`OnLocalEndpointUpdate`. -/
structure Callback where
  subscriber : Nat
  endpointID : String
  listeners : Int
  deriving DecidableEq, Repr

/-- The cluster state. -/
structure State where
  localID : String
  nodes : AList (fun _ : String => Node)
  /-- How many functions `OnLocalEndpointUpdate` registered; the `k`-th is subscriber `k`. -/
  localEndpointSubscribers : Nat
  /-- Every call made to a subscriber, in order. -/
  callbacks : List Callback
  /-- The `Nodes` gauge of `Metrics`, by status label. -/
  metrics : NodeStatus → Int
  /-- The warnings logged, in order. -/
  warnings : List String

namespace State

/-! ## Metrics, logging and subscribers -/

@[simps] def addMetricsNode (s : State) (status : NodeStatus) : State :=
  { s with metrics := Function.update s.metrics status (s.metrics status + 1) }

@[simps] def removeMetricsNode (s : State) (status : NodeStatus) : State :=
  { s with metrics := Function.update s.metrics status (s.metrics status - 1) }

def updateMetricsNode (s : State) (oldStatus newStatus : NodeStatus) : State :=
  (s.removeMetricsNode oldStatus).addMetricsNode newStatus

/-- `s.logger.Warn(msg)`. -/
@[simps] def warn (s : State) (msg : String) : State :=
  { s with warnings := s.warnings ++ [msg] }

/-- The loop `for _, f := range s.localEndpointSubscribers { f(endpointID, listeners) }`. -/
@[simps] def notify (s : State) (endpointID : String) (count : Int) : State :=
  { s with callbacks := s.callbacks ++
      (List.range s.localEndpointSubscribers).map fun k => ⟨k, endpointID, count⟩ }

/-- Stores `node`, with endpoint table `endpoints`, under `id`: a write through the `*Node` the map
holds to its `Endpoints`. -/
@[simps] def setEndpoints (s : State) (id : String) (node : Node) (endpoints : Endpoints) :
    State :=
  { s with nodes := s.nodes.insert id { node with endpoints } }

/-! ## Construction and reads -/

def newState (localNode : Node) : State :=
  let localNode := { localNode with status := nodeStatusActive }
  addMetricsNode
    { localID := localNode.id
      nodes := (∅ : AList (fun _ : String => Node)).insert localNode.id localNode
      localEndpointSubscribers := 0
      callbacks := []
      metrics := fun _ => 0
      warnings := [] }
    localNode.status

def node (s : State) (id : String) : Option Node := s.nodes.lookup id

def localNode (s : State) : Except String Node :=
  match s.nodes.lookup s.localID with
  | some node => .ok node
  | none => .error "local node not in cluster"

/-- `Nodes()`: copies of the nodes in the order the map's iteration visits them, which Go leaves
open: the theorems about it hold for every order of this list. -/
def nodeList (s : State) : List Node := s.nodes.entries.map Sigma.snd

/-- The loop of `LookupEndpoint` over the nodes in the order given. -/
def lookupIn (localID endpointID : String) : List Node → Option Node
  | [] => none
  | node :: rest =>
    if node.id = localID then lookupIn localID endpointID rest
    else match node.endpoints endpointID with
      | some listeners => if listeners > 0 then some node else lookupIn localID endpointID rest
      | none => lookupIn localID endpointID rest

/-- `LookupEndpoint`, its `range` over the nodes map visiting them in `order`. Go picks the order
afresh on each loop, so the theorems about it take every permutation of `nodeList`. -/
def lookupEndpoint (s : State) (endpointID : String) (order : List Node) : Option Node :=
  lookupIn s.localID endpointID order

/-! ## Local endpoints -/

def addLocalEndpoint (s : State) (endpointID : String) : Except String State :=
  match s.nodes.lookup s.localID with
  | none => .error "local node not in cluster"
  | some node =>
    let endpoints := Function.update node.endpoints endpointID
      (some (wrapInt (listeners node.endpoints endpointID + 1)))
    .ok ((s.setEndpoints s.localID node endpoints).notify endpointID
      (listeners endpoints endpointID))

def removeLocalEndpoint (s : State) (endpointID : String) : Except String State :=
  match s.nodes.lookup s.localID with
  | none => .error "local node not in cluster"
  | some node =>
    match node.endpoints endpointID with
    | none => .ok (s.warn "remove local endpoint: endpoint not found")
    | some count =>
      if count = 0 then .ok (s.warn "remove local endpoint: endpoint not found") else
      let endpoints := Function.update node.endpoints endpointID
        (if count > 1 then some (count - 1) else none)
      .ok ((s.setEndpoints s.localID node endpoints).notify endpointID
      (listeners endpoints endpointID))

@[simps] def onLocalEndpointUpdate (s : State) : State :=
  { s with localEndpointSubscribers := s.localEndpointSubscribers + 1 }

/-! ## Peer management -/

def addNode (s : State) (node : Node) : State :=
  if node.id = s.localID then s.warn "add node: cannot add local node" else
  let s := if node.id ∈ s.nodes then s.warn "add node: node already in cluster" else s
  addMetricsNode { s with nodes := s.nodes.insert node.id node } node.status

/-- The guard the other peer-management methods share: the local node and unknown nodes are
refused with the method's warning and `false`; otherwise `update` is applied to node `id`. -/
def updateRemote (s : State) (localMsg notFoundMsg id : String)
    (update : State → Node → State) : State × Bool :=
  if id = s.localID then (s.warn localMsg, false) else
  match s.nodes.lookup id with
  | none => (s.warn notFoundMsg, false)
  | some n => (update s n, true)

def removeNode (s : State) (id : String) : State × Bool :=
  updateRemote s "remove node: cannot remove local node" "remove node: node not in cluster" id
    fun s node => removeMetricsNode { s with nodes := s.nodes.erase id } node.status

def updateRemoteStatus (s : State) (id : String) (status : NodeStatus) : State × Bool :=
  updateRemote s "update remote status: cannot update local node"
    "update remote status: node not in cluster" id
    fun s n => updateMetricsNode { s with nodes := s.nodes.insert id { n with status } }
      n.status status

def updateRemoteEndpoint (s : State) (id endpointID : String) (listeners : Int) :
    State × Bool :=
  updateRemote s "update remote endpoint: cannot update local node"
    "update remote endpoint: node not in cluster" id
    fun s n => s.setEndpoints id n (Function.update n.endpoints endpointID (some listeners))

def removeRemoteEndpoint (s : State) (id endpointID : String) : State × Bool :=
  updateRemote s "remove remote endpoint: cannot update local node"
    "remove remote endpoint: node not in cluster" id
    fun s n => s.setEndpoints id n (Function.update n.endpoints endpointID none)

end State

/-! ## Runs -/

/-- A call of one of the methods that change the state. -/
inductive Op
  | addLocalEndpoint (endpointID : String)
  | removeLocalEndpoint (endpointID : String)
  | onLocalEndpointUpdate
  | addNode (node : Node)
  | removeNode (id : String)
  | updateRemoteStatus (id : String) (status : NodeStatus)
  | updateRemoteEndpoint (id endpointID : String) (listeners : Int)
  | removeRemoteEndpoint (id endpointID : String)

namespace State

def apply (s : State) : Op → Except String State
  | .addLocalEndpoint e => s.addLocalEndpoint e
  | .removeLocalEndpoint e => s.removeLocalEndpoint e
  | .onLocalEndpointUpdate => .ok s.onLocalEndpointUpdate
  | .addNode n => .ok (s.addNode n)
  | .removeNode id => .ok (s.removeNode id).1
  | .updateRemoteStatus id st => .ok (s.updateRemoteStatus id st).1
  | .updateRemoteEndpoint id e n => .ok (s.updateRemoteEndpoint id e n).1
  | .removeRemoteEndpoint id e => .ok (s.removeRemoteEndpoint id e).1

/-- The operations applied in order; a panic stops the run. -/
def run (s : State) : List Op → Except String State
  | [] => .ok s
  | op :: ops => (s.apply op).bind fun s' => s'.run ops

@[simp] theorem run_nil (s : State) : s.run [] = .ok s := rfl

theorem run_cons (s : State) (op : Op) (ops : List Op) :
    s.run (op :: ops) = (s.apply op).bind fun s' => s'.run ops := rfl

end State

end Piko.Cluster

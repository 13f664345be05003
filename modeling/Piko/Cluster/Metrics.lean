import Piko.Cluster.WellFormed

/-! # The `Nodes` gauge

`addMetricsNode` and `removeMetricsNode` move the gauge of one status label by one. The gauge agrees
with the node set when every label reads the number of nodes with that status. `NewState` starts in
agreement and every method keeps it, save `AddNode` of a remote ID already present: it overwrites
the node there and calls `addMetricsNode` alone, so the label of the status it replaced counts one
node too many.

* `statusCount nodes st`: how many of the nodes have status `st`.
* `MetricsAgree s`: under every label the gauge reads `statusCount s.nodes st`.
* `Op.Replaces s op`: `op` is an `AddNode` of a remote ID already in `s`.
* `State.drift s st`: how far the gauge under `st` is ahead of the node set; each call adds one to
  the label of the node an `AddNode` replaced, and nothing else, so after any run the gauge reads the
  node count plus the number of replaced nodes with that status (`nodes_gauge_drift`).
-/

namespace Piko.Cluster
set_option autoImplicit false

/-- How many of `nodes` have status `st`. -/
def statusCount (nodes : AList (fun _ : String => Node)) (st : NodeStatus) : Nat :=
  nodes.entries.countP fun n => n.2.status = st

section Count

variable (nodes : AList (fun _ : String => Node)) (st : NodeStatus)

theorem statusCount_insert (k : String) (n : Node) :
    statusCount (nodes.insert k n) st =
      statusCount (nodes.erase k) st + if n.status = st then 1 else 0 := by
  simp only [statusCount, AList.insert_entries, List.countP_cons, decide_eq_true_eq]
  rfl

theorem statusCount_erase {k : String} {n : Node} (h : nodes.lookup k = some n) :
    statusCount nodes st = statusCount (nodes.erase k) st + if n.status = st then 1 else 0 := by
  obtain ⟨b, l₁, l₂, -, he, hk⟩ := List.exists_of_kerase (AList.lookup_isSome.1 (by rw [h]; rfl))
  obtain rfl : n = b := Option.some.inj (h.symm.trans
    (AList.mem_lookup_iff.2 (he ▸ List.mem_append_right _ (List.mem_cons_self _ _))))
  show List.countP _ nodes.entries = List.countP _ (nodes.entries.kerase k) + _
  rw [hk, he, List.countP_append, List.countP_append, List.countP_cons, Nat.add_assoc]
  simp only [decide_eq_true_eq]

theorem statusCount_erase_of_none {k : String} (h : nodes.lookup k = none) :
    statusCount (nodes.erase k) st = statusCount nodes st := by
  show List.countP _ (nodes.entries.kerase k) = _
  rw [List.kerase_of_not_mem_keys (AList.lookup_eq_none.1 h)]
  rfl

theorem statusCount_insert_same {k : String} {n : Node} (h : nodes.lookup k = some n) (n' : Node)
    (hs : n'.status = n.status) : statusCount (nodes.insert k n') st = statusCount nodes st := by
  rw [statusCount_insert, statusCount_erase nodes st h, hs]

end Count

namespace State

variable {s s' : State} {init : Node} {op : Op}

@[simp] theorem addMetricsNode_metrics_apply (s : State) (a st : NodeStatus) :
    (s.addMetricsNode a).metrics st = s.metrics st + if a = st then 1 else 0 := by
  by_cases h : a = st
  · subst h; simp
  · simp [Function.update_apply, h, Ne.symm h]

@[simp] theorem removeMetricsNode_metrics_apply (s : State) (a st : NodeStatus) :
    (s.removeMetricsNode a).metrics st = s.metrics st - if a = st then 1 else 0 := by
  by_cases h : a = st
  · subst h; simp
  · simp [Function.update_apply, h, Ne.symm h]

/-- Under every status label the `Nodes` gauge reads the number of nodes with that status. -/
def MetricsAgree (s : State) : Prop := ∀ st, s.metrics st = statusCount s.nodes st

theorem metricsAgree_newState (init : Node) : MetricsAgree (newState init) := fun st => by
  by_cases h : nodeStatusActive = st
  · subst h; simp [newState, statusCount]
  · simp [newState, statusCount, h, Function.update_noteq (Ne.symm h)]

/-! ## Drift

How far the gauge under a label reads above the number of nodes with that status. Every method
leaves it as it was, save `AddNode` over a remote node, which raises it by one under the status of
the node it replaces. -/

/-- How far the gauge under `st` reads above the number of nodes with status `st`. -/
def drift (s : State) (st : NodeStatus) : Int := s.metrics st - statusCount s.nodes st

theorem drift_newState (init : Node) (st : NodeStatus) : (newState init).drift st = 0 :=
  sub_eq_zero.2 (metricsAgree_newState init st)

theorem drift_setEndpoints {id : String} {node : Node} (hn : s.nodes.lookup id = some node)
    (t : Endpoints) : (s.setEndpoints id node t).drift = s.drift := funext fun st => by
  rw [drift, drift, setEndpoints_metrics, setEndpoints_nodes,
    statusCount_insert_same _ st hn { node with endpoints := t } rfl]

theorem drift_updateRemote {localMsg notFoundMsg id : String} {f : State → Node → State}
    (hf : ∀ n, id ≠ s.localID → s.nodes.lookup id = some n → (f s n).drift = s.drift) :
    (s.updateRemote localMsg notFoundMsg id f).1.drift = s.drift := by
  rcases updateRemote_cases (s := s) localMsg notFoundMsg id f with
    ⟨-, he⟩ | ⟨-, he⟩ | ⟨n, hl, hn, he⟩ <;> rw [he]
  · rfl
  · rfl
  · exact hf n hl hn

theorem drift_removeNode (id : String) : (s.removeNode id).1.drift = s.drift :=
  drift_updateRemote fun n _ hn => funext fun st => by
    simp only [drift, removeMetricsNode_metrics_apply, removeMetricsNode_nodes]
    rw [statusCount_erase _ st hn]
    push_cast; omega

theorem drift_updateRemoteStatus (id : String) (status : NodeStatus) :
    (s.updateRemoteStatus id status).1.drift = s.drift :=
  drift_updateRemote fun n _ hn => funext fun st => by
    simp only [drift, updateMetricsNode, addMetricsNode_metrics_apply,
      removeMetricsNode_metrics_apply, addMetricsNode_nodes, removeMetricsNode_nodes]
    rw [statusCount_erase _ st hn, statusCount_insert]
    push_cast; omega

end State

/-- The node an `AddNode` call replaces in `s`: the remote node already held under its ID. -/
def Op.replaced (op : Op) (s : State) : Option Node :=
  match op with
  | .addNode m => if m.id = s.localID then none else s.nodes.lookup m.id
  | _ => none

namespace State

variable {s s' : State} {init : Node} {op : Op}

/-- `AddNode` raises the drift under the status of the remote node it replaces, if any. -/
theorem drift_addNode (m : Node) (st : NodeStatus) :
    (s.addNode m).drift st =
      s.drift st + if ((Op.addNode m).replaced s).map Node.status = some st then 1 else 0 := by
  by_cases hl : m.id = s.localID
  · simp only [State.addNode, Op.replaced, hl, if_true, Option.map_none', reduceCtorEq, if_false,
      add_zero]
    rfl
  simp only [State.addNode, Op.replaced, hl, if_false]
  have hins : statusCount (s.nodes.insert m.id m) st =
      statusCount (s.nodes.erase m.id) st + if m.status = st then 1 else 0 :=
    statusCount_insert _ _ _ _
  cases ho : s.nodes.lookup m.id with
  | none =>
    have hm : m.id ∉ s.nodes := AList.lookup_eq_none.1 ho
    simp only [hm, if_false, drift, addMetricsNode_metrics_apply, addMetricsNode_nodes, hins,
      statusCount_erase_of_none _ st ho, Option.map_none', reduceCtorEq]
    push_cast; omega
  | some o =>
    have hm : m.id ∈ s.nodes := AList.lookup_isSome.1 (by rw [ho]; rfl)
    simp only [hm, if_true, drift, addMetricsNode_metrics_apply, addMetricsNode_nodes,
      warn_metrics, warn_nodes, hins, statusCount_erase _ st ho, Option.map_some',
      Option.some.injEq]
    push_cast; omega

theorem drift_apply_of_eq (h : s'.drift = s.drift) (st : NodeStatus) :
    s'.drift st = s.drift st + if (none : Option Node).map Node.status = some st then 1 else 0 := by
  rw [h]; simp

/-- One call changes the drift only under the status of the node an `AddNode` replaces. -/
theorem drift_apply (hw : WellFormed init s) (hs : s.apply op = .ok s') (st : NodeStatus) :
    s'.drift st = s.drift st + if (op.replaced s).map Node.status = some st then 1 else 0 := by
  obtain ⟨n, hn, -⟩ := hw.local_active
  cases op with
  | addLocalEndpoint e =>
    rw [apply, addLocalEndpoint_eq hn] at hs; cases hs
    exact drift_apply_of_eq (drift_setEndpoints hn _) st
  | removeLocalEndpoint e =>
    rcases removeLocalEndpoint_cases hn e with ⟨-, he⟩ | ⟨c, -, -, he⟩ <;> rw [apply, he] at hs <;>
      cases hs
    · exact drift_apply_of_eq rfl st
    · exact drift_apply_of_eq (drift_setEndpoints hn _) st
  | onLocalEndpointUpdate => cases hs; exact drift_apply_of_eq rfl st
  | addNode m => cases hs; exact drift_addNode m st
  | removeNode id => cases hs; exact drift_apply_of_eq (drift_removeNode id) st
  | updateRemoteStatus id st' =>
    cases hs; exact drift_apply_of_eq (drift_updateRemoteStatus id st') st
  | updateRemoteEndpoint id e c =>
    cases hs; exact drift_apply_of_eq (drift_updateRemote fun _ _ hn => drift_setEndpoints hn _) st
  | removeRemoteEndpoint id e =>
    cases hs; exact drift_apply_of_eq (drift_updateRemote fun _ _ hn => drift_setEndpoints hn _) st

end State

/-- `op` is an `AddNode` of a remote ID already in `s`. -/
def Op.Replaces (op : Op) (s : State) : Prop :=
  match op with
  | .addNode m => m.id ≠ s.localID ∧ m.id ∈ s.nodes
  | _ => False

theorem Op.replaced_eq_none {op : Op} {s : State} (hop : ¬ op.Replaces s) :
    op.replaced s = none := by
  cases op with
  | addNode m =>
    simp only [Op.replaced]
    split_ifs with hl
    · rfl
    · exact AList.lookup_eq_none.2 fun hm => hop ⟨hl, hm⟩
  | _ => rfl

namespace State

variable {s s' : State} {init : Node} {op : Op}

theorem MetricsAgree.apply (hw : WellFormed init s) (h : MetricsAgree s)
    (hs : s.apply op = .ok s') (hop : ¬ op.Replaces s) : MetricsAgree s' := fun st => by
  have hd := drift_apply hw hs st
  simp only [Op.replaced_eq_none hop, Option.map_none', reduceCtorEq, if_false, add_zero, drift,
    h st, sub_self] at hd
  omega

/-- No `AddNode` of the run replaces a remote node present at the time it runs. -/
def NoReplace : State → List Op → Prop
  | _, [] => True
  | s, op :: ops => ¬ op.Replaces s ∧ ∀ s', s.apply op = .ok s' → NoReplace s' ops

theorem MetricsAgree.run (hw : WellFormed init s) (h : MetricsAgree s) {ops : List Op}
    (hno : NoReplace s ops) (hs : s.run ops = .ok s') : MetricsAgree s' := by
  induction ops generalizing s with
  | nil => cases hs; exact h
  | cons op ops ih =>
    obtain ⟨s₁, h₁, hs₁⟩ := run_cons_eq_ok hs
    exact ih (hw.apply_ok h₁) (h.apply hw h₁ hno.1) (hno.2 s₁ h₁) hs₁

end State

/-- The gauge agrees with the node set after every run from `NewState` in which no `AddNode`
replaces a remote node. -/
theorem metricsAgree_run (init : Node) {ops : List Op} {s : State}
    (hno : State.NoReplace (State.newState init) ops) (hs : (State.newState init).run ops = .ok s) :
    State.MetricsAgree s :=
  (State.metricsAgree_newState init).run (State.newState_wellFormed init) hno hs

/-- `AddNode` of one remote node twice from `NewState`: the state holds two active nodes and the
`active` label of the gauge reads three. -/
theorem addNode_twice_overcounts :
    ∃ s, (State.newState ⟨"local", nodeStatusActive, "", "", fun _ => none⟩).run
        [.addNode ⟨"a", nodeStatusActive, "", "", fun _ => none⟩,
          .addNode ⟨"a", nodeStatusActive, "", "", fun _ => none⟩] = .ok s ∧
      statusCount s.nodes nodeStatusActive = 2 ∧ s.metrics nodeStatusActive = 3 :=
  ⟨_, rfl, by decide, by decide⟩

/-! ## The gauge over any run -/

namespace State

/-- How many `AddNode` calls of a run from `s` replaced a remote node with status `st`. -/
def replacedCount (st : NodeStatus) : State → List Op → Nat
  | _, [] => 0
  | s, op :: ops =>
    (if (op.replaced s).map Node.status = some st then 1 else 0) +
      match s.apply op with
      | .ok s' => replacedCount st s' ops
      | .error _ => 0

theorem drift_run {s s' : State} {init : Node} (hw : WellFormed init s) {ops : List Op}
    (hs : s.run ops = .ok s') (st : NodeStatus) :
    s'.drift st = s.drift st + replacedCount st s ops := by
  induction ops generalizing s with
  | nil => cases hs; simp [replacedCount]
  | cons op ops ih =>
    obtain ⟨s₁, h₁, hs₁⟩ := run_cons_eq_ok hs
    rw [ih (hw.apply_ok h₁) hs₁, drift_apply hw h₁]
    simp only [replacedCount, h₁]
    push_cast; ring

end State

/-- The `Nodes` gauge over any run: every run from `NewState` completes, and under each status
label the gauge reads the number of nodes with that status plus the number of `AddNode` calls of
the run that replaced a remote node with that status. It never reads below the count, and above it
only after such a replacement. -/
theorem nodes_gauge_drift (init : Node) (ops : List Op) :
    ∃ s, (State.newState init).run ops = .ok s ∧ ∀ st,
      s.metrics st = statusCount s.nodes st + State.replacedCount st (State.newState init) ops := by
  obtain ⟨s, hs, -⟩ := (State.newState_wellFormed init).run ops
  refine ⟨s, hs, fun st => ?_⟩
  have h := State.drift_run (State.newState_wellFormed init) hs st
  rw [State.drift_newState, zero_add, State.drift] at h
  omega

end Piko.Cluster

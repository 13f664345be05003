import Piko.Cluster.State

/-! # Well-formed cluster states

Every state reachable from `newState init` keeps the local node under `localID`, active and with
the addresses it started with, and files every node under its own ID. The panics of
`LocalNode`, `AddLocalEndpoint` and `RemoveLocalEndpoint` are therefore unreachable.

* `WellFormed init s`: the invariant, reading only `s.localID` and `s.nodes`.
* One preservation lemma per way the methods touch `nodes` (rewrite the local node, insert or erase
  a remote one), then one per method and `run_wellFormed` by induction on the run.
-/

namespace Piko.Cluster
set_option autoImplicit false

namespace State

variable {s : State} {init node : Node}

/-- The local node is present, active and keeps its addresses; every key holds the node with that
ID. -/
structure WellFormed (init : Node) (s : State) : Prop where
  localID_eq : s.localID = init.id
  local_active : ∃ node, s.nodes.lookup s.localID = some node ∧ node.status = nodeStatusActive ∧
    node.proxyAddr = init.proxyAddr ∧ node.adminAddr = init.adminAddr
  key_id : ∀ k node, s.nodes.lookup k = some node → node.id = k

theorem newState_wellFormed (init : Node) : WellFormed init (newState init) where
  localID_eq := rfl
  local_active := ⟨{ init with status := nodeStatusActive },
    by simp only [newState, addMetricsNode_nodes, addMetricsNode_localID, AList.lookup_insert],
    rfl, rfl, rfl⟩
  key_id k node hk := by
    simp only [newState, addMetricsNode_nodes] at hk
    by_cases hki : k = init.id
    · subst hki; rw [AList.lookup_insert] at hk; cases hk; rfl
    · rw [AList.lookup_insert_ne hki, AList.lookup_empty] at hk; cases hk

theorem WellFormed.congr {s' : State} (h : WellFormed init s) (hl : s'.localID = s.localID)
    (hn : s'.nodes = s.nodes) : WellFormed init s' where
  localID_eq := hl ▸ h.localID_eq
  local_active := hl ▸ hn ▸ h.local_active
  key_id := hn ▸ h.key_id

theorem WellFormed.setLocalEndpoints (h : WellFormed init s)
    (hn : s.nodes.lookup s.localID = some node) (t : Endpoints) :
    WellFormed init (s.setEndpoints s.localID node t) where
  localID_eq := h.localID_eq
  local_active := by
    obtain ⟨n, hn', hact⟩ := h.local_active
    obtain rfl : n = node := Option.some.inj (hn'.symm.trans hn)
    exact ⟨_, AList.lookup_insert _, hact⟩
  key_id k n hk := by
    simp only [setEndpoints_nodes] at hk
    by_cases hk' : k = s.localID
    · subst hk'; rw [AList.lookup_insert] at hk; cases hk
      exact h.key_id _ node hn
    · exact h.key_id k n (by simpa [AList.lookup_insert_ne hk'] using hk)

theorem WellFormed.insertRemote (h : WellFormed init s) (n : Node) (hid : n.id ≠ s.localID) :
    WellFormed init { s with nodes := s.nodes.insert n.id n } where
  localID_eq := h.localID_eq
  local_active := by simpa [AList.lookup_insert_ne (Ne.symm hid)] using h.local_active
  key_id k m hk := by
    by_cases hk' : k = n.id
    · subst hk'; simp at hk; rw [← hk]
    · exact h.key_id k m (by simpa [AList.lookup_insert_ne hk'] using hk)

theorem WellFormed.eraseRemote (h : WellFormed init s) {id : String} (hid : id ≠ s.localID) :
    WellFormed init { s with nodes := s.nodes.erase id } where
  localID_eq := h.localID_eq
  local_active := by simpa [AList.lookup_erase_ne (Ne.symm hid)] using h.local_active
  key_id k m hk := by
    by_cases hk' : k = id
    · subst hk'; simp at hk
    · exact h.key_id k m (by simpa [AList.lookup_erase_ne hk'] using hk)

/-! ## The methods -/

theorem addLocalEndpoint_eq (hn : s.nodes.lookup s.localID = some node) (e : String) :
    s.addLocalEndpoint e = .ok ((s.setEndpoints s.localID node (Function.update node.endpoints e
      (some (wrapInt (listeners node.endpoints e + 1))))).notify e
        (wrapInt (listeners node.endpoints e + 1))) := by
  simp [addLocalEndpoint, hn]

/-- What `RemoveLocalEndpoint` does, given the local node: a warning when the endpoint has no
listener, otherwise the count drops by one, deleting the key at one. -/
theorem removeLocalEndpoint_cases (hn : s.nodes.lookup s.localID = some node) (e : String) :
    (listeners node.endpoints e = 0 ∧
      s.removeLocalEndpoint e = .ok (s.warn "remove local endpoint: endpoint not found")) ∨
    ∃ c, node.endpoints e = some c ∧ c ≠ 0 ∧
      s.removeLocalEndpoint e = .ok ((s.setEndpoints s.localID node (Function.update node.endpoints e
        (if c > 1 then some (c - 1) else none))).notify e (if c > 1 then c - 1 else 0)) := by
  simp only [removeLocalEndpoint, hn]
  cases hc : node.endpoints e with
  | none => exact .inl ⟨by simp [listeners, hc], rfl⟩
  | some c =>
    by_cases h0 : c = 0
    · exact .inl ⟨by simp [listeners, hc, h0], by simp [h0]⟩
    · refine .inr ⟨c, rfl, h0, ?_⟩
      by_cases h1 : c > 1 <;> simp [h0, h1]

theorem updateRemote_cases (localMsg notFoundMsg id : String) (f : State → Node → State) :
    (id = s.localID ∧ s.updateRemote localMsg notFoundMsg id f = (s.warn localMsg, false)) ∨
    (s.nodes.lookup id = none ∧
      s.updateRemote localMsg notFoundMsg id f = (s.warn notFoundMsg, false)) ∨
    ∃ n, id ≠ s.localID ∧ s.nodes.lookup id = some n ∧
      s.updateRemote localMsg notFoundMsg id f = (f s n, true) := by
  unfold updateRemote
  by_cases hl : id = s.localID
  · exact .inl ⟨hl, by simp [hl]⟩
  · cases hn : s.nodes.lookup id with
    | none => exact .inr (.inl ⟨rfl, by simp [hl, hn]⟩)
    | some n => exact .inr (.inr ⟨n, hl, rfl, by simp [hl, hn]⟩)

theorem WellFormed.updateRemote (h : WellFormed init s) {localMsg notFoundMsg id : String}
    {f : State → Node → State}
    (hf : ∀ n, id ≠ s.localID → s.nodes.lookup id = some n → WellFormed init (f s n)) :
    WellFormed init (s.updateRemote localMsg notFoundMsg id f).1 := by
  rcases updateRemote_cases (s := s) localMsg notFoundMsg id f with
    ⟨-, he⟩ | ⟨-, he⟩ | ⟨n, hl, hn, he⟩ <;> rw [he]
  · exact h.congr rfl rfl
  · exact h.congr rfl rfl
  · exact hf n hl hn

theorem WellFormed.setRemote (h : WellFormed init s) {id : String} {n : Node} (n' : Node)
    (hl : id ≠ s.localID) (hn : s.nodes.lookup id = some n) (hid : n'.id = n.id) :
    WellFormed init { s with nodes := s.nodes.insert id n' } := by
  have hnid : n.id = id := h.key_id id n hn
  simpa [hid, hnid] using h.insertRemote n' (by rw [hid, hnid]; exact hl)

theorem WellFormed.setRemoteEndpoints (h : WellFormed init s) {id : String} {n : Node}
    (hl : id ≠ s.localID) (hn : s.nodes.lookup id = some n) (t : Endpoints) :
    WellFormed init (s.setEndpoints id n t) :=
  (h.setRemote { n with endpoints := t } hl hn rfl).congr rfl rfl

theorem WellFormed.apply (h : WellFormed init s) (op : Op) :
    ∃ s', s.apply op = .ok s' ∧ WellFormed init s' := by
  obtain ⟨n, hn, -⟩ := h.local_active
  cases op with
  | addLocalEndpoint e =>
    exact ⟨_, addLocalEndpoint_eq hn e, (h.setLocalEndpoints hn _).congr rfl rfl⟩
  | removeLocalEndpoint e =>
    rcases removeLocalEndpoint_cases hn e with ⟨-, he⟩ | ⟨c, -, -, he⟩
    · exact ⟨_, he, h.congr rfl rfl⟩
    · exact ⟨_, he, (h.setLocalEndpoints hn _).congr rfl rfl⟩
  | onLocalEndpointUpdate => exact ⟨_, rfl, h.congr rfl rfl⟩
  | addNode m =>
    refine ⟨_, rfl, ?_⟩
    unfold addNode
    split_ifs with hl hm
    · exact h.congr rfl rfl
    · exact ((h.congr rfl rfl).insertRemote m hl).congr rfl rfl
    · exact (h.insertRemote m hl).congr rfl rfl
  | removeNode id =>
    exact ⟨_, rfl, h.updateRemote fun _ hl _ => (h.eraseRemote hl).congr rfl rfl⟩
  | updateRemoteStatus id st =>
    exact ⟨_, rfl, h.updateRemote fun n hl hn =>
      (h.setRemote { n with status := st } hl hn rfl).congr rfl rfl⟩
  | updateRemoteEndpoint id e c =>
    exact ⟨_, rfl, h.updateRemote fun _ hl hn => h.setRemoteEndpoints hl hn _⟩
  | removeRemoteEndpoint id e =>
    exact ⟨_, rfl, h.updateRemote fun _ hl hn => h.setRemoteEndpoints hl hn _⟩

theorem run_cons_eq_ok {s' : State} {op : Op} {ops : List Op}
    (hs : s.run (op :: ops) = .ok s') : ∃ s₁, s.apply op = .ok s₁ ∧ s₁.run ops = .ok s' := by
  rw [run_cons] at hs
  cases h : s.apply op with
  | error msg => rw [h] at hs; cases hs
  | ok s₁ => rw [h] at hs; exact ⟨s₁, rfl, hs⟩

theorem WellFormed.apply_ok {s' : State} {op : Op} (h : WellFormed init s)
    (hs : s.apply op = .ok s') : WellFormed init s' := by
  obtain ⟨s₁, h₁, hw⟩ := h.apply op
  rw [hs] at h₁; cases h₁; exact hw

/-- A property that every operation carries from a well-formed state to the next holds at the end
of every run. -/
theorem WellFormed.run_induction {P : State → Prop} {s' : State} {ops : List Op}
    (hP : ∀ s s' op, WellFormed init s → P s → s.apply op = .ok s' → P s')
    (h : WellFormed init s) (hp : P s) (hs : s.run ops = .ok s') : P s' := by
  induction ops generalizing s with
  | nil => cases hs; exact hp
  | cons op ops ih =>
    obtain ⟨s₁, h₁, hs₁⟩ := run_cons_eq_ok hs
    exact ih (h.apply_ok h₁) (hP s s₁ op h hp h₁) hs₁

theorem WellFormed.run (h : WellFormed init s) (ops : List Op) :
    ∃ s', s.run ops = .ok s' ∧ WellFormed init s' := by
  induction ops generalizing s with
  | nil => exact ⟨s, rfl, h⟩
  | cons op ops ih =>
    obtain ⟨s₁, h₁, hw₁⟩ := h.apply op
    obtain ⟨s', h', hw'⟩ := ih hw₁
    exact ⟨s', by rw [run_cons, h₁]; exact h', hw'⟩

theorem WellFormed.localNode_ok (h : WellFormed init s) : ∃ node, s.localNode = .ok node := by
  obtain ⟨n, hn, -⟩ := h.local_active
  exact ⟨n, by simp [localNode, hn]⟩

end State

/-- Every run from `NewState(localNode)` completes without a panic and ends in a well-formed state,
where `LocalNode` does not panic either. -/
theorem state_wellFormed (localNode : Node) (ops : List Op) :
    ∃ s, (State.newState localNode).run ops = .ok s ∧ State.WellFormed localNode s ∧
      ∃ node, s.localNode = .ok node := by
  obtain ⟨s, hs, hw⟩ := (State.newState_wellFormed localNode).run ops
  exact ⟨s, hs, hw, hw.localNode_ok⟩

end Piko.Cluster

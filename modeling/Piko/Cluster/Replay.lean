import Piko.Cluster.LocalEndpoints
import Piko.Cluster.RemoteEndpoints

/-! # The cluster state as a replay of its calls

Each method changes the local endpoint table by `localStep` and the node at each remote ID by
`remoteStep` at that ID, and nothing else a reader of the state sees. So the state a run reaches
is, but for the order the AList keeps its entries in, the warnings, the gauge, the subscriber count
and the callbacks made, the left fold of these two functions over the run.

* `View`: the local endpoint table and the node at each remote ID. `State.view` reads it off a
  state; `View.step` is one call on it, `View.replay` a run.
* `state_refines_replay`: every run from `NewState` reaches a state whose view is the replay.
* `view_of_same_calls`: the view depends only on the local-endpoint calls and, for each remote ID,
  on the calls naming it, each in their order; gossip about different nodes commutes.
* `remote_membership_last_writer_wins`: a remote node is present exactly when the last `AddNode` or
  `RemoveNode` of its ID was an `AddNode`, with the status the last call asserting one gave.
* `nodes_lists_each_node_once`: `Nodes()` lists each known node once, the local one among them.
* `lookup_endpoint_from_history`: whether `LookupEndpoint` finds a node is decided by the history
  alone.
-/

namespace Piko.Cluster
set_option autoImplicit false

/-- What a reader of the state sees: the local endpoint table and the node held at each remote
ID. -/
@[ext] structure View where
  localTable : Endpoints
  remote : String → Option Node

namespace View

/-- `NewState(localNode)` as a view: the node's own table and no remote node. -/
def init (localNode : Node) : View := ⟨localNode.endpoints, fun _ => none⟩

/-- One call on the view of a cluster whose local ID is `localID`. -/
def step (localID : String) (v : View) (op : Op) : View where
  localTable := State.localStep v.localTable op
  remote id := if id = localID then none else remoteStep id (v.remote id) op

/-- The view a run from `NewState(localNode)` replays to. -/
def replay (localNode : Node) (ops : List Op) : View :=
  ops.foldl (step localNode.id) (init localNode)

theorem foldl_step_localTable (localID : String) (ops : List Op) (v : View) :
    (ops.foldl (step localID) v).localTable = ops.foldl State.localStep v.localTable := by
  induction ops generalizing v with
  | nil => rfl
  | cons op ops ih => exact ih _

theorem foldl_step_remote {localID id : String} (hid : id ≠ localID) (ops : List Op) (v : View) :
    (ops.foldl (step localID) v).remote id = ops.foldl (remoteStep id) (v.remote id) := by
  induction ops generalizing v with
  | nil => rfl
  | cons op ops ih => simp only [List.foldl_cons, ih, step, if_neg hid]

theorem foldl_step_remote_self (localID : String) (ops : List Op) {v : View}
    (hv : v.remote localID = none) : (ops.foldl (step localID) v).remote localID = none := by
  induction ops generalizing v with
  | nil => exact hv
  | cons op ops ih => exact ih (if_pos rfl)

end View

namespace State

variable {s s' : State} {init : Node} {op : Op}

/-- The view of a state: its local table, and `Node(id)` at every ID but the local one. -/
def view (s : State) : View where
  localTable := s.localTable
  remote id := if id = s.localID then none else s.node id

theorem newState_view (init : Node) : (newState init).view = View.init init := by
  simp only [view, View.init, newState_localTable, View.mk.injEq, true_and]
  funext id
  split_ifs with h
  · rfl
  · exact (AList.lookup_insert_ne h).trans (AList.lookup_empty _)

/-- Every method refines `View.step`. -/
theorem view_apply (hw : WellFormed init s) (hs : s.apply op = .ok s') :
    s'.view = s.view.step s.localID op := by
  simp only [view, View.step, localTable_apply hw hs, localID_apply hw hs, View.mk.injEq, true_and]
  funext id
  split_ifs with h
  · rfl
  · exact lookup_apply hw hs h

theorem view_run (hw : WellFormed init s) {ops : List Op} (hs : s.run ops = .ok s') :
    s'.view = ops.foldl (View.step s.localID) s.view := by
  induction ops generalizing s with
  | nil => cases hs; rfl
  | cons op ops ih =>
    obtain ⟨s₁, h₁, hs₁⟩ := run_cons_eq_ok hs
    rw [ih (hw.apply_ok h₁) hs₁, localID_apply hw h₁, view_apply hw h₁]
    rfl

theorem wellFormed_of_run {ops : List Op} (hs : (newState init).run ops = .ok s) :
    WellFormed init s :=
  (newState_wellFormed init).run_induction (fun _ _ _ h _ hs => h.apply_ok hs)
    (newState_wellFormed init) hs

/-- A run from `NewState` reaches the replay of its calls. -/
theorem view_of_run {ops : List Op} (hs : (newState init).run ops = .ok s) :
    s.view = View.replay init ops := by
  rw [view_run (newState_wellFormed init) hs, newState_view]
  rfl

/-- The node at a remote ID is the fold of `remoteStep` at that ID over the run. -/
theorem node_of_run {ops : List Op} (hs : (newState init).run ops = .ok s) {id : String}
    (hid : id ≠ init.id) : s.node id = ops.foldl (remoteStep id) none := by
  have hv := congrArg (fun v => v.remote id) (view_of_run hs)
  simp only [view, (wellFormed_of_run hs).localID_eq, if_neg hid] at hv
  rw [hv, View.replay, View.foldl_step_remote hid]
  rfl

end State

/-- The calls on the local endpoint table. -/
def Op.isLocal : Op → Bool
  | .addLocalEndpoint _ | .removeLocalEndpoint _ => true
  | _ => false

/-- The calls naming remote ID `id`: `AddNode` of a node with that ID, and the methods taking
`id`. -/
def Op.names (id : String) : Op → Bool
  | .addNode m => m.id = id
  | .removeNode id' | .updateRemoteStatus id' _ | .updateRemoteEndpoint id' _ _
  | .removeRemoteEndpoint id' _ => id' = id
  | _ => false

theorem localStep_of_not_isLocal {op : Op} (h : op.isLocal = false) (t : Endpoints) :
    State.localStep t op = t := by
  cases op <;> first | rfl | cases h

theorem remoteStep_of_not_names {id : String} {op : Op} (h : op.names id = false)
    (o : Option Node) : remoteStep id o op = o := by
  cases op <;> simp_all [Op.names, remoteStep]

theorem foldl_filter_of_neutral {α β : Type} (f : β → α → β) (p : α → Bool)
    (hf : ∀ b a, p a = false → f b a = b) (l : List α) (b : β) :
    (l.filter p).foldl f b = l.foldl f b := by
  induction l generalizing b with
  | nil => rfl
  | cons a l ih =>
    cases hp : p a
    · rw [List.filter_cons_of_neg (by simp [hp]), ih, List.foldl_cons, hf b a hp]
    · rw [List.filter_cons_of_pos hp, List.foldl_cons, List.foldl_cons, ih]

/-- Two runs from one `NewState` that make the same local-endpoint calls, and the same calls
naming each remote ID, each in the same order, reach states with the same view, however the calls
are interleaved. -/
theorem view_of_same_calls (init : Node) {ops₁ ops₂ : List Op} {s₁ s₂ : State}
    (hs₁ : (State.newState init).run ops₁ = .ok s₁) (hs₂ : (State.newState init).run ops₂ = .ok s₂)
    (hloc : ops₁.filter Op.isLocal = ops₂.filter Op.isLocal)
    (hrem : ∀ id, id ≠ init.id → ops₁.filter (Op.names id) = ops₂.filter (Op.names id)) :
    s₁.view = s₂.view := by
  have hl := foldl_filter_of_neutral State.localStep Op.isLocal
    (fun t _ h => localStep_of_not_isLocal h t)
  have hr := fun id => foldl_filter_of_neutral (remoteStep id) (Op.names id)
    (fun o _ h => remoteStep_of_not_names h o)
  rw [State.view_of_run hs₁, State.view_of_run hs₂]
  unfold View.replay
  apply View.ext
  · rw [View.foldl_step_localTable, View.foldl_step_localTable, ← hl, hloc, hl]
  · funext id
    by_cases hid : id = init.id
    · subst hid
      rw [View.foldl_step_remote_self _ _ rfl, View.foldl_step_remote_self _ _ rfl]
    · rw [View.foldl_step_remote hid, View.foldl_step_remote hid, ← hr, hrem id hid, hr]

/-- An `AddLocalEndpoint` and `AddNode` of `a` and of `b`, in two interleavings: the maps keep
their entries in different orders, and the views agree. -/
theorem view_of_same_calls_interleaved :
    ∃ s₁ s₂, (State.newState ⟨"local", nodeStatusActive, "", "", fun _ => none⟩).run
        [.addNode ⟨"a", nodeStatusActive, "", "", fun _ => none⟩, .addLocalEndpoint "e",
          .addNode ⟨"b", nodeStatusActive, "", "", fun _ => some 1⟩] = .ok s₁ ∧
      (State.newState ⟨"local", nodeStatusActive, "", "", fun _ => none⟩).run
        [.addNode ⟨"b", nodeStatusActive, "", "", fun _ => some 1⟩,
          .addNode ⟨"a", nodeStatusActive, "", "", fun _ => none⟩, .addLocalEndpoint "e"] = .ok s₂ ∧
      s₁.nodes.keys = ["b", "local", "a"] ∧ s₂.nodes.keys = ["local", "a", "b"] ∧
      s₁.view = s₂.view :=
  ⟨_, _, rfl, rfl, by decide, by decide, @view_of_same_calls ⟨"local", nodeStatusActive, "", "", fun _ => none⟩
    [.addNode ⟨"a", nodeStatusActive, "", "", fun _ => none⟩, .addLocalEndpoint "e",
      .addNode ⟨"b", nodeStatusActive, "", "", fun _ => some 1⟩]
    [.addNode ⟨"b", nodeStatusActive, "", "", fun _ => some 1⟩,
      .addNode ⟨"a", nodeStatusActive, "", "", fun _ => none⟩, .addLocalEndpoint "e"] _ _
    (by rfl) (by rfl) rfl fun id _ => by
    by_cases ha : "a" = id <;> by_cases hb : "b" = id
    · exact absurd (ha.trans hb.symm) (by decide)
    all_goals simp [Op.names, ha, hb]⟩

/-! ## Membership and status are last-writer-wins -/

/-- What `op` asserts about the presence of remote ID `id`: `AddNode` of a node with that ID that
it is there, `RemoveNode(id)` that it is not. The other calls assert nothing. -/
def Op.presence (id : String) : Op → Option Bool
  | .addNode m => if m.id = id then some true else none
  | .removeNode id' => if id' = id then some false else none
  | _ => none

/-- What `op` asserts about the status of remote ID `id`: `AddNode` of a node with that ID its
status, `UpdateRemoteStatus(id, status)` `status`. -/
def Op.statusAssertion (id : String) : Op → Option NodeStatus
  | .addNode m => if m.id = id then some m.status else none
  | .updateRemoteStatus id' status => if id' = id then some status else none
  | _ => none

/-- The presence of `id` the last call of `ops` asserting one gave. -/
def lastPresence (id : String) (ops : List Op) : Option Bool :=
  ops.reverse.findSome? (Op.presence id)

/-- The status of `id` the last call of `ops` asserting one gave. -/
def lastStatus (id : String) (ops : List Op) : Option NodeStatus :=
  ops.reverse.findSome? (Op.statusAssertion id)

theorem findSome?_reverse_concat {α β : Type} (f : α → Option β) (l : List α) (a : α) :
    (l ++ [a]).reverse.findSome? f = (f a).or (l.reverse.findSome? f) := by
  simp only [List.reverse_append, List.reverse_singleton, List.singleton_append,
    List.findSome?_cons]
  cases f a <;> rfl

/-- `o` is what the history `ops` says of remote ID `id`: a node exactly when the last presence
asserted was `true`, and then with the last status asserted. -/
def Tracks (id : String) (ops : List Op) (o : Option Node) : Prop :=
  (o.isSome ↔ lastPresence id ops = some true) ∧ ∀ n, o = some n → lastStatus id ops = some n.status

theorem tracks_nil (id : String) : Tracks id [] none :=
  ⟨by simp [lastPresence], fun _ h => Option.noConfusion h⟩

section Tracks

variable {id : String} {ops : List Op} {o : Option Node} {op : Op}

theorem Tracks.map (h : Tracks id ops o) (op : Op) (hp : op.presence id = none)
    (hs : op.statusAssertion id = none) (f : Node → Node) (hf : ∀ n, (f n).status = n.status) :
    Tracks id (ops ++ [op]) (o.map f) := by
  simp only [Tracks, lastPresence, lastStatus, findSome?_reverse_concat, hp, hs, Option.none_or,
    Option.isSome_map']
  refine ⟨h.1, fun n hn => ?_⟩
  obtain ⟨n₀, hn₀, rfl⟩ := Option.map_eq_some'.1 hn
  rw [hf]; exact h.2 n₀ hn₀

theorem Tracks.same (h : Tracks id ops o) (op : Op) (hp : op.presence id = none)
    (hs : op.statusAssertion id = none) : Tracks id (ops ++ [op]) o := by
  simpa using h.map op hp hs (fun n => n) fun _ => rfl

/-- One call keeps the node at `id` what the history says of it. -/
theorem Tracks.step (h : Tracks id ops o) (op : Op) :
    Tracks id (ops ++ [op]) (remoteStep id o op) := by
  cases op with
  | addNode m =>
    by_cases hm : m.id = id
    · simp [Tracks, lastPresence, lastStatus, findSome?_reverse_concat, remoteStep,
        Op.presence, Op.statusAssertion, hm]
    · simpa [remoteStep, hm] using h.same _ (by simp [Op.presence, hm])
        (by simp [Op.statusAssertion, hm])
  | removeNode id' =>
    by_cases hi : id' = id
    · simp [Tracks, lastPresence, lastStatus, findSome?_reverse_concat, remoteStep,
        Op.presence, hi]
    · simpa [remoteStep, hi] using h.same (.removeNode id') (by simp [Op.presence, hi]) rfl
  | updateRemoteStatus id' st =>
    by_cases hi : id' = id
    · simp only [Tracks, lastPresence, lastStatus, findSome?_reverse_concat, remoteStep,
        Op.presence, Op.statusAssertion, hi, if_true, Option.none_or, Option.or_some,
        Option.isSome_map']
      refine ⟨h.1, fun n hn => ?_⟩
      obtain ⟨n₀, -, rfl⟩ := Option.map_eq_some'.1 hn
      rfl
    · simpa [remoteStep, hi] using h.same (.updateRemoteStatus id' st) rfl
        (by simp [Op.statusAssertion, hi])
  | updateRemoteEndpoint id' e k =>
    by_cases hi : id' = id
    · simpa [remoteStep, hi] using h.map (.updateRemoteEndpoint id' e k) rfl rfl
        (fun n => { n with endpoints := Function.update n.endpoints e (some k) }) fun _ => rfl
    · simpa [remoteStep, hi] using h.same (.updateRemoteEndpoint id' e k) rfl rfl
  | removeRemoteEndpoint id' e =>
    by_cases hi : id' = id
    · simpa [remoteStep, hi] using h.map (.removeRemoteEndpoint id' e) rfl rfl
        (fun n => { n with endpoints := Function.update n.endpoints e none }) fun _ => rfl
    · simpa [remoteStep, hi] using h.same (.removeRemoteEndpoint id' e) rfl rfl
  | addLocalEndpoint e => exact h.same _ rfl rfl
  | removeLocalEndpoint e => exact h.same _ rfl rfl
  | onLocalEndpointUpdate => exact h.same _ rfl rfl

theorem Tracks.foldl (h : Tracks id ops o) (ops' : List Op) :
    Tracks id (ops ++ ops') (ops'.foldl (remoteStep id) o) := by
  induction ops' generalizing ops o with
  | nil => rw [List.append_nil]; exact h
  | cons op ops' ih =>
    rw [← List.singleton_append, ← List.append_assoc]
    exact ih (h.step op)

end Tracks

/-- After any run from `NewState`, the node at a remote ID is what the history says of it. -/
theorem State.tracks_of_run {init : Node} {ops : List Op} {s : State}
    (hs : (State.newState init).run ops = .ok s) {id : String} (hid : id ≠ init.id) :
    Tracks id ops (s.node id) := by
  rw [State.node_of_run hs hid]
  simpa using (tracks_nil id).foldl ops

/-- Remote membership and status are last-writer-wins: after any run from `NewState`, a node is
held at a remote ID exactly when the last `AddNode` or `RemoveNode` of that ID was an `AddNode`,
and its status is the one the last `AddNode` or `UpdateRemoteStatus` of that ID gave. -/
theorem remote_membership_last_writer_wins (init : Node) (ops : List Op) {s : State}
    (hs : (State.newState init).run ops = .ok s) {id : String} (hid : id ≠ init.id) :
    ((s.node id).isSome ↔ lastPresence id ops = some true) ∧
      ∀ n, s.node id = some n → lastStatus id ops = some n.status :=
  State.tracks_of_run hs hid

/-- Node `a` joins, leaves, joins again as `left`, and is marked active: it is present and
active. -/
theorem remote_membership_last_writer_wins_rejoin :
    ∃ s, (State.newState ⟨"local", nodeStatusActive, "", "", fun _ => none⟩).run
        [.addNode ⟨"a", nodeStatusActive, "", "", fun _ => none⟩, .removeNode "a",
          .addNode ⟨"a", ⟨"left"⟩, "", "", fun _ => none⟩,
          .updateRemoteStatus "a" nodeStatusActive] = .ok s ∧
      ((s.node "a").isSome ↔ lastPresence "a" [.addNode ⟨"a", nodeStatusActive, "", "", fun _ => none⟩,
          .removeNode "a", .addNode ⟨"a", ⟨"left"⟩, "", "", fun _ => none⟩,
          .updateRemoteStatus "a" nodeStatusActive] = some true) ∧
      ∀ n, s.node "a" = some n → lastStatus "a" [.addNode ⟨"a", nodeStatusActive, "", "",
          fun _ => none⟩, .removeNode "a", .addNode ⟨"a", ⟨"left"⟩, "", "", fun _ => none⟩,
          .updateRemoteStatus "a" nodeStatusActive] = some n.status :=
  ⟨_, rfl, remote_membership_last_writer_wins ⟨"local", nodeStatusActive, "", "", fun _ => none⟩
    _ (by rfl) (by decide)⟩

/-! ## `Nodes()` -/

theorem State.nodeList_ids {init : Node} {s : State} (hw : State.WellFormed init s) :
    s.nodeList.map Node.id = s.nodes.keys := by
  rw [State.nodeList, List.map_map]
  exact List.map_congr_left fun ⟨k, n⟩ hk => hw.key_id k n (AList.mem_lookup_iff.2 hk)

/-- `Nodes()` lists every known node once, in whatever order the map's iteration takes: after any
run from `NewState` the IDs it lists are pairwise distinct, the local node is among them and
active, and a remote ID is listed exactly when the last `AddNode` or `RemoveNode` of it was an
`AddNode`. -/
theorem nodes_lists_each_node_once (init : Node) (ops : List Op) {s : State}
    (hs : (State.newState init).run ops = .ok s) {order : List Node}
    (horder : order.Perm s.nodeList) :
    (order.map Node.id).Nodup ∧ (∃ n ∈ order, n.id = init.id ∧ n.status = nodeStatusActive) ∧
      ∀ id, id ≠ init.id → (id ∈ order.map Node.id ↔ lastPresence id ops = some true) := by
  have hw := State.wellFormed_of_run hs
  have hids := (horder.map Node.id).trans (List.Perm.of_eq (State.nodeList_ids hw))
  refine ⟨hids.nodup_iff.2 s.nodes.nodupKeys, ?_, fun id hid => ?_⟩
  · obtain ⟨n, hn, hst, -⟩ := hw.local_active
    exact ⟨n, horder.mem_iff.2 ((State.mem_values_iff _ n).2 ⟨_, hn⟩),
      (hw.key_id _ n hn).trans hw.localID_eq, hst⟩
  · rw [hids.mem_iff, ← AList.mem_keys, ← AList.lookup_isSome]
    exact (State.tracks_of_run hs hid).1

/-- Remotes `a` and `b` join and `a` leaves: `Nodes()`, visited backwards, lists `b` and the local
node. -/
theorem nodes_lists_each_node_once_leave :
    ∃ s, (State.newState ⟨"local", nodeStatusActive, "", "", fun _ => none⟩).run
        [.addNode ⟨"a", nodeStatusActive, "", "", fun _ => none⟩,
          .addNode ⟨"b", nodeStatusActive, "", "", fun _ => none⟩, .removeNode "a"] = .ok s ∧
      s.nodeList.reverse.map Node.id = ["local", "b"] ∧
      (s.nodeList.reverse.map Node.id).Nodup ∧
      (∃ n ∈ s.nodeList.reverse, n.id = "local" ∧ n.status = nodeStatusActive) ∧
      ∀ id, id ≠ "local" → (id ∈ s.nodeList.reverse.map Node.id ↔
        lastPresence id [.addNode ⟨"a", nodeStatusActive, "", "", fun _ => none⟩,
          .addNode ⟨"b", nodeStatusActive, "", "", fun _ => none⟩, .removeNode "a"] = some true) :=
  ⟨_, rfl, by decide, nodes_lists_each_node_once ⟨"local", nodeStatusActive, "", "", fun _ => none⟩
    _ (by rfl) (List.reverse_perm _)⟩

/-! ## Routing is decided by the history -/

/-- Whether `LookupEndpoint(e)` finds a node, in whatever order it visits the nodes, is decided by
the run alone: exactly when some remote ID was last added rather than removed and the last call
asserting a count of `e` there asserted a positive one. -/
theorem lookup_endpoint_from_history (init : Node) (ops : List Op) {s : State}
    (hs : (State.newState init).run ops = .ok s) (e : String) {order : List Node}
    (horder : order.Perm s.nodeList) :
    (s.lookupEndpoint e order).isSome ↔
      ∃ id, id ≠ init.id ∧ lastPresence id ops = some true ∧
        ∃ k, lastAssertion id e ops = some k ∧ 0 < k := by
  have hw := State.wellFormed_of_run hs
  have hlww := (State.lastWriterWins_newState init).run (State.newState_wellFormed init) hs
  rw [List.nil_append] at hlww
  constructor
  · intro h
    obtain ⟨n, hn⟩ := Option.isSome_iff_exists.1 h
    obtain ⟨hmem, hl, hc⟩ := State.lookupIn_sound hn
    obtain ⟨k, hk⟩ := (State.mem_values_iff _ n).1 (horder.subset hmem)
    have hkl : k ≠ s.localID := hw.key_id k n hk ▸ hl
    have hki : k ≠ init.id := hw.localID_eq ▸ hkl
    exact ⟨k, hki, (State.tracks_of_run hs hki).1.1 (by rw [State.node, hk]; rfl), _,
      hlww k n hkl hk e, hc⟩
  · rintro ⟨id, hid, hp, k, hk, hpos⟩
    obtain ⟨n, hn⟩ := Option.isSome_iff_exists.1 ((State.tracks_of_run hs hid).1.2 hp)
    have hil : id ≠ s.localID := hw.localID_eq ▸ hid
    have hkn : k = listeners n.endpoints e := Option.some.inj (hk.symm.trans (hlww id n hil hn e))
    cases hl : s.lookupEndpoint e order with
    | some _ => rfl
    | none =>
      have hle := State.lookupIn_eq_none hl n
        (horder.mem_iff.2 ((State.mem_values_iff _ n).2 ⟨id, hn⟩)) ((hw.key_id id n hn).symm ▸ hil)
      omega

/-- The local node advertises `e` and remote `b` joins with one listener for it: the history names
`b`, whatever the order of the visit. -/
theorem lookup_endpoint_from_history_remote :
    ∃ s, (State.newState ⟨"local", nodeStatusActive, "", "", fun _ => none⟩).run
        [.addLocalEndpoint "e", .addNode ⟨"b", nodeStatusActive, "", "", fun _ => some 1⟩] = .ok s ∧
      s.nodeList.reverse.Perm s.nodeList ∧
      ((s.lookupEndpoint "e" s.nodeList.reverse).isSome ↔
        ∃ id, id ≠ "local" ∧ lastPresence id [.addLocalEndpoint "e",
            .addNode ⟨"b", nodeStatusActive, "", "", fun _ => some 1⟩] = some true ∧
          ∃ k, lastAssertion id "e" [.addLocalEndpoint "e",
            .addNode ⟨"b", nodeStatusActive, "", "", fun _ => some 1⟩] = some k ∧ 0 < k) :=
  ⟨_, rfl, List.reverse_perm _, lookup_endpoint_from_history
    ⟨"local", nodeStatusActive, "", "", fun _ => none⟩ _ (by rfl) "e" (List.reverse_perm _)⟩

end Piko.Cluster

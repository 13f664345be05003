import Piko.Cluster.WellFormed

/-! # Remote endpoint tables

What the state knows of the endpoints on the other nodes, and how `LookupEndpoint` reads it.

* `remoteStep id o op`: what one call leaves at remote ID `id` when `o` was there. Only
  `AddNode`, `RemoveNode` and the three `UpdateRemote…`/`RemoveRemote…` methods change it, and only
  at the ID they name.
* Last writer wins: a remote count is the value the last call of the run asserting one gave, where
  `AddNode` asserts its node's table, `UpdateRemoteEndpoint` a count and `RemoveRemoteEndpoint` a
  zero.
* `UpdateRemoteEndpoint` stores whatever count it is given; only it and `AddNode` of a table with
  a count `≤ 0` put one in a remote table.
* `LookupEndpoint` returns a remote node with a positive count, and finds one whenever there is one,
  in whatever order it visits the nodes.
-/

namespace Piko.Cluster
set_option autoImplicit false

/-- What one call leaves at remote ID `id`, when `o` was there. -/
def remoteStep (id : String) (o : Option Node) : Op → Option Node
  | .addNode m => if m.id = id then some m else o
  | .removeNode id' => if id' = id then none else o
  | .updateRemoteStatus id' status => if id' = id then o.map fun n => { n with status } else o
  | .updateRemoteEndpoint id' e k =>
    if id' = id then o.map fun n => { n with endpoints := Function.update n.endpoints e (some k) }
    else o
  | .removeRemoteEndpoint id' e =>
    if id' = id then o.map fun n => { n with endpoints := Function.update n.endpoints e none } else o
  | _ => o

namespace State

variable {s s' : State} {init : Node} {op : Op}

theorem lookup_updateRemote {localMsg notFoundMsg id₀ id : String} {f : State → Node → State}
    (G : Option Node → Option Node) (hG : G none = none) (hid : id ≠ s.localID)
    (hf : ∀ n, id₀ ≠ s.localID → s.nodes.lookup id₀ = some n →
      (f s n).nodes.lookup id = if id₀ = id then G (some n) else s.nodes.lookup id) :
    (s.updateRemote localMsg notFoundMsg id₀ f).1.nodes.lookup id =
      if id₀ = id then G (s.nodes.lookup id) else s.nodes.lookup id := by
  rcases updateRemote_cases (s := s) localMsg notFoundMsg id₀ f with
    ⟨hl, he⟩ | ⟨hn, he⟩ | ⟨n, hl, hn, he⟩ <;> rw [he]
  · rw [if_neg (by rintro rfl; exact hid hl)]; rfl
  · split_ifs with h
    · subst h; rw [hn, hG]; exact hn
    · rfl
  · rw [hf n hl hn]
    split_ifs with h
    · subst h; rw [hn]
    · rfl

theorem lookup_insert_ite (nodes : AList (fun _ : String => Node)) (id₀ id : String) (n : Node) :
    (nodes.insert id₀ n).lookup id = if id₀ = id then some n else nodes.lookup id := by
  split_ifs with h
  · subst h; exact AList.lookup_insert _
  · exact AList.lookup_insert_ne (Ne.symm h)

/-- What a call leaves at a remote ID is `remoteStep` of what was there. -/
theorem lookup_apply (hw : WellFormed init s) (hs : s.apply op = .ok s') {id : String}
    (hid : id ≠ s.localID) : s'.nodes.lookup id = remoteStep id (s.nodes.lookup id) op := by
  obtain ⟨nl, hnl, -⟩ := hw.local_active
  have hloc : ∀ (node : Node) t, (s.setEndpoints s.localID node t).nodes.lookup id =
      s.nodes.lookup id := fun _ _ => AList.lookup_insert_ne hid
  cases op with
  | addLocalEndpoint e => rw [apply, addLocalEndpoint_eq hnl] at hs; cases hs; exact hloc _ _
  | removeLocalEndpoint e =>
    rcases removeLocalEndpoint_cases hnl e with ⟨-, he⟩ | ⟨c, -, -, he⟩ <;> rw [apply, he] at hs <;>
      cases hs
    · rfl
    · exact hloc _ _
  | onLocalEndpointUpdate => cases hs; rfl
  | addNode m =>
    cases hs
    have hn : (s.addNode m).nodes =
        if m.id = s.localID then s.nodes else s.nodes.insert m.id m := by
      unfold State.addNode; split_ifs <;> rfl
    show _ = if m.id = id then some m else s.nodes.lookup id
    by_cases hl : m.id = s.localID
    · rw [hn, if_pos hl, if_neg (by rw [hl]; exact Ne.symm hid)]
    · rw [hn, if_neg hl, lookup_insert_ite]
  | removeNode id₀ =>
    cases hs
    refine lookup_updateRemote (fun _ => none) rfl hid fun n _ _ => ?_
    simp only [removeMetricsNode_nodes]
    split_ifs with h
    · subst h; exact AList.lookup_erase _ _
    · exact AList.lookup_erase_ne (Ne.symm h)
  | updateRemoteStatus id₀ st =>
    cases hs
    exact lookup_updateRemote _ rfl hid fun n _ _ => lookup_insert_ite _ _ _ _
  | updateRemoteEndpoint id₀ e k =>
    cases hs
    exact lookup_updateRemote _ rfl hid fun n _ _ => lookup_insert_ite _ _ _ _
  | removeRemoteEndpoint id₀ e =>
    cases hs
    exact lookup_updateRemote _ rfl hid fun n _ _ => lookup_insert_ite _ _ _ _

theorem localID_apply (hw : WellFormed init s) (hs : s.apply op = .ok s') :
    s'.localID = s.localID :=
  (hw.apply_ok hs).localID_eq.trans hw.localID_eq.symm

end State

/-! ## Last writer wins -/

/-- What `op` asserts about the count of endpoint `e` at node `id`: `AddNode` of a node with that
ID the count in its table, `UpdateRemoteEndpoint(id, e, k)` `k` and `RemoveRemoteEndpoint(id, e)`
zero. The other calls assert nothing. -/
def Op.assertion (id e : String) : Op → Option Int
  | .addNode n => if n.id = id then some (listeners n.endpoints e) else none
  | .updateRemoteEndpoint id' e' k => if id' = id ∧ e' = e then some k else none
  | .removeRemoteEndpoint id' e' => if id' = id ∧ e' = e then some 0 else none
  | _ => none

/-- The count of `e` at `id` that the last call of `ops` asserting one gave. `AddNode` asserts
every count of its node, so this is the most recent `AddNode` of `id`, or a later
`UpdateRemoteEndpoint` or `RemoveRemoteEndpoint` of `(id, e)`, whichever came last. -/
def lastAssertion (id e : String) (ops : List Op) : Option Int :=
  ops.reverse.findSome? (Op.assertion id e)

theorem lastAssertion_append (id e : String) (ops : List Op) (op : Op) :
    lastAssertion id e (ops ++ [op]) = (op.assertion id e).or (lastAssertion id e ops) := by
  simp only [lastAssertion, List.reverse_append, List.reverse_singleton, List.singleton_append,
    List.findSome?_cons]
  cases op.assertion id e <;> rfl

theorem lastAssertion_setCount {id e id' e' : String} {ops : List Op} {op : Op} {o : Option Node}
    (v : Option Int) (hop : op.assertion id e = if id' = id ∧ e' = e then some (v.getD 0) else none)
    (h : ∀ n, o = some n → lastAssertion id e ops = some (listeners n.endpoints e)) (n : Node)
    (hn : (if id' = id then o.map fun n => { n with endpoints := Function.update n.endpoints e' v }
      else o) = some n) :
    lastAssertion id e (ops ++ [op]) = some (listeners n.endpoints e) := by
  rw [lastAssertion_append, hop]
  by_cases hi : id' = id
  · rw [if_pos hi] at hn
    obtain ⟨n₀, hn₀, rfl⟩ := Option.map_eq_some'.1 hn
    by_cases he : e' = e
    · subst he; rw [if_pos ⟨hi, rfl⟩, listeners_update_self]; rfl
    · rw [if_neg fun h => he h.2, listeners_update_ne _ _ (Ne.symm he)]; exact h n₀ hn₀
  · rw [if_neg hi] at hn
    rw [if_neg fun h => hi h.1]; exact h n hn

/-- One call keeps a remote table equal to the last assertion. -/
theorem lastAssertion_remoteStep {id e : String} {ops : List Op} {o : Option Node}
    (h : ∀ n, o = some n → lastAssertion id e ops = some (listeners n.endpoints e)) (op : Op) :
    ∀ n, remoteStep id o op = some n →
      lastAssertion id e (ops ++ [op]) = some (listeners n.endpoints e) := by
  intro n hn
  cases op with
  | updateRemoteEndpoint id' e' k => exact lastAssertion_setCount (some k) (by rfl) h n hn
  | removeRemoteEndpoint id' e' => exact lastAssertion_setCount none (by rfl) h n hn
  | addNode m =>
    rw [lastAssertion_append]
    simp only [remoteStep, Op.assertion] at hn ⊢
    split_ifs at hn ⊢
    · cases hn; rfl
    · exact h n hn
  | removeNode id' =>
    simp only [remoteStep] at hn
    split_ifs at hn
    rw [lastAssertion_append]; exact h n hn
  | updateRemoteStatus id' st =>
    rw [lastAssertion_append]
    simp only [remoteStep] at hn
    split_ifs at hn
    · obtain ⟨n₀, hn₀, rfl⟩ := Option.map_eq_some'.1 hn
      exact h n₀ hn₀
    · exact h n hn
  | _ => rw [lastAssertion_append]; exact h n hn

namespace State

variable {s s' : State} {init : Node} {op : Op}

/-- Every remote table holds, for every endpoint, the count the last asserting call of `ops`
gave. -/
def LastWriterWins (ops : List Op) (s : State) : Prop :=
  ∀ id n, id ≠ s.localID → s.nodes.lookup id = some n →
    ∀ e, lastAssertion id e ops = some (listeners n.endpoints e)

theorem lastWriterWins_newState (init : Node) : LastWriterWins [] (newState init) := by
  intro id n hid hn
  simp only [newState, addMetricsNode_nodes, addMetricsNode_localID] at hid hn
  rw [AList.lookup_insert_ne hid, AList.lookup_empty] at hn
  cases hn

theorem LastWriterWins.apply (hw : WellFormed init s) {ops : List Op} (h : LastWriterWins ops s)
    (hs : s.apply op = .ok s') : LastWriterWins (ops ++ [op]) s' := by
  intro id n hid hn e
  rw [localID_apply hw hs] at hid
  rw [lookup_apply hw hs hid] at hn
  exact lastAssertion_remoteStep (fun n' h' => h id n' hid h' e) op n hn

theorem LastWriterWins.run (hw : WellFormed init s) {pre ops : List Op}
    (h : LastWriterWins pre s) (hs : s.run ops = .ok s') : LastWriterWins (pre ++ ops) s' := by
  induction ops generalizing s pre with
  | nil => cases hs; rw [List.append_nil]; exact h
  | cons op ops ih =>
    obtain ⟨s₁, h₁, hs₁⟩ := run_cons_eq_ok hs
    rw [← List.singleton_append, ← List.append_assoc]
    exact ih (hw.apply_ok h₁) (h.apply hw h₁) hs₁

end State

/-- Remote endpoint tables are last-writer-wins: after any run from `NewState`, the count of `e`
at a remote node `id` is the one the last call of the run asserting it gave. -/
theorem remote_endpoints_last_writer_wins (init : Node) (ops : List Op) {s : State}
    (hs : (State.newState init).run ops = .ok s) {id : String} (hid : id ≠ s.localID) {n : Node}
    (hn : s.node id = some n) (e : String) :
    lastAssertion id e ops = some (listeners n.endpoints e) :=
  (State.lastWriterWins_newState init).run (State.newState_wellFormed init) hs id n hid hn e

/-- Node `a` joins with two listeners for `e`, then a gossip update asserts five: a status change
and the removal of another endpoint leave the five. -/
theorem remote_endpoints_last_writer_wins_gossip :
    ∃ s n, (State.newState ⟨"local", nodeStatusActive, "", "", fun _ => none⟩).run
        [.addNode ⟨"a", nodeStatusActive, "", "", fun k => if k = "e" then some 2 else none⟩,
          .updateRemoteEndpoint "a" "e" 5, .updateRemoteStatus "a" ⟨"left"⟩,
          .removeRemoteEndpoint "a" "f"] = .ok s ∧ s.node "a" = some n ∧
      lastAssertion "a" "e" [.addNode ⟨"a", nodeStatusActive, "", "",
          fun k => if k = "e" then some 2 else none⟩,
        .updateRemoteEndpoint "a" "e" 5, .updateRemoteStatus "a" ⟨"left"⟩,
        .removeRemoteEndpoint "a" "f"] = some (listeners n.endpoints "e") :=
  ⟨_, _, rfl, rfl, remote_endpoints_last_writer_wins
    ⟨"local", nodeStatusActive, "", "", fun _ => none⟩ _ (by rfl) (by decide) (by rfl) "e"⟩

/-! ## Normalised tables

A table is normalised when every key holds a positive count, so that a count of zero is an absent
key. `RemoveRemoteEndpoint` deletes the key and `UpdateRemoteStatus` leaves the table alone, but
`UpdateRemoteEndpoint` stores the count it is given, zero or negative alike. -/

/-- Every key of the table holds a positive count. -/
def Positive (t : Endpoints) : Prop := ∀ e c, t e = some c → 0 < c

/-- `op` may put a count `≤ 0` into a remote table: `AddNode` of a node whose table holds one, or
`UpdateRemoteEndpoint` with a count `≤ 0`. -/
def Op.Denormalises : Op → Prop
  | .addNode m => ¬ Positive m.endpoints
  | .updateRemoteEndpoint _ _ k => k ≤ 0
  | _ => False

theorem Positive.update {t : Endpoints} (h : Positive t) (e : String) {v : Option Int}
    (hv : ∀ c, v = some c → 0 < c) : Positive (Function.update t e v) := fun e' c hc => by
  by_cases he : e' = e
  · subst he; rw [Function.update_same] at hc; exact hv c hc
  · rw [Function.update_noteq he] at hc; exact h e' c hc

/-- One call that does not denormalise keeps the table at a remote ID positive. -/
theorem positive_remoteStep {id : String} {o : Option Node}
    (h : ∀ n, o = some n → Positive n.endpoints) {op : Op} (hop : ¬ op.Denormalises) :
    ∀ n, remoteStep id o op = some n → Positive n.endpoints := by
  have hmap : ∀ (f : Node → Node), (∀ n, Positive n.endpoints → Positive (f n).endpoints) →
      ∀ n, o.map f = some n → Positive n.endpoints := fun f hf n hn => by
    obtain ⟨n₀, hn₀, rfl⟩ := Option.map_eq_some'.1 hn
    exact hf n₀ (h n₀ hn₀)
  intro n hn
  cases op with
  | addNode m =>
    simp only [remoteStep] at hn
    split_ifs at hn
    · cases hn; exact not_not.1 hop
    · exact h n hn
  | removeNode id' =>
    simp only [remoteStep] at hn
    split_ifs at hn
    exact h n hn
  | updateRemoteStatus id' st =>
    simp only [remoteStep] at hn
    split_ifs at hn
    · exact hmap (fun n => { n with status := st }) (fun _ hp => hp) n hn
    · exact h n hn
  | updateRemoteEndpoint id' e k =>
    simp only [remoteStep] at hn
    split_ifs at hn
    · exact hmap _ (fun _ hp => hp.update e fun c hc => Option.some.inj hc ▸ not_le.1 hop) n hn
    · exact h n hn
  | removeRemoteEndpoint id' e =>
    simp only [remoteStep] at hn
    split_ifs at hn
    · exact hmap _ (fun _ hp => hp.update e fun c hc => Option.noConfusion hc) n hn
    · exact h n hn
  | _ => exact h n hn

namespace State

variable {s s' : State} {init : Node} {op : Op}

/-- Every remote table is normalised. -/
def RemoteNormalised (s : State) : Prop :=
  ∀ id n, id ≠ s.localID → s.nodes.lookup id = some n → Positive n.endpoints

theorem remoteNormalised_newState (init : Node) : RemoteNormalised (newState init) := by
  intro id n hid hn
  simp only [newState, addMetricsNode_nodes, addMetricsNode_localID] at hid hn
  rw [AList.lookup_insert_ne hid, AList.lookup_empty] at hn
  cases hn

theorem RemoteNormalised.apply (hw : WellFormed init s) (h : RemoteNormalised s)
    (hs : s.apply op = .ok s') (hop : ¬ op.Denormalises) : RemoteNormalised s' := by
  intro id n hid hn
  rw [localID_apply hw hs] at hid
  rw [lookup_apply hw hs hid] at hn
  exact positive_remoteStep (h id · hid) hop n hn

theorem RemoteNormalised.run (hw : WellFormed init s) (h : RemoteNormalised s) {ops : List Op}
    (hops : ∀ op ∈ ops, ¬ op.Denormalises) (hs : s.run ops = .ok s') : RemoteNormalised s' := by
  induction ops generalizing s with
  | nil => cases hs; exact h
  | cons op ops ih =>
    obtain ⟨s₁, h₁, hs₁⟩ := run_cons_eq_ok hs
    exact ih (hw.apply_ok h₁) (h.apply hw h₁ (hops op (List.mem_cons_self _ _)))
      (fun op' h' => hops op' (List.mem_cons_of_mem _ h')) hs₁

end State

/-- Remote tables stay normalised over every run from `NewState` in which no `AddNode` brings a
count `≤ 0` and no `UpdateRemoteEndpoint` stores one: these two are the only ways one gets in. -/
theorem remote_tables_normalised (init : Node) {ops : List Op} {s : State}
    (hops : ∀ op ∈ ops, ¬ op.Denormalises) (hs : (State.newState init).run ops = .ok s) :
    State.RemoteNormalised s :=
  (State.remoteNormalised_newState init).run (State.newState_wellFormed init) hops hs

/-- `AddNode` of a remote node with an empty table, then `UpdateRemoteEndpoint` asserting zero
listeners: the remote table holds the key with count `0`. -/
theorem updateRemoteEndpoint_stores_zero :
    ∃ s n, (State.newState ⟨"local", nodeStatusActive, "", "", fun _ => none⟩).run
        [.addNode ⟨"a", nodeStatusActive, "", "", fun _ => none⟩,
          .updateRemoteEndpoint "a" "e" 0] = .ok s ∧
      "a" ≠ s.localID ∧ s.node "a" = some n ∧ n.endpoints "e" = some 0 :=
  ⟨_, _, rfl, by decide, rfl, rfl⟩

/-! ## `LookupEndpoint` -/

namespace State

theorem lookupIn_cons (localID e : String) (m : Node) (l : List Node) :
    lookupIn localID e (m :: l) =
      if m.id ≠ localID ∧ 0 < listeners m.endpoints e then some m else lookupIn localID e l := by
  by_cases hl : m.id = localID
  · simp [lookupIn, hl]
  · cases hc : m.endpoints e <;> simp [lookupIn, listeners, hl, hc]

/-- What the loop returns is a node of the list that is not the local node and has a positive
count. -/
theorem lookupIn_sound {localID e : String} :
    ∀ {l : List Node} {n : Node}, lookupIn localID e l = some n →
      n ∈ l ∧ n.id ≠ localID ∧ 0 < listeners n.endpoints e
  | [], _, h => nomatch h
  | m :: l, n, h => by
    rw [lookupIn_cons] at h
    split_ifs at h with hm
    · cases h; exact ⟨List.mem_cons_self _ _, hm⟩
    · exact (lookupIn_sound h).imp_left (List.mem_cons_of_mem m)

/-- The loop finds nothing only when no node of the list other than the local node has a positive
count. -/
theorem lookupIn_eq_none {localID e : String} :
    ∀ {l : List Node}, lookupIn localID e l = none →
      ∀ m ∈ l, m.id ≠ localID → listeners m.endpoints e ≤ 0
  | [], _ => fun _ hm => absurd hm (List.not_mem_nil _)
  | m :: l, h => by
    rw [lookupIn_cons] at h
    split_ifs at h with hm
    intro m' hm' hl
    rcases List.mem_cons.1 hm' with rfl | hm'
    · exact not_lt.1 fun hc => hm ⟨hl, hc⟩
    · exact lookupIn_eq_none h m' hm' hl

theorem mem_values_iff (nodes : AList (fun _ : String => Node)) (m : Node) :
    m ∈ nodes.entries.map Sigma.snd ↔ ∃ k, nodes.lookup k = some m := by
  rw [List.mem_map]
  constructor
  · rintro ⟨⟨k, m⟩, hm, rfl⟩
    exact ⟨k, AList.mem_lookup_iff.2 hm⟩
  · rintro ⟨k, hk⟩
    exact ⟨⟨k, m⟩, AList.mem_lookup_iff.1 hk, rfl⟩

end State

/-- `LookupEndpoint` visiting the nodes in any order: a node it returns is one of the state's
nodes, not the local one, with a positive count for `e`; it returns none only when no node but the
local one has a positive count, whatever the local node's own count. -/
theorem lookup_endpoint_sound_complete (s : State) (e : String) {order : List Node}
    (horder : order.Perm s.nodeList) :
    (∀ n, s.lookupEndpoint e order = some n →
      ∃ k, s.node k = some n ∧ n.id ≠ s.localID ∧ 0 < listeners n.endpoints e) ∧
    (s.lookupEndpoint e order = none →
      ∀ k m, s.node k = some m → m.id ≠ s.localID → listeners m.endpoints e ≤ 0) := by
  constructor
  · intro n hn
    obtain ⟨hmem, hl, hc⟩ := State.lookupIn_sound hn
    obtain ⟨k, hk⟩ := (State.mem_values_iff _ n).1 (horder.subset hmem)
    exact ⟨k, hk, hl, hc⟩
  · intro hn k m hk hl
    exact State.lookupIn_eq_none hn m (horder.mem_iff.2 ((State.mem_values_iff _ m).2 ⟨k, hk⟩)) hl

/-- A local node advertising `e`, then remote `a` with a zero count and remote `b` with one.
Visiting the local node first, then `a`, then `b`, `LookupEndpoint` skips the first two and
returns `b`. -/
theorem lookup_endpoint_sound_complete_remote :
    ∃ s, (State.newState ⟨"local", nodeStatusActive, "", "", fun _ => none⟩).run
        [.addLocalEndpoint "e", .addNode ⟨"a", nodeStatusActive, "", "", fun _ => some 0⟩,
          .addNode ⟨"b", nodeStatusActive, "", "", fun _ => some 1⟩] = .ok s ∧
      s.nodeList.reverse.Perm s.nodeList ∧
      (s.lookupEndpoint "e" s.nodeList.reverse).map Node.id = some "b" ∧
      (∀ n, s.lookupEndpoint "e" s.nodeList.reverse = some n →
        ∃ k, s.node k = some n ∧ n.id ≠ s.localID ∧ 0 < listeners n.endpoints "e") ∧
      (s.lookupEndpoint "e" s.nodeList.reverse = none →
        ∀ k m, s.node k = some m → m.id ≠ s.localID → listeners m.endpoints "e" ≤ 0) :=
  ⟨_, rfl, List.reverse_perm _, rfl,
    lookup_endpoint_sound_complete _ "e" (List.reverse_perm _)⟩

end Piko.Cluster

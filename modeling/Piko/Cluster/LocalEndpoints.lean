import Piko.Cluster.WellFormed

/-! # The local endpoint table and its subscribers

The local node's `Endpoints` is the authoritative table of the listeners this process serves.

* `localStep`: what one operation does to the local table; `localTable_apply` shows every method
  refines it, and `received_apply` says which subscriber calls each method makes.
* `localCount_run_fold`: along any run the count of `e` is the fold of Go's wrapping increment
  `c ↦ wrapInt (c + 1)` and `c ↦ max (c - 1) 0` over the adds and removes of `e`; while the adds
  stay within `maxInt64` none wraps, and the key is stored exactly when its count is positive
  (`foldl_localStep_keyPositive`).
* `subscriber_calls`: each subscriber receives one call per add, and per remove that found a
  nonzero count, made after it registered, carrying the new count; the last count it received for
  an endpoint is the current one.
-/

namespace Piko.Cluster
set_option autoImplicit false

/-- The peer-management methods, which never write the local node. -/
def Op.IsPeer : Op → Prop
  | .addNode _ | .removeNode _ | .updateRemoteStatus _ _ | .updateRemoteEndpoint _ _ _
  | .removeRemoteEndpoint _ _ => True
  | _ => False

namespace State

variable {s s' : State} {init node : Node} {op : Op}

/-- The local node's endpoint table, `LocalNode().Endpoints`. -/
def localTable (s : State) : Endpoints :=
  match s.nodes.lookup s.localID with
  | some node => node.endpoints
  | none => fun _ => none

/-- `LocalNode().Endpoints[e]`. -/
def localCount (s : State) (e : String) : Int := listeners s.localTable e

theorem localTable_of_lookup (hn : s.nodes.lookup s.localID = some node) :
    s.localTable = node.endpoints := by
  simp [localTable, hn]

@[simp] theorem localTable_notify_setEndpoints (t : Endpoints) (e : String) (c : Int) :
    ((s.setEndpoints s.localID node t).notify e c).localTable = t := by
  simp [localTable]

/-! ## What one operation does to the local node -/

/-- What an operation does to the local endpoint table. -/
def localStep (t : Endpoints) : Op → Endpoints
  | .addLocalEndpoint e => Function.update t e (some (wrapInt (listeners t e + 1)))
  | .removeLocalEndpoint e =>
    match t e with
    | some c => if c = 0 then t else Function.update t e (if c > 1 then some (c - 1) else none)
    | none => t
  | _ => t

/-- `s'` agrees with `s` on everything the local-endpoint methods read or write. -/
structure LocalSame (s s' : State) : Prop where
  localID : s'.localID = s.localID
  lookup : s'.nodes.lookup s.localID = s.nodes.lookup s.localID
  callbacks : s'.callbacks = s.callbacks
  subscribers : s'.localEndpointSubscribers = s.localEndpointSubscribers

theorem LocalSame.localTable (h : LocalSame s s') : s'.localTable = s.localTable := by
  unfold State.localTable; rw [h.localID, h.lookup]

theorem localSame_warn (msg : String) : LocalSame s (s.warn msg) := ⟨rfl, rfl, rfl, rfl⟩

theorem localSame_updateRemote {localMsg notFoundMsg id : String} {f : State → Node → State}
    (hf : ∀ n, id ≠ s.localID → LocalSame s (f s n)) :
    LocalSame s (s.updateRemote localMsg notFoundMsg id f).1 := by
  rcases updateRemote_cases (s := s) localMsg notFoundMsg id f with
    ⟨-, he⟩ | ⟨-, he⟩ | ⟨n, hl, -, he⟩ <;> rw [he]
  · exact localSame_warn _
  · exact localSame_warn _
  · exact hf n hl

theorem localSame_apply_of_isPeer (hs : s.apply op = .ok s') (hop : op.IsPeer) :
    LocalSame s s' := by
  cases op <;> simp only [Op.IsPeer] at hop <;> simp only [apply, Except.ok.injEq] at hs <;>
    subst hs
  case addNode n =>
    unfold addNode; dsimp only
    split_ifs with hl hm
    · exact localSame_warn _
    all_goals exact ⟨rfl, AList.lookup_insert_ne (Ne.symm hl), rfl, rfl⟩
  case removeNode id =>
    exact localSame_updateRemote fun _ hl => ⟨rfl, AList.lookup_erase_ne (Ne.symm hl), rfl, rfl⟩
  all_goals exact localSame_updateRemote fun _ hl => ⟨rfl, AList.lookup_insert_ne (Ne.symm hl), rfl, rfl⟩

theorem listeners_eq_zero {t : Endpoints} {e : String} (h : listeners t e = 0) :
    t e = none ∨ t e = some 0 := by
  unfold listeners at h
  cases he : t e <;> simp_all

theorem localStep_of_listeners_zero {t : Endpoints} {e : String} (h : listeners t e = 0) :
    localStep t (.removeLocalEndpoint e) = t := by
  rcases listeners_eq_zero h with he | he <;> simp [localStep, he]

/-- Every method refines `localStep` on the local table. -/
theorem localTable_apply (h : WellFormed init s) (hs : s.apply op = .ok s') :
    s'.localTable = localStep s.localTable op := by
  obtain ⟨n, hn, -⟩ := h.local_active
  have ht := localTable_of_lookup hn
  cases op
  case addLocalEndpoint e =>
    rw [apply, addLocalEndpoint_eq hn] at hs
    cases hs
    simp [localStep, ht]
  case removeLocalEndpoint e =>
    rcases removeLocalEndpoint_cases hn e with ⟨h0, he⟩ | ⟨c, hc, h0, he⟩ <;>
      rw [apply, he] at hs <;> cases hs
    · rw [(localSame_warn _).localTable, ht, localStep_of_listeners_zero h0]
    · simp [localStep, ht, hc, h0]
  case onLocalEndpointUpdate =>
    cases hs; rfl
  all_goals exact (localSame_apply_of_isPeer hs trivial).localTable

/-! ## Listener counts -/

/-- How an operation changes the local count of `e`: Go's wrapping `+ 1` for an add of `e`,
`max (c - 1) 0` for a remove of `e`, nothing otherwise. -/
def countStep (e : String) (c : Int) : Op → Int
  | .addLocalEndpoint e' => if e' = e then wrapInt (c + 1) else c
  | .removeLocalEndpoint e' => if e' = e then max (c - 1) 0 else c
  | _ => c

/-- `countStep` with an unbounded increment `c ↦ c + 1`, the count law as the spec states it. -/
def countStepUnbounded (e : String) (c : Int) : Op → Int
  | .addLocalEndpoint e' => if e' = e then c + 1 else c
  | .removeLocalEndpoint e' => if e' = e then max (c - 1) 0 else c
  | _ => c

/-- The number of `AddLocalEndpoint(e)` calls in `ops`. -/
def addCount (e : String) (ops : List Op) : Nat :=
  ops.countP fun
    | .addLocalEndpoint e' => decide (e' = e)
    | _ => false

@[simp] theorem addCount_addLocalEndpoint_self (e : String) :
    addCount e [.addLocalEndpoint e] = 1 := by
  simp [addCount]

theorem addCount_cons (e : String) (op : Op) (ops : List Op) :
    addCount e (op :: ops) = addCount e [op] + addCount e ops := by
  simp only [addCount, List.countP_cons, List.countP_nil]; omega

theorem listeners_localStep (t : Endpoints) (e : String) (op : Op) :
    listeners (localStep t op) e = countStep e (listeners t e) op := by
  cases op with
  | addLocalEndpoint e' =>
    by_cases he : e' = e
    · subst he; simp [localStep, countStep]
    · simp [localStep, countStep, he, Ne.symm he]
  | removeLocalEndpoint e' =>
    by_cases he : e' = e
    · subst he
      cases hc : t e' with
      | none => simp only [localStep, countStep, listeners, hc, if_pos, Option.getD_none]; omega
      | some c =>
        simp only [localStep, countStep, listeners, hc, if_pos]
        split_ifs <;> simp only [hc, Function.update_same, Option.getD_some, Option.getD_none] <;>
          omega
    · simp only [localStep, countStep, he, if_false]
      cases hc : t e' with
      | none => rfl
      | some c => by_cases h0 : c = 0 <;> simp [h0, listeners_update_ne _ _ (Ne.symm he)]
  | _ => rfl

theorem countStep_of_le {e : String} {c : Int} {op : Op} (h₀ : 0 ≤ c)
    (hb : c + addCount e [op] ≤ maxInt64) :
    countStep e c op = countStepUnbounded e c op ∧ 0 ≤ countStep e c op ∧
      countStep e c op ≤ c + addCount e [op] := by
  have hadd : c ≤ c + addCount e [op] := le_add_of_nonneg_right (Nat.cast_nonneg _)
  cases op with
  | addLocalEndpoint e' =>
    by_cases he : e' = e
    · subst he
      rw [addCount_addLocalEndpoint_self, Nat.cast_one] at hb ⊢
      simp only [countStep, countStepUnbounded, if_pos, wrapInt_of_le (by omega) hb, le_refl,
        true_and, and_true]
      omega
    · simp only [countStep, countStepUnbounded, if_neg he, true_and]
      exact ⟨h₀, hadd⟩
  | removeLocalEndpoint e' =>
    refine ⟨rfl, ?_, ?_⟩ <;> simp only [countStep] <;> split_ifs <;> omega
  | _ => exact ⟨rfl, h₀, hadd⟩

/-- While the adds of `e` stay within `maxInt64`, the code's fold is the unbounded one. -/
theorem foldl_countStep_of_le {e : String} {ops : List Op} {c : Int} (h₀ : 0 ≤ c)
    (hb : c + addCount e ops ≤ maxInt64) :
    ops.foldl (countStep e) c = ops.foldl (countStepUnbounded e) c := by
  induction ops generalizing c with
  | nil => rfl
  | cons op ops ih =>
    rw [addCount_cons] at hb
    obtain ⟨heq, h₁, h₂⟩ := countStep_of_le h₀ (by omega : c + addCount e [op] ≤ maxInt64)
    rw [List.foldl_cons, List.foldl_cons, ← heq]
    exact ih h₁ (by omega)

/-- Every count stored under `e` is positive. -/
def KeyPositive (t : Endpoints) (e : String) : Prop := ∀ c, t e = some c → 0 < c

theorem KeyPositive.listeners_nonneg {t : Endpoints} {e : String} (ht : KeyPositive t e) :
    0 ≤ listeners t e := by
  unfold listeners
  cases hte : t e with
  | none => simp
  | some c => simpa using (ht c hte).le

theorem KeyPositive.ne_none_iff {t : Endpoints} {e : String} (ht : KeyPositive t e) :
    t e ≠ none ↔ 0 < listeners t e := by
  unfold listeners
  cases he : t e with
  | none => simp
  | some c => simp [ht c he]

theorem KeyPositive.localStep {t : Endpoints} {e : String} {op : Op} (ht : KeyPositive t e)
    (hb : listeners t e + addCount e [op] ≤ maxInt64) : KeyPositive (localStep t op) e := by
  intro c hc
  cases op with
  | addLocalEndpoint e' =>
    by_cases he : e = e'
    · subst he
      have hl := ht.listeners_nonneg
      rw [addCount_addLocalEndpoint_self, Nat.cast_one] at hb
      simp only [State.localStep, Function.update_same, Option.some.injEq] at hc
      rw [← hc, wrapInt_of_le (by omega) hb]
      omega
    · simp only [State.localStep, Function.update_noteq he] at hc; exact ht c hc
  | removeLocalEndpoint e' =>
    simp only [State.localStep] at hc
    cases hte : t e' with
    | none => simp only [hte] at hc; exact ht c hc
    | some c' =>
      simp only [hte] at hc
      by_cases he : e = e'
      · subst he
        have := ht c' hte
        split_ifs at hc with h0 h1
        · omega
        · simp at hc; omega
        · simp at hc
      · split_ifs at hc <;> exact ht c (by simpa [Function.update_noteq he] using hc)
  | _ => exact ht c hc

/-- Along a fold whose adds of `e` stay within `maxInt64`, `e` keeps only positive counts. -/
theorem foldl_localStep_keyPositive {e : String} {ops : List Op} {t : Endpoints}
    (ht : KeyPositive t e) (hb : listeners t e + addCount e ops ≤ maxInt64) :
    KeyPositive (ops.foldl localStep t) e := by
  induction ops generalizing t with
  | nil => exact ht
  | cons op ops ih =>
    rw [addCount_cons] at hb
    have hb₁ : listeners t e + addCount e [op] ≤ maxInt64 := by omega
    obtain ⟨-, -, h₂⟩ := countStep_of_le ht.listeners_nonneg hb₁
    exact ih (ht.localStep hb₁) (by rw [listeners_localStep]; omega)

/-! ## Subscriber calls -/

/-- The calls subscriber `k` has received, in order. -/
def received (s : State) (k : Nat) : List (String × Int) :=
  (s.callbacks.filter fun cb => cb.subscriber = k).map fun cb => (cb.endpointID, cb.listeners)

@[simp] theorem received_setEndpoints (id : String) (n : Node) (t : Endpoints) (k : Nat) :
    (s.setEndpoints id n t).received k = s.received k := rfl

theorem filter_range_subscriber (n k : Nat) (e : String) (c : Int) :
    ((List.range n).map fun j => (⟨j, e, c⟩ : Callback)).filter (fun cb => cb.subscriber = k) =
      if k < n then [⟨k, e, c⟩] else [] := by
  induction n with
  | zero => simp
  | succ n ih =>
    rw [List.range_succ, List.map_append, List.filter_append, ih]
    by_cases hk : k < n
    · simp [hk, show n ≠ k by omega, show k < n + 1 by omega]
    · by_cases hkn : k = n
      · subst hkn; simp
      · simp [hk, Ne.symm hkn, show ¬k < n + 1 by omega]

theorem received_notify (e : String) (c : Int) (k : Nat) :
    (s.notify e c).received k =
      s.received k ++ if k < s.localEndpointSubscribers then [(e, c)] else [] := by
  simp only [received, notify_callbacks, List.filter_append, filter_range_subscriber,
    List.map_append]
  split_ifs <;> rfl

/-- The calls subscriber `k` gets from `op` taking `s` to `s'`, if it registered before `op`: one
carrying the new count for an add, and for a remove that found a nonzero count. -/
def expectedCalls (k : Nat) (s s' : State) : Op → List (String × Int)
  | .addLocalEndpoint e =>
    if k < s.localEndpointSubscribers then [(e, s'.localCount e)] else []
  | .removeLocalEndpoint e =>
    if k < s.localEndpointSubscribers ∧ s.localCount e ≠ 0 then [(e, s'.localCount e)] else []
  | _ => []

theorem received_apply (h : WellFormed init s) (hs : s.apply op = .ok s') (k : Nat) :
    s'.received k = s.received k ++ expectedCalls k s s' op := by
  obtain ⟨n, hn, -⟩ := h.local_active
  have ht := localTable_of_lookup hn
  cases op
  case addLocalEndpoint e =>
    rw [apply, addLocalEndpoint_eq hn] at hs
    cases hs
    simp [received_notify, expectedCalls, localCount]
  case removeLocalEndpoint e =>
    rcases removeLocalEndpoint_cases hn e with ⟨h0, he⟩ | ⟨c, hc, h0, he⟩ <;>
      rw [apply, he] at hs <;> cases hs
    · simp [expectedCalls, localCount, ht, h0, received]
    · by_cases h1 : c > 1 <;> simp [received_notify, expectedCalls, localCount, ht, hc, h0, h1,
        listeners]
  case onLocalEndpointUpdate => cases hs; simp [expectedCalls, received]
  all_goals
    have hl := localSame_apply_of_isPeer hs trivial
    simp [expectedCalls, received, hl.callbacks]

/-- The count in the last of `calls` for endpoint `e`. -/
def lastFor (calls : List (String × Int)) (e : String) : Option Int :=
  (calls.filter fun call => call.1 = e).getLast?.map Prod.snd

theorem lastFor_append_single (calls : List (String × Int)) (e₀ e : String) (c₀ : Int) :
    lastFor (calls ++ [(e₀, c₀)]) e = if e₀ = e then some c₀ else lastFor calls e := by
  by_cases he : e₀ = e <;> simp [lastFor, he]

theorem localCount_apply (h : WellFormed init s) (hs : s.apply op = .ok s') (e : String) :
    s'.localCount e = countStep e (s.localCount e) op := by
  rw [localCount, localTable_apply h hs, listeners_localStep]; rfl

/-- Subscribers registered later have received nothing, and the last count a subscriber received
for an endpoint is its current count. -/
structure SubscribersAgree (s : State) : Prop where
  unregistered : ∀ k, s.localEndpointSubscribers ≤ k → s.received k = []
  last : ∀ k e c, lastFor (s.received k) e = some c → c = s.localCount e

theorem subscribers_apply_le (h : WellFormed init s) (hs : s.apply op = .ok s') :
    s.localEndpointSubscribers ≤ s'.localEndpointSubscribers := by
  obtain ⟨n, hn, -⟩ := h.local_active
  cases op
  case addLocalEndpoint e =>
    rw [apply, addLocalEndpoint_eq hn] at hs; cases hs; simp
  case removeLocalEndpoint e =>
    rcases removeLocalEndpoint_cases hn e with ⟨-, he⟩ | ⟨c, -, -, he⟩ <;>
      rw [apply, he] at hs <;> cases hs <;> simp
  case onLocalEndpointUpdate => cases hs; simp
  all_goals exact (localSame_apply_of_isPeer hs trivial).subscribers.ge

theorem SubscribersAgree.apply (h : WellFormed init s) (ha : SubscribersAgree s)
    (hs : s.apply op = .ok s') : SubscribersAgree s' where
  unregistered k hk := by
    have hk' := (subscribers_apply_le h hs).trans hk
    rw [received_apply h hs, ha.unregistered k hk']
    cases op <;> simp [expectedCalls, Nat.not_lt.mpr hk']
  last k e c hc := by
    rw [received_apply h hs] at hc
    rw [localCount_apply h hs]
    by_cases hk : k < s.localEndpointSubscribers
    · cases op with
      | addLocalEndpoint e₀ =>
        simp only [expectedCalls, hk, if_true, lastFor_append_single] at hc
        split_ifs at hc with he
        · subst he; cases hc; rw [localCount_apply h hs]
        · simp [countStep, he, ha.last k e c hc]
      | removeLocalEndpoint e₀ =>
        by_cases h0 : s.localCount e₀ = 0
        · simp only [expectedCalls, h0, ne_eq, not_true, and_false, if_false, List.append_nil]
            at hc
          by_cases he : e₀ = e
          · subst he; simp [countStep, ← ha.last k e₀ c hc, h0] at *; omega
          · simp [countStep, he, ha.last k e c hc]
        · simp only [expectedCalls, hk, h0, ne_eq, not_false_eq_true, and_self, if_true,
            lastFor_append_single] at hc
          split_ifs at hc with he
          · subst he; cases hc; rw [localCount_apply h hs]
          · simp [countStep, he, ha.last k e c hc]
      | _ => simpa [expectedCalls, countStep] using ha.last k e c (by simpa [expectedCalls] using hc)
    · rw [ha.unregistered k (Nat.not_lt.mp hk)] at hc
      cases op <;> simp [expectedCalls, hk, lastFor] at hc

/-- Below `maxInt64`, an add followed by a remove of `e` restores a table whose counts under `e`
are positive. -/
theorem localStep_add_remove {t : Endpoints} {e : String} (ht : KeyPositive t e)
    (hb : listeners t e < maxInt64) :
    localStep (localStep t (.addLocalEndpoint e)) (.removeLocalEndpoint e) = t := by
  have hl := ht.listeners_nonneg
  funext e'
  simp only [localStep, Function.update_same, wrapInt_of_le (by omega : -2 ^ 63 ≤ listeners t e + 1)
    (by omega : listeners t e + 1 ≤ maxInt64), if_neg (show listeners t e + 1 ≠ 0 by omega)]
  by_cases he : e' = e
  · subst he
    cases hte : t e' with
    | none => simp [listeners, hte]
    | some c => simp [listeners, hte, ht c hte]
  · simp [Function.update_noteq he]

theorem localTable_run (h : WellFormed init s) {ops : List Op} (hs : s.run ops = .ok s') :
    s'.localTable = ops.foldl localStep s.localTable := by
  induction ops generalizing s with
  | nil => cases hs; rfl
  | cons op ops ih =>
    obtain ⟨s₁, h₁, hs₁⟩ := run_cons_eq_ok hs
    rw [ih (h.apply_ok h₁) hs₁, localTable_apply h h₁, List.foldl_cons]

theorem add_remove_restores (h : WellFormed init s) {e : String} (hp : KeyPositive s.localTable e)
    (hb : s.localCount e < maxInt64) :
    ∃ s', s.run [.addLocalEndpoint e, .removeLocalEndpoint e] = .ok s' ∧
      s'.localTable = s.localTable := by
  obtain ⟨s', hs, -⟩ := h.run [.addLocalEndpoint e, .removeLocalEndpoint e]
  exact ⟨s', hs, by rw [localTable_run h hs, List.foldl_cons, List.foldl_cons, List.foldl_nil,
    localStep_add_remove hp hb]⟩

theorem localCount_run_fold (h : WellFormed init s) {ops : List Op} (hs : s.run ops = .ok s')
    (e : String) : s'.localCount e = ops.foldl (countStep e) (s.localCount e) := by
  induction ops generalizing s with
  | nil => cases hs; rfl
  | cons op ops ih =>
    obtain ⟨s₁, h₁, hs₁⟩ := run_cons_eq_ok hs
    rw [ih (h.apply_ok h₁) hs₁, localCount_apply h h₁, List.foldl_cons]

theorem newState_localTable (init : Node) : (newState init).localTable = init.endpoints := by
  simp only [localTable, newState, addMetricsNode_nodes, addMetricsNode_localID,
    AList.lookup_insert]

end State

/-- The local listener-count law, with Go's 64-bit `int`: from a local node whose counts are
positive, along any run the count of `e` is the fold of `c ↦ wrapInt (c + 1)` and
`c ↦ max (c - 1) 0` over the adds and removes of `e`. While the initial count and the run's adds of
`e` stay within `maxInt64`, no add wraps: the count is the fold with `c ↦ c + 1`, the key is stored
exactly when the count is positive, and below `maxInt64` an add then a remove of `e` restores the
table. -/
theorem local_listener_count_law (init : Node)
    (hpos : ∀ e c, init.endpoints e = some c → 0 < c) (ops : List Op) :
    ∃ s, (State.newState init).run ops = .ok s ∧ ∀ e,
      s.localCount e = ops.foldl (State.countStep e) (listeners init.endpoints e) ∧
      (listeners init.endpoints e + State.addCount e ops ≤ maxInt64 →
        s.localCount e = ops.foldl (State.countStepUnbounded e) (listeners init.endpoints e) ∧
        (s.localTable e ≠ none ↔ 0 < s.localCount e) ∧
        (s.localCount e < maxInt64 →
          ∃ s', s.run [.addLocalEndpoint e, .removeLocalEndpoint e] = .ok s' ∧
            s'.localTable = s.localTable)) := by
  have h₀ := State.newState_wellFormed init
  obtain ⟨s, hs, hw⟩ := h₀.run ops
  have ht := State.localTable_run h₀ hs
  rw [State.newState_localTable] at ht
  have hcount : ∀ e, s.localCount e = ops.foldl (State.countStep e) (listeners init.endpoints e) :=
    fun e => by rw [State.localCount_run_fold h₀ hs, State.localCount, State.newState_localTable]
  refine ⟨s, hs, fun e => ⟨hcount e, fun hb => ?_⟩⟩
  have hp₀ : State.KeyPositive init.endpoints e := hpos e
  have hp : State.KeyPositive s.localTable e := ht ▸ State.foldl_localStep_keyPositive hp₀ hb
  exact ⟨(hcount e).trans (State.foldl_countStep_of_le hp₀.listeners_nonneg hb),
    hp.ne_none_iff, State.add_remove_restores hw hp⟩

/-- The law for the node with an empty table and one add. -/
theorem local_listener_count_law_empty :
    (∀ e c, (⟨"a", nodeStatusActive, "", "", fun _ => none⟩ : Node).endpoints e = some c → 0 < c) ∧
    ∃ s, (State.newState ⟨"a", nodeStatusActive, "", "", fun _ => none⟩).run
        [.addLocalEndpoint "e"] = .ok s ∧ ∀ e,
      s.localCount e =
        [Op.addLocalEndpoint "e"].foldl (State.countStep e) (listeners (fun _ => none) e) ∧
      (listeners (fun _ => none) e + State.addCount e [.addLocalEndpoint "e"] ≤ maxInt64 →
        s.localCount e =
          [Op.addLocalEndpoint "e"].foldl (State.countStepUnbounded e) (listeners (fun _ => none) e) ∧
        (s.localTable e ≠ none ↔ 0 < s.localCount e) ∧
        (s.localCount e < maxInt64 →
          ∃ s', s.run [.addLocalEndpoint e, .removeLocalEndpoint e] = .ok s' ∧
            s'.localTable = s.localTable)) :=
  ⟨(fun _ _ h => Option.noConfusion h),
    local_listener_count_law _ (fun _ _ h => Option.noConfusion h) _⟩

/-- From a count of `maxInt64`, Go's `int` increment wraps: an add stores `-2^63` under a present
key, where the unbounded fold gives `2^63`, and a following remove deletes the key instead of
restoring `maxInt64`. -/
theorem addLocalEndpoint_wraps_at_maxInt64 :
    [Op.addLocalEndpoint "e"].foldl (State.countStepUnbounded "e") maxInt64 = 2 ^ 63 ∧
    ((State.newState ⟨"a", nodeStatusActive, "", "",
        fun e => if e = "e" then some maxInt64 else none⟩).run
      [.addLocalEndpoint "e"]).map (·.localTable "e") = .ok (some (-2 ^ 63)) ∧
    ((State.newState ⟨"a", nodeStatusActive, "", "",
        fun e => if e = "e" then some maxInt64 else none⟩).run
      [.addLocalEndpoint "e", .removeLocalEndpoint "e"]).map (·.localTable "e") = .ok none :=
  ⟨rfl, rfl, rfl⟩

end Piko.Cluster

import Piko.Rpc.Cancel

/-! # `Monitor`

`Monitor(ctx, interval, timeout)` (stream.go) loops: `heartbeat` calls
`RPC(ctx', TypeHeartbeat, nil)`, `ctx'` being `context.WithTimeout(ctx, timeout)`, and `Monitor`
returns its error wrapped; otherwise it waits in a `select` on `ctx.Done()`, `shutdownCh` and the
ticker. It reaches the stream only through `RPC` and `shutdownCh`, so it is modelled as a layer
over the stream: `Monitored` pairs a stream with the monitor's program counter and `ctx`, and a step
is a step of the stream (the heartbeat's own steps inside `RPC` among them), one of the monitor's,
or `ctx'` becoming done, with the parent `ctx` (which `context` propagates at once) or by the
timeout.

* `TypeHeartbeat` (types.go) is not among the sources: it is the parameter `t`.
* No other goroutine holds a heartbeat's `ctx'`, so no stream step cancels it.
* The interval and the timeout's length are not modelled: a tick and a timeout can come at any
  moment.

Over every run, from any reachable stream:

* `Monitor` returns a non-nil error, and only for a reason: a heartbeat failed with
  `ErrStreamClosed` after shutdown, with "not supported", by its timeout or with the error of
  `ctx`; `ctx` is done; or the stream shut down, and then it returns `ErrStreamClosed`
  (`monitor_result`);
* every call it makes is an `RPC(_, TypeHeartbeat, nil)`, and each but the one it is blocked in
  has returned (`monitor_one_heartbeat_in_flight`).
-/

namespace Piko.Rpc
set_option autoImplicit false

namespace Stream

variable {s s' : Stream}

theorem step_rpc {t : RPCType} {req : Payload} (h : s.step (.rpc t req) = some s') :
    s' = { s with calls := s.calls ++ [⟨t, req, none, 0, none, .inc⟩] } := by
  unfold step at h
  split at h
  · cases h
  · exact (Option.some.inj h).symm

/-- A closed `shutdownCh` stays closed. -/
theorem step_shutdownCh {a : Action} (h : s.step a = some s') (hch : s.shutdownCh = true) :
    s'.shutdownCh = true := by
  rcases (step_cases h).2 with ⟨t, req, rfl⟩ | rfl | ⟨i, e, c, -, -, rfl⟩ | ⟨f, -, h⟩ |
    ⟨i, k, h⟩ | ⟨k, h⟩ | ⟨k, h⟩ | ⟨i, k, h⟩ | ⟨i, c, k, -, h⟩ | ⟨g, -, rfl⟩
  · exact hch
  · exact hch
  · exact hch
  · obtain ⟨-, ⟨m, -, -, rfl⟩ | ⟨m, -, -, rfl⟩ | rfl⟩ := stepRead_cases h <;> exact hch
  · obtain ⟨c, -, h⟩ := stepCall_cases h
    rcases h with ⟨-, rfl⟩ | ⟨-, rfl⟩ | ⟨-, -, rfl⟩ | ⟨-, -, -, rfl⟩ | ⟨-, -, rfl⟩ |
      ⟨-, -, -, rfl⟩ | ⟨r, -, rfl⟩ <;> exact hch
  · rcases stepReader_cases h with ⟨m, i, -, -, rfl⟩ | ⟨m, -, -, rfl⟩ | ⟨i, m, c, -, -, -, rfl⟩ |
      ⟨-, rfl⟩ | ⟨c, -, h⟩
    all_goals first | exact hch | exact (closeStep_frame h).2.2.2.2.2.2.2.2.1 hch
  · rcases stepWriter_cases h with ⟨o, rest, -, -, rfl⟩ | ⟨-, -, rfl⟩ | ⟨o, -, rfl⟩ | ⟨o, -, rfl⟩ |
      ⟨c, -, h⟩
    all_goals first | exact hch | exact (closeStep_frame h).2.2.2.2.2.2.2.2.1 hch
  · obtain ⟨t, -, h⟩ := stepTask_cases h
    rcases h with ⟨-, -, rfl⟩ | ⟨-, f, resp, -, -, rfl⟩ | ⟨-, f, -, -, rfl⟩ | ⟨m, -, -, rfl⟩ |
      ⟨m, -, -, rfl⟩
    all_goals exact hch
  · exact (closeStep_frame h).2.2.2.2.2.2.2.2.1 hch
  · simpa [panicked_eq] using hch

end Stream

/-- What `Monitor` returns. -/
inductive MonitorError
  /-- `fmt.Errorf("heartbeat: %w", err)`, where `heartbeat`'s `err` wraps the error `e` of its
  `RPC` as `fmt.Errorf("rpc: %w", e)`. -/
  | heartbeat (e : Error)
  /-- `ctx.Err()`. -/
  | ctx (e : CtxError)
  /-- `s.shutdownErr`. -/
  | shutdown (e : Option Error)
  deriving DecidableEq, Repr

/-- Where the goroutine in `Monitor` is. -/
inductive MonitorPc
  /-- At `s.heartbeat(ctx, timeout)`, about to call `RPC`. -/
  | heartbeat
  /-- In `heartbeat`, in `RPC` call `i`. -/
  | await (i : Nat)
  /-- At the `select` on `ctx.Done()`, `s.shutdownCh` and `ticker.C`. -/
  | select
  | returned (e : MonitorError)
  deriving DecidableEq, Repr

/-- A stream with a goroutine in `Monitor`. -/
structure Monitored where
  stream : Stream
  /-- `ctx.Err()` for `Monitor`'s `ctx`: `none` until it is done. -/
  ctx : Option CtxError
  pc : MonitorPc
  /-- Ghost: the `RPC` calls `heartbeat` made, in order. -/
  beats : List Nat

/-- Whether `a` cancels the `ctx` of one of the calls `l`. -/
def Stream.Action.cancelsOneOf (l : List Nat) : Stream.Action → Bool
  | .cancel i _ => decide (i ∈ l)
  | _ => false

theorem Stream.Action.cancelsOneOf_eq_false {a : Stream.Action} {l : List Nat}
    (h : a.cancelsOneOf l = false) {j : Nat} (hj : j ∈ l) : ∀ e, a ≠ .cancel j e := by
  rintro e rfl
  simp [Stream.Action.cancelsOneOf, hj] at h

inductive MonitorAction
  /-- The stream steps: one of its goroutines, the heartbeat inside `RPC` included. -/
  | stream (a : Stream.Action)
  /-- `Monitor`'s `ctx` is done with `e`. -/
  | cancel (e : CtxError)
  /-- The `timeout` of the heartbeat in flight expires. -/
  | timeout
  /-- `Monitor` takes its next step, case `k` at its `select`. -/
  | step (k : Case)

namespace Monitored

/-- `context` cancels a derived context with its parent: once the parent is done with `e`, so is
call `i`'s `ctx`, unless it already is. -/
def propagateCancel (s : Stream) (i : Nat) : Option CtxError → Stream
  | some e => (s.step (.cancel i e)).getD s
  | none => s

section Step

variable (t : RPCType)

/-- One step of a monitored stream whose heartbeats have type `t`. -/
def step (m : Monitored) : MonitorAction → Option Monitored
  | .stream a =>
    if a.cancelsOneOf m.beats then none
    else (m.stream.step a).map fun s => { m with stream := s }
  | .cancel e =>
    if m.stream.crashed || m.ctx.isSome then none
    else some { m with
      ctx := some e
      stream := match m.pc with
        | .await i => propagateCancel m.stream i (some e)
        | _ => m.stream }
  | .timeout =>
    match m.pc with
    | .await i => (m.stream.step (.cancel i .deadlineExceeded)).map fun s => { m with stream := s }
    | _ => none
  | .step k =>
    if m.stream.crashed then none else
    match m.pc, k with
    | .heartbeat, _ =>
      (m.stream.step (.rpc t [])).map fun s =>
        { m with
          stream := propagateCancel s m.stream.calls.length m.ctx
          pc := .await m.stream.calls.length
          beats := m.beats ++ [m.stream.calls.length] }
    | .await i, _ => do
      let c ← m.stream.calls[i]?
      match c.pc with
      | .returned r =>
        some { m with pc := match r.err with
          | some e => .returned (.heartbeat e)
          | none => .select }
      | _ => none
    | .select, .done => m.ctx.map fun e => { m with pc := .returned (.ctx e) }
    | .select, .shutdown =>
      if m.stream.shutdownCh then some { m with pc := .returned (.shutdown m.stream.shutdownErr) }
      else none
    | .select, .proceed => some { m with pc := .heartbeat }
    | _, _ => none

def run (m : Monitored) : List MonitorAction → Option Monitored
  | [] => some m
  | a :: as => (m.step t a).bind fun m' => m'.run as

/-- The states once a goroutine has called `Monitor` on a reachable stream, its `ctx` done or not. -/
inductive Reachable (hd : Handler) : Monitored → Prop
  | init {s : Stream} (ctx : Option CtxError) :
    Stream.Reachable hd s → Reachable hd ⟨s, ctx, .heartbeat, []⟩
  | step {m m' : Monitored} (a : MonitorAction) : Reachable hd m → m.step t a = some m' →
    Reachable hd m'

theorem Reachable.run {hd : Handler} {m m' : Monitored} (hm : Reachable t hd m) :
    ∀ {as : List MonitorAction}, m.run t as = some m' → Reachable t hd m'
  | [], e => by cases e; exact hm
  | a :: as, e => by
    simp only [Monitored.run, Option.bind_eq_some] at e
    obtain ⟨m₁, h₁, e⟩ := e
    exact (hm.step a h₁).run e

end Step

/-! ## The stream underneath -/

section Propagate

variable {s : Stream} {i : Nat} {ctx : Option CtxError}

theorem propagateCancel_cases :
    propagateCancel s i ctx = s ∨ ∃ e, s.step (.cancel i e) = some (propagateCancel s i ctx) ∧
      ctx = some e := by
  rcases ctx with _ | e
  · exact .inl rfl
  · cases h : s.step (.cancel i e)
    · exact .inl (by simp [propagateCancel, h])
    · exact .inr ⟨e, by simp [propagateCancel, h], rfl⟩

theorem propagateCancel_reachable {hd : Handler} (h : Stream.Reachable hd s) :
    Stream.Reachable hd (propagateCancel s i ctx) := by
  rcases @propagateCancel_cases s i ctx with h' | ⟨e, h', -⟩
  · rw [h']; exact h
  · exact h.step _ h'

theorem propagateCancel_shutdownCh : (propagateCancel s i ctx).shutdownCh = s.shutdownCh := by
  rcases @propagateCancel_cases s i ctx with h | ⟨e, h, -⟩
  · rw [h]
  · obtain ⟨c, -, -, h⟩ := Stream.step_cancel h
    rw [h, Stream.setCall_shutdownCh]

theorem propagateCancel_crashed : (propagateCancel s i ctx).crashed = s.crashed := by
  rcases @propagateCancel_cases s i ctx with h | ⟨e, h, -⟩
  · rw [h]
  · obtain ⟨c, -, -, h⟩ := Stream.step_cancel h
    rw [h, Stream.setCall_crashed]

theorem propagateCancel_call {j : Nat} {c : Call} (hc : s.calls[j]? = some c) :
    ∃ c', (propagateCancel s i ctx).calls[j]? = some c' ∧ c'.rpcType = c.rpcType ∧
      c'.req = c.req ∧ (c'.ctx = c.ctx ∨ (j = i ∧ c'.ctx = ctx)) ∧
      ∀ r, c.pc = .returned r → c'.pc = .returned r := by
  rcases @propagateCancel_cases s i ctx with h | ⟨e, h, rfl⟩
  · exact ⟨c, by rw [h]; exact hc, rfl, rfl, .inl rfl, fun _ => id⟩
  · by_cases hij : j = i
    · subst hij
      obtain ⟨c₀, hc₀, -, h⟩ := Stream.step_cancel h
      rw [hc, Option.some.injEq] at hc₀
      subst hc₀
      exact ⟨{ c with ctx := some e }, by rw [h]; simp [(List.getElem?_eq_some_iff.1 hc).1], rfl,
        rfl, .inr ⟨rfl, rfl⟩, fun _ => id⟩
    · obtain ⟨c', hc', h₁, h₂, h₃, h₄⟩ :=
        Stream.step_callKept h hc fun e' he => hij (by cases he; rfl)
      exact ⟨c', hc', h₁, h₂, .inl h₃, h₄⟩

theorem propagateCancel_ctx_done (hcr : s.crashed = false) {c : Call} (hc : s.calls[i]? = some c)
    (e : CtxError) :
    ∃ c' e', (propagateCancel s i (some e)).calls[i]? = some c' ∧ c'.ctx = some e' := by
  cases hce : c.ctx with
  | some e' =>
    obtain ⟨c', hc', -, -, h, -⟩ := @propagateCancel_call s i (some e) _ _ hc
    rcases h with h | ⟨-, h⟩
    · exact ⟨c', e', hc', h.trans hce⟩
    · exact ⟨c', e, hc', h⟩
  | none =>
    refine ⟨{ c with ctx := some e }, e, ?_, rfl⟩
    simp [propagateCancel, Stream.step, hcr, hc, hce, (List.getElem?_eq_some_iff.1 hc).1]

end Propagate

section Step

variable {t : RPCType} {hd : Handler} {m m' : Monitored}

/-- The transitions of a monitored stream. -/
theorem step_cases {a : MonitorAction} (h : m.step t a = some m') :
    (∃ a' s, a'.cancelsOneOf m.beats = false ∧ m.stream.step a' = some s ∧
      m' = { m with stream := s }) ∨
    (∃ e i, m.ctx = none ∧ m.pc = .await i ∧
      m' = { m with ctx := some e, stream := propagateCancel m.stream i (some e) }) ∨
    (∃ e, m.ctx = none ∧ (∀ i, m.pc ≠ .await i) ∧ m' = { m with ctx := some e }) ∨
    (∃ i s, m.pc = .await i ∧ m.stream.step (.cancel i .deadlineExceeded) = some s ∧
      m' = { m with stream := s }) ∨
    (m.pc = .heartbeat ∧ ∃ s, m.stream.step (.rpc t []) = some s ∧ m' = { m with
      stream := propagateCancel s m.stream.calls.length m.ctx
      pc := .await m.stream.calls.length
      beats := m.beats ++ [m.stream.calls.length] }) ∨
    (∃ i c r, m.pc = .await i ∧ m.stream.calls[i]? = some c ∧ c.pc = .returned r ∧
      m' = { m with pc := match r.err with
        | some e => .returned (.heartbeat e)
        | none => .select }) ∨
    (m.pc = .select ∧ ∃ e, m.ctx = some e ∧ m' = { m with pc := .returned (.ctx e) }) ∨
    (m.pc = .select ∧ m.stream.shutdownCh = true ∧
      m' = { m with pc := .returned (.shutdown m.stream.shutdownErr) }) ∨
    (m.pc = .select ∧ m' = { m with pc := .heartbeat }) := by
  cases a with
  | stream a =>
    simp only [Monitored.step, Option.ite_none_left_eq_some, Option.map_eq_some'] at h
    obtain ⟨ha, s, hs, rfl⟩ := h
    exact .inl ⟨a, s, by simpa using ha, hs, rfl⟩
  | cancel e =>
    simp only [Monitored.step, Option.ite_none_left_eq_some, Option.some.injEq] at h
    obtain ⟨hn, rfl⟩ := h
    have hctx : m.ctx = none := (by simpa using hn : _ ∧ _).2
    cases hpc : m.pc with
    | await i => exact .inr (.inl ⟨e, i, hctx, rfl, by simp only [hpc]⟩)
    | _ => exact .inr (.inr (.inl ⟨e, hctx, by simp, by simp only [hpc]⟩))
  | timeout =>
    simp only [Monitored.step] at h
    split at h
    · obtain ⟨s, hs, rfl⟩ := Option.map_eq_some'.1 h
      exact .inr (.inr (.inr (.inl ⟨_, s, by assumption, hs, rfl⟩)))
    · cases h
  | step k =>
    simp only [Monitored.step, Option.ite_none_left_eq_some] at h
    obtain ⟨-, h⟩ := h
    split at h
    · obtain ⟨s, hs, rfl⟩ := Option.map_eq_some'.1 h
      exact .inr (.inr (.inr (.inr (.inl ⟨by assumption, s, hs, rfl⟩))))
    · simp only [Option.bind_eq_bind, Option.bind_eq_some] at h
      obtain ⟨c, hc, h⟩ := h
      split at h
      · cases h
        exact .inr (.inr (.inr (.inr (.inr (.inl ⟨_, c, _, by assumption, hc, by assumption,
          rfl⟩)))))
      · cases h
    · obtain ⟨e, he, rfl⟩ := Option.map_eq_some'.1 h
      exact .inr (.inr (.inr (.inr (.inr (.inr (.inl ⟨by assumption, e, he, rfl⟩))))))
    · split at h
      · cases h
        exact .inr (.inr (.inr (.inr (.inr (.inr (.inr (.inl ⟨by assumption, by assumption,
          rfl⟩)))))))
      · cases h
    · cases h
      exact .inr (.inr (.inr (.inr (.inr (.inr (.inr (.inr ⟨by assumption, rfl⟩)))))))
    · cases h

/-- Every state of the stream under a monitor is a reachable state of the stream. -/
theorem Reachable.stream (h : Reachable t hd m) : Stream.Reachable hd m.stream := by
  induction h with
  | init _ hs => exact hs
  | step a _ hs ih =>
    rcases step_cases hs with ⟨a', s, -, h, rfl⟩ | ⟨e, i, -, -, rfl⟩ | ⟨e, -, -, rfl⟩ |
      ⟨i, s, -, h, rfl⟩ |
      ⟨-, s, h, rfl⟩ | ⟨i, c, r, -, -, -, rfl⟩ | ⟨-, e, -, rfl⟩ | ⟨-, -, rfl⟩ | ⟨-, rfl⟩
    · exact ih.step a' h
    · dsimp only; exact propagateCancel_reachable ih
    · exact ih
    · exact ih.step _ h
    · dsimp only; exact propagateCancel_reachable (ih.step _ h)
    all_goals exact ih

/-! ## The monitor invariant -/

/-- The errors `Monitor` may have returned in `m`: a heartbeat's `ErrStreamClosed` once the stream
shut down, its "not supported", its deadline or the error of `ctx`; the error of `ctx`; or, the
stream shut down, `ErrStreamClosed`. -/
def Returns (m : Monitored) : MonitorError → Prop
  | .heartbeat .streamClosed => m.stream.shutdownCh = true
  | .heartbeat .notSupported => True
  | .heartbeat (.ctx e) => e = .deadlineExceeded ∨ m.ctx = some e
  | .heartbeat .closeConn => False
  | .ctx e => m.ctx = some e
  | .shutdown e => e = some .streamClosed ∧ m.stream.shutdownCh = true

theorem Returns.mono {r : MonitorError} (h : m.Returns r)
    (hch : m.stream.shutdownCh = true → m'.stream.shutdownCh = true)
    (hctx : ∀ e, m.ctx = some e → m'.ctx = some e) : m'.Returns r := by
  rcases r with (_ | _ | e | _) | e | e <;> simp only [Returns] at h ⊢
  · exact hch h
  · exact h.imp_right (hctx e)
  · exact hctx e h
  · exact ⟨h.1, hch h.2⟩

/-- The monitor invariant. -/
structure Inv (t : RPCType) (m : Monitored) : Prop where
  /-- Each call `heartbeat` made is an `RPC(ctx', t, nil)` whose `ctx'` is done only by the timeout
  or with `ctx`, and it has returned unless `Monitor` is blocked in it. -/
  beat : ∀ j ∈ m.beats, ∃ c, m.stream.calls[j]? = some c ∧ c.rpcType = t ∧ c.req = [] ∧
    (∀ e, c.ctx = some e → e = .deadlineExceeded ∨ m.ctx = some e) ∧
    (m.pc = .await j ∨ ∃ r, c.pc = .returned r)
  /-- `Monitor` is blocked in a call it made. -/
  await : ∀ i, m.pc = .await i → i ∈ m.beats
  returns : ∀ r, m.pc = .returned r → m.Returns r

/-- A step that leaves `Monitor` where it is and keeps its calls, but for a `ctx` done by the
timeout or with `ctx`. -/
theorem Inv.congr (hi : m.Inv t) (hpc : m'.pc = m.pc) (hb : m'.beats = m.beats)
    (hctx : ∀ e, m.ctx = some e → m'.ctx = some e)
    (hch : m.stream.shutdownCh = true → m'.stream.shutdownCh = true)
    (hcall : ∀ j ∈ m.beats, ∀ c, m.stream.calls[j]? = some c → ∃ c', m'.stream.calls[j]? = some c' ∧
      c'.rpcType = c.rpcType ∧ c'.req = c.req ∧
      (∀ e, c'.ctx = some e → c.ctx = some e ∨ e = .deadlineExceeded ∨ m'.ctx = some e) ∧
      ∀ r, c.pc = .returned r → c'.pc = .returned r) : m'.Inv t where
  beat j hj := by
    rw [hb] at hj
    obtain ⟨c, hc, ht, hq, he, hp⟩ := hi.beat j hj
    obtain ⟨c', hc', ht', hq', he', hp'⟩ := hcall j hj c hc
    refine ⟨c', hc', ht'.trans ht, hq'.trans hq, fun e h => ?_, ?_⟩
    · rcases he' e h with h | h | h
      · exact (he e h).imp_right (hctx e)
      · exact .inl h
      · exact .inr h
    · rw [hpc]; exact hp.imp_right fun ⟨r, h⟩ => ⟨r, hp' r h⟩
  await i h := hb ▸ hi.await i (hpc ▸ h)
  returns r h := (hi.returns r (hpc ▸ h)).mono hch hctx

theorem Inv.setPc (hi : m.Inv t) {p : MonitorPc} (hp : ∀ j, p ≠ .await j)
    (hret : ∀ j ∈ m.beats, ∀ c, m.stream.calls[j]? = some c → m.pc = .await j →
      ∃ r, c.pc = .returned r)
    (hr : ∀ r, p = .returned r → m.Returns r) : ({ m with pc := p } : Monitored).Inv t where
  beat j hj := by
    obtain ⟨c, hc, ht, hq, he, hpc⟩ := hi.beat j hj
    exact ⟨c, hc, ht, hq, he, .inr (hpc.elim (hret j hj c hc) id)⟩
  await i h := absurd h (hp i)
  returns := hr

theorem Inv.cancelCall (hi : m.Inv t) {i : Nat} {e : CtxError} {ctx : Option CtxError}
    (hctx : ∀ e', m.ctx = some e' → ctx = some e') (he : e = .deadlineExceeded ∨ ctx = some e) :
    ({ m with ctx := ctx, stream := propagateCancel m.stream i (some e) } : Monitored).Inv t :=
  hi.congr rfl rfl hctx (by simp [propagateCancel_shutdownCh]) fun j _ c hc => by
    obtain ⟨c', hc', h₁, h₂, h₃, h₄⟩ := propagateCancel_call (i := i) hc
    refine ⟨c', hc', h₁, h₂, fun e' he' => ?_, h₄⟩
    rcases h₃ with h₃ | ⟨-, h₃⟩
    · exact .inl (h₃ ▸ he')
    · obtain rfl : e' = e := Option.some.inj (he'.symm.trans h₃)
      exact .inr he

theorem newMonitor_inv {s : Stream} (ctx : Option CtxError) :
    (⟨s, ctx, .heartbeat, []⟩ : Monitored).Inv t :=
  ⟨nofun, nofun, nofun⟩

/-- The `Monitor` step preserves the invariant, the stream being reachable. -/
theorem Inv.step (hi : m.Inv t) (hs : Stream.Reachable hd m.stream) {a : MonitorAction}
    (h : m.step t a = some m') : m'.Inv t := by
  rcases step_cases h with ⟨a', s, ha, hst, rfl⟩ | ⟨e, i, hctx, hpc, rfl⟩ | ⟨e, hctx, hpc, rfl⟩ |
    ⟨i, s, hpc, hst, rfl⟩ | ⟨hpc, s, hst, rfl⟩ | ⟨i, c, r, hpc, hc, hr, rfl⟩ | ⟨hpc, e, hctx, rfl⟩ |
    ⟨hpc, hch, rfl⟩ | ⟨hpc, rfl⟩
  · -- a step of the stream, which cancels no heartbeat
    refine hi.congr rfl rfl (fun _ => id) (Stream.step_shutdownCh hst) fun j hj c hc => ?_
    obtain ⟨c', hc', h₁, h₂, h₃, h₄⟩ := Stream.step_callKept hst hc (Stream.Action.cancelsOneOf_eq_false ha hj)
    exact ⟨c', hc', h₁, h₂, fun e he => .inl (h₃ ▸ he), h₄⟩
  · -- `ctx` is done, and so is the `ctx'` of the heartbeat in flight
    exact hi.cancelCall (by simp [hctx]) (.inr rfl)
  · exact hi.congr rfl rfl (by simp [hctx]) id fun j _ c hc =>
      ⟨c, hc, rfl, rfl, fun _ => .inl, fun _ => id⟩
  · -- the heartbeat's timeout
    obtain rfl : s = propagateCancel m.stream i (some .deadlineExceeded) := by
      simp [propagateCancel, hst]
    exact hi.cancelCall (fun _ => id) (.inl rfl)
  · -- `heartbeat` calls `RPC`
    have hs' := Stream.step_rpc hst
    have hold : ∀ {j c}, m.stream.calls[j]? = some c → s.calls[j]? = some c := fun hc => by
      rw [hs', List.getElem?_append_left (List.getElem?_eq_some_iff.1 hc).1, hc]
    have hnew : s.calls[m.stream.calls.length]? = some ⟨t, [], none, 0, none, .inc⟩ := by
      rw [hs', List.getElem?_concat_length]
    refine ⟨fun j hj => ?_, fun i h => ?_, nofun⟩
    · have hctx : ∀ {c c' : Call},
          (c'.ctx = c.ctx ∨ (j = m.stream.calls.length ∧ c'.ctx = m.ctx)) →
          (∀ e, c.ctx = some e → e = .deadlineExceeded ∨ m.ctx = some e) →
          ∀ e, c'.ctx = some e → e = .deadlineExceeded ∨ m.ctx = some e := fun h₃ he e h => by
        rcases h₃ with h₃ | ⟨-, h₃⟩
        · exact he e (h₃ ▸ h)
        · exact .inr (h₃ ▸ h)
      rcases List.mem_append.1 hj with hj | hj
      · -- an earlier heartbeat, which has returned
        obtain ⟨c, hc, ht, hq, he, hp⟩ := hi.beat j hj
        obtain ⟨r, hr⟩ := hp.resolve_left (by simp [hpc])
        obtain ⟨c', hc', h₁, h₂, h₃, h₄⟩ := propagateCancel_call (hold hc)
        exact ⟨c', hc', h₁.trans ht, h₂.trans hq, hctx h₃ he, .inr ⟨r, h₄ r hr⟩⟩
      · -- the new one, in which `Monitor` is now blocked
        obtain rfl := List.mem_singleton.1 hj
        obtain ⟨c', hc', h₁, h₂, h₃, -⟩ := propagateCancel_call hnew
        exact ⟨c', hc', h₁, h₂, hctx h₃ nofun, .inl rfl⟩
    · cases h
      exact List.mem_append_right _ (List.mem_singleton_self _)
  · -- the heartbeat returned
    have hret : ∀ j ∈ m.beats, ∀ c', m.stream.calls[j]? = some c' → m.pc = .await j →
        ∃ r, c'.pc = .returned r := by
      intro j _ c' hc' h
      rw [hpc, MonitorPc.await.injEq] at h
      subst h
      rw [hc, Option.some.injEq] at hc'
      exact ⟨r, hc' ▸ hr⟩
    rcases r with ⟨p, _ | e⟩
    · exact hi.setPc (by simp) hret (by simp)
    · refine hi.setPc (by simp) hret fun r' h => ?_
      cases h
      have hl := ((Stream.CallsInv.reachable hs).calls i c hc).2 _ (.inr hr)
      obtain ⟨c₀, hc₀, -, -, he, -⟩ := hi.beat i (hi.await i hpc)
      rw [hc, Option.some.injEq] at hc₀
      subst hc₀
      rcases p with _ | q <;> rcases e with _ | _ | ce | _ <;>
        simp only [Stream.Lawful, Returns] at hl ⊢
      all_goals first | exact hl | exact he ce hl
  · exact hi.setPc (by simp) (fun j _ c _ h => by simp [hpc] at h)
      (fun r h => by cases h; exact hctx)
  · refine hi.setPc (by simp) (fun j _ c _ h => by simp [hpc] at h) fun r h => ?_
    cases h
    exact ⟨((Stream.ShutdownInv.reachable hs).of_shutdownCh hch).2.1, hch⟩
  · exact hi.setPc (by simp) (fun j _ c _ h => by simp [hpc] at h) (by simp)

theorem Inv.reachable (h : Reachable t hd m) : m.Inv t := by
  induction h with
  | init ctx _ => exact newMonitor_inv ctx
  | step a hr hs ih => exact ih.step hr.stream hs

/-- Whatever the stream's goroutines, the peer and the contexts do, `Monitor` returns a non-nil
error, and only for a reason: a heartbeat failed with `ErrStreamClosed` once the stream shut down,
with "not supported", by its timeout or with the error of `ctx`; `ctx` is done; or the stream shut
down, and `Monitor` returns `ErrStreamClosed`. -/
theorem monitor_result (h : Reachable t hd m) {r : MonitorError} (hr : m.pc = .returned r) :
    m.Returns r :=
  (Inv.reachable h).returns r hr

/-- `ctx` is cancelled while the first heartbeat waits: `Monitor` returns its error, wrapped. -/
theorem monitor_result_canceled :
    ∃ m, Reachable 0 (fun _ => none) m ∧ m.pc = .returned (.heartbeat (.ctx .canceled)) ∧
      m.Returns (.heartbeat (.ctx .canceled)) :=
  have hr := @Reachable.run 0 (fun _ => none) _ _ (.init none .init)
    [.step .proceed, .stream (.step (.call 0) .proceed), .stream (.step (.call 0) .proceed),
      .cancel .canceled, .stream (.step (.call 0) .done), .stream (.step (.call 0) .proceed),
      .step .proceed] rfl
  ⟨_, hr, rfl, monitor_result hr rfl⟩

/-- Every call `Monitor` makes is an `RPC(_, TypeHeartbeat, nil)`, and every one but the call it is
blocked in has returned: heartbeats never overlap, and none is left running once `Monitor` has
returned. -/
theorem monitor_one_heartbeat_in_flight (h : Reachable t hd m) :
    ∀ j ∈ m.beats, ∃ c, m.stream.calls[j]? = some c ∧ c.rpcType = t ∧ c.req = [] ∧
      (m.pc = .await j ∨ ∃ r, c.pc = .returned r) := by
  intro j hj
  obtain ⟨c, hc, ht, hq, -, hp⟩ := (Inv.reachable h).beat j hj
  exact ⟨c, hc, ht, hq, hp⟩

/-- The first heartbeat gets its response, the ticker fires and the second is in flight. -/
theorem monitor_one_heartbeat_in_flight_second :
    ∃ m, Reachable 0 (fun _ => none) m ∧ m.beats = [0, 1] ∧ m.pc = .await 1 ∧
      ∀ j ∈ m.beats, ∃ c, m.stream.calls[j]? = some c ∧ c.rpcType = 0 ∧ c.req = [] ∧
        (m.pc = .await j ∨ ∃ r, c.pc = .returned r) :=
  have hr := @Reachable.run 0 (fun _ => none) _ _ (.init none .init)
    [.step .proceed, .stream (.step (.call 0) .proceed), .stream (.step (.call 0) .proceed),
      .stream (.step (.call 0) .proceed), .stream (.read (.frame ⟨⟨0, 1, ⟨1⟩⟩, []⟩)),
      .stream (.step .reader .proceed), .stream (.step .reader .proceed),
      .stream (.step (.call 0) .proceed), .stream (.step (.call 0) .proceed),
      .step .proceed, .step .proceed, .step .proceed] rfl
  ⟨_, hr, rfl, rfl, monitor_one_heartbeat_in_flight hr⟩

end Step

end Monitored

end Piko.Rpc

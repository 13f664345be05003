import Piko.Rpc.Monitor

/-! # What releases `Monitor`

`Monitor` (stream.go) can wait in `heartbeat`'s `RPC` and in its own `select`, and both have a
`<-s.shutdownCh` case and a `<-ctx.Done()` case, the heartbeat's `ctx'` deriving from `ctx`. So
shutdown and the cancellation of `ctx` each release it: it then returns by its own steps and those
of its heartbeat, whatever the stream's other goroutines do.

* `CtxInv`: once `ctx` is done, so is the `ctx'` of the heartbeat in flight.
* `Released t m`: `Monitor` returns by its own steps and its heartbeats'; `released_of_select`,
  `released_of_await` and `released_of_heartbeat` chain it through the places `Monitor` can be.
* `monitor_released` (shutdown) and `monitor_released_by_ctx` (cancellation), from every reachable
  state that has not aborted.
-/

namespace Piko.Rpc
set_option autoImplicit false

namespace Monitored

section Step

variable {t : RPCType} {hd : Handler} {m m' : Monitored}

/-! ## `ctx` reaches the heartbeat -/

/-- Once `ctx` is done, so is the `ctx'` of the heartbeat `Monitor` is blocked in, unless the
process has aborted. -/
def CtxInv (m : Monitored) : Prop :=
  ∀ i e, m.pc = .await i → m.ctx = some e → m.stream.crashed = false →
    ∃ c e', m.stream.calls[i]? = some c ∧ c.ctx = some e'

theorem CtxInv.step (hx : m.CtxInv) (hi : m.Inv t) {a : MonitorAction} (h : m.step t a = some m') :
    m'.CtxInv := by
  intro i e hpc hctx hcr
  rcases step_cases h with ⟨a', s, -, hst, rfl⟩ | ⟨e₀, j, -, hpc₀, rfl⟩ | ⟨e₀, -, hpc₀, rfl⟩ |
    ⟨j, s, hpc₀, hst, rfl⟩ | ⟨-, s, hst, rfl⟩ | ⟨j, c, r, -, -, -, rfl⟩ | ⟨-, e₀, -, rfl⟩ |
    ⟨-, -, rfl⟩ | ⟨-, rfl⟩
  · -- a step of the stream keeps a done `ctx'` done
    obtain ⟨c, e', hc, hce⟩ := hx i e hpc hctx (Stream.step_cases hst).1
    obtain ⟨c', hc', hce'⟩ := Stream.step_ctx hst hc hce
    exact ⟨c', e', hc', hce'⟩
  · -- `ctx` is done now, and `context` cancels the heartbeat's `ctx'` with it
    obtain rfl : j = i := MonitorPc.await.inj (hpc₀.symm.trans hpc)
    obtain ⟨c, hc, -⟩ := hi.beat j (hi.await j hpc₀)
    exact propagateCancel_ctx_done (by rwa [propagateCancel_crashed] at hcr) hc e₀
  · exact absurd hpc (hpc₀ i)
  · -- the heartbeat's timeout
    obtain rfl : j = i := MonitorPc.await.inj (hpc₀.symm.trans hpc)
    obtain ⟨c, hc, -, rfl⟩ := Stream.step_cancel hst
    exact ⟨{ c with ctx := some .deadlineExceeded }, _,
      by simp [(List.getElem?_eq_some_iff.1 hc).1], rfl⟩
  · -- `heartbeat` calls `RPC` with a `ctx'` derived from `ctx`
    obtain rfl : m.stream.calls.length = i := MonitorPc.await.inj hpc
    have hctx' : m.ctx = some e := hctx
    rw [hctx'] at hcr ⊢
    exact propagateCancel_ctx_done (by rwa [propagateCancel_crashed] at hcr)
      (by rw [Stream.step_rpc hst]; exact List.getElem?_concat_length _ _) e
  · cases he : r.err <;> simp [he] at hpc
  all_goals cases hpc

theorem CtxInv.reachable (h : Reachable t hd m) : m.CtxInv := by
  induction h with
  | init _ _ => exact fun i e h => by cases h
  | step a hr hs ih => exact ih.step (Inv.reachable hr) hs

/-! ## Shutdown and cancellation release `Monitor` -/

/-- The steps of the goroutine in `Monitor`: its own, and those of its heartbeats inside `RPC`. -/
def IsOwn (beats : List Nat) : MonitorAction → Prop
  | .step _ => True
  | .stream (.step (.call i) _) => i ∈ beats
  | _ => False

/-- `Monitor` returns by its own steps and those of its heartbeats, no other goroutine taking a
step. -/
def Released (t : RPCType) (m : Monitored) : Prop :=
  ∃ as m', (∀ a ∈ as, IsOwn m'.beats a) ∧ m.run t as = some m' ∧ ∃ r, m'.pc = .returned r

theorem run_append (m : Monitored) (as bs : List MonitorAction) :
    m.run t (as ++ bs) = (m.run t as).bind fun m' => m'.run t bs := by
  induction as generalizing m with
  | nil => rfl
  | cons a as ih =>
    simp only [List.cons_append, Monitored.run]
    cases m.step t a <;> simp [ih]

theorem run_call_steps {i : Nat} {ks : List Case} {s' : Stream}
    (h : m.stream.run (ks.map (.step (.call i))) = some s') :
    m.run t (ks.map fun k => .stream (.step (.call i) k)) = some { m with stream := s' } := by
  induction ks generalizing m with
  | nil => cases h; rfl
  | cons k ks ih =>
    simp only [List.map_cons, Stream.run, Option.bind_eq_some] at h
    obtain ⟨s₁, h₁, h⟩ := h
    simp only [List.map_cons, Monitored.run, Monitored.step, Stream.Action.cancelsOneOf,
      Bool.false_eq_true, ↓reduceIte, h₁, Option.map_some', Option.some_bind]
    exact ih h

theorem Stream.run_call_steps_frame {s s' : Stream} {i : Nat} :
    ∀ {ks : List Case}, s.run (ks.map (.step (.call i))) = some s' →
      s'.crashed = s.crashed ∧ (s.shutdownCh = true → s'.shutdownCh = true)
  | [], h => by cases h; exact ⟨rfl, id⟩
  | k :: ks, h => by
    simp only [List.map_cons, Stream.run, Option.bind_eq_some] at h
    obtain ⟨s₁, h₁, h⟩ := h
    have hcr : s₁.crashed = s.crashed := by
      have hcall : s.stepCall i k = some s₁ := by
        simpa [Stream.step, (Stream.step_cases h₁).1] using h₁
      obtain ⟨c, -, h⟩ := Stream.stepCall_cases hcall
      rcases h with ⟨-, rfl⟩ | ⟨-, rfl⟩ | ⟨-, -, rfl⟩ | ⟨-, m, -, rfl⟩ | ⟨-, -, rfl⟩ |
        ⟨-, e, -, rfl⟩ | ⟨r, -, rfl⟩ <;> rfl
    obtain ⟨h₂, h₃⟩ := Stream.run_call_steps_frame h
    exact ⟨h₂.trans hcr, fun hch => h₃ (Stream.step_shutdownCh h₁ hch)⟩

theorem step_beats {a : MonitorAction} (h : m.step t a = some m') : m.beats <+: m'.beats := by
  rcases step_cases h with ⟨a', s, -, -, rfl⟩ | ⟨e, i, -, -, rfl⟩ | ⟨e, -, -, rfl⟩ |
    ⟨i, s, -, -, rfl⟩ | ⟨-, s, -, rfl⟩ | ⟨i, c, r, -, -, -, rfl⟩ | ⟨-, e, -, rfl⟩ | ⟨-, -, rfl⟩ |
    ⟨-, rfl⟩
  all_goals first | exact List.prefix_refl _ | exact List.prefix_append _ _

theorem run_beats {as : List MonitorAction} (h : m.run t as = some m') : m.beats <+: m'.beats := by
  induction as generalizing m with
  | nil => cases h; exact List.prefix_refl _
  | cons a as ih =>
    simp only [Monitored.run, Option.bind_eq_some] at h
    obtain ⟨m₁, h₁, h⟩ := h
    exact (step_beats h₁).trans (ih h)

theorem Released.of_returned {r : MonitorError} (h : m.pc = .returned r) : m.Released t :=
  ⟨[], m, nofun, rfl, r, h⟩

theorem Released.of_step {k : Case} (hs : m.step t (.step k) = some m') (h : m'.Released t) :
    m.Released t := by
  obtain ⟨as, m'', hown, hrun, hr⟩ := h
  refine ⟨.step k :: as, m'', fun a ha => ?_, by simp [Monitored.run, hs, hrun], hr⟩
  rcases List.mem_cons.1 ha with rfl | ha
  · trivial
  · exact hown a ha

theorem Released.of_call_steps {i : Nat} {ks : List Case} {s' : Stream} (hi : i ∈ m.beats)
    (hs : m.stream.run (ks.map (.step (.call i))) = some s')
    (h : Released t { m with stream := s' }) : m.Released t := by
  obtain ⟨as, m'', hown, hrun, hr⟩ := h
  refine ⟨(ks.map fun k => .stream (.step (.call i) k)) ++ as, m'', fun a ha => ?_, ?_, hr⟩
  · rcases List.mem_append.1 ha with ha | ha
    · obtain ⟨k, -, rfl⟩ := List.mem_map.1 ha
      exact (run_beats hrun).subset hi
    · exact hown a ha
  · rw [run_append, run_call_steps hs, Option.some_bind, hrun]

theorem released_of_select (hpc : m.pc = .select) (hcr : m.stream.crashed = false)
    (hready : m.stream.shutdownCh = true ∨ ∃ e, m.ctx = some e) : m.Released t := by
  rcases hready with hch | ⟨e, hctx⟩
  · have hs : m.step t (.step .shutdown) =
        some { m with pc := .returned (.shutdown m.stream.shutdownErr) } := by
      simp [Monitored.step, hcr, hpc, hch]
    exact .of_step hs (.of_returned rfl)
  · have hs : m.step t (.step .done) = some { m with pc := .returned (.ctx e) } := by
      simp [Monitored.step, hcr, hpc, hctx]
    exact .of_step hs (.of_returned rfl)

/-- Blocked in heartbeat `i`, which returns by its own steps, with `shutdownCh` closed or `ctx`
done, `Monitor` returns: the heartbeat returns, and `Monitor` then returns its error or, at its
`select`, takes the case that is ready. -/
theorem released_of_await {i : Nat} (hpc : m.pc = .await i) (hi : i ∈ m.beats)
    (hret : m.stream.ReturnsAlone (.call i)) (hcr : m.stream.crashed = false)
    (hready : m.stream.shutdownCh = true ∨ ∃ e, m.ctx = some e) : m.Released t := by
  obtain ⟨ks, s₁, hs₁, c₁, r, hc₁, hr⟩ := hret
  obtain ⟨hcr₁, hch₁⟩ := Stream.run_call_steps_frame hs₁
  -- `Monitor` sees its heartbeat returned, with an error or not
  have hcr₂ : s₁.crashed = false := hcr₁.trans hcr
  cases he : r.err with
  | some e =>
    have hstep : ({ m with stream := s₁ } : Monitored).step t (.step .proceed) =
        some { m with stream := s₁, pc := .returned (.heartbeat e) } := by
      simp [Monitored.step, hcr₂, hpc, hc₁, hr, he]
    exact .of_call_steps hi hs₁ (.of_step hstep (.of_returned rfl))
  | none =>
    have hstep : ({ m with stream := s₁ } : Monitored).step t (.step .proceed) =
        some { m with stream := s₁, pc := .select } := by
      simp [Monitored.step, hcr₂, hpc, hc₁, hr, he]
    exact .of_call_steps hi hs₁ (.of_step hstep (released_of_select rfl hcr₂ (hready.imp_left hch₁)))

/-- At `heartbeat`, `Monitor` calls `RPC` and is blocked in the new call: if that call returns by
its own steps, `Monitor` returns. -/
theorem released_of_heartbeat (hpc : m.pc = .heartbeat) (hcr : m.stream.crashed = false)
    (hready : m.stream.shutdownCh = true ∨ ∃ e, m.ctx = some e)
    (hret : (propagateCancel { m.stream with
      calls := m.stream.calls ++ [⟨t, [], none, 0, none, .inc⟩] } m.stream.calls.length
        m.ctx).ReturnsAlone (.call m.stream.calls.length)) : m.Released t := by
  have hstep : m.step t (.step .proceed) = some { m with
      stream := propagateCancel { m.stream with
        calls := m.stream.calls ++ [⟨t, [], none, 0, none, .inc⟩] } m.stream.calls.length m.ctx
      pc := .await m.stream.calls.length
      beats := m.beats ++ [m.stream.calls.length] } := by
    simp [Monitored.step, Stream.step, hcr, hpc]
  exact .of_step hstep (released_of_await rfl (List.mem_append_right _ (List.mem_singleton_self _))
    hret (by simp [propagateCancel_crashed, hcr]) (by simpa [propagateCancel_shutdownCh] using hready))

/-- After shutdown, every call returns by its own steps. -/
theorem Stream.returnsAlone_of_shutdown {s : Stream} {i : Nat} {c : Call}
    (hcr : s.crashed = false) (hch : s.shutdownCh = true) (hc : s.calls[i]? = some c) :
    s.ReturnsAlone (.call i) := by
  by_cases hr : ∃ r, c.pc = .returned r
  · obtain ⟨r, hr⟩ := hr
    exact .of_returned ⟨c, r, hc, hr⟩
  · exact Stream.returnsAlone_call hcr hch hc fun r h => hr ⟨r, h⟩

/-- Shutdown releases `Monitor`: from every reachable state in which `shutdownCh` is closed and the
process has not aborted, `Monitor` returns by its own steps and those of its heartbeat, no other
goroutine taking a step. -/
theorem monitor_released (h : Reachable t hd m) (hch : m.stream.shutdownCh = true)
    (hcr : m.stream.crashed = false) :
    ∃ as m', (∀ a ∈ as, IsOwn m'.beats a) ∧ m.run t as = some m' ∧ ∃ r, m'.pc = .returned r := by
  have hi := Inv.reachable h
  cases hpc : m.pc with
  | returned r => exact Released.of_returned hpc
  | select => exact released_of_select hpc hcr (.inl hch)
  | await i =>
    obtain ⟨c, hc, -⟩ := hi.beat i (hi.await i hpc)
    exact released_of_await hpc (hi.await i hpc) (Stream.returnsAlone_of_shutdown hcr hch hc) hcr
      (.inl hch)
  | heartbeat =>
    obtain ⟨c, hc, -⟩ := @propagateCancel_call
      { m.stream with calls := m.stream.calls ++ [⟨t, [], none, 0, none, .inc⟩] }
      m.stream.calls.length m.ctx _ _ (List.getElem?_concat_length m.stream.calls _)
    exact released_of_heartbeat hpc hcr (.inl hch) (Stream.returnsAlone_of_shutdown
      (by simp [propagateCancel_crashed, hcr]) (by simp [propagateCancel_shutdownCh, hch]) hc)

/-- `Close` runs while the first heartbeat waits to send: `Monitor` returns by itself. -/
theorem monitor_released_on_close :
    ∃ m, Reachable 0 (fun _ => none) m ∧ m.stream.shutdownCh = true ∧ m.stream.crashed = false ∧
      ∃ as m', (∀ a ∈ as, IsOwn m'.beats a) ∧ m.run 0 as = some m' ∧ ∃ r, m'.pc = .returned r :=
  have hr := @Reachable.run 0 (fun _ => none) _ _ (.init none .init)
    [.step .proceed, .stream (.step (.call 0) .proceed), .stream (.step (.call 0) .proceed),
      .stream .close, .stream (.step (.closer 0) .proceed), .stream (.step (.closer 0) .proceed),
      .stream (.step (.closer 0) .proceed)] rfl
  ⟨_, hr, rfl, rfl, monitor_released hr rfl rfl⟩


/-- Cancellation releases `Monitor`: from every reachable state in which its `ctx` is done and the
process has not aborted, `Monitor` returns by its own steps and those of its heartbeat, no other
goroutine taking a step. The heartbeat's `ctx'` derives from `ctx`, so the heartbeat returns by its
`<-ctx.Done()` case, and `Monitor`'s `select` has one too. -/
theorem monitor_released_by_ctx (h : Reachable t hd m) {e : CtxError} (hctx : m.ctx = some e)
    (hcr : m.stream.crashed = false) :
    ∃ as m', (∀ a ∈ as, IsOwn m'.beats a) ∧ m.run t as = some m' ∧ ∃ r, m'.pc = .returned r := by
  have hi := Inv.reachable h
  cases hpc : m.pc with
  | returned r => exact Released.of_returned hpc
  | select => exact released_of_select hpc hcr (.inr ⟨e, hctx⟩)
  | await i =>
    obtain ⟨c, e', hc, hce⟩ := CtxInv.reachable h i e hpc hctx hcr
    exact released_of_await hpc (hi.await i hpc) (Stream.returnsWith_of_ctx hcr hc hce).returnsAlone
      hcr (.inr ⟨e, hctx⟩)
  | heartbeat =>
    obtain ⟨c, e', hc, hce⟩ := propagateCancel_ctx_done
      (s := { m.stream with calls := m.stream.calls ++ [⟨t, [], none, 0, none, .inc⟩] })
      hcr (List.getElem?_concat_length _ _) e
    refine released_of_heartbeat hpc hcr (.inr ⟨e, hctx⟩) ?_
    rw [hctx]
    exact (Stream.returnsWith_of_ctx (by simp [propagateCancel_crashed, hcr]) hc hce).returnsAlone

/-- `ctx` is cancelled once the first heartbeat has taken its ID: `Monitor` returns by itself. -/
theorem monitor_released_by_ctx_first_heartbeat :
    ∃ m, Reachable 0 (fun _ => none) m ∧ m.ctx = some .canceled ∧ m.stream.crashed = false ∧
      ∃ as m', (∀ a ∈ as, IsOwn m'.beats a) ∧ m.run 0 as = some m' ∧ ∃ r, m'.pc = .returned r :=
  have hr := @Reachable.run 0 (fun _ => none) _ _ (.init none .init)
    [.step .proceed, .stream (.step (.call 0) .proceed), .cancel .canceled] rfl
  ⟨_, hr, rfl, rfl, monitor_released_by_ctx hr rfl rfl⟩

end Step

end Monitored

end Piko.Rpc

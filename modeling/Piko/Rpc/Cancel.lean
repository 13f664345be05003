import Piko.Rpc.Responses

/-! # Cancellation

`RPC` (stream.go) can wait in two `select`s, to put its request on `writeCh` and for its response,
and each has a `<-ctx.Done()` case that returns `ctx.Err()`; its deferred
`unregisterResponseHandler` then runs. Its other steps wait for nothing. So a call whose `ctx` is
done returns by its own steps, whatever the stream's other goroutines and the peer do, and no step
of the stream clears a done `ctx`.

* `CallKept s' j c`: call `j` of `s'` keeps the type, the payload, the `ctx` and the return of `c`;
  every step but a cancellation of that call's `ctx` keeps it (`step_callKept`).
* `ReturnsWith s i r`: call `i` returns `r` by its own steps.
* `ctxReturn e p`: what a call at `p` returns once its `ctx` is done with `e`.
* A cancellation is never lost: after any run of the stream that does not abort the process, a
  cancelled call still returns by its own steps (`rpc_cancel_never_lost`).
-/

namespace Piko.Rpc
set_option autoImplicit false

namespace Stream

variable {s s' : Stream}

/-- Call `j` of `s'` has the type, the payload and the `ctx` of `c`, and has returned as `c` had. -/
def CallKept (s' : Stream) (j : Nat) (c : Call) : Prop :=
  ∃ c', s'.calls[j]? = some c' ∧ c'.rpcType = c.rpcType ∧ c'.req = c.req ∧ c'.ctx = c.ctx ∧
    ∀ r, c.pc = .returned r → c'.pc = .returned r

theorem callKept_of_calls {j : Nat} {c : Call} (hc : s.calls[j]? = some c)
    (hs : s'.calls = s.calls) : s'.CallKept j c :=
  ⟨c, hs ▸ hc, rfl, rfl, rfl, fun _ => id⟩

theorem callKept_setCall {i j : Nat} {c c₀ c' : Call} (hc : s.calls[j]? = some c)
    (hc₀ : s.calls[i]? = some c₀)
    (hk : i = j → c'.rpcType = c₀.rpcType ∧ c'.req = c₀.req ∧ c'.ctx = c₀.ctx ∧
      ∀ r, c₀.pc = .returned r → c'.pc = .returned r) :
    (s.setCall i c').CallKept j c := by
  by_cases hij : i = j
  · subst hij
    obtain rfl : c₀ = c := Option.some.inj (hc₀.symm.trans hc)
    obtain ⟨h₁, h₂, h₃, h₄⟩ := hk rfl
    exact ⟨c', by simp [(List.getElem?_eq_some_iff.1 hc).1], h₁, h₂, h₃, h₄⟩
  · exact ⟨c, by simp [List.getElem?_set_ne hij, hc], rfl, rfl, rfl, fun _ => id⟩

theorem step_cancel {i : Nat} {e : CtxError} (h : s.step (.cancel i e) = some s') :
    ∃ c, s.calls[i]? = some c ∧ c.ctx = none ∧ s' = s.setCall i { c with ctx := some e } := by
  unfold step at h
  split at h
  · cases h
  · simp only [Option.bind_eq_bind, Option.bind_eq_some] at h
    obtain ⟨c, hc, h⟩ := h
    cases hctx : c.ctx <;> simp only [hctx, Option.isSome_none, Option.isSome_some,
      Bool.false_eq_true, ↓reduceIte, Option.some.injEq, reduceCtorEq] at h
    exact ⟨c, hc, hctx, h.symm⟩

/-- A step keeps every call's type, payload, `ctx` and return, but a cancellation of its `ctx`. -/
theorem step_callKept {a : Action} (h : s.step a = some s') {j : Nat} {c : Call}
    (hc : s.calls[j]? = some c) (ha : ∀ e, a ≠ .cancel j e) : s'.CallKept j c := by
  have hcr := (step_cases h).1
  have same : s'.calls = s.calls → s'.CallKept j c := callKept_of_calls hc
  cases a with
  | rpc t req =>
    simp only [step, hcr, Bool.false_eq_true, ↓reduceIte, Option.some.injEq] at h
    subst h
    exact ⟨c, by simp [List.getElem?_append_left (List.getElem?_eq_some_iff.1 hc).1, hc], rfl,
      rfl, rfl, fun _ => id⟩
  | close =>
    simp only [step, hcr, Bool.false_eq_true, ↓reduceIte, Option.some.injEq] at h
    exact same (by rw [← h])
  | cancel i e =>
    have hij : i ≠ j := by rintro rfl; exact ha e rfl
    obtain ⟨ci, hci, -, rfl⟩ := step_cancel h
    exact callKept_setCall hc hci fun h => absurd h hij
  | read f =>
    simp only [step, hcr, Bool.false_eq_true, ↓reduceIte] at h
    obtain ⟨-, ⟨m, -, -, rfl⟩ | ⟨m, -, -, rfl⟩ | rfl⟩ := stepRead_cases h <;> exact same rfl
  | step g k =>
    simp only [step, hcr, Bool.false_eq_true, ↓reduceIte] at h
    cases g with
    | call i =>
      obtain ⟨ci, hci, h⟩ := stepCall_cases h
      rcases h with ⟨hp, rfl⟩ | ⟨hp, rfl⟩ | ⟨hp, -, rfl⟩ | ⟨hp, -, -, rfl⟩ | ⟨hp, -, rfl⟩ |
        ⟨hp, -, -, rfl⟩ | ⟨r, hp, rfl⟩
      all_goals refine callKept_setCall hc hci fun _ => ⟨rfl, rfl, rfl, fun r h => ?_⟩
      all_goals first
        | rcases hp with hp | hp <;> simp [hp] at h
        | simp [hp] at h
    | reader =>
      rcases stepReader_cases h with ⟨m, i, -, -, rfl⟩ | ⟨m, -, -, rfl⟩ |
        ⟨i, m, ci, -, hci, -, rfl⟩ | ⟨-, rfl⟩ | ⟨cl, -, h⟩
      · exact same rfl
      · exact same rfl
      · exact callKept_setCall hc hci fun _ => ⟨rfl, rfl, rfl, fun _ => id⟩
      · exact same rfl
      · exact same (closeStep_frame h).1
    | writer =>
      rcases stepWriter_cases h with ⟨o, rest, -, -, rfl⟩ | ⟨-, -, rfl⟩ | ⟨o, -, rfl⟩ |
        ⟨o, -, rfl⟩ | ⟨cl, -, h⟩
      all_goals first | exact same rfl | exact same (closeStep_frame h).1
    | task i =>
      obtain ⟨t, -, h⟩ := stepTask_cases h
      rcases h with ⟨-, -, rfl⟩ | ⟨-, f, resp, -, -, rfl⟩ | ⟨-, f, -, -, rfl⟩ | ⟨m, -, -, rfl⟩ |
        ⟨m, -, -, rfl⟩
      all_goals exact same rfl
    | closer i =>
      simp only [Option.bind_eq_bind, Option.bind_eq_some] at h
      obtain ⟨cl, -, h⟩ := h
      exact same (closeStep_frame h).1
  | panic g =>
    simp only [step, hcr, Bool.false_eq_true, ↓reduceIte, Option.ite_none_right_eq_some,
      Option.some.injEq] at h
    exact same (by rw [← h.2, panicked_eq])

/-! ## A done `ctx` stays done -/

theorem step_ctx {a : Action} (h : s.step a = some s') {i : Nat} {c : Call} {e : CtxError}
    (hc : s.calls[i]? = some c) (hctx : c.ctx = some e) :
    ∃ c', s'.calls[i]? = some c' ∧ c'.ctx = some e := by
  by_cases ha : ∃ e', a = .cancel i e'
  · obtain ⟨e', rfl⟩ := ha
    obtain ⟨c₀, hc₀, hnone, -⟩ := step_cancel h
    rw [hc, Option.some.injEq] at hc₀
    rw [← hc₀, hctx] at hnone
    cases hnone
  · obtain ⟨c', hc', -, -, h₃, -⟩ := step_callKept h hc fun e' he => ha ⟨e', he⟩
    exact ⟨c', hc', h₃.trans hctx⟩

theorem run_ctx {as : List Action} (h : s.run as = some s') {i : Nat} {c : Call} {e : CtxError}
    (hc : s.calls[i]? = some c) (hctx : c.ctx = some e) :
    ∃ c', s'.calls[i]? = some c' ∧ c'.ctx = some e := by
  induction as generalizing s c with
  | nil => cases h; exact ⟨c, hc, hctx⟩
  | cons a as ih =>
    simp only [run, Option.bind_eq_some] at h
    obtain ⟨s₁, h₁, h⟩ := h
    obtain ⟨c₁, hc₁, hctx₁⟩ := step_ctx h₁ hc hctx
    exact ih h hc₁ hctx₁

/-! ## A cancelled call returns by its own steps -/

/-- Call `i` returns `r` by taking its own steps, no other goroutine stepping meanwhile. -/
def ReturnsWith (s : Stream) (i : Nat) (r : Return) : Prop :=
  ∃ (ks : List Case) (s' : Stream) (c : Call), s.run (ks.map (.step (.call i))) = some s' ∧
    s'.calls[i]? = some c ∧ c.pc = .returned r

theorem ReturnsWith.of_step {i : Nat} {r : Return} (k : Case) (s' : Stream)
    (hs : s.step (.step (.call i) k) = some s') (h : s'.ReturnsWith i r) : s.ReturnsWith i r := by
  obtain ⟨ks, s'', c, hr, hc, hp⟩ := h
  exact ⟨k :: ks, s'', c, by simp [run, hs, hr], hc, hp⟩

theorem ReturnsWith.returnsAlone {i : Nat} {r : Return} (h : s.ReturnsWith i r) :
    s.ReturnsAlone (.call i) :=
  let ⟨ks, s', c, hr, hc, hp⟩ := h
  ⟨ks, s', hr, c, r, hc, hp⟩

/-- What a call at `p` returns once its `ctx` is done with `e`: what it was already returning, and
otherwise `ctx.Err()`. -/
def ctxReturn (e : CtxError) : CallPc → Return
  | .unregister r | .returned r => r
  | _ => ⟨none, some (.ctx e)⟩

theorem step_call_eq (hcr : s.crashed = false) (i : Nat) (k : Case) :
    s.step (.step (.call i) k) = s.stepCall i k := by
  simp [step, hcr]

section Release

variable {i : Nat} {c : Call} (hcr : s.crashed = false) (hc : s.calls[i]? = some c)
include hcr hc

theorem returnsWith_unregister {r : Return} (hpc : c.pc = .unregister r) : s.ReturnsWith i r := by
  apply ReturnsWith.of_step .proceed
  · rw [step_call_eq hcr, stepCall, hc, Option.bind_eq_bind, Option.some_bind, hpc]
  · exact ⟨[], _, { c with pc := .returned r }, rfl,
      by simp [(List.getElem?_eq_some_iff.1 hc).1], rfl⟩

theorem returnsWith_done {e : CtxError} (hctx : c.ctx = some e)
    (hpc : c.pc = .send ∨ c.pc = .await) : s.ReturnsWith i ⟨none, some (.ctx e)⟩ := by
  apply ReturnsWith.of_step .done
  · rw [step_call_eq hcr, stepCall, hc, Option.bind_eq_bind, Option.some_bind]
    rcases hpc with h | h <;> simp only [h, hctx, Option.map_some'] <;> rfl
  · exact returnsWith_unregister (c := { c with pc := .unregister ⟨none, some (.ctx e)⟩ })
      (by simp [hcr]) (by simp [(List.getElem?_eq_some_iff.1 hc).1, hctx]) rfl

theorem returnsWith_register {e : CtxError} (hctx : c.ctx = some e) (hpc : c.pc = .register) :
    s.ReturnsWith i ⟨none, some (.ctx e)⟩ := by
  apply ReturnsWith.of_step .proceed
  · rw [step_call_eq hcr, stepCall, hc, Option.bind_eq_bind, Option.some_bind, hpc]
  · exact returnsWith_done (c := { c with pc := .send }) (by simp [hcr])
      (by simp [(List.getElem?_eq_some_iff.1 hc).1]) hctx (.inl rfl)

/-- Once call `i`'s `ctx` is done with `e`, the call returns `ctxReturn e` of where it is, by its
own steps. -/
theorem returnsWith_of_ctx {e : CtxError} (hctx : c.ctx = some e) :
    s.ReturnsWith i (ctxReturn e c.pc) := by
  cases hp : c.pc with
  | inc =>
    -- `Inc` gives the call its ID
    apply ReturnsWith.of_step .proceed
    · rw [step_call_eq hcr, stepCall, hc, Option.bind_eq_bind, Option.some_bind, hp]
    · exact returnsWith_register (c := { c with id := s.nextMessageID + 1, pc := .register })
        (by simp [hcr]) (by simp [(List.getElem?_eq_some_iff.1 hc).1]) hctx rfl
  | register => exact returnsWith_register hcr hc hctx hp
  | send => exact returnsWith_done hcr hc hctx (.inl hp)
  | await => exact returnsWith_done hcr hc hctx (.inr hp)
  | unregister r => exact returnsWith_unregister hcr hc hp
  | returned r => exact ⟨[], s, c, rfl, hc, hp⟩

end Release

/-- A cancellation is never lost: once call `i`'s `ctx` is done with `e`, after any run of the
stream's goroutines and the peer that does not abort the process, the call's `ctx` is still done
with `e`, and the call returns by its own steps alone, no other goroutine stepping: `ctx.Err()`,
unless it had already taken another outcome and was only unregistering. -/
theorem rpc_cancel_never_lost {i : Nat} {c : Call} {e : CtxError} (hc : s.calls[i]? = some c)
    (hctx : c.ctx = some e) {as : List Action} {s₁ : Stream} (hrun : s.run as = some s₁)
    (hcr : s₁.crashed = false) :
    ∃ c₁, s₁.calls[i]? = some c₁ ∧ c₁.ctx = some e ∧
      ∃ (ks : List Case) (s' : Stream) (c' : Call), s₁.run (ks.map (.step (.call i))) = some s' ∧
        s'.calls[i]? = some c' ∧ c'.pc = .returned (ctxReturn e c₁.pc) := by
  obtain ⟨c₁, hc₁, hctx₁⟩ := run_ctx hrun hc hctx
  exact ⟨c₁, hc₁, hctx₁, returnsWith_of_ctx hcr hc₁ hctx₁⟩

/-- `RPC` is called with a `ctx` that is already done; the call registers ID 1, and a stray
response with that ID fills its `ch` before it sends anything: the call still returns `ctx.Err()`
by itself. -/
theorem rpc_cancel_never_lost_stray_response :
    ∃ (s : Stream) (c : Call) (as : List Action) (s₁ : Stream), s.calls[0]? = some c ∧
      c.ctx = some .canceled ∧ s.run as = some s₁ ∧ s₁.crashed = false ∧
      ∃ c₁, s₁.calls[0]? = some c₁ ∧ c₁.ctx = some .canceled ∧
        ∃ (ks : List Case) (s' : Stream) (c' : Call), s₁.run (ks.map (.step (.call 0))) = some s' ∧
          s'.calls[0]? = some c' ∧ c'.pc = .returned (ctxReturn .canceled c₁.pc) :=
  have hrun : ({ newStream (fun _ => none) with
      calls := [⟨0, [], some .canceled, 0, none, .inc⟩] } : Stream).run
      [.step (.call 0) .proceed, .step (.call 0) .proceed, .read (.frame ⟨⟨0, 1, ⟨1⟩⟩, []⟩),
        .step .reader .proceed, .step .reader .proceed] = some _ := rfl
  ⟨_, _, _, _, by rfl, by rfl, hrun, by rfl, rpc_cancel_never_lost (by rfl) (by rfl) hrun (by rfl)⟩

end Stream

end Piko.Rpc

import Piko.Rpc.Shutdown

/-! # Responses

How a response reaches `RPC` (stream.go): the reader looks the frame's ID up in `responseHandlers`
and sends the frame into the one-element channel `ch` of the call registered under it; the call
takes it in its second `select`.

* `Lawful s c r`: the outcomes `RPC` may return, one case per shape of `r`: the payload of a
  response frame received with the call's ID, the not-supported error for such a frame with
  `ErrNotSupported` set, `ErrStreamClosed` once `shutdownCh` is closed, or `ctx.Err()` once `ctx` is
  done.
* `CallsInv`: the response table points at registered calls with that ID, the frames the reader
  handles and those buffered in a call's `ch` were received with the call's ID, and every call that
  is returning returns a lawful outcome. `rpc_outcome_law` is the last part over every reachable
  state.
* `ReaderStuck`: a full `ch` of a call that has returned blocks the reader at `ch <- m` for good.
  A duplicated response frame and a cancelled call reach it (`reader_blocks_forever`).
-/

namespace Piko.Rpc
set_option autoImplicit false

/-- Whether a call has run `s.nextMessageID.Inc()`. -/
def CallPc.allocated : CallPc → Bool
  | .inc => false
  | .register | .send | .await | .unregister _ | .returned _ => true

/-- Whether a call's `ch` is registered: from `registerResponseHandler` until its deferred
`unregisterResponseHandler`. -/
def CallPc.registered : CallPc → Bool
  | .send | .await | .unregister _ => true
  | .inc | .register | .returned _ => false

theorem CallPc.allocated_of_registered {p : CallPc} (h : p.registered) : p.allocated := by
  cases p <;> simp_all [registered, allocated]

namespace Stream

variable {s s' : Stream}

/-- Frame `m` was received as a response carrying call `c`'s ID. -/
def Delivered (s : Stream) (c : Call) (m : Message) : Prop :=
  m ∈ s.received ∧ m.header.flags.response = true ∧ m.header.id = c.id

/-- What `RPC` may return for call `c`. -/
def Lawful (s : Stream) (c : Call) : Return → Prop
  | ⟨some q, none⟩ => ∃ m, s.Delivered c m ∧ m.header.flags.errNotSupported = false ∧ m.payload = q
  | ⟨none, some .notSupported⟩ => ∃ m, s.Delivered c m ∧ m.header.flags.errNotSupported = true
  | ⟨none, some .streamClosed⟩ => s.shutdownCh = true
  | ⟨none, some (.ctx e)⟩ => c.ctx = some e
  | _ => False

/-- What a call needs of the state: a frame in its `ch` was delivered for it, and what it is
returning is lawful. -/
def CallOk (s : Stream) (c : Call) : Prop :=
  (∀ m, c.slot = some m → c.pc.allocated ∧ s.Delivered c m) ∧
    ∀ r, (c.pc = .unregister r ∨ c.pc = .returned r) → s.Lawful c r

/-- The response invariant. -/
structure CallsInv (s : Stream) : Prop where
  /-- An entry of `responseHandlers` is the `ch` of a registered call with that ID. -/
  table : ∀ (k : UInt64) (i : Nat), s.responseHandlers k = some i →
    ∃ c, s.calls[i]? = some c ∧ c.id = k ∧ c.pc.registered
  /-- The response the reader is handling was received. -/
  find : ∀ m, s.reader = .find m → m ∈ s.received ∧ m.header.flags.response = true
  /-- The response the reader is sending carries the ID of the call whose `ch` it found. -/
  send : ∀ (i : Nat) (m : Message), s.reader = .send i m →
    ∃ c, s.calls[i]? = some c ∧ c.pc.allocated ∧ s.Delivered c m
  calls : ∀ (i : Nat) (c : Call), s.calls[i]? = some c → s.CallOk c

/-! ## Monotonicity: received frames and a closed `shutdownCh` stay -/

section Mono

variable (hrec : ∀ m ∈ s.received, m ∈ s'.received)
  (hch : s.shutdownCh = true → s'.shutdownCh = true)
include hrec

theorem Delivered.mono {c c' : Call} {m : Message} (h : s.Delivered c m) (hid : c'.id = c.id) :
    s'.Delivered c' m :=
  ⟨hrec m h.1, h.2.1, h.2.2.trans hid.symm⟩

include hch

theorem Lawful.mono {c c' : Call} {r : Return} (h : s.Lawful c r) (hid : c'.id = c.id)
    (hctx : ∀ e, c.ctx = some e → c'.ctx = some e) : s'.Lawful c' r := by
  rcases r with ⟨_ | q, _ | ⟨_ | _ | e | _⟩⟩ <;> simp only [Lawful] at h ⊢
  · exact hch h
  · obtain ⟨m, hd, hn⟩ := h; exact ⟨m, hd.mono hrec hid, hn⟩
  · exact hctx e h
  · obtain ⟨m, hd, hn, hp⟩ := h; exact ⟨m, hd.mono hrec hid, hn, hp⟩

theorem CallOk.mono {c : Call} (h : s.CallOk c) : s'.CallOk c :=
  ⟨fun m hm => ⟨(h.1 m hm).1, (h.1 m hm).2.mono hrec rfl⟩,
    fun r hr => (h.2 r hr).mono hrec hch rfl fun _ => id⟩

end Mono

theorem Lawful.responseReturn {c : Call} {m : Message} (h : s.Delivered c m) :
    s.Lawful c (responseReturn m) := by
  unfold Piko.Rpc.Stream.responseReturn
  cases hn : m.header.flags.errNotSupported
  · exact ⟨m, h, hn, rfl⟩
  · exact ⟨m, h, hn⟩

/-! ## Preservation -/

theorem CallsInv.congr (hi : s.CallsInv) (hc : s'.calls = s.calls)
    (ht : s'.responseHandlers = s.responseHandlers) (hrec : ∀ m ∈ s.received, m ∈ s'.received)
    (hch : s.shutdownCh = true → s'.shutdownCh = true)
    (hf : ∀ m, s'.reader = .find m →
      s.reader = .find m ∨ (m ∈ s'.received ∧ m.header.flags.response = true))
    (hs : ∀ i m, s'.reader = .send i m → s.reader = .send i m ∨
      ∃ c, s'.calls[i]? = some c ∧ c.pc.allocated ∧ s'.Delivered c m) : s'.CallsInv where
  table k i h := by rw [hc]; exact hi.table k i (ht ▸ h)
  find m h := (hf m h).elim (fun h => ⟨hrec m (hi.find m h).1, (hi.find m h).2⟩) id
  send i m h := (hs i m h).elim (fun h => by
    obtain ⟨c, hc', ha, hd⟩ := hi.send i m h
    exact ⟨c, by rw [hc]; exact hc', ha, hd.mono hrec rfl⟩) id
  calls i c h := (hi.calls i c (by rw [← hc]; exact h)).mono hrec hch

/-- Call `i` moves from `c` to `c'`, keeping its ID once it has one; nothing else the invariant
reads changes but the table. -/
theorem CallsInv.update (hi : s.CallsInv) {i : Nat} {c c' : Call} (hc : s.calls[i]? = some c)
    (hs : s'.calls = s.calls.set i c') (hrec : s'.received = s.received)
    (hf : ∀ m, s'.reader = .find m → s.reader = .find m)
    (hr : ∀ j m, s'.reader = .send j m → s.reader = .send j m)
    (hch : s'.shutdownCh = s.shutdownCh)
    (hid : c.pc.allocated → c'.pc.allocated ∧ c'.id = c.id)
    (htab : ∀ (k : UInt64) (j : Nat), s'.responseHandlers k = some j →
      ∃ c, s'.calls[j]? = some c ∧ c.id = k ∧ c.pc.registered)
    (hok : s'.CallOk c') : s'.CallsInv where
  table := htab
  find m h := by rw [hrec]; exact hi.find m (hf m h)
  send j m h := by
    obtain ⟨cj, hcj, ha, hd⟩ := hi.send j m (hr j m h)
    rw [hs, List.getElem?_set]
    by_cases hij : i = j
    · subst hij
      obtain rfl : cj = c := Option.some.inj (hcj.symm.trans hc)
      obtain ⟨ha', hid'⟩ := hid ha
      exact ⟨c', by simp [(List.getElem?_eq_some_iff.1 hc).1], ha', hd.mono (by simp [hrec]) hid'⟩
    · exact ⟨cj, by simp [hij, hcj], ha, hd.mono (by simp [hrec]) rfl⟩
  calls j cj h := by
    rw [hs] at h
    rcases List.getElem?_set_eq_some h with ⟨-, rfl⟩ | ⟨-, h⟩
    · exact hok
    · exact (hi.calls j cj h).mono (by simp [hrec]) (by simp [hch])

theorem CallsInv.table_update (hi : s.CallsInv) {i : Nat} {c c' : Call}
    (hc : s.calls[i]? = some c) (hs : s'.calls = s.calls.set i c')
    (ht : s'.responseHandlers = s.responseHandlers)
    (hreg : c.pc.registered → c'.pc.registered ∧ c'.id = c.id) (k : UInt64) (j : Nat)
    (h : s'.responseHandlers k = some j) :
    ∃ c, s'.calls[j]? = some c ∧ c.id = k ∧ c.pc.registered := by
  obtain ⟨cj, hcj, hid, hreg'⟩ := hi.table k j (ht ▸ h)
  rw [hs, List.getElem?_set]
  by_cases hij : i = j
  · subst hij
    obtain rfl : cj = c := Option.some.inj (hcj.symm.trans hc)
    exact ⟨c', by simp [(List.getElem?_eq_some_iff.1 hc).1], (hreg hreg').2.trans hid,
      (hreg hreg').1⟩
  · exact ⟨cj, by simp [hij, hcj], hid, hreg'⟩

theorem CallOk.keep {c c' : Call} (h : s.CallOk c) (hrec : s'.received = s.received)
    (hslot : c'.slot = c.slot) (hid : c'.id = c.id) (ha : c'.pc.allocated)
    (hr : ∀ r, (c'.pc = .unregister r ∨ c'.pc = .returned r) → s'.Lawful c' r) : s'.CallOk c' :=
  ⟨fun m hm => ⟨ha, (h.1 m (hslot ▸ hm)).2.mono (by simp [hrec]) hid⟩, hr⟩

theorem CallsInv.stepCall {i : Nat} {k : Case} (hi : s.CallsInv) (hsi : s.ShutdownInv)
    (h : s.stepCall i k = some s') : s'.CallsInv := by
  obtain ⟨c, hc, h⟩ := stepCall_cases h
  have hlen := (List.getElem?_eq_some_iff.1 hc).1
  have hok := hi.calls i c hc
  rcases h with ⟨hp, rfl⟩ | ⟨hp, rfl⟩ | ⟨hp, -, rfl⟩ | ⟨hp, m, hm, rfl⟩ | ⟨hp, hch, rfl⟩ |
    ⟨hp, e, he, rfl⟩ | ⟨r, hp, rfl⟩
  · -- `Inc`: the call had no `ch` in the table and nothing buffered
    refine hi.update hc rfl rfl (fun _ => id) (fun _ _ => id) rfl
      (by simp [hp, CallPc.allocated]) (hi.table_update hc rfl rfl
      (by simp [hp, CallPc.registered])) ⟨fun m hm => ?_, fun r hr => ?_⟩
    · exact absurd (hok.1 m hm).1 (by simp [hp, CallPc.allocated])
    · simp at hr
  · -- `registerResponseHandler`
    refine hi.update hc rfl rfl (fun _ => id) (fun _ _ => id) rfl (fun _ => ⟨rfl, rfl⟩)
      (fun k j h => ?_) (hok.keep rfl rfl rfl rfl (by simp))
    simp only [setCall_responseHandlers, setCall_calls, Function.update_apply] at h ⊢
    split_ifs at h with hk
    · cases h; exact ⟨{ c with pc := .send }, by simp [hlen], hk.symm, rfl⟩
    · obtain ⟨cj, hcj, hid, hreg⟩ := hi.table k j h
      have hij : i ≠ j := by rintro rfl; simp_all [CallPc.registered]
      exact ⟨cj, by simp [List.getElem?_set_ne hij, hcj], hid, hreg⟩
  · -- the request goes to `writeCh`
    exact hi.update hc rfl rfl (fun _ => id) (fun _ _ => id) rfl (fun _ => ⟨rfl, rfl⟩)
      (hi.table_update hc rfl rfl (fun _ => ⟨rfl, rfl⟩)) (hok.keep rfl rfl rfl rfl (by simp))
  · -- the response is taken from `ch`
    refine hi.update hc rfl rfl (fun _ => id) (fun _ _ => id) rfl (fun _ => ⟨rfl, rfl⟩)
      (hi.table_update hc rfl rfl (fun _ => ⟨rfl, rfl⟩)) ⟨by simp, fun r hr => ?_⟩
    simp only [Option.some.injEq, or_false, reduceCtorEq, CallPc.unregister.injEq] at hr
    subst hr
    exact Lawful.responseReturn ((hok.1 m hm).2.mono (fun _ => id) rfl)
  · -- `<-s.shutdownCh`: `shutdownErr` is already `ErrStreamClosed`
    refine hi.update hc rfl rfl (fun _ => id) (fun _ _ => id) rfl (fun _ => ⟨rfl, rfl⟩)
      (hi.table_update hc rfl rfl (fun _ => ⟨by rcases hp with h | h <;> simp [h,
        CallPc.registered], rfl⟩)) (hok.keep rfl rfl rfl rfl fun r hr => ?_)
    simp only [or_false, reduceCtorEq, CallPc.unregister.injEq] at hr
    subst hr
    rw [(hsi.of_shutdownCh hch).2.1]
    exact hch
  · -- `<-ctx.Done()`
    refine hi.update hc rfl rfl (fun _ => id) (fun _ _ => id) rfl (fun _ => ⟨rfl, rfl⟩)
      (hi.table_update hc rfl rfl (fun _ => ⟨by rcases hp with h | h <;> simp [h,
        CallPc.registered], rfl⟩)) (hok.keep rfl rfl rfl rfl fun r hr => ?_)
    simp only [or_false, reduceCtorEq, CallPc.unregister.injEq] at hr
    subst hr
    exact he
  · -- the deferred `unregisterResponseHandler`
    refine hi.update hc rfl rfl (fun _ => id) (fun _ _ => id) rfl (fun _ => ⟨rfl, rfl⟩)
      (fun k j h => ?_) (hok.keep rfl rfl rfl rfl fun r' hr => ?_)
    · simp only [setCall_responseHandlers, setCall_calls, Function.update_apply] at h ⊢
      by_cases hk : k = c.id
      · simp [hk] at h
      · simp only [hk, if_false] at h
        obtain ⟨cj, hcj, hid, hreg⟩ := hi.table k j h
        have hij : i ≠ j := by rintro rfl; simp_all
        exact ⟨cj, by simp [List.getElem?_set_ne hij, hcj], hid, hreg⟩
    · simp only [reduceCtorEq, false_or, CallPc.returned.injEq] at hr
      subst hr
      exact (hok.2 r (.inl hp)).mono (fun _ => id) id rfl fun _ => id

theorem CallsInv.closeStep {g : Goroutine} {c : ClosePc} {k : Case} (hi : s.CallsInv)
    (h : s.closeStep g c k = some s') : s'.CallsInv :=
  let ⟨hc, ht, _, hrec, _, _, _, _, hch, _, hf, hs⟩ := closeStep_frame h
  hi.congr hc ht (by simp [hrec]) hch (fun m h => .inl (hf m h)) (fun i m h => .inl (hs i m h))

theorem CallsInv.stepReader {k : Case} (hi : s.CallsInv) (h : s.stepReader k = some s') :
    s'.CallsInv := by
  rcases stepReader_cases h with ⟨m, i, hm, hi', rfl⟩ | ⟨m, hm, -, rfl⟩ |
    ⟨i, m, c, hm, hc, hs, rfl⟩ | ⟨hm, rfl⟩ | ⟨c, hm, h⟩
  · -- `findResponseHandler` finds call `i`'s `ch`
    obtain ⟨c, hc, hid, hreg⟩ := hi.table _ _ hi'
    have ⟨hmr, hresp⟩ := hi.find m hm
    exact hi.congr rfl rfl (fun _ => id) id (by simp) (fun j m' h => .inr (by
      simp only [ReaderPc.send.injEq] at h
      obtain ⟨rfl, rfl⟩ := h
      exact ⟨c, hc, CallPc.allocated_of_registered hreg, hmr, hresp, hid.symm⟩))
  · exact hi.congr rfl rfl (fun _ => id) id (by simp) (by simp)
  · -- `ch <- m`
    obtain ⟨c₀, hc₀, ha, hd⟩ := hi.send i m hm
    obtain rfl : c = c₀ := Option.some.inj (hc.symm.trans hc₀)
    exact hi.update hc rfl rfl (by simp) (by simp) rfl (fun _ => ⟨ha, rfl⟩)
      (hi.table_update hc rfl rfl (fun h => ⟨h, rfl⟩))
      ⟨fun m' hm' => by cases hm'; exact ⟨ha, hd⟩,
        fun r hr => ((hi.calls i c hc).2 r hr).mono (fun _ => id) id rfl fun _ => id⟩
  · exact hi.congr rfl rfl (fun _ => id) id (by split <;> simp) (by split <;> simp)
  · exact hi.closeStep h

theorem CallsInv.step {a : Action} (hi : s.CallsInv) (hsi : s.ShutdownInv)
    (h : s.step a = some s') : s'.CallsInv := by
  obtain ⟨-, h⟩ := step_cases h
  rcases h with ⟨t, req, rfl⟩ | rfl | ⟨i, e, c, hc, hctx, rfl⟩ | ⟨f, -, h⟩ | ⟨i, k, h⟩ | ⟨k, h⟩ |
    ⟨k, h⟩ | ⟨i, k, h⟩ | ⟨i, c, k, -, h⟩ | ⟨g, hg, rfl⟩
  · -- a new `RPC` goroutine, at `Inc`
    have hold : ∀ {j c}, s.calls[j]? = some c → (s.calls ++ [⟨t, req, none, 0, none, .inc⟩])[j]? =
        some c := fun h => by rw [List.getElem?_append_left (List.getElem?_eq_some_iff.1 h).1, h]
    refine ⟨fun k j h => ?_, hi.find, fun j m h => ?_, fun j c h => ?_⟩
    · obtain ⟨c, hc, hid, hreg⟩ := hi.table k j h; exact ⟨c, hold hc, hid, hreg⟩
    · obtain ⟨c, hc, ha, hd⟩ := hi.send j m h; exact ⟨c, hold hc, ha, hd⟩
    · rcases List.getElem?_concat_eq_some h with ⟨-, rfl⟩ | h
      · exact ⟨by simp, by simp⟩
      · exact hi.calls j c h
  · exact hi.congr rfl rfl (fun _ => id) id (fun _ h => .inl h) (fun _ _ h => .inl h)
  · -- `ctx` is done
    exact hi.update hc rfl rfl (fun _ => id) (fun _ _ => id) rfl (fun h => ⟨h, rfl⟩)
      (hi.table_update hc rfl rfl (fun h => ⟨h, rfl⟩))
      ⟨fun m hm => (hi.calls i c hc).1 m hm,
        fun r hr => ((hi.calls i c hc).2 r hr).mono (fun _ => id) id rfl (by simp [hctx])⟩
  · obtain ⟨-, ⟨m, -, hresp, rfl⟩ | ⟨m, -, -, rfl⟩ | rfl⟩ := stepRead_cases h
    · exact hi.congr rfl rfl (fun _ => List.mem_append_left _) id
        (fun _ h => by cases h; exact .inr ⟨List.mem_concat_self _ _, hresp⟩) nofun
    · exact hi.congr rfl rfl (fun _ => List.mem_append_left _) id nofun nofun
    · exact hi.congr rfl rfl (fun _ => id) id nofun nofun
  · exact hi.stepCall hsi h
  · exact hi.stepReader h
  · rcases stepWriter_cases h with ⟨o, rest, -, -, rfl⟩ | ⟨-, -, rfl⟩ | ⟨o, -, rfl⟩ | ⟨o, -, rfl⟩ |
      ⟨c, -, h⟩
    all_goals first
      | exact hi.closeStep h
      | exact hi.congr rfl rfl (fun _ => id) id (fun _ h => .inl h) (fun _ _ h => .inl h)
  · obtain ⟨t, -, h⟩ := stepTask_cases h
    rcases h with ⟨-, -, rfl⟩ | ⟨-, f, resp, -, -, rfl⟩ | ⟨-, f, -, -, rfl⟩ | ⟨m, -, -, rfl⟩ |
      ⟨m, -, -, rfl⟩ <;>
      exact hi.congr rfl rfl (fun _ => id) id (fun _ h => .inl h) (fun _ _ h => .inl h)
  · exact hi.closeStep h
  · cases g
    case reader => exact hi.congr rfl rfl (fun _ => id) id (by simp [panicked]) (by simp [panicked])
    case writer =>
      exact hi.congr rfl rfl (fun _ => id) id (fun _ h => .inl h) (fun _ _ h => .inl h)
    all_goals simp [running] at hg

theorem newStream_callsInv (h : Handler) : (newStream h).CallsInv :=
  ⟨fun _ _ h => by simp [newStream] at h, nofun, nofun, fun _ _ h => by simp [newStream] at h⟩

theorem CallsInv.reachable {hd : Handler} (h : Reachable hd s) : s.CallsInv := by
  induction h with
  | init => exact newStream_callsInv hd
  | step a hr hs ih => exact ih.step (ShutdownInv.reachable hr) hs

/-- The outcome law: every `RPC` call that has returned returned the payload of a response frame
received with its ID, the not-supported error for such a frame, `ErrStreamClosed` after shutdown, or
`ctx.Err()` after its `ctx` was done. -/
theorem rpc_outcome_law {hd : Handler} (h : Reachable hd s) :
    ∀ (i : Nat) (c : Call) (r : Return), s.calls[i]? = some c → c.pc = .returned r → s.Lawful c r :=
  fun i c r hc hr => ((CallsInv.reachable h).calls i c hc).2 r (.inr hr)

/-- A call gets its response: it returns the payload of the frame, which is lawful. -/
theorem rpc_outcome_law_response :
    ∃ s, Reachable (fun _ => none) s ∧
      (∃ c, s.calls[0]? = some c ∧ c.pc = .returned ⟨some [7], none⟩) ∧
      ∀ (i : Nat) (c : Call) (r : Return), s.calls[i]? = some c → c.pc = .returned r →
        s.Lawful c r :=
  have hr := @Reachable.run (fun _ => none) _ _ .init
    [.rpc 0 [], .step (.call 0) .proceed, .step (.call 0) .proceed, .step (.call 0) .proceed,
      .read (.frame ⟨⟨0, 1, ⟨1⟩⟩, [7]⟩), .step .reader .proceed, .step .reader .proceed,
      .step (.call 0) .proceed, .step (.call 0) .proceed] rfl
  ⟨_, hr, by exact ⟨_, rfl, rfl⟩, rpc_outcome_law hr⟩

/-! ## A full `ch` blocks the reader -/

/-- The reader is blocked for good at `ch <- m` on call `i`'s `ch`: the one-element buffer is full,
and the call, which alone takes from it, has returned. -/
def ReaderStuck (s : Stream) (i : Nat) (m : Message) : Prop :=
  s.reader = .send i m ∧ ∃ c r q, s.calls[i]? = some c ∧ c.slot = some q ∧ c.pc = .returned r

/-- No step frees a stuck reader: the call has no step left but a `ctx` cancellation, and the
reader's own step needs room in `ch`. -/
theorem ReaderStuck.step {i : Nat} {m : Message} {a : Action} (h : s.ReaderStuck i m)
    (hs : s.step a = some s') : s'.ReaderStuck i m := by
  obtain ⟨hr, c, r, q, hc, hq, hp⟩ := h
  have hlen := (List.getElem?_eq_some_iff.1 hc).1
  obtain ⟨-, hs⟩ := step_cases hs
  rcases hs with ⟨t, req, rfl⟩ | rfl | ⟨j, e, c', hc', -, rfl⟩ | ⟨f, -, h⟩ | ⟨j, k, h⟩ | ⟨k, h⟩ |
    ⟨k, h⟩ | ⟨j, k, h⟩ | ⟨j, c', k, -, h⟩ | ⟨g, hg, rfl⟩
  · exact ⟨hr, c, r, q, by simp [List.getElem?_append_left hlen, hc], hq, hp⟩
  · exact ⟨hr, c, r, q, hc, hq, hp⟩
  · refine ⟨hr, ?_⟩
    by_cases hij : j = i
    · subst hij
      obtain rfl : c = c' := Option.some.inj (hc.symm.trans hc')
      exact ⟨{ c with ctx := some e }, r, q, by simp [hlen], hq, hp⟩
    · exact ⟨c, r, q, by simp [List.getElem?_set_ne hij, hc], hq, hp⟩
  · simp [(stepRead_cases h).1] at hr
  · obtain ⟨c', hc', h⟩ := stepCall_cases h
    by_cases hij : j = i
    · subst hij
      obtain rfl : c = c' := Option.some.inj (hc.symm.trans hc')
      rcases h with ⟨h, -⟩ | ⟨h, -⟩ | ⟨h, -⟩ | ⟨h, -⟩ | ⟨h | h, -⟩ | ⟨h | h, -⟩ | ⟨r', h, -⟩ <;>
        simp [hp] at h
    · refine ⟨?_, c, r, q, ?_, hq, hp⟩ <;>
        rcases h with ⟨-, rfl⟩ | ⟨-, rfl⟩ | ⟨-, -, rfl⟩ | ⟨-, _, -, rfl⟩ | ⟨-, -, rfl⟩ |
          ⟨-, _, -, rfl⟩ | ⟨_, -, rfl⟩ <;> simp [hr, List.getElem?_set_ne hij, hc]
  · rcases stepReader_cases h with ⟨m', i', h', -⟩ | ⟨m', h', -⟩ | ⟨i', m', c', h', hc', hs', -⟩ |
      ⟨h', -⟩ | ⟨c', h', -⟩ <;> simp only [hr, reduceCtorEq, ReaderPc.send.injEq] at h'
    obtain ⟨rfl, rfl⟩ := h'
    obtain rfl : c = c' := Option.some.inj (hc.symm.trans hc')
    simp [hq] at hs'
  · rcases stepWriter_cases h with ⟨o, rest, -, -, rfl⟩ | ⟨-, -, rfl⟩ | ⟨o, -, rfl⟩ | ⟨o, -, rfl⟩ |
      ⟨c', -, h⟩
    all_goals first
      | exact ⟨hr, c, r, q, hc, hq, hp⟩
      | (obtain ⟨hcs, -, -, -, -, -, -, -, -, hrd, -⟩ := closeStep_frame h
         exact ⟨(hrd nofun).trans hr, c, r, q, hcs ▸ hc, hq, hp⟩)
  · obtain ⟨t, -, h⟩ := stepTask_cases h
    rcases h with ⟨-, -, rfl⟩ | ⟨-, f, resp, -, -, rfl⟩ | ⟨-, f, -, -, rfl⟩ | ⟨m, -, -, rfl⟩ |
      ⟨m, -, -, rfl⟩ <;> exact ⟨hr, c, r, q, hc, hq, hp⟩
  · obtain ⟨hcs, -, -, -, -, -, -, -, -, hrd, -⟩ := closeStep_frame h
    exact ⟨(hrd nofun).trans hr, c, r, q, hcs ▸ hc, hq, hp⟩
  · cases g <;> simp [running, hr, ReaderPc.running] at hg
    exact ⟨hr, c, r, q, hc, hq, hp⟩

theorem ReaderStuck.run {i : Nat} {m : Message} {as : List Action} :
    ∀ {s s' : Stream}, s.ReaderStuck i m → s.run as = some s' → s'.ReaderStuck i m := by
  induction as with
  | nil => intro s s' h e; cases e; exact h
  | cons a as ih =>
    intro s s' h e
    simp only [Stream.run, Option.bind_eq_some] at e
    obtain ⟨s₁, h₁, e⟩ := e
    exact ih (h.step h₁) e

end Stream

/-- A response frame arrives twice for a call that is waiting on its response: the reader puts the
first in the call's `ch` and, finding the call still registered, blocks sending the second. The
call's `ctx` is then cancelled and the call returns without draining `ch`: from then on the reader
never reaches `ReadMessage` again, whatever happens. -/
theorem reader_blocks_forever :
    ∃ s, (newStream fun _ => none).run
        [.rpc 0 [], .step (.call 0) .proceed, .step (.call 0) .proceed, .step (.call 0) .proceed,
          .read (.frame ⟨⟨0, 1, ⟨1⟩⟩, []⟩), .step .reader .proceed, .step .reader .proceed,
          .step .reader .proceed, .read (.frame ⟨⟨0, 1, ⟨1⟩⟩, []⟩), .step .reader .proceed,
          .cancel 0 .canceled, .step (.call 0) .done, .step (.call 0) .proceed] = some s ∧
      s.ReaderStuck 0 ⟨⟨0, 1, ⟨1⟩⟩, []⟩ ∧
      ∀ (as : List Stream.Action) (s' : Stream), s.run as = some s' → s'.reader = .send 0 ⟨⟨0, 1, ⟨1⟩⟩, []⟩ := by
  refine ⟨_, rfl, ?_⟩
  exact (fun h => ⟨h, fun _ _ e => (h.run e).1⟩) ⟨rfl, _, _, _, rfl, rfl, rfl⟩

end Piko.Rpc

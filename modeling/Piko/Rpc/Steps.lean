import Piko.Rpc.Stream

/-! # What a stream step can do

One inversion lemma per step function of `Piko.Rpc.Stream`: from `f s … = some s'` it reads off
which branch of the code ran, under which guard, and the state it produced. Invariants are proved
from these lemmas and never unfold the step functions again.

* `panicked_eq` gives the pattern-matched setter `panicked` as a record update, for `simp` to read
  every field of its result.
* `step_cases` lists the transitions of `step`: a new `RPC` or `Close` goroutine, a cancelled
  `ctx`, a read, one goroutine's step, or a reader or writer panic.
-/

namespace Piko.Rpc
set_option autoImplicit false

/-! ## Reading a list after one update -/

theorem List.getElem?_set_eq_some {α : Type} {l : List α} {i j : Nat} {a x : α}
    (h : (l.set i a)[j]? = some x) : (i = j ∧ x = a) ∨ (i ≠ j ∧ l[j]? = some x) := by
  rw [List.getElem?_set] at h
  by_cases h₁ : i = j
  · simp only [h₁, if_true, Option.ite_none_right_eq_some, Option.some.injEq] at h
    exact .inl ⟨h₁, h.2.symm⟩
  · simp only [h₁, if_false] at h
    exact .inr ⟨h₁, h⟩

theorem List.getElem?_concat_eq_some {α : Type} {l : List α} {j : Nat} {a x : α}
    (h : (l ++ [a])[j]? = some x) : (j = l.length ∧ x = a) ∨ l[j]? = some x := by
  rw [List.getElem?_append] at h
  split_ifs at h with h₁
  · exact .inr h
  · rw [List.getElem?_cons] at h
    split_ifs at h with h₂
    · exact .inl ⟨by omega, (Option.some.inj h).symm⟩
    · simp at h

namespace Stream

variable {s s' : Stream}

/-! ## `panicked` as a record update -/

theorem panicked_eq (s : Stream) (g : Goroutine) :
    s.panicked g = { s with
      reader := if g = .reader then .closing .cas else s.reader
      writer := if g = .writer then .closing .cas else s.writer
      crashed := if g = .reader ∨ g = .writer then s.crashed else true } := by
  cases g <;> rfl

/-! ## One inversion lemma per step function -/

theorem closeStep_cases {g : Goroutine} {c : ClosePc} {k : Case}
    (h : s.closeStep g c k = some s') :
    (c = .cas ∧ s.shutdown = true ∧ s' = s.setClosePc g (.ret (some .streamClosed))) ∨
    (c = .cas ∧ s.shutdown = false ∧ s' = { s with shutdown := true }.setClosePc g .setErr) ∨
    (c = .setErr ∧ s' = { s with shutdownErr := some .streamClosed }.setClosePc g .closeCh) ∨
    (c = .closeCh ∧ s.shutdownCh = true ∧ s' = s.panicked g) ∨
    (c = .closeCh ∧ s.shutdownCh = false ∧ s' = { s with
      shutdownCh := true, shutdownCloses := s.shutdownCloses + 1 }.setClosePc g .closeConn) ∨
    (c = .closeConn ∧ ∃ e, s' = { s with connCloses := s.connCloses + 1 }.setClosePc g (.ret e)) := by
  cases c <;> simp only [closeStep] at h
  case cas =>
    cases hs : s.shutdown <;> simp only [hs, Option.some.injEq, Bool.false_eq_true, ↓reduceIte] at h
    · exact .inr (.inl ⟨rfl, rfl, h.symm⟩)
    · exact .inl ⟨rfl, rfl, h.symm⟩
  case setErr => exact .inr (.inr (.inl ⟨rfl, (Option.some.inj h).symm⟩))
  case closeCh =>
    cases hs : s.shutdownCh <;>
      simp only [hs, Option.some.injEq, Bool.false_eq_true, ↓reduceIte] at h
    · exact .inr (.inr (.inr (.inr (.inl ⟨rfl, rfl, h.symm⟩))))
    · exact .inr (.inr (.inr (.inl ⟨rfl, rfl, h.symm⟩)))
  case closeConn => exact .inr (.inr (.inr (.inr (.inr ⟨rfl, _, (Option.some.inj h).symm⟩))))
  case ret => cases h

theorem stepCall_cases {i : Nat} {k : Case} (h : s.stepCall i k = some s') :
    ∃ c, s.calls[i]? = some c ∧ (
    (c.pc = .inc ∧ s' = { s with nextMessageID := s.nextMessageID + 1 }.setCall i
      { c with id := s.nextMessageID + 1, pc := .register }) ∨
    (c.pc = .register ∧ s' = { s with
      responseHandlers := Function.update s.responseHandlers c.id (some i) }.setCall i
      { c with pc := .send }) ∨
    (c.pc = .send ∧ s.writeCh.length < writeChCap ∧ s' = { s with
      writeCh := s.writeCh ++ [(⟨request c.rpcType c.id c.req, .call i⟩ : Out)] }.setCall i
      { c with pc := .await }) ∨
    (c.pc = .await ∧ ∃ m, c.slot = some m ∧
      s' = s.setCall i { c with slot := none, pc := .unregister (responseReturn m) }) ∨
    ((c.pc = .send ∨ c.pc = .await) ∧ s.shutdownCh = true ∧
      s' = s.setCall i { c with pc := .unregister ⟨none, s.shutdownErr⟩ }) ∨
    ((c.pc = .send ∨ c.pc = .await) ∧ ∃ e, c.ctx = some e ∧
      s' = s.setCall i { c with pc := .unregister ⟨none, some (.ctx e)⟩ }) ∨
    (∃ r, c.pc = .unregister r ∧ s' = { s with
      responseHandlers := Function.update s.responseHandlers c.id none }.setCall i
      { c with pc := .returned r })) := by
  simp only [stepCall, Option.bind_eq_bind, Option.bind_eq_some] at h
  obtain ⟨c, hc, h⟩ := h
  refine ⟨c, hc, ?_⟩
  cases hpc : c.pc with
  | inc => simp only [hpc, Option.some.injEq] at h; exact .inl ⟨rfl, h.symm⟩
  | register => simp only [hpc, Option.some.injEq] at h; exact .inr (.inl ⟨rfl, h.symm⟩)
  | send =>
    cases k <;> simp only [hpc, Option.some.injEq, Option.ite_none_right_eq_some,
      Option.map_eq_some', reduceCtorEq] at h
    · exact .inr (.inr (.inl ⟨rfl, h.1, h.2.symm⟩))
    · exact .inr (.inr (.inr (.inr (.inl ⟨.inl rfl, h.1, h.2.symm⟩))))
    · obtain ⟨e, he, rfl⟩ := h
      exact .inr (.inr (.inr (.inr (.inr (.inl ⟨.inl rfl, e, he, rfl⟩)))))
  | await =>
    cases k <;> simp only [hpc, Option.some.injEq, Option.ite_none_right_eq_some,
      Option.map_eq_some', reduceCtorEq] at h
    · obtain ⟨m, hm, rfl⟩ := h; exact .inr (.inr (.inr (.inl ⟨rfl, m, hm, rfl⟩)))
    · exact .inr (.inr (.inr (.inr (.inl ⟨.inr rfl, h.1, h.2.symm⟩))))
    · obtain ⟨e, he, rfl⟩ := h
      exact .inr (.inr (.inr (.inr (.inr (.inl ⟨.inr rfl, e, he, rfl⟩)))))
  | unregister r =>
    simp only [hpc, Option.some.injEq] at h
    exact .inr (.inr (.inr (.inr (.inr (.inr ⟨_, rfl, h.symm⟩)))))
  | returned r => simp only [hpc, reduceCtorEq] at h

theorem stepRead_cases {f : Incoming} (h : s.stepRead f = some s') :
    s.reader = .read ∧ (
    (∃ m, f = .frame m ∧ m.header.flags.response = true ∧
      s' = { s with received := s.received ++ [m], reader := .find m }) ∨
    (∃ m, f = .frame m ∧ m.header.flags.response = false ∧
      s' = { s with received := s.received ++ [m], reader := .check,
                    tasks := s.tasks ++ [⟨m, s.received.length, .find⟩] }) ∨
    s' = { s with reader := .closing .cas }) := by
  cases hr : s.reader <;> cases f <;> simp only [stepRead, hr, Option.some.injEq, reduceCtorEq] at h
  case read.frame m =>
    split at h <;> rename_i hm <;> simp only [Option.some.injEq] at h
    · exact ⟨rfl, .inl ⟨m, rfl, hm, h.symm⟩⟩
    · exact ⟨rfl, .inr (.inl ⟨m, rfl, by simpa using hm, h.symm⟩)⟩
  all_goals exact ⟨rfl, .inr (.inr h.symm)⟩

theorem stepReader_cases {k : Case} (h : s.stepReader k = some s') :
    (∃ m i, s.reader = .find m ∧ s.responseHandlers m.header.id = some i ∧
      s' = { s with reader := .send i m }) ∨
    (∃ m, s.reader = .find m ∧ s.responseHandlers m.header.id = none ∧
      s' = { s with reader := .check }) ∨
    (∃ i m c, s.reader = .send i m ∧ s.calls[i]? = some c ∧ c.slot = none ∧
      s' = { s with reader := .check }.setCall i { c with slot := some m }) ∨
    (s.reader = .check ∧ s' = { s with reader := if s.shutdownCh then .exited else .read }) ∨
    (∃ c, s.reader = .closing c ∧ s.closeStep .reader c k = some s') := by
  cases hr : s.reader with
  | find m =>
    simp only [stepReader, hr] at h
    cases hi : s.responseHandlers m.header.id <;> simp only [hi, Option.some.injEq] at h
    · exact .inr (.inl ⟨m, rfl, hi, h.symm⟩)
    · exact .inl ⟨m, _, rfl, hi, h.symm⟩
  | send i m =>
    simp only [stepReader, hr, Option.bind_eq_bind, Option.bind_eq_some,
      Option.ite_none_left_eq_some, Option.not_isSome_iff_eq_none, Option.some.injEq] at h
    obtain ⟨c, hc, hs, rfl⟩ := h
    exact .inr (.inr (.inl ⟨i, m, c, rfl, hc, hs, rfl⟩))
  | check =>
    simp only [stepReader, hr, Option.some.injEq] at h
    exact .inr (.inr (.inr (.inl ⟨rfl, h.symm⟩)))
  | closing c => exact .inr (.inr (.inr (.inr ⟨c, rfl, by simpa only [stepReader, hr] using h⟩)))
  | read | exited => simp only [stepReader, hr, reduceCtorEq] at h

theorem stepWriter_cases {k : Case} (h : s.stepWriter k = some s') :
    (∃ o rest, s.writer = .select ∧ s.writeCh = o :: rest ∧
      s' = { s with writeCh := rest, writer := .write o }) ∨
    (s.writer = .select ∧ s.shutdownCh = true ∧ s' = { s with writer := .exited }) ∨
    (∃ o, s.writer = .write o ∧ s' = { s with written := s.written ++ [o], writer := .select }) ∨
    (∃ o, s.writer = .write o ∧ s' = { s with writer := .closing .cas }) ∨
    (∃ c, s.writer = .closing c ∧ s.closeStep .writer c k = some s') := by
  cases hw : s.writer with
  | select =>
    cases k <;> simp only [stepWriter, hw, Option.ite_none_right_eq_some, Option.some.injEq,
      reduceCtorEq] at h
    · cases hc : s.writeCh <;> simp only [hc, Option.some.injEq, reduceCtorEq] at h
      exact .inl ⟨_, _, rfl, rfl, h.symm⟩
    · exact .inr (.inl ⟨rfl, h.1, h.2.symm⟩)
  | write o =>
    cases k <;> simp only [stepWriter, hw, Option.some.injEq, reduceCtorEq] at h
    · exact .inr (.inr (.inl ⟨o, rfl, h.symm⟩))
    · exact .inr (.inr (.inr (.inl ⟨o, rfl, h.symm⟩)))
  | closing c => exact .inr (.inr (.inr (.inr ⟨c, rfl, by simpa only [stepWriter, hw] using h⟩)))
  | exited => cases k <;> simp only [stepWriter, hw, reduceCtorEq] at h

theorem stepTask_cases {i : Nat} {k : Case} (h : s.stepTask i k = some s') :
    ∃ t, s.tasks[i]? = some t ∧ (
    (t.pc = .find ∧ s.handler t.msg.header.rpcType = none ∧
      s' = s.setTask i { t with pc := .respond (notSupported t.msg) }) ∨
    (t.pc = .find ∧ ∃ f resp, s.handler t.msg.header.rpcType = some f ∧
      f t.msg.payload = .returns resp ∧ s' = { s with runs := s.runs ++ [t.src] }.setTask i
        { t with pc := .respond (response t.msg resp) }) ∨
    (t.pc = .find ∧ ∃ f, s.handler t.msg.header.rpcType = some f ∧ f t.msg.payload = .panics ∧
      s' = { s with runs := s.runs ++ [t.src] }.panicked (.task i)) ∨
    (∃ m, t.pc = .respond m ∧ s.writeCh.length < writeChCap ∧
      s' = { s with writeCh := s.writeCh ++ [(⟨m, .task t.src⟩ : Out)] }.setTask i
        { t with pc := .exited }) ∨
    (∃ m, t.pc = .respond m ∧ s.shutdownCh = true ∧ s' = s.setTask i { t with pc := .exited })) := by
  simp only [stepTask, Option.bind_eq_bind, Option.bind_eq_some] at h
  obtain ⟨t, ht, h⟩ := h
  refine ⟨t, ht, ?_⟩
  cases hpc : t.pc with
  | find =>
    simp only [hpc] at h
    cases hh : s.handler t.msg.header.rpcType with
    | none =>
      simp only [hh, Option.some.injEq] at h
      exact .inl ⟨rfl, rfl, h.symm⟩
    | some f =>
      cases hf : f t.msg.payload <;> simp only [hh, hf, Option.some.injEq] at h
      · exact .inr (.inl ⟨rfl, f, _, rfl, hf, h.symm⟩)
      · exact .inr (.inr (.inl ⟨rfl, f, rfl, hf, h.symm⟩))
  | respond m =>
    cases k <;> simp only [hpc, Option.ite_none_right_eq_some, Option.some.injEq, reduceCtorEq] at h
    · exact .inr (.inr (.inr (.inl ⟨m, rfl, h.1, h.2.symm⟩)))
    · exact .inr (.inr (.inr (.inr ⟨m, rfl, h.1, h.2.symm⟩)))
  | exited => cases k <;> simp only [hpc, reduceCtorEq] at h

/-- The transitions of the system. -/
theorem step_cases {a : Action} (h : s.step a = some s') : s.crashed = false ∧ (
    (∃ t req, s' = { s with calls := s.calls ++ [⟨t, req, none, 0, none, .inc⟩] }) ∨
    s' = { s with closers := s.closers ++ [.cas] } ∨
    (∃ i e c, s.calls[i]? = some c ∧ c.ctx = none ∧ s' = s.setCall i { c with ctx := some e }) ∨
    (∃ f, a = .read f ∧ s.stepRead f = some s') ∨
    (∃ i k, s.stepCall i k = some s') ∨
    (∃ k, s.stepReader k = some s') ∨
    (∃ k, s.stepWriter k = some s') ∨
    (∃ i k, s.stepTask i k = some s') ∨
    (∃ i c k, s.closers[i]? = some c ∧ s.closeStep (.closer i) c k = some s') ∨
    (∃ g, s.running g = true ∧ s' = s.panicked g)) := by
  unfold step at h
  split at h
  · cases h
  rename_i hc
  refine ⟨by simpa using hc, ?_⟩
  cases a with
  | rpc t req => cases h; exact .inl ⟨t, req, rfl⟩
  | close => cases h; exact .inr (.inl rfl)
  | cancel i e =>
    simp only [Option.bind_eq_bind, Option.bind_eq_some, Option.ite_none_left_eq_some,
      Option.not_isSome_iff_eq_none, Option.some.injEq] at h
    obtain ⟨c, hc, hctx, rfl⟩ := h
    exact .inr (.inr (.inl ⟨i, e, c, hc, hctx, rfl⟩))
  | read f => exact .inr (.inr (.inr (.inl ⟨f, rfl, h⟩)))
  | step g k =>
    cases g with
    | call i => exact .inr (.inr (.inr (.inr (.inl ⟨i, k, h⟩))))
    | reader => exact .inr (.inr (.inr (.inr (.inr (.inl ⟨k, h⟩)))))
    | writer => exact .inr (.inr (.inr (.inr (.inr (.inr (.inl ⟨k, h⟩))))))
    | task i => exact .inr (.inr (.inr (.inr (.inr (.inr (.inr (.inl ⟨i, k, h⟩)))))))
    | closer i =>
      simp only [Option.bind_eq_bind, Option.bind_eq_some] at h
      obtain ⟨c, hc, h⟩ := h
      exact .inr (.inr (.inr (.inr (.inr (.inr (.inr (.inr (.inl ⟨i, c, k, hc, h⟩))))))))
  | panic g =>
    simp only [Option.ite_none_right_eq_some, Option.some.injEq] at h
    obtain ⟨hg, rfl⟩ := h
    exact .inr (.inr (.inr (.inr (.inr (.inr (.inr (.inr (.inr ⟨g, hg, rfl⟩))))))))

/-! ## What `closeStream` leaves alone -/

@[simp] theorem ClosePc.readerPc_ne_find (c : ClosePc) (m : Message) : c.readerPc ≠ .find m := by
  cases c <;> simp [ClosePc.readerPc]

@[simp] theorem ClosePc.readerPc_ne_send (c : ClosePc) (i : Nat) (m : Message) :
    c.readerPc ≠ .send i m := by
  cases c <;> simp [ClosePc.readerPc]

theorem closeStep_frame {g : Goroutine} {c : ClosePc} {k : Case}
    (h : s.closeStep g c k = some s') :
    s'.calls = s.calls ∧ s'.responseHandlers = s.responseHandlers ∧
      s'.nextMessageID = s.nextMessageID ∧ s'.received = s.received ∧ s'.tasks = s.tasks ∧
      s'.writeCh = s.writeCh ∧ s'.written = s.written ∧ s'.runs = s.runs ∧
      (s.shutdownCh = true → s'.shutdownCh = true) ∧
      (g ≠ .reader → s'.reader = s.reader) ∧
      (∀ m, s'.reader = .find m → s.reader = .find m) ∧
      (∀ i m, s'.reader = .send i m → s.reader = .send i m) := by
  rcases closeStep_cases h with ⟨-, -, rfl⟩ | ⟨-, -, rfl⟩ | ⟨-, rfl⟩ | ⟨-, -, rfl⟩ | ⟨-, -, rfl⟩ |
    ⟨-, e, rfl⟩
  all_goals (try rw [panicked_eq])
  all_goals refine ⟨rfl, rfl, rfl, rfl, rfl, rfl, rfl, rfl, fun h => by simp [h],
    fun hg => by simp [hg], fun m h => ?_, fun i m h => ?_⟩ <;>
    simp only [setClosePc_reader] at h <;> split_ifs at h <;> simp_all

/-! ## What every step leaves alone or only extends -/

theorem closeStep_handler {g : Goroutine} {c : ClosePc} {k : Case}
    (h : s.closeStep g c k = some s') : s'.handler = s.handler := by
  rcases closeStep_cases h with ⟨-, -, rfl⟩ | ⟨-, -, rfl⟩ | ⟨-, rfl⟩ | ⟨-, -, rfl⟩ | ⟨-, -, rfl⟩ |
    ⟨-, e, rfl⟩
  all_goals first | rfl | simp [panicked_eq]

theorem closeStep_frame_step {g : Goroutine} {c : ClosePc} {k : Case} {a : Action}
    (h : s.closeStep g c k = some s') :
    s'.handler = s.handler ∧ s.calls.length ≤ s'.calls.length ∧ s.written <+: s'.written ∧
    (s'.received = s.received ∨ ∃ m, a = .read (.frame m) ∧ s'.received = s.received ++ [m]) := by
  obtain ⟨hc, -, -, hr, -, -, hw, -⟩ := closeStep_frame h
  exact ⟨closeStep_handler h, hc ▸ le_rfl, hw ▸ List.prefix_refl _, .inl hr⟩

/-- Every step keeps the handler, only adds calls, only appends to `written`, and appends to
`received` only the frame it reads. -/
theorem step_frame {a : Action} (h : s.step a = some s') :
    s'.handler = s.handler ∧ s.calls.length ≤ s'.calls.length ∧ s.written <+: s'.written ∧
    (s'.received = s.received ∨ ∃ m, a = .read (.frame m) ∧ s'.received = s.received ++ [m]) := by
  rcases (step_cases h).2 with ⟨t, req, rfl⟩ | rfl | ⟨i, e, c, -, -, rfl⟩ | ⟨f, rfl, hr⟩ |
    ⟨i, k, h⟩ | ⟨k, h⟩ | ⟨k, h⟩ | ⟨i, k, h⟩ | ⟨i, c, k, -, h⟩ | ⟨g, -, rfl⟩
  · exact ⟨rfl, (List.sublist_append_left _ _).length_le, List.prefix_refl _, .inl rfl⟩
  · exact ⟨rfl, le_rfl, List.prefix_refl _, .inl rfl⟩
  · exact ⟨rfl, (List.length_set ..).ge, List.prefix_refl _, .inl rfl⟩
  · obtain ⟨-, ⟨m, rfl, -, rfl⟩ | ⟨m, rfl, -, rfl⟩ | rfl⟩ := stepRead_cases hr
    · exact ⟨rfl, le_rfl, List.prefix_refl _, .inr ⟨m, rfl, rfl⟩⟩
    · exact ⟨rfl, le_rfl, List.prefix_refl _, .inr ⟨m, rfl, rfl⟩⟩
    · exact ⟨rfl, le_rfl, List.prefix_refl _, .inl rfl⟩
  · obtain ⟨c, -, h⟩ := stepCall_cases h
    rcases h with ⟨-, rfl⟩ | ⟨-, rfl⟩ | ⟨-, -, rfl⟩ | ⟨-, m, -, rfl⟩ | ⟨-, -, rfl⟩ | ⟨-, e, -, rfl⟩ |
      ⟨r, -, rfl⟩ <;> exact ⟨rfl, (List.length_set ..).ge, List.prefix_refl _, .inl rfl⟩
  · rcases stepReader_cases h with ⟨m, i, -, -, rfl⟩ | ⟨m, -, -, rfl⟩ | ⟨i, m, c, -, -, -, rfl⟩ |
      ⟨-, rfl⟩ | ⟨c, -, h⟩
    all_goals first
      | exact ⟨rfl, le_rfl, List.prefix_refl _, .inl rfl⟩
      | exact ⟨rfl, (List.length_set ..).ge, List.prefix_refl _, .inl rfl⟩
      | exact closeStep_frame_step h
  · rcases stepWriter_cases h with ⟨o, rest, -, -, rfl⟩ | ⟨-, -, rfl⟩ | ⟨o, -, rfl⟩ | ⟨o, -, rfl⟩ |
      ⟨c, -, h⟩
    all_goals first
      | exact ⟨rfl, le_rfl, List.prefix_refl _, .inl rfl⟩
      | exact ⟨rfl, le_rfl, List.prefix_append _ _, .inl rfl⟩
      | exact closeStep_frame_step h
  · obtain ⟨t, -, h⟩ := stepTask_cases h
    rcases h with ⟨-, -, rfl⟩ | ⟨-, f, resp, -, -, rfl⟩ | ⟨-, f, -, -, rfl⟩ | ⟨m, -, -, rfl⟩ |
      ⟨m, -, -, rfl⟩ <;> exact ⟨rfl, le_rfl, List.prefix_refl _, .inl rfl⟩
  · exact closeStep_frame_step h
  · rw [panicked_eq]
    exact ⟨rfl, le_rfl, List.prefix_refl _, .inl rfl⟩

theorem step_handler {a : Action} (h : s.step a = some s') : s'.handler = s.handler :=
  (step_frame h).1

theorem Reachable.handler {hd : Handler} (h : Reachable hd s) : s.handler = hd := by
  induction h with
  | init => rfl
  | step a _ hs ih => rw [step_handler hs, ih]

theorem step_calls_length {a : Action} (h : s.step a = some s') :
    s.calls.length ≤ s'.calls.length :=
  (step_frame h).2.1

theorem step_written {a : Action} (h : s.step a = some s') : s.written <+: s'.written :=
  (step_frame h).2.2.1

theorem step_received {a : Action} (h : s.step a = some s') :
    s'.received = s.received ∨ ∃ m, a = .read (.frame m) ∧ s'.received = s.received ++ [m] :=
  (step_frame h).2.2.2

end Stream

end Piko.Rpc

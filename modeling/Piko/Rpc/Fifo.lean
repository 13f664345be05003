import Piko.Rpc.Wire

/-! # The order of writes

The writer is the only goroutine that writes to the connection, and it takes the messages off
`writeCh` in the order they were put there, so a stream writes first-in first-out. The one
exception is a failed write, or a panic of the writer while it holds a message: that message is
lost, and the writer never writes again.

* `enqueued s s'`: what a step put on `writeCh`; `sentLog s as`: what the run `as` put there.
* `Fifo s log`: of the messages `log` put on `writeCh`, in order, `s` has written a prefix, lost at
  most one more, and holds or has queued the rest (`writes_fifo`).
-/

namespace Piko.Rpc
set_option autoImplicit false

namespace Stream

variable {s s' : Stream}

/-- What a step from `s` to `s'` put on `writeCh`: every step appends to `writeCh`, takes its head,
or leaves it alone, so this is what it appended. -/
def enqueued (s s' : Stream) : List Out := s'.writeCh.drop s.writeCh.length

/-- The messages the run `as` puts on `writeCh`, in order (ghost). -/
def sentLog (s : Stream) : List Action → List Out
  | [] => []
  | a :: as =>
    match s.step a with
    | some s' => enqueued s s' ++ s'.sentLog as
    | none => []

/-- `log` is what was put on `writeCh`: `s` wrote a prefix of it in order, lost at most one
message, only once the writer had stopped, and holds or has queued the rest in order. -/
def Fifo (s : Stream) (log : List Out) : Prop :=
  ∃ d : List Out, d.length ≤ 1 ∧ (d ≠ [] → s.writer.running = false) ∧
    log = s.written ++ d ++ s.writer.holding ++ s.writeCh

theorem newStream_fifo (h : Handler) : (newStream h).Fifo [] :=
  ⟨[], by simp, nofun, rfl⟩

theorem enqueued_of_writeCh (h : s'.writeCh = s.writeCh) : enqueued s s' = [] := by
  simp [enqueued, h]

theorem closeStep_writer {g : Goroutine} {c : ClosePc} {k : Case} (h : s.closeStep g c k = some s')
    (hg : g ≠ .writer) : s'.writer = s.writer := by
  rcases closeStep_cases h with ⟨-, -, rfl⟩ | ⟨-, -, rfl⟩ | ⟨-, rfl⟩ | ⟨-, -, rfl⟩ | ⟨-, -, rfl⟩ |
    ⟨-, e, rfl⟩ <;> simp [panicked_eq, hg]

theorem Fifo.congr {log : List Out} (hi : s.Fifo log) (hw : s'.written = s.written)
    (hh : s'.writer.holding = s.writer.holding) (hc : s'.writeCh = s.writeCh)
    (hr : s.writer.running = false → s'.writer.running = false) :
    s'.Fifo (log ++ enqueued s s') := by
  obtain ⟨d, hd, hdr, rfl⟩ := hi
  exact ⟨d, hd, fun h => hr (hdr h), by rw [enqueued_of_writeCh hc, List.append_nil, hw, hh, hc]⟩

theorem Fifo.same {log : List Out} (hi : s.Fifo log) (hw : s'.written = s.written)
    (hwr : s'.writer = s.writer) (hc : s'.writeCh = s.writeCh) : s'.Fifo (log ++ enqueued s s') :=
  hi.congr hw (by rw [hwr]) hc (by rw [hwr]; exact id)

theorem Fifo.enqueue {log : List Out} (hi : s.Fifo log) {o : Out} (hw : s'.written = s.written)
    (hwr : s'.writer = s.writer) (hc : s'.writeCh = s.writeCh ++ [o]) :
    s'.Fifo (log ++ enqueued s s') := by
  obtain ⟨d, hd, hdr, rfl⟩ := hi
  refine ⟨d, hd, fun h => hwr ▸ hdr h, ?_⟩
  simp [enqueued, hw, hwr, hc]

theorem Fifo.eq_of_running {log : List Out} (hi : s.Fifo log) (hrun : s.writer.running = true) :
    log = s.written ++ s.writer.holding ++ s.writeCh := by
  obtain ⟨d, -, hdr, rfl⟩ := hi
  obtain rfl : d = [] := by
    by_contra hne
    simp [hdr hne] at hrun
  rw [List.append_nil]

theorem Fifo.drop {log : List Out} (hi : s.Fifo log) (hrun : s.writer.running = true)
    (hw : s'.written = s.written) (hc : s'.writeCh = s.writeCh)
    (hr : s'.writer.running = false) (hh : s'.writer.holding = []) :
    s'.Fifo (log ++ enqueued s s') := by
  refine ⟨s.writer.holding, ?_, fun _ => hr, ?_⟩
  · cases s.writer <;> simp [WriterPc.holding]
  · simp [hi.eq_of_running hrun, enqueued_of_writeCh hc, hw, hh, hc]

theorem Fifo.stepWriter {log : List Out} {k : Case} (hi : s.Fifo log)
    (h : s.stepWriter k = some s') : s'.Fifo (log ++ enqueued s s') := by
  rcases stepWriter_cases h with ⟨o, rest, hw, hc, rfl⟩ | ⟨hw, -, rfl⟩ | ⟨o, hw, rfl⟩ |
    ⟨o, hw, rfl⟩ | ⟨c, hw, h⟩
  · -- the writer takes the head of `writeCh`
    exact ⟨[], by simp, nofun, by simp [hi.eq_of_running (by simp [hw, WriterPc.running]), enqueued,
      hw, hc, WriterPc.holding]⟩
  · exact hi.congr rfl (by simp [hw, WriterPc.holding]) rfl (fun _ => rfl)
  · -- the write succeeds
    exact ⟨[], by simp, nofun, by simp [hi.eq_of_running (by simp [hw, WriterPc.running]), enqueued,
      hw, WriterPc.holding]⟩
  · exact hi.drop (by simp [hw, WriterPc.running]) rfl rfl rfl rfl
  · obtain ⟨-, -, -, -, -, hc, hwr, -⟩ := closeStep_frame h
    exact hi.congr hwr (by rw [closeStep_holding h fun _ => by simp [hw]])
      hc fun _ => by rcases closeStep_cases h with ⟨-, -, rfl⟩ | ⟨-, -, rfl⟩ | ⟨-, rfl⟩ |
        ⟨-, -, rfl⟩ | ⟨-, -, rfl⟩ | ⟨-, e, rfl⟩ <;> simp [panicked_eq, ClosePc.writerPc, WriterPc.running]

/-- One step keeps the order of writes. -/
theorem Fifo.step {log : List Out} {a : Action} (hi : s.Fifo log) (h : s.step a = some s') :
    s'.Fifo (log ++ enqueued s s') := by
  rcases (step_cases h).2 with ⟨t, req, rfl⟩ | rfl | ⟨i, e, c, -, -, rfl⟩ | ⟨f, -, h⟩ |
    ⟨i, k, h⟩ | ⟨k, h⟩ | ⟨k, h⟩ | ⟨i, k, h⟩ | ⟨i, c, k, -, h⟩ | ⟨g, hg, rfl⟩
  · exact hi.same rfl rfl rfl
  · exact hi.same rfl rfl rfl
  · exact hi.same rfl rfl rfl
  · obtain ⟨-, ⟨m, -, -, rfl⟩ | ⟨m, -, -, rfl⟩ | rfl⟩ := stepRead_cases h <;>
      exact hi.same rfl rfl rfl
  · obtain ⟨c, -, h⟩ := stepCall_cases h
    rcases h with ⟨-, rfl⟩ | ⟨-, rfl⟩ | ⟨-, -, rfl⟩ | ⟨-, -, -, rfl⟩ | ⟨-, -, rfl⟩ |
      ⟨-, -, -, rfl⟩ | ⟨r, -, rfl⟩
    · exact hi.same rfl rfl rfl
    · exact hi.same rfl rfl rfl
    · -- the call's request goes to `writeCh`
      exact hi.enqueue rfl rfl rfl
    all_goals exact hi.same rfl rfl rfl
  · rcases stepReader_cases h with ⟨m, i, -, -, rfl⟩ | ⟨m, -, -, rfl⟩ | ⟨i, m, c, -, -, -, rfl⟩ |
      ⟨-, rfl⟩ | ⟨c, -, h⟩
    · exact hi.same rfl rfl rfl
    · exact hi.same rfl rfl rfl
    · exact hi.same rfl rfl rfl
    · exact hi.same rfl rfl rfl
    · obtain ⟨-, -, -, -, -, hc, hw, -⟩ := closeStep_frame h
      exact hi.same hw (closeStep_writer h nofun) hc
  · exact hi.stepWriter h
  · obtain ⟨t, -, h⟩ := stepTask_cases h
    rcases h with ⟨-, -, rfl⟩ | ⟨-, f, resp, -, -, rfl⟩ | ⟨-, f, -, -, rfl⟩ | ⟨m, -, -, rfl⟩ |
      ⟨m, -, -, rfl⟩
    · exact hi.same rfl rfl rfl
    · exact hi.same rfl rfl rfl
    · exact hi.same rfl (by simp [panicked_eq]) rfl
    · -- the answer of `handleRequest` goes to `writeCh`
      exact hi.enqueue rfl rfl rfl
    · exact hi.same rfl rfl rfl
  · obtain ⟨-, -, -, -, -, hc, hw, -⟩ := closeStep_frame h
    exact hi.same hw (closeStep_writer h nofun) hc
  · cases g with
    | writer => exact hi.drop hg rfl rfl (by simp [panicked, WriterPc.running]) rfl
    | _ => exact hi.same rfl (by simp [panicked_eq]) rfl

theorem Fifo.run {log : List Out} (hi : s.Fifo log) {as : List Action} (h : s.run as = some s') :
    s'.Fifo (log ++ s.sentLog as) := by
  induction as generalizing s log with
  | nil => cases h; simpa [sentLog] using hi
  | cons a as ih =>
    simp only [Stream.run, Option.bind_eq_some] at h
    obtain ⟨s₁, h₁, h⟩ := h
    simpa [sentLog, h₁] using ih (hi.step h₁) h

/-- A stream writes first-in first-out: after any run from `NewStream`, of the messages the run put
on `writeCh`, in order, the writer has written a prefix in that order, then lost at most one in a
failed write or a panic, after which it stopped, and holds or has still queued all the others, in
the same order. -/
theorem writes_fifo (hd : Handler) {as : List Action} {s : Stream}
    (h : (newStream hd).run as = some s) :
    ∃ d : List Out, d.length ≤ 1 ∧ (d ≠ [] → s.writer.running = false) ∧
      (newStream hd).sentLog as = s.written ++ d ++ s.writer.holding ++ s.writeCh := by
  simpa [Fifo] using (newStream_fifo hd).run h

/-- Two calls queue their requests; the writer writes the first, the second waits in `writeCh`. -/
theorem writes_fifo_two_calls :
    ∃ as s, (newStream (fun _ => none)).run as = some s ∧ s.written.length = 1 ∧
      s.writeCh.length = 1 ∧ ∃ d : List Out, d.length ≤ 1 ∧ (d ≠ [] → s.writer.running = false) ∧
        (newStream (fun _ => none)).sentLog as = s.written ++ d ++ s.writer.holding ++ s.writeCh :=
  ⟨[.rpc 0 [], .step (.call 0) .proceed, .step (.call 0) .proceed, .step (.call 0) .proceed,
    .rpc 0 [], .step (.call 1) .proceed, .step (.call 1) .proceed, .step (.call 1) .proceed,
    .step .writer .proceed, .step .writer .proceed], _, rfl, rfl, rfl, writes_fifo _ rfl⟩

end Stream

end Piko.Rpc

import Piko.Rpc.Steps

/-! # Shutdown

`closeStream` (stream.go) lets the goroutine that wins `s.shutdown.CompareAndSwap(false, true)` set
`shutdownErr`, close `shutdownCh` and close the connection; every other call returns
`ErrStreamClosed` at once. This module proves that in every reachable state of the stream:

* at most one goroutine is past a won CompareAndSwap (`tear`), and the fields written so far are
  those of the teardown steps before its own (`ShutdownInv`), so each close runs at most once and
  `close(s.shutdownCh)` never meets a closed channel;
* once `shutdownCh` is closed, every `RPC` call, every `handleRequest` goroutine blocked on
  `writeCh` and the writer can return by their own steps alone (`ReturnsAlone`);
* a handler that panics aborts the process: `handleRequest` has no `recoverPanic`
  (`handler_panic_crashes`).
-/

namespace Piko.Rpc
set_option autoImplicit false

/-- The `closeStream` step of the reader, if it is inside `closeStream`. -/
def ReaderPc.closePc : ReaderPc → Option ClosePc
  | .closing c => some c
  | .read | .find _ | .send _ _ | .check | .exited => none

/-- The `closeStream` step of the writer, if it is inside `closeStream`. -/
def WriterPc.closePc : WriterPc → Option ClosePc
  | .closing c => some c
  | .select | .write _ | .exited => none

/-- Whether `closeStream` step `c` comes after a won CompareAndSwap. -/
def ClosePc.tearing : ClosePc → Bool
  | .setErr | .closeCh | .closeConn => true
  | .cas | .ret _ => false

namespace Stream

/-- The `closeStream` step goroutine `g` is at, if it is inside `closeStream`. -/
def closePc (s : Stream) : Goroutine → Option ClosePc
  | .reader => s.reader.closePc
  | .writer => s.writer.closePc
  | .closer i => s.closers[i]?
  | _ => none

/-- The teardown step goroutine `g` is at, if it won the CompareAndSwap and has not returned. -/
def tear (s : Stream) (g : Goroutine) : Option ClosePc := (s.closePc g).filter ClosePc.tearing

/-- The fields the teardown writes, with the ghost counts of its two closes. -/
def teardownFields (s : Stream) : Bool × Option Error × Bool × Nat × Nat :=
  (s.shutdown, s.shutdownErr, s.shutdownCh, s.shutdownCloses, s.connCloses)

end Stream

/-- The fields while the winner of the CompareAndSwap is at teardown step `c`; `none` is before the
CompareAndSwap (`shutdown` unset) or after the winner returned. -/
def teardownAt (shutdown : Bool) : Option ClosePc → Bool × Option Error × Bool × Nat × Nat
  | none => if shutdown then (true, some .streamClosed, true, 1, 1) else (false, none, false, 0, 0)
  | some .setErr => (true, none, false, 0, 0)
  | some .closeCh => (true, some .streamClosed, false, 0, 0)
  | some .closeConn => (true, some .streamClosed, true, 1, 0)
  | some _ => (false, none, false, 0, 0)

namespace Stream

/-- The shutdown invariant. -/
structure ShutdownInv (s : Stream) : Prop where
  /-- No goroutine is in the teardown, which has not started or is over; or exactly one is, and the
  fields hold what the steps before its own wrote. -/
  teardown : ((∀ g, s.tear g = none) ∧ s.teardownFields = teardownAt s.shutdown none) ∨
    ∃ g c, s.tear g = some c ∧ (∀ g' c', s.tear g' = some c' → g' = g) ∧
      s.teardownFields = teardownAt s.shutdown (some c)
  /-- The reader and the writer leave `closeStream` when it returns. -/
  noRet : (∀ e, s.reader ≠ .closing (.ret e)) ∧ ∀ e, s.writer ≠ .closing (.ret e)
  /-- A `Close` that returned anything but `ErrStreamClosed` won the CompareAndSwap, and the
  teardown is over. -/
  retired : ∀ (i : Nat) (e : Option Error), s.closers[i]? = some (.ret e) → e ≠ some .streamClosed →
    s.shutdown = true ∧ ∀ g, s.tear g = none
  /-- At most one `Close` returned anything but `ErrStreamClosed`. -/
  winner : ∀ (i j : Nat) (e e' : Option Error), s.closers[i]? = some (.ret e) → s.closers[j]? = some (.ret e') →
    e ≠ some .streamClosed → e' ≠ some .streamClosed → i = j

variable {s s' : Stream} {g : Goroutine} {c : ClosePc}

theorem teardownFields_eq {a : Bool} {b : Option Error} {c : Bool} {d e : Nat} :
    s.teardownFields = (a, b, c, d, e) ↔
      s.shutdown = a ∧ s.shutdownErr = b ∧ s.shutdownCh = c ∧ s.shutdownCloses = d ∧
        s.connCloses = e := by
  simp [teardownFields]

/-! ## Reading `tear` -/

theorem tearing_of_tear (h : s.tear g = some c) : c.tearing = true := by
  simp only [tear, Option.filter_eq_some] at h
  exact h.2

theorem tear_of_closePc (h : s.closePc g = some c) : s.tear g = (some c).filter ClosePc.tearing := by
  simp [tear, h]

@[simp] theorem ClosePc.readerPc_closePc_filter (c : ClosePc) :
    c.readerPc.closePc.filter ClosePc.tearing = (some c).filter ClosePc.tearing := by
  cases c <;> rfl

@[simp] theorem ClosePc.writerPc_closePc_filter (c : ClosePc) :
    c.writerPc.closePc.filter ClosePc.tearing = (some c).filter ClosePc.tearing := by
  cases c <;> rfl

theorem tear_setClosePc {c₀ : ClosePc} (hg : s.closePc g = some c₀) (c : ClosePc)
    (g' : Goroutine) :
    (s.setClosePc g c).tear g' = if g' = g then (some c).filter ClosePc.tearing else s.tear g' := by
  unfold tear
  split_ifs with h
  · subst h
    cases g' <;> simp_all [closePc]
    rw [List.getElem?_set_self (List.getElem?_eq_some_iff.1 hg).1]
  · cases g <;> cases g' <;> simp_all [closePc]
    rw [List.getElem?_set_ne (Ne.symm h)]

theorem closers_setClosePc {c₀ : ClosePc} (hg : s.closePc g = some c₀) (c : ClosePc) (j : Nat) :
    (s.setClosePc g c).closers[j]? = if g = .closer j then some c else s.closers[j]? := by
  cases g <;> simp_all [closePc]
  split_ifs with h
  · subst h; exact List.getElem?_set_self (List.getElem?_eq_some_iff.1 hg).1
  · exact List.getElem?_set_ne h

theorem ClosePc.readerPc_ne_ret (c : ClosePc) (e : Option Error) :
    c.readerPc ≠ .closing (.ret e) := by
  cases c <;> nofun

theorem ClosePc.writerPc_ne_ret (c : ClosePc) (e : Option Error) :
    c.writerPc ≠ .closing (.ret e) := by
  cases c <;> nofun

theorem noRet_setClosePc
    (hn : (∀ e, s.reader ≠ .closing (.ret e)) ∧ ∀ e, s.writer ≠ .closing (.ret e))
    (g : Goroutine) (c : ClosePc) :
    (∀ e, (s.setClosePc g c).reader ≠ .closing (.ret e)) ∧
      ∀ e, (s.setClosePc g c).writer ≠ .closing (.ret e) := by
  refine ⟨fun e => ?_, fun e => ?_⟩ <;> simp only [setClosePc_reader, setClosePc_writer] <;>
    split_ifs
  exacts [ClosePc.readerPc_ne_ret c e, hn.1 e, ClosePc.writerPc_ne_ret c e, hn.2 e]

/-! ## Preservation -/

theorem ShutdownInv.congr (hi : s.ShutdownInv) (ht : ∀ g, s'.tear g = s.tear g)
    (hf : s'.teardownFields = s.teardownFields)
    (hn : (∀ e, s'.reader ≠ .closing (.ret e)) ∧ ∀ e, s'.writer ≠ .closing (.ret e))
    (hc : ∀ (i : Nat) (e : Option Error), s'.closers[i]? = some (.ret e) → e ≠ some .streamClosed →
      s.closers[i]? = some (.ret e)) : s'.ShutdownInv := by
  have hs : s'.shutdown = s.shutdown := congrArg Prod.fst hf
  refine ⟨?_, hn, fun i e h he => ?_, fun i j e e' h h' he he' => ?_⟩
  · simpa only [ht, hf, hs] using hi.teardown
  · simpa only [hs, ht] using hi.retired i e (hc i e h he) he
  · exact hi.winner i j e e' (hc i e h he) (hc j e' h' he') he he'

theorem ShutdownInv.closers_streamClosed (hi : s.ShutdownInv) (hg : s.tear g = some c) (i : Nat)
    (e : Option Error) (h : s.closers[i]? = some (.ret e)) : e = some .streamClosed := by
  by_contra he
  simp [(hi.retired i e h he).2 g] at hg

theorem ShutdownInv.fields_of_tear (hi : s.ShutdownInv) (hg : s.tear g = some c) :
    s.teardownFields = teardownAt s.shutdown (some c) := by
  rcases hi.teardown with ⟨hn, -⟩ | ⟨g₀, c₀, h₀, hu, hf⟩
  · simp [hn g] at hg
  · obtain rfl := hu g c hg
    rw [hg] at h₀
    cases h₀
    exact hf

theorem ShutdownInv.tear_unique (hi : s.ShutdownInv) {g' : Goroutine} {c' : ClosePc}
    (h : s.tear g = some c) (h' : s.tear g' = some c') : g' = g := by
  rcases hi.teardown with ⟨hn, -⟩ | ⟨g₀, c₀, -, hu, -⟩
  · simp [hn g] at h
  · rw [hu g' c' h', hu g c h]

theorem ShutdownInv.of_eq (hi : s.ShutdownInv) (hr : s'.reader = s.reader)
    (hw : s'.writer = s.writer) (hc : s'.closers = s.closers)
    (hf : s'.teardownFields = s.teardownFields) : s'.ShutdownInv :=
  hi.congr (fun g => by cases g <;> simp [tear, closePc, hr, hw, hc]) hf (by rw [hr, hw]; exact hi.noRet)
    (fun i e h _ => hc ▸ h)

/-- The goroutine in the teardown moves from step `c` to the next teardown step `c'`, the fields
becoming those of `t`. -/
theorem ShutdownInv.advance (hi : s.ShutdownInv) (hg : s.closePc g = some c) (hc : c.tearing)
    (c' : ClosePc) (hc' : c'.tearing) {t : Stream} (htr : t.reader = s.reader)
    (htw : t.writer = s.writer) (htc : t.closers = s.closers)
    (hf : t.teardownFields = teardownAt t.shutdown (some c')) : (t.setClosePc g c').ShutdownInv := by
  have hts : t.closePc = s.closePc := by
    funext g'; cases g' <;> simp [closePc, htr, htw, htc]
  have hsg : s.tear g = some c := by simp [tear_of_closePc hg, hc]
  have hg' : t.closePc g = some c := by rw [hts]; exact hg
  have hret : ∀ (j : Nat) (e : Option Error), (t.setClosePc g c').closers[j]? = some (.ret e) → e = some .streamClosed := by
    intro j e h
    rw [closers_setClosePc hg'] at h
    split_ifs at h with hj
    · cases h; simp [ClosePc.tearing] at hc'
    · exact hi.closers_streamClosed hsg j e (htc ▸ h)
  refine ⟨.inr ⟨g, c', ?_, fun g' c'' h => ?_, ?_⟩, noRet_setClosePc (by rw [htr, htw]; exact hi.noRet) g c',
    fun j e h he => absurd (hret j e h) he, fun j _ e _ h _ he _ => absurd (hret j e h) he⟩
  · rw [tear_setClosePc hg', if_pos rfl]; simp [hc']
  · rw [tear_setClosePc hg'] at h
    split_ifs at h with hgg
    · exact hgg
    · exact hi.tear_unique hsg (by simpa only [tear, hts] using h)
  · simpa [teardownFields] using hf

/-- One step of `closeStream`. -/
theorem ShutdownInv.closeStep {k : Case} (hi : s.ShutdownInv) (hg : s.closePc g = some c)
    (h : s.closeStep g c k = some s') : s'.ShutdownInv := by
  rcases closeStep_cases h with ⟨rfl, hs, rfl⟩ | ⟨rfl, hs, rfl⟩ | ⟨rfl, rfl⟩ | ⟨rfl, hch, rfl⟩ |
    ⟨rfl, hch, rfl⟩ | ⟨rfl, e, rfl⟩
  · -- the CompareAndSwap is lost: `closeStream` returns `ErrStreamClosed`
    refine hi.congr (fun g' => ?_) (by simp [teardownFields]) (noRet_setClosePc hi.noRet _ _)
      (fun j e h he => ?_)
    · rw [tear_setClosePc hg]
      split_ifs with h
      · subst h; rw [tear_of_closePc hg]; rfl
      · rfl
    · rw [closers_setClosePc hg] at h
      split_ifs at h
      · cases h; exact absurd rfl he
      · exact h
  · -- the CompareAndSwap is won: no teardown has started
    have hn : ∀ g', s.tear g' = none := by
      rcases hi.teardown with ⟨hn, -⟩ | ⟨g₀, c₀, h₀, -, hf⟩
      · exact hn
      · have := tearing_of_tear h₀
        cases c₀ <;> simp_all [teardownFields, teardownAt, ClosePc.tearing]
    have hf : s.teardownFields = (false, none, false, 0, 0) := by
      rcases hi.teardown with ⟨-, hf⟩ | ⟨g₀, c₀, h₀, -, -⟩
      · simpa [teardownAt, hs] using hf
      · simp [hn g₀] at h₀
    have hret : ∀ (j : Nat) (e : Option Error), ({ s with shutdown := true }.setClosePc g .setErr).closers[j]? =
        some (.ret e) → e ≠ some .streamClosed → False := by
      intro j e h he
      rw [closers_setClosePc (s := { s with shutdown := true }) hg] at h
      split_ifs at h
      · cases h
      · simp [hi.retired j e h he] at hs
    refine ⟨.inr ⟨g, .setErr, ?_, fun g' c' h => ?_, ?_⟩,
      noRet_setClosePc (s := { s with shutdown := true }) hi.noRet _ _,
      fun j e h he => (hret j e h he).elim, fun j _ e _ h _ he _ => (hret j e h he).elim⟩
    · rw [tear_setClosePc (s := { s with shutdown := true }) hg, if_pos rfl]; rfl
    · rw [tear_setClosePc (s := { s with shutdown := true }) hg] at h
      split_ifs at h with hgg
      · exact hgg
      · have h' : s.tear g' = some c' := h
        simp [hn g'] at h'
    · obtain ⟨-, h₂, h₃, h₄, h₅⟩ := teardownFields_eq.1 hf
      exact teardownFields_eq.2 ⟨rfl, h₂, h₃, h₄, h₅⟩
  · -- `s.shutdownErr = ErrStreamClosed`
    obtain ⟨h₁, -, h₃, h₄, h₅⟩ :=
      teardownFields_eq.1 (hi.fields_of_tear ((tear_of_closePc hg).trans rfl))
    exact hi.advance hg rfl .closeCh rfl rfl rfl rfl (teardownFields_eq.2 ⟨h₁, rfl, h₃, h₄, h₅⟩)
  · -- `close(s.shutdownCh)` on a closed channel: unreachable
    have h₃ := (teardownFields_eq.1 (hi.fields_of_tear ((tear_of_closePc hg).trans rfl))).2.2.1
    simp [hch] at h₃
  · -- `close(s.shutdownCh)`
    obtain ⟨h₁, h₂, -, h₄, h₅⟩ :=
      teardownFields_eq.1 (hi.fields_of_tear ((tear_of_closePc hg).trans rfl))
    exact hi.advance hg rfl .closeConn rfl rfl rfl rfl
      (teardownFields_eq.2 ⟨h₁, h₂, rfl, by simp [h₄], h₅⟩)
  · -- `s.conn.Close()`: the teardown is over
    have hsg : s.tear g = some .closeConn := by simp [tear_of_closePc hg, ClosePc.tearing]
    have hf := hi.fields_of_tear hsg
    set t := { s with connCloses := s.connCloses + 1 }
    have hg' : t.closePc g = some .closeConn := hg
    have hn : ∀ g', (t.setClosePc g (.ret e)).tear g' = none := by
      intro g'
      rw [tear_setClosePc hg']
      split_ifs with hgg
      · simp [ClosePc.tearing]
      · cases h : s.tear g' with
        | none => exact h
        | some c' => exact absurd (hi.tear_unique hsg h) hgg
    have hret : ∀ (j : Nat) (e' : Option Error), (t.setClosePc g (.ret e)).closers[j]? = some (.ret e') →
        e' ≠ some .streamClosed → g = .closer j := by
      intro j e' h he
      rw [closers_setClosePc hg'] at h
      split_ifs at h with hj
      · exact hj
      · exact absurd (hi.closers_streamClosed hsg j e' h) he
    refine ⟨.inl ⟨hn, ?_⟩, noRet_setClosePc (s := t) hi.noRet _ _, fun j e' h he => ⟨?_, hn⟩,
      fun i j e₁ e₂ h₁ h₂ he₁ he₂ => ?_⟩
    · obtain ⟨h₁, h₂, h₃, h₄, h₅⟩ := teardownFields_eq.1 hf
      show t.teardownFields = teardownAt t.shutdown none
      rw [show t.shutdown = true from h₁]
      exact teardownFields_eq.2 ⟨h₁, h₂, h₃, h₄, by simp [t, h₅]⟩
    · exact (teardownFields_eq.1 hf).1
    · have := (hret i e₁ h₁ he₁).symm.trans (hret j e₂ h₂ he₂)
      cases this; rfl

theorem newStream_shutdownInv (h : Handler) : (newStream h).ShutdownInv :=
  ⟨.inl ⟨fun g => by cases g <;> rfl, rfl⟩, ⟨nofun, nofun⟩, fun _ _ h => by simp [newStream] at h,
    fun _ _ _ _ h => by simp [newStream] at h⟩

theorem ShutdownInv.stepRead {f : Incoming} (hi : s.ShutdownInv) (h : s.stepRead f = some s') :
    s'.ShutdownInv := by
  obtain ⟨hr, h⟩ := stepRead_cases h
  rcases h with ⟨m, -, -, rfl⟩ | ⟨m, -, -, rfl⟩ | rfl <;>
    exact hi.congr (fun g => by cases g <;> simp [tear, closePc, hr, ReaderPc.closePc, ClosePc.tearing])
      rfl ⟨by simp, hi.noRet.2⟩ (fun _ _ h _ => h)

theorem ShutdownInv.stepCall {i : Nat} {k : Case} (hi : s.ShutdownInv)
    (h : s.stepCall i k = some s') : s'.ShutdownInv := by
  obtain ⟨c, -, h⟩ := stepCall_cases h
  rcases h with ⟨-, rfl⟩ | ⟨-, rfl⟩ | ⟨-, -, rfl⟩ | ⟨-, m, -, rfl⟩ | ⟨-, -, rfl⟩ | ⟨-, e, -, rfl⟩ |
    ⟨r, -, rfl⟩ <;> exact hi.of_eq rfl rfl rfl rfl

theorem ShutdownInv.stepReader {k : Case} (hi : s.ShutdownInv) (h : s.stepReader k = some s') :
    s'.ShutdownInv := by
  rcases stepReader_cases h with ⟨m, i, hm, -, rfl⟩ | ⟨m, hm, -, rfl⟩ |
    ⟨i, m, c, hm, -, -, rfl⟩ | ⟨hm, rfl⟩ | ⟨c, hm, h⟩
  case inr.inr.inr.inr => exact hi.closeStep (by simp [closePc, hm, ReaderPc.closePc]) h
  case inr.inr.inr.inl =>
    split <;> exact hi.congr (fun g => by cases g <;> simp [tear, closePc, hm, ReaderPc.closePc])
      rfl ⟨by simp, hi.noRet.2⟩ (fun _ _ h _ => h)
  all_goals
    exact hi.congr (fun g => by cases g <;> simp [tear, closePc, hm, ReaderPc.closePc]) rfl
      ⟨by simp, hi.noRet.2⟩ (fun _ _ h _ => h)

theorem ShutdownInv.stepWriter {k : Case} (hi : s.ShutdownInv) (h : s.stepWriter k = some s') :
    s'.ShutdownInv := by
  rcases stepWriter_cases h with ⟨o, rest, hm, -, rfl⟩ | ⟨hm, -, rfl⟩ | ⟨o, hm, rfl⟩ |
    ⟨o, hm, rfl⟩ | ⟨c, hm, h⟩
  case inr.inr.inr.inr => exact hi.closeStep (by simp [closePc, hm, WriterPc.closePc]) h
  all_goals
    exact hi.congr (fun g => by
      cases g <;> simp [tear, closePc, hm, WriterPc.closePc, ClosePc.tearing]) rfl
      ⟨hi.noRet.1, by simp⟩ (fun _ _ h _ => h)

theorem ShutdownInv.stepTask {i : Nat} {k : Case} (hi : s.ShutdownInv)
    (h : s.stepTask i k = some s') : s'.ShutdownInv := by
  obtain ⟨t, -, h⟩ := stepTask_cases h
  rcases h with ⟨-, -, rfl⟩ | ⟨-, f, resp, -, -, rfl⟩ | ⟨-, f, -, -, rfl⟩ | ⟨m, -, -, rfl⟩ |
    ⟨m, -, -, rfl⟩ <;> exact hi.of_eq rfl rfl rfl rfl

theorem ShutdownInv.panic {g : Goroutine} (hi : s.ShutdownInv) (hg : s.running g = true) :
    (s.panicked g).ShutdownInv := by
  cases g
  case reader =>
    have hr : s.reader.closePc = none := by
      cases h : s.reader <;> simp_all [running, ReaderPc.running, ReaderPc.closePc]
    exact hi.congr (fun g => by cases g <;> simp only [tear, closePc, hr, panicked]; rfl) rfl
      ⟨by simp [panicked], hi.noRet.2⟩ (fun _ _ h _ => h)
  case writer =>
    have hw : s.writer.closePc = none := by
      cases h : s.writer <;> simp_all [running, WriterPc.running, WriterPc.closePc]
    exact hi.congr (fun g => by cases g <;> simp only [tear, closePc, hw, panicked]; rfl) rfl
      ⟨hi.noRet.1, by simp [panicked]⟩ (fun _ _ h _ => h)
  all_goals simp [running] at hg

theorem ShutdownInv.step {a : Action} (hi : s.ShutdownInv) (h : s.step a = some s') :
    s'.ShutdownInv := by
  obtain ⟨-, h⟩ := step_cases h
  rcases h with ⟨t, req, rfl⟩ | rfl | ⟨i, e, c, -, -, rfl⟩ | ⟨f, -, h⟩ | ⟨i, k, h⟩ | ⟨k, h⟩ |
    ⟨k, h⟩ | ⟨i, k, h⟩ | ⟨i, c, k, hc, h⟩ | ⟨g, hg, rfl⟩
  · exact hi.of_eq rfl rfl rfl rfl
  · refine hi.congr (fun g => ?_) rfl hi.noRet (fun j e h _ => ?_)
    · cases g <;> try rfl
      simp only [tear, closePc, List.getElem?_append]
      split_ifs with hj
      · rfl
      · simp [List.getElem?_cons, ClosePc.tearing, List.getElem?_len_le (not_lt.1 hj)]
    · simp only [List.getElem?_append] at h
      split_ifs at h with hj
      · exact h
      · simp [List.getElem?_cons] at h
  · exact hi.of_eq rfl rfl rfl rfl
  · exact hi.stepRead h
  · exact hi.stepCall h
  · exact hi.stepReader h
  · exact hi.stepWriter h
  · exact hi.stepTask h
  · exact hi.closeStep (show s.closePc (.closer i) = some c from hc) h
  · exact hi.panic hg

theorem ShutdownInv.reachable {hd : Handler} (h : Reachable hd s) : s.ShutdownInv := by
  induction h with
  | init => exact newStream_shutdownInv hd
  | step a _ hs ih => exact ih.step hs

/-! ## What the invariant says -/

theorem ShutdownInv.of_shutdownCh (hi : s.ShutdownInv) (hch : s.shutdownCh = true) :
    s.shutdown = true ∧ s.shutdownErr = some .streamClosed ∧ s.shutdownCloses = 1 ∧
      ∀ g c, s.tear g = some c → c = .closeConn := by
  rcases hi.teardown with ⟨hn, hf⟩ | ⟨g₀, c₀, h₀, hu, hf⟩
  · cases hs : s.shutdown <;> rw [hs] at hf <;> obtain ⟨-, h₂, h₃, h₄, -⟩ := teardownFields_eq.1 hf
    · cases hch.symm.trans h₃
    · exact ⟨rfl, h₂, h₄, fun g c h => by rw [hn g] at h; cases h⟩
  · cases c₀ <;> obtain ⟨h₁, h₂, h₃, h₄, -⟩ := teardownFields_eq.1 hf
    all_goals first
      | exact ⟨h₁, h₂, h₄, fun g c h => by rw [hu g c h, h₀] at h; exact (Option.some.inj h).symm⟩
      | cases hch.symm.trans h₃

theorem ShutdownInv.closes_le_one (hi : s.ShutdownInv) :
    s.shutdownCloses ≤ 1 ∧ s.connCloses ≤ 1 := by
  rcases hi.teardown with ⟨-, hf⟩ | ⟨g₀, c₀, -, -, hf⟩
  · cases hs : s.shutdown <;> rw [hs] at hf <;>
      obtain ⟨-, -, -, h₄, h₅⟩ := teardownFields_eq.1 hf <;> omega
  · cases c₀ <;> obtain ⟨-, -, -, h₄, h₅⟩ := teardownFields_eq.1 hf <;> omega

theorem ShutdownInv.shutdownCh_of_closeCh (hi : s.ShutdownInv) (hg : s.closePc g = some .closeCh) :
    s.shutdownCh = false := by
  exact (teardownFields_eq.1 (hi.fields_of_tear ((tear_of_closePc hg).trans rfl))).2.2.1

/-! ## Returning after shutdown -/

/-- Goroutine `g` has returned. -/
def Returned (s : Stream) : Goroutine → Prop
  | .call i => ∃ c r, s.calls[i]? = some c ∧ c.pc = .returned r
  | .reader => s.reader = .exited
  | .writer => s.writer = .exited
  | .task i => ∃ t, s.tasks[i]? = some t ∧ t.pc = .exited
  | .closer i => ∃ e, s.closers[i]? = some (.ret e)

/-- Goroutine `g` returns by taking its own steps, no other goroutine stepping meanwhile. -/
def ReturnsAlone (s : Stream) (g : Goroutine) : Prop :=
  ∃ ks : List Case, ∃ s', s.run (ks.map (.step g)) = some s' ∧ s'.Returned g

theorem ReturnsAlone.of_returned (h : s.Returned g) : s.ReturnsAlone g := ⟨[], s, rfl, h⟩

theorem ReturnsAlone.of_step (k : Case) (s' : Stream) (hs : s.step (.step g k) = some s')
    (h : s'.ReturnsAlone g) : s.ReturnsAlone g := by
  obtain ⟨ks, s'', hr, hd⟩ := h
  exact ⟨k :: ks, s'', by simp [run, hs, hr], hd⟩

section Release

variable {i : Nat} (hcr : s.crashed = false) (hch : s.shutdownCh = true)
include hcr hch

/-- An `RPC` call returns once `shutdownCh` is closed: it runs its remaining steps, takes the
`<-s.shutdownCh` case of its `select` and runs its deferred unregister. -/
theorem returnsAlone_call {c : Call} (hc : s.calls[i]? = some c) (hpc : ∀ r, c.pc ≠ .returned r) :
    s.ReturnsAlone (.call i) := by
  have unreg : ∀ (t : Stream) (c : Call) (r : Return), t.crashed = false → t.calls[i]? = some c →
      c.pc = .unregister r → t.ReturnsAlone (.call i) := by
    intro t c r hcr hc hpc
    apply ReturnsAlone.of_step .proceed
    · simp only [step, hcr, Bool.false_eq_true, ↓reduceIte]
      rw [stepCall, hc, Option.bind_eq_bind, Option.some_bind, hpc]
    · exact .of_returned ⟨{ c with pc := .returned r }, r, by
        simp [(List.getElem?_eq_some_iff.1 hc).1], rfl⟩
  have select : ∀ (t : Stream) (c : Call), t.crashed = false → t.shutdownCh = true →
      t.calls[i]? = some c → (c.pc = .send ∨ c.pc = .await) → t.ReturnsAlone (.call i) := by
    intro t c hcr hch hc hpc
    apply ReturnsAlone.of_step .shutdown
    · simp only [step, hcr, Bool.false_eq_true, ↓reduceIte]
      rw [stepCall, hc, Option.bind_eq_bind, Option.some_bind]
      rcases hpc with h | h <;> simp only [h, hch, ↓reduceIte] <;> rfl
    · exact unreg _ { c with pc := .unregister ⟨none, t.shutdownErr⟩ } _ (by simp [hcr])
        (by simp [(List.getElem?_eq_some_iff.1 hc).1]) rfl
  have register : ∀ (t : Stream) (c : Call), t.crashed = false → t.shutdownCh = true →
      t.calls[i]? = some c → c.pc = .register → t.ReturnsAlone (.call i) := by
    intro t c hcr hch hc hpc
    apply ReturnsAlone.of_step .proceed
    · simp only [step, hcr, Bool.false_eq_true, ↓reduceIte]
      rw [stepCall, hc, Option.bind_eq_bind, Option.some_bind, hpc]
    · exact select _ { c with pc := .send } (by simp [hcr]) (by simp [hch])
        (by simp [(List.getElem?_eq_some_iff.1 hc).1]) (.inl rfl)
  cases hp : c.pc with
  | inc =>
    apply ReturnsAlone.of_step .proceed
    · simp only [step, hcr, Bool.false_eq_true, ↓reduceIte]
      rw [stepCall, hc, Option.bind_eq_bind, Option.some_bind, hp]
    · exact register _ { c with id := s.nextMessageID + 1, pc := .register } (by simp [hcr])
        (by simp [hch]) (by simp [(List.getElem?_eq_some_iff.1 hc).1]) rfl
  | register => exact register s c hcr hch hc hp
  | send => exact select s c hcr hch hc (.inl hp)
  | await => exact select s c hcr hch hc (.inr hp)
  | unregister r => exact unreg s c r hcr hc hp
  | returned r => exact absurd hp (hpc r)

theorem returnsAlone_task {t : Task} {m : Message} (ht : s.tasks[i]? = some t)
    (hpc : t.pc = .respond m) : s.ReturnsAlone (.task i) := by
  apply ReturnsAlone.of_step .shutdown
  · simp only [step, hcr, Bool.false_eq_true, ↓reduceIte]
    rw [stepTask, ht, Option.bind_eq_bind, Option.some_bind, hpc, hch]; rfl
  · exact .of_returned ⟨{ t with pc := .exited }, by
      simp [(List.getElem?_eq_some_iff.1 ht).1], rfl⟩

/-- The writer returns: from its `select` by the `<-s.shutdownCh` case, from `s.write` through
its `select`, and from `closeStream` at once or after closing the connection. -/
theorem returnsAlone_writer (hi : s.ShutdownInv) (hw : s.writer ≠ .exited) :
    s.ReturnsAlone .writer := by
  have select : ∀ t : Stream, t.crashed = false → t.shutdownCh = true → t.writer = .select →
      t.ReturnsAlone .writer := fun t hcr hch hw =>
    .of_step .shutdown { t with writer := .exited } (by simp only [step, hcr, stepWriter, hw, hch, Bool.false_eq_true, ↓reduceIte])
      (.of_returned rfl)
  obtain ⟨hs, -, -, htear⟩ := hi.of_shutdownCh hch
  cases hpc : s.writer with
  | select => exact select s hcr hch hpc
  | write o =>
    apply ReturnsAlone.of_step .proceed
    · simp only [step, hcr, Bool.false_eq_true, ↓reduceIte, stepWriter, hpc]; rfl
    · exact select _ (by simp [hcr]) (by simp [hch]) rfl
  | closing c =>
    have hg : s.closePc .writer = some c := by simp [closePc, hpc, WriterPc.closePc]
    cases c with
    | cas =>
      apply ReturnsAlone.of_step .proceed
      · simp only [step, hcr, Bool.false_eq_true, ↓reduceIte, stepWriter, hpc, closeStep, hs]; rfl
      · exact .of_returned (by simp [Returned, ClosePc.writerPc])
    | closeConn =>
      apply ReturnsAlone.of_step .proceed
      · simp only [step, hcr, Bool.false_eq_true, ↓reduceIte, stepWriter, hpc, closeStep]; rfl
      · exact .of_returned (by simp [Returned, ClosePc.writerPc])
    | setErr => exact absurd (htear _ _ ((tear_of_closePc hg).trans rfl)) nofun
    | closeCh => exact absurd (htear _ _ ((tear_of_closePc hg).trans rfl)) nofun
    | ret e => exact absurd hpc (hi.noRet.2 e)
  | exited => exact absurd hpc hw

end Release

/-! ## Handler panics -/

/-- A handler that panics aborts the process: `handleRequest` has no deferred `recoverPanic`, so
the panic escapes its goroutine before the stream is shut down, and nothing runs any more. -/
theorem handler_panic_crashes {i : Nat} {t : Task} {f : Payload → Outcome}
    (hcr : s.crashed = false) (ht : s.tasks[i]? = some t) (hpc : t.pc = .find)
    (hf : s.handler t.msg.header.rpcType = some f) (hp : f t.msg.payload = .panics) (k : Case) :
    ∃ s', s.step (.step (.task i) k) = some s' ∧ s'.crashed = true ∧
      s'.teardownFields = s.teardownFields ∧ ∀ a, s'.step a = none :=
  ⟨{ s with runs := s.runs ++ [t.src], crashed := true }, by
    simp only [step, hcr, Bool.false_eq_true, ↓reduceIte]
    rw [stepTask, ht, Option.bind_eq_bind, Option.some_bind, hpc]
    simp only [hf, hp]; rfl,
    rfl, rfl, fun _ => rfl⟩

theorem ShutdownInv.closeStep_crashed {k : Case} (hi : s.ShutdownInv) (hg : s.closePc g = some c)
    (h : s.closeStep g c k = some s') : s'.crashed = s.crashed := by
  rcases closeStep_cases h with ⟨-, -, rfl⟩ | ⟨-, -, rfl⟩ | ⟨-, rfl⟩ | ⟨rfl, hch, rfl⟩ |
    ⟨-, -, rfl⟩ | ⟨-, e, rfl⟩
  case inr.inr.inr.inl => simp [hi.shutdownCh_of_closeCh hg] at hch
  all_goals rfl

/-- Only a panicking handler aborts the process. -/
theorem ShutdownInv.step_crashed {a : Action} (hi : s.ShutdownInv)
    (hnp : ∀ t f p, s.handler t = some f → f p ≠ .panics) (h : s.step a = some s') :
    s'.crashed = false := by
  obtain ⟨hcr, h⟩ := step_cases h
  rcases h with ⟨t, req, rfl⟩ | rfl | ⟨i, e, c, -, -, rfl⟩ | ⟨f, -, h⟩ | ⟨i, k, h⟩ | ⟨k, h⟩ |
    ⟨k, h⟩ | ⟨i, k, h⟩ | ⟨i, c, k, hc, h⟩ | ⟨g, hg, rfl⟩
  · exact hcr
  · exact hcr
  · exact hcr
  · obtain ⟨-, ⟨m, -, -, rfl⟩ | ⟨m, -, -, rfl⟩ | rfl⟩ := stepRead_cases h <;> exact hcr
  · obtain ⟨c, -, h⟩ := stepCall_cases h
    rcases h with ⟨-, rfl⟩ | ⟨-, rfl⟩ | ⟨-, -, rfl⟩ | ⟨-, m, -, rfl⟩ | ⟨-, -, rfl⟩ | ⟨-, e, -, rfl⟩ |
      ⟨r, -, rfl⟩ <;> exact hcr
  · rcases stepReader_cases h with ⟨m, i, -, -, rfl⟩ | ⟨m, -, -, rfl⟩ | ⟨i, m, c, -, -, -, rfl⟩ |
      ⟨-, rfl⟩ | ⟨c, hm, h⟩
    all_goals first
      | exact hcr
      | rw [hi.closeStep_crashed (by simp [closePc, hm, ReaderPc.closePc]) h, hcr]
  · rcases stepWriter_cases h with ⟨o, rest, -, -, rfl⟩ | ⟨-, -, rfl⟩ | ⟨o, -, rfl⟩ | ⟨o, -, rfl⟩ |
      ⟨c, hm, h⟩
    all_goals first
      | exact hcr
      | rw [hi.closeStep_crashed (by simp [closePc, hm, WriterPc.closePc]) h, hcr]
  · obtain ⟨t, -, h⟩ := stepTask_cases h
    rcases h with ⟨-, -, rfl⟩ | ⟨-, f, resp, -, -, rfl⟩ | ⟨-, f, hf, hp, rfl⟩ | ⟨m, -, -, rfl⟩ |
      ⟨m, -, -, rfl⟩
    all_goals first | exact hcr | exact absurd hp (hnp _ _ _ hf)
  · rw [hi.closeStep_crashed (show s.closePc (.closer i) = some c from hc) h, hcr]
  · cases g <;> first | exact hcr | cases hg

/-- No handler panics: the process never aborts. -/
theorem crashed_eq_false {hd : Handler} (h : Reachable hd s)
    (hnp : ∀ t f p, hd t = some f → f p ≠ .panics) : s.crashed = false := by
  induction h with
  | init => rfl
  | step a hr hs _ =>
    exact (ShutdownInv.reachable hr).step_crashed (by rw [hr.handler]; exact hnp) hs

/-! ## Shutdown happens once and releases everyone -/

/-- What shutdown guarantees in a state of a stream with handler `hd`. -/
structure ShutdownSpec (hd : Handler) (s : Stream) : Prop where
  /-- `close(s.shutdownCh)` and `s.conn.Close()` each ran at most once. -/
  closes_le_one : s.shutdownCloses ≤ 1 ∧ s.connCloses ≤ 1
  /-- No goroutine is about to close a closed `shutdownCh`. -/
  closeCh_open : ∀ g, s.closePc g = some .closeCh → s.shutdownCh = false
  /-- At most one goroutine is past a won CompareAndSwap. -/
  one_teardown : ∀ g g' c c', s.tear g = some c → s.tear g' = some c' → g = g'
  /-- At most one `Close` returned anything but `ErrStreamClosed`. -/
  one_winner : ∀ (i j : Nat) (e e' : Option Error), s.closers[i]? = some (.ret e) →
    s.closers[j]? = some (.ret e') → e ≠ some .streamClosed → e' ≠ some .streamClosed → i = j
  /-- `shutdownErr` is `ErrStreamClosed` whenever `shutdownCh` is closed. -/
  shutdownErr_eq : s.shutdownCh = true → s.shutdownErr = some .streamClosed
  /-- Only a panicking handler aborts the process. -/
  no_abort : (∀ t f p, hd t = some f → f p ≠ .panics) → s.crashed = false
  /-- Once `shutdownCh` is closed, every call that has not returned, every `handleRequest`
  goroutine blocked on `writeCh` and the writer return by their own steps. -/
  release : s.shutdownCh = true → s.crashed = false →
    (∀ i c, s.calls[i]? = some c → (∀ r, c.pc ≠ .returned r) → s.ReturnsAlone (.call i)) ∧
    (∀ i t m, s.tasks[i]? = some t → t.pc = .respond m → s.ReturnsAlone (.task i)) ∧
    (s.writer ≠ .exited → s.ReturnsAlone .writer)

theorem shutdown_spec {hd : Handler} (h : Reachable hd s) : ShutdownSpec hd s :=
  have hi := ShutdownInv.reachable h
  { closes_le_one := hi.closes_le_one
    closeCh_open := fun _ hg => hi.shutdownCh_of_closeCh hg
    one_teardown := fun _ _ _ _ h h' => (hi.tear_unique h h').symm
    one_winner := hi.winner
    shutdownErr_eq := fun hch => (hi.of_shutdownCh hch).2.1
    no_abort := crashed_eq_false h
    release := fun hch hcr =>
      ⟨fun _ _ hc hpc => returnsAlone_call hcr hch hc hpc,
        fun _ _ _ ht hpc => returnsAlone_task hcr hch ht hpc,
        returnsAlone_writer hcr hch hi⟩ }

/-- A call awaits its response when `Close` runs to the end: the state is reachable, `shutdownCh`
is closed, the process runs, and the call is released. -/
theorem shutdown_spec_after_close :
    ∃ s, Reachable (fun _ => none) s ∧ s.shutdownCh = true ∧ s.crashed = false ∧
      (∃ c, s.calls[0]? = some c ∧ c.pc = .await) ∧ ShutdownSpec (fun _ => none) s :=
  have hr := @Reachable.run (fun _ => none) _ _ .init
    [.rpc 0 [], .step (.call 0) .proceed, .step (.call 0) .proceed, .step (.call 0) .proceed,
      .close, .step (.closer 0) .proceed, .step (.closer 0) .proceed,
      .step (.closer 0) .proceed, .step (.closer 0) .proceed] rfl
  ⟨_, hr, rfl, rfl, ⟨_, rfl, rfl⟩, shutdown_spec hr⟩

end Stream

/-- A request frame of type 0 whose handler panics: the process aborts while the stream is still up,
and nothing runs any more. -/
theorem handler_panic_aborts_process :
    ∃ s, (newStream fun _ => some fun _ => .panics).run
        [.read (.frame ⟨⟨0, 1, ⟨0⟩⟩, []⟩), .step (.task 0) .proceed] = some s ∧
      s.crashed = true ∧ s.shutdown = false ∧ s.shutdownCh = false ∧ ∀ a, s.step a = none := by
  obtain ⟨s', hs', hcr, htf, hnone⟩ := Stream.handler_panic_crashes
    (s := ((newStream fun _ => some fun _ => .panics).step (.read (.frame ⟨⟨0, 1, ⟨0⟩⟩, []⟩))).get rfl)
    (i := 0) rfl rfl rfl rfl rfl .proceed
  refine ⟨s', ?_, hcr, congrArg (·.1) htf, congrArg (·.2.2.1) htf, hnone⟩
  rw [← hs']
  rfl

end Piko.Rpc

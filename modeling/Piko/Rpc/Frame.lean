import Piko.Rpc.Steps

/-! # Calls started later do not change a run

Appending calls after a stream's own changes none of its steps but the start of another call: a
step looks up only the calls it names (a call's own index, the index the response table holds), and
a later call's index is past them. `step_withCalls` says so for one step; `Pair.run_withCalls`
lifts it to runs of two streams. It lets a run over a few calls be computed on its own and carried
over to a state with any number of calls started after them.
-/

namespace Piko.Rpc
set_option autoImplicit false

namespace Stream

variable {s s' : Stream}

/-- The stream with the calls `F` started after its own. -/
@[simps] def withCalls (s : Stream) (F : List Call) : Stream := { s with calls := s.calls ++ F }

theorem panicked_withCalls (F : List Call) (g : Goroutine) :
    (s.withCalls F).panicked g = (s.panicked g).withCalls F := by
  cases g <;> rfl

theorem closeStep_withCalls (F : List Call) (g : Goroutine) (c : ClosePc) (k : Case) :
    (s.withCalls F).closeStep g c k = (s.closeStep g c k).map (·.withCalls F) := by
  cases c <;> simp only [closeStep, withCalls_shutdown, withCalls_shutdownCh]
  all_goals first | rfl | (split_ifs <;> simp only [Option.map_some', panicked_withCalls] <;> rfl)

theorem stepRead_withCalls (F : List Call) (f : Incoming) :
    (s.withCalls F).stepRead f = (s.stepRead f).map (·.withCalls F) := by
  cases hr : s.reader <;> cases f <;> simp only [stepRead, hr, withCalls_reader] <;>
    first | rfl | (split_ifs <;> rfl)

theorem stepWriter_withCalls (F : List Call) (k : Case) :
    (s.withCalls F).stepWriter k = (s.stepWriter k).map (·.withCalls F) := by
  cases hw : s.writer <;> cases k <;>
    simp only [stepWriter, hw, withCalls_writer, withCalls_writeCh, withCalls_shutdownCh,
      closeStep_withCalls]
  all_goals first | rfl | (split_ifs <;> rfl) | (cases s.writeCh <;> rfl)

theorem stepTask_withCalls (F : List Call) (i : Nat) (k : Case) :
    (s.withCalls F).stepTask i k = (s.stepTask i k).map (·.withCalls F) := by
  rw [stepTask, stepTask, withCalls_tasks]
  cases s.tasks[i]? with
  | none => rfl
  | some t =>
    rw [Option.bind_eq_bind, Option.some_bind, Option.some_bind]
    cases t.pc <;> cases k <;>
      simp only [withCalls_handler, withCalls_writeCh, withCalls_shutdownCh]
    all_goals first
      | rfl
      | (split_ifs <;> rfl)
      | (cases s.handler t.msg.header.rpcType with
          | none => rfl
          | some f => dsimp only; cases f t.msg.payload <;> rfl)

theorem stepCall_withCalls (F : List Call) {i : Nat} {k : Case} (h : s.stepCall i k = some s') :
    (s.withCalls F).stepCall i k = some (s'.withCalls F) := by
  obtain ⟨c, hc, -⟩ := stepCall_cases h
  have hi := (List.getElem?_eq_some_iff.1 hc).1
  have hc' : (s.withCalls F).calls[i]? = some c := by
    rw [withCalls_calls, List.getElem?_append_left hi, hc]
  suffices (s.withCalls F).stepCall i k = (s.stepCall i k).map (·.withCalls F) by rw [this, h]; rfl
  rw [stepCall, stepCall, hc, hc', Option.bind_eq_bind, Option.some_bind, Option.some_bind]
  cases c.pc <;> cases k <;>
    simp only [withCalls_writeCh, withCalls_shutdownCh, withCalls_shutdownErr, setCall,
      withCalls_calls, List.set_append_left _ _ hi, Option.map_some', Option.map_none', Option.map_map,
      Option.map_if]
  all_goals rfl

theorem stepReader_withCalls (F : List Call) {k : Case} (h : s.stepReader k = some s') :
    (s.withCalls F).stepReader k = some (s'.withCalls F) := by
  suffices (s.withCalls F).stepReader k = (s.stepReader k).map (·.withCalls F) by
    rw [this, h]; rfl
  cases hr : s.reader with
  | send i m =>
    obtain ⟨c, hc⟩ : ∃ c, s.calls[i]? = some c := by
      rcases stepReader_cases h with ⟨_, _, h', -⟩ | ⟨_, h', -⟩ | ⟨i', m', c, h', hc, -⟩ | ⟨h', -⟩ |
        ⟨_, h', -⟩ <;> simp only [hr, reduceCtorEq] at h'
      obtain ⟨rfl, -⟩ := ReaderPc.send.inj h'
      exact ⟨c, hc⟩
    have hi := (List.getElem?_eq_some_iff.1 hc).1
    have hc' : (s.withCalls F).calls[i]? = some c := by
      rw [withCalls_calls, List.getElem?_append_left hi, hc]
    simp only [stepReader, hr, withCalls_reader, hc, hc', Option.bind_eq_bind, Option.some_bind]
    split_ifs
    · rfl
    · simp [setCall, List.set_append_left _ _ hi]; rfl
  | find m =>
    simp only [stepReader, hr, withCalls_reader, withCalls_responseHandlers]
    cases s.responseHandlers m.header.id <;> rfl
  | closing c => simp only [stepReader, hr, withCalls_reader, closeStep_withCalls]
  | _ => simp only [stepReader, hr, withCalls_reader, withCalls_shutdownCh]; rfl

/-- Calls started after the others change no step but the start of another call: no step looks
past the calls it names. -/
theorem step_withCalls (F : List Call) {act : Action} (h : s.step act = some s')
    (hno : ∀ t r, act ≠ .rpc t r) : (s.withCalls F).step act = some (s'.withCalls F) := by
  have hcr := (step_cases h).1
  have hmap : ∀ {o : Option Stream}, o = some s' → o.map (·.withCalls F) = some (s'.withCalls F) :=
    fun h => by rw [h]; rfl
  rcases act with ⟨t, r⟩ | _ | ⟨i, e⟩ | f | ⟨⟨i⟩ | _ | _ | ⟨i⟩ | ⟨i⟩, k⟩ | g <;>
    simp only [step, hcr, withCalls_crashed, Bool.false_eq_true, if_false] at h ⊢
  · exact absurd rfl (hno t r)
  · cases h; rfl
  · simp only [Option.bind_eq_bind, Option.bind_eq_some, Option.ite_none_left_eq_some,
      Option.not_isSome_iff_eq_none, Option.some.injEq] at h
    obtain ⟨c, hc, hctx, rfl⟩ := h
    have hi := (List.getElem?_eq_some_iff.1 hc).1
    simp [List.getElem?_append_left hi, hc, hctx, setCall, List.set_append_left _ _ hi]
    rfl
  · rw [stepRead_withCalls]; exact hmap h
  · exact stepCall_withCalls F h
  · exact stepReader_withCalls F h
  · rw [stepWriter_withCalls]; exact hmap h
  · rw [stepTask_withCalls]; exact hmap h
  · simp only [withCalls_closers, Option.bind_eq_bind, Option.bind_eq_some] at h ⊢
    obtain ⟨c, hc, h⟩ := h
    exact ⟨c, hc, by rw [closeStep_withCalls]; exact hmap h⟩
  · have hrun : (s.withCalls F).running g = s.running g := by cases g <;> rfl
    rw [hrun]
    split_ifs at h with hg
    cases h
    rw [panicked_withCalls, if_pos hg]

theorem run_rpc_inc {s : Stream} (hcr : s.crashed = false) (t : RPCType) (req : Payload) :
    s.run [.rpc t req, .step (.call s.calls.length) .proceed] = some { s with
      calls := s.calls ++ [⟨t, req, none, s.nextMessageID + 1, none, .register⟩],
      nextMessageID := s.nextMessageID + 1 } := by
  have hc := List.getElem?_concat_length s.calls (⟨t, req, none, 0, none, .inc⟩ : Call)
  simp only [run, step, hcr, Bool.false_eq_true, ↓reduceIte, Option.some_bind]
  rw [stepCall, hc, Option.bind_eq_bind, Option.some_bind]
  simp only [setCall, List.set_append_right _ _ le_rfl, Nat.sub_self, List.set_cons_zero,
    Option.some_bind]

end Stream

end Piko.Rpc

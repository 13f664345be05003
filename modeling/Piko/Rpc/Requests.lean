import Piko.Rpc.ResponseTable
import Piko.Rpc.Wire

/-! # The requests a stream sends

`RPC` (stream.go) puts its request on `writeCh` in its first `select`, once, and only after `Inc`
and `registerResponseHandler`; the writer then moves it to the connection or loses it to a failed
write. So on the way to the connection (`outs`):

* a call's request appears at most once, and not before the call reaches its first `select`
  (`SentOnce`);
* while fewer than `2^64` calls have started, no two requests carry the same message ID
  (`request_ids_distinct`), which is what lets the peer's response be routed back by ID alone.
-/

namespace Piko.Rpc
set_option autoImplicit false

/-- Whether a call has yet to put its request on `writeCh`. -/
def CallPc.unsent : CallPc → Bool
  | .inc | .register | .send => true
  | .await | .unregister _ | .returned _ => false

/-- The message ID of a request a call put on `writeCh`; an answer of `handleRequest` has none. -/
def Out.requestID (o : Out) : Option UInt64 :=
  match o.origin with
  | .call _ => some o.msg.header.id
  | .task _ => none

theorem List.nodup_filterMap_of_countP {α β : Type} [DecidableEq β] (key : α → Option β)
    {l : List α} (h : ∀ b, l.countP (fun a => decide (key a = some b)) ≤ 1) :
    (l.filterMap key).Nodup :=
  List.nodup_iff_count_le_one.2 fun b => by
    rw [List.count_filterMap]
    exact (List.countP_congr fun a _ => by simp).trans_le (h b)

namespace Stream

variable {s s' : Stream}

/-- Each call's request is on its way to the connection at most once, and not before the call has
reached its first `select`. -/
structure SentOnce (s : Stream) : Prop where
  unsent : ∀ (i : Nat) (c : Call), s.calls[i]? = some c → c.pc.unsent →
    ∀ o ∈ s.outs, o.origin ≠ .call i
  beyond : ∀ i, s.calls.length ≤ i → ∀ o ∈ s.outs, o.origin ≠ .call i
  once : ∀ i, s.outs.countP (·.origin = .call i) ≤ 1

theorem newStream_sentOnce (h : Handler) : (newStream h).SentOnce where
  unsent := by simp [outs, newStream, WriterPc.holding]
  beyond := by simp [outs, newStream, WriterPc.holding]
  once := by simp [outs, newStream, WriterPc.holding]

/-- A step that keeps or drops messages on their way and adds only answers of `handleRequest`
(`extra`), and moves no call back before its first `select`. -/
theorem SentOnce.congr (hi : s.SentOnce) (extra : List Out) (hout : s'.outs.Sublist (s.outs ++ extra))
    (hx : ∀ o ∈ extra, ∀ i, o.origin ≠ .call i)
    (hcalls : ∀ (i : Nat) (c' : Call), s'.calls[i]? = some c' → c'.pc.unsent →
      (∃ c, s.calls[i]? = some c ∧ c.pc.unsent) ∨ s.calls.length ≤ i)
    (hlen : s.calls.length ≤ s'.calls.length) : s'.SentOnce where
  unsent i c' hc' hu o ho := by
    rcases List.mem_append.1 (hout.subset ho) with ho | ho
    · rcases hcalls i c' hc' hu with ⟨c, hc, hu'⟩ | hl
      · exact hi.unsent i c hc hu' o ho
      · exact hi.beyond i hl o ho
    · exact hx o ho i
  beyond i hl o ho := by
    rcases List.mem_append.1 (hout.subset ho) with ho | ho
    · exact hi.beyond i (hlen.trans hl) o ho
    · exact hx o ho i
  once i := by
    have h : s'.outs.countP (·.origin = .call i) ≤ (s.outs ++ extra).countP (·.origin = .call i) :=
      hout.countP_le _
    have hz : extra.countP (·.origin = .call i) = 0 :=
      List.countP_eq_zero.2 fun o ho => by simpa using hx o ho i
    rw [List.countP_append, hz, Nat.add_zero] at h
    exact h.trans (hi.once i)

theorem SentOnce.same (hi : s.SentOnce) (hout : s'.outs.Sublist s.outs) (hc : s'.calls = s.calls) :
    s'.SentOnce :=
  hi.congr [] (by rwa [List.append_nil]) (fun _ h => nomatch h)
    (fun i c' h hu => .inl ⟨c', hc ▸ h, hu⟩) (by rw [hc])

theorem SentOnce.setCall (hi : s.SentOnce) {i : Nat} {c c' : Call} (hc : s.calls[i]? = some c)
    (hs : s'.calls = s.calls.set i c') (hu : c'.pc.unsent → c.pc.unsent)
    (hout : s'.outs = s.outs) : s'.SentOnce :=
  hi.congr [] (by rw [hout, List.append_nil]) (fun _ h => nomatch h)
    (fun j cj hj hun => by
      rw [hs] at hj
      rcases List.getElem?_set_eq_some hj with ⟨rfl, rfl⟩ | ⟨-, hj⟩
      · exact .inl ⟨c, hc, hu hun⟩
      · exact .inl ⟨cj, hj, hun⟩)
    (by rw [hs, List.length_set])

/-- Call `i`, at its first `select`, puts its request on `writeCh`. -/
theorem SentOnce.send (hi : s.SentOnce) {i : Nat} {c : Call} (hc : s.calls[i]? = some c)
    (hpc : c.pc = .send) (m : Message) :
    ({ s with writeCh := s.writeCh ++ [(⟨m, .call i⟩ : Out)] }.setCall i
      { c with pc := .await }).SentOnce := by
  have hlt := (List.getElem?_eq_some_iff.1 hc).1
  have hout : ({ s with writeCh := s.writeCh ++ [(⟨m, .call i⟩ : Out)] }.setCall i
      { c with pc := .await }).outs = s.outs ++ [⟨m, .call i⟩] := by simp [outs]
  have hmem : ∀ o, o ∈ s.outs ++ [(⟨m, .call i⟩ : Out)] → o ∈ s.outs ∨ o.origin = .call i := by
    intro o ho
    rcases List.mem_append.1 ho with ho | ho
    · exact .inl ho
    · exact .inr (by rw [List.mem_singleton.1 ho])
  refine ⟨fun j cj hj hun o ho hoj => ?_, fun j hl o ho hoj => ?_, fun j => ?_⟩
  · rw [setCall_calls] at hj
    rcases List.getElem?_set_eq_some hj with ⟨rfl, rfl⟩ | ⟨hij, hj⟩
    · simp [CallPc.unsent] at hun
    · rcases hmem o (hout ▸ ho) with ho | ho
      · exact hi.unsent j cj hj hun o ho hoj
      · exact hij (Origin.call.inj (ho.symm.trans hoj))
  · rcases hmem o (hout ▸ ho) with ho | ho
    · exact hi.beyond j (by simpa using hl) o ho hoj
    · have : i = j := Origin.call.inj (ho.symm.trans hoj)
      simp only [setCall_calls, List.length_set] at hl
      omega
  · rw [hout, List.countP_append]
    by_cases hij : i = j
    · subst hij
      have hz : s.outs.countP (·.origin = .call i) = 0 := List.countP_eq_zero.2 fun o ho => by
        simpa using hi.unsent i c hc (by simp [hpc, CallPc.unsent]) o ho
      simp [hz]
    · have := hi.once j
      simp [hij]
      omega

/-- Each call's request is on its way at most once, in every state a step reaches. -/
theorem SentOnce.step {a : Action} (hi : s.SentOnce) (h : s.step a = some s') : s'.SentOnce := by
  obtain ⟨-, h⟩ := step_cases h
  have hclose : ∀ {g : Goroutine} {c : ClosePc} {k : Case}, s.closeStep g c k = some s' →
      (g = .writer → s.writer.holding = []) → s'.SentOnce := fun h hg =>
    hi.same (closeStep_outs h hg ▸ List.Sublist.refl _) (closeStep_frame h).1
  rcases h with ⟨t, req, rfl⟩ | rfl | ⟨i, e, c, hc, -, rfl⟩ | ⟨f, -, h⟩ | ⟨i, k, h⟩ | ⟨k, h⟩ |
    ⟨k, h⟩ | ⟨i, k, h⟩ | ⟨i, c, k, -, h⟩ | ⟨g, hg, rfl⟩
  · refine hi.congr [] (by rw [List.append_nil]; rfl) (fun _ h => nomatch h) (fun j cj hj hun => ?_)
      (by simp)
    rcases List.getElem?_concat_eq_some hj with ⟨rfl, -⟩ | hj
    · exact .inr le_rfl
    · exact .inl ⟨cj, hj, hun⟩
  · exact hi.same (List.Sublist.refl _) rfl
  · exact hi.setCall hc rfl id rfl
  · obtain ⟨-, ⟨m, -, -, rfl⟩ | ⟨m, -, -, rfl⟩ | rfl⟩ := stepRead_cases h <;>
      exact hi.same (List.Sublist.refl _) rfl
  · obtain ⟨c, hc, h⟩ := stepCall_cases h
    rcases h with ⟨hpc, rfl⟩ | ⟨hpc, rfl⟩ | ⟨hpc, -, rfl⟩ | ⟨-, m, -, rfl⟩ | ⟨-, -, rfl⟩ |
      ⟨-, e, -, rfl⟩ | ⟨r, -, rfl⟩
    · exact hi.setCall hc rfl (fun _ => by simp [hpc, CallPc.unsent]) rfl
    · exact hi.setCall hc rfl (fun _ => by simp [hpc, CallPc.unsent]) rfl
    · exact hi.send hc hpc _
    all_goals exact hi.setCall hc rfl (fun h => by simp [CallPc.unsent] at h) rfl
  · rcases stepReader_cases h with ⟨m, i, -, -, rfl⟩ | ⟨m, -, -, rfl⟩ | ⟨i, m, c, -, hc, -, rfl⟩ |
      ⟨-, rfl⟩ | ⟨c, -, h⟩
    · exact hi.same (List.Sublist.refl _) rfl
    · exact hi.same (List.Sublist.refl _) rfl
    · exact hi.setCall hc rfl id rfl
    · exact hi.same (List.Sublist.refl _) rfl
    · exact hclose h (by simp)
  · rcases stepWriter_cases h with ⟨o, rest, hw, hwc, rfl⟩ | ⟨hw, -, rfl⟩ | ⟨o, hw, rfl⟩ |
      ⟨o, -, rfl⟩ | ⟨c, hw, h⟩
    · exact hi.same (by simp [outs, hw, hwc, WriterPc.holding]) rfl
    · exact hi.same (by simp [outs, hw, WriterPc.holding]) rfl
    · exact hi.same (by simp [outs, hw, WriterPc.holding]) rfl
    · exact hi.same (outs_sublist_of_holding (by simp) rfl rfl) rfl
    · exact hclose h fun _ => by simp [hw]
  · obtain ⟨t, -, h⟩ := stepTask_cases h
    rcases h with ⟨-, -, rfl⟩ | ⟨-, f, resp, -, -, rfl⟩ | ⟨-, f, -, -, rfl⟩ | ⟨m, -, -, rfl⟩ |
      ⟨m, -, -, rfl⟩
    · exact hi.same (List.Sublist.refl _) rfl
    · exact hi.same (List.Sublist.refl _) rfl
    · exact hi.same (by simp [outs, panicked_eq]) (by simp [panicked_eq])
    · exact hi.congr [⟨m, .task t.src⟩] (by simp [outs]) (by simp) (fun j cj hj hun => .inl ⟨cj, hj, hun⟩)
        le_rfl
    · exact hi.same (List.Sublist.refl _) rfl
  · exact hclose h (by simp)
  · cases g with
    | reader => exact hi.same (List.Sublist.refl _) rfl
    | writer => exact hi.same (outs_sublist_of_holding (by simp [panicked]) rfl rfl) rfl
    | _ => simp [running] at hg

theorem SentOnce.reachable {hd : Handler} (h : Reachable hd s) : s.SentOnce := by
  induction h with
  | init => exact newStream_sentOnce _
  | step a _ hs ih => exact ih.step hs

theorem WireInv.requestID_eq (hw : s.WireInv) {o : Out} (ho : o ∈ s.outs) {b : UInt64}
    (hb : o.requestID = some b) :
    ∃ i c, o.origin = .call i ∧ s.calls[i]? = some c ∧ c.pc.allocated ∧ c.id = b := by
  unfold Out.requestID at hb
  cases horig : o.origin with
  | task _ => simp [horig] at hb
  | call i =>
    simp only [horig, Option.some.injEq] at hb
    obtain ⟨c, hc, ha, hm⟩ := hw.callOut o ho i horig
    exact ⟨i, c, rfl, hc, ha, by rw [← hb, hm]; rfl⟩

/-- While fewer than `2^64` calls have started, at most one request on its way carries a given ID:
every request with that ID is the same call's, whose request is on its way at most once. -/
theorem requestID_countP_le {hd : Handler} (h : Reachable hd s) (hb : s.calls.length < 2 ^ 64)
    (b : UInt64) : s.outs.countP (fun o => decide (o.requestID = some b)) ≤ 1 := by
  have hw := WireInv.reachable h
  have hid := IdsInv.reachable h hb
  by_cases hex : ∃ o ∈ s.outs, o.requestID = some b
  · obtain ⟨o₀, ho₀, hb₀⟩ := hex
    obtain ⟨i, c, -, hc, ha, hcb⟩ := hw.requestID_eq ho₀ hb₀
    refine (List.countP_mono_left fun o ho hob => ?_).trans ((SentOnce.reachable h).once i)
    obtain ⟨j, cj, hoj, hcj, haj, hjb⟩ := hw.requestID_eq ho (by simpa using hob)
    have hji : j = i := hid.distinct j i cj c hcj hc haj ha (hjb.trans hcb.symm)
    simp [hoj, hji]
  · rw [List.countP_eq_zero.2 fun o ho hob => hex ⟨o, ho, by simpa using hob⟩]
    exact Nat.zero_le _

/-- While fewer than `2^64` calls have started, the requests on their way to the connection, or
already written to it, carry pairwise distinct message IDs. -/
theorem request_ids_distinct {hd : Handler} (h : Reachable hd s) (hb : s.calls.length < 2 ^ 64) :
    (s.outs.filterMap Out.requestID).Nodup :=
  List.nodup_filterMap_of_countP _ (requestID_countP_le h hb)

/-- Two calls, each past its first `select`: both requests wait on `writeCh`, with IDs 1 and 2. -/
theorem request_ids_distinct_two_calls :
    ∃ s, Reachable (fun _ => none) s ∧ s.calls.length < 2 ^ 64 ∧
      s.outs.filterMap Out.requestID = [1, 2] ∧ (s.outs.filterMap Out.requestID).Nodup :=
  have hr := @Reachable.run (fun _ => none) _ _ .init
    [.rpc 0 [], .step (.call 0) .proceed, .step (.call 0) .proceed, .step (.call 0) .proceed,
      .rpc 0 [], .step (.call 1) .proceed, .step (.call 1) .proceed,
      .step (.call 1) .proceed] rfl
  have hb : _ := (by decide : (_ : Stream).calls.length < 2 ^ 64)
  ⟨_, hr, hb, by decide, request_ids_distinct hr hb⟩

end Stream

end Piko.Rpc

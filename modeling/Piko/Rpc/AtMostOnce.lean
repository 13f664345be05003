import Piko.Rpc.Pair
import Piko.Rpc.Requests

/-! # At-most-once execution

A side writes each of its calls' requests at most once, with distinct IDs while it has made fewer
than 2^64 calls; the connection delivers each frame once; and the peer runs its handler on a
request frame only in the `handleRequest` goroutine spawned for it, once. So the peer's handler
never runs twice on requests with the same ID (`handler_runs_once_per_id`): an RPC is executed at
most once, whatever the interleaving and whichever side's goroutines panic or fail.

* `RunsInv s`: every handler run of `s` was on a request frame it received.
-/

namespace Piko.Rpc
set_option autoImplicit false

theorem List.two_le_countP {α : Type} (p : α → Bool) :
    ∀ {l : List α} {i j : Nat} {x y : α}, i < j → l[i]? = some x → l[j]? = some y →
      p x = true → p y = true → 2 ≤ l.countP p
  | [], _, _, _, _, _, hx, _, _, _ => by simp at hx
  | _ :: _, _, 0, _, _, hij, _, _, _, _ => absurd hij (Nat.not_lt_zero _)
  | a :: l, 0, j + 1, x, y, _, hx, hy, hpx, hpy => by
    simp only [List.getElem?_cons_zero, Option.some.injEq, List.getElem?_cons_succ] at hx hy
    subst hx
    have : 0 < l.countP p := List.countP_pos_iff.2 ⟨y, List.getElem?_mem hy, hpy⟩
    rw [List.countP_cons_of_pos _ _ hpx]
    omega
  | a :: l, i + 1, j + 1, x, y, hij, hx, hy, hpx, hpy => by
    simp only [List.getElem?_cons_succ] at hx hy
    have := List.two_le_countP p (Nat.lt_of_succ_lt_succ hij) hx hy hpx hpy
    rw [List.countP_cons]
    omega

theorem List.eq_of_countP_le_one {α : Type} {p : α → Bool} {l : List α} (h : l.countP p ≤ 1)
    {i j : Nat} {x y : α} (hx : l[i]? = some x) (hy : l[j]? = some y) (hpx : p x = true)
    (hpy : p y = true) : i = j := by
  rcases lt_trichotomy i j with hij | rfl | hij
  · exact absurd (List.two_le_countP p hij hx hy hpx hpy) (by omega)
  · rfl
  · exact absurd (List.two_le_countP p hij hy hx hpy hpx) (by omega)

namespace Stream

variable {s s' : Stream}

theorem WireInv.requestID_of_request (hw : s.WireInv) {o : Out} (ho : o ∈ s.outs)
    (hr : o.msg.header.flags.response = false) : o.requestID = some o.msg.header.id := by
  cases horig : o.origin with
  | call _ => simp [Out.requestID, horig]
  | task k =>
    obtain ⟨q, -, -, ha⟩ := hw.taskOut o ho k horig
    simp [(Answers.header ha).1] at hr

/-- Every handler run was on a request frame the reader received. -/
def RunsInv (s : Stream) : Prop :=
  ∀ k ∈ s.runs, ∃ q, s.received[k]? = some q ∧ q.header.flags.response = false

theorem RunsInv.congr (hi : s.RunsInv) (hr : s'.runs = s.runs)
    (hrec : s.received <+: s'.received) : s'.RunsInv := fun k hk => by
  obtain ⟨q, hq, hqr⟩ := hi k (hr ▸ hk)
  exact ⟨q, List.IsPrefix.getElem?_eq_some hrec hq, hqr⟩

theorem RunsInv.addRun (hi : s.RunsInv) (hw : s.WireInv) {i : Nat} {t : Task}
    (ht : s.tasks[i]? = some t) (hr : s'.runs = s.runs ++ [t.src])
    (hrec : s'.received = s.received) : s'.RunsInv := fun k hk => by
  rw [hr, List.mem_append, List.mem_singleton] at hk
  rcases hk with hk | rfl
  · exact hrec ▸ hi k hk
  · exact ⟨t.msg, hrec ▸ (hw.task i t ht).1, (hw.task i t ht).2⟩

theorem RunsInv.step (hi : s.RunsInv) (hw : s.WireInv) {a : Action} (h : s.step a = some s') :
    s'.RunsInv := by
  have hrec : s.received <+: s'.received := by
    rcases step_received h with h | ⟨m, -, h⟩ <;> rw [h]
    exact List.prefix_append _ _
  have same : s'.runs = s.runs → s'.RunsInv := fun hr => hi.congr hr hrec
  rcases (step_cases h).2 with ⟨t, req, rfl⟩ | rfl | ⟨i, e, c, -, -, rfl⟩ | ⟨f, -, h⟩ |
    ⟨i, k, h⟩ | ⟨k, h⟩ | ⟨k, h⟩ | ⟨i, k, h⟩ | ⟨i, c, k, -, h⟩ | ⟨g, -, rfl⟩
  · exact same rfl
  · exact same rfl
  · exact same rfl
  · obtain ⟨-, ⟨m, -, -, rfl⟩ | ⟨m, -, -, rfl⟩ | rfl⟩ := stepRead_cases h <;> exact same rfl
  · obtain ⟨c, -, h⟩ := stepCall_cases h
    rcases h with ⟨-, rfl⟩ | ⟨-, rfl⟩ | ⟨-, -, rfl⟩ | ⟨-, m, -, rfl⟩ | ⟨-, -, rfl⟩ |
      ⟨-, e, -, rfl⟩ | ⟨r, -, rfl⟩ <;> exact same rfl
  · rcases stepReader_cases h with ⟨m, i, -, -, rfl⟩ | ⟨m, -, -, rfl⟩ | ⟨i, m, c, -, -, -, rfl⟩ |
      ⟨-, rfl⟩ | ⟨c, -, h⟩
    all_goals first | exact same rfl | exact same (closeStep_frame h).2.2.2.2.2.2.2.1
  · rcases stepWriter_cases h with ⟨o, rest, -, -, rfl⟩ | ⟨-, -, rfl⟩ | ⟨o, -, rfl⟩ | ⟨o, -, rfl⟩ |
      ⟨c, -, h⟩
    all_goals first | exact same rfl | exact same (closeStep_frame h).2.2.2.2.2.2.2.1
  · obtain ⟨t, ht, h⟩ := stepTask_cases h
    rcases h with ⟨-, -, rfl⟩ | ⟨-, f, resp, -, -, rfl⟩ | ⟨-, f, -, -, rfl⟩ | ⟨m, -, -, rfl⟩ |
      ⟨m, -, -, rfl⟩
    · exact same rfl
    · exact hi.addRun hw ht rfl rfl
    · exact hi.addRun hw ht (by rw [panicked_eq]) (by rw [panicked_eq])
    · exact same rfl
    · exact same rfl
  · exact same (closeStep_frame h).2.2.2.2.2.2.2.1
  · exact same (by rw [panicked_eq])

theorem RunsInv.reachable {hd : Handler} (h : Reachable hd s) : s.RunsInv := by
  induction h with
  | init => exact fun k hk => by simp [newStream] at hk
  | step a hr hs ih => exact ih.step (WireInv.reachable hr) hs

end Stream

namespace Pair

/-- At-most-once execution: in every reachable pair in which side `a` has made fewer than 2^64
calls, the IDs of the request frames side `b` has run its handler on are pairwise distinct, so no
request of `a` is executed twice. -/
theorem handler_runs_once_per_id {ha hb : Handler} {p : Pair} (h : Reachable ha hb p)
    (hca : p.a.calls.length < 2 ^ 64) :
    ((p.b.runs.filterMap fun k => p.b.received[k]?).map (·.header.id)).Nodup := by
  obtain ⟨hra, hrb, -, hba⟩ := h.streams
  have hw := Stream.WireInv.reachable hra
  -- the frame of a handler run is a request `a` wrote, at the same place, with that ID
  have hrun : ∀ k ∈ p.b.runs, ∃ q o, p.b.received[k]? = some q ∧ p.a.written[k]? = some o ∧
      o.requestID = some q.header.id := fun k hk => by
    obtain ⟨q, hq, hqr⟩ := Stream.RunsInv.reachable hrb k hk
    have hw' := List.IsPrefix.getElem?_eq_some hba hq
    rw [List.getElem?_map, Option.map_eq_some'] at hw'
    obtain ⟨o, ho, rfl⟩ := hw'
    exact ⟨o.msg, o, hq, ho, hw.requestID_of_request
      (Stream.mem_outs_of_written (List.getElem?_mem ho)) hqr⟩
  -- `a` wrote at most one request with a given ID
  have hone : ∀ b, p.a.written.countP (fun o => decide (o.requestID = some b)) ≤ 1 := fun b =>
    ((List.sublist_append_left _ _).trans (List.sublist_append_left _ _) |>.countP_le _).trans
      (Stream.requestID_countP_le hra hca b)
  rw [List.map_filterMap]
  refine (List.Pairwise.and_mem.1 (Stream.WireInv.reachable hrb).runs_nodup).filterMap _
    fun k k' ⟨hk, hk', hne⟩ b hb b' hb' hbb => hne ?_
  obtain ⟨q, o, hq, ho, hoq⟩ := hrun k hk
  obtain ⟨q', o', hq', ho', hoq'⟩ := hrun k' hk'
  simp only [hq, hq', Option.map_some', Option.mem_def, Option.some.injEq] at hb hb'
  subst hb hb'
  exact List.eq_of_countP_le_one (hone q.header.id) ho ho' (by simp [hoq])
    (by simp [hoq', hbb])

/-- Side `a` sends two requests and side `b`, echoing, runs its handler on both: IDs 1 and 2. -/
theorem handler_runs_once_per_id_two_calls :
    ∃ p, Reachable (fun _ => some .returns) (fun _ => some .returns) p ∧
      p.a.calls.length < 2 ^ 64 ∧
      (p.b.runs.filterMap fun k => p.b.received[k]?).map (·.header.id) = [1, 2] ∧
      ((p.b.runs.filterMap fun k => p.b.received[k]?).map (·.header.id)).Nodup :=
  have hr := @Reachable.run (fun _ => some .returns) (fun _ => some .returns) _ _ .init
    [(.a, .rpc 0 [5]), (.a, .step (.call 0) .proceed), (.a, .step (.call 0) .proceed),
     (.a, .step (.call 0) .proceed), (.a, .rpc 0 [6]), (.a, .step (.call 1) .proceed),
     (.a, .step (.call 1) .proceed), (.a, .step (.call 1) .proceed),
     (.a, .step .writer .proceed), (.a, .step .writer .proceed),
     (.a, .step .writer .proceed), (.a, .step .writer .proceed),
     (.b, .read (.frame (request 0 1 [5]))), (.b, .step .reader .proceed),
     (.b, .read (.frame (request 0 2 [6]))), (.b, .step (.task 0) .proceed),
     (.b, .step (.task 1) .proceed)]
    rfl
  ⟨_, hr, by decide, rfl, handler_runs_once_per_id hr (by decide)⟩

end Pair

end Piko.Rpc

import Piko.Rpc.AtMostOnce

/-! # When the reader blocks

In `handleResponse` (stream.go) the reader sends the response frame into the one-element `ch` of
the call registered under its ID, and blocks while that buffer is full. A full buffer holds an
earlier response with the same ID, which the call has not taken: so the reader blocks only after a
response ID has come twice (`reader_blocked_only_after_duplicate`). Between two streams running
this code that never happens while each has made fewer than 2^64 calls: a side writes one request
per ID, and the peer answers each request frame once (`readers_never_block`).

* `respondsTo x m`: frame `m` is a response carrying ID `x`.
* `SlotFresh s`: no slot holds the frame the reader is handling, as long as its ID came once.
-/

namespace Piko.Rpc
set_option autoImplicit false

/-- A predicate that holds at no two places of a list holds at most once. -/
theorem List.countP_le_one_of_eq {α : Type} {p : α → Bool} : ∀ {l : List α},
    (∀ (i j : Nat) (x y : α), l[i]? = some x → l[j]? = some y → p x = true → p y = true →
      i = j) → l.countP p ≤ 1
  | [], _ => by simp
  | a :: l, h => by
    have htail : ∀ (i j : Nat) (x y : α), l[i]? = some x → l[j]? = some y → p x = true →
        p y = true → i = j :=
      fun i j x y hx hy hpx hpy => Nat.succ.inj (h (i + 1) (j + 1) x y (by simpa using hx)
        (by simpa using hy) hpx hpy)
    by_cases ha : p a
    · -- then it holds nowhere in the tail
      have hz : l.countP p = 0 := List.countP_eq_zero.2 fun y hy hpy => by
        obtain ⟨j, hj⟩ := List.mem_iff_getElem?.1 hy
        exact Nat.succ_ne_zero j (h 0 (j + 1) a y (by simp) (by simpa using hj) ha hpy).symm
      rw [List.countP_cons_of_pos _ _ ha, hz]
    · rw [List.countP_cons_of_neg _ _ ha]
      exact List.countP_le_one_of_eq htail

theorem List.eq_of_mem_of_countP_le_one {α : Type} {p : α → Bool} {l : List α}
    (h : l.countP p ≤ 1) {x y : α} (hx : x ∈ l) (hy : y ∈ l) (hpx : p x = true)
    (hpy : p y = true) : x = y := by
  obtain ⟨i, hi⟩ := List.mem_iff_getElem?.1 hx
  obtain ⟨j, hj⟩ := List.mem_iff_getElem?.1 hy
  obtain rfl := List.eq_of_countP_le_one h hi hj hpx hpy
  exact Option.some.inj (hi.symm.trans hj)

/-- Frame `m` is a response carrying ID `x`. -/
def respondsTo (x : UInt64) (m : Message) : Bool := m.header.flags.response && m.header.id == x

@[simp] theorem respondsTo_eq_true {x : UInt64} {m : Message} :
    respondsTo x m = true ↔ m.header.flags.response = true ∧ m.header.id = x := by
  simp [respondsTo]

/-- The response frame the reader is handling in `handleResponse`. -/
def ReaderPc.handling : ReaderPc → Option Message
  | .find m | .send _ m => some m
  | _ => none

namespace Stream

variable {s s' : Stream}

/-! ## What one step does to the reader's frame and to the slots -/

theorem handling_of_frame (hf : ∀ m, s'.reader = .find m → s.reader = .find m)
    (hs : ∀ i m, s'.reader = .send i m → s.reader = .send i m) {m : Message}
    (hm : s'.reader.handling = some m) : s.reader.handling = some m := by
  cases hr : s'.reader <;> rw [hr] at hm <;> simp only [ReaderPc.handling, reduceCtorEq] at hm
  · rw [hf _ hr]; exact hm
  · rw [hs _ _ hr]; exact hm

/-- The reader handles the frame it was handling, or the one it has just read. -/
theorem step_handling {a : Action} (h : s.step a = some s') {m : Message}
    (hm : s'.reader.handling = some m) :
    s.reader.handling = some m ∨ s'.received = s.received ++ [m] := by
  have same : s'.reader = s.reader → s.reader.handling = some m ∨ s'.received = s.received ++ [m] :=
    fun hr => .inl (hr ▸ hm)
  rcases (step_cases h).2 with ⟨t, req, rfl⟩ | rfl | ⟨i, e, c, -, -, rfl⟩ | ⟨f, -, h⟩ |
    ⟨i, k, h⟩ | ⟨k, h⟩ | ⟨k, h⟩ | ⟨i, k, h⟩ | ⟨i, c, k, -, h⟩ | ⟨g, -, rfl⟩
  · exact same rfl
  · exact same rfl
  · exact same rfl
  · obtain ⟨-, ⟨m', -, -, rfl⟩ | ⟨m', -, -, rfl⟩ | rfl⟩ := stepRead_cases h
    · -- the reader has read a response
      obtain rfl : m' = m := Option.some.inj hm
      exact .inr rfl
    all_goals simp [ReaderPc.handling] at hm
  · obtain ⟨c, -, h⟩ := stepCall_cases h
    rcases h with ⟨-, rfl⟩ | ⟨-, rfl⟩ | ⟨-, -, rfl⟩ | ⟨-, m', -, rfl⟩ | ⟨-, -, rfl⟩ |
      ⟨-, e, -, rfl⟩ | ⟨r, -, rfl⟩ <;> exact same rfl
  · rcases stepReader_cases h with ⟨m', i, hr, -, rfl⟩ | ⟨m', -, -, rfl⟩ | ⟨i, m', c, -, -, -, rfl⟩ |
      ⟨-, rfl⟩ | ⟨c, -, h⟩
    · -- `findResponseHandler` found a `ch`
      exact .inl (by rw [hr]; exact hm)
    · simp [ReaderPc.handling] at hm
    · simp [ReaderPc.handling] at hm
    · split at hm <;> simp [ReaderPc.handling] at hm
    · obtain ⟨-, -, -, -, -, -, -, -, -, -, hf, hs⟩ := closeStep_frame h
      exact .inl (handling_of_frame hf hs hm)
  · rcases stepWriter_cases h with ⟨o, rest, -, -, rfl⟩ | ⟨-, -, rfl⟩ | ⟨o, -, rfl⟩ |
      ⟨o, -, rfl⟩ | ⟨c, -, h⟩
    all_goals first | exact same rfl | exact same ((closeStep_frame h).2.2.2.2.2.2.2.2.2.1 nofun)
  · obtain ⟨t, -, h⟩ := stepTask_cases h
    rcases h with ⟨-, -, rfl⟩ | ⟨-, f, resp, -, -, rfl⟩ | ⟨-, f, -, -, rfl⟩ | ⟨m, -, -, rfl⟩ |
      ⟨m, -, -, rfl⟩
    all_goals exact same rfl
  · exact same ((closeStep_frame h).2.2.2.2.2.2.2.2.2.1 nofun)
  · rw [panicked_eq] at hm ⊢
    by_cases hg : g = .reader
    · simp [hg, ReaderPc.handling] at hm
    · exact .inl (by simpa [hg] using hm)

theorem slot_of_setCall {i j : Nat} {c c₀ c' : Call} {m : Message}
    (hc₀ : s.calls[i]? = some c₀) (hc : (s.setCall i c').calls[j]? = some c)
    (hs : c.slot = some m) (hslot : c'.slot = c₀.slot ∨ c'.slot = none) :
    ∃ c, s.calls[j]? = some c ∧ c.slot = some m := by
  rcases List.getElem?_set_eq_some hc with ⟨rfl, rfl⟩ | ⟨-, hc⟩
  · rcases hslot with h | h
    · exact ⟨c₀, hc₀, h ▸ hs⟩
    · simp [h] at hs
  · exact ⟨c, hc, hs⟩

/-- A slot full after a step was full before with the same frame, unless the step was the reader's
`ch <- m`, after which the reader handles no frame. -/
theorem step_slot {a : Action} (h : s.step a = some s') {i : Nat} {c' : Call} {m : Message}
    (hc' : s'.calls[i]? = some c') (hs : c'.slot = some m) :
    (∃ c, s.calls[i]? = some c ∧ c.slot = some m) ∨ s'.reader.handling = none := by
  have same : s'.calls = s.calls →
      (∃ c, s.calls[i]? = some c ∧ c.slot = some m) ∨ s'.reader.handling = none :=
    fun hcs => .inl ⟨c', hcs ▸ hc', hs⟩
  rcases (step_cases h).2 with ⟨t, req, rfl⟩ | rfl | ⟨j, e, c, hc, -, rfl⟩ | ⟨f, -, h⟩ |
    ⟨j, k, h⟩ | ⟨k, h⟩ | ⟨k, h⟩ | ⟨j, k, h⟩ | ⟨j, c, k, -, h⟩ | ⟨g, -, rfl⟩
  · -- a new call starts with an empty slot
    rcases List.getElem?_concat_eq_some hc' with ⟨-, rfl⟩ | hc'
    · simp at hs
    · exact .inl ⟨c', hc', hs⟩
  · exact same rfl
  · exact .inl (slot_of_setCall hc hc' hs (.inl rfl))
  · obtain ⟨-, ⟨m', -, -, rfl⟩ | ⟨m', -, -, rfl⟩ | rfl⟩ := stepRead_cases h <;> exact same rfl
  · obtain ⟨c, hc, h⟩ := stepCall_cases h
    rcases h with ⟨-, rfl⟩ | ⟨-, rfl⟩ | ⟨-, -, rfl⟩ | ⟨-, m', -, rfl⟩ | ⟨-, -, rfl⟩ |
      ⟨-, e, -, rfl⟩ | ⟨r, -, rfl⟩
    all_goals first
      | exact .inl (slot_of_setCall hc hc' hs (.inl rfl))
      | exact .inl (slot_of_setCall hc hc' hs (.inr rfl))
  · rcases stepReader_cases h with ⟨m', j, -, -, rfl⟩ | ⟨m', -, -, rfl⟩ | ⟨j, m', c, -, -, -, rfl⟩ |
      ⟨-, rfl⟩ | ⟨c, -, h⟩
    · exact same rfl
    · exact same rfl
    · -- `ch <- m`: the reader leaves `handleResponse`
      exact .inr rfl
    · exact same rfl
    · exact same (closeStep_frame h).1
  · rcases stepWriter_cases h with ⟨o, rest, -, -, rfl⟩ | ⟨-, -, rfl⟩ | ⟨o, -, rfl⟩ |
      ⟨o, -, rfl⟩ | ⟨c, -, h⟩
    all_goals first | exact same rfl | exact same (closeStep_frame h).1
  · obtain ⟨t, -, h⟩ := stepTask_cases h
    rcases h with ⟨-, -, rfl⟩ | ⟨-, f, resp, -, -, rfl⟩ | ⟨-, f, -, -, rfl⟩ | ⟨m, -, -, rfl⟩ |
      ⟨m, -, -, rfl⟩
    all_goals exact same rfl
  · exact same (closeStep_frame h).1
  · exact same (by rw [panicked_eq])

/-! ## No slot holds the frame the reader is handling -/

/-- No slot holds the response frame the reader is handling, as long as its ID came once. -/
def SlotFresh (s : Stream) : Prop :=
  ∀ m, s.reader.handling = some m → s.received.countP (respondsTo m.header.id) ≤ 1 →
    ∀ (i : Nat) (c : Call), s.calls[i]? = some c → c.slot ≠ some m

theorem SlotFresh.step (hi : s.SlotFresh) (hc : s.CallsInv) {a : Action}
    (h : s.step a = some s') : s'.SlotFresh := by
  intro m hm hone i c' hc' hslot
  have hrec : s.received <+: s'.received := by
    rcases step_received h with h | ⟨m, -, h⟩ <;> rw [h]
    exact List.prefix_append _ _
  rcases step_slot h hc' hslot with ⟨c, hci, hs⟩ | hnone
  · rcases step_handling h hm with hm₀ | hr
    · exact hi m hm₀ ((hrec.sublist.countP_le _).trans hone) i c hci hs
    · -- the frame just read is in no slot: a slot holds a frame received before
      obtain ⟨hmem, hresp, -⟩ := ((hc.calls i c hci).1 m hs).2
      have hpos : 0 < s.received.countP (respondsTo m.header.id) :=
        List.countP_pos_iff.2 ⟨m, hmem, by simp [hresp]⟩
      have hm₁ : [m].countP (respondsTo m.header.id) = 1 := by simp [hresp]
      rw [hr, List.countP_append, hm₁] at hone
      omega
  · rw [hnone] at hm
    cases hm

theorem SlotFresh.reachable {hd : Handler} (h : Reachable hd s) : s.SlotFresh := by
  induction h with
  | init => intro m hm; simp [newStream, ReaderPc.handling] at hm
  | step a hr hs ih => exact ih.step (CallsInv.reachable hr) hs

/-- At `ch <- m`, the slot of the call is empty if no other response with its ID was received. -/
theorem slot_empty_of_countP {hd : Handler} (h : Reachable hd s) {i : Nat} {m : Message}
    (hr : s.reader = .send i m) {c : Call} (hc : s.calls[i]? = some c)
    (hone : s.received.countP (respondsTo c.id) ≤ 1) : c.slot = none := by
  have hcalls := CallsInv.reachable h
  obtain ⟨c₀, hc₀, -, hmem, hresp, hid⟩ := hcalls.send i m hr
  obtain rfl : c₀ = c := Option.some.inj (hc₀.symm.trans hc)
  cases hs : c₀.slot with
  | none => rfl
  | some m' =>
    obtain ⟨-, hmem', hresp', hid'⟩ := (hcalls.calls i c₀ hc₀).1 m' hs
    -- both are responses with the call's ID: the same frame, which the reader is handling
    obtain rfl : m' = m := List.eq_of_mem_of_countP_le_one hone hmem' hmem (by simp [hresp', hid'])
      (by simp [hresp, hid])
    exact absurd hs (SlotFresh.reachable h _ (by simp [hr, ReaderPc.handling]) (by rwa [hid]) i c₀
      hc₀)

/-- The reader blocks only after a duplicated response: in every reachable state of a stream, if
the reader is at `ch <- m` and the slot of the call is full, the frames received hold two responses
with that call's ID. -/
theorem reader_blocked_only_after_duplicate {hd : Handler} (h : Reachable hd s) {i : Nat}
    {m : Message} (hr : s.reader = .send i m) {c : Call} (hc : s.calls[i]? = some c)
    (hfull : c.slot ≠ none) : 2 ≤ s.received.countP (respondsTo c.id) := by
  by_contra hlt
  exact hfull (slot_empty_of_countP h hr hc (by omega))

/-- The peer sends the response to call 0 twice: the reader blocks on the full slot. -/
theorem reader_blocked_only_after_duplicate_twice :
    ∃ s c, Reachable (fun _ => none) s ∧
      s.reader = .send 0 ⟨⟨0, 1, ⟨1⟩⟩, []⟩ ∧ s.calls[0]? = some c ∧ c.slot ≠ none ∧
      2 ≤ s.received.countP (respondsTo c.id) :=
  have hr := @Reachable.run (fun _ => none) _ _ .init
    [.rpc 0 [], .step (.call 0) .proceed, .step (.call 0) .proceed, .step (.call 0) .proceed,
      .read (.frame ⟨⟨0, 1, ⟨1⟩⟩, []⟩), .step .reader .proceed, .step .reader .proceed,
      .step .reader .proceed, .read (.frame ⟨⟨0, 1, ⟨1⟩⟩, []⟩), .step .reader .proceed] rfl
  ⟨_, _, hr, rfl, rfl, Option.some_ne_none _,
    reader_blocked_only_after_duplicate hr rfl rfl (Option.some_ne_none _)⟩

/-! ## Between two streams of this code -/

variable {hs hp : Handler} {peer : Stream}

/-- Facing a peer running this code, a stream that has made fewer than 2^64 calls receives at most
one response per ID: each is the peer's one answer to a request frame, and the stream wrote one
request per ID. -/
theorem received_countP_respondsTo (hrs : Reachable hs s) (hrp : Reachable hp peer)
    (hsp : s.received <+: peer.written.map (·.msg)) (hps : peer.received <+: s.written.map (·.msg))
    (hb : s.calls.length < 2 ^ 64) (x : UInt64) : s.received.countP (respondsTo x) ≤ 1 := by
  have hag := agreement hrs hrp hsp hps hb
  have hw := WireInv.reachable hrs
  have hone : s.written.countP (fun o => decide (o.requestID = some x)) ≤ 1 :=
    ((List.sublist_append_left _ _).trans (List.sublist_append_left _ _) |>.countP_le _).trans
      (requestID_countP_le hrs hb x)
  -- a response with ID `x` at place `j` was written by the peer at `j`, answering the request
  -- frame at some place `k`, which `s` wrote at `k` with ID `x`
  have hsrc : ∀ j m, s.received[j]? = some m → respondsTo x m = true →
      ∃ (o : Out) (k : Nat) (o' : Out), peer.written[j]? = some o ∧ o.origin = .task k ∧
        s.written[k]? = some o' ∧ o'.requestID = some x := fun j m hm hx => by
    rw [respondsTo_eq_true] at hx
    have hm' := List.IsPrefix.getElem?_eq_some hsp hm
    rw [List.getElem?_map, Option.map_eq_some'] at hm'
    obtain ⟨o, ho, rfl⟩ := hm'
    obtain ⟨k, q, horig, hq, hqr, hid, -⟩ := hag.response o (List.getElem?_mem ho) hx.1
    have hq' := List.IsPrefix.getElem?_eq_some hps hq
    rw [List.getElem?_map, Option.map_eq_some'] at hq'
    obtain ⟨o', ho', rfl⟩ := hq'
    exact ⟨o, k, o', ho, horig, ho',
      (hw.requestID_of_request (mem_outs_of_written (List.getElem?_mem ho')) hqr).trans
        (by rw [← hid, hx.2])⟩
  refine List.countP_le_one_of_eq fun j₁ j₂ m₁ m₂ h₁ h₂ hx₁ hx₂ => ?_
  obtain ⟨o₁, k₁, o₁', ho₁, hk₁, ho₁', hid₁⟩ := hsrc j₁ m₁ h₁ hx₁
  obtain ⟨o₂, k₂, o₂', ho₂, hk₂, ho₂', hid₂⟩ := hsrc j₂ m₂ h₂ hx₂
  -- one request with ID `x`, so one request frame, answered once
  obtain rfl : k₁ = k₂ := List.eq_of_countP_le_one hone ho₁' ho₂' (by simp [hid₁])
    (by simp [hid₂])
  exact List.eq_of_countP_le_one (hag.one_response k₁) ho₁ ho₂ (by simp [hk₁]) (by simp [hk₂])

end Stream

namespace Pair

/-- Between two streams running this code, neither reader ever blocks on a response slot: in every
reachable pair in which each side has made fewer than 2^64 calls, a reader at `ch <- m` finds the
slot of the call empty. -/
theorem readers_never_block {ha hb : Handler} {p : Pair} (h : Reachable ha hb p)
    (hca : p.a.calls.length < 2 ^ 64) (hcb : p.b.calls.length < 2 ^ 64) :
    (∀ i m c, p.a.reader = .send i m → p.a.calls[i]? = some c → c.slot = none) ∧
    (∀ i m c, p.b.reader = .send i m → p.b.calls[i]? = some c → c.slot = none) := by
  obtain ⟨hra, hrb, hab, hba⟩ := h.streams
  exact ⟨fun i m c hr hc => Stream.slot_empty_of_countP hra hr hc
      (Stream.received_countP_respondsTo hra hrb hab hba hca c.id),
    fun i m c hr hc => Stream.slot_empty_of_countP hrb hr hc
      (Stream.received_countP_respondsTo hrb hra hba hab hcb c.id)⟩

/-- Side `a` calls and side `b` echoes; `a`'s reader is at `ch <- m` with the response: the slot is
empty. -/
theorem readers_never_block_echo :
    ∃ p, Reachable (fun _ => some .returns) (fun _ => some .returns) p ∧
      p.a.reader = .send 0 (response (request 0 1 [5]) [5]) ∧
      p.a.calls.length < 2 ^ 64 ∧ p.b.calls.length < 2 ^ 64 ∧
      (∀ i m c, p.a.reader = .send i m → p.a.calls[i]? = some c → c.slot = none) ∧
      (∀ i m c, p.b.reader = .send i m → p.b.calls[i]? = some c → c.slot = none) :=
  have hr := @Reachable.run (fun _ => some .returns) (fun _ => some .returns) _ _ .init
    [(.a, .rpc 0 [5]), (.a, .step (.call 0) .proceed), (.a, .step (.call 0) .proceed),
     (.a, .step (.call 0) .proceed), (.a, .step .writer .proceed), (.a, .step .writer .proceed),
     (.b, .read (.frame (request 0 1 [5]))), (.b, .step (.task 0) .proceed),
     (.b, .step (.task 0) .proceed), (.b, .step .writer .proceed), (.b, .step .writer .proceed),
     (.a, .read (.frame (response (request 0 1 [5]) [5]))), (.a, .step .reader .proceed)]
    rfl
  ⟨_, hr, rfl, by decide, by decide, readers_never_block hr (by decide) (by decide)⟩

end Pair

end Piko.Rpc

import Piko.Rpc.Wire
import Piko.Rpc.ResponseTable
import Piko.Rpc.Frame

/-! # Two streams on one connection

Two streams, `a` and `b`, at the two ends of a connection that delivers every written frame exactly
once and in order: a side's reader reads the frames its peer's writer wrote, in order, each once.
The header codec is exact, so a frame decodes to the message that was written; a read may still
fail, when the connection breaks. Either side takes a step at any time.

* `Pair.Reachable.streams`: each side is a reachable stream, and what each side has received is a
  prefix of what the other wrote.
* `Agreement`: what one side's calls return is what the peer's handler computes on their requests,
  and the peer answers each request frame at most once, with a response carrying its ID and type.
  It rests on the wire invariant of both sides and on the distinct IDs of the caller's calls, which
  hold while it has made fewer than 2^64 calls.
-/

namespace Piko.Rpc
set_option autoImplicit false

/-- The two ends of a connection. -/
structure Pair where
  a : Stream
  b : Stream

inductive Side
  | a
  | b
  deriving DecidableEq, Repr

namespace Pair

/-- Whether the connection lets side `self`, whose peer is `peer`, take action `act`: a frame it
reads is the next frame the peer wrote, and it decodes. -/
def delivers (peer self : Stream) : Stream.Action → Bool
  | .read (.frame m) => (peer.written.map (·.msg))[self.received.length]? == some m
  | .read .undecodable => false
  | _ => true

/-- One step of one side. -/
def step (p : Pair) : Side → Stream.Action → Option Pair
  | .a, act => if delivers p.b p.a act then (p.a.step act).map fun a => { p with a := a } else none
  | .b, act => if delivers p.a p.b act then (p.b.step act).map fun b => { p with b := b } else none

def run (p : Pair) : List (Side × Stream.Action) → Option Pair
  | [] => some p
  | (side, act) :: as => (p.step side act).bind fun p' => p'.run as

/-- The states two streams with handlers `ha` and `hb` reach from `NewStream`. -/
inductive Reachable (ha hb : Handler) : Pair → Prop
  | init : Reachable ha hb ⟨newStream ha, newStream hb⟩
  | step {p p' : Pair} (side : Side) (act : Stream.Action) :
      Reachable ha hb p → p.step side act = some p' → Reachable ha hb p'

theorem Reachable.run {ha hb : Handler} {p p' : Pair} (hp : Reachable ha hb p) :
    ∀ {as : List (Side × Stream.Action)}, p.run as = some p' → Reachable ha hb p'
  | [], e => by cases e; exact hp
  | (side, act) :: as, e => by
    simp only [Pair.run, Option.bind_eq_some] at e
    obtain ⟨p₁, h₁, e⟩ := e
    exact (hp.step side act h₁).run e

/-! ## The connection -/

theorem List.prefix_concat_of_getElem? {α : Type} {l₁ l₂ : List α} {x : α} (h : l₁ <+: l₂)
    (hx : l₂[l₁.length]? = some x) : l₁ ++ [x] <+: l₂ := by
  obtain ⟨t, rfl⟩ := h
  cases t with
  | nil => simp at hx
  | cons y t =>
    rw [List.getElem?_append_right (Nat.le_refl _), Nat.sub_self] at hx
    obtain rfl : y = x := by simpa using hx
    exact ⟨t, by simp⟩

variable {self self' peer : Stream} {act : Stream.Action}

theorem received_prefix (hd : delivers peer self act = true) (h : self.step act = some self')
    (hp : self.received <+: peer.written.map (·.msg)) :
    self'.received <+: peer.written.map (·.msg) := by
  rcases Stream.step_received h with he | ⟨m, rfl, he⟩
  · rwa [he]
  · rw [he]
    exact List.prefix_concat_of_getElem? hp (by simpa [delivers] using hd)

theorem written_prefix (h : self.step act = some self')
    (hp : peer.received <+: self.written.map (·.msg)) :
    peer.received <+: self'.written.map (·.msg) :=
  hp.trans ((Stream.step_written h).map _)

theorem step_cases {p p' : Pair} {side : Side} (h : p.step side act = some p') :
    (side = .a ∧ delivers p.b p.a act = true ∧
      ∃ a', p.a.step act = some a' ∧ p' = { p with a := a' }) ∨
    (side = .b ∧ delivers p.a p.b act = true ∧
      ∃ b', p.b.step act = some b' ∧ p' = { p with b := b' }) := by
  cases side <;> simp only [step] at h <;> split at h <;>
    simp_all only [Option.map_eq_some', reduceCtorEq, true_and, false_and, or_false, false_or]
  all_goals obtain ⟨x, hx, rfl⟩ := h; exact ⟨x, hx, rfl⟩

/-- Each side of a reachable pair is a reachable stream, and has received a prefix of what the
other wrote. -/
theorem Reachable.streams {ha hb : Handler} {p : Pair} (h : Reachable ha hb p) :
    Stream.Reachable ha p.a ∧ Stream.Reachable hb p.b ∧
      p.a.received <+: p.b.written.map (·.msg) ∧ p.b.received <+: p.a.written.map (·.msg) := by
  induction h with
  | init => exact ⟨.init, .init, List.nil_prefix, List.nil_prefix⟩
  | step side act _ hs ih =>
    obtain ⟨hra, hrb, hab, hba⟩ := ih
    rcases step_cases hs with ⟨-, hd, a', ha', rfl⟩ | ⟨-, hd, b', hb', rfl⟩
    · exact ⟨hra.step act ha', hrb, received_prefix hd ha' hab, written_prefix ha' hba⟩
    · exact ⟨hra, hrb.step act hb', written_prefix hb' hab, received_prefix hd hb' hba⟩

end Pair

/-! ## Agreement -/

/-- What one direction of the connection guarantees, for the calls of `s` and the peer `peer`
whose handler is `h`. -/
structure Agreement (h : Handler) (s peer : Stream) : Prop where
  /-- A call that returns a payload and no error returns the peer's handler's result on its
  request. -/
  returns : ∀ (i : Nat) (c : Call) (q : Payload), s.calls[i]? = some c →
    c.pc = .returned ⟨some q, none⟩ → ∃ f, h c.rpcType = some f ∧ f c.req = .returns q
  /-- A call returns the not-supported error only if the peer has no handler for its type. -/
  notSupported : ∀ (i : Nat) (c : Call), s.calls[i]? = some c →
    c.pc = .returned ⟨none, some .notSupported⟩ → h c.rpcType = none
  /-- The peer ran its handler at most once per request frame. -/
  runs_nodup : peer.runs.Nodup
  /-- The peer wrote at most one answer to each request frame it received ... -/
  one_response : ∀ k, peer.written.countP (·.origin = .task k) ≤ 1
  /-- ... and every response it wrote answers a request frame it received, with that frame's ID
  and type. -/
  response : ∀ o ∈ peer.written, o.msg.header.flags.response = true →
    ∃ k q, o.origin = .task k ∧ peer.received[k]? = some q ∧ q.header.flags.response = false ∧
      o.msg.header.id = q.header.id ∧ o.msg.header.rpcType = q.header.rpcType

namespace Stream

variable {hs hp : Handler} {s peer : Stream}

theorem request_of_received (hrs : Reachable hs s)
    (hps : peer.received <+: s.written.map (·.msg)) {q : Message} (hq : q ∈ peer.received)
    (hr : q.header.flags.response = false) :
    ∃ (j : Nat) (c : Call), s.calls[j]? = some c ∧ c.pc.allocated ∧
      q = request c.rpcType c.id c.req := by
  obtain ⟨o, ho, rfl⟩ := List.mem_map.1 (hps.subset hq)
  have hi := WireInv.reachable hrs
  cases horig : o.origin with
  | call j =>
    obtain ⟨c, hc, hal, hm⟩ := hi.callOut o (mem_outs_of_written ho) j horig
    exact ⟨j, c, hc, hal, hm⟩
  | task k =>
    obtain ⟨q', -, -, ha⟩ := hi.taskOut o (mem_outs_of_written ho) k horig
    simp [(Answers.header ha).1] at hr

theorem answered (hrs : Reachable hs s) (hrp : Reachable hp peer)
    (hsp : s.received <+: peer.written.map (·.msg)) (hps : peer.received <+: s.written.map (·.msg))
    {m : Message} (hm : m ∈ s.received) (hr : m.header.flags.response = true) :
    ∃ (j : Nat) (c : Call), s.calls[j]? = some c ∧ c.pc.allocated ∧
      Answers hp (request c.rpcType c.id c.req) m := by
  obtain ⟨o, ho, rfl⟩ := List.mem_map.1 (hsp.subset hm)
  have hi := WireInv.reachable hrp
  cases horig : o.origin with
  | call j =>
    obtain ⟨c, -, -, hm⟩ := hi.callOut o (mem_outs_of_written ho) j horig
    simp [hm] at hr
  | task k =>
    obtain ⟨q, hq, hqr, ha⟩ := hi.taskOut o (mem_outs_of_written ho) k horig
    obtain ⟨j, c, hc, hal, rfl⟩ := request_of_received hrs hps (List.getElem?_mem hq) hqr
    exact ⟨j, c, hc, hal, hrp.handler ▸ ha⟩

/-- One direction of the connection: the calls of `s` against the peer, while `s` has made fewer
than 2^64 calls. -/
theorem agreement (hrs : Reachable hs s) (hrp : Reachable hp peer)
    (hsp : s.received <+: peer.written.map (·.msg)) (hps : peer.received <+: s.written.map (·.msg))
    (hb : s.calls.length < 2 ^ 64) : Agreement hp s peer := by
  have hids := IdsInv.reachable hrs hb
  have hcalls := CallsInv.reachable hrs
  have hw := WireInv.reachable hrp
  -- a response a returned call took from its slot answers that call's own request
  have hown : ∀ (i : Nat) (c : Call) (r : Return) (m : Message), s.calls[i]? = some c →
      c.pc = .returned r → s.Delivered c m → Answers hp (request c.rpcType c.id c.req) m := by
    intro i c r m hc hpc ⟨hm, hr, hid⟩
    obtain ⟨j, c', hc', hal', ha⟩ := answered hrs hrp hsp hps hm hr
    obtain rfl : i = j := hids.distinct i j c c' hc hc' (by simp [hpc, CallPc.allocated]) hal'
      (hid.symm.trans (Answers.header ha).2.1)
    obtain rfl : c' = c := Option.some.inj (hc'.symm.trans hc)
    exact ha
  refine ⟨fun i c q hc hpc => ?_, fun i c hc hpc => ?_, hw.runs_nodup, fun k => ?_,
    fun o ho hr => ?_⟩
  · obtain ⟨m, hd, hens, hq⟩ := (hcalls.calls i c hc).2 _ (.inr hpc)
    rcases hown i c _ m hc hpc hd with ⟨-, rfl⟩ | ⟨f, resp, hf, hres, rfl⟩
    · simp at hens
    · obtain rfl : resp = q := hq
      exact ⟨f, hf, hres⟩
  · obtain ⟨m, hd, hens⟩ := (hcalls.calls i c hc).2 _ (.inr hpc)
    rcases hown i c _ m hc hpc hd with ⟨hn, rfl⟩ | ⟨f, resp, -, -, rfl⟩
    · exact hn
    · simp at hens
  · exact (((List.sublist_append_left _ _).trans (List.sublist_append_left _ _)).countP_le _).trans
      (hw.once k)
  · cases horig : o.origin with
    | call j =>
      obtain ⟨c, -, -, hm⟩ := hw.callOut o (mem_outs_of_written ho) j horig
      simp [hm] at hr
    | task k =>
      obtain ⟨q, hq, hqr, ha⟩ := hw.taskOut o (mem_outs_of_written ho) k horig
      exact ⟨k, q, rfl, hq, hqr, (Answers.header ha).2⟩

end Stream

namespace Pair

/-- Two-party agreement: in every reachable pair in which each side has made fewer than 2^64 calls,
each side's calls get what the other side's handler computes on their requests, and each side
answers every request frame it received at most once, with a response carrying its ID and type. -/
theorem rpc_agreement {ha hb : Handler} {p : Pair} (h : Reachable ha hb p)
    (hca : p.a.calls.length < 2 ^ 64) (hcb : p.b.calls.length < 2 ^ 64) :
    Agreement hb p.a p.b ∧ Agreement ha p.b p.a :=
  let ⟨hra, hrb, hab, hba⟩ := h.streams
  ⟨Stream.agreement hra hrb hab hba hca, Stream.agreement hrb hra hba hab hcb⟩

/-- Side `a` calls type 0 with payload `[5]` and side `b` echoes: the call returns `[5]`. -/
theorem rpc_agreement_echo :
    ∃ p, Reachable (fun _ => some .returns) (fun _ => some .returns) p ∧
      p.a.calls[0]?.map (·.pc) = some (.returned ⟨some [5], none⟩) ∧
      (p.a.calls.length < 2 ^ 64 ∧ p.b.calls.length < 2 ^ 64) ∧
      (Agreement (fun _ => some .returns) p.a p.b ∧ Agreement (fun _ => some .returns) p.b p.a) :=
  have hr := @Reachable.run (fun _ => some .returns) (fun _ => some .returns) _ _ .init
    [(.a, .rpc 0 [5]), (.a, .step (.call 0) .proceed), (.a, .step (.call 0) .proceed),
     (.a, .step (.call 0) .proceed), (.a, .step .writer .proceed), (.a, .step .writer .proceed),
     (.b, .read (.frame (request 0 1 [5]))), (.b, .step (.task 0) .proceed),
     (.b, .step (.task 0) .proceed), (.b, .step .writer .proceed), (.b, .step .writer .proceed),
     (.a, .read (.frame (response (request 0 1 [5]) [5]))), (.a, .step .reader .proceed),
     (.a, .step .reader .proceed), (.a, .step (.call 0) .proceed), (.a, .step (.call 0) .proceed)]
    rfl
  ⟨_, hr, rfl, ⟨by decide, by decide⟩, rpc_agreement hr (by decide) (by decide)⟩

/-! ## Message IDs wrap after 2^64 calls -/

theorem Reachable.run_a {ha hb : Handler} {b : Stream} :
    ∀ {s s' : Stream} {as : List Stream.Action}, Reachable ha hb ⟨s, b⟩ →
      (∀ act ∈ as, ∀ f, act ≠ .read f) → s.run as = some s' → Reachable ha hb ⟨s', b⟩
  | _, _, [], h, _, e => by cases e; exact h
  | s, s', act :: as, h, hno, e => by
    simp only [Stream.run, Option.bind_eq_some] at e
    obtain ⟨s₁, h₁, e⟩ := e
    have hd : delivers b s act = true := by
      cases act with
      | read f => exact absurd rfl (hno _ (List.mem_cons_self _ _) f)
      | _ => rfl
    exact (h.step .a act (by simp [Pair.step, hd, h₁])).run_a
      (fun act' ha' => hno act' (List.mem_cons_of_mem _ ha')) e

/-- Side `a` starts `n` calls that each run `Inc` and stop: the next ID advances by `n`, modulo
2^64. -/
theorem Reachable.fill {ha hb : Handler} {s b : Stream} (h : Reachable ha hb ⟨s, b⟩)
    (hcr : s.crashed = false) : ∀ n : Nat, ∃ (F : List Call) (next : UInt64), F.length = n ∧
      next.toNat = (s.nextMessageID.toNat + n) % 2 ^ 64 ∧
      Reachable ha hb ⟨{ s with calls := s.calls ++ F, nextMessageID := next }, b⟩
  | 0 => ⟨[], s.nextMessageID, rfl, (Nat.mod_eq_of_lt s.nextMessageID.toNat_lt).symm,
      by simpa only [List.append_nil] using h⟩
  | n + 1 => by
    obtain ⟨F, next, hF, hn, hr⟩ := h.fill hcr n
    refine ⟨F ++ [⟨0, [], none, next + 1, none, .register⟩], next + 1, by simp [hF], ?_, ?_⟩
    · rw [UInt64.toNat_add, hn, show (1 : UInt64).toNat = 1 from rfl,
        show UInt64.size = 2 ^ 64 from rfl]
      omega
    · have := hr.run_a (fun _ h _ => by rcases List.mem_pair.1 h with rfl | rfl <;> nofun)
        (Stream.run_rpc_inc
          (show ({ s with calls := s.calls ++ F, nextMessageID := next } : Stream).crashed = false
            from hcr) 0 [])
      exact List.append_assoc s.calls F _ ▸ this

theorem run_withCalls (F : List Call) : ∀ {p p' : Pair} {as : List (Side × Stream.Action)},
    p.run as = some p' → (∀ x ∈ as, ∀ t r, x.2 ≠ .rpc t r) →
    Pair.run ⟨p.a.withCalls F, p.b⟩ as = some ⟨p'.a.withCalls F, p'.b⟩
  | _, _, [], e, _ => by cases e; rfl
  | p, p', (side, act) :: as, e, hno => by
    simp only [Pair.run, Option.bind_eq_some] at e ⊢
    obtain ⟨p₁, h₁, e⟩ := e
    refine ⟨⟨p₁.a.withCalls F, p₁.b⟩, ?_,
      run_withCalls F e fun x hx => hno x (List.mem_cons_of_mem _ hx)⟩
    have hact := hno _ (List.mem_cons_self _ _)
    rcases step_cases h₁ with ⟨rfl, hd, a', ha', rfl⟩ | ⟨rfl, hd, b', hb', rfl⟩
    · simp only [Pair.step, show delivers p.b (p.a.withCalls F) act = true from hd,
        Stream.step_withCalls F ha' hact, if_true, Option.map_some']
    · simp only [Pair.step, show delivers (p.a.withCalls F) p.b act = true from hd, hb', if_true,
        Option.map_some']

/-- Message IDs wrap. Side `a` starts call 0 (payload `[0]`, ID 1) and call 1 (payload `[1]`); call
0's request is written and the echoing side `b` writes its response. Then `2^64 - 1` more calls run
`Inc`, so call 1 gets ID 1 again and registers its `ch` under it. The reader hands the response to
call 0's request to call 1, which returns `[0]`, not the handler's `[1]`. -/
theorem rpc_agreement_wraps :
    ∃ p, Reachable (fun _ => some .returns) (fun _ => some .returns) p ∧
      p.a.calls.length = 2 ^ 64 + 1 ∧
      p.a.calls[1]? = some ⟨0, [1], none, 1, none, .returned ⟨some [0], none⟩⟩ ∧
      ¬ Agreement (fun _ => some .returns) p.a p.b := by
  -- call 0 sends and is answered; the rest of the run touches calls 0 and 1 only, so it is
  -- computed here without the calls started in between
  obtain ⟨p₁, p₃, e₁, e₃, hcr, hnext, hc₃⟩ : ∃ p₁ p₃,
      Pair.run ⟨newStream fun _ => some .returns, newStream fun _ => some .returns⟩
        [(.a, .rpc 0 [0]), (.a, .rpc 0 [1]), (.a, .step (.call 0) .proceed),
         (.a, .step (.call 0) .proceed), (.a, .step (.call 0) .proceed),
         (.a, .step .writer .proceed), (.a, .step .writer .proceed),
         (.b, .read (.frame (request 0 1 [0]))), (.b, .step (.task 0) .proceed),
         (.b, .step (.task 0) .proceed), (.b, .step .writer .proceed),
         (.b, .step .writer .proceed)] = some p₁ ∧
      Pair.run ⟨{ p₁.a with nextMessageID := 0 }, p₁.b⟩
        [(.a, .step (.call 1) .proceed), (.a, .step (.call 1) .proceed),
         (.a, .step (.call 1) .proceed), (.a, .read (.frame (response (request 0 1 [0]) [0]))),
         (.a, .step .reader .proceed), (.a, .step .reader .proceed),
         (.a, .step (.call 1) .proceed), (.a, .step (.call 1) .proceed)] = some p₃ ∧
      p₁.a.crashed = false ∧ p₁.a.nextMessageID = 1 ∧
      p₃.a.calls = [⟨0, [0], none, 1, none, .await⟩,
        ⟨0, [1], none, 1, none, .returned ⟨some [0], none⟩⟩] :=
    ⟨_, _, rfl, rfl, rfl, rfl, rfl⟩
  obtain ⟨F, next, hF, hn, h₂⟩ := (Reachable.init.run e₁).fill hcr (2 ^ 64 - 1)
  obtain rfl : next = 0 := UInt64.toNat.inj (by rw [hn, hnext]; decide)
  have h₃ := h₂.run (run_withCalls F e₃ (by simp))
  refine ⟨_, h₃, by simp [hc₃, hF], by simp [hc₃], fun ha => ?_⟩
  obtain ⟨f, hf, hres⟩ :=
    ha.returns 1 ⟨0, [1], none, 1, none, .returned ⟨some [0], none⟩⟩ [0] (by simp [hc₃]) rfl
  obtain rfl : Outcome.returns = f := Option.some.inj hf
  simp at hres

end Pair

end Piko.Rpc

import Piko.Rpc.Responses

/-! # What a stream puts on the connection

Every message the writer writes was put on `writeCh` by an `RPC` call or by a `handleRequest`
goroutine. `outs` gathers the messages on their way, in order: written, held by the writer between
its `select` and `s.write`, or still buffered in `writeCh`. `WireInv` says what each one is:

* a call's message is the request `RPC` built from the call's type, ID and payload;
* a `handleRequest` goroutine's message answers the request frame it was spawned for, with the
  stream's handler (`Answers`), and each request frame is answered at most once;
* the handler ran at most once per request frame (`runs` has no duplicates).

`WireInv.step` derives it from the inversion lemmas of `Piko.Rpc.Steps`: most steps move messages
along or drop one (`WireInv.congr`), and five send, spawn or advance a goroutine.
-/

namespace Piko.Rpc
set_option autoImplicit false

/-- The message the writer holds between taking it from `writeCh` and writing it. -/
def WriterPc.holding : WriterPc → List Out
  | .write o => [o]
  | .select | .closing _ | .exited => []

@[simp] theorem WriterPc.holding_closing (c : ClosePc) : (WriterPc.closing c).holding = [] := rfl

@[simp] theorem ClosePc.writerPc_holding (c : ClosePc) : c.writerPc.holding = [] := by
  cases c <;> rfl

/-- `m` is what `handleRequest` sends for the request `q` under handler `h`: the not-supported reply
when `h` has no function for `q`'s type, or the response carrying what the function returned. -/
def Answers (h : Handler) (q m : Message) : Prop :=
  (h q.header.rpcType = none ∧ m = notSupported q) ∨
    ∃ f resp, h q.header.rpcType = some f ∧ f q.payload = .returns resp ∧ m = response q resp

theorem Answers.header {h : Handler} {q m : Message} (hm : Answers h q m) :
    m.header.flags.response = true ∧ m.header.id = q.header.id ∧
      m.header.rpcType = q.header.rpcType := by
  rcases hm with ⟨-, rfl⟩ | ⟨f, resp, -, -, rfl⟩ <;> exact ⟨by simp, rfl, rfl⟩

theorem List.IsPrefix.getElem?_eq_some {α : Type} {l₁ l₂ : List α} {k : Nat} {x : α}
    (h : l₁ <+: l₂) (hk : l₁[k]? = some x) : l₂[k]? = some x := by
  obtain ⟨t, rfl⟩ := h
  rwa [List.getElem?_append_left (List.getElem?_eq_some_iff.1 hk).1]

namespace Stream

variable {s s' : Stream}

/-- The messages put on `writeCh` and not lost to a failed write, in order. -/
def outs (s : Stream) : List Out := s.written ++ s.writer.holding ++ s.writeCh

theorem mem_outs_of_written {o : Out} (h : o ∈ s.written) : o ∈ s.outs := by
  simp [outs, h]

/-- Every call past `Inc` in `s` is still past it in `s'`, with the same request. -/
def CallsKeep (s s' : Stream) : Prop :=
  ∀ (i : Nat) (c : Call), s.calls[i]? = some c → c.pc.allocated →
    ∃ c', s'.calls[i]? = some c' ∧ c'.pc.allocated ∧
      request c'.rpcType c'.id c'.req = request c.rpcType c.id c.req

/-- The wire invariant. -/
structure WireInv (s : Stream) : Prop where
  /-- A call's message is its request, sent once the call has its ID. -/
  callOut : ∀ o ∈ s.outs, ∀ i, o.origin = .call i →
    ∃ c, s.calls[i]? = some c ∧ c.pc.allocated ∧ o.msg = request c.rpcType c.id c.req
  /-- A `handleRequest` goroutine's message answers the request frame it was spawned for. -/
  taskOut : ∀ o ∈ s.outs, ∀ k, o.origin = .task k →
    ∃ q, s.received[k]? = some q ∧ q.header.flags.response = false ∧ Answers s.handler q o.msg
  /-- Each `handleRequest` goroutine was spawned for a received request frame. -/
  task : ∀ (i : Nat) (t : Task), s.tasks[i]? = some t →
    s.received[t.src]? = some t.msg ∧ t.msg.header.flags.response = false
  /-- ... and no two for the same frame. -/
  task_src : ∀ (i j : Nat) (ti tj : Task), s.tasks[i]? = some ti → s.tasks[j]? = some tj →
    ti.src = tj.src → i = j
  /-- A goroutine about to send holds the answer to its request. -/
  respond : ∀ (i : Nat) (t : Task) (m : Message), s.tasks[i]? = some t → t.pc = .respond m →
    Answers s.handler t.msg m
  /-- A goroutine that has not returned has sent nothing. -/
  pending : ∀ (i : Nat) (t : Task), s.tasks[i]? = some t → t.pc ≠ .exited →
    ∀ o ∈ s.outs, o.origin ≠ .task t.src
  /-- At most one answer per request frame. -/
  once : ∀ k, s.outs.countP (·.origin = .task k) ≤ 1
  /-- The handler ran for a request frame only in the goroutine spawned for it, which has moved
  past the handler call, unless the handler's panic aborted the process. -/
  runs : ∀ k ∈ s.runs, s.crashed = true ∨
    ∃ (i : Nat) (t : Task), s.tasks[i]? = some t ∧ t.src = k ∧ t.pc ≠ .find
  runs_nodup : s.runs.Nodup

theorem newStream_wireInv (h : Handler) : (newStream h).WireInv where
  callOut := by simp [outs, newStream, WriterPc.holding]
  taskOut := by simp [outs, newStream, WriterPc.holding]
  task := by simp [newStream]
  task_src := by simp [newStream]
  respond := by simp [newStream]
  pending := by simp [newStream]
  once := by simp [outs, newStream, WriterPc.holding]
  runs := by simp [newStream]
  runs_nodup := List.nodup_nil

/-! ## Steps that only move messages along -/

/-- A step that keeps or drops messages on their way, keeps every call's request, only appends to
`received`, and leaves the goroutines of `handleRequest` and the handler runs alone. -/
theorem WireInv.congr (hi : s.WireInv) (hout : s'.outs.Sublist s.outs) (hcalls : CallsKeep s s')
    (hrec : s.received <+: s'.received) (hh : s'.handler = s.handler) (ht : s'.tasks = s.tasks)
    (hr : s'.runs = s.runs) (hcr : s.crashed = true → s'.crashed = true) : s'.WireInv where
  callOut o ho i hi' := by
    obtain ⟨c, hc, hal, hm⟩ := hi.callOut o (hout.subset ho) i hi'
    obtain ⟨c', hc', hal', he⟩ := hcalls i c hc hal
    exact ⟨c', hc', hal', hm.trans he.symm⟩
  taskOut o ho k hk := by
    obtain ⟨q, hq, hresp, ha⟩ := hi.taskOut o (hout.subset ho) k hk
    exact ⟨q, List.IsPrefix.getElem?_eq_some hrec hq, hresp, hh ▸ ha⟩
  task i t h := by
    obtain ⟨hq, hresp⟩ := hi.task i t (ht ▸ h)
    exact ⟨List.IsPrefix.getElem?_eq_some hrec hq, hresp⟩
  task_src i j ti tj := ht ▸ hi.task_src i j ti tj
  respond i t m h := hh ▸ hi.respond i t m (ht ▸ h)
  pending i t h hx o ho := hi.pending i t (ht ▸ h) hx o (hout.subset ho)
  once k := (hout.countP_le _).trans (hi.once k)
  runs k hk := by
    rcases hi.runs k (hr ▸ hk) with h | h
    · exact .inl (hcr h)
    · exact .inr (ht ▸ h)
  runs_nodup := hr ▸ hi.runs_nodup

theorem callsKeep_of_calls (h : s'.calls = s.calls) : CallsKeep s s' :=
  fun _ c hc hal => ⟨c, h ▸ hc, hal, rfl⟩

theorem callsKeep_setCall {i : Nat} {c c' : Call} (hc : s.calls[i]? = some c)
    (hkeep : c.pc.allocated → c'.pc.allocated ∧ c'.rpcType = c.rpcType ∧ c'.id = c.id ∧
      c'.req = c.req) : CallsKeep s (s.setCall i c') := by
  intro j cj hj hal
  by_cases hij : i = j
  · subst hij
    obtain rfl : cj = c := Option.some.inj (hj.symm.trans hc)
    obtain ⟨hal', ht, hid, hreq⟩ := hkeep hal
    refine ⟨c', ?_, hal', by rw [ht, hid, hreq]⟩
    simp [List.getElem?_set, (List.getElem?_eq_some_iff.1 hc).1]
  · exact ⟨cj, by simp [List.getElem?_set_ne hij, hj], hal, rfl⟩

/-- Every step keeps every call's request. -/
theorem step_callsKeep {a : Action} (h : s.step a = some s') : CallsKeep s s' := by
  rcases (step_cases h).2 with ⟨t, req, rfl⟩ | rfl | ⟨i, e, c, hc, -, rfl⟩ | ⟨f, -, h⟩ |
    ⟨i, k, h⟩ | ⟨k, h⟩ | ⟨k, h⟩ | ⟨i, k, h⟩ | ⟨i, c, k, -, h⟩ | ⟨g, -, rfl⟩
  · intro j c hc hal
    exact ⟨c, List.getElem?_append_left (List.getElem?_eq_some_iff.1 hc).1 ▸ hc, hal, rfl⟩
  · exact callsKeep_of_calls rfl
  · exact callsKeep_setCall hc fun hal => ⟨hal, rfl, rfl, rfl⟩
  · obtain ⟨-, ⟨m, -, -, rfl⟩ | ⟨m, -, -, rfl⟩ | rfl⟩ := stepRead_cases h <;>
      exact callsKeep_of_calls rfl
  · obtain ⟨c, hc, h⟩ := stepCall_cases h
    rcases h with ⟨hpc, rfl⟩ | ⟨-, rfl⟩ | ⟨-, -, rfl⟩ | ⟨-, m, -, rfl⟩ | ⟨-, -, rfl⟩ |
      ⟨-, e, -, rfl⟩ | ⟨r, -, rfl⟩
    all_goals first
      | exact callsKeep_setCall hc fun _ => ⟨rfl, rfl, rfl, rfl⟩
      | exact callsKeep_setCall hc fun hal => by simp [hpc, CallPc.allocated] at hal
  · rcases stepReader_cases h with ⟨m, i, -, -, rfl⟩ | ⟨m, -, -, rfl⟩ | ⟨i, m, c, -, hc, -, rfl⟩ |
      ⟨-, rfl⟩ | ⟨c, -, h⟩
    all_goals first
      | exact callsKeep_of_calls rfl
      | exact callsKeep_setCall hc fun hal => ⟨hal, rfl, rfl, rfl⟩
      | exact callsKeep_of_calls (closeStep_frame h).1
  · rcases stepWriter_cases h with ⟨o, rest, -, -, rfl⟩ | ⟨-, -, rfl⟩ | ⟨o, -, rfl⟩ | ⟨o, -, rfl⟩ |
      ⟨c, -, h⟩
    all_goals first
      | exact callsKeep_of_calls rfl
      | exact callsKeep_of_calls (closeStep_frame h).1
  · obtain ⟨t, -, h⟩ := stepTask_cases h
    rcases h with ⟨-, -, rfl⟩ | ⟨-, f, resp, -, -, rfl⟩ | ⟨-, f, -, -, rfl⟩ | ⟨m, -, -, rfl⟩ |
      ⟨m, -, -, rfl⟩ <;> exact callsKeep_of_calls rfl
  · exact callsKeep_of_calls (closeStep_frame h).1
  · exact callsKeep_of_calls (by rw [panicked_eq])

theorem closeStep_holding {g : Goroutine} {c : ClosePc} {k : Case}
    (h : s.closeStep g c k = some s') (hg : g = .writer → s.writer.holding = []) :
    s'.writer.holding = s.writer.holding := by
  rcases closeStep_cases h with ⟨-, -, rfl⟩ | ⟨-, -, rfl⟩ | ⟨-, rfl⟩ | ⟨-, -, rfl⟩ | ⟨-, -, rfl⟩ |
    ⟨-, e, rfl⟩
  all_goals (try rw [panicked_eq])
  all_goals by_cases hw : g = .writer
  all_goals first
    | simp [hw, hg hw]
    | simp [hw]

theorem outs_sublist_of_holding (hw : s'.writer.holding = []) (hwr : s'.written = s.written)
    (hwc : s'.writeCh = s.writeCh) : s'.outs.Sublist s.outs := by
  simp only [outs, hw, hwr, hwc, List.append_nil]
  exact (List.sublist_append_left _ _).append (List.Sublist.refl _)

theorem closeStep_outs {g : Goroutine} {c : ClosePc} {k : Case}
    (h : s.closeStep g c k = some s') (hg : g = .writer → s.writer.holding = []) :
    s'.outs = s.outs := by
  obtain ⟨-, -, -, -, -, hch, hw, -⟩ := closeStep_frame h
  simp only [outs, hch, hw, closeStep_holding h hg]

/-! ## Steps that send, spawn or advance a goroutine -/

/-- Call `i`, past `Inc`, puts its request on `writeCh`. -/
theorem WireInv.sendRequest (hi : s.WireInv) {i : Nat} {c : Call} (hc : s.calls[i]? = some c)
    (hal : c.pc.allocated) :
    { s with writeCh := s.writeCh ++ [(⟨request c.rpcType c.id c.req, .call i⟩ : Out)] }.WireInv :=
  have hmem : ∀ o, o ∈ s.outs ++ [(⟨request c.rpcType c.id c.req, .call i⟩ : Out)] →
      o ∈ s.outs ∨ o = ⟨request c.rpcType c.id c.req, .call i⟩ := by simp
  have houts : (s.written ++ s.writer.holding ++ (s.writeCh ++
      [(⟨request c.rpcType c.id c.req, .call i⟩ : Out)])) =
      s.outs ++ [⟨request c.rpcType c.id c.req, .call i⟩] := by simp [outs]
  { callOut := fun o ho j hj => by
      rcases hmem o (houts ▸ ho) with ho | rfl
      · exact hi.callOut o ho j hj
      · cases hj; exact ⟨c, hc, hal, rfl⟩
    taskOut := fun o ho k hk => by
      rcases hmem o (houts ▸ ho) with ho | rfl
      · exact hi.taskOut o ho k hk
      · cases hk
    task := hi.task
    task_src := hi.task_src
    respond := hi.respond
    pending := fun j t ht hx o ho => by
      rcases hmem o (houts ▸ ho) with ho | rfl
      · exact hi.pending j t ht hx o ho
      · simp
    once := fun k => by
      show (s.written ++ s.writer.holding ++ _).countP _ ≤ 1
      simpa [houts] using hi.once k
    runs := hi.runs
    runs_nodup := hi.runs_nodup }

/-- The reader spawns a `handleRequest` goroutine for the request frame `m` it read. -/
theorem WireInv.spawn (hi : s.WireInv) {m : Message} (hm : m.header.flags.response = false) :
    { s with received := s.received ++ [m], reader := .check,
             tasks := s.tasks ++ [(⟨m, s.received.length, .find⟩ : Task)] }.WireInv := by
  have hrec : s.received <+: s.received ++ [m] := List.prefix_append _ _
  have hnew : ∀ (j : Nat) (t : Task), (s.tasks ++ [⟨m, s.received.length, .find⟩])[j]? = some t →
      (j = s.tasks.length ∧ t = ⟨m, s.received.length, .find⟩) ∨ s.tasks[j]? = some t :=
    fun j t h => List.getElem?_concat_eq_some h
  have hsrc : ∀ (j : Nat) (t : Task), s.tasks[j]? = some t → t.src < s.received.length :=
    fun j t ht => (List.getElem?_eq_some_iff.1 (hi.task j t ht).1).1
  have hold : ∀ (j : Nat) (t : Task), s.tasks[j]? = some t →
      (s.tasks ++ [⟨m, s.received.length, .find⟩])[j]? = some t := fun j t ht =>
    List.getElem?_append_left (List.getElem?_eq_some_iff.1 ht).1 ▸ ht
  refine ⟨hi.callOut, fun o ho k hk => ?_, fun j t ht => ?_, fun j j' t t' ht ht' he => ?_,
    fun j t m' ht => ?_, fun j t ht hx o ho => ?_, hi.once, fun k hk => ?_, hi.runs_nodup⟩
  · obtain ⟨q, hq, hr, ha⟩ := hi.taskOut o ho k hk
    exact ⟨q, List.IsPrefix.getElem?_eq_some hrec hq, hr, ha⟩
  · rcases hnew j t ht with ⟨-, rfl⟩ | ht
    · exact ⟨by simp, hm⟩
    · obtain ⟨hq, hr⟩ := hi.task j t ht
      exact ⟨List.IsPrefix.getElem?_eq_some hrec hq, hr⟩
  · rcases hnew j t ht with ⟨rfl, rfl⟩ | ht <;> rcases hnew j' t' ht' with ⟨rfl, rfl⟩ | ht'
    · rfl
    · exact absurd he (hsrc j' t' ht').ne'
    · exact absurd he (hsrc j t ht).ne
    · exact hi.task_src j j' t t' ht ht' he
  · rcases hnew j t ht with ⟨-, rfl⟩ | ht
    · simp
    · exact hi.respond j t m' ht
  · rcases hnew j t ht with ⟨-, rfl⟩ | ht
    · intro ho'
      obtain ⟨q, hq, -⟩ := hi.taskOut o ho _ ho'
      exact (List.getElem?_eq_some_iff.1 hq).1.ne rfl
    · exact hi.pending j t ht hx o ho
  · rcases hi.runs k hk with h | ⟨j, t, ht, he, hf⟩
    · exact .inl h
    · exact .inr ⟨j, t, hold j t ht, he, hf⟩

/-- A `handleRequest` goroutine moves on, keeping its frame, never back to the handler call, and
holding an answer whenever it is about to send. -/
theorem WireInv.setTask (hi : s.WireInv) {i : Nat} {t t' : Task} (ht : s.tasks[i]? = some t)
    (hmsg : t'.msg = t.msg) (hsrc : t'.src = t.src) (hfind : t'.pc ≠ .find)
    (hexit : t'.pc ≠ .exited → t.pc ≠ .exited)
    (hresp : ∀ m, t'.pc = .respond m → Answers s.handler t.msg m) : (s.setTask i t').WireInv := by
  have hlt := (List.getElem?_eq_some_iff.1 ht).1
  have hget : ∀ j u, (s.tasks.set i t')[j]? = some u →
      (i = j ∧ u = t') ∨ (i ≠ j ∧ s.tasks[j]? = some u) :=
    fun j u h => List.getElem?_set_eq_some h
  refine ⟨hi.callOut, hi.taskOut, fun j u hu => ?_, fun j j' u u' hu hu' he => ?_,
    fun j u m hu hm => ?_, fun j u hu hx o ho => ?_, hi.once, fun k hk => ?_, hi.runs_nodup⟩
  · rcases hget j u hu with ⟨-, rfl⟩ | ⟨-, hu⟩
    · rw [hmsg, hsrc]; exact hi.task i t ht
    · exact hi.task j u hu
  · rcases hget j u hu with ⟨rfl, rfl⟩ | ⟨-, hu₀⟩ <;>
      rcases hget j' u' hu' with ⟨rfl, rfl⟩ | ⟨-, hu₀'⟩
    · rfl
    · exact hi.task_src _ _ t u' ht hu₀' (hsrc ▸ he)
    · exact hi.task_src _ _ u t hu₀ ht (hsrc ▸ he)
    · exact hi.task_src _ _ u u' hu₀ hu₀' he
  · rcases hget j u hu with ⟨-, rfl⟩ | ⟨-, hu⟩
    · rw [hmsg]; exact hresp m hm
    · exact hi.respond j u m hu hm
  · rcases hget j u hu with ⟨-, rfl⟩ | ⟨-, hu⟩
    · rw [hsrc]; exact hi.pending i t ht (hexit hx) o ho
    · exact hi.pending j u hu hx o ho
  · rcases hi.runs k hk with h | ⟨j, u, hu, he, hf⟩
    · exact .inl h
    · refine .inr ?_
      by_cases hij : i = j
      · subst hij
        exact ⟨i, t', by simp [hlt], hsrc.trans (Option.some.inj (ht.symm.trans hu) ▸ he), hfind⟩
      · exact ⟨j, u, by simp [List.getElem?_set_ne hij, hu], he, hf⟩

theorem WireInv.src_not_mem_runs (hi : s.WireInv) (hcr : s.crashed = false) {i : Nat} {t : Task}
    (ht : s.tasks[i]? = some t) (hf : t.pc = .find) : t.src ∉ s.runs := by
  intro hk
  rcases hi.runs _ hk with h | ⟨j, u, hu, he, hu'⟩
  · simp [hcr] at h
  · obtain rfl := hi.task_src j i u t hu ht he
    exact hu' (Option.some.inj (hu.symm.trans ht) ▸ hf)

theorem WireInv.addRun (hi : s.WireInv) {k : Nat} (hk : k ∉ s.runs)
    (hw : s.crashed = true ∨
      ∃ (i : Nat) (t : Task), s.tasks[i]? = some t ∧ t.src = k ∧ t.pc ≠ .find) :
    { s with runs := s.runs ++ [k] }.WireInv where
  __ := hi
  runs k' hk' := by
    rcases List.mem_append.1 hk' with h | h
    · exact hi.runs k' h
    · exact List.mem_singleton.1 h ▸ hw
  runs_nodup := List.nodup_append.2 ⟨hi.runs_nodup, List.nodup_singleton k,
    List.disjoint_singleton.2 hk⟩

/-- A returned goroutine's answer to request frame `k` goes on `writeCh`. -/
theorem WireInv.sendAnswer (hi : s.WireInv) {k : Nat} {m : Message}
    (hnone : ∀ o ∈ s.outs, o.origin ≠ .task k)
    (hdone : ∀ (j : Nat) (t : Task), s.tasks[j]? = some t → t.src = k → t.pc = .exited)
    (hq : ∃ q, s.received[k]? = some q ∧ q.header.flags.response = false ∧ Answers s.handler q m) :
    { s with writeCh := s.writeCh ++ [(⟨m, .task k⟩ : Out)] }.WireInv :=
  have hmem : ∀ o, o ∈ s.outs ++ [(⟨m, .task k⟩ : Out)] → o ∈ s.outs ∨ o = ⟨m, .task k⟩ := by
    simp
  have houts : s.written ++ s.writer.holding ++ (s.writeCh ++ [(⟨m, .task k⟩ : Out)]) =
      s.outs ++ [⟨m, .task k⟩] := by simp [outs]
  { callOut := fun o ho j hj => by
      rcases hmem o (houts ▸ ho) with ho | rfl
      · exact hi.callOut o ho j hj
      · cases hj
    taskOut := fun o ho k' hk => by
      rcases hmem o (houts ▸ ho) with ho | rfl
      · exact hi.taskOut o ho k' hk
      · cases hk; exact hq
    task := hi.task
    task_src := hi.task_src
    respond := hi.respond
    pending := fun j t ht hx o ho => by
      rcases hmem o (houts ▸ ho) with ho | rfl
      · exact hi.pending j t ht hx o ho
      · intro he
        exact hx (hdone j t ht (Origin.task.inj he).symm)
    once := fun k' => by
      show (s.written ++ s.writer.holding ++ _).countP _ ≤ 1
      rw [houts, List.countP_append]
      by_cases hk : k' = k
      · subst hk
        have : s.outs.countP (·.origin = .task k') = 0 :=
          List.countP_eq_zero.2 fun o ho => by simpa using hnone o ho
        simp [this]
      · simpa [Ne.symm hk] using hi.once k'
    runs := hi.runs
    runs_nodup := hi.runs_nodup }

/-! ## Preservation -/

theorem WireInv.stepTask {i : Nat} {k : Case} (hi : s.WireInv) (hcr : s.crashed = false)
    (h : s.stepTask i k = some s') : s'.WireInv := by
  obtain ⟨t, ht, h⟩ := stepTask_cases h
  have hlt := (List.getElem?_eq_some_iff.1 ht).1
  rcases h with ⟨hf, hn, rfl⟩ | ⟨hf, f, resp, hh, hr, rfl⟩ | ⟨hf, f, -, -, rfl⟩ | ⟨m, hm, -, rfl⟩ |
    ⟨m, hm, -, rfl⟩
  · exact hi.setTask ht rfl rfl (by simp) (fun _ => by simp [hf])
      (fun m hm => .inl ⟨hn, (TaskPc.respond.inj hm).symm⟩)
  · have hs : (s.setTask i { t with pc := .respond (response t.msg resp) }).WireInv :=
      hi.setTask ht rfl rfl (by simp) (fun _ => by simp [hf])
        (fun m hm => .inr ⟨f, resp, hh, hr, (TaskPc.respond.inj hm).symm⟩)
    exact hs.addRun (hi.src_not_mem_runs hcr ht hf)
      (.inr ⟨i, { t with pc := .respond (response t.msg resp) }, by simp [hlt], rfl, by simp⟩)
  · rw [panicked_eq]
    have hs : { s with crashed := true }.WireInv :=
      hi.congr (List.Sublist.refl _) (callsKeep_of_calls rfl) (List.prefix_refl _) rfl rfl rfl
        (fun _ => rfl)
    exact hs.addRun (hi.src_not_mem_runs hcr ht hf) (.inl rfl)
  · have hs : (s.setTask i { t with pc := .exited }).WireInv :=
      hi.setTask ht rfl rfl (by simp) (by simp) (by simp)
    refine hs.sendAnswer (fun o ho => hi.pending i t ht (by simp [hm]) o ho)
      (fun j u hu he => ?_) ?_
    · rcases List.getElem?_set_eq_some hu with ⟨-, rfl⟩ | ⟨hij, hu⟩
      · rfl
      · exact absurd (hi.task_src i j t u ht hu he.symm) hij
    · obtain ⟨hq, hresp⟩ := hi.task i t ht
      exact ⟨t.msg, hq, hresp, hi.respond i t m ht hm⟩
  · exact hi.setTask ht rfl rfl (by simp) (by simp) (by simp)

/-- The wire invariant holds in every state a step reaches. -/
theorem WireInv.step {a : Action} (hi : s.WireInv) (h : s.step a = some s') : s'.WireInv := by
  have hkeep := step_callsKeep h
  obtain ⟨hcr, h⟩ := step_cases h
  have hcr' : s.crashed = true → s'.crashed = true := fun h => absurd h (by simp [hcr])
  have hsame : s'.outs = s.outs → s.received <+: s'.received → s'.handler = s.handler →
      s'.tasks = s.tasks → s'.runs = s.runs → s'.WireInv := fun ho hrec hh ht hr =>
    hi.congr (ho ▸ List.Sublist.refl _) hkeep hrec hh ht hr hcr'
  have hclose : ∀ {g : Goroutine} {c : ClosePc} {k : Case}, s.closeStep g c k = some s' →
      (g = .writer → s.writer.holding = []) → s'.WireInv := fun h hg =>
    let ⟨_, _, _, hrec, htk, _, _, hr, _⟩ := closeStep_frame h
    hsame (closeStep_outs h hg) (hrec ▸ List.prefix_refl _) (closeStep_handler h) htk hr
  rcases h with ⟨t, req, rfl⟩ | rfl | ⟨i, e, c, hc, -, rfl⟩ | ⟨f, -, h⟩ | ⟨i, k, h⟩ | ⟨k, h⟩ |
    ⟨k, h⟩ | ⟨i, k, h⟩ | ⟨i, c, k, -, h⟩ | ⟨g, hg, rfl⟩
  · exact hsame rfl (List.prefix_refl _) rfl rfl rfl
  · exact hsame rfl (List.prefix_refl _) rfl rfl rfl
  · exact hsame rfl (List.prefix_refl _) rfl rfl rfl
  · obtain ⟨-, ⟨m, -, -, rfl⟩ | ⟨m, -, hm, rfl⟩ | rfl⟩ := stepRead_cases h
    · exact hsame rfl (List.prefix_append _ _) rfl rfl rfl
    · exact hi.spawn hm
    · exact hsame rfl (List.prefix_refl _) rfl rfl rfl
  · obtain ⟨c, hc, h⟩ := stepCall_cases h
    rcases h with ⟨-, rfl⟩ | ⟨-, rfl⟩ | ⟨hpc, -, rfl⟩ | ⟨-, m, -, rfl⟩ | ⟨-, -, rfl⟩ |
      ⟨-, e, -, rfl⟩ | ⟨r, -, rfl⟩
    all_goals first
      | exact hsame rfl (List.prefix_refl _) rfl rfl rfl
      | exact (hi.sendRequest hc (by simp [hpc, CallPc.allocated])).congr (List.Sublist.refl _)
          hkeep (List.prefix_refl _) rfl rfl rfl hcr'
  · rcases stepReader_cases h with ⟨m, i, -, -, rfl⟩ | ⟨m, -, -, rfl⟩ | ⟨i, m, c, -, -, -, rfl⟩ |
      ⟨-, rfl⟩ | ⟨c, -, h⟩
    all_goals first
      | exact hsame rfl (List.prefix_refl _) rfl rfl rfl
      | exact hclose h (by simp)
  · rcases stepWriter_cases h with ⟨o, rest, hw, hwc, rfl⟩ | ⟨hw, -, rfl⟩ | ⟨o, hw, rfl⟩ |
      ⟨o, -, rfl⟩ | ⟨c, hw, h⟩
    · exact hsame (by simp [outs, hw, hwc, WriterPc.holding]) (List.prefix_refl _) rfl rfl rfl
    · exact hsame (by simp [outs, hw, WriterPc.holding]) (List.prefix_refl _) rfl rfl rfl
    · exact hsame (by simp [outs, hw, WriterPc.holding]) (List.prefix_refl _) rfl rfl rfl
    · exact hi.congr (outs_sublist_of_holding (by simp) rfl rfl) hkeep (List.prefix_refl _) rfl rfl
        rfl hcr'
    · exact hclose h fun _ => by simp [hw]
  · exact hi.stepTask hcr h
  · exact hclose h (by simp)
  · cases g with
    | reader => exact hsame rfl (List.prefix_refl _) rfl rfl rfl
    | writer =>
      exact hi.congr (outs_sublist_of_holding (by simp [panicked]) rfl rfl) hkeep
        (List.prefix_refl _) rfl rfl rfl hcr'
    | _ => simp [running] at hg

theorem WireInv.reachable {hd : Handler} (h : Reachable hd s) : s.WireInv := by
  induction h with
  | init => exact newStream_wireInv _
  | step a _ hs ih => exact ih.step hs

end Stream

end Piko.Rpc

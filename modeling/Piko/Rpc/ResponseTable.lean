import Piko.Rpc.Responses

/-! # The response table

`responseHandlers` (stream.go) maps a message ID to the `ch` of the `RPC` call waiting for its
response; `RPC` takes its ID from `s.nextMessageID.Inc()`, registers `ch` under it and unregisters
it when it returns. While fewer than `2^64` calls have started, `Inc` never wraps, so:

* the IDs of the calls past `Inc` are distinct and at least 1 (`IdsInv`);
* the table maps exactly the IDs of the registered calls, each to its own call's `ch`
  (`response_table_exact`): a call that returned leaves nothing behind, and a call's unregister
  removes its own entry.
-/

namespace Piko.Rpc
set_option autoImplicit false

namespace Stream

variable {s s' : Stream}

/-- The ID invariant. -/
structure IdsInv (s : Stream) : Prop where
  /-- `Inc` has run once for every call past it. -/
  count : s.nextMessageID.toNat = s.calls.countP (·.pc.allocated)
  /-- A call past `Inc` holds an ID between 1 and `nextMessageID`. -/
  range : ∀ (i : Nat) (c : Call), s.calls[i]? = some c → c.pc.allocated →
    1 ≤ c.id.toNat ∧ c.id.toNat ≤ s.nextMessageID.toNat
  /-- Calls past `Inc` hold distinct IDs. -/
  distinct : ∀ (i j : Nat) (ci cj : Call), s.calls[i]? = some ci → s.calls[j]? = some cj →
    ci.pc.allocated → cj.pc.allocated → ci.id = cj.id → i = j
  /-- A registered call's `ch` is in the table under its ID. -/
  registered : ∀ (i : Nat) (c : Call), s.calls[i]? = some c → c.pc.registered →
    s.responseHandlers c.id = some i

theorem newStream_idsInv (h : Handler) : (newStream h).IdsInv :=
  ⟨rfl, fun _ _ h => by simp [newStream] at h, fun _ _ _ _ h => by simp [newStream] at h,
    fun _ _ h => by simp [newStream] at h⟩

/-! ## Preservation -/

theorem IdsInv.congr (hi : s.IdsInv) (hc : s'.calls = s.calls)
    (hn : s'.nextMessageID = s.nextMessageID) (ht : s'.responseHandlers = s.responseHandlers) :
    s'.IdsInv := by
  obtain ⟨h₁, h₂, h₃, h₄⟩ := hi
  exact ⟨by rw [hc, hn, h₁], by rw [hc, hn]; exact h₂, by rw [hc]; exact h₃,
    by rw [hc, ht]; exact h₄⟩

/-- Call `i` moves from `c` to `c'` past `Inc`, keeping its ID; `nextMessageID` stays, and the
registered calls' entries are given. -/
theorem IdsInv.update (hi : s.IdsInv) {i : Nat} {c c' : Call} (hc : s.calls[i]? = some c)
    (hs : s'.calls = s.calls.set i c') (hn : s'.nextMessageID = s.nextMessageID)
    (hid : c'.id = c.id) (ha : c'.pc.allocated = c.pc.allocated)
    (hreg : ∀ (j : Nat) (cj : Call), s'.calls[j]? = some cj → cj.pc.registered →
      s'.responseHandlers cj.id = some j) : s'.IdsInv := by
  obtain ⟨hlen, hci⟩ := List.getElem?_eq_some_iff.1 hc
  have back : ∀ {j : Nat} {cj : Call}, s'.calls[j]? = some cj →
      ∃ c₀, s.calls[j]? = some c₀ ∧ cj.id = c₀.id ∧ cj.pc.allocated = c₀.pc.allocated := by
    intro j cj h
    rw [hs] at h
    rcases List.getElem?_set_eq_some h with ⟨rfl, rfl⟩ | ⟨-, h⟩
    · exact ⟨c, hc, hid, ha⟩
    · exact ⟨cj, h, rfl, rfl⟩
  refine ⟨?_, fun j cj h hj => ?_, fun j j' cj cj' h h' hj hj' he => ?_, hreg⟩
  · have hpos : c.pc.allocated → 0 < s.calls.countP (·.pc.allocated) := fun h =>
      List.countP_pos_iff.2 ⟨c, List.getElem?_mem hc, h⟩
    rw [hs, hn, hi.count, List.countP_set _ _ _ _ hlen, hci, ha]
    split_ifs with h₁
    · have := hpos h₁; omega
    · omega
  · obtain ⟨c₀, h₀, hid₀, ha₀⟩ := back h
    rw [hid₀, hn]; exact hi.range j c₀ h₀ (ha₀ ▸ hj)
  · obtain ⟨c₀, h₀, hid₀, ha₀⟩ := back h
    obtain ⟨c₀', h₀', hid₀', ha₀'⟩ := back h'
    exact hi.distinct j j' c₀ c₀' h₀ h₀' (ha₀ ▸ hj) (ha₀' ▸ hj') (hid₀ ▸ hid₀' ▸ he)

theorem IdsInv.registered_update (hi : s.IdsInv) {i : Nat} {c c' : Call}
    (hc : s.calls[i]? = some c) (hs : s'.calls = s.calls.set i c')
    (ht : s'.responseHandlers = s.responseHandlers) (hid : c'.id = c.id)
    (hreg : c'.pc.registered → c.pc.registered) (j : Nat) (cj : Call)
    (h : s'.calls[j]? = some cj) (hj : cj.pc.registered) : s'.responseHandlers cj.id = some j := by
  rw [hs] at h
  rw [ht]
  rcases List.getElem?_set_eq_some h with ⟨rfl, rfl⟩ | ⟨-, h⟩
  · rw [hid]; exact hi.registered _ c hc (hreg hj)
  · exact hi.registered j cj h hj

theorem IdsInv.registered_other (hi : s.IdsInv) {i j : Nat} {c cj : Call} (v : Option Nat)
    (hc : s.calls[i]? = some c) (ha : c.pc.allocated) (hij : i ≠ j) (h : s.calls[j]? = some cj)
    (hj : cj.pc.registered) :
    Function.update s.responseHandlers c.id v cj.id = some j := by
  have hne : cj.id ≠ c.id := fun he =>
    hij (hi.distinct i j c cj hc h ha (CallPc.allocated_of_registered hj) he.symm)
  rw [Function.update_noteq hne]
  exact hi.registered j cj h hj

theorem IdsInv.stepCall {i : Nat} {k : Case} (hi : s.IdsInv) (h : s.stepCall i k = some s')
    (hb : s'.calls.length < 2 ^ 64) : s'.IdsInv := by
  obtain ⟨c, hc, h⟩ := stepCall_cases h
  obtain ⟨hlen, hci⟩ := List.getElem?_eq_some_iff.1 hc
  rcases h with ⟨hp, rfl⟩ | ⟨hp, rfl⟩ | ⟨hp, -, rfl⟩ | ⟨hp, m, -, rfl⟩ | ⟨hp, -, rfl⟩ |
    ⟨hp, e, -, rfl⟩ | ⟨r, hp, rfl⟩
  · -- `Inc`: the new ID is one above every ID given so far, and does not wrap
    have hcount : s.calls.countP (·.pc.allocated) + 1 ≤ s.calls.length := by
      have := List.countP_le_length (·.pc.allocated) (l := s.calls.set i
        { c with id := s.nextMessageID + 1, pc := .register })
      rw [List.countP_set _ _ _ _ hlen, hci, hp] at this
      simpa [CallPc.allocated] using this
    have hnext : (s.nextMessageID + 1).toNat = s.nextMessageID.toNat + 1 := by
      have hsize : UInt64.size = 2 ^ 64 := rfl
      rw [UInt64.toNat_add, show (1 : UInt64).toNat = 1 from rfl, Nat.mod_eq_of_lt]
      simp only [setCall_calls, List.length_set] at hb
      rw [hi.count, hsize]; exact lt_of_le_of_lt hcount hb
    have back : ∀ {j : Nat} {cj : Call}, (s.calls.set i { c with id := s.nextMessageID + 1, pc := .register })[j]? =
        some cj → (j = i ∧ cj = { c with id := s.nextMessageID + 1, pc := .register }) ∨
          (j ≠ i ∧ s.calls[j]? = some cj) := fun h =>
      (List.getElem?_set_eq_some h).imp (fun ⟨h₁, h₂⟩ => ⟨h₁.symm, h₂⟩)
        fun ⟨h₁, h₂⟩ => ⟨Ne.symm h₁, h₂⟩
    refine ⟨?_, fun j cj h hj => ?_, fun j j' cj cj' h h' hj hj' he => ?_, fun j cj h hj => ?_⟩
    · simp only [setCall_calls, setCall_nextMessageID, hnext, hi.count,
        List.countP_set _ _ _ _ hlen, hci, hp]
      simp [CallPc.allocated]
    · simp only [setCall_calls, setCall_nextMessageID, hnext] at h ⊢
      rcases back h with ⟨-, rfl⟩ | ⟨-, h⟩
      · exact ⟨(Nat.le_add_left 1 _).trans_eq hnext.symm, hnext.le⟩
      · have := hi.range j cj h hj; omega
    · simp only [setCall_calls] at h h'
      have hlt : ∀ {j : Nat} {cj : Call}, s.calls[j]? = some cj → cj.pc.allocated →
          cj.id.toNat < (s.nextMessageID + 1).toNat := fun h hj => by
        have := hi.range _ _ h hj; omega
      rcases back h with ⟨rfl, rfl⟩ | ⟨-, h₁⟩
      · rcases back h' with ⟨rfl, rfl⟩ | ⟨-, h₂⟩
        · rfl
        · exact absurd (congrArg UInt64.toNat he) (ne_of_gt (hlt h₂ hj'))
      · rcases back h' with ⟨rfl, rfl⟩ | ⟨-, h₂⟩
        · exact absurd (congrArg UInt64.toNat he) (ne_of_lt (hlt h₁ hj))
        · exact hi.distinct j j' cj cj' h₁ h₂ hj hj' he
    · simp only [setCall_calls, setCall_responseHandlers] at h ⊢
      rcases back h with ⟨-, rfl⟩ | ⟨-, h⟩
      · simp [CallPc.registered] at hj
      · exact hi.registered j cj h hj
  · -- `registerResponseHandler`
    have ha : c.pc.allocated := by simp [hp, CallPc.allocated]
    refine hi.update hc rfl rfl rfl (by simp [hp, CallPc.allocated]) fun j cj h hj => ?_
    simp only [setCall_calls, setCall_responseHandlers] at h ⊢
    rcases List.getElem?_set_eq_some h with ⟨rfl, rfl⟩ | ⟨hij, h⟩
    · simp
    · exact hi.registered_other _ hc ha hij h hj
  · exact hi.update hc rfl rfl rfl (by simp [hp, CallPc.allocated])
      (hi.registered_update hc rfl rfl rfl (by simp [hp, CallPc.registered]))
  · exact hi.update hc rfl rfl rfl (by simp [hp, CallPc.allocated])
      (hi.registered_update hc rfl rfl rfl (by simp [hp, CallPc.registered]))
  · exact hi.update hc rfl rfl rfl (by rcases hp with h | h <;> simp [h, CallPc.allocated])
      (hi.registered_update hc rfl rfl rfl (by rcases hp with h | h <;> simp [h, CallPc.registered]))
  · exact hi.update hc rfl rfl rfl (by rcases hp with h | h <;> simp [h, CallPc.allocated])
      (hi.registered_update hc rfl rfl rfl (by rcases hp with h | h <;> simp [h, CallPc.registered]))
  · -- the deferred `unregisterResponseHandler` removes this call's entry only
    have ha : c.pc.allocated := by simp [hp, CallPc.allocated]
    refine hi.update hc rfl rfl rfl (by simp [hp, CallPc.allocated]) fun j cj h hj => ?_
    simp only [setCall_calls, setCall_responseHandlers] at h ⊢
    rcases List.getElem?_set_eq_some h with ⟨rfl, rfl⟩ | ⟨hij, h⟩
    · simp [CallPc.registered] at hj
    · exact hi.registered_other _ hc ha hij h hj

theorem IdsInv.step {a : Action} (hi : s.IdsInv) (h : s.step a = some s')
    (hb : s'.calls.length < 2 ^ 64) : s'.IdsInv := by
  obtain ⟨-, h⟩ := step_cases h
  rcases h with ⟨t, req, rfl⟩ | rfl | ⟨i, e, c, hc, -, rfl⟩ | ⟨f, -, h⟩ | ⟨i, k, h⟩ | ⟨k, h⟩ |
    ⟨k, h⟩ | ⟨i, k, h⟩ | ⟨i, c, k, -, h⟩ | ⟨g, -, rfl⟩
  · -- a new call, not yet past `Inc`
    have back : ∀ {j : Nat} {cj : Call}, (s.calls ++ [⟨t, req, none, 0, none, .inc⟩])[j]? = some cj →
        cj.pc.allocated → s.calls[j]? = some cj := fun h ha => by
      rcases List.getElem?_concat_eq_some h with ⟨-, rfl⟩ | h
      · simp [CallPc.allocated] at ha
      · exact h
    refine ⟨?_, fun j cj h hj => hi.range j cj (back h hj) hj,
      fun j j' cj cj' h h' hj hj' => hi.distinct j j' cj cj' (back h hj) (back h' hj') hj hj',
      fun j cj h hj => hi.registered j cj (back h (CallPc.allocated_of_registered hj)) hj⟩
    simp [hi.count, CallPc.allocated]
  · exact hi.congr rfl rfl rfl
  · exact hi.update hc rfl rfl rfl rfl (hi.registered_update hc rfl rfl rfl id)
  · obtain ⟨-, ⟨m, -, -, rfl⟩ | ⟨m, -, -, rfl⟩ | rfl⟩ := stepRead_cases h <;> exact hi.congr rfl rfl rfl
  · exact hi.stepCall h hb
  · rcases stepReader_cases h with ⟨m, i, -, -, rfl⟩ | ⟨m, -, -, rfl⟩ | ⟨i, m, c, -, hc, -, rfl⟩ |
      ⟨-, rfl⟩ | ⟨c, -, h⟩
    all_goals first
      | exact hi.congr rfl rfl rfl
      | exact hi.update hc rfl rfl rfl rfl (hi.registered_update hc rfl rfl rfl id)
      | exact hi.congr (closeStep_frame h).1 (closeStep_frame h).2.2.1 (closeStep_frame h).2.1
  · rcases stepWriter_cases h with ⟨o, rest, -, -, rfl⟩ | ⟨-, -, rfl⟩ | ⟨o, -, rfl⟩ | ⟨o, -, rfl⟩ |
      ⟨c, -, h⟩
    all_goals first
      | exact hi.congr rfl rfl rfl
      | exact hi.congr (closeStep_frame h).1 (closeStep_frame h).2.2.1 (closeStep_frame h).2.1
  · obtain ⟨t, -, h⟩ := stepTask_cases h
    rcases h with ⟨-, -, rfl⟩ | ⟨-, f, resp, -, -, rfl⟩ | ⟨-, f, -, -, rfl⟩ | ⟨m, -, -, rfl⟩ |
      ⟨m, -, -, rfl⟩ <;> exact hi.congr rfl rfl rfl
  · exact hi.congr (closeStep_frame h).1 (closeStep_frame h).2.2.1 (closeStep_frame h).2.1
  · exact hi.congr (by simp [panicked_eq]) (by simp [panicked_eq]) (by simp [panicked_eq])

theorem IdsInv.reachable {hd : Handler} (h : Reachable hd s) (hb : s.calls.length < 2 ^ 64) :
    s.IdsInv := by
  induction h with
  | init => exact newStream_idsInv hd
  | step a _ hs ih => exact (ih (lt_of_le_of_lt (step_calls_length hs) hb)).step hs hb

/-- The response table is exact: while fewer than `2^64` calls have started, the IDs `Inc` gave are
distinct and nonzero, the table maps exactly the IDs of the registered calls, each to its own
call's `ch`, a call that returned has no entry, and a call's unregister removes its own. -/
theorem response_table_exact {hd : Handler} (h : Reachable hd s) (hb : s.calls.length < 2 ^ 64) :
    (∀ (i j : Nat) (ci cj : Call), s.calls[i]? = some ci → s.calls[j]? = some cj →
      ci.pc.allocated → cj.pc.allocated → ci.id = cj.id → i = j) ∧
    (∀ (i : Nat) (c : Call), s.calls[i]? = some c → c.pc.allocated → c.id ≠ 0) ∧
    (∀ (k : UInt64) (i : Nat), s.responseHandlers k = some i ↔
      ∃ c, s.calls[i]? = some c ∧ c.id = k ∧ c.pc.registered) ∧
    (∀ (i : Nat) (c : Call) (r : Return), s.calls[i]? = some c → c.pc = .returned r →
      ∀ k, s.responseHandlers k ≠ some i) ∧
    (∀ (i : Nat) (c : Call) (r : Return), s.calls[i]? = some c → c.pc = .unregister r →
      s.responseHandlers c.id = some i) := by
  have hi := IdsInv.reachable h hb
  have hc := CallsInv.reachable h
  have iff : ∀ (k : UInt64) (i : Nat), s.responseHandlers k = some i ↔
      ∃ c, s.calls[i]? = some c ∧ c.id = k ∧ c.pc.registered := fun k i =>
    ⟨hc.table k i, fun ⟨c, h, hid, hreg⟩ => hid ▸ hi.registered i c h hreg⟩
  refine ⟨hi.distinct, fun i c h ha he => ?_, iff, fun i c r h hr k hk => ?_,
    fun i c r h hr => (iff _ _).2 ⟨c, h, rfl, by simp [hr, CallPc.registered]⟩⟩
  · have := (hi.range i c h ha).1
    rw [he] at this
    exact absurd this (by decide)
  · obtain ⟨c', h', -, hreg⟩ := (iff k i).1 hk
    obtain rfl : c = c' := Option.some.inj (h.symm.trans h')
    simp [hr, CallPc.registered] at hreg

/-- Two calls on the stream, the first waiting for its response, the second returned by
cancellation: the bound holds, and the table holds the first call's entry only. -/
theorem response_table_exact_two_calls :
    ∃ s, Reachable (fun _ => none) s ∧ s.calls.length < 2 ^ 64 ∧
      s.responseHandlers 1 = some 0 ∧ s.responseHandlers 2 = none ∧
      (∀ (i j : Nat) (ci cj : Call), s.calls[i]? = some ci → s.calls[j]? = some cj →
        ci.pc.allocated → cj.pc.allocated → ci.id = cj.id → i = j) ∧
      (∀ (i : Nat) (c : Call), s.calls[i]? = some c → c.pc.allocated → c.id ≠ 0) ∧
      (∀ (k : UInt64) (i : Nat), s.responseHandlers k = some i ↔
        ∃ c, s.calls[i]? = some c ∧ c.id = k ∧ c.pc.registered) ∧
      (∀ (i : Nat) (c : Call) (r : Return), s.calls[i]? = some c → c.pc = .returned r →
        ∀ k, s.responseHandlers k ≠ some i) ∧
      (∀ (i : Nat) (c : Call) (r : Return), s.calls[i]? = some c → c.pc = .unregister r →
        s.responseHandlers c.id = some i) :=
  have hr := @Reachable.run (fun _ => none) _ _ .init
    [.rpc 0 [], .step (.call 0) .proceed, .step (.call 0) .proceed, .step (.call 0) .proceed,
      .rpc 0 [], .step (.call 1) .proceed, .step (.call 1) .proceed, .cancel 1 .canceled,
      .step (.call 1) .done, .step (.call 1) .proceed] rfl
  have hb : _ := (by decide : (_ : Stream).calls.length < 2 ^ 64)
  ⟨_, hr, hb, rfl, rfl, response_table_exact hr hb⟩

end Stream

end Piko.Rpc

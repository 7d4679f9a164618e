import ZkCppClient.Lifetime.Owners

/-!
# The end of a client

`destroyClient` takes away the registry's pointer only. The destructor runs and
closes the handle when the last context has gone. But the library gives up the
context of an armed watch only when the watch fires or its handle is closed, so
a watch and the client can keep each other.
-/

namespace ZkCppClient.Lifetime

open Watch (Kind Path WatchContext EventType)

/-- `destroyClient` has returned, the user has no pointer, and nothing is
outstanding that would complete, run or fire by itself. -/
structure Settled (s : St) : Prop where
  registered : s.registered = false
  users : s.users = 0
  calls : s.calls = []
  requests : s.requests = []
  second : s.second = .idle
  funs : s.funs = []
  timers : s.timers = []
  checking : s.checking = false
  retryTimers : s.retryTimers = 0

structure Ended (x : Life) : Prop where
  destructed : x.destructed = true
  closed : ∃ zh, x.client.zhandle = some zh ∧ zh ∈ x.closed

section
variable {s t : St} {rest : List Ptr}

theorem watchEvent_accounted {i : Nat} {w : WatchPtr} (ho : s.Owns rest) (hw : s.armed[i]? = some w)
    (type : EventType) (accepted : Bool) :
    (s.watchEvent i w type accepted).Accounted rest (Watch.fetches w.ctx.kind type && !accepted) := by
  have hqueued := queueAutoReg_owns ho w.ctx
  unfold St.watchEvent
  by_cases hs : type = .session
  · subst hs
    have hnone : Watch.fetches w.ctx.kind .session = false := by cases w.ctx.kind <;> rfl
    rw [hnone]
    exact hqueued.accounted
  · rw [if_neg hs]
    cases hf : Watch.fetches w.ctx.kind type with
    | false => exact (St.Owns.takeArmed hqueued hw).free.accounted
    | true =>
      obtain ⟨new, hfetched, hnew⟩ := fetch_accounted hqueued w.ctx accepted
      exact ⟨new, (St.Owns.takeArmed hfetched hw).free, hnew⟩

theorem reconnectFailed_owns (ho : s.Owns rest) : s.reconnectFailed.Owns rest := by
  unfold St.reconnectFailed
  split <;> exact ho

theorem retry_owns (ho : s.Owns rest) (hidle : s.second = .idle) (ok : Bool) : (s.retry ok).Owns rest := by
  unfold St.retry
  dsimp only
  split
  · exact ho
  · cases ok with
    | false => exact reconnectFailed_owns ho
    | true => exact St.Owns.giveSecond .reconnecting ho (by rw [hidle]; rfl)

theorem reconnected_owns (ho : St.Owns { s with second := .idle } rest) : s.reconnected.Owns rest := by
  unfold St.reconnected
  dsimp only
  split
  · exact ho
  · exact reconnectFailed_owns ho

theorem act_accounted {a : Act} (ho : s.Owns rest) (h : s.act a = some t) : t.Accounted rest (Leaks s a) := by
  cases a with
  | copy | destroyClient | cancel _ _ | setIsSupportReconnect _ =>
    cases h
    exact ho.accounted
  | getZkClient | session _ =>
    cases h
    split <;> exact ho.accounted
  | reset =>
    obtain ⟨-, h⟩ := Option.ite_none_left_eq_some.mp h
    cases h
    exact ho.accounted
  | request op handler accepted =>
    cases h
    cases handler with
    | false => exact ho.accounted
    | true => exact request_accounted ho op accepted
  | complete i rc =>
    obtain ⟨x, hx, h⟩ := Option.bind_eq_some_iff.mp h
    exact (complete_owns (ho.takeRequest hx) h).accounted
  | reg k p handler context =>
    obtain ⟨-, h⟩ := Option.ite_none_left_eq_some.mp h
    cases h
    cases handler with
    | none => exact ho.accounted
    | some handler => exact reg_accounted ho ⟨k, p, handler, context⟩
  | answer i rc =>
    cases hc : s.calls[i]? with
    | none => simp [St.act, hc] at h
    | some call =>
      cases call with
      | answered ctx ok => simp [St.act, hc] at h
      | waiting w =>
        simp only [St.act, hc] at h
        cases h
        simp only [Leaks, hc]
        obtain ⟨new, hanswered, hnew⟩ := answer_accounted rc (ho.takeCall hc)
        exact ⟨new, St.Owns.giveCall (.answered w.ctx _) hanswered, hnew⟩
  | regReturn i =>
    cases hc : s.calls[i]? with
    | none => simp [St.act, hc] at h
    | some call =>
      cases call with
      | waiting w => simp [St.act, hc] at h
      | answered ctx ok =>
        simp only [St.act, hc] at h
        cases h
        have htaken := ho.takeCall hc
        split <;> exact St.Owns.accounted htaken
  | watchEvent i type accepted =>
    obtain ⟨w, hw, h⟩ := Option.bind_eq_some_iff.mp h
    obtain ⟨-, h⟩ := Option.ite_none_left_eq_some.mp h
    cases h
    simp only [Leaks, hw, Option.any_some]
    exact watchEvent_accounted ho hw type accepted
  | checkSessionState timedOut =>
    obtain ⟨-, h⟩ := Option.ite_none_left_eq_some.mp h
    cases h
    unfold St.checkSessionState
    split
    · exact ho.accounted
    · split
      · dsimp only
        split <;> exact ho.accounted
      · exact ho.accounted
  | retry ok =>
    obtain ⟨hready, h⟩ := Option.ite_none_left_eq_some.mp h
    cases h
    have hidle : s.second = .idle := Classical.byContradiction fun hne => hready (.inl hne)
    exact (retry_owns ho hidle ok).accounted
  | second goesOn accepted =>
    simp only [St.act] at h
    split at h
    · rename_i k p funs hs hf
      cases h
      simp only [Leaks, hf]
      exact autoReg_accounted (s := { s with funs }) (ho.takeFun hf) hs k p
    · rename_i x op funs hs hf
      cases h
      simp only [Leaks, hf]
      exact post_accounted (s := { s with funs }) (ho.takeFun hf) op goesOn accepted
    · cases h
  | secondAnswer rc =>
    simp only [St.act] at h
    split at h
    · rename_i k p w hs
      cases h
      simp only [Leaks, hs]
      have htaken := ho.takeSecond
      rw [hs] at htaken
      obtain ⟨new, hanswered, hnew⟩ := answer_accounted rc htaken
      exact ⟨new, St.Owns.giveSecond (s := St.answer { s with second := .idle } w rc)
        (.reg k p (.answered w.ctx _)) hanswered rfl, hnew⟩
    · cases h
  | secondReturn =>
    have htaken := ho.takeSecond
    simp only [St.act] at h
    split at h
    · rename_i k p ctx ok hs
      rw [hs] at htaken
      cases h
      split <;> exact St.Owns.accounted htaken
    · rename_i hs
      rw [hs] at htaken
      obtain ⟨-, h⟩ := Option.ite_none_right_eq_some.mp h
      cases h
      exact (reconnected_owns htaken).accounted
    · cases h
  | timer i =>
    simp only [St.act] at h
    split at h
    · rename_i k p hs ht
      cases h
      simp only [Leaks, ht, Option.any_some]
      exact autoReg_accounted (s := { s with timers := s.timers.eraseIdx i }) ho hs k p
    · cases h

/-! ## The destructor -/

theorem refs_eq_zero : s.refs = 0 ↔ s.registered = false ∧ s.users = 0 ∧ s.heap.live = [] ∧ s.calls = [] ∧
    s.second = .idle ∧ s.funs = [] ∧ s.timers = [] := by
  have hsecond : s.second.refs = 0 ↔ s.second = .idle := by cases s.second <;> simp [SecondPc.refs]
  have hregistered : s.registered.toNat = 0 ↔ s.registered = false := by cases s.registered <;> simp
  simp only [St.refs, Nat.add_eq_zero_iff, List.length_eq_zero_iff, hsecond, hregistered]
  tauto

theorem held_eq_nil (ho : s.Owns rest) (hlive : s.heap.live = []) : s.requests = [] ∧ s.armed = [] ∧ rest = [] := by
  have hheld := ho.live_eq_nil.mp hlive
  simp only [St.held, List.append_eq_nil_iff, List.map_eq_nil_iff] at hheld
  exact ⟨hheld.1.1.1.1.1, hheld.1.1.1.1.2, hheld.2⟩

theorem act_gone {a : Act} (ho : s.Owns rest) (hrefs : s.refs = 0) (hderefs : a.derefs = false)
    (h : s.act a = some t) : t.refs = 0 ∧ t.zhandle = s.zhandle := by
  obtain ⟨hregistered, husers, hlive, hcalls, hsecond, hfuns, htimers⟩ := refs_eq_zero.mp hrefs
  obtain ⟨hrequests, harmed, -⟩ := held_eq_nil ho hlive
  cases a with
  | copy | request _ _ _ | cancel _ _ | setIsSupportReconnect _ => cases hderefs
  | getZkClient | session _ =>
    simp only [St.act, hregistered] at h
    cases h
    exact ⟨hrefs, rfl⟩
  | destroyClient =>
    cases h
    exact ⟨refs_eq_zero.mpr ⟨rfl, husers, hlive, hcalls, hsecond, hfuns, htimers⟩, rfl⟩
  | checkSessionState timedOut =>
    obtain ⟨-, h⟩ := Option.ite_none_left_eq_some.mp h
    rw [St.checkSessionState, if_pos (by simp [hregistered])] at h
    cases h
    exact ⟨hrefs, rfl⟩
  | retry ok =>
    obtain ⟨-, h⟩ := Option.ite_none_left_eq_some.mp h
    rw [St.retry, if_pos (by simp [hregistered])] at h
    cases h
    exact ⟨hrefs, rfl⟩
  | reset | reg _ _ _ _ => simp [St.act, husers] at h
  | complete i rc => simp [St.act, hrequests] at h
  | answer _ _ | regReturn _ => simp [St.act, hcalls] at h
  | watchEvent i type accepted => simp [St.act, harmed] at h
  | second goesOn accepted => simp [St.act, hsecond, hfuns] at h
  | secondAnswer _ | secondReturn => simp [St.act, hsecond] at h
  | timer i => simp [St.act, hsecond, htimers] at h

end

/-- `lost` are the contexts that nothing deletes any more. -/
structure Inv (x : Life) (lost : List Ptr) : Prop where
  owns : x.client.Owns lost
  refs : x.destructed = true ↔ x.client.refs = 0
  closed : x.destructed = true → ∀ zh, x.client.zhandle = some zh → zh ∈ x.closed

section
variable {x y : Life} {lost : List Ptr}

theorem inv_initial : Inv .initial [] where
  owns := owns_initial
  refs := iff_of_false Bool.false_ne_true (Nat.succ_ne_zero 0)
  closed h := by cases h

theorem inv_released (ho : x.client.Owns lost) (hrefs : x.destructed = true → x.client.refs = 0)
    (hclosed : x.destructed = true → ∀ zh, x.client.zhandle = some zh → zh ∈ x.closed) : Inv x.released lost := by
  unfold Life.released
  split
  · rename_i hgone
    refine ⟨ho, iff_of_true rfl hgone.1, fun _ zh hz => List.mem_append_right _ ?_⟩
    exact Option.mem_toList.mpr hz
  · rename_i hkept
    refine ⟨ho, ⟨hrefs, fun hz => ?_⟩, hclosed⟩
    cases hd : x.destructed with
    | true => rfl
    | false => exact absurd ⟨hz, hd⟩ hkept

theorem inv_step {a : Act} (hi : Inv x lost) (h : step x a = some y) :
    ∃ new, Inv y (new ++ lost) ∧ (new = [] ↔ Leaks x.client a = false) := by
  obtain ⟨henabled, h⟩ := Option.ite_none_left_eq_some.mp h
  obtain ⟨client, hact, rfl⟩ := Option.map_eq_some_iff.mp h
  obtain ⟨new, ho, hnew⟩ := act_accounted hi.owns hact
  have hgone : x.destructed = true → client.refs = 0 ∧ client.zhandle = x.client.zhandle := fun hd => by
    refine act_gone hi.owns (hi.refs.mp hd) ?_ hact
    simpa [hd] using henabled
  refine ⟨new, inv_released ho (fun hd => (hgone hd).1) (fun hd zh hz => ?_), hnew⟩
  exact hi.closed hd zh ((hgone hd).2 ▸ hz)

theorem inv_run {acts : List Act} (hrun : Lts.run step .initial acts = some x) : ∃ lost, Inv x lost ∧
    (lost = [] ↔ Lts.Along step (fun x a => Leaks x.client a = false) .initial acts) := by
  obtain ⟨lost, hi, hlost⟩ := Lts.account_of_run (I := Inv) (fun _ _ _ _ hi h => inv_step hi h) inv_initial hrun
  rw [List.append_nil] at hi
  exact ⟨lost, hi, hlost⟩

theorem held_live {acts : List Act} (hrun : Lts.run step .initial acts = some x) :
    x.client.held.Nodup ∧ ∀ p ∈ x.client.held, p ∈ x.client.heap.live := by
  obtain ⟨lost, hi, -⟩ := inv_run hrun
  exact ⟨(List.nodup_append.mp hi.owns.nodup).1, fun p hp => hi.owns.live (List.mem_append_left _ hp)⟩

/-- **The end of a client.** In a settled state the client has ended just when no
watch is armed, no step of the run has lost a context, and the client has a handle. -/
theorem ended_iff {acts : List Act} (hrun : Lts.run step .initial acts = some x) (hs : Settled x.client) :
    Ended x ↔ x.client.armed = [] ∧ Lts.Along step (fun x a => Leaks x.client a = false) .initial acts ∧
      x.client.zhandle ≠ none := by
  obtain ⟨lost, hi, hlost⟩ := inv_run hrun
  have hheld : x.client.held = x.client.armed.map WatchPtr.ptr := by
    simp [St.held, hs.requests, hs.calls, hs.second, hs.funs, SecondPc.held]
  have hrefs : x.client.refs = 0 ↔ x.client.armed = [] ∧ lost = [] := by
    have hlive := hi.owns.live_eq_nil
    rw [hheld, List.append_eq_nil_iff, List.map_eq_nil_iff] at hlive
    rw [refs_eq_zero, hlive]
    simp [hs.registered, hs.users, hs.calls, hs.second, hs.funs, hs.timers]
  constructor
  · intro he
    obtain ⟨harmed, hnone⟩ := hrefs.mp (hi.refs.mp he.destructed)
    obtain ⟨zh, hz, -⟩ := he.closed
    exact ⟨harmed, hlost.mp hnone, by rw [hz]; exact Option.some_ne_none zh⟩
  · rintro ⟨harmed, halong, hz⟩
    have hd := hi.refs.mpr (hrefs.mpr ⟨harmed, hlost.mpr halong⟩)
    obtain ⟨zh, hz⟩ := Option.ne_none_iff_exists'.mp hz
    exact ⟨hd, zh, hz, hi.closed hd zh hz⟩

end

def working : List Act :=
  [.getZkClient, .reg .node ["a"] (some 1) 0, .answer 0 .zok, .regReturn 0, .request .getNode true true]

def leaving : List Act := [.destroyClient, .reset, .checkSessionState false]

def cancelled : List Act :=
  working ++ [.cancel .node ["a"], .watchEvent 0 .changed true] ++ leaving ++ [.complete 0 .zok, .complete 0 .zok]

theorem ended_cancelled : Ended ((Lts.run step .initial cancelled).get rfl) :=
  (ended_iff (Option.some_get _).symm ⟨rfl, rfl, rfl, rfl, rfl, rfl, rfl, rfl, rfl⟩).mpr ⟨rfl, by decide, by decide⟩

/-- The watch is armed when everything else is over, and keeps the client. -/
theorem not_ended_armed : ¬ ∀ acts x, Lts.run step .initial acts = some x → Settled x.client → Ended x := by
  intro h
  have hended := h (working ++ leaving ++ [.complete 0 .zok]) _ rfl ⟨rfl, rfl, rfl, rfl, rfl, rfl, rfl, rfl, rfl⟩
  cases hended.destructed

end ZkCppClient.Lifetime

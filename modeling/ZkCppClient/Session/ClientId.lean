import Mathlib.Logic.Function.Basic
import ZkCppClient.Session.Credentials
import ZkCppClient.Session.Reconnect

/-!
# The session that is asked for

`init` keeps the session id it is given in `clientId_`, and `reconnect` passes
it to every `zookeeper_init` as `init` did, also once the server has reported
that session EXPIRED.
-/

namespace ZkCppClient.Session

open Credentials (SessionClientId)

/-- `opened` is the id of the session of each handle, `expired` those of the sessions reported
EXPIRED, the latest first. -/
structure SessionIds where
  opened : Handle → Int64 := fun _ => 0
  expired : List Int64 := []

/-- The session of a handle is the one it is opened for, or a new one where the id is 0 or there is none. -/
def sessionId (assigned : Handle → { id : Int64 // id ≠ 0 }) (clientid : Option SessionClientId) (zh : Handle) : Int64 :=
  match clientid with
  | some id => if id.client_id = 0 then (assigned zh).val else id.client_id
  | none => (assigned zh).val

section
variable (assigned : Handle → { id : Int64 // id ≠ 0 }) (client : Credentials.ZkClient)

def recordIds (w : SessionIds) (s : St) : Act → SessionIds
  | .zookeeperInit true =>
    { w with opened := Function.update w.opened s.nextZh (sessionId assigned (Credentials.zookeeperInit client).clientid s.nextZh) }
  | .deliver zh .expired _ => { w with expired := w.opened zh :: w.expired }
  | _ => w

def idStep : St × SessionIds → Act → Option (St × SessionIds) := Lts.withHistory step (recordIds assigned client)

/-- `reconnect` does not ask for a session that has been reported EXPIRED. -/
def AsksForAlive (x : St × SessionIds) : Act → Prop
  | .zookeeperInit _ => x.1.waiter = some ⟨.second, .start⟩ →
      ∀ id ∈ (Credentials.zookeeperInit client).clientid, id.client_id ∉ x.2.expired
  | _ => True

def Resumes : Prop := ∃ id ∈ client.clientId, id.client_id ≠ 0

/-- A client with the id of a session does not reconnect once one of its handles has got an EXPIRED event. -/
def NoneExpired (x : St × SessionIds) : Act → Prop
  | .zookeeperInit _ => x.1.waiter = some ⟨.second, .start⟩ → Resumes client → x.2.expired = []
  | _ => True

instance : Decidable (Resumes client) := inferInstanceAs (Decidable (∃ id ∈ client.clientId, _))

instance (x : St × SessionIds) : ∀ a, Decidable (NoneExpired client x a)
  | .zookeeperInit _ => inferInstanceAs (Decidable (_ → _))
  | .tick _ | .zookeeperInitReturn | .testState | .park | .wakeUp | .leaveWait | .finish | .retry _ | .deliver _ _ _ | .watcher
  | .checkSessionState | .check | .readCurrentMs | .readSessDisconn | .readSessTimeout | .setIsSupportReconnect _
  | .destroyClient | .destruct => isTrue trivial

structure IdInv (x : St × SessionIds) : Prop where
  made : HandlesMade x.1
  opened : ∀ zh < x.1.nextZh, x.2.opened zh = sessionId assigned client.clientId zh
  expired : ∀ i ∈ x.2.expired, ∃ zh, i = sessionId assigned client.clientId zh

variable {assigned client} {x y : St × SessionIds}

theorem sessionId_resumed {id : SessionClientId} (hid : id ∈ client.clientId) (hne : id.client_id ≠ 0) (zh : Handle) :
    sessionId assigned client.clientId zh = id.client_id := by
  unfold sessionId
  rw [Option.mem_def.mp hid]
  exact if_neg hne

theorem sessionId_new {id : SessionClientId} (hid : id ∈ client.clientId) (hzero : id.client_id = 0) (zh : Handle) :
    sessionId assigned client.clientId zh = assigned zh := by
  unfold sessionId
  rw [Option.mem_def.mp hid]
  exact if_pos hzero

theorem idInv_initial (timeout : Int) (expiredHandler : Bool) (now : Int) :
    IdInv assigned client (St.initial timeout expiredHandler now, {}) where
  made := handlesMade_initial timeout expiredHandler now
  opened _ h := nomatch h
  expired _ h := nomatch h

theorem nextZh_step {s t : St} {a : Act} (ha : a ≠ .zookeeperInit true) (h : step s a = some t) : t.nextZh = s.nextZh := by
  cases step_inv h with
  | @watcher w hw =>
    obtain ⟨_, _, _, _, _, heq⟩ := sessionWatcher_eq s w
    rw [heq]
  | callOk _ => exact absurd rfl ha
  | @finishInit ok _ => cases ok <;> rfl
  | @finishRetry ok _ =>
    obtain ⟨_, _, _, _, heq⟩ := finishRetry_eq s ok
    rw [heq]
  | expired _ =>
    obtain ⟨_, _, _, _, _, heq⟩ := sessionExpired_eq s
    rw [heq]
  | _ => rfl

theorem live_lt {s : St} {zh : Handle} (hm : HandlesMade s) (h : s.live zh = true) : zh < s.nextZh := by
  simp only [St.live, Bool.or_eq_true, decide_eq_true_eq] at h
  exact h.elim (hm.opened zh) (hm.call zh)

theorem deliver_live {s t : St} {zh : Handle} {state : SessState} {recvTimeout : Int}
    (h : step s (.deliver zh state recvTimeout) = some t) : s.live zh = true := by
  simp only [step] at h
  split at h
  · cases h
  · rename_i hg
    simp only [Bool.or_eq_true, Bool.not_eq_true', not_or, Bool.not_eq_false] at hg
    exact hg.1.1

theorem idInv_step {a : Act} (hi : IdInv assigned client x) (h : idStep assigned client x a = some y) :
    IdInv assigned client y := by
  obtain ⟨s, w⟩ := x
  obtain ⟨t, w'⟩ := y
  obtain ⟨hstep, hrecord⟩ := Lts.withHistory_some h
  have hm := handlesMade_step hi.made hstep
  dsimp only at hstep hrecord hm
  have hkept : a ≠ .zookeeperInit true → w'.opened = w.opened → (∀ i ∈ w'.expired, i ∈ w.expired) →
      IdInv assigned client (t, w') := by
    intro ha hopened hexpired
    refine ⟨hm, fun zh hlt => ?_, fun i hmem => hi.expired i (hexpired i hmem)⟩
    dsimp only at hlt ⊢
    rw [nextZh_step ha hstep] at hlt
    rw [hopened]
    exact hi.opened zh hlt
  subst hrecord
  cases a with
  | zookeeperInit ok =>
    cases ok with
    | false => exact hkept nofun rfl fun _ hmem => hmem
    | true =>
      have hnext : t.nextZh = s.nextZh + 1 := by
        cases step_inv hstep
        rfl
      refine ⟨hm, fun zh hlt => ?_, hi.expired⟩
      dsimp only [recordIds] at hlt ⊢
      rw [hnext] at hlt
      by_cases heq : zh = s.nextZh
      · subst heq
        exact Function.update_self ..
      · rw [Function.update_of_ne heq]
        exact hi.opened zh (Nat.lt_of_le_of_ne (Nat.le_of_lt_succ hlt) heq)
  | deliver zh state recvTimeout =>
    cases state with
    | expired =>
      have hlt : zh < s.nextZh := live_lt hi.made (deliver_live hstep)
      refine ⟨hm, fun zh' hlt' => ?_, fun i hmem => ?_⟩
      · dsimp only [recordIds] at hlt' ⊢
        rw [nextZh_step (a := .deliver zh .expired recvTimeout) nofun hstep] at hlt'
        exact hi.opened zh' hlt'
      · rcases List.mem_cons.mp hmem with rfl | hmem
        · exact ⟨zh, hi.opened zh hlt⟩
        · exact hi.expired i hmem
    | _ => exact hkept nofun rfl fun _ hmem => hmem
  | _ => exact hkept nofun rfl fun _ hmem => hmem

theorem asksForAlive_step {a : Act} (hi : IdInv assigned client x) :
    AsksForAlive client x a ↔ NoneExpired client x a := by
  cases a with
  | zookeeperInit ok =>
    refine forall_congr' fun _ => ?_
    constructor
    · rintro hnot ⟨id, hid, hne⟩
      refine List.eq_nil_iff_forall_not_mem.mpr fun i hmem => hnot id hid ?_
      obtain ⟨zh, rfl⟩ := hi.expired i hmem
      rwa [sessionId_resumed hid hne] at hmem
    · intro hnone id hid hmem
      obtain ⟨zh, hsession⟩ := hi.expired _ hmem
      by_cases hzero : id.client_id = 0
      · rw [sessionId_new hid hzero] at hsession
        exact (assigned zh).property (hsession.symm.trans hzero)
      · rw [hnone ⟨id, hid, hzero⟩] at hmem
        cases hmem
  | _ => exact Iff.rfl

end

/-- **The session asked for.** In every run of a client, no `zookeeper_init` of `reconnect` passes the
id of a session that has been reported EXPIRED, just when a client that was given an id does not
reconnect after an EXPIRED event. -/
theorem asksForAlive_iff (assigned : Handle → { id : Int64 // id ≠ 0 }) (client : Credentials.ZkClient) {timeout : Int}
    {expiredHandler : Bool} {now : Int} {acts : List Act} {x : St × SessionIds}
    (h : Lts.run (idStep assigned client) (St.initial timeout expiredHandler now, {}) acts = some x) :
    Lts.Along (idStep assigned client) (AsksForAlive client) (St.initial timeout expiredHandler now, {}) acts ↔
      Lts.Along (idStep assigned client) (NoneExpired client) (St.initial timeout expiredHandler now, {}) acts :=
  Lts.along_iff_along (fun _ _ _ hi h => idInv_step hi h) (fun _ _ _ hi _ => asksForAlive_step hi)
    (idInv_initial timeout expiredHandler now) h

theorem resumes_configure (client : Credentials.ZkClient) (host : String) (timeout : Int32)
    (clientId : Option SessionClientId) :
    Resumes (Credentials.configure client host timeout clientId) ↔ ∃ id ∈ clientId, id.client_id ≠ 0 := by
  cases clientId with
  | none => simp [Resumes, Credentials.configure]
  | some id => simp [Resumes, Credentials.configure]

def resumed : Credentials.ZkClient := Credentials.configure { handle := 2 } "" 4000 (some ⟨7, Credentials.textPasswd⟩)

def reportedExpired : List Act :=
  recordEvent 0 .expired 4000 ++ [.checkSessionState, .check, .check, .check, .check]

theorem asksForAlive_lost : Lts.Along (idStep (fun _ => ⟨9, by decide⟩) resumed) (AsksForAlive resumed)
    (St.initial 4000 true 0, {}) (initConnects ++ localExpiry ++ reopen) :=
  (asksForAlive_iff _ resumed (x := (Lts.run (idStep (fun _ => ⟨9, by decide⟩) resumed) (St.initial 4000 true 0, {})
    (initConnects ++ localExpiry ++ reopen)).get rfl) (Option.some_get _).symm).mpr (by decide)

/-- The session 7 is asked for again after it has been reported EXPIRED. -/
theorem not_asksForAlive_reported : ¬ Lts.Along (idStep (fun _ => ⟨9, by decide⟩) resumed) (AsksForAlive resumed)
    (St.initial 4000 true 0, {}) (initConnects ++ reportedExpired ++ reopen) := by
  intro h
  have hrest := h.append.2 _ rfl
  have hlast := (hrest.2 _ rfl).1 rfl _ rfl
  exact hlast List.mem_cons_self

end ZkCppClient.Session

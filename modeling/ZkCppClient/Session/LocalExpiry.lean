import ZkCppClient.Session.Machine

/-!
# Local expiry

`checkSessionState` declares a session expired that has been disconnected for
longer than its timeout. It reads the state, the disconnect time and the
timeout under three locks and writes the state under a fourth, and the watcher
writes the state before the time. Its verdict is sound unless a CONNECTED event
comes between the read of the state and the write, or the time is read between
the two writes of the event that begins the disconnection.
-/

namespace ZkCppClient.Session

def outage (log : List SessionEvent) : List SessionEvent := log.takeWhile (·.state ≠ .connected)

/-- The timeout that the server confirmed last, before that the one given to `init`. -/
def negotiated (timeout : Int) (log : List SessionEvent) : Int :=
  ((log.find? (·.state = .connected)).map (·.recvTimeout)).getD timeout

def ServerExpired (log : List SessionEvent) : Prop := ∃ e ∈ outage log, e.state = .expired

/-- The latest event is not CONNECTED, and the server has reported the end of the
session or it has been disconnected for more than its timeout. -/
def Overdue (timeout : Int) (s : St) : Prop :=
  outage s.log ≠ [] ∧
    (ServerExpired s.log ∨ ∀ first ∈ (outage s.log).getLast?, s.now - first.arrival > negotiated timeout s.log)

instance (log : List SessionEvent) : Decidable (ServerExpired log) := inferInstanceAs (Decidable (∃ e ∈ outage log, _))

instance (timeout : Int) (s : St) : Decidable (Overdue timeout s) := inferInstanceAs (Decidable (_ ∧ _))

/-- `checkSessionState` writes EXPIRED over an overdue session only. -/
def SoundExpiry (timeout : Int) (s : St) (a : Act) : Prop := a = .check → s.check = .setExpired → Overdue timeout s

instance (timeout : Int) (s : St) (a : Act) : Decidable (SoundExpiry timeout s a) :=
  inferInstanceAs (Decidable (_ → _))

def CheckPc.deciding : CheckPc → Bool
  | .compare _ _ _ | .setExpired => true
  | _ => false

def NoRace (s : St) : Act → Prop
  | .watcher => ∀ w ∈ s.watcher, w.pc = .setState → w.state = .connected → s.check.deciding = false
  | .readSessDisconn => ∀ w ∈ s.watcher, w.pc = .setTime → w.state.final = false → (outage s.log).length ≠ 1
  | _ => True

instance (s : St) (a : Act) : Decidable (NoRace s a) := by
  unfold NoRace; split <;> infer_instance

/-! ## The log -/

section
variable {e : SessionEvent} {log : List SessionEvent} {timeout : Int}

theorem outage_connected (h : e.state = .connected) : outage (e :: log) = [] := by simp [outage, h]

theorem outage_other (h : e.state ≠ .connected) : outage (e :: log) = e :: outage log := by simp [outage, h]

theorem negotiated_connected (h : e.state = .connected) : negotiated timeout (e :: log) = e.recvTimeout := by
  simp [negotiated, h]

theorem negotiated_other (h : e.state ≠ .connected) : negotiated timeout (e :: log) = negotiated timeout log := by
  simp [negotiated, h]

theorem getLast_outage (h : e.state ≠ .connected) (hne : outage log ≠ []) :
    (outage (e :: log)).getLast? = (outage log).getLast? := by
  rw [outage_other h]
  cases ho : outage log with
  | nil => exact absurd ho hne
  | cons e' l => simp

theorem serverExpired_cons (h : e.state ≠ .connected) (hs : ServerExpired log) : ServerExpired (e :: log) := by
  obtain ⟨e', hm, he⟩ := hs
  exact ⟨e', by rw [outage_other h]; exact List.mem_cons_of_mem _ hm, he⟩

theorem serverExpired_head (h : e.state = .expired) : ServerExpired (e :: log) := by
  refine ⟨e, ?_, h⟩
  rw [outage_other (by rw [h]; decide)]
  exact List.mem_cons_self

end

def SinceOutage (log : List SessionEvent) (d : Int) : Prop :=
  ServerExpired log ∨ ∀ first ∈ (outage log).getLast?, first.arrival ≤ d

theorem sinceOutage_cons {e : SessionEvent} {log : List SessionEvent} {d : Int} (h : e.state ≠ .connected)
    (hne : outage log ≠ []) (hd : SinceOutage log d) : SinceOutage (e :: log) d := by
  unfold SinceOutage
  rw [getLast_outage h hne]
  exact hd.imp_left (serverExpired_cons h)

/-! ## The invariant -/

def pastWait : Option Waiter → Bool
  | some ⟨who, .leaving _⟩ => who = .creator
  | some ⟨who, .done ok⟩ => ok && who = .creator
  | _ => false

def CheckInv (timeout : Int) (s : St) : CheckPc → Prop
  | .setExpired => Overdue timeout s
  | .compare currentMs sessDisconn sessTimeout => outage s.log ≠ [] ∧ (∀ c ∈ currentMs, c ≤ s.now) ∧
      (∀ d ∈ sessDisconn, SinceOutage s.log d) ∧ ∀ t ∈ sessTimeout, t = negotiated timeout s.log
  | _ => True

structure ExpiryInv (timeout : Int) (s : St) : Prop where
  arrival : ∀ e ∈ s.log, e.arrival ≤ s.now
  connected : s.client.sessionState = .connected ↔ s.log ≠ [] ∧ outage s.log = []
  expired : s.client.sessionState = .expired → Overdue timeout s
  disconnectMs : outage s.log ≠ [] → SinceOutage s.log s.client.sessionDisconnectMs ∨
    ∃ w ∈ s.watcher, w.pc = .setTime ∧ w.state.final = false ∧ (outage s.log).length = 1
  sessTimeout : s.client.sessionTimeout = negotiated timeout s.log ∨
    ∃ w ∈ s.watcher, w.pc = .setTime ∧ w.state = .connected ∧ outage s.log = []
  recvTimeout : ∀ w ∈ s.watcher, w.pc = .setTime → w.state = .connected → w.recvTimeout = negotiated timeout s.log
  started : s.log = [] → s.client.isInitialized = false ∧ pastWait s.waiter = false ∧ s.check = .idle
  check : CheckInv timeout s s.check

section
variable {timeout : Int} {s t : St}

theorem overdue_congr (hlog : t.log = s.log) (hnow : s.now ≤ t.now) (h : Overdue timeout s) : Overdue timeout t := by
  unfold Overdue
  rw [hlog]
  refine ⟨h.1, h.2.imp_right fun hlate first hf => ?_⟩
  have := hlate first hf
  omega

theorem checkInv_congr (hlog : t.log = s.log) (hnow : s.now ≤ t.now) {pc : CheckPc} (h : CheckInv timeout s pc) :
    CheckInv timeout t pc := by
  unfold CheckInv at h ⊢
  split
  · exact overdue_congr hlog hnow h
  · rw [hlog]
    exact ⟨h.1, fun c hc => Int.le_trans (h.2.1 c hc) hnow, h.2.2⟩
  · trivial

theorem checkInv_cons {e : SessionEvent} (he : e.state ≠ .connected) (hlog : t.log = e :: s.log) (hnow : t.now = s.now)
    {pc : CheckPc} (h : CheckInv timeout s pc) : CheckInv timeout t pc := by
  have hne : outage t.log ≠ [] := by rw [hlog, outage_other he]; exact List.cons_ne_nil _ _
  unfold CheckInv at h ⊢
  split
  · refine ⟨hne, ?_⟩
    rw [hlog, hnow, getLast_outage he h.1, negotiated_other he]
    exact h.2.imp_left (serverExpired_cons he)
  · refine ⟨hne, hnow ▸ h.2.1, fun d hd => ?_, fun t' ht => ?_⟩
    · rw [hlog]; exact sinceOutage_cons he h.1 (h.2.2.1 d hd)
    · rw [hlog, negotiated_other he]; exact h.2.2.2 t' ht
  · trivial

def St.recorded (s : St) : List SessionEvent × Int × SessState × Int × Int × Option Watcher :=
  (s.log, s.now, s.client.sessionState, s.client.sessionDisconnectMs, s.client.sessionTimeout, s.watcher)

theorem expiryInv_recorded (hi : ExpiryInv timeout s) (h : t.recorded = s.recorded)
    (hstarted : s.log = [] → t.client.isInitialized = false ∧ pastWait t.waiter = false ∧ t.check = .idle)
    (hcheck : CheckInv timeout s t.check) : ExpiryInv timeout t := by
  obtain ⟨hlog, hnow, hstate, hdisconn, htimeout, hwatcher⟩ : t.log = s.log ∧ t.now = s.now ∧
      t.client.sessionState = s.client.sessionState ∧
      t.client.sessionDisconnectMs = s.client.sessionDisconnectMs ∧
      t.client.sessionTimeout = s.client.sessionTimeout ∧ t.watcher = s.watcher := by
    simpa only [St.recorded, Prod.mk.injEq] using h
  have hle : s.now ≤ t.now := Int.le_of_eq hnow.symm
  constructor
  · rw [hlog, hnow]; exact hi.arrival
  · rw [hlog, hstate]; exact hi.connected
  · rw [hstate]; exact fun h => overdue_congr hlog hle (hi.expired h)
  · rw [hlog, hdisconn, hwatcher]; exact hi.disconnectMs
  · rw [hlog, htimeout, hwatcher]; exact hi.sessTimeout
  · rw [hlog, hwatcher]; exact hi.recvTimeout
  · rw [hlog]; exact hstarted
  · exact checkInv_congr hlog hle hcheck

theorem ExpiryInv.started_congr (hi : ExpiryInv timeout s) (hinit : t.client.isInitialized = s.client.isInitialized)
    (hwait : pastWait t.waiter = true → pastWait s.waiter = true) (hcheck : t.check = s.check) (h : s.log = []) :
    t.client.isInitialized = false ∧ pastWait t.waiter = false ∧ t.check = .idle := by
  obtain ⟨hni, hnp, hidle⟩ := hi.started h
  exact ⟨hinit.trans hni, Bool.eq_false_iff.mpr fun hp => Bool.eq_false_iff.mp hnp (hwait hp), hcheck.trans hidle⟩

theorem expiryInv_congr (hi : ExpiryInv timeout s) (h : t.recorded = s.recorded)
    (hinit : t.client.isInitialized = s.client.isInitialized)
    (hwait : pastWait t.waiter = true → pastWait s.waiter = true) (hcheck : t.check = s.check) :
    ExpiryInv timeout t := by
  apply expiryInv_recorded hi h
  · exact hi.started_congr hinit hwait hcheck
  · rw [hcheck]; exact hi.check

theorem expiryInv_moved (hi : ExpiryInv timeout s) (h : t.recorded = s.recorded) (hne : s.log ≠ [])
    (hcheck : CheckInv timeout s t.check) : ExpiryInv timeout t := by
  apply expiryInv_recorded hi h
  · exact fun hl => absurd hl hne
  · exact hcheck

theorem expiryInv_tick (hi : ExpiryInv timeout s) (d : Nat) : ExpiryInv timeout { s with now := s.now + d } := by
  have hnow : s.now ≤ s.now + d := by omega
  constructor
  · intro e he
    exact Int.le_trans (hi.arrival e he) hnow
  · exact hi.connected
  · intro h
    exact overdue_congr (s := s) rfl hnow (hi.expired h)
  · exact hi.disconnectMs
  · exact hi.sessTimeout
  · exact hi.recvTimeout
  · exact hi.started
  · apply checkInv_congr (s := s)
    · rfl
    · exact hnow
    · exact hi.check

theorem expiryInv_settled (hi : ExpiryInv timeout s) (hlog : t.log = s.log) (hnow : t.now = s.now)
    (hstate : t.client.sessionState = s.client.sessionState) (hwatcher : ∀ w ∈ t.watcher, w.pc ≠ .setTime)
    (hdisconn : outage s.log ≠ [] → SinceOutage s.log t.client.sessionDisconnectMs)
    (htimeout : t.client.sessionTimeout = negotiated timeout s.log)
    (hinit : t.client.isInitialized = s.client.isInitialized)
    (hwait : pastWait t.waiter = true → pastWait s.waiter = true) (hcheck : t.check = s.check) : ExpiryInv timeout t := by
  have hnow' : s.now ≤ t.now := Int.le_of_eq hnow.symm
  constructor
  · rw [hlog]; exact fun e he => Int.le_trans (hi.arrival e he) hnow'
  · rw [hlog, hstate]; exact hi.connected
  · rw [hstate]; exact fun h => overdue_congr hlog hnow' (hi.expired h)
  · rw [hlog]; exact fun h => .inl (hdisconn h)
  · rw [hlog]; exact .inl htimeout
  · exact fun w hw hpc => absurd hpc (hwatcher w hw)
  · rw [hlog]; exact hi.started_congr hinit hwait hcheck
  · rw [hcheck]; exact checkInv_congr hlog hnow' hi.check

/-! ## Steps of the watcher -/

theorem ExpiryInv.since (hi : ExpiryInv timeout s)
    (hw : ∀ w ∈ s.watcher, w.pc = .setTime → w.state.final = true) (h : outage s.log ≠ []) :
    SinceOutage s.log s.client.sessionDisconnectMs := by
  rcases hi.disconnectMs h with hd | ⟨w, hm, hpc, hf, -⟩
  · exact hd
  · rw [hw w hm hpc] at hf; cases hf

theorem ExpiryInv.confirmed (hi : ExpiryInv timeout s)
    (hw : ∀ w ∈ s.watcher, w.pc = .setTime → w.state ≠ .connected) :
    s.client.sessionTimeout = negotiated timeout s.log := by
  rcases hi.sessTimeout with ht | ⟨w, hm, hpc, hc, -⟩
  · exact ht
  · exact absurd hc (hw w hm hpc)

theorem sinceOutage_now (hi : ExpiryInv timeout s) : SinceOutage s.log s.now := by
  refine .inr fun first hf => hi.arrival first ?_
  exact List.takeWhile_subset _ (List.mem_of_getLast? hf)

theorem expiryInv_connected (hi : ExpiryInv timeout s) {zh : Handle} {recvTimeout : Int}
    (hdeciding : s.check.deciding = false) :
    ExpiryInv timeout (sessionWatcher s ⟨zh, .connected, recvTimeout, .setState⟩) := by
  have hout : outage (⟨zh, .connected, s.now, recvTimeout⟩ :: s.log) = [] := outage_connected rfl
  refine ⟨fun e he => ?_, ?_, nofun, fun h => absurd hout h, .inr ⟨_, rfl, rfl, rfl, hout⟩, ?_, nofun, ?_⟩
  · rcases List.mem_cons.mp he with rfl | he
    · exact Int.le_refl _
    · exact hi.arrival e he
  · exact ⟨fun _ => ⟨List.cons_ne_nil _ _, hout⟩, fun _ => rfl⟩
  · intro w hw _ _
    cases hw
    exact (negotiated_connected (e := ⟨zh, .connected, s.now, recvTimeout⟩) rfl).symm
  · show CheckInv timeout _ s.check
    cases hc : s.check with
    | compare c d t => rw [hc] at hdeciding; cases hdeciding
    | setExpired => rw [hc] at hdeciding; cases hdeciding
    | _ => trivial

theorem expiryInv_disconnected (hi : ExpiryInv timeout s) {zh : Handle} {state : SessState} {recvTimeout : Int}
    (hw : s.watcher = some ⟨zh, state, recvTimeout, .setState⟩) (hne : state ≠ .connected) :
    ExpiryInv timeout (sessionWatcher s ⟨zh, state, recvTimeout, .setState⟩) := by
  have hout : outage (⟨zh, state, s.now, recvTimeout⟩ :: s.log) = ⟨zh, state, s.now, recvTimeout⟩ :: outage s.log :=
    outage_other hne
  have hnil : outage (⟨zh, state, s.now, recvTimeout⟩ :: s.log) ≠ [] := by rw [hout]; exact List.cons_ne_nil _ _
  have hset : ∀ w ∈ s.watcher, w.pc ≠ .setTime := by
    intro w h
    rw [hw] at h; cases h; nofun
  have hcheck : CheckInv timeout (sessionWatcher s ⟨zh, state, recvTimeout, .setState⟩) s.check := by
    apply checkInv_cons (s := s) (e := ⟨zh, state, s.now, recvTimeout⟩) hne
    · rfl
    · rfl
    · exact hi.check
  refine ⟨fun e he => ?_, ⟨fun h => absurd h hne, fun h => absurd h.2 hnil⟩,
    fun h => ⟨hnil, .inl (serverExpired_head h)⟩, fun _ => ?_, .inl ?_, ?_, nofun, hcheck⟩
  · rcases List.mem_cons.mp he with rfl | he
    · exact Int.le_refl _
    · exact hi.arrival e he
  -- the first event of an outage has still to write its time, a further one has no earlier time than the first
  · by_cases hnew : outage s.log = []
    · cases hf : state.final with
      | true =>
        cases state with
        | expired => exact .inl (.inl (serverExpired_head rfl))
        | connected => exact absurd rfl hne
        | _ => cases hf
      | false =>
        refine .inr ⟨_, rfl, rfl, hf, ?_⟩
        show (outage (_ :: s.log)).length = 1
        rw [hout, hnew]; rfl
    · exact .inl (sinceOutage_cons hne hnew (hi.since (fun w h hpc => absurd hpc (hset w h)) hnew))
  · show s.client.sessionTimeout = negotiated timeout (_ :: s.log)
    rw [negotiated_other hne]
    exact hi.confirmed fun w h hpc => absurd hpc (hset w h)
  · intro w h _ hc
    cases h
    exact absurd hc hne

theorem expiryInv_setTime (hi : ExpiryInv timeout s) {zh : Handle} {state : SessState} {recvTimeout : Int}
    (hw : s.watcher = some ⟨zh, state, recvTimeout, .setTime⟩) :
    ExpiryInv timeout (sessionWatcher s ⟨zh, state, recvTimeout, .setTime⟩) := by
  have hunlock : ∀ w ∈ some (⟨zh, state, recvTimeout, .unlock⟩ : Watcher), w.pc ≠ .setTime := by
    intro w h
    cases h; nofun
  have hsince : state.final = true → outage s.log ≠ [] → SinceOutage s.log s.client.sessionDisconnectMs := by
    intro hf
    apply hi.since
    intro w h _
    rw [hw] at h; cases h; exact hf
  have hconf : state ≠ .connected → s.client.sessionTimeout = negotiated timeout s.log := by
    intro hne
    apply hi.confirmed
    intro w h _
    rw [hw] at h; cases h; exact hne
  cases state with
  | connected =>
    exact expiryInv_settled hi rfl rfl rfl hunlock (hsince rfl) (hi.recvTimeout _ hw rfl rfl) rfl id rfl
  | expired => exact expiryInv_settled hi rfl rfl rfl hunlock (hsince rfl) (hconf nofun) rfl id rfl
  | _ => exact expiryInv_settled hi rfl rfl rfl hunlock (fun _ => sinceOutage_now hi) (hconf nofun) rfl id rfl

theorem pastWait_notify (w : Option Waiter) : pastWait (notify w) = pastWait w := by
  unfold notify; split <;> rfl

theorem expiryInv_sessionWatcher (hi : ExpiryInv timeout s) {w : Watcher} (hw : s.watcher = some w)
    (hg : NoRace s .watcher) : ExpiryInv timeout (sessionWatcher s w) := by
  obtain ⟨zh, state, recvTimeout, pc⟩ := w
  cases pc with
  | setState =>
    by_cases hc : state = .connected
    · subst hc; exact expiryInv_connected hi (hg _ hw rfl rfl)
    · exact expiryInv_disconnected hi hw hc
  | setTime => exact expiryInv_setTime hi hw
  | unlock =>
    have hset : ∀ w ∈ s.watcher, w.pc ≠ .setTime := by
      intro w h
      rw [hw] at h; cases h; nofun
    refine expiryInv_settled hi rfl rfl rfl nofun (hi.since fun w h hpc => absurd hpc (hset w h))
      (hi.confirmed fun w h hpc => absurd hpc (hset w h)) rfl (fun h => ?_) rfl
    have h : pastWait (if state.final = true then notify s.waiter else s.waiter) = true := h
    split at h
    · rwa [pastWait_notify] at h
    · exact h

/-! ## All steps -/

theorem ExpiryInv.log_ne_nil (hi : ExpiryInv timeout s) (hf : s.client.sessionState.final = true) : s.log ≠ [] := by
  cases hs : s.client.sessionState with
  | connected => exact (hi.connected.mp hs).1
  | expired =>
    intro h
    apply (hi.expired hs).1
    rw [h]; rfl
  | _ => rw [hs] at hf; cases hf

theorem overdue_of_compare (hi : ExpiryInv timeout s) {c d t : Int}
    (hcheck : s.check = .compare (some c) (some d) (some t)) (hlate : c - d > t) : Overdue timeout s := by
  have h := hi.check
  rw [hcheck] at h
  obtain ⟨hne, hc, hd, ht⟩ := h
  refine ⟨hne, (hd d rfl).imp_right fun hsince first hf => ?_⟩
  have h1 := hc c rfl
  have h2 := hsince first hf
  have h3 := ht t rfl
  omega

theorem expiryInv_step {a : Act} (hi : ExpiryInv timeout s) (hg : NoRace s a) (h : step s a = some t) :
    ExpiryInv timeout t := by
  -- the check and the end of `init` come after the first event
  have hne : s.check ≠ .idle → s.log ≠ [] := fun hc hl => hc (hi.started hl).2.2
  have hpast : pastWait s.waiter = true → s.log ≠ [] := fun hp hl => by rw [(hi.started hl).2.1] at hp; cases hp
  cases step_inv h with
  | tick d => exact expiryInv_tick hi d
  | delivered _ hfree _ =>
    have hnone : ∀ w ∈ s.watcher, False := by rw [hfree]; nofun
    refine expiryInv_settled hi rfl rfl rfl (fun w hw => ?_) (hi.since fun w h => absurd h (hnone w))
      (hi.confirmed fun w h => absurd h (hnone w)) rfl id rfl
    cases hw; nofun
  | watcher hw => exact expiryInv_sessionWatcher hi hw hg
  | testLeave hw _ hf => exact expiryInv_moved hi rfl (hi.log_ne_nil hf) hi.check
  | leaveInit hw => exact expiryInv_moved hi rfl (hpast (by rw [hw]; rfl)) hi.check
  | @finishInit ok hw =>
    cases ok with
    | false => exact expiryInv_congr hi rfl rfl nofun rfl
    | true => exact expiryInv_moved hi rfl (hpast (by rw [hw]; rfl)) hi.check
  | @finishRetry ok hw =>
    obtain ⟨_, _, _, _, he⟩ := finishRetry_eq s ok
    rw [he]
    exact expiryInv_congr hi rfl rfl nofun rfl
  | checkGone hc => exact expiryInv_congr hi rfl rfl id hc.symm
  | check hc hf =>
    have hf : s.registered = true ∧ s.client.isInitialized = true := by simpa [St.found] using hf
    refine expiryInv_moved hi rfl (fun hl => ?_) trivial
    rw [(hi.started hl).1] at hf
    cases hf.2
  | @isExpired pc hc hpc =>
    refine expiryInv_moved hi rfl (hne (by rw [hc]; nofun)) ?_
    subst hpc
    split
    · rename_i hexp; exact hi.expired hexp
    · trivial
  | @isConnected pc hc hpc =>
    have hnil := hne (by rw [hc]; nofun)
    refine expiryInv_moved hi rfl hnil ?_
    subst hpc
    split
    · trivial
    · rename_i hconn
      exact ⟨fun hout => hconn (hi.connected.mpr ⟨hnil, hout⟩), nofun, nofun, nofun⟩
  | @compare c d t pc hc hpc =>
    refine expiryInv_moved hi rfl (hne (by rw [hc]; nofun)) ?_
    subst hpc
    split
    · rename_i hlate; exact overdue_of_compare hi hc hlate
    · trivial
  | setExpired hc =>  -- the comparison has shown that the session is overdue
    have hover : Overdue timeout s := by have h := hi.check; rwa [hc] at h
    exact ⟨hi.arrival, ⟨nofun, fun h => absurd h.2 hover.1⟩, fun _ => hover, hi.disconnectMs, hi.sessTimeout,
      hi.recvTimeout, fun hl => absurd hl (hne (by rw [hc]; nofun)), trivial⟩
  | expired hc =>
    obtain ⟨_, _, _, _, _, he⟩ := sessionExpired_eq s
    rw [he]
    exact expiryInv_moved hi rfl (hne (by rw [hc]; nofun)) trivial
  | again hc => exact expiryInv_moved hi rfl (hne (by rw [hc]; nofun)) trivial
  | readCurrentMs hc =>
    have hcheck := hi.check
    rw [hc] at hcheck
    refine expiryInv_moved hi rfl (hne (by rw [hc]; nofun)) ⟨hcheck.1, ?_, hcheck.2.2⟩
    intro c h
    cases h; exact Int.le_refl _
  | readSessDisconn hc =>
    have hcheck := hi.check
    rw [hc] at hcheck
    refine expiryInv_moved hi rfl (hne (by rw [hc]; nofun)) ⟨hcheck.1, hcheck.2.1, ?_, hcheck.2.2.2⟩
    intro d h
    cases h
    rcases hi.disconnectMs hcheck.1 with hd | ⟨w, hw, hpc, hf, hlen⟩
    · exact hd
    -- the first race: an outage whose time is not written yet
    · exact absurd hlen (hg w hw hpc hf)
  | readSessTimeout hc =>
    have hcheck := hi.check
    rw [hc] at hcheck
    refine expiryInv_moved hi rfl (hne (by rw [hc]; nofun)) ⟨hcheck.1, hcheck.2.1, hcheck.2.2.1, ?_⟩
    intro t h
    cases h
    rcases hi.sessTimeout with ht | ⟨w, hw, hpc, hconn, hout⟩
    · exact ht
    -- the second race: a CONNECTED event that is recorded and whose timeout is not
    · exact absurd hout hcheck.1
  | leaveReconnect _ =>
    exact expiryInv_congr hi rfl rfl (fun h => by simp [pastWait] at h) rfl
  | callOk _ | callFail _ | returnOk _ | returnFail _ | testHold _ _ _ | park _ | wakeUp _ | retryGone _ _ | retry _ _ =>
    exact expiryInv_congr hi rfl rfl nofun rfl
  | _ => exact expiryInv_congr hi rfl rfl id rfl

end

theorem expiryInv_initial (timeout : Int) (expiredHandler : Bool) (now : Int) :
    ExpiryInv timeout (St.initial timeout expiredHandler now) where
  arrival _ h := by cases h
  connected := ⟨nofun, fun h => absurd rfl h.1⟩
  expired h := by cases h
  disconnectMs h := absurd rfl h
  sessTimeout := .inl rfl
  recvTimeout _ h := by cases h
  started _ := ⟨rfl, rfl, rfl⟩
  check := trivial

/-- **Sound expiry.** Without the two races, every EXPIRED that the check writes
is of an overdue session. -/
theorem soundExpiry_of_noRace {timeout : Int} {expiredHandler : Bool} {now : Int} {acts : List Act}
    (hg : Lts.Along step NoRace (St.initial timeout expiredHandler now) acts) :
    Lts.Along step (SoundExpiry timeout) (St.initial timeout expiredHandler now) acts := by
  refine Lts.along_of_along (fun _ _ _ hi hg h => expiryInv_step hi hg h) (fun s a hi _ => ?_)
    (expiryInv_initial timeout expiredHandler now) hg
  rintro - hc
  have h := hi.check
  rwa [hc] at h

theorem soundExpiry_localExpiry :
    Lts.Along step (SoundExpiry 4000) (St.initial 4000 true 0) (initConnects ++ localExpiry) :=
  soundExpiry_of_noRace (by decide)

/-- The first disconnection, one check, and the disconnect time read before it is
written: the clock stands where it stood when the connection was lost. -/
theorem not_soundExpiry_justBegun : ¬ Lts.Along step (SoundExpiry 4000) (St.initial 4000 true 5000)
    (initConnects ++ [.deliver 0 .connecting 4000, .watcher, .checkSessionState, .check, .check, .readCurrentMs,
      .readSessDisconn, .readSessTimeout, .check, .check]) := by
  decide

end ZkCppClient.Session

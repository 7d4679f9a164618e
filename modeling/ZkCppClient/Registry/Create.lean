import Mathlib.Logic.Function.Basic
import ZkCppClient.Lib.Run

/-!
# Concurrent `createZkClient`

Any number of `createZkClient` calls, each a thread of its own. Every access to
the unguarded counter `nextHandle_`, the insertion into `totalZkClients_` and
the two ends of the blocking `init` are separate steps. `init` waits for its
client's session state, and a session event finds the client that it is recorded
at by the number of the client that has opened the session.
-/

namespace ZkCppClient.Registry

abbrev CallId := Nat

/-- `initResult` says whether the session of the call's handle is established or expires. -/
structure CreateCall where
  host : String
  timeout : Int32
  expiredHandler : Option Nat
  context : Nat
  initResult : Bool

structure ZkClient where
  handle : UInt32
  host : String := ""
  sessionTimeout : Int32 := 0
  expiredHandler : Option Nat := none
  userContext : Nat := 0
  isInitialized : Bool := false
  deriving DecidableEq, Repr

def ZkClient.configure (client : ZkClient) (call : CreateCall) : ZkClient :=
  { client with
    host := call.host
    sessionTimeout := call.timeout
    expiredHandler := call.expiredHandler
    userContext := call.context }

inductive Pc
  | start
  | incremented  -- the test for 0 to come
  | wrapped  -- the second increment to come
  | numbered  -- `new ZkClient(nextHandle_)` to come
  | constructed  -- the key of the insertion to be read
  | keyed (key : UInt32)
  | inserted
  | initialising
  | initialised (ok : Bool)
  | returned (handle : UInt32)
  deriving DecidableEq, Repr

/-- `totalZkClients` maps a handle to the client object that the named call made, and
`sessionState` is that object's: CONNECTED, EXPIRED, or another. -/
structure St where
  nextHandle : UInt32
  totalZkClients : UInt32 → Option CallId
  client : CallId → Option ZkClient
  sessionState : CallId → Option Bool
  cbfunData : CallId → Bool  -- the call's session is open, and its context is not deleted
  pc : CallId → Pc
  started : List CallId

def St.initial : St where
  nextHandle := 1
  totalZkClients _ := none
  client _ := none
  sessionState _ := none
  cbfunData _ := false
  pc _ := .start
  started := []

inductive Act
  | call (c : CallId)
  | refuse (c : CallId)  -- `zookeeper_init` returns NULL
  | sessionWatcher (c : CallId) (settled : Bool)  -- an event of the session that the call has opened
  deriving DecidableEq

def St.goto (s : St) (c : CallId) (pc : Pc) : St :=
  { s with pc := Function.update s.pc c pc }

def St.setClient (s : St) (c : CallId) (client : Option ZkClient) : St :=
  { s with client := Function.update s.client c client }

section
variable (calls : CallId → CreateCall)

def handleOf (s : St) (c : CallId) : Option UInt32 := (s.client c).map (·.handle)

/-- The client is looked up by the `handle_` that `init` has put into the context. -/
def sessionWatcher (s : St) (c : CallId) (settled : Bool) : St :=
  match (handleOf s c).bind s.totalZkClients with
  | none => { s with cbfunData := Function.update s.cbfunData c false }
  | some d =>
    { s with sessionState := Function.update s.sessionState d (if settled then some (calls c).initResult else none) }

def createZkClient (s : St) (c : CallId) : Option St :=
  match s.pc c with
  | .start => some ({ s with nextHandle := s.nextHandle + 1, started := c :: s.started }.goto c .incremented)
  | .incremented => some (s.goto c (if s.nextHandle = 0 then .wrapped else .numbered))
  | .wrapped => some ({ s with nextHandle := s.nextHandle + 1 }.goto c .numbered)
  | .numbered => some ((s.setClient c (some { handle := s.nextHandle })).goto c .constructed)
  | .constructed => some (s.goto c (.keyed s.nextHandle))
  | .keyed key =>
    some ({ s with totalZkClients := Function.update s.totalZkClients key (some c) }.goto c .inserted)
  | .inserted =>
    some (({ s with cbfunData := Function.update s.cbfunData c true }.setClient c
      ((s.client c).map (ZkClient.configure · (calls c)))).goto c .initialising)
  | .initialising =>
    (s.sessionState c).map fun ok => (s.setClient c ((s.client c).map fun client =>
      { client with isInitialized := client.isInitialized || ok })).goto c (.initialised ok)
  | .initialised ok => some (s.goto c (.returned (if ok then s.nextHandle else 0)))
  | .returned _ => none

def step (s : St) : Act → Option St
  | .call c => createZkClient calls s c
  | .refuse c =>
    if s.pc c = .inserted ∧ (calls c).initResult = false then
      some ((s.setClient c ((s.client c).map (·.configure (calls c)))).goto c (.initialised false))
    else none
  | .sessionWatcher c settled => if s.cbfunData c then some (sessionWatcher calls s c settled) else none

def getZkClient (s : St) (handle : UInt32) : Option ZkClient :=
  (s.totalZkClients handle).bind fun c => (s.client c).filter (·.isInitialized)

def Pc.pastInsertion : Pc → Bool
  | .inserted | .initialising | .initialised _ | .returned _ => true
  | _ => false

def created (c : CallId) (handle : UInt32) : ZkClient :=
  { ZkClient.configure { handle } (calls c) with isInitialized := true }

structure ThreadSafe (s : St) : Prop where
  distinct : ∀ c d h, c ≠ d → handleOf s c = some h → handleOf s d ≠ some h
  kept : ∀ c, (s.pc c).pastInsertion = true → ∃ key, s.totalZkClients key = some c
  own : ∀ c h, s.pc c = .returned h → h ≠ 0 → getZkClient s h = some (created calls c h)

/-- The call still has a read of the counter to come that its result depends
on: that of its handle and of its key, and, when `init` succeeds, that of its
result. -/
def Busy (s : St) (c : CallId) : Bool :=
  match s.pc c with
  | .incremented | .wrapped | .numbered | .constructed => true
  | .keyed _ | .inserted | .initialising | .initialised _ => (calls c).initResult
  | .start | .returned _ => false

def skipZero (n : UInt32) : UInt32 := if n = 0 then 1 else n

/-- The condition: a call starts while no other is busy, and the counter does
not come round to a handle that an earlier call was given. -/
def StartsAlone (s : St) : Act → Prop
  | .call c => s.pc c = .start →
    (∀ d ∈ s.started, Busy calls s d = false) ∧ ∀ d ∈ s.started, handleOf s d ≠ some (skipZero (s.nextHandle + 1))
  | _ => True

instance (s : St) : (a : Act) → Decidable (StartsAlone calls s a)
  | .call c => inferInstanceAs (Decidable (s.pc c = .start →
    (∀ d ∈ s.started, Busy calls s d = false) ∧ ∀ d ∈ s.started, handleOf s d ≠ some (skipZero (s.nextHandle + 1))))
  | .refuse _ | .sessionWatcher .. => isTrue trivial

/-! ## The invariant of calls that start alone -/

def Fresh (s : St) (h : UInt32) : Prop := ∀ d, handleOf s d ≠ some h

def CallOk (s : St) (c : CallId) : Prop :=
  match s.pc c with
  | .start => s.client c = none
  | .incremented => s.client c = none ∧ Fresh s (skipZero s.nextHandle)
  | .wrapped => s.client c = none ∧ s.nextHandle = 0 ∧ Fresh s 1
  | .numbered => s.client c = none ∧ Fresh s s.nextHandle
  | .constructed => s.client c = some { handle := s.nextHandle }
  | .keyed key => s.client c = some { handle := key } ∧ ((calls c).initResult → s.nextHandle = key)
  | .inserted => ∃ h, s.client c = some { handle := h } ∧ s.totalZkClients h = some c ∧
      ((calls c).initResult → s.nextHandle = h)
  | .initialising => ∃ h, s.client c = some (ZkClient.configure { handle := h } (calls c)) ∧
      s.totalZkClients h = some c ∧ ((calls c).initResult → s.nextHandle = h)
  | .initialised ok => ok = (calls c).initResult ∧ ∃ h, handleOf s c = some h ∧
      s.totalZkClients h = some c ∧ (ok → s.client c = some (created calls c h) ∧ s.nextHandle = h)
  | .returned r => ∃ h, handleOf s c = some h ∧ s.totalZkClients h = some c ∧
      (r ≠ 0 → r = h ∧ s.client c = some (created calls c h))

structure Inv (s : St) : Prop where
  callOk : ∀ c, CallOk calls s c
  busy_eq : ∀ c d, Busy calls s c = true → Busy calls s d = true → c = d
  distinct : ∀ c d h, c ≠ d → handleOf s c = some h → handleOf s d ≠ some h
  keyed : ∀ key c, s.totalZkClients key = some c → handleOf s c = some key
  started : ∀ c, s.pc c ≠ .start → c ∈ s.started
  session : ∀ c ok, s.sessionState c = some ok → ok = (calls c).initResult

@[simp] theorem goto_nextHandle (s : St) (c : CallId) (pc : Pc) : (s.goto c pc).nextHandle = s.nextHandle := rfl
@[simp] theorem goto_client (s : St) (c : CallId) (pc : Pc) : (s.goto c pc).client = s.client := rfl
@[simp] theorem goto_total (s : St) (c : CallId) (pc : Pc) : (s.goto c pc).totalZkClients = s.totalZkClients := rfl
@[simp] theorem fresh_goto (s : St) (c : CallId) (pc : Pc) (h : UInt32) : Fresh (s.goto c pc) h ↔ Fresh s h := Iff.rfl

@[simp] theorem setClient_nextHandle (s : St) (c : CallId) (client : Option ZkClient) :
    (s.setClient c client).nextHandle = s.nextHandle := rfl
@[simp] theorem setClient_self (s : St) (c : CallId) (client : Option ZkClient) :
    (s.setClient c client).client c = client := by simp [St.setClient]

@[simp] theorem goto_pc_self (s : St) (c : CallId) (pc : Pc) : (s.goto c pc).pc c = pc := by simp [St.goto]

theorem goto_pc_other {s : St} {c d : CallId} (pc : Pc) (h : d ≠ c) : (s.goto c pc).pc d = s.pc d := by
  simp [St.goto, h]

theorem setClient_other {s : St} {c d : CallId} (client : Option ZkClient) (h : d ≠ c) :
    (s.setClient c client).client d = s.client d := by simp [St.setClient, h]

theorem busy_congr {s t : St} {d : CallId} (hpc : t.pc d = s.pc d) : Busy calls t d = Busy calls s d := by
  simp only [Busy, hpc]

theorem busy_of_moved {s t : St} {c : CallId} (hpc : ∀ d, d ≠ c → t.pc d = s.pc d)
    (hc : Busy calls t c = true → Busy calls s c = true) (d : CallId) (h : Busy calls t d = true) :
    Busy calls s d = true := by
  by_cases hd : d = c
  · subst hd; exact hc h
  · rwa [busy_congr calls (hpc d hd)] at h

theorem callOk_frame {s t : St} {d : CallId} (h : CallOk calls s d) (hpc : t.pc d = s.pc d)
    (hclient : t.client d = s.client d) (htotal : ∀ key, s.totalZkClients key = some d → t.totalZkClients key = some d)
    (hbusy : Busy calls s d = true → t.nextHandle = s.nextHandle ∧ ∀ v, Fresh s v → Fresh t v) :
    CallOk calls t d := by
  -- frame rule: what holds of a call survives the steps of the others, as long as they leave the counter
  -- alone while it is busy
  have hhandle : handleOf t d = handleOf s d := by simp only [handleOf, hclient]
  unfold CallOk at h ⊢
  unfold Busy at hbusy
  rw [hpc]
  cases hp : s.pc d with
  | start => rw [hp] at h; rw [hclient]; exact h
  | incremented =>
    rw [hp] at h hbusy
    obtain ⟨hn, hf⟩ := hbusy rfl
    rw [hclient, hn]; exact ⟨h.1, hf _ h.2⟩
  | wrapped =>
    rw [hp] at h hbusy
    obtain ⟨hn, hf⟩ := hbusy rfl
    rw [hclient, hn]; exact ⟨h.1, h.2.1, hf _ h.2.2⟩
  | numbered =>
    rw [hp] at h hbusy
    obtain ⟨hn, hf⟩ := hbusy rfl
    rw [hclient, hn]; exact ⟨h.1, hf _ h.2⟩
  | constructed => rw [hp] at h hbusy; rw [hclient, (hbusy rfl).1]; exact h
  | keyed key =>
    rw [hp] at h hbusy
    exact ⟨hclient.trans h.1, fun hi => (hbusy hi).1.trans (h.2 hi)⟩
  | inserted =>
    rw [hp] at h hbusy
    obtain ⟨k, hc, hk, hn⟩ := h
    exact ⟨k, hclient.trans hc, htotal k hk, fun hi => (hbusy hi).1.trans (hn hi)⟩
  | initialising =>
    rw [hp] at h hbusy
    obtain ⟨k, hc, hk, hn⟩ := h
    exact ⟨k, hclient.trans hc, htotal k hk, fun hi => (hbusy hi).1.trans (hn hi)⟩
  | initialised ok =>
    rw [hp] at h hbusy
    obtain ⟨rfl, k, hc, hk, hn⟩ := h
    exact ⟨rfl, k, hhandle.trans hc, htotal k hk, fun hi => ⟨hclient.trans (hn hi).1, (hbusy hi).1.trans (hn hi).2⟩⟩
  | returned r =>
    rw [hp] at h
    obtain ⟨k, hc, hk, hn⟩ := h
    exact ⟨k, hhandle.trans hc, htotal k hk, fun hr => ⟨(hn hr).1, hclient.trans (hn hr).2⟩⟩

theorem inv_initial : Inv calls St.initial where
  callOk _ := rfl
  busy_eq _ _ h := by cases h
  distinct _ _ _ _ h := by cases h
  keyed _ _ h := by cases h
  started _ h := absurd rfl h
  session _ _ h := by cases h

theorem inv_moved {s t : St} {c : CallId} (hi : Inv calls s) (hok : CallOk calls t c)
    (hpc : ∀ d, d ≠ c → t.pc d = s.pc d) (hclient : ∀ d, d ≠ c → t.client d = s.client d)
    (hhandle : handleOf t c = handleOf s c) (htotal : t.totalZkClients = s.totalZkClients)
    (hnext : t.nextHandle = s.nextHandle) (hbusy : Busy calls t c = true → Busy calls s c = true)
    (hstarted : ∀ d, t.pc d ≠ .start → d ∈ t.started) (hsession : t.sessionState = s.sessionState) : Inv calls t := by
  have hh : ∀ d, handleOf t d = handleOf s d := by
    intro d
    by_cases hd : d = c
    · rw [hd]; exact hhandle
    · simp only [handleOf, hclient d hd]
  have hb := busy_of_moved calls hpc hbusy
  refine ⟨fun d => ?_, fun a b ha hb' => hi.busy_eq a b (hb a ha) (hb b hb'), fun a b h hab ha => ?_, fun key d h => ?_,
    hstarted, fun d ok h => hi.session d ok (by rwa [hsession] at h)⟩
  · by_cases hd : d = c
    · rw [hd]; exact hok
    · exact callOk_frame calls (hi.callOk d) (hpc d hd) (hclient d hd) (fun key h => by rw [htotal]; exact h)
        fun _ => ⟨hnext, fun v hv d => by rw [hh]; exact hv d⟩
  · rw [hh] at ha ⊢; exact hi.distinct a b h hab ha
  · rw [hh]; rw [htotal] at h; exact hi.keyed key d h

theorem started_goto {s t : St} {c : CallId} (hi : Inv calls s) (hc : c ∈ t.started)
    (hs : ∀ d ∈ s.started, d ∈ t.started) (hpc : ∀ d, d ≠ c → t.pc d = s.pc d) (d : CallId) (h : t.pc d ≠ .start) :
    d ∈ t.started := by
  by_cases hd : d = c
  · rw [hd]; exact hc
  · rw [hpc d hd] at h; exact hs d (hi.started d h)

theorem not_busy_of_start {s : St} {c d : CallId} (hi : Inv calls s) (hg : StartsAlone calls s (.call c))
    (hp : s.pc c = .start) : Busy calls s d = false := by
  by_cases hd : s.pc d = .start
  · simp [Busy, hd]
  · exact (hg hp).1 d (hi.started d hd)

theorem busy_eq_of_moved {s t : St} {c : CallId} (hi : Inv calls s) (hpc : ∀ d, d ≠ c → t.pc d = s.pc d)
    (hc : Busy calls t c = true → Busy calls s c = true) (a b : CallId) (ha : Busy calls t a = true)
    (hb : Busy calls t b = true) : a = b := by
  have hold := busy_of_moved calls hpc hc
  exact hi.busy_eq a b (hold a ha) (hold b hb)

theorem callOk_of_busy {s t : St} {c d : CallId} (hi : Inv calls s) (hbusy : Busy calls s c = true) (hd : d ≠ c)
    (hpc : t.pc d = s.pc d) (hclient : t.client d = s.client d) (htotal : t.totalZkClients = s.totalZkClients) :
    CallOk calls t d :=
  -- while one call is busy no other is, so it may do to the counter what it likes
  callOk_frame calls (hi.callOk d) hpc hclient (fun key h => by rw [htotal]; exact h)
    fun h => absurd (hi.busy_eq d c h hbusy) hd

theorem inv_start {s : St} {c : CallId} (hi : Inv calls s) (hg : StartsAlone calls s (.call c)) (hp : s.pc c = .start) :
    Inv calls ({ s with nextHandle := s.nextHandle + 1, started := c :: s.started }.goto c .incremented) := by
  have hquiet : ∀ d, Busy calls s d = false := fun d => not_busy_of_start calls hi hg hp
  have hpc : ∀ d, d ≠ c → ({ s with nextHandle := s.nextHandle + 1, started := c :: s.started }.goto c .incremented).pc d
      = s.pc d := fun d hd => goto_pc_other _ hd
  refine ⟨fun d => ?_, fun a b ha hb => ?_, hi.distinct, hi.keyed, ?_, hi.session⟩
  · by_cases hd : d = c
    · subst hd
      have hnone : s.client d = none := by have := hi.callOk d; simpa only [CallOk, hp] using this
      have hfresh : Fresh s (skipZero (s.nextHandle + 1)) := by
        intro e
        by_cases he : s.pc e = .start
        · have := hi.callOk e
          simp only [CallOk, he] at this
          simp [handleOf, this]
        · exact (hg hp).2 e (hi.started e he)
      simp only [CallOk, goto_pc_self]
      exact ⟨hnone, hfresh⟩
    · exact callOk_frame calls (hi.callOk d) (hpc d hd) rfl (fun _ h => h) fun h => by rw [hquiet] at h; cases h
  · -- only the call that has just started is busy
    have hone : ∀ d, Busy calls ({ s with nextHandle := s.nextHandle + 1, started := c :: s.started }.goto c
        .incremented) d = true → d = c := by
      intro d h
      refine Classical.byContradiction fun hd => ?_
      rw [busy_congr calls (hpc d hd), hquiet] at h; cases h
    rw [hone a ha, hone b hb]
  · exact started_goto calls hi (List.mem_cons_self ..) (fun d h => List.mem_cons_of_mem _ h) hpc

theorem inv_wrapped {s : St} {c : CallId} (hi : Inv calls s) (hp : s.pc c = .wrapped) :
    Inv calls ({ s with nextHandle := s.nextHandle + 1 }.goto c .numbered) := by
  have hpc : ∀ d, d ≠ c → ({ s with nextHandle := s.nextHandle + 1 }.goto c .numbered).pc d = s.pc d :=
    fun d hd => goto_pc_other _ hd
  have hin := hi.started c (by rw [hp]; nofun)
  have hbusy : Busy calls s c = true := by simp [Busy, hp]
  have hc := hi.callOk c
  simp only [CallOk, hp] at hc
  obtain ⟨hnone, h0, hfresh⟩ := hc
  refine ⟨fun d => ?_, busy_eq_of_moved calls hi hpc fun _ => hbusy, hi.distinct, hi.keyed,
    started_goto calls hi hin (fun _ h => h) hpc, hi.session⟩
  by_cases hd : d = c
  · subst hd
    simpa [CallOk, h0] using ⟨hnone, hfresh⟩
  · exact callOk_of_busy calls hi hbusy hd (hpc d hd) rfl rfl

theorem inv_numbered {s : St} {c : CallId} (hi : Inv calls s) (hp : s.pc c = .numbered) :
    Inv calls ((s.setClient c (some { handle := s.nextHandle })).goto c .constructed) := by
  have hpc : ∀ d, d ≠ c → ((s.setClient c (some { handle := s.nextHandle })).goto c .constructed).pc d = s.pc d :=
    fun d hd => goto_pc_other _ hd
  have hin := hi.started c (by rw [hp]; nofun)
  have hbusy : Busy calls s c = true := by simp [Busy, hp]
  have hc := hi.callOk c
  simp only [CallOk, hp] at hc
  obtain ⟨hnone, hfresh⟩ := hc
  have hclient : ∀ d, d ≠ c → (s.setClient c (some { handle := s.nextHandle })).client d = s.client d :=
    fun d hd => setClient_other _ hd
  have hself : handleOf ((s.setClient c (some { handle := s.nextHandle })).goto c .constructed) c =
      some s.nextHandle := by simp [handleOf]
  have hhandle : ∀ d, d ≠ c → handleOf ((s.setClient c (some { handle := s.nextHandle })).goto c .constructed) d =
      handleOf s d := fun d hd => by simp [handleOf, hclient d hd]
  refine ⟨fun d => ?_, busy_eq_of_moved calls hi hpc fun _ => hbusy, fun a b k hab ha => ?_, fun key d h => ?_,
    started_goto calls hi hin (fun _ h => h) hpc, hi.session⟩
  · by_cases hd : d = c
    · subst hd; simp [CallOk]
    · exact callOk_of_busy calls hi hbusy hd (hpc d hd) (hclient d hd) rfl
  · -- the new handle is fresh, so it differs from every old one
    by_cases hac : a = c
    · subst hac
      rw [hself] at ha
      rw [hhandle b (Ne.symm hab), ← ha]
      exact hfresh b
    · rw [hhandle a hac] at ha
      by_cases hbc : b = c
      · subst hbc
        rw [hself, ← ha]
        exact Ne.symm (hfresh a)
      · rw [hhandle b hbc]; exact hi.distinct a b k hab ha
  · have hk := hi.keyed key d h
    by_cases hd : d = c
    · subst hd; simp [handleOf, hnone] at hk
    · rw [hhandle d hd]; exact hk

theorem inv_keyed {s : St} {c : CallId} {key : UInt32} (hi : Inv calls s) (hp : s.pc c = .keyed key) :
    Inv calls
      ({ s with totalZkClients := Function.update s.totalZkClients key (some c) }.goto c .inserted) := by
  have hpc : ∀ d, d ≠ c → ({ s with totalZkClients := Function.update s.totalZkClients key (some c) }.goto c
      .inserted).pc d = s.pc d := fun d hd => goto_pc_other _ hd
  have hin := hi.started c (by rw [hp]; nofun)
  have hc := hi.callOk c
  simp only [CallOk, hp] at hc
  obtain ⟨hclient, hnext⟩ := hc
  have hkey : handleOf s c = some key := by simp [handleOf, hclient]
  refine ⟨fun d => ?_, busy_eq_of_moved calls hi hpc fun h => by simpa [Busy, hp] using h, hi.distinct,
    fun key' d h => ?_, started_goto calls hi hin (fun _ h => h) hpc, hi.session⟩
  · by_cases hd : d = c
    · subst hd
      simp only [CallOk, goto_pc_self]
      exact ⟨key, hclient, by simp, hnext⟩
    · refine callOk_frame calls (hi.callOk d) (hpc d hd) rfl (fun key' h => ?_) fun _ => ⟨rfl, fun _ h => h⟩
      -- another client's key is its handle, which is not this one
      have hne : key' ≠ key := by
        intro e; subst e
        exact hi.distinct d c key' hd (hi.keyed key' d h) hkey
      simpa [hne] using h
  · by_cases hk : key' = key
    · subst hk
      simp only [goto_total, Function.update_self, Option.some.injEq] at h
      rw [← h]; exact hkey
    · simp only [goto_total, Function.update_of_ne hk] at h
      exact hi.keyed key' d h

theorem inv_call {s t : St} {c : CallId} (hi : Inv calls s) (hg : StartsAlone calls s (.call c))
    (h : createZkClient calls s c = some t) : Inv calls t := by
  have hc := hi.callOk c
  have hother : ∀ pc d, d ≠ c → (s.goto c pc).pc d = s.pc d := fun pc d hd => goto_pc_other pc hd
  have hsame : ∀ d, d ≠ c → s.client d = s.client d := fun _ _ => rfl
  unfold createZkClient at h
  cases hp : s.pc c with
  -- the steps that touch the counter are lemmas of their own, the others move the pc
  | start => rw [hp] at h; cases h; exact inv_start calls hi hg hp
  | incremented =>
    rw [hp] at h; cases h
    have hin := hi.started c (by rw [hp]; nofun)
    simp only [CallOk, hp] at hc
    refine inv_moved calls hi ?_ (hother _) hsame rfl rfl rfl (fun _ => by simp [Busy, hp])
      (started_goto calls hi hin (fun _ h => h) (hother _)) rfl
    by_cases h0 : s.nextHandle = 0
    · simpa [CallOk, h0, skipZero] using hc
    · simpa [CallOk, h0, skipZero] using hc
  | wrapped => rw [hp] at h; cases h; exact inv_wrapped calls hi hp
  | numbered => rw [hp] at h; cases h; exact inv_numbered calls hi hp
  | constructed =>
    rw [hp] at h; cases h
    have hin := hi.started c (by rw [hp]; nofun)
    simp only [CallOk, hp] at hc
    exact inv_moved calls hi (by simpa [CallOk] using hc) (hother _) hsame rfl rfl rfl (fun _ => by simp [Busy, hp])
      (started_goto calls hi hin (fun _ h => h) (hother _)) rfl
  | keyed key => rw [hp] at h; cases h; exact inv_keyed calls hi hp
  | inserted =>
    rw [hp] at h; cases h
    have hin := hi.started c (by rw [hp]; nofun)
    simp only [CallOk, hp] at hc
    obtain ⟨k, hclient, hkey, hnext⟩ := hc
    refine inv_moved calls hi ?_ (hother _) (fun d hd => setClient_other _ hd) ?_ rfl rfl
      (fun h => by simpa [Busy, hp] using h) (started_goto calls hi hin (fun _ h => h) (hother _)) rfl
    · simp only [CallOk, goto_pc_self, goto_client, setClient_self, hclient]
      exact ⟨k, rfl, hkey, hnext⟩
    · simp [handleOf, hclient, ZkClient.configure]
  | initialising =>
    rw [hp] at h
    obtain ⟨ok, hok, rfl⟩ := Option.map_eq_some_iff.mp h
    obtain rfl := hi.session c ok hok
    have hin := hi.started c (by rw [hp]; nofun)
    simp only [CallOk, hp] at hc
    obtain ⟨k, hclient, hkey, hnext⟩ := hc
    refine inv_moved calls hi ?_ (hother _) (fun d hd => setClient_other _ hd) ?_ rfl rfl
      (fun h => by simpa [Busy, hp] using h) (started_goto calls hi hin (fun _ h => h) (hother _)) rfl
    · simp only [CallOk, goto_pc_self, goto_client, setClient_self, hclient, handleOf]
      refine ⟨trivial, k, rfl, hkey, fun hok => ⟨?_, hnext hok⟩⟩
      simp [created, ZkClient.configure, hok]
    · simp [handleOf, hclient, ZkClient.configure]
  | initialised ok =>
    rw [hp] at h; cases h
    have hin := hi.started c (by rw [hp]; nofun)
    simp only [CallOk, hp] at hc
    obtain ⟨hok, k, hhandle, hkey, hnext⟩ := hc
    refine inv_moved calls hi ?_ (hother _) hsame rfl rfl rfl (fun h => by simp [Busy] at h)
      (started_goto calls hi hin (fun _ h => h) (hother _)) rfl
    simp only [CallOk, goto_pc_self]
    refine ⟨k, hhandle, hkey, fun hr => ?_⟩
    cases ok with
    | false => exact absurd rfl hr
    | true => exact ⟨(hnext rfl).2, (hnext rfl).1⟩
  | returned r => rw [hp] at h; cases h

theorem inv_refuse {s t : St} {c : CallId} (hi : Inv calls s) (h : step calls s (.refuse c) = some t) : Inv calls t := by
  simp only [step] at h
  split at h <;> cases h
  rename_i hrefused
  obtain ⟨hp, hfail⟩ := hrefused
  have hin := hi.started c (by rw [hp]; nofun)
  have hc := hi.callOk c
  simp only [CallOk, hp] at hc
  obtain ⟨k, hclient, hkey, -⟩ := hc
  refine inv_moved calls hi ?_ (fun d hd => goto_pc_other _ hd) (fun d hd => setClient_other _ hd) ?_ rfl rfl
    (fun h => by simp [Busy, hfail] at h) (started_goto calls hi hin (fun _ h => h) fun d hd => goto_pc_other _ hd) rfl
  · simp only [CallOk, goto_pc_self, goto_client, setClient_self, hclient, handleOf]
    exact ⟨hfail.symm, k, rfl, hkey, nofun⟩
  · simp [handleOf, hclient, ZkClient.configure]

theorem inv_sessionWatcher {s : St} {c : CallId} {settled : Bool} (hi : Inv calls s) :
    Inv calls (sessionWatcher calls s c settled) := by
  unfold sessionWatcher
  split
  · exact ⟨hi.callOk, hi.busy_eq, hi.distinct, hi.keyed, hi.started, hi.session⟩
  · rename_i d hfound
    obtain ⟨h, hhandle, hkey⟩ := Option.bind_eq_some_iff.mp hfound
    have hsame : d = c := Classical.byContradiction fun hd => hi.distinct d c h hd (hi.keyed h d hkey) hhandle
    subst hsame
    refine ⟨hi.callOk, hi.busy_eq, hi.distinct, hi.keyed, hi.started, fun e ok hstate => ?_⟩
    by_cases he : e = d
    · subst he
      cases settled <;> simp at hstate
      exact hstate.symm
    · exact hi.session e ok (by simpa [he] using hstate)

theorem inv_step {s t : St} {a : Act} (hi : Inv calls s) (hg : StartsAlone calls s a) (h : step calls s a = some t) :
    Inv calls t := by
  cases a with
  | call c => exact inv_call calls hi hg h
  | refuse c => exact inv_refuse calls hi h
  | sessionWatcher c settled =>
    simp only [step] at h
    split at h <;> cases h
    exact inv_sessionWatcher calls hi

theorem threadSafe_of_inv {s : St} (hi : Inv calls s) : ThreadSafe calls s where
  distinct := hi.distinct
  kept c hp := by
    have hc := hi.callOk c
    cases hpc : s.pc c <;> rw [hpc] at hp <;> simp only [CallOk, hpc] at hc <;> try cases hp
    · obtain ⟨k, -, hk, -⟩ := hc; exact ⟨k, hk⟩
    · obtain ⟨k, -, hk, -⟩ := hc; exact ⟨k, hk⟩
    · obtain ⟨-, k, -, hk, -⟩ := hc; exact ⟨k, hk⟩
    · obtain ⟨k, -, hk, -⟩ := hc; exact ⟨k, hk⟩
  own c h hp h0 := by
    have hc := hi.callOk c
    simp only [CallOk, hp] at hc
    obtain ⟨k, -, hk, hr⟩ := hc
    obtain ⟨rfl, hclient⟩ := hr h0
    simp [getZkClient, hk, hclient, created]

/-- **Concurrent `createZkClient`.** Calls that start alone are safe, however
they interleave otherwise. -/
theorem createZkClient_threadSafe (sched : List Act) {s : St} (hrun : Lts.run (step calls) St.initial sched = some s)
    (hg : Lts.Along (step calls) (StartsAlone calls) St.initial sched) : ThreadSafe calls s :=
  threadSafe_of_inv calls (Lts.inv_of_along (fun _ _ _ hi hg h => inv_step calls hi hg h) (inv_initial calls) hg hrun)

end

/-! ## Two calls -/

/-- Call 0 asks for host `a`, every other call for host `b`; every `init` succeeds. -/
def twoCalls (c : CallId) : CreateCall where
  host := if c = 0 then "a" else "b"
  timeout := 30000
  expiredHandler := none
  context := c
  initResult := true

def opening (c : CallId) : List Act := List.replicate 6 (.call c)

def ending (c : CallId) : List Act := [.call c, .call c]

theorem createZkClient_threadSafe_sequential :
    ∃ s, Lts.run (step twoCalls) St.initial (opening 0 ++ .sessionWatcher 0 true :: ending 0 ++ opening 1 ++
        .sessionWatcher 1 true :: ending 1) = some s ∧ ThreadSafe twoCalls s :=
  ⟨_, rfl, createZkClient_threadSafe twoCalls (opening 0 ++ .sessionWatcher 0 true :: ending 0 ++ opening 1 ++
    .sessionWatcher 1 true :: ending 1) rfl (by decide)⟩

/-- Call 0 is in `init` when call 1 increments the counter, and returns call 1's number. -/
theorem createZkClient_not_threadSafe :
    ∃ s, Lts.run (step twoCalls) St.initial (opening 0 ++ opening 1 ++ .sessionWatcher 0 true :: ending 0 ++
        .sessionWatcher 1 true :: ending 1) = some s ∧
      s.pc 0 = .returned 3 ∧ getZkClient s 3 = some (created twoCalls 1 3) ∧ ¬ ThreadSafe twoCalls s :=
  ⟨_, rfl, rfl, rfl, fun h => absurd (h.own 0 3 rfl (by decide)) (by decide)⟩

end ZkCppClient.Registry

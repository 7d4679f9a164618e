import Mathlib.Algebra.Group.Nat.Defs
import ZkCppClient.Registry.Create

/-!
# The handles of a sequence of calls

`createZkClient` and `destroyClient` one after the other, any number of times.
The counter skips 0 when it wraps, so the handles repeat with period 2^32 - 1,
and nothing looks whether the next one is still in `totalZkClients_`.
-/

namespace ZkCppClient.Registry

/-- `totalZkClients` maps a handle to the place of its object among all that were made. -/
structure Manager where
  nextHandle : UInt32
  totalZkClients : UInt32 → Option Nat
  clients : List ZkClient
  keyed : ∀ h c, totalZkClients h = some c → (clients[c]?).map (·.handle) = some h

def Manager.initial : Manager where
  nextHandle := 1
  totalZkClients _ := none
  clients := []
  keyed _ _ h := by cases h

def advance (nextHandle : UInt32) : UInt32 :=
  let nextHandle := nextHandle + 1
  if nextHandle = 0 then nextHandle + 1 else nextHandle

def newClient (handle : UInt32) (call : CreateCall) : ZkClient :=
  { ZkClient.configure { handle } call with isInitialized := call.initResult }

theorem keyed_update {total : UInt32 → Option Nat} {clients : List ZkClient} (client : ZkClient)
    (hkeyed : ∀ h c, total h = some c → (clients[c]?).map (·.handle) = some h) (h : UInt32) (c : Nat)
    (hc : Function.update total client.handle (some clients.length) h = some c) :
    ((clients ++ [client])[c]?).map (·.handle) = some h := by
  by_cases hh : h = client.handle
  · subst hh
    rw [Function.update_self] at hc
    cases hc
    simp
  · rw [Function.update_of_ne hh] at hc
    have hold := hkeyed h c hc
    obtain ⟨old, hget, -⟩ := Option.map_eq_some_iff.mp hold
    have hlt : c < clients.length := (List.getElem?_eq_some_iff.mp hget).1
    rwa [List.getElem?_append_left hlt]

def Manager.createZkClient (m : Manager) (call : CreateCall) : UInt32 × Manager :=
  (if call.initResult then advance m.nextHandle else 0,
    { nextHandle := advance m.nextHandle
      totalZkClients := Function.update m.totalZkClients (advance m.nextHandle) (some m.clients.length)
      clients := m.clients ++ [newClient (advance m.nextHandle) call]
      keyed := fun h c hc => keyed_update (newClient (advance m.nextHandle) call) m.keyed h c hc })

def Manager.destroyClient (m : Manager) (handle : UInt32) : Manager :=
  { m with
    totalZkClients := Function.update m.totalZkClients handle none
    keyed := fun h c hc => by
      by_cases hh : h = handle
      · rw [hh, Function.update_self] at hc
        cases hc
      · rw [Function.update_of_ne hh] at hc
        exact m.keyed h c hc }

def Manager.isInit (m : Manager) (c : Nat) : Bool := (m.clients[c]?).any (·.isInitialized)

def Manager.getZkClient (m : Manager) (handle : UInt32) : Option Nat := (m.totalZkClients handle).filter m.isInit

inductive Call
  | createZkClient (call : CreateCall)
  | destroyClient (handle : UInt32)

def Manager.step (m : Manager) : Call → Option Manager
  | .createZkClient call => some (m.createZkClient call).2
  | .destroyClient handle => some (m.destroyClient handle)

/-! ## What the calls promise -/

inductive Event
  | created (handle : UInt32) (c : Nat)  -- returned with this handle
  | destroyed (handle : UInt32)

def record (w : List Event) (m : Manager) : Call → List Event
  | .createZkClient call =>
    if (m.createZkClient call).1 = 0 then w else .created (m.createZkClient call).1 m.clients.length :: w
  | .destroyClient handle => .destroyed handle :: w

/-- A successful creation of `c` returned `handle`, which has not been destroyed
since; the newest event comes first. -/
def Denotes : List Event → UInt32 → Nat → Prop
  | [], _, _ => False
  | .created handle' c' :: w, handle, c => (handle' = handle ∧ c' = c) ∨ Denotes w handle c
  | .destroyed handle' :: w, handle, c => handle' ≠ handle ∧ Denotes w handle c

/-- The handle that a creation assigns is not 0 and denotes no client yet. -/
def AssignsFresh (m : Manager) : Call → Prop
  | .createZkClient _ => advance m.nextHandle ≠ 0 ∧ m.totalZkClients (advance m.nextHandle) = none
  | .destroyClient _ => True

structure HandlesFresh (calls : List Call) : Prop where
  fresh : Lts.Along Manager.step AssignsFresh .initial calls
  denotes : Lts.Throughout (Lts.withHistory Manager.step record)
    (fun x => ∀ handle c, x.1.getZkClient handle = some c ↔ Denotes x.2 handle c) (.initial, []) calls

/-- The condition: no client that is still registered was made a multiple of
the period earlier. -/
def NoneComesRound (m : Manager) : Call → Prop
  | .createZkClient _ => ∀ handle c, m.totalZkClients handle = some c → ¬ 2 ^ 32 - 1 ∣ m.clients.length - c
  | .destroyClient _ => True

/-! ## The counter -/

structure Counted (m : Manager) : Prop where
  next : m.nextHandle.toNat = m.clients.length % (2 ^ 32 - 1) + 1
  handles : ∀ c client, m.clients[c]? = some client → client.handle.toNat = (c + 1) % (2 ^ 32 - 1) + 1

theorem advance_toNat {n : UInt32} {k : Nat} (h : n.toNat = k % (2 ^ 32 - 1) + 1) :
    (advance n).toNat = (k + 1) % (2 ^ 32 - 1) + 1 := by
  have hsum : (n + 1).toNat = (n.toNat + 1) % 2 ^ 32 := UInt32.toNat_add n 1
  by_cases hwrap : n + 1 = 0
  · have hzero : (n + 1).toNat = 0 := by rw [hwrap]; rfl
    have hone : (advance n).toNat = 1 := by simp [advance, hwrap]
    omega
  · have hne : (n + 1).toNat ≠ 0 := fun h0 => hwrap (UInt32.toNat_inj.mp h0)
    have hadv : advance n = n + 1 := by simp [advance, hwrap]
    rw [hadv]
    omega

theorem counted_initial : Counted .initial := ⟨rfl, fun c client h => by simp [Manager.initial] at h⟩

theorem counted_step {m t : Manager} {a : Call} (hm : Counted m) (h : m.step a = some t) : Counted t := by
  cases a with
  | createZkClient call =>
    cases h
    refine ⟨?_, fun c client hc => ?_⟩
    · simpa [Manager.createZkClient] using advance_toNat hm.next
    · simp only [Manager.createZkClient] at hc
      rcases Nat.lt_trichotomy c m.clients.length with hlt | heq | hgt
      · rw [List.getElem?_append_left hlt] at hc
        exact hm.handles c client hc
      · subst heq
        rw [List.getElem?_concat_length] at hc
        cases hc
        exact advance_toNat hm.next
      · rw [List.getElem?_eq_none (by simp; omega)] at hc
        cases hc
  | destroyClient handle =>
    cases h
    exact ⟨hm.next, hm.handles⟩

section
variable {m : Manager} {handle : UInt32} {c : Nat}

theorem Counted.registered (hm : Counted m) (h : m.totalZkClients handle = some c) :
    c < m.clients.length ∧ handle.toNat = (c + 1) % (2 ^ 32 - 1) + 1 := by
  obtain ⟨client, hget, rfl⟩ := Option.map_eq_some_iff.mp (m.keyed handle c h)
  exact ⟨(List.getElem?_eq_some_iff.mp hget).1, hm.handles c client hget⟩

theorem Counted.advance_ne_zero (hm : Counted m) : advance m.nextHandle ≠ 0 := by
  intro h0
  have hadv := advance_toNat hm.next
  rw [h0] at hadv
  exact absurd hadv (by simp)

theorem Counted.assignsFresh_iff (hm : Counted m) (a : Call) : AssignsFresh m a ↔ NoneComesRound m a := by
  cases a with
  | destroyClient handle => exact Iff.rfl
  | createZkClient call =>
    have hadv := advance_toNat hm.next
    constructor
    · rintro ⟨-, hnone⟩ handle c hc hdvd
      obtain ⟨hlt, hnum⟩ := hm.registered hc
      have heq : handle = advance m.nextHandle := by
        apply UInt32.toNat_inj.mp
        obtain ⟨q, hq⟩ := hdvd
        have hlen : m.clients.length + 1 = c + 1 + (2 ^ 32 - 1) * q := by omega
        rw [hadv, hnum, hlen, Nat.add_mul_mod_self_left]
      rw [heq, hnone] at hc
      cases hc
    · intro hround
      refine ⟨hm.advance_ne_zero, ?_⟩
      cases hc : m.totalZkClients (advance m.nextHandle) with
      | none => rfl
      | some c =>
        obtain ⟨hlt, hnum⟩ := hm.registered hc
        refine absurd ?_ (hround _ c hc)
        have hmod : (m.clients.length + 1) % (2 ^ 32 - 1) = (c + 1) % (2 ^ 32 - 1) := by omega
        omega

end

/-! ## The map -/

section
variable {m t : Manager} {w : List Event}

theorem isInit_createZkClient (call : CreateCall) {c : Nat} (h : c < m.clients.length) :
    (m.createZkClient call).2.isInit c = m.isInit c := by
  simp [Manager.isInit, Manager.createZkClient, List.getElem?_append_left h]

theorem getZkClient_createZkClient (call : CreateCall) (handle : UInt32) :
    (m.createZkClient call).2.getZkClient handle = if handle = advance m.nextHandle then
      (if call.initResult then some m.clients.length else none) else m.getZkClient handle := by
  unfold Manager.getZkClient
  by_cases hh : handle = advance m.nextHandle
  · subst hh
    simp [Manager.createZkClient, Manager.isInit, newClient, Option.filter]
  · have htotal : (m.createZkClient call).2.totalZkClients handle = m.totalZkClients handle := Function.update_of_ne hh _ _
    rw [htotal, if_neg hh]
    cases hc : m.totalZkClients handle with
    | none => rfl
    | some c =>
      obtain ⟨client, hget, -⟩ := Option.map_eq_some_iff.mp (m.keyed handle c hc)
      have hlt : c < m.clients.length := (List.getElem?_eq_some_iff.mp hget).1
      simp only [Option.filter, isInit_createZkClient call hlt]

theorem getZkClient_destroyClient (handle' handle : UInt32) :
    (m.destroyClient handle').getZkClient handle = if handle = handle' then none else m.getZkClient handle := by
  unfold Manager.getZkClient
  by_cases hh : handle = handle'
  · subst hh
    simp [Manager.destroyClient]
  · have htotal : (m.destroyClient handle').totalZkClients handle = m.totalZkClients handle := Function.update_of_ne hh _ _
    rw [htotal, if_neg hh]
    rfl

def Agrees (x : Manager × List Event) : Prop :=
  Counted x.1 ∧ ∀ handle c, x.1.getZkClient handle = some c ↔ Denotes x.2 handle c

theorem agrees_create (call : CreateCall) (hx : Agrees (m, w)) (hfresh : AssignsFresh m (.createZkClient call)) :
    Agrees ((m.createZkClient call).2, record w m (.createZkClient call)) := by
  obtain ⟨hcounted, hdenotes⟩ := hx
  have hnone : ∀ c, ¬ Denotes w (advance m.nextHandle) c := by
    intro c hc
    have hget := (hdenotes _ c).mpr hc
    simp only [Manager.getZkClient, hfresh.2, Option.filter_none] at hget
    cases hget
  refine ⟨counted_step hcounted (a := .createZkClient call) rfl, fun handle c => ?_⟩
  dsimp only
  rw [getZkClient_createZkClient]
  cases hok : call.initResult with
  | false =>
    -- a call that fails returns 0, and its entry stays under a handle that nobody was given
    have hsame : record w m (.createZkClient call) = w := by simp [record, Manager.createZkClient, hok]
    rw [hsame]
    by_cases hh : handle = advance m.nextHandle
    · subst hh
      simpa using hnone c
    · rw [if_neg hh]
      exact hdenotes handle c
  | true =>
    have hmore : record w m (.createZkClient call) = .created (advance m.nextHandle) m.clients.length :: w := by
      simp [record, Manager.createZkClient, hok, hfresh.1]
    rw [hmore]
    by_cases hh : handle = advance m.nextHandle
    · subst hh
      simp [Denotes, hnone c]
    · rw [if_neg hh, hdenotes handle c]
      simp [Denotes, Ne.symm hh]

theorem agrees_destroy (handle' : UInt32) (hx : Agrees (m, w)) :
    Agrees (m.destroyClient handle', record w m (.destroyClient handle')) := by
  refine ⟨counted_step hx.1 (a := .destroyClient handle') rfl, fun handle c => ?_⟩
  dsimp only
  rw [getZkClient_destroyClient]
  by_cases hh : handle = handle'
  · subst hh
    simp [record, Denotes]
  · rw [if_neg hh, hx.2 handle c]
    simp [record, Denotes, Ne.symm hh]

theorem agrees_step {x y : Manager × List Event} {a : Call} (hx : Agrees x) (hround : NoneComesRound x.1 a)
    (h : Lts.withHistory Manager.step record x a = some y) : Agrees y := by
  obtain ⟨m, w⟩ := x
  obtain ⟨u, w'⟩ := y
  obtain ⟨hstep, hw⟩ := Lts.withHistory_some h
  dsimp only at hstep hw hround
  rw [hw]
  cases a with
  | createZkClient call =>
    cases hstep
    exact agrees_create call hx ((hx.1.assignsFresh_iff _).mpr hround)
  | destroyClient handle =>
    cases hstep
    exact agrees_destroy handle hx

end

/-- **Handles.** For every sequence of calls, handles are fresh and denote the
clients they were returned for just when no registered client's handle comes
round. -/
theorem handlesFresh_iff (calls : List Call) :
    HandlesFresh calls ↔ Lts.Along Manager.step NoneComesRound .initial calls := by
  have hkeep : ∀ m a t, Counted m → True → m.step a = some t → Counted t := fun _ _ _ hm _ h => counted_step hm h
  constructor
  · intro h
    exact Lts.along_of_along (fun m a t hm _ h => hkeep m a t hm trivial h)
      (fun m a hm hfresh => (hm.assignsFresh_iff a).mp hfresh) counted_initial h.fresh
  · intro h
    refine ⟨?_, ?_⟩
    · exact Lts.along_of_along (fun m a t hm _ h => hkeep m a t hm trivial h)
        (fun m a hm hround => (hm.assignsFresh_iff a).mpr hround) counted_initial h
    · have hinit : Agrees (.initial, []) := ⟨counted_initial, fun handle c => by simp [Manager.getZkClient, Manager.initial, Denotes]⟩
      exact Lts.throughout_of_along (fun _ _ _ hx hround h => agrees_step hx hround h) (fun _ hx => hx.2) hinit
        (Lts.along_withHistory (x := (Manager.initial, [])) h)

/-! ## The calls step by step -/

/-- The concurrent calls when call `c` makes the object at place `c`. -/
structure Simulates (s : St) (m : Manager) : Prop where
  nextHandle : s.nextHandle = m.nextHandle
  totalZkClients : s.totalZkClients = m.totalZkClients
  client : ∀ c, s.client c = m.clients[c]?

def finished (calls : CallId → CreateCall) (s : St) (c : CallId) : St where
  nextHandle := s.nextHandle
  totalZkClients := Function.update s.totalZkClients s.nextHandle (some c)
  client := Function.update s.client c (some (newClient s.nextHandle (calls c)))
  sessionState := Function.update s.sessionState c (some (calls c).initResult)
  cbfunData := Function.update s.cbfunData c true
  pc := Function.update s.pc c (.returned (if (calls c).initResult then s.nextHandle else 0))
  started := s.started

def alone (c : CallId) : List Act := List.replicate 4 (.call c) ++ .sessionWatcher c true :: List.replicate 2 (.call c)

section
variable (calls : CallId → CreateCall) {s : St} {c : CallId}

theorem run_numbered (h : s.pc c = .numbered) : Lts.run (step calls) s (alone c) = some (finished calls s c) := by
  simp [Lts.run, alone, List.replicate, step, createZkClient, sessionWatcher, handleOf, h, St.goto, St.setClient, finished,
    newClient, ZkClient.configure]

theorem run_start (h : s.pc c = .start) : ∃ n t, Lts.run (step calls) s (List.replicate n (.call c)) = some t ∧
    t.pc c = .numbered ∧ t.nextHandle = advance s.nextHandle ∧ t.totalZkClients = s.totalZkClients ∧
    t.client = s.client := by
  by_cases hwrap : s.nextHandle + 1 = 0
  · refine ⟨3, { s with nextHandle := 1, started := c :: s.started, pc := Function.update s.pc c .numbered }, ?_, ?_, ?_, rfl, rfl⟩
    · simp [Lts.run, List.replicate, step, createZkClient, h, St.goto, hwrap]
    · simp
    · simp [advance, hwrap]
  · refine ⟨2, { s with
      nextHandle := s.nextHandle + 1
      started := c :: s.started
      pc := Function.update s.pc c .numbered }, ?_, ?_, ?_, rfl, rfl⟩
    · simp [Lts.run, List.replicate, step, createZkClient, h, St.goto, hwrap]
    · simp
    · simp [advance, hwrap]

end

theorem createZkClient_alone (calls : CallId → CreateCall) {s : St} {m : Manager} (hs : Simulates s m)
    (hpc : s.pc m.clients.length = .start) : ∃ n t,
      Lts.run (step calls) s (List.replicate n (.call m.clients.length) ++ alone m.clients.length) = some t ∧
      Simulates t (m.createZkClient (calls m.clients.length)).2 ∧
      t.pc m.clients.length = .returned (m.createZkClient (calls m.clients.length)).1 := by
  obtain ⟨n, u, hrun, hnumbered, hnext, htotal, hclient⟩ := run_start calls hpc
  rw [hs.nextHandle] at hnext
  rw [hs.totalZkClients] at htotal
  refine ⟨n, finished calls u m.clients.length, ?_, ⟨hnext, ?_, fun c => ?_⟩, ?_⟩
  · rw [Lts.run_append, hrun, Option.bind_some, run_numbered calls hnumbered]
  · simp [finished, Manager.createZkClient, hnext, htotal]
  · simp only [finished, Manager.createZkClient, hnext, hclient]
    rcases Nat.lt_trichotomy c m.clients.length with hlt | heq | hgt
    · rw [Function.update_of_ne (Nat.ne_of_lt hlt), hs.client, List.getElem?_append_left hlt]
    · rw [heq, Function.update_self, List.getElem?_concat_length]
    · have hmore : (m.clients ++ [newClient (advance m.nextHandle) (calls m.clients.length)]).length ≤ c := by
        rw [List.length_append, List.length_singleton]
        omega
      rw [Function.update_of_ne (Nat.ne_of_gt hgt), hs.client, List.getElem?_eq_none (Nat.le_of_lt hgt),
        List.getElem?_eq_none hmore]
  · simp [finished, Manager.createZkClient, hnext]

/-! ## The counter wraps -/

structure FirstKept (m : Manager) : Prop where
  counted : Counted m
  made : m.clients ≠ []
  kept : m.totalZkClients 2 = some 0

theorem firstKept_create {m : Manager} (hm : FirstKept m) (call : CreateCall) (hlt : m.clients.length < 2 ^ 32 - 1) :
    FirstKept (m.createZkClient call).2 := by
  refine ⟨counted_step hm.counted (a := .createZkClient call) rfl, by simp [Manager.createZkClient], ?_⟩
  have hpos : 0 < m.clients.length := List.length_pos_of_ne_nil hm.made
  have hadv := advance_toNat hm.counted.next
  have hne : (2 : UInt32) ≠ advance m.nextHandle := by
    intro heq
    rw [← heq, show (2 : UInt32).toNat = 2 from rfl] at hadv
    omega
  simp only [Manager.createZkClient, Function.update_of_ne hne]
  exact hm.kept

theorem run_creates (call : CreateCall) : ∀ (n : Nat) {m : Manager}, FirstKept m → m.clients.length + n ≤ 2 ^ 32 - 1 →
    ∃ t, Lts.run Manager.step m (List.replicate n (.createZkClient call)) = some t ∧ FirstKept t ∧
      t.clients.length = m.clients.length + n := by
  intro n
  induction n with
  | zero => exact fun {m} hm _ => ⟨m, rfl, hm, rfl⟩
  | succ n ih =>
    intro m hm hle
    have hlen : (m.createZkClient call).2.clients.length = m.clients.length + 1 := by simp [Manager.createZkClient]
    have hkept := firstKept_create hm call (by omega)
    obtain ⟨t, hrun, ht, htlen⟩ := ih hkept (by omega)
    refine ⟨t, ?_, ht, by omega⟩
    rw [List.replicate_succ, Lts.run_cons]
    exact hrun

def plainCall : CreateCall := ⟨"a", 30000, none, 0, true⟩

theorem wrapped_comesRound (n : Nat) (hn : n + 1 = 2 ^ 32 - 1) :
    ¬ HandlesFresh (List.replicate (1 + n + 1) (.createZkClient plainCall)) := by
  intro h
  have hfirst : FirstKept (Manager.initial.createZkClient plainCall).2 :=
    ⟨counted_step counted_initial (a := .createZkClient plainCall) rfl, nofun, rfl⟩
  have hone : (Manager.initial.createZkClient plainCall).2.clients.length = 1 := rfl
  obtain ⟨t, hrun, ht, hlen⟩ := run_creates plainCall n hfirst (by omega)
  have hfresh := h.fresh
  rw [List.replicate_add, List.replicate_add] at hfresh
  have hlast := (hfresh.append.2 t (by rw [Lts.run_append]; exact hrun)).1
  have hround := (ht.counted.assignsFresh_iff _).mp hlast 2 0 ht.kept
  refine hround ⟨1, ?_⟩
  omega

/-- With the first client never destroyed, the 2^32nd creation is given its handle. -/
theorem not_handlesFresh_wrapped : ¬ HandlesFresh (List.replicate (2 ^ 32) (.createZkClient plainCall)) := by
  have hsplit : 1 + (2 ^ 32 - 2) + 1 = 2 ^ 32 := by omega
  rw [← hsplit]
  exact wrapped_comesRound (2 ^ 32 - 2) (by omega)

end ZkCppClient.Registry

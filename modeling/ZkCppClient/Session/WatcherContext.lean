import Mathlib.Logic.Function.Basic
import ZkCppClient.Lib.Run

/-!
# The context of the session watcher

Every `init` and `reconnect` allocates a `ZkZooInitCbData` for the handle it
opens. It is deleted where `zookeeper_init` returns NULL, and by `sessionWatcher`
where the client is no longer registered, which the code takes to mean that the
session is over. The client can outlive its entry, and the library goes on
passing the same pointer until the handle is closed.

A context and the handle that the library is given it for have the same number.
How a wait for the session ends is left open.
-/

namespace ZkCppClient.WatcherContext

abbrev ClientId := Nat
abbrev Opening := Nat

inductive CallPc
  | idle
  | start  -- its context to be allocated
  | allocated (n : Opening)
  | calling (n : Opening) (ok : Bool)  -- in `zookeeper_init`, with this success to come
  | waiting
  deriving DecidableEq, Repr

structure ZkClient where
  handle : UInt32
  isInitialized : Bool := false
  zhandle : Option Opening := none
  call : CallPc := .start
  deriving DecidableEq, Repr

inductive WatcherPc
  | idle
  | read (handle : UInt32)  -- `data->handle_`, to be looked up
  | found (c : ClientId)
  | missing  -- its context to be deleted
  deriving DecidableEq, Repr

/-- `contexts` are the live `ZkZooInitCbData`, by their `handle_`; `library` the
open handles, with their callback. -/
structure St where
  totalZkClients : UInt32 → Option ClientId
  client : ClientId → Option ZkClient
  contexts : Opening → Option UInt32
  library : Opening → Option WatcherPc
  made : Nat
  fault : Bool

def St.initial : St where
  totalZkClients _ := none
  client _ := none
  contexts _ := none
  library _ := none
  made := 0
  fault := false

inductive Act
  | createZkClient (c : ClientId) (handle : UInt32)
  | retry (handle : UInt32)  -- that comes to `reconnect` if it finds the client
  | call (c : ClientId) (ok : Bool)
  | deliver (n : Opening)  -- a session event of this handle
  | sessionWatcher (n : Opening)
  | destroyClient (handle : UInt32)
  | destruct (c : ClientId)
  deriving DecidableEq, Repr

def St.setClient (s : St) (c : ClientId) (client : Option ZkClient) : St :=
  { s with client := Function.update s.client c client }

def St.setWatcher (s : St) (n : Opening) (pc : Option WatcherPc) : St :=
  { s with library := Function.update s.library n pc }

/-- To delete what is not there is the fault. -/
def St.delete (s : St) (n : Opening) : St :=
  { s with contexts := Function.update s.contexts n none, fault := s.fault || (s.contexts n).isNone }

def St.callStep (s : St) (c : ClientId) (client : ZkClient) (ok : Bool) : Option St :=
  match client.call with
  | .idle => none
  | .start =>
    some ({ s with
      contexts := Function.update s.contexts s.made (some client.handle)
      made := s.made + 1 }.setClient c (some { client with call := .allocated s.made }))
  | .allocated n =>
    let s := s.setClient c (some { client with call := .calling n ok })
    -- events may come before the call returns
    some (if ok then s.setWatcher n (some .idle) else s)
  | .calling n true => some (s.setClient c (some { client with zhandle := some n, call := .waiting }))
  | .calling n false => some ((s.setClient c (some { client with zhandle := none, call := .idle })).delete n)
  | .waiting =>
    some (s.setClient c (some { client with isInitialized := client.isInitialized || ok, call := .idle }))

def St.watcherStep (s : St) (n : Opening) : WatcherPc → Option St
  | .idle => none
  | .read handle =>
    some (s.setWatcher n (some (match s.totalZkClients handle with
      | some c => .found c
      | none => .missing)))
  | .found _ => some (s.setWatcher n (some .idle))
  | .missing => some ((s.setWatcher n (some .idle)).delete n)

/-- No pointer to the client is left in the registry, in its call or in a callback. -/
def St.Unreferenced (s : St) (c : ClientId) (client : ZkClient) : Prop :=
  s.totalZkClients client.handle ≠ some c ∧ client.call = .idle ∧ ∀ n < s.made, s.library n ≠ some (.found c)

instance (s : St) (c : ClientId) (client : ZkClient) : Decidable (s.Unreferenced c client) :=
  inferInstanceAs (Decidable (_ ∧ _ ∧ _))

def step (s : St) : Act → Option St
  | .createZkClient c handle =>
    if handle = 0 ∨ (s.client c).isSome then none
    else some ({ s with totalZkClients := Function.update s.totalZkClients handle (some c) }.setClient c (some { handle }))
  | .retry handle =>
    match s.totalZkClients handle with
    | none => some s
    | some c => (s.client c).bind fun client =>
      if !client.isInitialized then some s
      else if client.call = .idle then some (s.setClient c (some { client with call := .start })) else none
  | .call c ok => (s.client c).bind fun client => s.callStep c client ok
  | .deliver n =>
    if s.library n = some .idle then
      some (match s.contexts n with
        | some handle => s.setWatcher n (some (.read handle))
        | none => { s with fault := true })
    else none
  | .sessionWatcher n => (s.library n).bind (s.watcherStep n)
  | .destroyClient handle => some { s with totalZkClients := Function.update s.totalZkClients handle none }
  | .destruct c => (s.client c).bind fun client =>
    if ¬ s.Unreferenced c client then none
    else
      match client.zhandle with
      | none => some (s.setClient c none)
      | some n =>
        -- `zookeeper_close` waits for the callback
        if s.library n = some .idle then some ((s.setClient c none).setWatcher n none) else none

/-- The handles of which an event has found the client gone. -/
def record (w : List Opening) (s : St) : Act → List Opening
  | .sessionWatcher n =>
    match s.library n with
    | some (.read handle) => if s.totalZkClients handle = none then n :: w else w
    | _ => w
  | _ => w

def Silent (x : St × List Opening) : Act → Prop
  | .deliver n => n ∉ x.2
  | _ => True

instance (x : St × List Opening) : ∀ a, Decidable (Silent x a)
  | .deliver _ => inferInstanceAs (Decidable (¬ _))
  | .createZkClient _ _ | .retry _ | .call _ _ | .sessionWatcher _ | .destroyClient _ | .destruct _ => isTrue trivial

/-! ## Who may delete a context -/

def St.Holds (s : St) (c : ClientId) (n : Opening) : Prop :=
  ∃ client, s.client c = some client ∧ (client.call = .allocated n ∨ client.call = .calling n false)

def WatcherPc.Ok (pc : WatcherPc) (live gone : Prop) : Prop :=
  match pc with
  | .idle => live ↔ ¬ gone
  | .read _ | .found _ => live ∧ ¬ gone
  | .missing => live ∧ gone

structure Inv (s : St) (w : List Opening) : Prop where
  fault : s.fault = false
  fresh : ∀ n, s.made ≤ n → s.contexts n = none ∧ s.library n = none ∧ n ∉ w
  library : ∀ n pc, s.library n = some pc → pc.Ok ((s.contexts n).isSome = true) (n ∈ w)
  held : ∀ c n, s.Holds c n → (s.contexts n).isSome = true ∧ s.library n = none ∧ n ∉ w
  one : ∀ c d n, s.Holds c n → s.Holds d n → c = d

section
variable {s t : St} {w : List Opening} {c : ClientId} {n : Opening}

theorem inv_initial : Inv .initial [] where
  fault := rfl
  fresh _ _ := ⟨rfl, rfl, List.not_mem_nil⟩
  library _ _ h := by cases h
  held _ _ h := by obtain ⟨_, h, -⟩ := h; cases h
  one _ _ _ h := by obtain ⟨_, h, -⟩ := h; cases h

theorem inv_frame (hi : Inv s w) (hfault : t.fault = s.fault) (hcontexts : t.contexts = s.contexts)
    (hlibrary : t.library = s.library) (hmade : t.made = s.made) (hholds : ∀ c n, t.Holds c n → s.Holds c n) :
    Inv t w := by
  refine ⟨hfault.trans hi.fault, ?_, ?_, fun c n h => ?_, fun c d n hc hd => hi.one c d n (hholds c n hc) (hholds d n hd)⟩
  · rw [hmade, hcontexts, hlibrary]
    exact hi.fresh
  · rw [hcontexts, hlibrary]
    exact hi.library
  · rw [hcontexts, hlibrary]
    exact hi.held c n (hholds c n h)

theorem holds_setClient {client : Option ZkClient} {d : ClientId} (h : (s.setClient c client).Holds d n) :
    (d = c ∧ ∃ x, client = some x ∧ (x.call = .allocated n ∨ x.call = .calling n false)) ∨ (d ≠ c ∧ s.Holds d n) := by
  obtain ⟨x, hx, hcall⟩ := h
  by_cases hd : d = c
  · subst hd
    simp only [St.setClient, Function.update_self] at hx
    exact .inl ⟨rfl, x, hx, hcall⟩
  · simp only [St.setClient, Function.update_of_ne hd] at hx
    exact .inr ⟨hd, x, hx, hcall⟩

theorem inv_setClient (hi : Inv s w) {client : Option ZkClient}
    (h : ∀ x n, client = some x → (x.call = .allocated n ∨ x.call = .calling n false) → s.Holds c n) :
    Inv (s.setClient c client) w := by
  refine inv_frame hi rfl rfl rfl rfl fun d n hd => ?_
  rcases holds_setClient hd with ⟨rfl, x, hx, hcall⟩ | ⟨-, hold⟩
  · exact h x n hx hcall
  · exact hold

theorem inv_setOther (hi : Inv s w) {client : ZkClient}
    (h : ∀ n, client.call ≠ .allocated n ∧ client.call ≠ .calling n false) : Inv (s.setClient c (some client)) w := by
  refine inv_setClient hi fun x n hx hx' => ?_
  obtain rfl := Option.some.inj hx
  obtain hx' | hx' := hx'
  · exact absurd hx' (h n).1
  · exact absurd hx' (h n).2

theorem ne_of_library {m : Opening} {pc : WatcherPc} (hm : s.library m = none) (hn : s.library n = some pc) : m ≠ n := by
  rintro rfl
  rw [hm] at hn
  cases hn

theorem ne_of_contexts {m : Opening} (hm : s.contexts m = none) (hn : (s.contexts n).isSome = true) : m ≠ n := by
  rintro rfl
  rw [hm] at hn
  cases hn

theorem inv_setWatcher (hi : Inv s w) {old pc : WatcherPc} (hold : s.library n = some old)
    (hpc : pc.Ok ((s.contexts n).isSome = true) (n ∈ w)) : Inv (s.setWatcher n (some pc)) w := by
  have hother : ∀ m, m ≠ n → (s.setWatcher n (some pc)).library m = s.library m := fun m hm => Function.update_of_ne hm _ _
  refine ⟨hi.fault, fun m hm => ?_, fun m pc' hm => ?_, fun c m hm => ?_, hi.one⟩
  · obtain ⟨hctx, hlib, hw⟩ := hi.fresh m hm
    exact ⟨hctx, (hother m (ne_of_library hlib hold)).trans hlib, hw⟩
  · by_cases hne : m = n
    · subst hne
      simp only [St.setWatcher, Function.update_self] at hm
      cases hm
      exact hpc
    · rw [hother m hne] at hm
      exact hi.library m pc' hm
  · obtain ⟨hctx, hlib, hw⟩ := hi.held c m hm
    exact ⟨hctx, (hother m (ne_of_library hlib hold)).trans hlib, hw⟩

/-! ## The calls -/

theorem inv_alloc (hi : Inv s w) {client : ZkClient} (handle : UInt32) (hcall : client.call = .allocated s.made) :
    Inv ({ s with contexts := Function.update s.contexts s.made (some handle), made := s.made + 1 }.setClient c
      (some client)) w := by
  obtain ⟨-, hnolib, hnotgone⟩ := hi.fresh s.made (Nat.le_refl _)
  have hnew : ∀ d, ¬ s.Holds d s.made := by
    intro d hd
    have hlive := (hi.held d s.made hd).1
    rw [(hi.fresh s.made (Nat.le_refl _)).1] at hlive
    cases hlive
  have hholds : ∀ d n, St.Holds (s.setClient c (some client)) d n → (d = c ∧ n = s.made) ∨ (d ≠ c ∧ n ≠ s.made ∧ s.Holds d n) := by
    intro d n hd
    rcases holds_setClient hd with ⟨rfl, x, hx, hx'⟩ | ⟨hne, hold⟩
    · cases hx
      rw [hcall] at hx'
      rcases hx' with hx' | hx' <;> cases hx'
      exact .inl ⟨rfl, rfl⟩
    · refine .inr ⟨hne, ?_, hold⟩
      rintro rfl
      exact hnew d hold
  refine ⟨hi.fault, fun n hn => ?_, fun n pc hpc => ?_, fun d n hd => ?_, fun d e n hd he => ?_⟩
  · have hn : s.made + 1 ≤ n := hn
    obtain ⟨hctx, hlib, hw⟩ := hi.fresh n (by omega)
    have hne : n ≠ s.made := by omega
    exact ⟨(Function.update_of_ne hne _ _).trans hctx, hlib, hw⟩
  · have hne : n ≠ s.made := fun h => ne_of_library hnolib hpc h.symm
    have hsame : (Function.update s.contexts s.made (some handle)) n = s.contexts n := Function.update_of_ne hne _ _
    have hold := hi.library n pc hpc
    rw [← hsame] at hold
    exact hold
  · rcases hholds d n hd with ⟨-, rfl⟩ | ⟨-, hne, hold⟩
    · exact ⟨by simp [St.setClient], hnolib, hnotgone⟩
    · obtain ⟨hctx, hlib, hw⟩ := hi.held d n hold
      refine ⟨?_, hlib, hw⟩
      simpa [St.setClient, Function.update_of_ne hne] using hctx
  · rcases hholds d n hd with ⟨hdc, hn⟩ | ⟨-, hne, hold⟩
    · rcases hholds e n he with ⟨hec, -⟩ | ⟨-, hne', -⟩
      · rw [hdc, hec]
      · exact absurd hn hne'
    · rcases hholds e n he with ⟨-, hn⟩ | ⟨-, -, hold'⟩
      · exact absurd hn hne
      · exact hi.one d e n hold hold'

theorem inv_open (hi : Inv s w) (hold : s.Holds c n) {client : ZkClient} (hcall : client.call = .calling n true) :
    Inv ((s.setClient c (some client)).setWatcher n (some .idle)) w := by
  obtain ⟨hctx, hnolib, hw⟩ := hi.held c n hold
  -- the context goes from the call to the library
  have hholds : ∀ d m, St.Holds (s.setClient c (some client)) d m → s.Holds d m ∧ m ≠ n := by
    intro d m hd
    rcases holds_setClient hd with ⟨rfl, x, hx, hx'⟩ | ⟨hne, hold'⟩
    · cases hx
      rw [hcall] at hx'
      rcases hx' with hx' | hx' <;> cases hx'
    · refine ⟨hold', ?_⟩
      rintro rfl
      exact hne (hi.one d c m hold' hold)
  have hother : ∀ m, m ≠ n → (s.setWatcher n (some .idle)).library m = s.library m := fun m hm => Function.update_of_ne hm _ _
  refine ⟨hi.fault, fun m hm => ?_, fun m pc hm => ?_, fun d m hd => ?_, fun d e m hd he => ?_⟩
  · obtain ⟨hnone, hlib, hgone⟩ := hi.fresh m hm
    exact ⟨hnone, (hother m (ne_of_contexts hnone hctx)).trans hlib, hgone⟩
  · by_cases hne : m = n
    · subst hne
      simp only [St.setWatcher, Function.update_self] at hm
      cases hm
      exact iff_of_true hctx hw
    · exact hi.library m pc ((hother m hne).symm.trans hm)
  · obtain ⟨hold', hne⟩ := hholds d m hd
    obtain ⟨hctx', hlib', hw'⟩ := hi.held d m hold'
    exact ⟨hctx', (hother m hne).trans hlib', hw'⟩
  · exact hi.one d e m (hholds d m hd).1 (hholds e m he).1

theorem inv_delete (hi : Inv s w) (hlive : (s.contexts n).isSome = true) (hno : ∀ c, ¬ t.Holds c n)
    (hholds : ∀ c m, t.Holds c m → s.Holds c m) (ht : t.contexts = s.contexts) (hmade : t.made = s.made)
    (hfault : t.fault = s.fault) (hlibrary : ∀ m pc, t.library m = some pc → m ≠ n → s.library m = some pc)
    (hheld : ∀ m, s.library m = none → t.library m = none) (hself : ∀ pc, t.library n = some pc → pc = .idle ∧ n ∈ w) :
    Inv (t.delete n) w := by
  have hother : ∀ m, m ≠ n → (t.delete n).contexts m = s.contexts m := by
    intro m hm
    rw [← ht]
    exact Function.update_of_ne hm _ _
  refine ⟨?_, fun m hm => ?_, fun m pc hm => ?_, fun c m hc => ?_, fun c d m hc hd => hi.one c d m (hholds c m hc) (hholds d m hd)⟩
  · obtain ⟨handle, hlive⟩ := Option.isSome_iff_exists.mp hlive
    simp [St.delete, hfault, hi.fault, ht, hlive]
  · obtain ⟨hnone, hlib, hw⟩ := hi.fresh m (hmade ▸ hm)
    exact ⟨(hother m (ne_of_contexts hnone hlive)).trans hnone, hheld m hlib, hw⟩
  · by_cases hne : m = n
    · subst hne
      obtain ⟨rfl, hw⟩ := hself pc hm
      have hgone : (t.delete m).contexts m = none := Function.update_self _ _ _
      rw [hgone]
      exact iff_of_false Bool.false_ne_true (not_not_intro hw)
    · rw [hother m hne]
      exact hi.library m pc (hlibrary m pc hm hne)
  · have hne : m ≠ n := by
      rintro rfl
      exact hno c hc
    obtain ⟨hctx, hlib, hw⟩ := hi.held c m (hholds c m hc)
    rw [hother m hne]
    exact ⟨hctx, hheld m hlib, hw⟩

theorem inv_callStep (hi : Inv s w) {client : ZkClient} (hc : s.client c = some client) {ok : Bool}
    (h : s.callStep c client ok = some t) : Inv t w := by
  have hholds : ∀ m, (client.call = .allocated m ∨ client.call = .calling m false) → s.Holds c m :=
    fun m hm => ⟨client, hc, hm⟩
  unfold St.callStep at h
  cases hcall : client.call with
  | idle =>
    rw [hcall] at h
    cases h
  | start =>
    rw [hcall] at h
    cases h
    exact inv_alloc hi client.handle rfl
  | allocated n =>  -- `zookeeper_init` takes the context with it, or fails and leaves it to the call
    rw [hcall] at h
    cases ok with
    | true =>
      cases h
      exact inv_open hi (hholds n (.inl hcall)) rfl
    | false =>
      cases h
      refine inv_setClient hi fun x m hx hx' => ?_
      cases hx
      rcases hx' with hx' | hx' <;> cases hx'
      exact hholds n (.inl hcall)
  | calling n result =>
    rw [hcall] at h
    cases result with
    | true =>
      cases h
      exact inv_setOther hi (by simp)
    | false =>
      cases h
      -- the call deletes what nobody else has: no handle was opened with it
      have hold := hholds n (.inr hcall)
      obtain ⟨hlive, hnolib, -⟩ := hi.held c n hold
      refine inv_delete hi hlive (fun d hd => ?_) (fun d m hd => ?_) rfl rfl rfl (fun _ _ h _ => h) (fun _ h => h) fun pc hpc => ?_
      · rcases holds_setClient hd with ⟨rfl, x, hx, hx'⟩ | ⟨hne, hold'⟩
        · cases hx
          rcases hx' with hx' | hx' <;> cases hx'
        · exact hne (hi.one d c n hold' hold)
      · rcases holds_setClient hd with ⟨rfl, x, hx, hx'⟩ | ⟨-, hold'⟩
        · cases hx
          rcases hx' with hx' | hx' <;> cases hx'
        · exact hold'
      · have hpc : s.library n = some pc := hpc
        rw [hnolib] at hpc
        cases hpc
  | waiting =>
    rw [hcall] at h
    cases h
    exact inv_setOther hi (by simp)

/-! ## The callback -/

theorem Inv.gone (hi : Inv s w) (hlib : s.library n = some .missing) : Inv ((s.setWatcher n (some .idle)).delete n) w := by
  obtain ⟨hlive, hw⟩ := hi.library n .missing hlib
  refine inv_delete hi hlive (fun c hc => ?_) (fun _ _ h => h) rfl rfl rfl (fun m pc hm hne => ?_) (fun m hm => ?_)
    fun pc hpc => ?_
  · have hnone := (hi.held c n hc).2.1
    rw [hlib] at hnone
    cases hnone
  · exact (Function.update_of_ne hne _ _).symm.trans hm
  · exact (Function.update_of_ne (ne_of_library hm hlib) _ _).trans hm
  · simp only [St.setWatcher, Function.update_self] at hpc
    cases hpc
    exact ⟨rfl, hw⟩

theorem inv_missing (hi : Inv s w) {handle : UInt32} (hlib : s.library n = some (.read handle)) :
    Inv (s.setWatcher n (some .missing)) (n :: w) := by
  obtain ⟨hlive, hnotgone⟩ := hi.library n (.read handle) hlib
  have hother : ∀ m, m ≠ n → (s.setWatcher n (some .missing)).library m = s.library m :=
    fun m hm => Function.update_of_ne hm _ _
  have hmem : ∀ m, m ≠ n → (m ∈ n :: w ↔ m ∈ w) := fun m hm => by simp [hm]
  refine ⟨hi.fault, fun m hm => ?_, fun m pc hm => ?_, fun c m hc => ?_, hi.one⟩
  · obtain ⟨hctx, hnone, hw⟩ := hi.fresh m hm
    have hne : m ≠ n := ne_of_library hnone hlib
    exact ⟨hctx, (hother m hne).trans hnone, fun h => hw ((hmem m hne).mp h)⟩
  · by_cases hne : m = n
    · subst hne
      simp only [St.setWatcher, Function.update_self] at hm
      cases hm
      exact ⟨hlive, List.mem_cons_self⟩
    · rw [hmem m hne]
      exact hi.library m pc ((hother m hne).symm.trans hm)
  · obtain ⟨hctx, hnone, hw⟩ := hi.held c m hc
    have hne : m ≠ n := ne_of_library hnone hlib
    exact ⟨hctx, (hother m hne).trans hnone, fun h => hw ((hmem m hne).mp h)⟩

theorem inv_watcherStep (hi : Inv s w) (h : step s (.sessionWatcher n) = some t) :
    Inv t (record w s (.sessionWatcher n)) := by
  obtain ⟨pc, hlib, h⟩ := Option.bind_eq_some_iff.mp h
  have hok := hi.library n pc hlib
  cases pc with
  | idle => cases h
  | read handle =>
    cases h
    simp only [record, hlib]
    cases htotal : s.totalZkClients handle with
    | none => exact inv_missing hi hlib
    | some c => exact inv_setWatcher hi hlib hok
  | found c =>
    cases h
    simp only [record, hlib]
    exact inv_setWatcher hi hlib (iff_of_true hok.1 hok.2)
  | missing =>
    cases h
    simp only [record, hlib]
    exact hi.gone hlib

theorem inv_destruct (hi : Inv s w) (h : step s (.destruct c) = some t) : Inv t w := by
  obtain ⟨client, -, h⟩ := Option.bind_eq_some_iff.mp h
  have hclosed : Inv (s.setClient c none) w := inv_setClient hi fun x n hx => by cases hx
  split at h
  · cases h
  · split at h
    · cases h
      exact hclosed
    · split at h
      · rename_i n _ hidle
        cases h
        have hother : ∀ m, (m ≠ n ∧ ((s.setClient c none).setWatcher n none).library m = s.library m) ∨
            ((s.setClient c none).setWatcher n none).library m = none := by
          intro m
          by_cases hne : m = n
          · rw [hne]
            exact .inr (Function.update_self _ _ _)
          · exact .inl ⟨hne, Function.update_of_ne hne _ _⟩
        refine ⟨hi.fault, fun m hm => ?_, fun m pc hm => ?_, fun d m hd => ?_, hclosed.one⟩
        · obtain ⟨hctx, hlib, hw⟩ := hi.fresh m hm
          refine ⟨hctx, ?_, hw⟩
          rcases hother m with ⟨-, hsame⟩ | hnone
          · exact hsame.trans hlib
          · exact hnone
        · rcases hother m with ⟨-, hsame⟩ | hnone
          · exact hi.library m pc (hsame.symm.trans hm)
          · rw [hnone] at hm
            cases hm
        · obtain ⟨hctx, hlib, hw⟩ := hclosed.held d m hd
          refine ⟨hctx, ?_, hw⟩
          rcases hother m with ⟨-, hsame⟩ | hnone
          · exact hsame.trans hlib
          · exact hnone
      · cases h

theorem inv_step {a : Act} (hi : Inv s w) (hg : Silent (s, w) a) (h : step s a = some t) : Inv t (record w s a) := by
  cases a with
  | createZkClient c handle =>
    simp only [step] at h
    split at h
    · cases h
    · cases h
      have hregistered : Inv { s with totalZkClients := Function.update s.totalZkClients handle (some c) } w :=
        inv_frame hi rfl rfl rfl rfl fun _ _ h => h
      exact inv_setOther hregistered (by simp)
  | retry handle =>
    simp only [step] at h
    split at h
    · cases h
      exact hi
    · obtain ⟨client, -, h⟩ := Option.bind_eq_some_iff.mp h
      split at h
      · cases h
        exact hi
      · split at h
        · cases h
          exact inv_setOther hi (by simp)
        · cases h
  | call c ok =>
    obtain ⟨client, hc, h⟩ := Option.bind_eq_some_iff.mp h
    exact inv_callStep hi hc h
  | deliver n =>
    simp only [step] at h
    split at h
    · rename_i hidle
      -- the handle has delivered no event since its context was deleted, if it was
      have hlive := (hi.library n .idle hidle).mpr hg
      obtain ⟨handle, hctx⟩ := Option.isSome_iff_exists.mp hlive
      rw [hctx] at h
      cases h
      exact inv_setWatcher hi hidle ⟨hlive, hg⟩
    · cases h
  | sessionWatcher n => exact inv_watcherStep hi h
  | destroyClient handle =>
    cases h
    exact inv_frame hi rfl rfl rfl rfl fun _ _ h => h
  | destruct c => exact inv_destruct hi h

theorem fault_of_not_silent {a : Act} (hi : Inv s w) (hg : ¬ Silent (s, w) a) (h : step s a = some t) : t.fault = true := by
  cases a with
  | deliver n =>
    simp only [step] at h
    split at h
    · rename_i hidle
      have hgone : s.contexts n = none := by
        cases hctx : s.contexts n with
        | none => rfl
        | some handle => exact absurd ((hi.library n .idle hidle).mp (by rw [hctx]; rfl)) hg
      rw [hgone] at h
      cases h
      rfl
    · cases h
  | _ => exact absurd trivial hg

end

/-- **The watcher's context.** In every run, no context is read or deleted after
it has been deleted, just when no handle delivers an event after one that has
found the client gone. -/
theorem noFault_iff {acts : List Act} {s : St} (h : Lts.run step .initial acts = some s) :
    Lts.Throughout step (fun s => s.fault = false) .initial acts ↔
      Lts.Along (Lts.withHistory step record) Silent (.initial, []) acts := by
  obtain ⟨w, hrun⟩ := Lts.run_withHistory record [] h
  rw [← Lts.throughout_withHistory (w := ([] : List Opening))]
  refine Lts.throughout_iff_along (I := fun x => Inv x.1 x.2) (fun x a y hi hg hs => ?_) (fun x hi => hi.fault)
    (fun x a y hi hg hs => ?_) inv_initial hrun
  · obtain ⟨hstep, hw⟩ := Lts.withHistory_some hs
    rw [hw]
    exact inv_step hi hg hstep
  · rw [fault_of_not_silent hi hg (Lts.withHistory_some hs).1]
    exact fun h => Bool.false_ne_true h.symm

def destroyed : List Act :=
  [.createZkClient 0 2, .call 0 true, .call 0 true, .call 0 true, .deliver 0, .sessionWatcher 0, .sessionWatcher 0,
    .call 0 true, .destroyClient 2]

theorem noFault_once : Lts.Throughout step (fun s => s.fault = false) .initial
    (destroyed ++ [.deliver 0, .sessionWatcher 0, .sessionWatcher 0]) :=
  (noFault_iff (s := (Lts.run step .initial (destroyed ++ [.deliver 0, .sessionWatcher 0, .sessionWatcher 0])).get rfl)
    (Option.some_get _).symm).mpr (by decide)

/-- The first event after `destroyClient` deletes the context, the second reads it. -/
theorem not_noFault_twice : ¬ Lts.Throughout step (fun s => s.fault = false) .initial
    (destroyed ++ [.deliver 0, .sessionWatcher 0, .sessionWatcher 0, .deliver 0]) :=
  Lts.not_throughout ⟨_, rfl, by decide⟩

end ZkCppClient.WatcherContext

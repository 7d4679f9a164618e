import ZkCppClient.Lifetime.Machine

/-!
# Who owns the contexts

Every live context is with the library, in a call, in a functor, or lost: what
a step loses are the contexts of the requests that the library refuses and of
the registrations that fail.
-/

namespace ZkCppClient.Lifetime

open Watch (Kind Path WatchContext EventType)

def Call.held : Call → List Ptr
  | .waiting w => [w.ptr]
  | .answered _ _ => []

def SecondPc.held : SecondPc → List Ptr
  | .reg _ _ call => call.held
  | _ => []

def Functor.held : Functor → List Ptr
  | .post x _ => [x]
  | .autoReg _ _ => []

def St.held (s : St) : List Ptr :=
  s.requests ++ s.armed.map WatchPtr.ptr ++ s.calls.flatMap Call.held ++ s.second.held ++ s.funs.flatMap Functor.held

/-- `rest` are the contexts that no part of the state holds. -/
def St.Owns (s : St) (rest : List Ptr) : Prop := s.heap.Owned (s.held ++ rest)

def St.refuses (s : St) (accepted : Bool) : Bool := s.isConnected && !s.accepts accepted

/-- The registration of a path again finds a handle that is NULL. -/
def St.autoRegLeaks (s : St) (k : Kind) (p : Path) : Bool :=
  (s.datas k p).any (·.isSupportAutoReg) && s.refuses true

/-- The step allocates or gives up a context that nothing deletes any more: the
library refuses a request, or a registration fails. -/
def Leaks (s : St) : Act → Bool
  | .request _ handler accepted => handler && s.refuses accepted
  | .reg _ _ handler _ => handler.isSome && s.refuses true
  | .answer i rc =>
    match s.calls[i]? with
    | some (.waiting w) => !registers rc w.ctx.kind
    | _ => false
  | .watchEvent i type accepted => (s.armed[i]?).any fun w => Watch.fetches w.ctx.kind type && !accepted
  | .second goesOn accepted =>
    match s.funs with
    | .autoReg k p :: _ => s.autoRegLeaks k p
    | .post _ _ :: _ => goesOn && s.refuses accepted
    | [] => false
  | .secondAnswer rc =>
    match s.second with
    | .reg _ _ (.waiting w) => !registers rc w.ctx.kind
    | _ => false
  | .timer i => (s.timers[i]?).any fun x => s.autoRegLeaks x.1 x.2
  | _ => false

section
variable {s t : St} {rest : List Ptr} {x : Ptr} {w : WatchPtr}

/-! ## Taking and giving -/

theorem owns_iff : s.Owns rest ↔ ∀ x, s.heap.live.count x =
    s.requests.count x + (s.armed.map WatchPtr.ptr).count x + (s.calls.flatMap Call.held).count x +
      s.second.held.count x + (s.funs.flatMap Functor.held).count x + rest.count x := by
  simp only [St.Owns, Heap.Owned, List.perm_iff_count, St.held, List.count_append]

theorem owns_initial : St.initial.Owns [] := Heap.owned_empty

theorem St.Owns.swap {xs ys : List Ptr} (ho : s.Owns (xs ++ (ys ++ rest))) : s.Owns (ys ++ (xs ++ rest)) :=
  Heap.Owned.moved ho (List.Perm.append_left _ (List.perm_append_comm_assoc ..))

theorem St.Owns.free (ho : s.Owns (x :: rest)) : St.Owns { s with heap := s.heap.free x } rest :=
  Heap.Owned.free (Heap.Owned.moved ho List.perm_middle)

theorem St.Owns.alloc (ho : s.Owns rest) (c : Context) :
    St.Owns { s with heap := s.heap.alloc c } (s.heap.ptr c :: rest) :=
  Heap.Owned.moved (Heap.Owned.alloc ho c) List.perm_middle.symm

theorem St.Owns.takeRequest {i : Nat} (ho : s.Owns rest) (h : s.requests[i]? = some x) :
    St.Owns { s with requests := s.requests.eraseIdx i } (x :: rest) := by
  rw [owns_iff] at ho ⊢
  intro y
  have hp := (Heap.perm_eraseIdx h).count_eq y
  have hy := ho y
  simp only [List.count_cons] at hp ⊢
  omega

theorem St.Owns.giveRequest (ho : s.Owns (x :: rest)) : St.Owns { s with requests := x :: s.requests } rest := by
  rw [owns_iff] at ho ⊢
  intro y
  have hy := ho y
  simp only [List.count_cons] at hy ⊢
  omega

theorem St.Owns.takeArmed {i : Nat} (ho : s.Owns rest) (h : s.armed[i]? = some w) :
    St.Owns { s with armed := s.armed.eraseIdx i } (w.ptr :: rest) := by
  rw [owns_iff] at ho ⊢
  intro y
  have hp := ((Heap.perm_eraseIdx h).map WatchPtr.ptr).count_eq y
  have hy := ho y
  simp only [List.map_cons, List.count_cons] at hp ⊢
  omega

theorem St.Owns.giveArmed (ho : s.Owns (w.ptr :: rest)) : St.Owns { s with armed := w :: s.armed } rest := by
  rw [owns_iff] at ho ⊢
  intro y
  have hy := ho y
  simp only [List.map_cons, List.count_cons] at hy ⊢
  omega

theorem St.Owns.takeCall {i : Nat} {call : Call} (ho : s.Owns rest) (h : s.calls[i]? = some call) :
    St.Owns { s with calls := s.calls.eraseIdx i } (call.held ++ rest) := by
  rw [owns_iff] at ho ⊢
  intro y
  have hp := ((Heap.perm_eraseIdx h).flatMap_right Call.held).count_eq y
  have hy := ho y
  simp only [List.flatMap_cons, List.count_append] at hp ⊢
  omega

theorem St.Owns.giveCall (call : Call) (ho : s.Owns (call.held ++ rest)) :
    St.Owns { s with calls := call :: s.calls } rest := by
  rw [owns_iff] at ho ⊢
  intro y
  have hy := ho y
  simp only [List.flatMap_cons, List.count_append] at hy ⊢
  omega

theorem St.Owns.takeSecond (ho : s.Owns rest) : St.Owns { s with second := .idle } (s.second.held ++ rest) := by
  rw [owns_iff] at ho ⊢
  intro y
  have hy := ho y
  simp only [SecondPc.held, List.count_append, List.count_nil] at hy ⊢
  omega

theorem St.Owns.giveSecond (pc : SecondPc) (ho : s.Owns (pc.held ++ rest)) (hidle : s.second.held = []) :
    St.Owns { s with second := pc } rest := by
  rw [owns_iff] at ho ⊢
  intro y
  have hy := ho y
  simp only [hidle, List.count_append, List.count_nil] at hy ⊢
  omega

theorem St.Owns.takeFun {f : Functor} {funs : List Functor} (ho : s.Owns rest) (h : s.funs = f :: funs) :
    St.Owns { s with funs } (f.held ++ rest) := by
  rw [owns_iff] at ho ⊢
  intro y
  have hy := ho y
  simp only [h, List.flatMap_cons, List.count_append] at hy ⊢
  omega

theorem St.Owns.giveFun {f : Functor} (ho : s.Owns (f.held ++ rest)) : St.Owns { s with funs := s.funs ++ [f] } rest := by
  rw [owns_iff] at ho ⊢
  intro y
  have hy := ho y
  simp only [List.flatMap_append, List.flatMap_cons, List.flatMap_nil, List.append_nil, List.count_append] at hy ⊢
  omega

/-! ## What a step loses -/

/-- The contexts that are lost besides `rest`: none, unless `leaks`. -/
def St.Accounted (s : St) (rest : List Ptr) (leaks : Bool) : Prop :=
  ∃ new, s.Owns (new ++ rest) ∧ (new = [] ↔ leaks = false)

theorem St.Owns.accounted (ho : s.Owns rest) : s.Accounted rest false := ⟨[], ho, iff_of_true rfl rfl⟩

theorem St.Owns.leaked (ho : s.Owns (x :: rest)) : s.Accounted rest true :=
  ⟨[x], ho, iff_of_false (List.cons_ne_nil _ _) (fun h => by cases h)⟩

theorem request_accounted (ho : s.Owns rest) (op : Op) (accepted : Bool) :
    (s.request op accepted).Accounted rest (s.refuses accepted) := by
  unfold St.request St.refuses
  cases hc : s.isConnected with
  | false => exact ho.accounted
  | true =>
    cases ha : s.accepts accepted with
    | true => exact (ho.alloc (.op op)).giveRequest.accounted
    | false => exact (ho.alloc (.op op)).leaked

theorem fetch_accounted (ho : s.Owns rest) (ctx : WatchContext) (accepted : Bool) :
    (s.fetch ctx accepted).Accounted rest (!accepted) := by
  cases accepted with
  | true => exact (ho.alloc (.fetch ctx)).giveRequest.accounted
  | false => exact (ho.alloc (.fetch ctx)).leaked

theorem complete_owns {rc : Rc} (ho : s.Owns (x :: rest)) (h : s.complete x rc = some t) : t.Owns rest := by
  unfold St.complete at h
  split at h
  · split at h
    · cases h
    · split at h
      · cases h
        exact ho.giveFun
      · cases h
        exact ho.free
  · split at h
    · cases h
    · cases h
      exact ho.free
  · cases h

theorem post_accounted (ho : s.Owns (x :: rest)) (op : Op) (goesOn accepted : Bool) :
    (s.post x op goesOn accepted).Accounted rest (goesOn && s.refuses accepted) := by
  cases goesOn with
  | false => exact (St.Owns.free ho).accounted
  | true =>
    obtain ⟨new, ho, hnew⟩ := request_accounted ho (if op = .createIfNeedCreateParents then .create else .deleteNode) accepted
    exact ⟨new, St.Owns.free (Heap.Owned.moved ho (List.Perm.append_left _ List.perm_middle)), hnew⟩

theorem regWatcher_accounted {ctx : WatchContext} {call : Call} (ho : s.Owns rest)
    (h : s.regWatcher ctx = some (t, call)) : t.Accounted (call.held ++ rest) (s.refuses true) := by
  unfold St.regWatcher at h
  split at h
  · cases h
  · rename_i hc
    have hc : s.isConnected = true := by simpa using hc
    have halloc := ho.alloc (.watch ctx)
    cases hz : s.zhandle.isSome with
    | true =>
      rw [hz] at h
      cases h
      have hrefuses : s.refuses true = false := by simp [St.refuses, St.accepts, hz]
      rw [hrefuses]
      exact St.Owns.accounted halloc
    | false =>
      rw [hz] at h
      cases h
      have hrefuses : s.refuses true = true := by simp [St.refuses, St.accepts, hc, hz]
      rw [hrefuses]
      exact St.Owns.leaked halloc

theorem regWatcher_none {ctx : WatchContext} (h : s.regWatcher ctx = none) : s.refuses true = false := by
  unfold St.regWatcher at h
  split at h
  · rename_i hc
    have hc : s.isConnected = false := by simpa using hc
    simp [St.refuses, hc]
  · cases h

theorem regWatcher_frame {ctx : WatchContext} {call : Call} (h : s.regWatcher ctx = some (t, call)) :
    ∃ heap, t = { s with heap } := by
  unfold St.regWatcher at h
  split at h
  · cases h
  · cases h
    exact ⟨_, rfl⟩

theorem reg_accounted (ho : s.Owns rest) (ctx : WatchContext) : (s.reg ctx).Accounted rest (s.refuses true) := by
  unfold St.reg
  cases hreg : s.regWatcher ctx with
  | none =>
    rw [regWatcher_none hreg]
    exact ho.accounted
  | some x =>
    obtain ⟨u, call⟩ := x
    obtain ⟨new, hu, hnew⟩ := regWatcher_accounted ho hreg
    exact ⟨new, St.Owns.giveCall (s := { u with users := u.users - 1 }) call hu.swap, hnew⟩

theorem answer_accounted (rc : Rc) (ho : s.Owns (w.ptr :: rest)) :
    (s.answer w rc).Accounted rest (!registers rc w.ctx.kind) := by
  unfold St.answer
  cases registers rc w.ctx.kind with
  | true => exact ho.giveArmed.accounted
  | false => exact ho.leaked

theorem autoReg_accounted (ho : s.Owns rest) (hidle : s.second = .idle) (k : Kind) (p : Path) :
    (s.autoReg k p).Accounted rest (s.autoRegLeaks k p) := by
  unfold St.autoReg St.autoRegLeaks
  split
  · rename_i hc
    have hc : s.isConnected = false := by simpa using hc
    simp only [St.refuses, hc, Bool.false_and, Bool.and_false]
    exact ho.accounted
  · cases hd : s.datas k p with
    | none => exact ho.accounted
    | some data =>
      simp only [Option.any_some]
      cases hauto : data.isSupportAutoReg with
      | false => exact ho.accounted
      | true =>
        simp only [Bool.not_true, Bool.false_eq_true, if_false, Bool.true_and]
        cases hreg : s.regWatcher (data.toContext k) with
        | none =>  -- the registration is not sent, and its timer is set
          rw [regWatcher_none hreg]
          exact St.Owns.accounted (s := { s with timers := s.timers ++ [(k, p)] }) ho
        | some x =>
          obtain ⟨u, call⟩ := x
          obtain ⟨heap, rfl⟩ := regWatcher_frame hreg
          obtain ⟨new, ho, hnew⟩ := regWatcher_accounted ho hreg
          refine ⟨new, St.Owns.giveSecond (.reg k p call) ?_ (by simp [hidle, SecondPc.held]), hnew⟩
          exact ho.swap

theorem queueAutoReg_owns (ho : s.Owns rest) (ctx : WatchContext) : (s.queueAutoReg ctx).Owns rest := by
  unfold St.queueAutoReg
  split
  · exact St.Owns.giveFun (f := .autoReg ctx.kind ctx.path) ho
  · exact ho

end

end ZkCppClient.Lifetime

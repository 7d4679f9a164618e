import ZkCppClient.Lib.Heap
import ZkCppClient.Ops.Completions
import ZkCppClient.Ops.Create

/-!
# One handler call for a chain of creations

Asynchronous `createIfNeedCreateParents` with the contexts that it allocates.
The first request's context goes from the library to its completion, and from
there to the second thread when the parent is missing; a second request has a
context of its own. Each of them answers for the one call of the handler that
is still to be made.
-/

namespace ZkCppClient.Ops

deriving instance DecidableEq for ContextInCreateParentAndNodes, ZkOperateContext

inductive CreateContext
  | parents (ctx : ContextInCreateParentAndNodes)
  | operate (ctx : ZkOperateContext)
  deriving DecidableEq

abbrev CreatePtr := Nat × CreateContext

/-- `taken` are the contexts of the requests that were accepted, `deleted` what has been deleted. -/
structure Chain (σ : Type*) where
  env : σ
  heap : Heap CreateContext
  taken : List CreatePtr
  deleted : List CreatePtr
  calls : List CreateCall

namespace Chain

variable {σ : Type*}

def start (env : σ) (heap : Heap CreateContext) : Chain σ := ⟨env, heap, [], [], []⟩

def call (c : Chain σ) (call : CreateCall) : Chain σ := { c with calls := c.calls ++ [call] }

def delete (c : Chain σ) (x : CreatePtr) : Chain σ := { c with heap := c.heap.free x, deleted := x :: c.deleted }

def callOperate (c : Chain σ) (ctx : ZkOperateContext) (errcode : ZkErrorCode) (value : String) : Chain σ :=
  c.call ⟨ctx.handler, errcode, ctx.path, value, ctx.context⟩

inductive Outcome (σ : Type*)
  | aborted
  | ended (ret : Bool) (c : Chain σ)

section
variable (E : CreateEnv σ)

/-- An asynchronous create with the context `ctx`: the pointer that the library has taken, if it has. -/
def request (c : Chain σ) (ctx : CreateContext) (path value : String) (isTemp isSequence : Bool) :
    Option CreatePtr × Chain σ :=
  match E.isConnected c.env with
  | (false, s) => (none, { c with env := s })
  | (true, s) =>
    let x := c.heap.ptr ctx
    let c := { c with heap := c.heap.alloc ctx }
    match E.zooAcreate s path (some value) ⟨isTemp, isSequence⟩ with
    | (.zok, s) => (some x, { c with env := s, taken := x :: c.taken })
    | (_, s) => (none, { c with env := s })

def create (c : Chain σ) (path value : String) (handler context : Nat) (isTemp isSequence : Bool) :
    Option CreatePtr × Chain σ :=
  c.request E (.operate ⟨path, handler, context⟩) path value isTemp isSequence

def createCompletion (c : Chain σ) (x : CreatePtr) (ctx : ZkOperateContext) (rc : Rc) (value : String) : Outcome σ :=
  if !createAsserted rc then .aborted else
  .ended true <| delete (match rc with
    | .zok => c.callOperate ctx .kZKSucceed value
    | .znonode => c.callOperate ctx .kZKNotExist ""
    | .znodeexists => c.callOperate ctx .kZKExisted ""
    | _ => c.callOperate ctx .kZKError "") x

def tagCreateDir (c : Chain σ) (x : CreatePtr) (ctx : ContextInCreateParentAndNodes) (createDirSucc : Bool) : Chain σ :=
  (if createDirSucc then c else c.call (ctx.call .kZKError "")).delete x

def postCreateParentAndNode (fuel : Nat) (c : Chain σ) (x : CreatePtr) (ctx : ContextInCreateParentAndNodes) :
    Option (Option CreatePtr × Chain σ) :=
  match parentDir ctx.path with
  | none => some (none, c.tagCreateDir x ctx false)
  | some parent =>
    match createPersistentDir E fuel c.env parent with
    | none => none
    | some (true, s) =>
      match { c with env := s }.create E ctx.path ctx.value ctx.handler ctx.context ctx.isTemp ctx.isSequence with
      | (some y, c) => some (some y, c.tagCreateDir x ctx true)
      | (none, c) => some (none, c.tagCreateDir x ctx false)
    | some (false, s) => some (none, { c with env := s }.tagCreateDir x ctx false)

def createIfNeedCreateParentsCompletion (fuel : Nat) (c : Chain σ) (x : CreatePtr) (ctx : ContextInCreateParentAndNodes)
    (rc : Rc) (value : String) : Option (Outcome σ) :=
  if !createAsserted rc then some .aborted else
  match rc with
  | .zok => some (.ended true ((c.call (ctx.call .kZKSucceed value)).delete x))
  | .znonode =>
    match c.postCreateParentAndNode E fuel x ctx with
    | none => none
    | some (none, c) => some (.ended true c)
    | some (some y, c) =>
      match E.createReply c.env ctx.path with
      | ((rc, value), s) => some ({ c with env := s }.createCompletion y ⟨ctx.path, ctx.handler, ctx.context⟩ rc value)
  | .znodeexists => some (.ended true ((c.call (ctx.call .kZKExisted "")).delete x))
  | _ => some (.ended true ((c.call (ctx.call .kZKError "")).delete x))

def createIfNeedCreateParents (fuel : Nat) (c : Chain σ) (path value : String) (handler : Option Nat) (context : Nat)
    (isTemp isSequence : Bool) : Option (Outcome σ) :=
  match handler with
  | none => some (.ended false c)
  | some handler =>
    let ctx : ContextInCreateParentAndNodes := ⟨path, value, handler, context, isTemp, isSequence⟩
    match c.request E (.parents ctx) path value isTemp isSequence with
    | (none, c) => some (.ended false c)
    | (some x, c) =>
      match E.createReply c.env path with
      | ((rc, retPath), s) => { c with env := s }.createIfNeedCreateParentsCompletion E fuel x ctx rc retPath

/-! ## Without the contexts -/

/-- What the caller and the server see of it. -/
def Outcome.seen : Outcome σ → CreateOutcome σ
  | .aborted => .aborted
  | .ended ret c => .ended ret c.calls c.env

theorem request_seen (c : Chain σ) (ctx : CreateContext) (path value : String) (isTemp isSequence : Bool) :
    requestCreate E c.env path value isTemp isSequence =
      ((c.request E ctx path value isTemp isSequence).1.isSome, (c.request E ctx path value isTemp isSequence).2.env) ∧
    (c.request E ctx path value isTemp isSequence).2.calls = c.calls := by
  unfold requestCreate request
  cases E.isConnected c.env with
  | mk connected s =>
    cases connected with
    | false => exact ⟨rfl, rfl⟩
    | true =>
      dsimp only
      cases E.zooAcreate s path (some value) ⟨isTemp, isSequence⟩ with
      | mk rc s => cases rc <;> exact ⟨rfl, rfl⟩

theorem createCompletion_seen (c : Chain σ) (x : CreatePtr) (ctx : ContextInCreateParentAndNodes) (rc : Rc) (value : String) :
    (c.createCompletion x ⟨ctx.path, ctx.handler, ctx.context⟩ rc value).seen =
      match Ops.createCompletion ctx rc value with
      | none => .aborted
      | some call => .ended true (c.calls ++ [call]) c.env := by
  unfold createCompletion Ops.createCompletion
  cases createAsserted rc with
  | false => rfl
  | true => cases rc <;> rfl

theorem postCreateParentAndNode_seen (fuel : Nat) {c : Chain σ} (hnew : c.calls = []) (x : CreatePtr)
    (ctx : ContextInCreateParentAndNodes) : Ops.postCreateParentAndNode E fuel c.env ctx =
      (c.postCreateParentAndNode E fuel x ctx).map fun r => (r.2.calls, r.1.isSome, r.2.env) := by
  unfold postCreateParentAndNode Ops.postCreateParentAndNode
  cases parentDir ctx.path with
  | none => simp [tagCreateDir, Ops.tagCreateDir, delete, call, hnew]
  | some parent =>
    dsimp only
    cases createPersistentDir E fuel c.env parent with
    | none => rfl
    | some r =>
      obtain ⟨made, s⟩ := r
      cases made with
      | false => simp [tagCreateDir, Ops.tagCreateDir, delete, call, hnew]
      | true =>
        obtain ⟨hseen, hcalls⟩ := request_seen E { c with env := s } (.operate ⟨ctx.path, ctx.handler, ctx.context⟩)
          ctx.path ctx.value ctx.isTemp ctx.isSequence
        dsimp only [create] at hseen hcalls ⊢
        rw [hseen]
        generalize request E { c with env := s } _ _ _ _ _ = r at hcalls ⊢
        obtain ⟨taken, c'⟩ := r
        dsimp only at hcalls
        cases taken with
        | none => simp [tagCreateDir, Ops.tagCreateDir, delete, call, hcalls, hnew]
        | some y => simp [tagCreateDir, Ops.tagCreateDir, delete, hcalls, hnew]

theorem createIfNeedCreateParentsCompletion_seen (fuel : Nat) {c : Chain σ} (hnew : c.calls = []) (x : CreatePtr)
    (ctx : ContextInCreateParentAndNodes) (rc : Rc) (value : String) :
    (c.createIfNeedCreateParentsCompletion E fuel x ctx rc value).map Outcome.seen =
      Ops.createIfNeedCreateParentsCompletion E fuel c.env ctx rc value := by
  unfold createIfNeedCreateParentsCompletion Ops.createIfNeedCreateParentsCompletion
  cases createAsserted rc with
  | false => rfl
  | true =>
    cases rc with
    | znonode =>
      dsimp only [Bool.not_true, Bool.false_eq_true, if_false]
      rw [postCreateParentAndNode_seen E fuel hnew x ctx]
      cases c.postCreateParentAndNode E fuel x ctx with
      | none => rfl
      | some r =>
        obtain ⟨taken, c'⟩ := r
        cases taken with
        | none => rfl
        | some y =>
          have hseen := createCompletion_seen { c' with env := (E.createReply c'.env ctx.path).2 } y ctx
            (E.createReply c'.env ctx.path).1.1 (E.createReply c'.env ctx.path).1.2
          refine (congrArg some hseen).trans ?_
          dsimp only [Option.map, Option.isSome]
          cases Ops.createCompletion ctx (E.createReply c'.env ctx.path).1.1 (E.createReply c'.env ctx.path).1.2 <;> rfl
    | _ => simp [Outcome.seen, delete, Chain.call, hnew]

theorem createIfNeedCreateParents_seen (fuel : Nat) (s : σ) (heap : Heap CreateContext) (path value : String)
    (handler : Option Nat) (context : Nat) (isTemp isSequence : Bool) :
    ((start s heap).createIfNeedCreateParents E fuel path value handler context isTemp isSequence).map Outcome.seen =
      createIfNeedCreateParentsAsync E fuel s path value handler context isTemp isSequence := by
  cases handler with
  | none => rfl
  | some handler =>
    obtain ⟨hseen, hcalls⟩ := request_seen E (start s heap) (.parents ⟨path, value, handler, context, isTemp, isSequence⟩)
      path value isTemp isSequence
    unfold createIfNeedCreateParents createIfNeedCreateParentsAsync
    dsimp only [start] at hseen hcalls ⊢
    rw [hseen]
    generalize request E _ _ _ _ _ _ = r at hcalls ⊢
    obtain ⟨taken, c⟩ := r
    dsimp only at hcalls
    cases taken with
    | none => simp [Outcome.seen, hcalls]
    | some x =>
      exact createIfNeedCreateParentsCompletion_seen E fuel (c := { c with env := (E.createReply c.env path).2 }) hcalls x
        ⟨path, value, handler, context, isTemp, isSequence⟩ (E.createReply c.env path).1.1 (E.createReply c.env path).1.2

/-! ## One call -/

/-- The contexts of accepted requests have been deleted, each just once, but for those in `owed`. -/
structure Balance (c : Chain σ) (owed : List CreatePtr) : Prop where
  perm : c.taken.Perm (owed ++ c.deleted)
  nodup : c.taken.Nodup
  fresh : ∀ x ∈ c.taken, x.1 < c.heap.next

section
variable {E} {c c' : Chain σ} {owed : List CreatePtr} {x y : CreatePtr}

theorem balance_start (s : σ) (heap : Heap CreateContext) : Balance (start s heap) [] :=
  ⟨List.Perm.refl _, List.nodup_nil, nofun⟩

theorem Balance.delete (h : Balance c (x :: owed)) : Balance (c.delete x) owed :=
  ⟨h.perm.trans List.perm_middle.symm, h.nodup, h.fresh⟩

theorem Balance.request (h : Balance c owed) (ctx : CreateContext) (path value : String) (isTemp isSequence : Bool) :
    Balance (c.request E ctx path value isTemp isSequence).2
      ((c.request E ctx path value isTemp isSequence).1.toList ++ owed) := by
  have hfresh : ∀ x ∈ c.taken, x.1 < c.heap.next + 1 := fun x hx => Nat.lt_succ_of_lt (h.fresh x hx)
  unfold Chain.request
  split
  · exact ⟨h.perm, h.nodup, h.fresh⟩
  · dsimp only
    split
    · refine ⟨h.perm.cons _, List.nodup_cons.mpr ⟨fun hmem => ?_, h.nodup⟩, fun x hx => ?_⟩
      · exact absurd (h.fresh _ hmem) (Nat.lt_irrefl _)
      · rcases List.mem_cons.mp hx with rfl | hx
        · exact Nat.lt_succ_self _
        · exact hfresh x hx
    · exact ⟨h.perm, h.nodup, hfresh⟩

theorem Balance.deleted_once (h : Balance c []) : ∀ x ∈ c.taken, c.deleted.count x = 1 := by
  intro x hx
  have hperm : c.taken.Perm c.deleted := h.perm
  rw [← hperm.count_eq]
  exact List.count_eq_one_of_mem h.nodup hx

/-- The handler has been called once, and no context is left. -/
structure Answered (c : Chain σ) (handler : Nat) (path : String) (context : Nat) : Prop where
  called : ∃ errcode value, c.calls = [⟨handler, errcode, path, value, context⟩]
  balance : Balance c []

theorem answered_delete (hb : Balance c [x]) (hnew : c.calls = []) (call : CreateCall) :
    Answered ((c.call call).delete x) call.handler call.path call.context := by
  have hb : Balance (c.call call) [x] := ⟨hb.perm, hb.nodup, hb.fresh⟩
  refine ⟨⟨call.errcode, call.value, ?_⟩, hb.delete⟩
  show c.calls ++ [call] = _
  rw [hnew]
  rfl

theorem createCompletion_answers (hb : Balance c [x]) (hnew : c.calls = []) (ctx : ZkOperateContext) {rc : Rc}
    (hrc : createAsserted rc = true) (value : String) : ∃ c', c.createCompletion x ctx rc value = .ended true c' ∧
      Answered c' ctx.handler ctx.path ctx.context := by
  unfold createCompletion
  rw [hrc]
  cases rc <;> exact ⟨_, rfl, answered_delete hb hnew ⟨ctx.handler, _, ctx.path, _, ctx.context⟩⟩

theorem postCreateParentAndNode_answers {fuel : Nat} {ctx : ContextInCreateParentAndNodes} {taken : Option CreatePtr}
    (hb : Balance c [x]) (hnew : c.calls = []) (h : c.postCreateParentAndNode E fuel x ctx = some (taken, c')) :
    (taken = none → Answered c' ctx.handler ctx.path ctx.context) ∧ ∀ y ∈ taken, Balance c' [y] ∧ c'.calls = [] := by
  have hfails : ∀ {c : Chain σ}, Balance c [x] → c.calls = [] →
      Answered (c.tagCreateDir x ctx false) ctx.handler ctx.path ctx.context :=
    fun hb hnew => answered_delete hb hnew (ctx.call .kZKError "")
  unfold postCreateParentAndNode at h
  split at h
  · cases h
    exact ⟨fun _ => hfails hb hnew, nofun⟩
  · split at h
    · cases h
    · rename_i s _
      have hb₁ : Balance { c with env := s } [x] := ⟨hb.perm, hb.nodup, hb.fresh⟩
      have hb₂ := hb₁.request (E := E) (.operate ⟨ctx.path, ctx.handler, ctx.context⟩) ctx.path ctx.value ctx.isTemp
        ctx.isSequence
      have hcalls := (request_seen E { c with env := s } (.operate ⟨ctx.path, ctx.handler, ctx.context⟩) ctx.path
        ctx.value ctx.isTemp ctx.isSequence).2
      split at h <;> rename_i heq <;> dsimp only [create] at heq <;> rw [heq] at hb₂ hcalls <;> cases h
      · refine ⟨nofun, fun y hy => ?_⟩
        cases hy
        have hb₃ : Balance _ (x :: [_]) := ⟨hb₂.perm.trans (List.Perm.swap _ _ _), hb₂.nodup, hb₂.fresh⟩
        exact ⟨hb₃.delete, hcalls.trans hnew⟩
      · exact ⟨fun _ => hfails hb₂ (hcalls.trans hnew), nofun⟩
    · cases h
      exact ⟨fun _ => hfails ⟨hb.perm, hb.nodup, hb.fresh⟩ hnew, nofun⟩

theorem postCreateParentAndNode_none {fuel : Nat} {ctx : ContextInCreateParentAndNodes}
    (h : c.postCreateParentAndNode E fuel x ctx = none) :
    ∃ parent, parentDir ctx.path = some parent ∧ createPersistentDir E fuel c.env parent = none := by
  unfold postCreateParentAndNode at h
  split at h
  · cases h
  · rename_i parent hparent
    split at h
    · exact ⟨parent, hparent, by assumption⟩
    · split at h <;> cases h
    · cases h

theorem createIfNeedCreateParentsCompletion_answers (hreply : ∀ s path, createAsserted (E.createReply s path).1.1 = true)
    (fuel : Nat) (hb : Balance c [x]) (hnew : c.calls = []) (ctx : ContextInCreateParentAndNodes) {rc : Rc}
    (hrc : createAsserted rc = true) (value : String) :
    (∃ c', c.createIfNeedCreateParentsCompletion E fuel x ctx rc value = some (.ended true c') ∧
      Answered c' ctx.handler ctx.path ctx.context) ∨
    c.createIfNeedCreateParentsCompletion E fuel x ctx rc value = none ∧ rc = .znonode ∧
      ∃ parent, parentDir ctx.path = some parent ∧ createPersistentDir E fuel c.env parent = none := by
  unfold createIfNeedCreateParentsCompletion
  rw [hrc]
  cases rc with
  | znonode =>
    dsimp only [Bool.not_true, Bool.false_eq_true, if_false]
    -- the parent is missing: the handler's call is left to `postCreateParentAndNode`
    cases hpost : c.postCreateParentAndNode E fuel x ctx with
    | none => exact .inr ⟨rfl, rfl, postCreateParentAndNode_none hpost⟩
    | some r =>
      obtain ⟨taken, c'⟩ := r
      obtain ⟨hdone, hmore⟩ := postCreateParentAndNode_answers hb hnew hpost
      cases taken with
      | none => exact .inl ⟨c', rfl, hdone rfl⟩
      | some y =>  -- or to the completion of the second request
        obtain ⟨hb', hnew'⟩ := hmore y rfl
        obtain ⟨c'', hrun, hanswered⟩ := createCompletion_answers (c := { c' with env := (E.createReply c'.env ctx.path).2 })
          ⟨hb'.perm, hb'.nodup, hb'.fresh⟩ hnew' ⟨ctx.path, ctx.handler, ctx.context⟩ (hreply c'.env ctx.path)
          (E.createReply c'.env ctx.path).1.2
        exact .inl ⟨c'', congrArg some hrun, hanswered⟩
  | zok => exact .inl ⟨_, rfl, answered_delete hb hnew (ctx.call .kZKSucceed value)⟩
  | znodeexists => exact .inl ⟨_, rfl, answered_delete hb hnew (ctx.call .kZKExisted "")⟩
  | _ => exact .inl ⟨_, rfl, answered_delete hb hnew (ctx.call .kZKError "")⟩

end

/-- **The handler of a creation.** Whatever the server and the connection do, a
chain that has begun ends with one call of the handler and without a context of
an accepted request, unless the creation of the directories does not return. -/
theorem createIfNeedCreateParents_answers (hreply : ∀ s path, createAsserted (E.createReply s path).1.1 = true) (fuel : Nat)
    (s : σ) (heap : Heap CreateContext) (path value : String) (handler : Option Nat) (context : Nat)
    (isTemp isSequence : Bool) :
    (∃ ret c, (start s heap).createIfNeedCreateParents E fuel path value handler context isTemp isSequence =
        some (.ended ret c) ∧
      (ret = true → ∃ h ∈ handler, ∃ errcode result, c.calls = [⟨h, errcode, path, result, context⟩]) ∧
      (ret = false → c.calls = []) ∧ ∀ x ∈ c.taken, c.deleted.count x = 1) ∨
    ((start s heap).createIfNeedCreateParents E fuel path value handler context isTemp isSequence = none ∧
      ∃ s₁ s₂ retPath parent, requestCreate E s path value isTemp isSequence = (true, s₁) ∧
        E.createReply s₁ path = ((.znonode, retPath), s₂) ∧ parentDir path = some parent ∧
        createPersistentDir E fuel s₂ parent = none) := by
  cases handler with
  -- without a handler the call returns false before it allocates anything
  | none => exact .inl ⟨false, _, rfl, nofun, fun _ => rfl, nofun⟩
  | some handler =>
    have hseen := request_seen E (start s heap) (.parents ⟨path, value, handler, context, isTemp, isSequence⟩) path value
      isTemp isSequence
    have hb := (balance_start s heap).request (E := E) (.parents ⟨path, value, handler, context, isTemp, isSequence⟩) path
      value isTemp isSequence
    unfold createIfNeedCreateParents
    dsimp only
    -- all that is known of the request: its context is taken by the library or deleted
    generalize (start s heap).request E _ _ _ _ _ = r at hseen hb ⊢
    obtain ⟨taken, c⟩ := r
    obtain ⟨hrequest, hcalls⟩ := hseen
    cases taken with
    | none => exact .inl ⟨false, c, rfl, nofun, fun _ => hcalls, Balance.deleted_once hb⟩
    | some x =>
      have hb' : Balance { c with env := (E.createReply c.env path).2 } [x] := ⟨hb.perm, hb.nodup, hb.fresh⟩
      rcases createIfNeedCreateParentsCompletion_answers hreply fuel hb' hcalls
        ⟨path, value, handler, context, isTemp, isSequence⟩ (hreply c.env path) (E.createReply c.env path).1.2 with
        ⟨c', hrun, hanswered⟩ | ⟨hrun, hrc, parent, hparent, hdir⟩
      · exact .inl ⟨true, c', hrun, fun _ => ⟨handler, rfl, hanswered.called⟩, nofun, hanswered.balance.deleted_once⟩
      · exact .inr ⟨hrun, c.env, _, (E.createReply c.env path).1.2, parent, hrequest, by rw [← hrc], hparent, hdir⟩

end

end Chain

def noParent : CreateEnv Bool where
  isConnected s := (true, s)
  zooCreate _ path _ _ := ((.zok, path), true)
  zooAcreate s _ _ _ := (.zok, s)
  createReply s path := ((if s then .zok else .znonode, path), s)

theorem createIfNeedCreateParents_answers_noParent :
    ∃ c, (Chain.start false .empty).createIfNeedCreateParents noParent 1 "/a/b" "x" (some 0) 7 false false =
        some (.ended true c) ∧ (∃ errcode result, c.calls = [⟨0, errcode, "/a/b", result, 7⟩]) ∧
      c.taken.length = 2 ∧ ∀ x ∈ c.taken, c.deleted.count x = 1 := by
  have hends : ∃ c, (Chain.start false .empty).createIfNeedCreateParents noParent 1 "/a/b" "x" (some 0) 7 false false =
      some (.ended true c) ∧ c.taken.length = 2 := ⟨_, rfl, rfl⟩
  obtain ⟨c, hrun, hlen⟩ := hends
  rcases Chain.createIfNeedCreateParents_answers noParent (fun s _ => by cases s <;> rfl) 1 false .empty "/a/b" "x" (some 0) 7
    false false with ⟨ret, c', hrun', hcalled, -, hdeleted⟩ | ⟨hrun', -⟩
  · rw [hrun] at hrun'
    cases hrun'
    obtain ⟨h, hmem, hcalls⟩ := hcalled rfl
    cases hmem
    exact ⟨c, hrun, hcalls, hlen, hdeleted⟩
  · rw [hrun] at hrun'
    cases hrun'

end ZkCppClient.Ops

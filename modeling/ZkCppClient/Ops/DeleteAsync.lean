import ZkCppClient.Ops.DeleteRecursive

/-!
# Asynchronous recursive deletion

The whole chain started by one asynchronous `deleteRecursive`: the accepted
delete request, `deleteRecursiveCompletion`, `postDeleteRecursive` on the
second thread with its synchronous child deletions, the final asynchronous
`deleteNode` and `deleteCompletion`. The result lists the calls of the user's
handler.
-/

namespace ZkCppClient.Ops

structure DeleteCall where
  handler : Nat
  errcode : ZkErrorCode
  path : String
  context : Nat
  deriving DecidableEq, Repr

structure ContextInDeleteRecursive where
  path : String
  handler : Nat
  context : Nat
  version : Int32

def ContextInDeleteRecursive.call (ctx : ContextInDeleteRecursive) (errcode : ZkErrorCode) : DeleteCall :=
  ⟨ctx.handler, errcode, ctx.path, ctx.context⟩

def deleteAsserted (rc : Rc) : Bool :=
  rc ∈ [.zok, .zconnectionloss, .zoperationtimeout, .zbadversion, .znoauth, .znonode, .znotempty, .zclosing]

inductive Outcome (σ : Type*)
  | aborted
  | ended (ret : Bool) (calls : List DeleteCall) (s : σ)

section
variable {σ : Type*} (E : Env σ)

/-- The request that asynchronous `deleteNode` and `deleteRecursive` make once
their handler is known not to be null, and whether the call returns `true`. -/
def requestDelete (s : σ) (path : String) (version : Int32) : Bool × σ :=
  match E.isConnected s with
  | (false, s) => (false, s)
  | (true, s) =>
    match E.zooAdelete s path version with
    | (.zok, s) => (true, s)
    | (_, s) => (false, s)

def deleteCompletion (ctx : ContextInDeleteRecursive) (rc : Rc) : Option DeleteCall :=
  if !deleteAsserted rc then none else
  match rc with
  | .zok => some (ctx.call .kZKSucceed)
  | .znonode => some (ctx.call .kZKNotExist)
  | .znotempty => some (ctx.call .kZKNotEmpty)
  | _ => some (ctx.call .kZKError)

def tagDeleteChild (ctx : ContextInDeleteRecursive) (deleteChildFailed : Bool) : List DeleteCall :=
  if deleteChildFailed then [ctx.call .kZKError] else []

/-- `ZkClient::postDeleteRecursive`: the handler calls it makes, and whether it
left an accepted `deleteNode` request behind. -/
def postDeleteRecursive (fuel : Nat) (s : σ) (ctx : ContextInDeleteRecursive) :
    Option (List DeleteCall × Bool × σ) :=
  match getChildren E s ctx.path with
  | (.kZKNotExist, _, s) => some (ctx.call .kZKSucceed :: tagDeleteChild ctx false, false, s)
  | (.kZKSucceed, childNodes, s) =>
    match deleteChildren (fun s p => deleteRecursive E fuel s p (-1)) ctx.path childNodes s with
    | none => none
    | some (false, s) => some (ctx.call .kZKError :: tagDeleteChild ctx true, false, s)
    | some (true, s) =>
      match requestDelete E s ctx.path ctx.version with
      | (false, s) => some (tagDeleteChild ctx true, false, s)
      | (true, s) => some (tagDeleteChild ctx false, true, s)
  | (_, _, s) => some (tagDeleteChild ctx true, false, s)

def deleteRecursiveCompletion (fuel : Nat) (s : σ) (ctx : ContextInDeleteRecursive) (rc : Rc) :
    Option (Outcome σ) :=
  if !deleteAsserted rc then some .aborted else
  match rc with
  | .zok => some (.ended true [ctx.call .kZKSucceed] s)
  | .znonode => some (.ended true [ctx.call .kZKNotExist] s)
  | .znotempty =>
    match postDeleteRecursive E fuel s ctx with
    | none => none
    | some (calls, false, s) => some (.ended true calls s)
    | some (calls, true, s) =>
      match E.deleteRc s ctx.path with
      | (rc, s) =>
        match deleteCompletion ctx rc with
        | none => some .aborted
        | some call => some (.ended true (calls ++ [call]) s)
  | _ => some (.ended true [ctx.call .kZKError] s)

def deleteRecursiveAsync (fuel : Nat) (s : σ) (path : String) (handler : Option Nat) (context : Nat)
    (version : Int32) : Option (Outcome σ) :=
  match handler with
  | none => some (.ended false [] s)
  | some handler =>
    match requestDelete E s path version with
    | (false, s) => some (.ended false [] s)
    | (true, s) =>
      match E.deleteRc s path with
      | (rc, s) => deleteRecursiveCompletion E fuel s ⟨path, handler, context, version⟩ rc

/-- The chain comes to its end, with one handler call if `deleteRecursive`
returned true and with none if it returned false. -/
def HandledOnce (s : σ) (path : String) (handler : Option Nat) (context : Nat) (version : Int32) : Prop :=
  ∃ fuel ret calls s', deleteRecursiveAsync E fuel s path handler context version = some (.ended ret calls s') ∧
    calls.length = if ret then 1 else 0

/-- Where the chain comes to delete the children of `path`, every deletion
returns, with `kZKSucceed` or `kZKNotExist`. -/
def ChildDeletionsSucceed (s : σ) (path : String) (handler : Option Nat) (version : Int32) : Prop :=
  ∀ s₁ s₂ s₃ childNodes, handler.isSome → requestDelete E s path version = (true, s₁) →
    E.deleteRc s₁ path = (.znotempty, s₂) → getChildren E s₂ path = (.kZKSucceed, childNodes, s₃) →
    ∃ fuel s₄, deleteChildren (fun s p => deleteRecursive E fuel s p (-1)) path childNodes s₃ = some (true, s₄)

/-! ## Handler calls of each stage -/

theorem deleteCompletion_isSome (ctx : ContextInDeleteRecursive) {rc : Rc} (h : deleteAsserted rc = true) :
    ∃ call, deleteCompletion ctx rc = some call := by
  unfold deleteCompletion
  rw [h]
  cases rc <;> exact ⟨_, rfl⟩

theorem postDeleteRecursive_calls {fuel : Nat} {s s' : σ} {ctx : ContextInDeleteRecursive}
    {calls : List DeleteCall} {accepted : Bool}
    (h : postDeleteRecursive E fuel s ctx = some (calls, accepted, s')) :
    (∃ childNodes s₃ s₄, getChildren E s ctx.path = (.kZKSucceed, childNodes, s₃) ∧
      deleteChildren (fun s p => deleteRecursive E fuel s p (-1)) ctx.path childNodes s₃ = some (false, s₄) ∧
      calls.length = 2 ∧ accepted = false) ∨
    ((∀ childNodes s₃, getChildren E s ctx.path = (.kZKSucceed, childNodes, s₃) →
      ∃ s₄, deleteChildren (fun s p => deleteRecursive E fuel s p (-1)) ctx.path childNodes s₃ = some (true, s₄)) ∧
      calls.length = if accepted then 0 else 1) := by
  -- `postDeleteRecursive` makes one call itself or leaves it to the final delete, except where its loop
  -- was left at a failed child: there it makes two
  unfold postDeleteRecursive at h
  split at h
  · rename_i hg
    cases h
    exact .inr ⟨fun _ _ h' => (by rw [hg] at h'; cases h'), rfl⟩
  · rename_i childNodes s₃ hg
    split at h
    · cases h
    · rename_i s₄ hd
      cases h
      exact .inl ⟨childNodes, s₃, _, hg, hd, rfl, rfl⟩
    · rename_i s₄ hd
      have hloop : ∀ cs t, getChildren E s ctx.path = (.kZKSucceed, cs, t) →
          ∃ s₄, deleteChildren (fun s p => deleteRecursive E fuel s p (-1)) ctx.path cs t = some (true, s₄) := by
        intro cs t h'
        rw [hg] at h'
        cases h'
        exact ⟨s₄, hd⟩
      split at h <;> cases h <;> exact .inr ⟨hloop, rfl⟩
  · rename_i hne hg
    cases h
    exact .inr ⟨fun _ _ h' => absurd (congrArg Prod.fst (hg.symm.trans h')) hne, rfl⟩

theorem deleteRecursiveCompletion_calls (hrc : ∀ s p, deleteAsserted (E.deleteRc s p).1 = true) {fuel : Nat}
    {s s' : σ} {ctx : ContextInDeleteRecursive} {rc : Rc} {ret : Bool} {calls : List DeleteCall}
    (h : deleteRecursiveCompletion E fuel s ctx rc = some (.ended ret calls s')) :
    ret = true ∧ (calls.length = 1 ↔ (rc = .znotempty → ∀ childNodes s₃,
      getChildren E s ctx.path = (.kZKSucceed, childNodes, s₃) →
      ∃ s₄, deleteChildren (fun s p => deleteRecursive E fuel s p (-1)) ctx.path childNodes s₃ = some (true, s₄))) := by
  unfold deleteRecursiveCompletion at h
  split at h
  · cases h
  split at h
  · cases h; simp
  · cases h; simp
  · split at h
    · cases h
    · rename_i hp
      cases h
      refine ⟨rfl, ?_⟩
      rcases postDeleteRecursive_calls E hp with ⟨cs, s₃, s₄, hg, hd, hlen, -⟩ | ⟨hloop, hlen⟩
      · refine ⟨fun h1 => by omega, fun hc => ?_⟩
        obtain ⟨s₅, hd'⟩ := hc rfl cs s₃ hg
        rw [hd] at hd'; cases hd'
      · exact ⟨fun _ _ => hloop, fun _ => hlen⟩
    · rename_i calls₀ s₁ hp
      have hacc := hrc s₁ ctx.path
      split at h
      rename_i rc₁ s₂ hr
      rw [hr] at hacc
      obtain ⟨call, hcall⟩ := deleteCompletion_isSome ctx hacc
      rw [hcall] at h
      cases h
      refine ⟨rfl, ?_⟩
      rcases postDeleteRecursive_calls E hp with ⟨_, _, _, _, _, _, hf⟩ | ⟨hloop, hlen⟩
      · cases hf
      · exact ⟨fun _ _ => hloop, fun _ => by simpa using hlen⟩
  · rename_i hne
    cases h
    exact ⟨rfl, fun _ h' => absurd h' hne, fun _ => rfl⟩

theorem postDeleteRecursive_ends {fuel : Nat} {s : σ} {ctx : ContextInDeleteRecursive}
    (hloop : ∀ childNodes s₃, getChildren E s ctx.path = (.kZKSucceed, childNodes, s₃) →
      ∃ s₄, deleteChildren (fun s p => deleteRecursive E fuel s p (-1)) ctx.path childNodes s₃ = some (true, s₄)) :
    ∃ calls accepted s', postDeleteRecursive E fuel s ctx = some (calls, accepted, s') := by
  unfold postDeleteRecursive
  split
  · exact ⟨_, _, _, rfl⟩
  · rename_i childNodes s₃ hg
    obtain ⟨s₄, hd⟩ := hloop childNodes s₃ hg
    rw [hd]
    dsimp only
    split <;> exact ⟨_, _, _, rfl⟩
  · exact ⟨_, _, _, rfl⟩

theorem deleteRecursiveCompletion_ends (hrc : ∀ s p, deleteAsserted (E.deleteRc s p).1 = true) {fuel : Nat}
    {s : σ} (ctx : ContextInDeleteRecursive) {rc : Rc} (hasserted : deleteAsserted rc = true)
    (hloop : rc = .znotempty → ∀ childNodes s₃, getChildren E s ctx.path = (.kZKSucceed, childNodes, s₃) →
      ∃ s₄, deleteChildren (fun s p => deleteRecursive E fuel s p (-1)) ctx.path childNodes s₃ = some (true, s₄)) :
    ∃ ret calls s', deleteRecursiveCompletion E fuel s ctx rc = some (.ended ret calls s') := by
  unfold deleteRecursiveCompletion
  rw [hasserted]
  cases rc with
  | znotempty =>
    obtain ⟨calls, accepted, s₁, hp⟩ := postDeleteRecursive_ends E (hloop rfl)
    rw [hp]
    cases accepted with
    | false => exact ⟨_, _, _, rfl⟩
    | true =>
      obtain ⟨call, hcall⟩ := deleteCompletion_isSome ctx (hrc s₁ ctx.path)
      simp only [Bool.not_true, Bool.false_eq_true, if_false, hcall]
      exact ⟨_, _, _, rfl⟩
  | _ => exact ⟨_, _, _, rfl⟩

/-- **Handler calls of asynchronous `deleteRecursive`.** The handler is called
exactly once for a `true` and never for a `false`, just when no synchronous
deletion of a child fails. -/
theorem deleteRecursive_handledOnce_iff (hrc : ∀ s p, deleteAsserted (E.deleteRc s p).1 = true) (s : σ)
    (path : String) (handler : Option Nat) (context : Nat) (version : Int32) :
    HandledOnce E s path handler context version ↔ ChildDeletionsSucceed E s path handler version := by
  cases handler with
  | none => exact ⟨fun _ _ _ _ _ h => (by cases h), fun _ => ⟨0, false, [], s, rfl, rfl⟩⟩
  | some handler =>
    cases hreq : requestDelete E s path version with
    | mk ret s₁ =>
    cases ret with
    | false =>
      have hrun : ∀ fuel, deleteRecursiveAsync E fuel s path (some handler) context version =
          some (.ended false [] s₁) := fun fuel => by simp [deleteRecursiveAsync, hreq]
      refine ⟨fun _ _ _ _ _ _ h => ?_, fun _ => ⟨0, false, [], s₁, hrun 0, rfl⟩⟩
      rw [hreq] at h; cases h
    | true =>
      cases hr : E.deleteRc s₁ path with
      | mk rc s₂ =>
      have hrun : ∀ fuel, deleteRecursiveAsync E fuel s path (some handler) context version =
          deleteRecursiveCompletion E fuel s₂ ⟨path, handler, context, version⟩ rc := fun fuel => by
        simp [deleteRecursiveAsync, hreq, hr]
      have hasserted : deleteAsserted rc = true := by have := hrc s₁ path; rwa [hr] at this
      constructor
      · rintro ⟨fuel, ret, calls, s', h, hlen⟩
        rw [hrun] at h
        obtain ⟨rfl, hiff⟩ := deleteRecursiveCompletion_calls E hrc h
        intro t₁ t₂ t₃ childNodes _ h₁ h₂ h₃
        rw [hreq] at h₁; cases h₁
        rw [hr] at h₂; cases h₂
        obtain ⟨s₄, hd⟩ := hiff.mp hlen rfl childNodes t₃ h₃
        exact ⟨fuel, s₄, hd⟩
      · intro hc
        -- one fuel for the whole chain: that of the loop, where there is one
        have hfuel : ∃ fuel, rc = .znotempty → ∀ childNodes s₃, getChildren E s₂ path = (.kZKSucceed, childNodes, s₃) →
            ∃ s₄, deleteChildren (fun s p => deleteRecursive E fuel s p (-1)) path childNodes s₃ = some (true, s₄) := by
          by_cases hex : rc = .znotempty ∧ ∃ childNodes s₃, getChildren E s₂ path = (.kZKSucceed, childNodes, s₃)
          · obtain ⟨rfl, childNodes, s₃, hg⟩ := hex
            obtain ⟨fuel, s₄, hd⟩ := hc s₁ s₂ s₃ childNodes rfl hreq hr hg
            refine ⟨fuel, fun _ cs t h => ?_⟩
            rw [hg] at h; cases h
            exact ⟨s₄, hd⟩
          · exact ⟨0, fun h1 cs t h2 => absurd ⟨h1, cs, t, h2⟩ hex⟩
        obtain ⟨fuel, hloop⟩ := hfuel
        obtain ⟨ret, calls, s', h⟩ :=
          deleteRecursiveCompletion_ends E hrc ⟨path, handler, context, version⟩ hasserted hloop
        obtain ⟨rfl, hiff⟩ := deleteRecursiveCompletion_calls E hrc h
        exact ⟨fuel, true, calls, s', (hrun fuel).trans h, hiff.mpr hloop⟩

end

/-! ## A child that fails -/

/-- `/a` has a child `b` that gets a child of its own between the listing and
the delete: every delete is answered that the node is not empty. -/
def refilled : Env Unit where
  isConnected _ := (true, ())
  zooGetChildren _ path := (.zok, if path = "/a" then ["b"] else [], ())
  zooDelete _ _ _ := (.znotempty, ())
  zooAdelete _ _ _ := (.zok, ())
  deleteRc _ _ := (.znotempty, ())

theorem deleteRecursive_handled_twice :
    deleteRecursiveAsync refilled 2 () "/a" (some 0) 7 (-1) =
      some (.ended true [⟨0, .kZKError, "/a", 7⟩, ⟨0, .kZKError, "/a", 7⟩] ()) ∧
    ¬ HandledOnce refilled () "/a" (some 0) 7 (-1) := by
  have hloop : deleteChildren (fun s p => deleteRecursive refilled 1 s p (-1)) "/a" ["b"] () = some (false, ()) := by
    decide
  refine ⟨rfl, ?_⟩
  rintro ⟨fuel, ret, calls, s', h, hlen⟩
  have hcompletion : deleteRecursiveCompletion refilled fuel () ⟨"/a", 0, 7, -1⟩ .znotempty =
      some (.ended ret calls s') := h
  obtain ⟨rfl, hiff⟩ := deleteRecursiveCompletion_calls refilled (fun _ _ => rfl) hcompletion
  obtain ⟨s₄, hd⟩ := hiff.mp hlen rfl ["b"] () rfl
  have := deleteChildren_unique refilled hd hloop
  cases this

def oneLeaf : Env Bool where
  isConnected s := (true, s)
  zooGetChildren s path := (.zok, if path = "/a" then ["b"] else [], s)
  zooDelete _ _ _ := (.zok, true)
  zooAdelete s _ _ := (.zok, s)
  deleteRc s _ := (if s then .zok else .znotempty, s)

theorem deleteRecursive_handledOnce_oneLeaf : HandledOnce oneLeaf false "/a" (some 0) 7 (-1) :=
  (deleteRecursive_handledOnce_iff oneLeaf (fun s _ => by cases s <;> rfl) false "/a" (some 0) 7 (-1)).mpr
    fun s₁ s₂ s₃ childNodes _ h₁ h₂ h₃ => by
      cases h₁; cases h₂; cases h₃
      exact ⟨1, true, by decide⟩

end ZkCppClient.Ops

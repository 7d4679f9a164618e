import ZkCppClient.Lifetime.Owners

/-!
# Requests that the library refuses

Every request allocates its context, and with it a reference to the client,
before it calls the library. Where the library returns an error at once it
takes no ownership, and the code returns without a delete, as `init` and
`reconnect` do not.
-/

namespace ZkCppClient.Lifetime

open Watch (Kind Path WatchContext EventType)

def St.registration (s : St) (ctx : WatchContext) (rc : Rc) : Bool × St :=
  match s.regWatcher ctx with
  | none => (false, s)
  | some (s, .answered _ ok) => (ok, s)
  | some (s, .waiting w) =>
    if registers rc ctx.kind then (true, (s.answer w rc).setWatchData ctx.kind ctx.path (some (.ofContext ctx)))
    else (false, s.answer w rc)

/-- A call on a connected client that fails because `zoo_*` returned an error,
with the heap that should be left: of an asynchronous operation, of a
registration, or of the read in the callback of a watch, whose own context the
callback deletes. -/
inductive Rejected (s : St) : Heap Context → St → Prop
  | operation (op : Op) (rc : Rc) : s.isConnected = true → s.accepts (rc = .zok) = false →
      Rejected s s.heap (s.request op (rc = .zok))
  | registration {ctx : WatchContext} {rc : Rc} {t : St} : s.isConnected = true →
      s.registration ctx rc = (false, t) → Rejected s s.heap t
  | fetch {i : Nat} {w : WatchPtr} {type : EventType} {rc : Rc} : s.armed[i]? = some w →
      Watch.fetches w.ctx.kind type = true → rc ≠ .zok →
      Rejected s (s.heap.free w.ptr) (s.watchEvent i w type (rc = .zok))

def Traceless (heap : Heap Context) (t : St) : Prop := t.heap.live.Perm heap.live

section
variable {s t : St} {heap : Heap Context}

theorem request_heap (op : Op) {accepted : Bool} (hconn : s.isConnected = true) :
    (s.request op accepted).heap = s.heap.alloc (.op op) := by
  simp [St.request, hconn]

theorem regWatcher_some (hconn : s.isConnected = true) {zh : Nat} (hz : s.zhandle = some zh) (ctx : WatchContext) :
    s.regWatcher ctx = some ({ s with heap := s.heap.alloc (.watch ctx) }, .waiting ⟨s.heap.next, ctx⟩) := by
  simp [St.regWatcher, hconn, hz]

theorem registration_heap {ctx : WatchContext} {rc : Rc} (hconn : s.isConnected = true) :
    (s.registration ctx rc).2.heap = s.heap.alloc (.watch ctx) := by
  cases hz : s.zhandle with
  | none => simp [St.registration, St.regWatcher, hconn, hz]
  | some zh =>
    simp only [St.registration, regWatcher_some hconn hz]
    split <;> rfl

theorem watchEvent_heap {i : Nat} {w : WatchPtr} {type : EventType} {accepted : Bool}
    (hf : Watch.fetches w.ctx.kind type = true) :
    (s.watchEvent i w type accepted).heap = (s.heap.alloc (.fetch w.ctx)).free w.ptr := by
  have hne : type ≠ .session := by
    intro heq
    rw [heq] at hf
    cases hk : w.ctx.kind <;> rw [hk] at hf <;> cases hf
  simp [St.watchEvent, hne, hf, St.fetch, St.queueAutoReg]

theorem free_fetch (heap : Heap Context) (w : WatchPtr) (ctx : WatchContext) :
    ((heap.alloc (.fetch ctx)).free w.ptr).live = heap.ptr (.fetch ctx) :: (heap.free w.ptr).live := by
  have hne : heap.ptr (.fetch ctx) ≠ w.ptr := by
    intro heq
    cases congrArg Prod.snd heq
  exact List.erase_cons_tail (by simpa using hne)

theorem rejected_live (h : Rejected s heap t) : ∃ c, t.heap.live = s.heap.ptr c :: heap.live := by
  cases h with
  | operation op rc hconn _ => exact ⟨.op op, by rw [request_heap op hconn]; rfl⟩
  | @registration ctx rc _ hconn hfail =>
    refine ⟨.watch ctx, ?_⟩
    have hheap : (s.registration ctx rc).2.heap = s.heap.alloc (.watch ctx) := registration_heap hconn
    rw [hfail] at hheap
    rw [hheap]
    rfl
  | @fetch i w type rc _ hf _ => exact ⟨.fetch w.ctx, by rw [watchEvent_heap hf]; exact free_fetch s.heap w w.ctx⟩

/-- **Refused requests.** Each of them leaves a trace, in every state of the client. -/
theorem rejected_not_traceless (h : Rejected s heap t) : ¬ Traceless heap t := by
  intro hsame
  obtain ⟨c, hlive⟩ := rejected_live h
  have hlen := hsame.length_eq
  rw [hlive, List.length_cons] at hlen
  omega

theorem rejected_lost {op : Op} {rc : Rc} {rest : List Ptr} (ho : s.Owns rest) (hconn : s.isConnected = true)
    (hrefused : s.accepts (rc = .zok) = false) :
    (s.request op (rc = .zok)).Owns (s.heap.ptr (.op op) :: rest) ∧
      (s.request op (rc = .zok)).refs = s.refs + 1 := by
  have hreq : s.request op (rc = .zok) = { s with heap := s.heap.alloc (.op op) } := by
    simp [St.request, hconn, hrefused]
  rw [hreq]
  refine ⟨ho.alloc _, ?_⟩
  simp only [St.refs, Heap.alloc, List.length_cons]
  omega

theorem registration_act {ctx : WatchContext} {rc : Rc} (husers : 0 < s.users) (hconn : s.isConnected = true)
    (hz : s.zhandle.isSome = true) :
    Lts.run St.act s [.reg ctx.kind ctx.path (some ctx.handler) ctx.context, .answer 0 rc, .regReturn 0] =
      some (s.registration ctx rc).2 := by
  obtain ⟨zh, hz⟩ := Option.isSome_iff_exists.mp hz
  have hback : s.users - 1 + 1 = s.users := Nat.sub_add_cancel husers
  have hpos : s.users ≠ 0 := Nat.ne_of_gt husers
  cases hok : registers rc ctx.kind with
  | true => simp [Lts.run, St.act, hpos, St.reg, St.registration, regWatcher_some hconn hz, hok, St.answer, St.setWatchData, hback]
  | false => simp [Lts.run, St.act, hpos, St.reg, St.registration, regWatcher_some hconn hz, hok, St.answer, hback]

end

def watching : St := (Lts.run St.act .initial [.getZkClient, .reg .node ["a"] (some 1) 0, .answer 0 .zok, .regReturn 0]).get rfl

def watchOfA : WatchPtr := ⟨0, ⟨.node, ["a"], 1, 0⟩⟩

theorem rejected_fetch : ¬ Traceless (watching.heap.free watchOfA.ptr)
    (watching.watchEvent 0 watchOfA .changed (zbadarguments = .zok)) :=
  rejected_not_traceless (.fetch rfl rfl (by decide))

theorem not_traceless_getNode : ¬ ∀ s heap t, Rejected s heap t → Traceless heap t := by
  intro h
  have htrace := h .initial _ _ (.operation .getNode zbadarguments rfl rfl)
  exact absurd htrace.length_eq (by decide)

end ZkCppClient.Lifetime

import ZkCppClient.Ops.Completions
import ZkCppClient.Watch.Machine

/-!
# Three ways to read a node

Synchronous `getNode`, the completion of the asynchronous one and the fetch of a
watch each make a string of the pointer and the length that the library hands
out. The null datum comes as a null pointer with length -1, which only the
first looks for.
-/

namespace ZkCppClient.Ops

structure Datum where
  bytes : Option (List UInt8)
  bounded : ∀ bs ∈ bytes, bs.length ≤ kMaxNodeValueLength

def Datum.value (d : Datum) : String := stdString (d.bytes.getD [])

def Datum.length (d : Datum) : Int := d.bytes.elim (-1) fun bs => bs.length

/-- What `zoo_get` is answered: the code, the buffer, its new length and the version. -/
structure ReadEnv (σ : Type*) where
  isConnected : σ → Bool × σ
  zooGet : σ → String → Nat → (Rc × List UInt8 × Int × Int32) × σ

/-- Synchronous `getNode`. `value` and `version` are left as they were where nothing is read. -/
def getNode {σ : Type*} (E : ReadEnv σ) (s : σ) (path value : String) (version : Int32) :
    Option ((ZkErrorCode × String × Int32) × σ) :=
  match E.isConnected s with
  | (false, s) => some ((.kZKLostConnection, value, version), s)
  | (true, s) =>
    match E.zooGet s path kMaxNodeValueLength with
    | ((.zok, buffer, bufferLen, statVersion), s) =>
      if bufferLen ≠ -1 then (assign (some buffer) bufferLen).map fun value => ((.kZKSucceed, value, statVersion), s)
      else some ((.kZKSucceed, "", statVersion), s)
    | ((.znonode, _), s) => some ((.kZKNotExist, value, version), s)
    | (_, s) => some ((.kZKError, value, version), s)

/-- A server where every node holds this datum. -/
def holding (d : Datum) (version : Int32) : ReadEnv Unit where
  isConnected _ := (true, ())
  zooGet _ _ size :=
    -- what fits is copied into the zeroed buffer
    let copied := (d.bytes.getD []).take size
    ((.zok, copied ++ List.replicate (size - copied.length) 0, min d.length size, version), ())

structure ReadingsAgree (d : Datum) (version : Int32) : Prop where
  sync : ∀ path value oldVersion, getNode (holding d version) () path value oldVersion =
    some ((.kZKSucceed, d.value, version), ())
  async : ∀ ctx : ZkOperateContext, getNodeDataCompletion ctx .zok d.bytes d.length version =
    some (ctx.call .kZKSucceed (d.value, version))
  watch : ∀ (s : Watch.St) (c : Watch.ContextInWatcher), c.ctx.kind = .node →
    s.isShouldNotify c.ctx.kind c.ctx.path = true →
      s.fetched c (.data (assign d.bytes d.length) version) = some { s with
        log := s.log ++ [{ ctx := c.ctx, type := c.notifyType, value := d.value, version, zxid := c.zxid }] }

section
variable {d : Datum}

theorem assign_bytes {bs : List UInt8} (h : d.bytes = some bs) : assign d.bytes d.length = some d.value := by
  simp [assign, Datum.length, Datum.value, h]

theorem assign_null (h : d.bytes = none) : assign d.bytes d.length = none := by
  simp [assign, Datum.length, h]

theorem getNode_holding (d : Datum) (version : Int32) (path value : String) (oldVersion : Int32) :
    getNode (holding d version) () path value oldVersion = some ((.kZKSucceed, d.value, version), ()) := by
  obtain ⟨bytes, hbounded⟩ := d
  cases bytes with
  | none => rfl
  | some bs =>
    have hlen : bs.length ≤ kMaxNodeValueLength := hbounded bs rfl
    have hmin : min (bs.length : Int) kMaxNodeValueLength = bs.length := by omega
    have hne : (bs.length : Int) ≠ -1 := by omega
    simp [getNode, holding, Datum.length, hmin, hne, assign, List.take_of_length_le hlen, Datum.value]

theorem fetched_bytes {s : Watch.St} {c : Watch.ContextInWatcher} (hk : c.ctx.kind = .node)
    (hreg : s.isShouldNotify c.ctx.kind c.ctx.path = true) (value : String) (version : Int32) :
    s.fetched c (.data (some value) version) = some { s with
      log := s.log ++ [{ ctx := c.ctx, type := c.notifyType, value, version, zxid := c.zxid }] } := by
  simp [Watch.St.fetched, hk, Watch.getNodeDataOnWatcher, Watch.St.notify, hk ▸ hreg]

end

/-- **Reading a node.** The three ways agree just on the data that are not null. -/
theorem readingsAgree_iff (d : Datum) (version : Int32) : ReadingsAgree d version ↔ d.bytes ≠ none := by
  constructor
  · intro h hnull
    have hasync := h.async ⟨"/a", 0, 0⟩
    rw [getNodeDataCompletion, assign_null hnull] at hasync
    cases hasync
  · intro hne
    obtain ⟨bs, hbs⟩ := Option.ne_none_iff_exists'.mp hne
    have hassign := assign_bytes hbs
    refine ⟨getNode_holding d version, fun ctx => ?_, fun s c hk hreg => ?_⟩
    · rw [getNodeDataCompletion, hassign]
      rfl
    · rw [hassign]
      exact fetched_bytes hk hreg d.value version

/-- The null datum, which the library itself writes into every directory it makes. -/
theorem not_readingsAgree_null : ¬ ReadingsAgree ⟨none, nofun⟩ 0 := by
  intro h
  have hasync := h.async ⟨"/a", 0, 0⟩
  cases hasync

end ZkCppClient.Ops

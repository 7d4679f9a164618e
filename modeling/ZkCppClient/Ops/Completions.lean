import ZkCppClient.Basic

/-!
# Completions of the reads and of `set`

The library completes an asynchronous request with a return code and, where
that is ZOK, with what was read. Each completion asserts the codes it expects;
`none` is a failed assert, or `std::string::assign` with a length that is no
length.
-/

namespace ZkCppClient.Ops

def kMaxNodeValueLength : Nat := 32 * 1024

def stdString (bytes : List UInt8) : String := String.ofList (bytes.map Char.ofUInt8)

/-- `std::string::assign(s, n)`, with the `int` converted to `size_t`: a negative
one exceeds every string's maximal size. -/
def assign (s : Option (List UInt8)) (n : Int) : Option String :=
  if n < 0 then none else some (stdString ((s.getD []).take n.toNat))

structure ZkOperateContext where
  path : String
  handler : Nat
  context : Nat

structure HandlerCall (ρ : Type) where
  handler : Nat
  errcode : ZkErrorCode
  path : String
  result : ρ
  context : Nat
  deriving DecidableEq, Repr

def ZkOperateContext.call {ρ : Type} (ctx : ZkOperateContext) (errcode : ZkErrorCode) (result : ρ) : HandlerCall ρ :=
  ⟨ctx.handler, errcode, ctx.path, result, ctx.context⟩

def completion {ρ : Type} (asserted : List Rc) (ctx : ZkOperateContext) (rc : Rc) (succeed : Option ρ) (failed : ρ) :
    Option (HandlerCall ρ) :=
  if rc ∉ asserted then none else
  match rc with
  | .zok => succeed.map (ctx.call .kZKSucceed)
  | .znonode => some (ctx.call .kZKNotExist failed)
  | _ => some (ctx.call .kZKError failed)

def readAsserted : List Rc := [.zok, .zconnectionloss, .zoperationtimeout, .znoauth, .znonode, .zclosing]

def setAsserted : List Rc := [.zok, .zconnectionloss, .zoperationtimeout, .zbadversion, .znoauth, .znonode, .zclosing]

def getNodeDataCompletion (ctx : ZkOperateContext) (rc : Rc) (value : Option (List UInt8)) (valueLen : Int)
    (version : Int32) : Option (HandlerCall (String × Int32)) :=
  completion readAsserted ctx rc ((assign value valueLen).map (·, version)) ("", kInvalidDataVersion)

def getChildrenStringCompletion (ctx : ZkOperateContext) (rc : Rc) (strings : List String) :
    Option (HandlerCall (List String)) :=
  completion readAsserted ctx rc (some strings) []

def existCompletion (ctx : ZkOperateContext) (rc : Rc) : Option (HandlerCall Unit) :=
  completion readAsserted ctx rc (some ()) ()

def setCompletion (ctx : ZkOperateContext) (rc : Rc) (version : Int32) : Option (HandlerCall Int32) :=
  completion setAsserted ctx rc (some version) kInvalidDataVersion

end ZkCppClient.Ops

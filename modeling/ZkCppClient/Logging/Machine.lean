import Mathlib.Data.List.Basic
import ZkCppClient.Lib.Run

/-!
# The log

`AsyncLogging`, which the manager starts first and every log line of the client
goes through. Any number of threads append their lines to a buffer; the log
thread takes the full buffers and the current one and writes them to the file,
while two buffers of its own take their places. The sections under `mutex_` are
a step each, parted by the wait.
-/

namespace ZkCppClient.Logging

def kLargeBuffer : Nat := 4000 * 1000

/-- A line, whose length is an `int`. -/
abbrev Logline := { l : List UInt8 // l.length < 2147483648 }

/-- `FixedBuffer<kLargeBuffer>`; `append` never fills it. -/
structure Buffer where
  data : List UInt8
  room : data.length < kLargeBuffer
  deriving DecidableEq

def Buffer.new : Buffer := ⟨[], by decide⟩

def Buffer.avail (b : Buffer) : Nat := kLargeBuffer - b.data.length

def Buffer.append (b : Buffer) (logline : Logline) : Buffer :=
  if h : logline.val.length < b.avail then ⟨b.data ++ logline.val, by simp [Buffer.avail] at h ⊢; omega⟩ else b

inductive Chunk
  | data (bytes : List UInt8)
  | dropped (n : Nat)  -- the message "Dropped log messages", with the number of buffers
  deriving DecidableEq

inductive Pc
  | notStarted
  | top  -- before it reads `running_`
  | locking
  | waiting (notified : Bool)  -- in `cond_.waitForSeconds`
  | taken  -- the buffers are its own
  | writing (i : Nat)
  | recycling
  | done
  deriving DecidableEq, Repr

inductive Fault
  | assertion
  | null  -- a null buffer is dereferenced or pushed back
  deriving DecidableEq, Repr

structure St where
  running : Bool := false
  currentBuffer : Option Buffer := some .new
  nextBuffer : Option Buffer := some .new
  buffers : List Buffer := []
  newBuffer1 : Option Buffer := none
  newBuffer2 : Option Buffer := none
  buffersToWrite : List Buffer := []
  output : List Chunk := []
  flushed : Nat := 0  -- of the output
  pc : Pc := .notStarted
  fault : Option Fault := none

inductive Act
  | start
  | append (logline : Logline)
  | stop
  | notify  -- by `stop`
  | wake  -- the time is up, or for no reason
  | thread
  deriving DecidableEq

/-! ## The lines -/

def Pc.notify : Pc → Pc
  | .waiting _ => .waiting true
  | pc => pc

def St.append (s : St) (logline : Logline) : St :=
  match s.currentBuffer with
  | none => { s with fault := some .null }
  | some current =>
    if current.avail > logline.val.length then { s with currentBuffer := some (current.append logline) }
    else { s with
      buffers := s.buffers ++ [current]
      currentBuffer := some ((s.nextBuffer.getD .new).append logline)
      nextBuffer := none
      pc := s.pc.notify }

/-! ## The log thread -/

/-- The assertions at the beginning of a round. -/
def St.ready (s : St) : Bool :=
  (s.newBuffer1.any fun b => b.data = []) && (s.newBuffer2.any fun b => b.data = []) && s.buffersToWrite = []

def St.swap (s : St) : St :=
  match s.currentBuffer with
  | none => { s with fault := some .null }
  | some current => { s with
    buffersToWrite := s.buffers ++ [current]
    buffers := s.buffersToWrite
    currentBuffer := s.newBuffer1
    newBuffer1 := none
    nextBuffer := if s.nextBuffer.isNone then s.newBuffer2 else s.nextBuffer
    newBuffer2 := if s.nextBuffer.isNone then none else s.newBuffer2
    pc := .taken }

/-- `pop_back` and `reset`; the buffer that the thread has already stays. -/
def reclaim (newBuffer : Option Buffer) (buffersToWrite : List Buffer) : Option (Option Buffer × List Buffer) :=
  match newBuffer with
  | some b => some (some b, buffersToWrite)
  | none => if buffersToWrite = [] then none else some (some .new, buffersToWrite.dropLast)

def St.recycle (s : St) : St :=
  match reclaim s.newBuffer1 (s.buffersToWrite.take 2) with
  | none => { s with fault := some .assertion }
  | some (newBuffer1, buffersToWrite) =>
    match reclaim s.newBuffer2 buffersToWrite with
    | none => { s with fault := some .assertion }
    | some (newBuffer2, _) => { s with newBuffer1, newBuffer2, buffersToWrite := [], flushed := s.output.length, pc := .top }

def St.threadStep (s : St) : Option St :=
  match s.pc with
  | .notStarted | .waiting false | .done => none
  | .top =>
    if s.running then some (if s.ready then { s with pc := .locking } else { s with fault := some .assertion })
    else some { s with flushed := s.output.length, pc := .done }
  | .locking => some (if s.buffers = [] then { s with pc := .waiting false } else s.swap)
  | .waiting true => some s.swap
  | .taken =>
    if s.buffersToWrite = [] then some { s with fault := some .assertion }
    else if s.buffersToWrite.length > 25 then some { s with
      output := s.output ++ [.dropped (s.buffersToWrite.length - 2)]
      buffersToWrite := s.buffersToWrite.take 2
      pc := .writing 0 }
    else some { s with pc := .writing 0 }
  | .writing i =>
    match s.buffersToWrite[i]? with
    | some b => some { s with output := s.output ++ [.data b.data], pc := .writing (i + 1) }
    | none => some { s with pc := .recycling }
  | .recycling => some s.recycle

def step (s : St) (a : Act) : Option St :=
  if s.fault ≠ none then none
  else match a with
    | .start =>
      if s.pc = .notStarted then
        some { s with running := true, newBuffer1 := some .new, newBuffer2 := some .new, pc := .top }
      else none
    | .append logline => some (s.append logline)
    | .stop => some { s with running := false }
    | .notify => some { s with pc := s.pc.notify }
    | .wake => match s.pc with
      | .waiting _ => some s.swap
      | _ => none
    | .thread => s.threadStep

end ZkCppClient.Logging

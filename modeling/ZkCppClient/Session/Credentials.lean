import Mathlib.Data.UInt
import Mathlib.Data.Vector.Defs
import ZkCppClient.Basic
import ZkCppClient.Lib.CString

/-!
# The credentials of a session

`getClientId` copies the session id and the password of a connected handle out
of the C library, and `init` copies them back in for a client that is to take
the session over. The password is binary and both copies are `strncpy`.
-/

namespace ZkCppClient.Credentials

abbrev Passwd := List.Vector UInt8 16

structure SessionClientId where
  client_id : Int64
  passwd : Passwd
  deriving DecidableEq

def SessionClientId.new : SessionClientId := ⟨0, List.Vector.replicate 16 0⟩

def Passwd.strncpy (dst src : Passwd) : Passwd :=
  ⟨CString.strncpy dst.toList src.toList 16, CString.length_strncpy dst.toList_length src.toList⟩

structure ZkClient where
  handle : UInt32
  host : String := ""
  sessionTimeout : Int32 := 0
  sessionState : SessState := .connecting
  zhandle : Option Nat := none
  clientId : Option SessionClientId := none

def ZkClient.isConnected (client : ZkClient) : Bool := client.sessionState = .connected

/-- The arguments of a `zookeeper_init`; `context` is the handle in the callback data. -/
structure ZookeeperInit where
  host : String
  recvTimeout : Int32
  clientid : Option SessionClientId
  context : UInt32

/-- What `getClientId` returns, with the argument it writes to. -/
def getClientId (zoo_client_id : Option Nat → Option SessionClientId) (client : ZkClient) (cliId : SessionClientId) :
    Bool × SessionClientId :=
  if client.isConnected then
    match zoo_client_id client.zhandle with
    | some pClientId => (true, ⟨pClientId.client_id, cliId.passwd.strncpy pClientId.passwd⟩)
    | none => (false, cliId)
  else (false, cliId)

def configure (client : ZkClient) (host : String) (timeout : Int32) (clientId : Option SessionClientId) : ZkClient :=
  { client with
    sessionTimeout := timeout
    host := host
    clientId := clientId.map fun id => ⟨id.client_id, SessionClientId.new.passwd.strncpy id.passwd⟩ }

def zookeeperInit (client : ZkClient) : ZookeeperInit :=
  ⟨client.host, client.sessionTimeout, client.clientId, client.handle⟩

def createZkClient (handle : UInt32) (host : String) (timeout : Int32) (clientId : Option SessionClientId) :
    ZookeeperInit :=
  zookeeperInit (configure { handle } host timeout clientId)

section
variable (zoo_client_id : Option Nat → Option SessionClientId)

/-- The way of a session's credentials through the two functions: `getClientId`
succeeds with them, and `createZkClient` hands them to the library. -/
def Survives (session : SessionClientId) (client : ZkClient) (cliId : SessionClientId) (handle : UInt32)
    (host : String) (timeout : Int32) : Prop :=
  getClientId zoo_client_id client cliId = (true, session) ∧
    (createZkClient handle host timeout (some (getClientId zoo_client_id client cliId).2)).clientid = some session

theorem Passwd.strncpy_toList (dst src : Passwd) : (dst.strncpy src).toList = CString.written 16 src.toList :=
  CString.strncpy_full dst.toList_length src.toList

theorem Passwd.strncpy_eq_iff (dst src : Passwd) : dst.strncpy src = src ↔ CString.ZeroTail src.toList := by
  rw [← CString.written_eq_iff src.toList_length, ← Passwd.strncpy_toList dst src]
  exact ⟨fun h => by rw [h], fun h => Subtype.ext h⟩

theorem Passwd.strncpy_strncpy (dst dst' src : Passwd) : dst'.strncpy (dst.strncpy src) = dst.strncpy src := by
  refine (Passwd.strncpy_eq_iff dst' _).mpr ?_
  rw [Passwd.strncpy_toList]
  exact CString.zeroTail_written 16 src.toList

variable {zoo_client_id} {client : ZkClient} {session : SessionClientId}

theorem getClientId_of_connected (hconn : client.sessionState = .connected)
    (hid : zoo_client_id client.zhandle = some session) (cliId : SessionClientId) :
    getClientId zoo_client_id client cliId = (true, ⟨session.client_id, cliId.passwd.strncpy session.passwd⟩) := by
  simp [getClientId, ZkClient.isConnected, hconn, hid]

theorem createZkClient_getClientId (hconn : client.sessionState = .connected)
    (hid : zoo_client_id client.zhandle = some session) (cliId : SessionClientId) (handle : UInt32) (host : String)
    (timeout : Int32) :
    (createZkClient handle host timeout (some (getClientId zoo_client_id client cliId).2)).clientid =
      some ⟨session.client_id, cliId.passwd.strncpy session.passwd⟩ := by
  rw [getClientId_of_connected hconn hid]
  simp [createZkClient, zookeeperInit, configure, Passwd.strncpy_strncpy]

/-- The comparison in the library's test passes for every password. -/
theorem getClientId_same (hconn : client.sessionState = .connected)
    (hid : zoo_client_id client.zhandle = some session) (cliId : SessionClientId) :
    CString.same 16 (getClientId zoo_client_id client cliId).2.passwd.toList session.passwd.toList = true := by
  rw [getClientId_of_connected hconn hid]
  dsimp only
  rw [Passwd.strncpy_toList]
  have hsame := CString.same_written session.passwd.toList
  rwa [List.Vector.toList_length] at hsame

/-- Credentials survive just when no byte of the password but zeros follows a zero. -/
theorem survives_iff (hconn : client.sessionState = .connected) (hid : zoo_client_id client.zhandle = some session)
    (cliId : SessionClientId) (handle : UInt32) (host : String) (timeout : Int32) :
    Survives zoo_client_id session client cliId handle host timeout ↔ CString.ZeroTail session.passwd.toList := by
  unfold Survives
  rw [createZkClient_getClientId hconn hid, getClientId_of_connected hconn hid,
    ← Passwd.strncpy_eq_iff cliId.passwd session.passwd]
  refine ⟨fun h => ?_, fun h => ?_⟩
  · exact congrArg SessionClientId.passwd (Prod.mk.inj h.1).2
  · rw [h]
    exact ⟨rfl, rfl⟩

end

def binaryPasswd : Passwd := ⟨[0, 1, 2, 3, 4, 5, 6, 7, 8, 9, 10, 11, 12, 13, 14, 15], rfl⟩

def textPasswd : Passwd := ⟨[1, 2, 3, 4, 5, 6, 7, 8, 9, 10, 11, 12, 13, 14, 15, 16], rfl⟩

def connectedClient : ZkClient := { handle := 2, sessionState := .connected, zhandle := some 0 }

theorem survives_text : Survives (fun _ => some ⟨7, textPasswd⟩) ⟨7, textPasswd⟩ connectedClient .new 3 "" 4000 ↔
    CString.ZeroTail textPasswd.toList :=
  survives_iff rfl rfl .new 3 "" 4000

theorem binaryPasswd_lost : ¬ Survives (fun _ => some ⟨7, binaryPasswd⟩) ⟨7, binaryPasswd⟩ connectedClient .new 3 "" 4000 := by
  rintro ⟨h, -⟩
  revert h
  decide

end ZkCppClient.Credentials

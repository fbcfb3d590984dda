import Rtsrv.Config.Sot

/-!
# Rtsrv.Config.Common — the loaders of server and client settings (`common/src/config.cpp`)

Every setting has a default and is taken from the document where the key is there.  A port is checked to
be in 1..65535, on the `int` that the number in the document has been cast to.
-/

namespace Rtsrv.Config.Common

open Lib Json

/-! ### Fields -/

/-- A value with a default; what it must be is what the error says. -/
def getValue {α : Type} (read : Json → Option α) (kind : String) (obj : Object) (key : String) (dflt : α) :
    Except String α :=
  match ifContains obj key with
  | none => .ok dflt
  | some val =>
    match read val with
    | none => .error ("Key '" ++ key ++ "' must be " ++ kind)
    | some a => .ok a

def getString (obj : Object) (key dflt : String) : Except String String :=
  getValue ifString "a string" obj key dflt

def getBool (obj : Object) (key : String) (dflt : Bool) : Except String Bool :=
  getValue (fun | .bool b => some b | _ => none) "a boolean" obj key dflt

/-- `static_cast<int>` of either kind of integer. -/
def castInt : Json → Option Int32
  | .int64 i => some i.toInt32
  | .uint64 u => some u.toUInt32.toInt32
  | _ => none

def getInt (obj : Object) (key : String) (dflt : Int32) : Except String Int32 :=
  getValue castInt "an integer" obj key dflt

/-- A port, with the check that `parseListen` and `parseClient` make. -/
def getPort (obj : Object) (key : String) : Except String UInt16 := do
  let port ← getInt obj key 50051
  if port < 1 ∨ 65535 < port then .error (key ++ " " ++ toString port ++ " out of range [1, 65535]")
  else .ok port.toUInt32.toUInt16

/-! ### Sections -/

structure DaemonConfig where
  pid_file : String := "/run/srmd/srmd.pid"
  log_file : String := "/var/log/srmd/srmd.log"
  log_level : String := "info"
  working_dir : String := "/"
  deriving DecidableEq, Repr

structure ListenConfig where
  listen_host : String := "0.0.0.0"
  listen_port : UInt16 := 50051
  tls_enabled : Bool := false
  tls_cert : String := ""
  tls_key : String := ""
  deriving DecidableEq, Repr

structure ServerConfig where
  daemon : DaemonConfig := {}
  server : ListenConfig := {}
  deriving DecidableEq, Repr

structure ClientConfig where
  server_host : String := "127.0.0.1"
  server_port : UInt16 := 50051
  tls_enabled : Bool := false
  ca_cert : String := ""
  timeout_seconds : Int32 := 10
  loopback : String := ""
  deriving DecidableEq, Repr

def parseDaemon (obj : Object) : Except String DaemonConfig := do
  let pidFile ← getString obj "pid_file" "/run/srmd/srmd.pid"
  let logFile ← getString obj "log_file" "/var/log/srmd/srmd.log"
  let logLevel ← getString obj "log_level" "info"
  let workingDir ← getString obj "working_dir" "/"
  pure { pid_file := pidFile, log_file := logFile, log_level := logLevel, working_dir := workingDir }

def parseListen (obj : Object) : Except String ListenConfig := do
  let host ← getString obj "listen_host" "0.0.0.0"
  let port ← getPort obj "listen_port"
  let tlsEnabled ← getBool obj "tls_enabled" false
  let cert ← getString obj "tls_cert" ""
  let key ← getString obj "tls_key" ""
  pure {
    listen_host := host, listen_port := port, tls_enabled := tlsEnabled, tls_cert := cert, tls_key := key }

def parseClient (obj : Object) : Except String ClientConfig := do
  let host ← getString obj "host" "127.0.0.1"
  let port ← getPort obj "port"
  let tlsEnabled ← getBool obj "tls_enabled" false
  let caCert ← getString obj "ca_cert" ""
  let timeout ← getInt obj "timeout" 10
  pure {
    server_host := host, server_port := port, tls_enabled := tlsEnabled, ca_cert := caCert,
    timeout_seconds := timeout }

/-! ### The loaders -/

variable (files : Files)

/-- Here a read that breaks off is not noticed. -/
def readFile (path : String) : Except String String :=
  match files.read path with
  | none => .error ("Cannot open file: '" ++ path ++ "'")
  | some file => .ok file.content

def readDocument (path : String) : Except String Document := do
  let raw ← readFile files path
  match files.parse raw with
  | .error ec => .error ("JSON parse error in '" ++ path ++ "': " ++ ec.message)
  | .ok root => .ok root

/-- `loadServerConfig` from the parsed document on. -/
def serverConfig (path : String) (root : Json) : Except String ServerConfig := do
  let rootObj ← requireObject root ("'" ++ path ++ "': root must be a JSON object")
  let daemon ← optionalObject rootObj "daemon" ("'" ++ path ++ "': 'daemon' must be an object") {} parseDaemon
  let server ← optionalObject rootObj "server" ("'" ++ path ++ "': 'server' must be an object") {} parseListen
  pure ⟨daemon, server⟩

def loadServerConfig (path : String) : Except String ServerConfig := do
  let document ← readDocument files path
  serverConfig path document.root

/-- `loadClientConfig` from the parsed document on. -/
def clientConfig (path : String) (root : Json) : Except String ClientConfig := do
  let rootObj ← requireObject root ("'" ++ path ++ "': root must be a JSON object")
  let config ← optionalObject rootObj "server" ("'" ++ path ++ "': 'server' must be an object") {} parseClient
  let loopback ← getString rootObj "loopback" config.loopback
  pure { config with loopback := loopback }

def loadClientConfig (path : String) : Except String ClientConfig := do
  let document ← readDocument files path
  clientConfig path document.root

/-- An empty section leaves every setting at its default, which passes the checks. -/
example : serverConfig "" (.object [("daemon", .object []), ("server", .object [])]) = .ok {} := rfl

/-! ### What is taken over -/

theorem getValue_ok {α : Type} {read : Json → Option α} {kind : String} {obj : Object} {key : String}
    {dflt a : α} :
    getValue read kind obj key dflt = .ok a ↔
      (ifContains obj key = none ∧ a = dflt) ∨ ∃ v, ifContains obj key = some v ∧ read v = some a := by
  unfold getValue
  cases ifContains obj key with
  | none => simp [eq_comm]
  | some v => cases hread : read v <;> simp [hread]

theorem getPort_ok {obj : Object} {key : String} {p : UInt16} :
    getPort obj key = .ok p ↔
      ∃ port, getInt obj key 50051 = .ok port ∧ 1 ≤ port ∧ port ≤ 65535 ∧ port.toUInt32.toUInt16 = p := by
  rw [getPort, except_bind_ok]
  refine exists_congr fun port => and_congr_right fun _ => ?_
  split_ifs with hrange
  · refine iff_of_false (by simp) ?_
    rintro ⟨hlow, hhigh, -⟩
    exact hrange.elim (fun h => Int32.not_lt.mpr hlow h) (fun h => Int32.not_lt.mpr hhigh h)
  · rw [not_or, Int32.not_lt, Int32.not_lt] at hrange
    simp only [Except.ok.injEq, hrange.1, hrange.2, true_and]

end Rtsrv.Config.Common

import Tr50.Machinery.Heap
import Tr50.Mqtt.Client
import Tr50.Util.Proxy

/-!
# Api/Config — the strings of a client

`tr50.config.c`, the connection parameters of `mqtt.c`, and what `tr50_create`, `tr50_start2`,
`tr50_stop` and `tr50_delete` (`tr50.c`) do with them.  The setters keep copies, `tr50_start2`
copies the copies into a parameter block, and `mqtt_connect` reads that block at the start and
whenever the receive thread reconnects.

`ConfigClient` is the client over a heap, every string a pointer; `none` is a block that is freed
twice, or used after it has been freed, or NULL looked into, or a connection with strings the code
of `mqtt_connect` is undefined for.  `ConfigSpec` is what it is for: strings as values, and the
count of the blocks that nobody has any more.  The client refines it (`Configured.call`) in every
run in which no name or password that is set is reset to NULL, no start lacks a host or a client id,
and no connection goes wrong with its strings; other runs never get through `tr50_delete`
(`config_delete_iff`).
-/

namespace Tr50

open Machinery

/-! ## Strings and numbers -/

/-- The strings of a configuration. -/
inductive ConfigField
  | clientId
  | host
  | username
  | password
  | proxyAddr
  | proxyUsername
  | proxyPassword
deriving DecidableEq, Repr

/-- …in the order in which `_tr50_config_delete` frees them. -/
def ConfigField.all : List ConfigField :=
  [clientId, host, username, password, proxyAddr, proxyUsername, proxyPassword]

/-- `_TR50_CONFIG`, its strings as `τ`, without the handlers. -/
structure Tr50Config (τ : Type) where
  text : ConfigField → Option τ
  port : ℤ
  ssl : Bool
  httpsProxy : Bool
  keepaliveInMs : ℤ
  timeoutInMs : ℤ
  compress : Bool
  proxyType : ℤ

/-- `_MQTT_COONNECT_PARAMS`; the client id is an array. -/
@[ext]
structure ConnectParams (τ : Type) where
  clientId : List UInt8
  text : ConfigField → Option τ
  port : ℤ
  keepaliveInSec : UInt16
  useSsl : Bool
  useHttpsProxy : Bool
  proxyType : ℤ

/-- All zero. -/
def Tr50Config.zero {τ : Type} : Tr50Config τ :=
  ⟨fun _ => none, 0, false, false, 0, 0, false, 0⟩

/-- What `mqtt_connect_params_create` begins with. -/
def Tr50Config.params {τ : Type} (config : Tr50Config τ) (clientId : List UInt8) :
    ConnectParams τ :=
  ⟨clientId.take 23, fun _ => none, config.port, UInt16.ofInt (config.keepaliveInMs.tdiv 1000),
    false, false, 0⟩

/-- The same parameters with other strings. -/
def ConnectParams.retext {τ σ : Type} (params : ConnectParams τ) (text : ConfigField → Option σ) :
    ConnectParams σ :=
  ⟨params.clientId, text, params.port, params.keepaliveInSec, params.useSsl, params.useHttpsProxy,
    params.proxyType⟩

/-! ## Connecting -/

/-- What one `mqtt_connect` meets. -/
inductive ConnectMeets
  /-- No memory for its client. -/
  | client
  /-- No socket: `_tcp_connect` fails before it has put the address together. -/
  | socket
  /-- A network, the result of `_mqtt_https_connect`, and the allocator's answer to the CONNECT. -/
  | network (peer : ProxyPeer) (httpsConnect : ℤ) (malloc : Bool)

namespace ConnectParams

variable (params : ConnectParams (List UInt8))

/-- The connection to a proxy: `strchr` of its address comes before everything. -/
def connectsProxy (meets : ConnectMeets) : Option Unit := do
  let addr ← params.text .proxyAddr
  match meets with
  | .client => some ()
  | .socket => (proxyEndpoint params.proxyType addr).map fun _ => ()
  | .network peer _ _ =>
    let run := tcpConnectProxy peer ((params.text .host).getD []) params.port
      (if params.useSsl then 4 else 0) params.proxyType addr (params.text .proxyUsername)
      (params.text .proxyPassword)
    if run.ending = .undefined then none else some ()

/-- The connection to the host, and the packet that goes to it. -/
def connectsHost (meets : ConnectMeets) : Option Unit :=
  match meets with
  | .network peer httpsConnect malloc => do
    let host ← params.text .host
    let _ ← sprintf (host ++ [ch ':'] ++ decimalText (toInt32 params.port)) 512
    if peer.connect ≠ 0 ∨ params.useHttpsProxy ∧ httpsConnect ≠ 0 then some ()
    else
      let msg := mqttMsgBuildConnect malloc params.clientId (params.text .username)
        (params.text .password) params.keepaliveInSec
      (packetOf msg).map fun _ => ()
  | _ => some ()

/-- What `mqtt_connect` does with its strings; `none` where it is undefined. -/
def connects (meets : ConnectMeets) : Option Unit :=
  match meets with
  | .client => some ()
  | _ => if 0 < params.proxyType then params.connectsProxy meets else params.connectsHost meets

end ConnectParams

/-! ## Calls -/

/-- One call of the client's owner, with what it meets: the allocator's answers, by their place in
the source, the results of `_compress_is_supported`, `mqtt_async_connect` and
`mqtt_async_disconnect`, and what the `mqtt_connect` meets that `mqtt_async_connect` gets to, if it
does.  `reconnect` is the receive thread's. -/
inductive ConfigCall
  | setHost (malloc : Bool) (host : List UInt8)
  | setClientId (malloc : Bool) (clientId : List UInt8)
  | setUsername (malloc : Bool) (username : Option (List UInt8))
  | setPassword (malloc : Bool) (password : Option (List UInt8))
  | setProxy (malloc : ℕ → Bool) (type : ℤ) (addr username password : Option (List UInt8))
  | setPort (port : ℤ)
  | setKeeplive (keepaliveInMs : ℤ)
  | setTimeout (timeoutInMs : ℤ)
  | setSsl (enabled : Bool)
  | setHttpsProxy (enabled : Bool)
  | setCompress (supported enabled : Bool)
  | start (malloc : ℕ → Bool) (meets : Option ConnectMeets) (connect : ℤ)
  | stop (disconnect : ℤ)
  | reconnect (meets : ConnectMeets)

/-! ## The client -/

/-- What is on the heap: the client itself, strings, and parameter blocks. -/
inductive ConfigBlock
  | client
  | text (s : List UInt8)
  | params (params : ConnectParams ℕ)

/-- `_TR50_CLIENT`, as far as its configuration goes. -/
structure ConfigClient where
  heap : Heap ConfigBlock
  config : Tr50Config ℕ
  params : Option ℕ
  started : Bool

namespace ConfigClient

variable (malloc : ℕ → Bool) (s : ConfigClient)

/-- The client of `tr50_create`, before its first setter. -/
def blank : ConfigClient := ⟨Heap.empty.put .client, .zero, none, false⟩

/-- `config->f = _memory_clone(text)` -/
def cloneText (f : ConfigField) (granted : Bool) (text : List UInt8) : ConfigClient :=
  { s with
    heap := (s.heap.clone granted (.text text)).2
    config.text := Function.update s.config.text f (s.heap.clone granted (.text text)).1 }

/-- …where there is a text. -/
def cloneIf (f : ConfigField) (granted : Bool) : Option (List UInt8) → ConfigClient
  | none => s
  | some text => s.cloneText f granted text

/-- The string is freed; the field is not cleared. -/
def freeText (f : ConfigField) : Option ConfigClient :=
  (s.heap.freeEach [s.config.text f]).map fun heap => { s with heap }

/-- A setter of one string. -/
def setText (f : ConfigField) (granted : Bool) (text : Option (List UInt8)) : Option ConfigClient :=
  (s.freeText f).map fun s => s.cloneIf f granted text

def tr50ConfigSetHost (granted : Bool) (host : List UInt8) : Option ConfigClient :=
  s.setText .host granted (some host)

def tr50ConfigSetClientId (granted : Bool) (clientId : List UInt8) : Option ConfigClient :=
  s.setText .clientId granted (some clientId)

def tr50ConfigSetUsername (granted : Bool) (username : Option (List UInt8)) :
    Option ConfigClient := s.setText .username granted username

def tr50ConfigSetPassword (granted : Bool) (password : Option (List UInt8)) :
    Option ConfigClient := s.setText .password granted password

/-- The fields of the proxy set to NULL. -/
def clearProxy : ConfigClient :=
  { s with
    config.text := fun f =>
      if f = .proxyAddr ∨ f = .proxyUsername ∨ f = .proxyPassword then none else s.config.text f }

/-- `tr50_config_set_proxy`; the three strings are freed first, and their fields cleared. -/
def tr50ConfigSetProxy (type : ℤ) (addr username password : Option (List UInt8)) :
    Option ConfigClient :=
  (s.heap.freeEach [s.config.text .proxyAddr, s.config.text .proxyUsername,
      s.config.text .proxyPassword]).map fun heap =>
    let s := clearProxy { s with heap, config.proxyType := type }
    let s := s.cloneIf .proxyAddr (malloc 0) addr
    let s := s.cloneIf .proxyUsername (malloc 1) username
    s.cloneIf .proxyPassword (malloc 2) password

/-- The string of a field. -/
def readText (f : ConfigField) : Option (List UInt8) :=
  match (s.config.text f).bind s.heap.block with
  | some (.text text) => some text
  | _ => none

/-- The parameter block, if it is there. -/
def readParams : Option (ConnectParams ℕ) :=
  match s.params.bind s.heap.block with
  | some (.params params) => some params
  | _ => none

/-- A parameter is set. -/
def setParams (change : ConnectParams ℕ → ConnectParams ℕ) : Option ConfigClient := do
  let p ← s.params
  let params ← s.readParams
  let heap ← s.heap.write p (.params (change params))
  some { s with heap }

/-- `params->f = _memory_clone(config->f)` -/
def copyText (f : ConfigField) (granted : Bool) : Option ConfigClient := do
  let text ← s.readText f
  setParams { s with heap := (s.heap.clone granted (.text text)).2 } fun params =>
    { params with text := Function.update params.text f (s.heap.clone granted (.text text)).1 }

/-- …where the field is not NULL. -/
def copyIf (f : ConfigField) (granted : Bool) : Option ConfigClient :=
  if (s.config.text f).isSome then s.copyText f granted else some s

/-- `mqtt_connect_params_create`, its result ignored. -/
def mqttConnectParamsCreate : Option ConfigClient :=
  if malloc 0 then do
    let clientId ← s.readText .clientId
    copyText { s with
      heap := s.heap.put (.params (s.config.params clientId))
      params := some s.heap.next } .host (malloc 1)
  else some s

def mqttConnectParamsUseProxy : Option ConfigClient := do
  let s ← s.setParams fun params => { params with proxyType := s.config.proxyType }
  let s ← s.copyIf .proxyAddr (malloc 2)
  let s ← s.copyIf .proxyUsername (malloc 3)
  s.copyIf .proxyPassword (malloc 4)

def mqttConnectParamsUseSsl : Option ConfigClient :=
  s.setParams fun params => { params with useSsl := true }

def mqttConnectParamsUseHttpsProxy : Option ConfigClient :=
  s.setParams fun params => { params with useSsl := true, useHttpsProxy := true }

def mqttConnectParamsSetUsername : Option ConfigClient := do
  let s ← s.copyText .username (malloc 5)
  s.copyText .password (malloc 6)

/-- The string of a parameter. -/
def paramText (params : ConnectParams ℕ) (f : ConfigField) : Option (List UInt8) :=
  match (params.text f).bind s.heap.block with
  | some (.text text) => some text
  | _ => none

/-- `mqtt_connect` reads the parameters and the strings there are, and connects with them. -/
def mqttConnectReads (meets : ConnectMeets) : Option ConfigClient := do
  let params ← s.readParams
  if ConfigField.all.all fun f => (params.text f).all fun p => (s.heap.block p).isSome then
    ((params.retext (s.paramText params)).connects meets).map fun _ => s
  else none

/-- …if `mqtt_async_connect` gets to it. -/
def mqttAsyncConnectReads : Option ConnectMeets → Option ConfigClient
  | none => some s
  | some meets => s.mqttConnectReads meets

/-- `tr50_start2` -/
def tr50Start2 (meets : Option ConnectMeets) (connect : ℤ) : Option (ℤ × ConfigClient) :=
  if s.started then some (errTr50AlreadyStarted, s)
  else do
    let s ← s.mqttConnectParamsCreate malloc
    let s ← (if 0 < s.config.proxyType then s.mqttConnectParamsUseProxy malloc else some s)
    let s ← (if s.config.ssl then s.mqttConnectParamsUseSsl else some s)
    let s ← (if s.config.httpsProxy then s.mqttConnectParamsUseHttpsProxy else some s)
    let s ← (if (s.config.text .username).isSome ∧ (s.config.text .password).isSome then
        s.mqttConnectParamsSetUsername malloc
      else some s)
    let s ← s.mqttAsyncConnectReads meets
    -- a connection that has failed keeps its parameters
    some (connect, { s with started := connect = 0 })

/-- `mqtt_connect_params_delete`; the strings of the proxy stay. -/
def mqttConnectParamsDelete (p : ℕ) : Option (Heap ConfigBlock) := do
  let params ← s.readParams
  let heap ← s.heap.freeEach [params.text .host, params.text .username, params.text .password]
  heap.free p

/-- `tr50_stop` -/
def tr50Stop (disconnect : ℤ) : Option (ℤ × ConfigClient) :=
  if ¬ s.started then some (errTr50AlreadyStopped, s)
  else if disconnect ≠ 0 then some (disconnect, s)
  else
    match s.params with
    | none => some (0, { s with started := false })
    | some p =>
      (s.mqttConnectParamsDelete p).map fun heap =>
        (0, { s with heap, params := none, started := false })

/-- `tr50_delete`, of which only the strings are freed. -/
def tr50Delete : Option (Heap ConfigBlock) :=
  s.heap.freeEach (ConfigField.all.map s.config.text)

/-- A call, with its result. -/
def call : ConfigCall → Option (ℤ × ConfigClient)
  | .setHost granted host => (s.tr50ConfigSetHost granted host).map (0, ·)
  | .setClientId granted clientId => (s.tr50ConfigSetClientId granted clientId).map (0, ·)
  | .setUsername granted username => (s.tr50ConfigSetUsername granted username).map (0, ·)
  | .setPassword granted password => (s.tr50ConfigSetPassword granted password).map (0, ·)
  | .setProxy malloc type addr username password =>
      (s.tr50ConfigSetProxy malloc type addr username password).map (0, ·)
  | .setPort port => some (0, { s with config.port := port })
  | .setKeeplive keepaliveInMs => some (0, { s with config.keepaliveInMs := keepaliveInMs })
  | .setTimeout timeoutInMs => some (0, { s with config.timeoutInMs := timeoutInMs })
  | .setSsl enabled => some (0, { s with config.ssl := enabled })
  | .setHttpsProxy enabled => some (0, { s with config.httpsProxy := enabled })
  | .setCompress supported enabled =>
      if supported then some (0, { s with config.compress := enabled })
      else some (errTr50CompressNotSupported, s)
  | .start malloc meets connect => s.tr50Start2 malloc meets connect
  | .stop disconnect => s.tr50Stop disconnect
  | .reconnect meets => if s.started then (s.mqttConnectReads meets).map (0, ·) else some (0, s)

/-- The calls one after the other. -/
def run (calls : List ConfigCall) (s : ConfigClient) : Option ConfigClient :=
  calls.foldlM (fun s c => (s.call c).map Prod.snd) s

end ConfigClient

/-- The setters of `tr50_create`. -/
def tr50CreateCalls (malloc : ℕ → Bool) (clientId host : List UInt8) (port : ℤ) :
    List ConfigCall :=
  [.setClientId (malloc 0) clientId, .setHost (malloc 1) host, .setPort port, .setTimeout 5000,
    .setKeeplive 60000]

/-! ## What it is for -/

/-- The client with its strings as values: its configuration, the parameters it connects with, and
how many blocks have been given up and not freed. -/
structure ConfigSpec where
  config : Tr50Config (List UInt8)
  params : Option (ConnectParams (List UInt8))
  started : Bool
  lost : ℕ

/-- How many strings there are. -/
def textCount {τ : Type} (text : ConfigField → Option τ) : ℕ :=
  (ConfigField.all.filterMap text).length

namespace ConfigSpec

variable (a : ConfigSpec)

def blank : ConfigSpec := ⟨.zero, none, false, 0⟩

/-- A copy, if there is memory for it. -/
def keep (granted : Bool) (text : Option (List UInt8)) : Option (List UInt8) :=
  if granted then text else none

def setText (f : ConfigField) (granted : Bool) (text : Option (List UInt8)) : ConfigSpec :=
  { a with config.text := Function.update a.config.text f (keep granted text) }

/-- The strings a connection is made with. -/
def paramsText (malloc : ℕ → Bool) : ConfigField → Option (List UInt8)
  | .clientId => none
  | .host => keep (malloc 1) (a.config.text .host)
  | .username =>
      if (a.config.text .password).isSome then keep (malloc 5) (a.config.text .username) else none
  | .password =>
      if (a.config.text .username).isSome then keep (malloc 6) (a.config.text .password) else none
  | .proxyAddr =>
      if 0 < a.config.proxyType then keep (malloc 2) (a.config.text .proxyAddr) else none
  | .proxyUsername =>
      if 0 < a.config.proxyType then keep (malloc 3) (a.config.text .proxyUsername) else none
  | .proxyPassword =>
      if 0 < a.config.proxyType then keep (malloc 4) (a.config.text .proxyPassword) else none

/-- The parameters of a start: the configuration as it is then. -/
def startParams (malloc : ℕ → Bool) : ConnectParams (List UInt8) where
  clientId := ((a.config.text .clientId).getD []).take 23
  text := a.paramsText malloc
  port := a.config.port
  keepaliveInSec := UInt16.ofInt (a.config.keepaliveInMs.tdiv 1000)
  useSsl := a.config.ssl || a.config.httpsProxy
  useHttpsProxy := a.config.httpsProxy
  proxyType := if 0 < a.config.proxyType then a.config.proxyType else 0

/-- The blocks of the parameters. -/
def paramsCount : ℕ := a.params.elim 0 fun params => textCount params.text + 1

/-- The strings that `mqtt_connect_params_delete` leaves: those of the proxy. -/
def leftText {τ : Type} (text : ConfigField → Option τ) (f : ConfigField) : Option τ :=
  if f = .host ∨ f = .username ∨ f = .password then none else text f

def call : ConfigCall → ℤ × ConfigSpec
  | .setHost granted host => (0, a.setText .host granted (some host))
  | .setClientId granted clientId => (0, a.setText .clientId granted (some clientId))
  | .setUsername granted username => (0, a.setText .username granted username)
  | .setPassword granted password => (0, a.setText .password granted password)
  | .setProxy malloc type addr username password =>
      let a := { a with config.proxyType := type }
      let a := a.setText .proxyAddr (malloc 0) addr
      let a := a.setText .proxyUsername (malloc 1) username
      (0, a.setText .proxyPassword (malloc 2) password)
  | .setPort port => (0, { a with config.port := port })
  | .setKeeplive keepaliveInMs => (0, { a with config.keepaliveInMs := keepaliveInMs })
  | .setTimeout timeoutInMs => (0, { a with config.timeoutInMs := timeoutInMs })
  | .setSsl enabled => (0, { a with config.ssl := enabled })
  | .setHttpsProxy enabled => (0, { a with config.httpsProxy := enabled })
  | .setCompress supported enabled =>
      if supported then (0, { a with config.compress := enabled })
      else (errTr50CompressNotSupported, a)
  | .start malloc _ connect =>
      if a.started then (errTr50AlreadyStarted, a)
      else (connect, { a with
        params := some (a.startParams malloc)
        started := connect = 0
        -- the parameters of a start that has failed
        lost := a.lost + a.paramsCount })
  | .stop disconnect =>
      if ¬ a.started then (errTr50AlreadyStopped, a)
      else if disconnect ≠ 0 then (disconnect, a)
      else (0, { a with
        params := none
        started := false
        lost := a.lost + a.params.elim 0 fun params => textCount (leftText params.text) })
  | .reconnect _ => (0, a)

def run (calls : List ConfigCall) (a : ConfigSpec) : ConfigSpec :=
  calls.foldl (fun a c => (a.call c).2) a

/-- A name or password that is set is not reset to NULL, a start has a host and a client id, and
what `mqtt_connect` does with its strings is defined. -/
def Good : ConfigCall → Prop
  | .setUsername _ none => a.config.text .username = none
  | .setPassword _ none => a.config.text .password = none
  | .start malloc meets _ => a.started
      ∨ (a.config.text .clientId).isSome ∧ (a.config.text .host).isSome
        ∧ ∀ m ∈ meets, ((a.startParams malloc).connects m).isSome
  | .reconnect meets => a.started → ∀ params ∈ a.params, (params.connects meets).isSome
  | _ => True

/-- …in a run. -/
def GoodRun : ConfigSpec → List ConfigCall → Prop
  | _, [] => True
  | a, c :: calls => a.Good c ∧ GoodRun (a.call c).2 calls

end ConfigSpec

/-- There is memory for the parameter block. -/
def ConfigCall.Granted : ConfigCall → Prop
  | .start malloc _ _ => malloc 0
  | _ => True

end Tr50

import Tr50.Machinery.Tunnel
import Tr50.Util.Base64
import Tr50.Util.Blob
import Tr50.Util.Json
import Tr50.Util.Tcp

/-!
# Util/Proxy — connecting through a proxy

`util/linux/linux.tcp_proxy.c` and `_tcp_connect_proxy` of `util/linux/linux.tcp.c`, over what the
resolver finds and what the calls of the socket layer come to (`ProxyPeer`).  A run (`ProxyRun`)
records what is handed to `_tcp_send`, frame by frame.

The buffer of `_socket_proxy_setup_socks5` is a block of cells: a length goes into it as a byte and
is read back as a signed `char`.
-/

namespace Tr50

open Machinery

/-! ## Addresses -/

/-- `strtol(s, NULL, 10)` -/
def strtol10 (s : List UInt8) : ℤ :=
  let s := s.dropWhile fun c => c = 32 ∨ (9 ≤ c ∧ c ≤ 13)
  let negative := deref s = ch '-'
  let s := if negative ∨ deref s = ch '+' then s.tail else s
  let n := decimalValue (s.takeWhile isDigit)
  max (-2 ^ 63) (min (2 ^ 63 - 1) (if negative then -(n : ℤ) else n))

/-- What is in front of the colon of an address. -/
def hostOf (addr : List UInt8) : List UInt8 := addr.takeWhile (· ≠ ch ':')

/-- The bytes of a `struct in_addr`. -/
abbrev InAddr := { bytes : List UInt8 // bytes.length = 4 }

/-- `struct sockaddr_in`; the port is stored high byte first. -/
structure SockaddrIn where
  sinAddr : InAddr
  sinPort : UInt16
deriving DecidableEq

/-- `sin->sin_port` after `make_addr`. -/
def sinPort (addr : List UInt8) : UInt16 :=
  match addr.dropWhile (· ≠ ch ':') with
  | [] => 0
  | _ :: text => UInt16.ofNat (strtol10 text % 2 ^ 16).toNat

/-- `make_addr` -/
def makeAddr (gethostbyname : List UInt8 → Option InAddr) (addr : List UInt8) :
    Except ℤ SockaddrIn :=
  match gethostbyname (hostOf addr) with
  | none => .error errTr50SockHostnotfound
  | some sinAddr => .ok ⟨sinAddr, sinPort addr⟩

/-- `_socket_proxy_uses_hostname` -/
def socketProxyUsesHostname (addr : List UInt8) : Bool :=
  addr.any fun c => ¬ (isDigit c ∨ c = ch '.' ∨ c = ch ':')

/-! ## Blocks of characters -/

/-- What `strncpy(dest, src, n)` stores. -/
def strncpyBytes (src : List UInt8) (n : ℕ) : List UInt8 :=
  src.take n ++ List.replicate (n - src.length) 0

/-- `strncpy`.  A negative size is a `size_t` beyond every block. -/
def strncpy (dest : Buffer) (i : ℤ) (src : List UInt8) (n : ℤ) : Option Buffer :=
  if 0 ≤ n then dest.memcpy i (strncpyBytes src n.toNat) else none

/-- The byte of a cell. -/
def charAt (buf : Buffer) (i : ℤ) : Option UInt8 := if 0 ≤ i then buf[i.toNat]?.join else none

/-- The first `n` bytes of a block; `none` if they are not all there. -/
def frameOf (buf : Buffer) (n : ℤ) : Option (List UInt8) :=
  let bytes := Buffer.written (buf.take n.toNat)
  if (bytes.length : ℤ) = n then some bytes else none

/-- The text in front of the first `c` or of the terminator; `none` where neither has been
written. -/
def textBefore (c : UInt8) : Buffer → Option (List UInt8)
  | some b :: buf => if b = c ∨ b = 0 then some [] else (textBefore c buf).map (b :: ·)
  | _ => none

/-- `host` once `addr` is copied into it and cut at its colon. -/
def proxyHost (addr : List UInt8) : Option (List UInt8) :=
  (strncpy (Buffer.alloc 256) 0 addr 255).bind (textBefore (ch ':'))

/-- What precedes the first stop is passed over. -/
theorem textBefore_append {c : UInt8} {bs : List UInt8} (h : ∀ b ∈ bs, b ≠ c ∧ b ≠ 0)
    (buf : Buffer) :
    textBefore c (bs.map some ++ buf) = (textBefore c buf).map (bs ++ ·) := by
  induction bs with
  | nil => simp
  | cons b bs ih =>
    have hb : ¬ (b = c ∨ b = 0) := not_or.mpr (h b (List.mem_cons_self ..))
    rw [List.map_cons, List.cons_append, textBefore, if_neg hb,
      ih fun d hd => h d (List.mem_cons_of_mem b hd), Option.map_map]
    rfl

/-- The copy of an address fills its block but for the last cell. -/
theorem proxyHost_eq (addr : List UInt8) : proxyHost addr
    = textBefore (ch ':') ((strncpyBytes addr 255).map some ++ [none]) := by
  have hlength : (strncpyBytes addr 255).length = 255 := by simp [strncpyBytes]; omega
  have hcopy := @Buffer.filled_memcpy 256 [] (strncpyBytes addr 255) (by rw [hlength]; decide)
  rw [← Buffer.alloc_eq_filled, List.length_nil, Nat.cast_zero, List.nil_append] at hcopy
  rw [proxyHost, strncpy, if_pos (by decide)]
  change ((Buffer.alloc 256).memcpy 0 (strncpyBytes addr 255)).bind _ = _
  rw [hcopy, Option.bind_some, Buffer.filled, hlength]
  rfl

theorem mem_hostOf {addr : List UInt8} (haddr : 0 ∉ addr) :
    ∀ b ∈ hostOf addr, b ≠ ch ':' ∧ b ≠ 0 := fun b hb =>
  ⟨by simpa using List.mem_takeWhile_imp hb,
    fun h0 => haddr (h0 ▸ (List.takeWhile_sublist _).subset hb)⟩

/-- An address is its host, or the host and a colon and more. -/
theorem hostOf_split (addr : List UInt8) :
    addr = hostOf addr ∨ ∃ text, addr = hostOf addr ++ ch ':' :: text := by
  induction addr with
  | nil => exact Or.inl rfl
  | cons c addr ih =>
    by_cases hc : c = ch ':'
    · exact Or.inr ⟨addr, by simp [hostOf, hc]⟩
    · have hhost : hostOf (c :: addr) = c :: hostOf addr := by simp [hostOf, hc]
      rw [hhost]
      exact ih.imp (congrArg (c :: ·)) fun ⟨text, h⟩ => ⟨text, congrArg (c :: ·) h⟩

/-- **A host of up to 254 bytes is copied whole**… -/
theorem proxyHost_of_le {addr : List UInt8} (haddr : 0 ∉ addr) (h : (hostOf addr).length ≤ 254) :
    proxyHost addr = some (hostOf addr) := by
  obtain ⟨stop, rest, hstop, hbytes⟩ : ∃ stop rest, (stop = ch ':' ∨ stop = 0) ∧
      strncpyBytes addr 255 = hostOf addr ++ stop :: rest := by
    rcases hostOf_split addr with hsplit | ⟨text, hsplit⟩
    · rw [← hsplit] at h ⊢
      obtain ⟨k, hk⟩ : ∃ k, 255 - addr.length = k + 1 := ⟨254 - addr.length, by omega⟩
      refine ⟨0, List.replicate k 0, Or.inr rfl, ?_⟩
      rw [strncpyBytes, hk, List.take_of_length_le (by omega), List.replicate_succ]
    · obtain ⟨k, hk⟩ : ∃ k, 255 - (hostOf addr).length = k + 1 :=
        ⟨254 - (hostOf addr).length, by omega⟩
      refine ⟨ch ':', text.take k ++ List.replicate (255 - addr.length) 0, Or.inl rfl, ?_⟩
      have htake : addr.take 255 = hostOf addr ++ ch ':' :: text.take k := by
        conv_lhs => rw [hsplit]
        rw [List.take_append, List.take_of_length_le (by omega), hk, List.take_succ_cons]
      rw [strncpyBytes, htake, List.append_assoc, List.cons_append]
  rw [proxyHost_eq, hbytes, List.map_append, List.append_assoc,
    textBefore_append (mem_hostOf haddr), List.map_cons, List.cons_append, textBefore, if_pos hstop,
    Option.map_some, List.append_nil]

/-- **…a longer one leaves its copy without a terminator.** -/
theorem proxyHost_of_ge {addr : List UInt8} (haddr : 0 ∉ addr) (h : 255 ≤ (hostOf addr).length) :
    proxyHost addr = none := by
  have hlength : (hostOf addr).length ≤ addr.length := (List.takeWhile_sublist _).length_le
  have htake : addr.take 255 = (hostOf addr).take 255 := by
    rcases hostOf_split addr with hsplit | ⟨text, hsplit⟩
    · rw [← hsplit]
    · conv_lhs => rw [hsplit]
      exact List.take_append_of_le_length h
  rw [proxyHost_eq, strncpyBytes, htake, Nat.sub_eq_zero_of_le (by omega), List.replicate_zero,
    List.append_nil,
    textBefore_append fun b hb => mem_hostOf haddr b ((List.take_sublist _ _).subset hb)]
  rfl

theorem proxyHost_eq_some {addr host : List UInt8} (haddr : 0 ∉ addr)
    (h : proxyHost addr = some host) : host = hostOf addr := by
  rcases Nat.lt_or_ge (hostOf addr).length 255 with hlt | hge
  · rw [proxyHost_of_le haddr (by omega)] at h
    exact (Option.some.inj h).symm
  · rw [proxyHost_of_ge haddr hge] at h
    cases h

/-! ## The proxy -/

/-- What the system answers: the resolver, and the calls in their order. -/
structure ProxyPeer where
  gethostbyname : List UInt8 → Option InAddr
  /-- The code of `_tcp_connect` to the proxy, where its own buffer suffices. -/
  connect : ℤ
  /-- The codes of the calls of `_tcp_send`. -/
  send : ℕ → ℤ
  /-- The calls of `_tcp_recv`: an error code, or the bytes that are there. -/
  recv : List (Except ℤ (List UInt8))

inductive ProxyEnding
  | returned (ret : ℤ)
  /-- The proxy still owes an answer. -/
  | waiting
  /-- The code has left its memory, or reads what has not been written. -/
  | undefined
deriving DecidableEq, Repr

structure ProxyRun where
  ending : ProxyEnding
  /-- What has been handed to `_tcp_send`. -/
  frames : List (List UInt8)
  /-- The bytes that ask for the connection, once `_tcp_send` has taken them. -/
  request : Option (List UInt8)
deriving DecidableEq, Repr

namespace ProxyRun

def returned (ret : ℤ) : ProxyRun := ⟨.returned ret, [], none⟩

def waiting : ProxyRun := ⟨.waiting, [], none⟩

def undefined : ProxyRun := ⟨.undefined, [], none⟩

/-- Go on with a value that is there. -/
def within {α : Type} (a : Option α) (next : α → ProxyRun) : ProxyRun := a.elim undefined next

@[simp] theorem within_none {α : Type} (next : α → ProxyRun) : within none next = undefined := rfl

@[simp] theorem within_some {α : Type} (a : α) (next : α → ProxyRun) :
    within (some a) next = next a := rfl

/-- What has been sent is the request. -/
def asked (request : List UInt8) (run : ProxyRun) : ProxyRun := { run with request := some request }

end ProxyRun

/-- The `k`-th `_tcp_send`, and what comes after it if it succeeds. -/
def ProxyPeer.sends (peer : ProxyPeer) (k : ℕ) (frame : List UInt8) (next : ProxyRun) : ProxyRun :=
  if peer.send k ≠ 0 then ⟨.returned (peer.send k), [frame], none⟩
  else { next with frames := frame :: next.frames }

/-- The `k`-th `_tcp_recv`, of at most `len` bytes to the front of `buf`.  A negative `int` is a
`size_t` beyond every piece. -/
def ProxyPeer.recvs (peer : ProxyPeer) (k : ℕ) (buf : Buffer) (len : ℤ)
    (next : Buffer → ProxyRun) : ProxyRun :=
  match peer.recv[k]? with
  | none => .waiting
  | some (.error ret) => .returned ret
  | some (.ok bytes) =>
    let bytes := bytes.take (len % 2 ^ 64).toNat
    if bytes = [] then .returned errTr50SockShutdown else .within (buf.memcpy 0 bytes) next

/-! ## SOCKS 4 -/

/-- The answer to a request. -/
def socks4Reply (peer : ProxyPeer) (buf : List UInt8) : ProxyRun :=
  peer.recvs 0 (buf.map some) 8 fun buf => .within (charAt buf 1) fun c =>
    if c = 0x5A then .returned 0
    else if c = 0x5D then .returned errTr50SockProxyAuthRejected
    else .returned errTr50SockProxyOther

/-- `_socket_proxy_setup_socks4` -/
def socketProxySetupSocks4 (peer : ProxyPeer) (addr : List UInt8) (user : Option (List UInt8)) :
    ProxyRun :=
  match makeAddr peer.gethostbyname addr with
  | .error ret => .returned ret
  | .ok sin =>
    let buf := 0x04 :: 0x01 :: (be16 sin.sinPort ++ sin.sinAddr.1)
    let reply := socks4Reply peer (buf ++ [0x00])
    match user with
    | none => peer.sends 0 (buf ++ [0x00]) (reply.asked (buf ++ [0x00]))
    | some user => peer.sends 0 buf <| peer.sends 1 (user ++ [0]) <|
        reply.asked (buf ++ user ++ [0])

/-- `_socket_proxy_setup_socks4a` -/
def socketProxySetupSocks4a (peer : ProxyPeer) (addr : List UInt8) (user : Option (List UInt8)) :
    ProxyRun :=
  .within (proxyHost addr) fun host =>
    match makeAddr peer.gethostbyname addr with
    | .error ret => .returned ret
    | .ok sin =>
      let buf := 0x04 :: 0x01 :: (be16 sin.sinPort ++ [0x00, 0x00, 0x00, 0x03])
      let reply := socks4Reply peer (buf ++ [0x00])
      match user with
      | none => peer.sends 0 (buf ++ [0x00]) <| peer.sends 1 (host ++ [0]) <|
          reply.asked (buf ++ [0x00] ++ host ++ [0])
      | some user => peer.sends 0 buf <| peer.sends 1 (user ++ [0]) <| peer.sends 2 (host ++ [0]) <|
          reply.asked (buf ++ user ++ [0] ++ host ++ [0])

/-! ## SOCKS 5 -/

/-- A length and the text behind it, and the index moved past both. -/
def socks5Text (buf : Buffer) (bufIdx : ℤ) (text : List UInt8) (size : ℤ) :
    Option (Buffer × ℤ) := do
  let buf ← buf.store bufIdx (UInt8.ofNat (strlen text))
  let buf ← strncpy buf (bufIdx + 1) text size
  let len ← charAt buf bufIdx
  return (buf, bufIdx + (signedChar len + 1))

/-- The user name, or the password. -/
def socks5Credential (buf : Buffer) (bufIdx : ℤ) : Option (List UInt8) → Option (Buffer × ℤ)
  | none => (buf.store bufIdx 0).map (·, bufIdx + 1)
  | some text => socks5Text buf bufIdx text (256 - bufIdx)

/-- The message that authenticates. -/
def socks5Auth (buf : Buffer) (user pass : Option (List UInt8)) : Option (Buffer × ℤ) := do
  let buf ← buf.store 0 0x01
  let (buf, bufIdx) ← socks5Credential buf 1 user
  socks5Credential buf bufIdx pass

/-- The target of the request. -/
def socks5Target (buf : Buffer) (addr : List UInt8) (sin : SockaddrIn) : Option (Buffer × ℤ) :=
  if socketProxyUsesHostname addr then do
    let buf ← buf.store 3 0x03
    let host ← proxyHost addr
    socks5Text buf 4 host 252
  else do
    let buf ← buf.store 3 0x01
    let buf ← buf.memcpy 4 sin.sinAddr.1
    return (buf, 8)

/-- The request. -/
def socks5Request (buf : Buffer) (addr : List UInt8) (sin : SockaddrIn) : Option (Buffer × ℤ) := do
  let buf ← buf.memcpy 0 [0x05, 0x01, 0x00]
  let (buf, bufIdx) ← socks5Target buf addr sin
  let buf ← buf.memcpy bufIdx (be16 sin.sinPort)
  return (buf, bufIdx + 2)

/-- The answer to the request, in receives from the `k`-th on. -/
def socks5Reply (peer : ProxyPeer) (k : ℕ) (buf : Buffer) : ProxyRun :=
  peer.recvs k buf 6 fun buf => .within (charAt buf 1) fun rep =>
    if rep = 0x00 then
      .within (charAt buf 3) fun atyp =>
        if atyp = 0x01 then peer.recvs (k + 1) buf 4 fun _ => .returned 0
        else if atyp = 0x03 then
          peer.recvs (k + 1) buf 1 fun buf => .within (charAt buf 4) fun len =>
            peer.recvs (k + 2) buf (signedChar len) fun _ => .returned 0
        else .returned 0
    else .returned errTr50SockProxyOther

/-- The request and its answer. -/
def socks5Connect (peer : ProxyPeer) (k : ℕ) (buf : Buffer) (addr : List UInt8) (sin : SockaddrIn) :
    ProxyRun :=
  .within (socks5Request buf addr sin) fun (buf, bufIdx) =>
  .within (frameOf buf bufIdx) fun frame =>
    peer.sends k frame ((socks5Reply peer k buf).asked frame)

/-- The authentication, and what comes after it. -/
def socks5Authenticate (peer : ProxyPeer) (buf : Buffer) (addr : List UInt8) (sin : SockaddrIn)
    (user pass : Option (List UInt8)) : ProxyRun :=
  .within (socks5Auth buf user pass) fun (buf, bufIdx) => .within (frameOf buf bufIdx) fun frame =>
    peer.sends 1 frame <| peer.recvs 1 buf 2 fun buf => .within (charAt buf 1) fun status =>
      if status ≠ 0 then .returned errTr50SockProxyAuthRejected
      else socks5Connect peer 2 buf addr sin

/-- `_socket_proxy_setup_socks5` -/
def socketProxySetupSocks5 (peer : ProxyPeer) (addr : List UInt8)
    (user pass : Option (List UInt8)) :
    ProxyRun :=
  .within (proxyHost addr) fun _ =>
    match makeAddr peer.gethostbyname addr with
    | .error ret => .returned ret
    | .ok sin =>
      .within ((Buffer.alloc 512).memcpy 0 [0x05, 0x02, 0x02, 0x00]) fun buf =>
        peer.sends 0 [0x05, 0x02, 0x02, 0x00] <| peer.recvs 0 buf 2 fun buf =>
          .within (charAt buf 1) fun method =>
            if method = 0xFF then .returned errTr50SockProxyAuthUnsup
            else if method = 0x02 then socks5Authenticate peer buf addr sin user pass
            else socks5Connect peer 1 buf addr sin

/-! ## HTTP -/

/-- What a format makes of an argument list it must not ask for anything. -/
def formatText : List UInt8 → Option (List UInt8)
  | [] => some []
  | [c] => if c = ch '%' then none else some [c]
  | c :: d :: format =>
    if c ≠ ch '%' then (formatText (d :: format)).map (c :: ·)
    else if d = ch '%' then (formatText format).map (c :: ·)
    else none

/-- `vsnprintf` of a text to the end of a blob: at most `unused` bytes, with the terminator. -/
def Blob.vsnprintf (blob : Blob) (text : List UInt8) : Option Blob :=
  let size := (blob.unused % 2 ^ 64).toNat
  let stored := if size = 0 then [] else text.take (size - 1) ++ [0]
  (blob.buffer.memcpy blob.len stored).map fun buffer => { blob with buffer := buffer }

/-- The second half of `_blob_format_append`, where `realloc` grants what is asked for.  What has to
be formatted again finds its arguments used up. -/
def Blob.formatAgain (blob : Blob) (text : List UInt8) (args : Bool) : Option Blob :=
  if (text.length : ℤ) ≥ blob.unused then
    (blobGrow true blob (text.length + 1)).bind fun (_, blob) =>
      if args then none else blob.vsnprintf text
  else some blob

/-- `_blob_format_append` -/
def blobFormatAppend (blob : Blob) (text : List UInt8) (args : Bool) : Option Blob :=
  (blob.vsnprintf text).bind fun blob => (blob.formatAgain text args).map fun blob =>
    { blob with len := blob.len + text.length, unused := blob.unused - text.length }

/-- The `Host` line. -/
def httpHost (blob : Blob) (host : List UInt8) : Option Blob :=
  if ch ':' ∉ host then
    blobFormatAppend blob (cstring ['H', 'o', 's', 't', ':', ' '] ++ host ++ [13, 10]) true
  else do
    let blob ← blobFormatAppend blob (cstring ['H', 'o', 's', 't', ':', ' ']) false
    let text ← formatText host
    let blob ← blobFormatAppend blob text false
    blobFormatAppend blob [13, 10] false

/-- `userpass_e`, if `base64_encode` keeps inside what it has allocated. -/
def httpUserpass (user pass : List UInt8) : Option (List UInt8) :=
  let userpass := user ++ [ch ':'] ++ pass
  (base64Encode (fun i => userpass.getD i 0) userpass.length).bind fun run =>
    if (run.text.length + 1 : ℤ) ≤ run.outlen then some run.text else none

/-- The `Authorization` line. -/
def httpAuthorization (blob : Blob) : (user pass : Option (List UInt8)) → Option Blob
  | some user, some pass =>
    (httpUserpass user pass).bind fun userpass =>
      blobFormatAppend blob (cstring "Authorization: Basic ".toList ++ userpass ++ [13, 10]) true
  | _, _ => some blob

/-- What `_socket_proxy_setup_http` writes into its blob. -/
def httpRequest (addr host : List UInt8) (user pass : Option (List UInt8)) :
    Option (List UInt8) := do
  let (_, blob) ← blobCreate true true 128
  let blob ← blob
  let blob ← blobFormatAppend blob connectMethod false
  let text ← formatText addr
  let blob ← blobFormatAppend blob text false
  let blob ← blobFormatAppend blob (cstring " HTTP/1.1\r\n".toList) false
  let blob ← httpHost blob host
  let blob ← httpAuthorization blob user pass
  let blob ← blobFormatAppend blob [13, 10] false
  frameOf blob.buffer blob.len

/-- The reading of the answer.  Each byte is given to `_blob_format_append` as a format, with no
terminator behind it; and `socket_error` finds `is_ssl` where it looks for the error, so that a
timeout ends the reading too. -/
def httpReply : List (Except ℤ (List UInt8)) → ProxyRun
  | [] => .waiting
  | .error _ :: _ => .returned errTr50SockProxyOther
  | .ok [] :: _ => .returned errTr50SockProxyOther
  | .ok (c :: _) :: recv => if c = 0 then httpReply recv else .undefined

/-- `_socket_proxy_setup_http` -/
def socketProxySetupHttp (peer : ProxyPeer) (addr host : List UInt8)
    (user pass : Option (List UInt8)) : ProxyRun :=
  .within (httpRequest addr host user pass) fun request =>
    peer.sends 0 request ((httpReply peer.recv).asked request)

/-! ## The connection -/

def socketProxySocks4 : ℤ := 1
def socketProxySocks4a : ℤ := 2
def socketProxySocks5 : ℤ := 3
def socketProxyHttp : ℤ := 4

/-- `sprintf` of a text into a block. -/
def sprintf (text : List UInt8) (size : ℕ) : Option (List UInt8) :=
  if text.length < size then some text else none

/-- Where the proxy is. -/
def proxyEndpoint (proxyType : ℤ) (proxyAddr : List UInt8) : Option (List UInt8) :=
  if ch ':' ∉ proxyAddr then
    sprintf (proxyAddr ++ cstring (if proxyType = socketProxyHttp then [':', '8', '0']
      else [':', '1', '0', '8', '0'])) 64
  else some proxyAddr

/-- The set-up of a proxy that is connected. -/
def proxySetup (peer : ProxyPeer) (addr : List UInt8) (proxyType : ℤ) (proxyAddr : List UInt8)
    (proxyUsername proxyPassword : Option (List UInt8)) : ProxyRun :=
  if proxyType = socketProxySocks4 ∨ proxyType = socketProxySocks4a then
    if socketProxyUsesHostname addr then socketProxySetupSocks4a peer addr proxyUsername
    else socketProxySetupSocks4 peer addr proxyUsername
  else if proxyType = socketProxySocks5 then
    socketProxySetupSocks5 peer addr proxyUsername proxyPassword
  else if proxyType = socketProxyHttp then
    socketProxySetupHttp peer addr proxyAddr proxyUsername proxyPassword
  else .returned errTr50ProxyProtoBad

/-- What becomes of a set-up that has the address of the variable with the socket for the socket.
Its first `_tcp_send` looks for `is_ssl` behind the variable, before it sends anything; where an
error comes first, `_tcp_disconnect` closes what half of the pointer is the number of. -/
def ProxyRun.throughVariable (run : ProxyRun) : ProxyRun :=
  match run.frames, run.ending with
  | [], .returned ret => if ret ≠ 0 then .undefined else run
  | [], _ => run
  | _ :: _, _ => .undefined

/-- `_tcp_connect_proxy`, which hands on `sock`, a `void **`.  The port that the proxy itself is
given is the timeout; neither `port` nor `options` is looked at. -/
def tcpConnectProxy (peer : ProxyPeer) (addr : List UInt8) (_port _options proxyType : ℤ)
    (proxyAddr : List UInt8) (proxyUsername proxyPassword : Option (List UInt8)) : ProxyRun :=
  .within (proxyEndpoint proxyType proxyAddr) fun endpoint =>
  .within (sprintf (endpoint ++ cstring [':', '1', '0', '0', '0', '0']) 512) fun _ =>
    if peer.connect ≠ 0 then .returned errTr50ProxyConnFailed
    else (proxySetup peer addr proxyType proxyAddr proxyUsername proxyPassword).throughVariable

end Tr50

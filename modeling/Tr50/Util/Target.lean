import Tr50.Util.Socks5

/-!
# Util/Target — what `_tcp_connect_proxy` asks for

The request that the proxy is to get names a host and a port.  `_tcp_connect_proxy` makes none: it
hands on the address of the variable with the socket in place of the socket
(`tcpConnectProxy_never_asks`).

Nor would the request be the right one.  The host and the port are two arguments, and the first
alone is handed on; the builders take a port out of that, and without one put in none or zero.  So
the request names the port given exactly where the address carries it (`proxySetup_names_iff`).
-/

namespace Tr50

open Machinery

/-! ## Formatting -/

/-- A blob with known bytes in front, and room behind them. -/
structure Blob.Begins (blob : Blob) (bs : List UInt8) : Prop where
  front : bs.map some <+: blob.buffer
  size : blob.size = blob.buffer.length
  len : blob.len = bs.length
  unused : blob.unused = blob.size - blob.len
  room : bs.length < blob.buffer.length
  small : blob.buffer.length < 2 ^ 31

section Format

variable {blob blob' : Blob} {bs text : List UInt8}

/-- What fits is stored behind the bytes… -/
theorem vsnprintf_of_lt (h : blob.Begins bs) (htext : text.length < blob.unused) :
    ∃ buffer, blob.vsnprintf text = some { blob with buffer := buffer } ∧
      (bs ++ text).map some <+: buffer ∧ buffer.length = blob.buffer.length := by
  have hunused : blob.unused = blob.buffer.length - bs.length := by rw [h.unused, h.size, h.len]
  have hroom := h.room
  have hsmall := h.small
  obtain ⟨n, hn⟩ : ∃ n, (blob.unused % 2 ^ 64).toNat = n + 1 ∧ text.length ≤ n ∧
      bs.length + (n + 1) = blob.buffer.length :=
    ⟨blob.buffer.length - bs.length - 1, by omega⟩
  obtain ⟨buffer, hcopy, hfront, hlength⟩ := @Buffer.memcpy_behind blob.buffer bs (text ++ [0])
    h.front (by rw [List.length_append, List.length_singleton]; omega)
  refine ⟨buffer, ?_, ?_, hlength⟩
  · rw [Blob.vsnprintf, hn.1]
    simp only [Nat.succ_ne_zero, if_false, Nat.add_sub_cancel, List.take_of_length_le hn.2.1, h.len,
      hcopy, Option.map_some]
  · rw [← List.append_assoc] at hfront
    exact ((List.prefix_append (bs ++ text) [0]).map some).trans hfront

/-- …and what does not leaves them alone. -/
theorem vsnprintf_keeps (h : blob.Begins bs) (hformat : blob.vsnprintf text = some blob') :
    blob'.Begins bs ∧ blob'.unused = blob.unused := by
  simp only [Blob.vsnprintf, Option.map_eq_some_iff] at hformat
  obtain ⟨buffer, hcopy, rfl⟩ := hformat
  have hlength := (Buffer.memcpy_inside hcopy).1
  exact ⟨⟨Buffer.memcpy_keeps h.front h.len.ge hcopy, by rw [hlength]; exact h.size, h.len,
    h.unused, by rw [hlength]; exact h.room, by rw [hlength]; exact h.small⟩, rfl⟩

/-- A blob that grows keeps its bytes and has room for what it has been asked for. -/
theorem blobGrow_keeps {n ret : ℤ} (h : blob.Begins bs) (hn : blob.unused ≤ n)
    (hgrow : blobGrow true blob n = some (ret, blob')) : blob'.Begins bs ∧ n ≤ blob'.unused := by
  have hunused := h.unused
  have hsize := h.size
  have hlen := h.len
  have hroom := h.room
  simp only [blobGrow, if_neg (not_lt.mpr hn), Bool.true_eq_false, if_false,
    Option.bind_eq_some_iff, Option.map_eq_some_iff, Prod.mk.injEq] at hgrow
  obtain ⟨missing, hmissing, newSize, hnew, buffer, hclear, -, rfl⟩ := hgrow
  have hnewSize : blob.size ≤ newSize ∧ n + blob.len ≤ newSize ∧ newSize < 2 ^ 31 := by
    have hsmall := (intOf_mem hnew).2
    rw [← intOf_eq_some hnew] at hsmall
    refine ⟨?_, ?_, hsmall⟩ <;> rw [intOf_eq_some hnew, Blob.newSize] <;> split_ifs <;> omega
  obtain ⟨m, rfl⟩ := Int.eq_ofNat_of_zero_le (show 0 ≤ newSize by omega)
  rw [Int.toNat_natCast, Buffer.realloc_of_le (by omega)] at hclear
  unfold memoryMemset at hclear
  split_ifs at hclear
  have hfront := Buffer.memcpy_keeps (h.front.trans (List.prefix_append _ _)) (by omega) hclear
  have hlength := (Buffer.memcpy_inside hclear).1
  rw [List.length_append, List.length_replicate] at hlength
  refine ⟨⟨hfront, ?_, hlen, rfl, ?_, ?_⟩, ?_⟩
  all_goals
    simp only
    omega

/-- Counting what has been formatted. -/
theorem begins_counted {buffer : Buffer} (h : blob.Begins bs) (htext : text.length < blob.unused)
    (hfront : (bs ++ text).map some <+: buffer) (hlength : buffer.length = blob.buffer.length) :
    Blob.Begins ⟨buffer, blob.size, blob.len + text.length, blob.unused - text.length⟩
      (bs ++ text) where
  front := hfront
  size := by rw [hlength]; exact h.size
  len := by rw [List.length_append, h.len]; push_cast; rfl
  unused := by rw [h.unused]; exact sub_sub _ _ _
  room := by
    have := h.unused
    have := h.size
    have := h.len
    rw [List.length_append, hlength]
    omega
  small := by rw [hlength]; exact h.small

/-- **A format is appended**, if the call returns. -/
theorem blobFormatAppend_begins {args : Bool} (h : blob.Begins bs)
    (happend : blobFormatAppend blob text args = some blob') : blob'.Begins (bs ++ text) := by
  simp only [blobFormatAppend, Option.bind_eq_some_iff, Option.map_eq_some_iff] at happend
  obtain ⟨blob₁, hfirst, blob₂, hagain, rfl⟩ := happend
  by_cases hfits : (text.length : ℤ) < blob.unused
  · obtain ⟨buffer, hfirst', hfront, hlength⟩ := vsnprintf_of_lt h hfits
    rw [hfirst'] at hfirst
    obtain rfl := Option.some.inj hfirst
    rw [Blob.formatAgain, if_neg (not_le.mpr hfits)] at hagain
    obtain rfl := Option.some.inj hagain
    exact @begins_counted blob _ _ _ h hfits hfront hlength
  · obtain ⟨h₁, hunused₁⟩ := vsnprintf_keeps h hfirst
    rw [Blob.formatAgain, if_pos (by rw [hunused₁]; exact not_lt.mp hfits)] at hagain
    obtain ⟨⟨ret, grown⟩, hgrow, hagain⟩ := Option.bind_eq_some_iff.mp hagain
    obtain ⟨h₂, hroom⟩ := blobGrow_keeps h₁ (by omega) hgrow
    simp only at hagain
    split_ifs at hagain
    obtain ⟨buffer, hsecond, hfront, hlength⟩ := @vsnprintf_of_lt grown bs text h₂ (by omega)
    rw [hsecond] at hagain
    obtain rfl := Option.some.inj hagain
    exact @begins_counted grown _ _ _ h₂ (by omega) hfront hlength

/-- The `Host` line is appended, whatever it is. -/
theorem httpHost_begins {host : List UInt8} (h : blob.Begins bs)
    (hhost : httpHost blob host = some blob') : ∃ line, blob'.Begins (bs ++ line) := by
  unfold httpHost at hhost
  by_cases hcolon : ch ':' ∉ host
  · rw [if_pos hcolon] at hhost
    exact ⟨_, blobFormatAppend_begins h hhost⟩
  · rw [if_neg hcolon] at hhost
    simp only [bind, Option.bind_eq_some_iff] at hhost
    obtain ⟨blob₁, h₁, text, -, blob₂, h₂, h₃⟩ := hhost
    have hblob := blobFormatAppend_begins
      (blobFormatAppend_begins (blobFormatAppend_begins h h₁) h₂) h₃
    rw [List.append_assoc, List.append_assoc] at hblob
    exact ⟨_, hblob⟩

/-- **There is no `Authorization` line**: with a user name and a password `base64_encode` leaves its
memory. -/
theorem httpAuthorization_eq {user pass : Option (List UInt8)}
    (h : httpAuthorization blob user pass = some blob') :
    (user = none ∨ pass = none) ∧ blob' = blob := by
  rcases user with _ | user
  · exact ⟨Or.inl rfl, (Option.some.inj h).symm⟩
  rcases pass with _ | pass
  · exact ⟨Or.inr rfl, (Option.some.inj h).symm⟩
  simp only [httpAuthorization, httpUserpass, Option.bind_eq_some_iff] at h
  obtain ⟨userpass, ⟨run, hrun, hfits⟩, -⟩ := h
  split_ifs at hfits with hle
  exact absurd hle (not_le.mpr (base64Encode_overruns _ hrun).2)

end Format

/-- **The request is the line of the address**, and more behind it. -/
theorem httpRequest_eq {addr host request : List UInt8} {user pass : Option (List UInt8)}
    (h : httpRequest addr host user pass = some request) :
    ∃ text rest, formatText addr = some text ∧ request = connectMethod ++ (text ++ 32 :: rest) := by
  obtain ⟨size, hpos, hsize, hcreate⟩ := blobCreate_holding 128
  rw [if_neg (by decide)] at hsize
  have hbegins : (Blob.holding [] size).Begins [] := by
    refine ⟨List.nil_prefix, ?_, rfl, rfl, ?_, ?_⟩ <;>
      simp only [Blob.holding, Buffer.padded, List.map_nil, List.nil_append, List.length_nil,
        Nat.sub_zero, List.length_replicate] <;> omega
  simp only [httpRequest, hcreate, bind, Option.bind_some, Option.bind_eq_some_iff] at h
  obtain ⟨b₁, h₁, text, htext, b₂, h₂, b₃, h₃, b₄, h₄, b₅, h₅, b₆, h₆, hframe⟩ := h
  have hline := blobFormatAppend_begins
    (blobFormatAppend_begins (blobFormatAppend_begins hbegins h₁) h₂) h₃
  obtain ⟨hostLine, hhost⟩ := httpHost_begins hline h₄
  obtain ⟨-, rfl⟩ := httpAuthorization_eq h₅
  have hend := blobFormatAppend_begins hhost h₆
  rw [frameOf, hend.len, Int.toNat_natCast, Buffer.written_take_front hend.front] at hframe
  simp only [if_true, Option.some.injEq] at hframe
  refine ⟨text, cstring "HTTP/1.1\r\n".toList ++ hostLine ++ [13, 10], htext, ?_⟩
  rw [← hframe]
  simp [cstring, ch]

/-! ## What has been asked -/

section Asked

variable {peer : ProxyPeer} {request : List UInt8}

theorem request_within {α : Type} {a : Option α} {next : α → ProxyRun}
    (h : (ProxyRun.within a next).request = some request) :
    ∃ x, a = some x ∧ (next x).request = some request := by
  rcases a with _ | x
  · cases h
  · exact ⟨x, rfl, h⟩

theorem request_sends {k : ℕ} {frame : List UInt8} {next : ProxyRun}
    (h : (peer.sends k frame next).request = some request) : next.request = some request := by
  unfold ProxyPeer.sends at h
  split_ifs at h
  · exact h

theorem request_recvs {k : ℕ} {n : ℤ} {buf : Buffer} {next : Buffer → ProxyRun}
    (h : (peer.recvs k buf n next).request = some request) :
    ∃ buf', buf'.length = buf.length ∧ (next buf').request = some request := by
  unfold ProxyPeer.recvs at h
  rcases hrecv : peer.recv[k]? with _ | ret | bytes
  · rw [hrecv] at h
    cases h
  · rw [hrecv] at h
    cases h
  · rw [hrecv] at h
    simp only at h
    split_ifs at h
    · cases h
    · obtain ⟨buf', hcopy, h⟩ := request_within h
      exact ⟨buf', (Buffer.memcpy_inside hcopy).1, h⟩

theorem makeAddr_eq_ok {gethostbyname : List UInt8 → Option InAddr} {addr : List UInt8}
    {sin : SockaddrIn} (h : makeAddr gethostbyname addr = .ok sin) :
    gethostbyname (hostOf addr) = some sin.sinAddr ∧ sin.sinPort = sinPort addr := by
  unfold makeAddr at h
  rcases hhost : gethostbyname (hostOf addr) with _ | sinAddr
  · rw [hhost] at h
    cases h
  · rw [hhost] at h
    cases h
    exact ⟨rfl, rfl⟩

variable {addr : List UInt8} {user pass : Option (List UInt8)}

/-- SOCKS 4 asks for the address… -/
theorem request_socks4 (h : (socketProxySetupSocks4 peer addr user).request = some request) :
    ∃ sinAddr, peer.gethostbyname (hostOf addr) = some sinAddr ∧
      request = 4 :: 1 :: (be16 (sinPort addr) ++ sinAddr.1 ++ user.getD [] ++ [0]) := by
  unfold socketProxySetupSocks4 at h
  rcases hmake : makeAddr peer.gethostbyname addr with ret | sin
  · rw [hmake] at h
    cases h
  obtain ⟨hhost, hport⟩ := makeAddr_eq_ok hmake
  rw [hmake] at h
  refine ⟨sin.sinAddr, hhost, ?_⟩
  rcases user with _ | user
  · rw [← Option.some.inj (request_sends h), hport]
    simp
  · rw [← Option.some.inj (request_sends (request_sends h)), hport]
    simp

/-- …SOCKS 4a for the name… -/
theorem request_socks4a (haddr : 0 ∉ addr)
    (h : (socketProxySetupSocks4a peer addr user).request = some request) :
    request = 4 :: 1 ::
      (be16 (sinPort addr) ++ [0, 0, 0, 3] ++ user.getD [] ++ [0] ++ hostOf addr ++ [0]) := by
  obtain ⟨host, hhost, h⟩ := request_within h
  obtain rfl := proxyHost_eq_some haddr hhost
  rcases hmake : makeAddr peer.gethostbyname addr with ret | sin
  · rw [hmake] at h
    cases h
  obtain ⟨-, hport⟩ := makeAddr_eq_ok hmake
  rw [hmake] at h
  rcases user with _ | user
  · rw [← Option.some.inj (request_sends (request_sends h)), hport]
    simp
  · rw [← Option.some.inj (request_sends (request_sends (request_sends h))), hport]
    simp

theorem request_socks5Connect {k : ℕ} {buf : Buffer} {sin : SockaddrIn}
    (h : (socks5Connect peer k buf addr sin).request = some request) :
    ∃ buf' j, socks5Request buf addr sin = some (buf', j) ∧ frameOf buf' j = some request := by
  obtain ⟨⟨buf', j⟩, hrequest, h⟩ := request_within h
  obtain ⟨frame, hframe, h⟩ := request_within h
  refine ⟨buf', j, hrequest, ?_⟩
  rw [hframe]
  exact request_sends h

/-- …and SOCKS 5 for what its buffer has been filled with. -/
theorem request_socks5 (h : (socketProxySetupSocks5 peer addr user pass).request = some request) :
    ∃ sin buf buf' j, peer.gethostbyname (hostOf addr) = some sin.sinAddr ∧
      sin.sinPort = sinPort addr ∧ buf.length = 512 ∧
        socks5Request buf addr sin = some (buf', j) ∧ frameOf buf' j = some request := by
  obtain ⟨host, -, h⟩ := request_within h
  rcases hmake : makeAddr peer.gethostbyname addr with ret | sin
  · rw [hmake] at h
    cases h
  obtain ⟨hhost, hport⟩ := makeAddr_eq_ok hmake
  rw [hmake] at h
  obtain ⟨buf₁, hcopy, h⟩ := request_within h
  obtain ⟨buf₂, h₂, h⟩ := request_recvs (request_sends h)
  have hbuf : buf₂.length = 512 := by
    rw [h₂, (Buffer.memcpy_inside hcopy).1]
    exact List.length_replicate
  obtain ⟨method, -, h⟩ := request_within h
  split_ifs at h
  · cases h
  · obtain ⟨⟨buf₃, i⟩, hauth, h⟩ := request_within h
    obtain ⟨frame, -, h⟩ := request_within h
    obtain ⟨buf₄, h₄, h⟩ := request_recvs (request_sends h)
    obtain ⟨status, -, h⟩ := request_within h
    split_ifs at h
    · cases h
    · obtain ⟨buf', j, hrequest⟩ := request_socks5Connect h
      exact ⟨sin, buf₄, buf', j, hhost, hport, by rw [h₄, length_socks5Auth hauth, hbuf], hrequest⟩
  · obtain ⟨buf', j, hrequest⟩ := request_socks5Connect h
    exact ⟨sin, buf₂, buf', j, hhost, hport, hbuf, hrequest⟩

theorem request_http {host : List UInt8}
    (h : (socketProxySetupHttp peer addr host user pass).request = some request) :
    ∃ text rest, formatText addr = some text ∧ request = connectMethod ++ (text ++ 32 :: rest) := by
  obtain ⟨request', hrequest, h⟩ := request_within h
  obtain rfl := Option.some.inj (request_sends h)
  exact httpRequest_eq hrequest

end Asked

/-! ## What the request names -/

/-- The purpose: the bytes ask for the host, by its name or its address, and for the port. -/
def NamesTarget (peer : ProxyPeer) (addr request : List UInt8) (port : ℤ) : Prop :=
  ∃ target n, Request request target n ∧ (n : ℤ) = port ∧
    (target = .name (hostOf addr) ∨
      ∃ sinAddr, peer.gethostbyname (hostOf addr) = some sinAddr ∧ target = .address sinAddr.1)

/-- The address carries the port: behind its colon, in the form in which the request is going to
have it. -/
def CarriesPort (proxyType : ℤ) (addr : List UInt8) (port : ℤ) : Prop :=
  if proxyType = socketProxyHttp then
    ∃ text n, formatText addr = some text ∧ Authority text (hostOf addr) n ∧ (n : ℤ) = port
  else ((sinPort addr).toNat : ℤ) = port ∧ (proxyType = socketProxySocks5 →
    socketProxyUsesHostname addr = true → (hostOf addr).length ≤ 127)

section Names

variable {peer : ProxyPeer} {addr request : List UInt8} {port : ℤ}

/-- A request that says one port names the target exactly where that is the port. -/
theorem names_iff {target : Target} (hrequest : Request request target (sinPort addr).toNat)
    (htarget : target = .name (hostOf addr) ∨
      ∃ sinAddr, peer.gethostbyname (hostOf addr) = some sinAddr ∧ target = .address sinAddr.1)
    (hport : ∀ target n, Request request target n → n = (sinPort addr).toNat) :
    NamesTarget peer addr request port ↔ ((sinPort addr).toNat : ℤ) = port := by
  constructor
  · rintro ⟨target', n, hrequest', hn, -⟩
    rw [← hport target' n hrequest', hn]
  · exact fun h => ⟨target, _, hrequest, h, htarget⟩

variable {user pass : Option (List UInt8)}

theorem notMem_getD (huser : ∀ u ∈ user, 0 ∉ u) : 0 ∉ user.getD [] := by
  rcases user with _ | u
  · exact List.not_mem_nil
  · exact huser u rfl

theorem names_socks4_iff (huser : ∀ u ∈ user, 0 ∉ u)
    (h : (socketProxySetupSocks4 peer addr user).request = some request) :
    NamesTarget peer addr request port ↔ ((sinPort addr).toNat : ℤ) = port := by
  obtain ⟨sinAddr, hhost, rfl⟩ := request_socks4 h
  refine names_iff (.socks4 sinAddr.2 (notMem_getD huser)) (Or.inr ⟨sinAddr, hhost, rfl⟩)
    fun target n hrequest => ?_
  simp only [List.append_assoc] at hrequest
  exact hrequest.port_socks4

theorem names_socks4a_iff (haddr : 0 ∉ addr) (huser : ∀ u ∈ user, 0 ∉ u)
    (h : (socketProxySetupSocks4a peer addr user).request = some request) :
    NamesTarget peer addr request port ↔ ((sinPort addr).toNat : ℤ) = port := by
  obtain rfl := request_socks4a haddr h
  refine names_iff
    (.socks4a (by decide) (notMem_getD huser) fun h0 => (mem_hostOf haddr 0 h0).2 rfl)
    (Or.inl rfl) fun target n hrequest => ?_
  simp only [List.append_assoc] at hrequest
  exact hrequest.port_socks4

theorem names_socks5_iff (haddr : 0 ∉ addr)
    (h : (socketProxySetupSocks5 peer addr user pass).request = some request) :
    NamesTarget peer addr request port ↔ ((sinPort addr).toNat : ℤ) = port ∧
      (socketProxyUsesHostname addr = true → (hostOf addr).length ≤ 127) := by
  obtain ⟨sin, buf, buf', j, hhost, hport, hbuf, hrequest, hframe⟩ := request_socks5 h
  rcases Bool.eq_false_or_eq_true (socketProxyUsesHostname addr) with hname | hname
  swap
  · -- by address
    obtain ⟨buf'', hrequest', hbegins⟩ := socks5Request_address sin hbuf hname
    rw [hrequest] at hrequest'
    obtain ⟨rfl, rfl⟩ := Prod.mk.inj (Option.some.inj hrequest')
    rw [hbegins.frameOf (by simp [sin.sinAddr.2]), hport] at hframe
    obtain rfl := Option.some.inj hframe
    simp only [hname, Bool.false_eq_true, false_implies, and_true]
    exact names_iff (.socks5Address sin.sinAddr.2) (Or.inr ⟨sin.sinAddr, hhost, rfl⟩)
      fun target n hrequest =>
        @Request.port_socks5 _ (1 :: 0 :: 1 :: sin.sinAddr.1) _ _ hrequest
  by_cases hlength : (hostOf addr).length ≤ 127
  · obtain ⟨buf'', hrequest', hbegins⟩ := socks5Request_of_le sin hbuf haddr hname hlength
    rw [hrequest] at hrequest'
    obtain ⟨rfl, rfl⟩ := Prod.mk.inj (Option.some.inj hrequest')
    rw [hbegins.frameOf (by rw [length_socks5NameFrame]; push_cast; rfl), hport] at hframe
    obtain rfl := Option.some.inj hframe
    simp only [hlength, implies_true, and_true]
    exact names_iff (.socks5Name (by omega)) (Or.inl rfl) fun target n hrequest =>
      @Request.port_socks5 _ (1 :: 0 :: 3 :: lengthPrefixed (hostOf addr)) _ _ hrequest
  · -- the index has gone back into the frame, which is too short
    refine iff_of_false ?_ fun hboth => hlength (hboth.2 hname)
    rintro ⟨target, n, hasked, -⟩
    have hlt := hasked.length_le
    have hj := (length_request_iff haddr hname hrequest).1
    have hneg := signedChar_length_neg (not_le.mp hlength)
      (Nat.le_succ_of_le (length_hostOf_of_request haddr hname hrequest))
    have hframeLength := length_frameOf hframe
    omega

theorem names_http_iff {host : List UInt8}
    (h : (socketProxySetupHttp peer addr host user pass).request = some request) :
    NamesTarget peer addr request port ↔
      ∃ text n, formatText addr = some text ∧ Authority text (hostOf addr) n ∧ (n : ℤ) = port := by
  obtain ⟨text, rest, htext, rfl⟩ := request_http h
  constructor
  · rintro ⟨target, n, hrequest, hn, htarget⟩
    obtain ⟨host', rfl, hline⟩ := hrequest.authority
    rcases htarget with htarget | ⟨sinAddr, -, htarget⟩
    · cases htarget
      exact ⟨text, n, htext, (authority_append text rest _ n).mp hline, hn⟩
    · cases htarget
  · rintro ⟨text', n, htext', hline, hn⟩
    cases htext.symm.trans htext'
    exact ⟨_, n, .connect ((authority_append text rest _ n).mpr hline), hn, Or.inl rfl⟩

/-- **The request names the port given exactly where the address carries it.**  The port itself is
not looked at. -/
theorem proxySetup_names_iff {proxyAddr : List UInt8} {proxyType : ℤ} (haddr : 0 ∉ addr)
    (huser : ∀ u ∈ user, 0 ∉ u)
    (h : (proxySetup peer addr proxyType proxyAddr user pass).request = some request) :
    NamesTarget peer addr request port ↔ CarriesPort proxyType addr port := by
  unfold proxySetup at h
  unfold CarriesPort
  split_ifs at h with hsocks4 hname hsocks5 hhttp
  · have hother : ¬ proxyType = socketProxyHttp ∧ ¬ proxyType = socketProxySocks5 := by
      rcases hsocks4 with rfl | rfl <;> decide
    rw [names_socks4a_iff haddr huser h, if_neg hother.1]
    exact ⟨fun hport => ⟨hport, fun hfive => absurd hfive hother.2⟩, And.left⟩
  · have hother : ¬ proxyType = socketProxyHttp ∧ ¬ proxyType = socketProxySocks5 := by
      rcases hsocks4 with rfl | rfl <;> decide
    rw [names_socks4_iff huser h, if_neg hother.1]
    exact ⟨fun hport => ⟨hport, fun hfive => absurd hfive hother.2⟩, And.left⟩
  · rw [names_socks5_iff haddr h, if_neg (by rw [hsocks5]; decide)]
    exact and_congr_right fun _ => ⟨fun hlength _ => hlength, fun hlength => hlength hsocks5⟩
  · rw [names_http_iff h, if_pos hhttp]
  · cases h

/-- For the host `h` alone the request says port 0. -/
example : (proxySetup willingPeer [104] socketProxySocks4a [112] none none).request
    = some [4, 1, 0, 0, 0, 0, 0, 3, 0, 104, 0] := by
  decide +kernel

end Names

/-! ## What the proxy is asked -/

/-- A run that makes use of its socket, or fails before. -/
def ProxyRun.Starts (run : ProxyRun) : Prop :=
  run.frames ≠ [] ∨ run = .undefined ∨ ∃ ret ≠ 0, run = .returned ret

theorem ProxyRun.Starts.throughVariable {run : ProxyRun} (h : run.Starts) :
    run.throughVariable = .undefined := by
  obtain ⟨ending, frames, request⟩ := run
  rcases h with hframes | hundefined | ⟨ret, hret, hreturned⟩
  · obtain ⟨frame, rest, rfl⟩ := List.exists_cons_of_ne_nil hframes
    rfl
  · rw [hundefined]
    rfl
  · rw [hreturned, ProxyRun.throughVariable, ProxyRun.returned]
    exact if_pos hret

section Starts

variable {peer : ProxyPeer} {addr : List UInt8} {user pass : Option (List UInt8)}

theorem starts_sends (peer : ProxyPeer) (k : ℕ) (frame : List UInt8) (next : ProxyRun) :
    (peer.sends k frame next).Starts := by
  obtain ⟨rest, hframes⟩ := frames_sends peer k frame next
  exact Or.inl (by rw [hframes]; exact List.cons_ne_nil _ _)

theorem starts_within {α : Type} {a : Option α} {next : α → ProxyRun}
    (h : ∀ x, (next x).Starts) : (ProxyRun.within a next).Starts := by
  cases a with
  | none => exact Or.inr (Or.inl rfl)
  | some x => exact h x

/-- An address that is not found fails. -/
theorem makeAddr_ne_zero {gethostbyname : List UInt8 → Option InAddr} {ret : ℤ}
    (h : makeAddr gethostbyname addr = .error ret) : ret ≠ 0 := by
  unfold makeAddr at h
  cases hhost : gethostbyname (hostOf addr) with
  | none =>
    rw [hhost] at h
    obtain rfl := Except.error.inj h
    decide
  | some sinAddr =>
    rw [hhost] at h
    cases h

theorem starts_socks4 : (socketProxySetupSocks4 peer addr user).Starts := by
  unfold socketProxySetupSocks4
  cases hmake : makeAddr peer.gethostbyname addr with
  | error ret => exact Or.inr (Or.inr ⟨ret, makeAddr_ne_zero hmake, rfl⟩)
  | ok sin => cases user <;> exact starts_sends ..

theorem starts_socks4a : (socketProxySetupSocks4a peer addr user).Starts := by
  refine starts_within fun host => ?_
  cases hmake : makeAddr peer.gethostbyname addr with
  | error ret => exact Or.inr (Or.inr ⟨ret, makeAddr_ne_zero hmake, rfl⟩)
  | ok sin => cases user <;> exact starts_sends ..

theorem starts_socks5 : (socketProxySetupSocks5 peer addr user pass).Starts := by
  refine starts_within fun host => ?_
  cases hmake : makeAddr peer.gethostbyname addr with
  | error ret => exact Or.inr (Or.inr ⟨ret, makeAddr_ne_zero hmake, rfl⟩)
  | ok sin => exact starts_within fun buf => starts_sends ..

theorem starts_proxySetup (proxyType : ℤ) (proxyAddr : List UInt8) :
    (proxySetup peer addr proxyType proxyAddr user pass).Starts := by
  unfold proxySetup
  split_ifs
  · exact starts_socks4a
  · exact starts_socks4
  · exact starts_socks5
  · exact starts_within fun request => starts_sends ..
  · exact Or.inr (Or.inr ⟨_, by decide, rfl⟩)

/-- **A proxy that is connected is asked nothing**: the run is undefined.  One that is not is an
error, if its name has room. -/
theorem tcpConnectProxy_eq (peer : ProxyPeer) (addr : List UInt8) (port options proxyType : ℤ)
    (proxyAddr : List UInt8) (user pass : Option (List UInt8)) :
    tcpConnectProxy peer addr port options proxyType proxyAddr user pass = .undefined
      ∨ peer.connect ≠ 0 ∧ tcpConnectProxy peer addr port options proxyType proxyAddr user pass
        = .returned errTr50ProxyConnFailed := by
  rw [tcpConnectProxy]
  cases proxyEndpoint proxyType proxyAddr with
  | none => exact Or.inl rfl
  | some endpoint =>
    rw [ProxyRun.within_some]
    cases sprintf (endpoint ++ cstring [':', '1', '0', '0', '0', '0']) 512 with
    | none => exact Or.inl rfl
    | some _ =>
      rw [ProxyRun.within_some, (starts_proxySetup proxyType proxyAddr).throughVariable]
      by_cases hconnect : peer.connect ≠ 0
      · exact Or.inr ⟨hconnect, if_pos hconnect⟩
      · exact Or.inl (if_neg hconnect)

/-- **No request names the target**, for there is none; and once the proxy is connected the run is
undefined. -/
theorem tcpConnectProxy_never_asks (peer : ProxyPeer) (addr : List UInt8)
    (port options proxyType : ℤ) (proxyAddr : List UInt8) (user pass : Option (List UInt8)) :
    (¬ ∃ request, (tcpConnectProxy peer addr port options proxyType proxyAddr user pass).request
        = some request ∧ NamesTarget peer addr request port)
      ∧ (peer.connect = 0 →
        tcpConnectProxy peer addr port options proxyType proxyAddr user pass = .undefined) := by
  rcases tcpConnectProxy_eq peer addr port options proxyType proxyAddr user pass with
    hundefined | ⟨hconnect, hreturned⟩
  · rw [hundefined]
    refine ⟨?_, fun _ => rfl⟩
    rintro ⟨_, ⟨⟩, -⟩
  · rw [hreturned]
    refine ⟨?_, fun hzero => absurd hzero hconnect⟩
    rintro ⟨_, ⟨⟩, -⟩

/-- The host `h` on port 1883 by the proxy `p`, which is there and takes everything. -/
theorem not_tcpConnectProxy_names :
    ¬ ∀ (peer : ProxyPeer) (addr : List UInt8) (port options proxyType : ℤ)
      (proxyAddr : List UInt8) (user pass : Option (List UInt8)),
      1 ≤ port → port ≤ 65535 → peer.connect = 0 →
      ∃ request, (tcpConnectProxy peer addr port options proxyType proxyAddr user pass).request
        = some request ∧ NamesTarget peer addr request port := by
  intro h
  obtain ⟨request, hrequest, -⟩ := h willingPeer [104] 1883 0 socketProxySocks4a [112] none none
    (by decide) (by decide) rfl
  rcases tcpConnectProxy_eq willingPeer [104] 1883 0 socketProxySocks4a [112] none none with
    hundefined | ⟨hconnect, -⟩
  · rw [hundefined] at hrequest
    cases hrequest
  · exact hconnect rfl

end Starts

end Tr50

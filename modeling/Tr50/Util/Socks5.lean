import Tr50.Util.Proxy

/-!
# Util/Socks5 — what `_socket_proxy_setup_socks5` sends

With user name and password the client sends three frames: the greeting, the authentication and the
request.  A length is written into the buffer and read back as a signed `char` to move the index
behind the text, so a text of more than 127 bytes moves it backwards: the index is then wrong, or
outside the buffer.  `socketProxySetupSocks5_negotiates_iff` says when the frames are the right
ones.
-/

namespace Tr50

open Machinery

/-! ## The frames -/

def socks5Greeting : List UInt8 := [0x05, 0x02, 0x02, 0x00]

/-- A length and the text behind it. -/
def lengthPrefixed (text : List UInt8) : List UInt8 := UInt8.ofNat text.length :: text

def socks5AuthFrame (user pass : List UInt8) : List UInt8 :=
  0x01 :: (lengthPrefixed user ++ lengthPrefixed pass)

def socks5NameFrame (host : List UInt8) (port : UInt16) : List UInt8 :=
  0x05 :: 0x01 :: 0x00 :: 0x03 :: (lengthPrefixed host ++ be16 port)

/-! ## The buffer -/

/-- Bytes laid over the front of others. -/
def overlay (vs bs : List UInt8) : List UInt8 := vs ++ bs.drop vs.length

theorem getElem?_overlay (vs bs : List UInt8) (k : ℕ) : (overlay vs bs)[k]? = vs[k]?.or bs[k]? := by
  rw [overlay, List.getElem?_append]
  split_ifs with hk
  · rw [List.getElem?_eq_getElem hk, Option.some_or]
  · rw [List.getElem?_drop, Nat.add_sub_cancel' (by omega), List.getElem?_eq_none (not_lt.mp hk),
      Option.none_or]

/-- The buffer with known bytes in front. -/
structure Begins (buf : Buffer) (bs : List UInt8) : Prop where
  length : buf.length = 512
  front : bs.map some <+: buf

section Begins

variable {buf : Buffer} {bs vs text : List UInt8} {i : ℤ}

theorem Begins.nil (h : buf.length = 512) : Begins buf [] := ⟨h, List.nil_prefix⟩

theorem Begins.of_append (h : Begins buf (bs ++ vs)) : Begins buf bs where
  length := h.length
  front := ((List.prefix_append bs vs).map some).trans h.front

theorem Begins.memcpy (h : Begins buf bs) (hi : i = bs.length)
    (hfits : bs.length + vs.length ≤ 512) :
    ∃ buf', buf.memcpy i vs = some buf' ∧ Begins buf' (bs ++ vs) := by
  obtain ⟨buf', hcopy, hfront, hlength⟩ := Buffer.memcpy_behind h.front (h.length ▸ hfits)
  exact ⟨buf', hi ▸ hcopy, hlength.trans h.length, hfront⟩

theorem Begins.store (h : Begins buf bs) (hi : i = bs.length) (hfits : bs.length < 512)
    (v : UInt8) :
    ∃ buf', buf.store i v = some buf' ∧ Begins buf' (bs ++ [v]) := by
  rw [Buffer.store_eq_memcpy]
  exact h.memcpy hi hfits

theorem Begins.over (h : Begins buf bs) (hvs : vs.length ≤ bs.length) :
    ∃ buf', buf.memcpy 0 vs = some buf' ∧ Begins buf' (overlay vs bs) := by
  obtain ⟨buf', hcopy, hfront, hlength⟩ := Buffer.memcpy_front h.front hvs
  exact ⟨buf', hcopy, hlength.trans h.length, hfront⟩

theorem Begins.length_le (h : Begins buf bs) : bs.length ≤ 512 := by
  rw [← h.length, ← List.length_map (f := some)]
  exact h.front.length_le

theorem Begins.charAt (h : Begins buf bs) {k : ℕ} {c : UInt8} (hc : bs[k]? = some c) :
    charAt buf k = some c := by
  obtain ⟨rest, hrest⟩ := h.front
  have hcell : buf[k]? = some (some c) := by
    rw [← hrest, List.getElem?_append_left (by simpa using (List.getElem?_eq_some_iff.mp hc).1),
      List.getElem?_map, hc]
    rfl
  rw [Tr50.charAt, if_pos (Int.natCast_nonneg k), Int.toNat_natCast, hcell]
  rfl

theorem Begins.frameOf (h : Begins buf bs) (hi : i = bs.length) : frameOf buf i = some bs := by
  rw [hi, Tr50.frameOf, Int.toNat_natCast, Buffer.written_take_front h.front]
  exact if_pos rfl

end Begins

/-- A frame has as many bytes as it is asked for. -/
theorem length_frameOf {buf : Buffer} {n : ℤ} {frame : List UInt8}
    (h : frameOf buf n = some frame) :
    (frame.length : ℤ) = n := by
  simp only [frameOf] at h
  split_ifs at h with hlength
  rw [← Option.some.inj h]
  exact hlength

/-! ## A length that is read back -/

/-- **The value of a length as a `char`**: itself up to 127, and less from there on. -/
theorem signedChar_length (n : ℕ) :
    signedChar (UInt8.ofNat n) ≤ n ∧ (signedChar (UInt8.ofNat n) = n ↔ n ≤ 127) := by
  unfold signedChar
  rw [UInt8.toNat_ofNat']
  split_ifs <;> omega

theorem signedChar_length_neg {n : ℕ} (h : 127 < n) (hn : n ≤ 255) :
    signedChar (UInt8.ofNat n) < 0 := by
  unfold signedChar
  rw [UInt8.toNat_ofNat']
  split_ifs <;> omega

section Text

variable {buf buf' : Buffer} {bs text : List UInt8} {i j size : ℤ}

/-- A short text goes behind its length. -/
theorem socks5Text_of_le (h : Begins buf bs) (hi : i = bs.length) (htext : 0 ∉ text)
    (hlength : text.length ≤ 127) (hsize : text.length ≤ size)
    (hfits : bs.length + 1 + size ≤ 512) :
    ∃ buf', socks5Text buf i text size = some (buf', i + (text.length + 1)) ∧
      Begins buf' (bs ++ lengthPrefixed text) := by
  obtain ⟨n, rfl⟩ := Int.eq_ofNat_of_zero_le (show 0 ≤ size by omega)
  obtain ⟨buf₁, hstore, h₁⟩ := h.store hi (by omega) (UInt8.ofNat text.length)
  have hbytes : strncpyBytes text n = text ++ List.replicate (n - text.length) 0 := by
    rw [strncpyBytes, List.take_of_length_le (by omega)]
  obtain ⟨buf₂, hcopy, h₂⟩ := @Begins.memcpy buf₁ _ (strncpyBytes text n) (i + 1) h₁
    (by rw [hi, List.length_append, List.length_singleton]; push_cast; rfl)
    (by simp only [hbytes, List.length_append, List.length_replicate, List.length_singleton]; omega)
  rw [hbytes, ← List.append_assoc] at h₂
  have h₃ := h₂.of_append
  have hlen : charAt buf₂ i = some (UInt8.ofNat text.length) := by
    rw [hi]
    exact h₃.charAt (by simp)
  refine ⟨buf₂, ?_, ?_⟩
  · have hcopy' : strncpy buf₁ (i + 1) text (n : ℤ) = some buf₂ := by
      rw [strncpy, if_pos (by omega), Int.toNat_natCast, hcopy]
    simp only [socks5Text, strlen_of_notMem htext, hstore, hcopy', hlen, bind, Option.bind_some,
      pure, (signedChar_length text.length).2.mpr hlength]
  · rwa [List.append_assoc] at h₃

/-- What a text goes through. -/
theorem socks5Text_eq_some (h : socks5Text buf i text size = some (buf', j)) :
    0 ≤ i ∧ buf'.length = buf.length ∧
      buf'[i.toNat]? = some (some (UInt8.ofNat (strlen text))) ∧
        ∃ len, charAt buf' i = some len ∧ j = i + (signedChar len + 1) := by
  simp only [socks5Text, bind, pure, Option.bind_eq_some_iff, Option.some.injEq, Prod.mk.injEq] at h
  obtain ⟨buf₁, hstore, buf₂, hcopy, len, hlen, rfl, rfl⟩ := h
  obtain ⟨hi, hlt, rfl⟩ := Buffer.store_inside hstore
  unfold strncpy at hcopy
  split_ifs at hcopy
  obtain ⟨hlength, -, hkeeps⟩ := Buffer.memcpy_inside hcopy
  refine ⟨hi, hlength.trans List.length_set, ?_, len, hlen, rfl⟩
  rw [hkeeps i.toNat (by omega), List.getElem?_set_self (by omega)]

/-- **However long the text is, the index moves by what its length is as a `char`.** -/
theorem socks5Text_index (htext : 0 ∉ text) (h : socks5Text buf i text size = some (buf', j)) :
    j = i + (signedChar (UInt8.ofNat text.length) + 1) := by
  obtain ⟨hi, -, hcell, len, hlen, rfl⟩ := socks5Text_eq_some h
  rw [charAt, if_pos hi, hcell, strlen_of_notMem htext] at hlen
  rw [← Option.some.inj hlen]

end Text

/-! ## The authentication -/

section Auth

variable {buf buf' : Buffer} {user pass : List UInt8} {j : ℤ}

theorem length_socks5AuthFrame (user pass : List UInt8) :
    (socks5AuthFrame user pass).length = 3 + user.length + pass.length := by
  simp only [socks5AuthFrame, lengthPrefixed, List.length_cons, List.length_append]
  omega

theorem socks5Auth_of_le (h : buf.length = 512) (huser : 0 ∉ user) (hpass : 0 ∉ pass)
    (huserLength : user.length ≤ 127) (hpassLength : pass.length ≤ 127) :
    ∃ buf', socks5Auth buf (some user) (some pass)
        = some (buf', (3 : ℤ) + user.length + pass.length) ∧
      Begins buf' (socks5AuthFrame user pass) := by
  obtain ⟨buf₁, hstore, h₁⟩ := (Begins.nil h).store rfl (by simp) 0x01
  obtain ⟨buf₂, hu, h₂⟩ := @socks5Text_of_le buf₁ _ user 1 (256 - 1) h₁ rfl huser huserLength
    (by omega) (by simp)
  obtain ⟨buf₃, hp, h₃⟩ := @socks5Text_of_le buf₂ _ pass (1 + (user.length + 1))
    (256 - (1 + (user.length + 1))) h₂ (by simp [lengthPrefixed]; omega) hpass hpassLength
    (by omega) (by simp [lengthPrefixed]; omega)
  refine ⟨buf₃, ?_, h₃⟩
  have hindex : (1 : ℤ) + (user.length + 1) + (pass.length + 1)
      = 3 + user.length + pass.length := by omega
  simp only [List.length_nil, Nat.cast_zero] at hstore
  simp only [socks5Auth, socks5Credential, bind, hstore, hu, hp, hindex, Option.bind_some]

theorem length_socks5Credential {buf buf' : Buffer} {i j : ℤ} {text : Option (List UInt8)}
    (h : socks5Credential buf i text = some (buf', j)) : buf'.length = buf.length := by
  rcases text with _ | text
  · obtain ⟨buf₁, hstore, hpair⟩ := Option.map_eq_some_iff.mp h
    obtain ⟨-, -, rfl⟩ := Buffer.store_inside hstore
    obtain ⟨rfl, -⟩ := Prod.mk.inj hpair
    exact List.length_set
  · exact (socks5Text_eq_some h).2.1

theorem length_socks5Auth {user pass : Option (List UInt8)}
    (h : socks5Auth buf user pass = some (buf', j)) : buf'.length = buf.length := by
  simp only [socks5Auth, bind, Option.bind_eq_some_iff, Prod.exists] at h
  obtain ⟨buf₁, hstore, buf₂, i, huser, hpass⟩ := h
  obtain ⟨-, -, rfl⟩ := Buffer.store_inside hstore
  rw [length_socks5Credential hpass, length_socks5Credential huser, List.length_set]

theorem socks5Auth_index (huser : 0 ∉ user) (hpass : 0 ∉ pass)
    (h : socks5Auth buf (some user) (some pass) = some (buf', j)) :
    j = 3 + signedChar (UInt8.ofNat user.length) + signedChar (UInt8.ofNat pass.length) := by
  simp only [socks5Auth, socks5Credential, bind, Option.bind_eq_some_iff, Prod.exists] at h
  obtain ⟨buf₁, -, buf₂, i, hu, hp⟩ := h
  rw [socks5Text_index hpass hp, socks5Text_index huser hu]
  omega

/-- **The authentication has its length exactly for texts of up to 127 bytes.** -/
theorem length_auth_iff (huser : 0 ∉ user) (hpass : 0 ∉ pass)
    (h : socks5Auth buf (some user) (some pass) = some (buf', j)) :
    j = (socks5AuthFrame user pass).length ↔ user.length ≤ 127 ∧ pass.length ≤ 127 := by
  obtain ⟨hu, hu'⟩ := signedChar_length user.length
  obtain ⟨hp, hp'⟩ := signedChar_length pass.length
  rw [length_socks5AuthFrame, socks5Auth_index huser hpass h, ← hu', ← hp']
  push_cast
  omega

end Auth

/-! ## The request -/

section Request

variable {buf buf' : Buffer} {addr : List UInt8} {sin : SockaddrIn} {j : ℤ}

theorem length_socks5NameFrame (host : List UInt8) (port : UInt16) :
    (socks5NameFrame host port).length = 7 + host.length := by
  simp only [socks5NameFrame, lengthPrefixed, List.length_cons, List.length_append, length_be16]
  omega

theorem socks5Request_of_le (sin : SockaddrIn) (h : buf.length = 512) (haddr : 0 ∉ addr)
    (hname : socketProxyUsesHostname addr = true) (hlength : (hostOf addr).length ≤ 127) :
    ∃ buf', socks5Request buf addr sin = some (buf', (7 : ℤ) + (hostOf addr).length) ∧
      Begins buf' (socks5NameFrame (hostOf addr) sin.sinPort) := by
  have hhost : 0 ∉ hostOf addr := fun h0 => haddr ((List.takeWhile_sublist _).subset h0)
  obtain ⟨buf₁, hcopy₁, h₁⟩ := @Begins.memcpy buf [] [0x05, 0x01, 0x00] 0 (Begins.nil h) rfl
    (by simp)
  obtain ⟨buf₂, hstore, h₂⟩ := @Begins.store buf₁ _ 3 h₁ rfl (by simp) 0x03
  obtain ⟨buf₃, htext, h₃⟩ := @socks5Text_of_le buf₂ _ (hostOf addr) 4 252 h₂ rfl hhost hlength
    (by omega) (by simp)
  obtain ⟨buf₄, hcopy₂, h₄⟩ := @Begins.memcpy buf₃ _ (be16 sin.sinPort)
    (4 + ((hostOf addr).length + 1)) h₃ (by simp [lengthPrefixed]; omega)
    (by simp [lengthPrefixed]; omega)
  refine ⟨buf₄, ?_, h₄⟩
  have hindex : (4 : ℤ) + ((hostOf addr).length + 1) + 2 = 7 + (hostOf addr).length := by omega
  simp only [socks5Request, socks5Target, hname, if_true, proxyHost_of_le haddr (by omega), bind,
    pure, hcopy₁, hstore, htext, hcopy₂, hindex, Option.bind_some]

/-- **A request by name has its length exactly for names of up to 127 bytes.** -/
theorem length_request_iff (haddr : 0 ∉ addr) (hname : socketProxyUsesHostname addr = true)
    (h : socks5Request buf addr sin = some (buf', j)) :
    j = 7 + signedChar (UInt8.ofNat (hostOf addr).length) ∧
      (j = 7 + (hostOf addr).length ↔ (hostOf addr).length ≤ 127) := by
  simp only [socks5Request, socks5Target, hname, if_true, bind, pure, Option.bind_eq_some_iff,
    Option.some.injEq, Prod.mk.injEq, Prod.exists] at h
  obtain ⟨buf₁, -, buf₂, i, ⟨buf₃, -, host, hhost, htext⟩, buf₄, -, rfl, rfl⟩ := h
  obtain rfl := proxyHost_eq_some haddr hhost
  have hhost0 : 0 ∉ hostOf addr := fun h0 => haddr ((List.takeWhile_sublist _).subset h0)
  rw [socks5Text_index hhost0 htext, ← (signedChar_length (hostOf addr).length).2]
  omega

/-- The name of a request has been copied whole. -/
theorem length_hostOf_of_request (haddr : 0 ∉ addr) (hname : socketProxyUsesHostname addr = true)
    (h : socks5Request buf addr sin = some (buf', j)) : (hostOf addr).length ≤ 254 := by
  simp only [socks5Request, socks5Target, hname, if_true, bind, pure, Option.bind_eq_some_iff] at h
  obtain ⟨buf₁, -, pair, ⟨buf₂, -, host, hhost, -⟩, -⟩ := h
  by_contra hlength
  rw [proxyHost_of_ge haddr (by omega)] at hhost
  cases hhost

/-- A request by address. -/
theorem socks5Request_address (sin : SockaddrIn) (h : buf.length = 512)
    (hname : socketProxyUsesHostname addr = false) :
    ∃ buf', socks5Request buf addr sin = some (buf', 10) ∧
      Begins buf' (0x05 :: 0x01 :: 0x00 :: 0x01 :: (sin.sinAddr.1 ++ be16 sin.sinPort)) := by
  obtain ⟨buf₁, hcopy₁, h₁⟩ := @Begins.memcpy buf [] [0x05, 0x01, 0x00] 0 (Begins.nil h) rfl
    (by simp)
  obtain ⟨buf₂, hstore, h₂⟩ := @Begins.store buf₁ _ 3 h₁ rfl (by simp) 0x01
  obtain ⟨buf₃, hcopy₂, h₃⟩ := @Begins.memcpy buf₂ _ sin.sinAddr.1 4 h₂ rfl
    (by simp [sin.sinAddr.2])
  obtain ⟨buf₄, hcopy₃, h₄⟩ := @Begins.memcpy buf₃ _ (be16 sin.sinPort) 8 h₃
    (by simp [sin.sinAddr.2]) (by simp [sin.sinAddr.2])
  refine ⟨buf₄, ?_, h₄⟩
  simp only [socks5Request, socks5Target, hname, Bool.false_eq_true, if_false, bind, pure,
    hcopy₁, hstore, hcopy₂, hcopy₃, Option.bind_some]
  rfl

end Request

/-! ## What a receive leads to -/

section Recv

variable {peer : ProxyPeer} {k : ℕ} {buf : Buffer} {bs frame : List UInt8}
  {next : Buffer → ProxyRun}

/-- The run is at its end, with nothing sent and nothing undefined. -/
def ProxyRun.Idle (run : ProxyRun) : Prop := run.ending ≠ .undefined ∧ run.frames = []

/-- Some of what the `k`-th receive brings is among the first `n` bytes. -/
def ProxyPeer.Brings (peer : ProxyPeer) (k n : ℕ) (bytes : List UInt8) : Prop :=
  peer.recv[k]? = some (.ok bytes) ∧ bytes.take n ≠ []

theorem ProxyPeer.Brings.of_getElem? {bytes : List UInt8} {n i : ℕ} {c : UInt8}
    (hrecv : peer.recv[k]? = some (.ok bytes)) (hc : bytes[i]? = some c) (hn : 0 < n) :
    peer.Brings k n bytes := by
  refine ⟨hrecv, fun hnil => ?_⟩
  rcases List.take_eq_nil_iff.mp hnil with h0 | rfl
  · omega
  · cases hc

/-- **A receive over known bytes leaves them under what it brings**; without one the run is over. -/
theorem recvs_cases (peer : ProxyPeer) (k : ℕ) {n : ℕ} {len : ℤ} (next : Buffer → ProxyRun)
    (h : Begins buf bs) (hlen : len = n) (hn : n ≤ bs.length) :
    (peer.recvs k buf len next).Idle ∧ (∀ bytes, ¬ peer.Brings k n bytes) ∨
      ∃ bytes buf', peer.Brings k n bytes ∧ Begins buf' (overlay (bytes.take n) bs) ∧
        peer.recvs k buf len next = next buf' := by
  subst hlen
  have hsize : ((n : ℤ) % 2 ^ 64).toNat = n := by
    have := h.length_le
    omega
  unfold ProxyPeer.recvs
  rcases hrecv : peer.recv[k]? with _ | ret | bytes
  · exact Or.inl ⟨⟨nofun, rfl⟩, fun bytes hb => nomatch hrecv.symm.trans hb.1⟩
  · exact Or.inl ⟨⟨nofun, rfl⟩, fun bytes hb => nomatch hrecv.symm.trans hb.1⟩
  · simp only [hsize]
    split_ifs with hnil
    · refine Or.inl ⟨⟨nofun, rfl⟩, fun bytes' hb => hb.2 ?_⟩
      cases hrecv.symm.trans hb.1
      exact hnil
    · obtain ⟨buf', hcopy, hbuf'⟩ := h.over (show (bytes.take n).length ≤ bs.length by
        rw [List.length_take]
        omega)
      exact Or.inr ⟨bytes, buf', ⟨hrecv, hnil⟩, hbuf', by rw [hcopy]; rfl⟩

/-- **The last receive goes wrong** where more comes than the buffer holds. -/
theorem recvs_last (peer : ProxyPeer) (k : ℕ) (n ret : ℤ) (h : buf.length = 512) :
    (peer.recvs k buf n fun _ => .returned ret).ending = .undefined ↔
      ∃ bytes, peer.recv[k]? = some (.ok bytes) ∧
        512 < (bytes.take (n % 2 ^ 64).toNat).length := by
  unfold ProxyPeer.recvs
  rcases hrecv : peer.recv[k]? with _ | ret | bytes
  · simp [ProxyRun.waiting]
  · simp [ProxyRun.returned]
  · have hbytes : (∃ bytes', some (Except.ok (ε := ℤ) bytes) = some (.ok bytes') ∧
        512 < (bytes'.take (n % 2 ^ 64).toNat).length)
        ↔ 512 < (bytes.take (n % 2 ^ 64).toNat).length := by simp
    rw [hbytes]
    simp only
    generalize bytes.take (n % 2 ^ 64).toNat = piece
    split_ifs with hnil
    · simp [hnil, ProxyRun.returned]
    · rcases hcopy : buf.memcpy 0 piece with _ | buf'
      · exact iff_of_true rfl (h ▸ Buffer.memcpy_zero_eq_none.mp hcopy)
      · refine iff_of_false nofun fun hlt => ?_
        exact nomatch hcopy.symm.trans (Buffer.memcpy_zero_eq_none.mpr (h ▸ hlt))

end Recv

/-! ## The answer to the request -/

section Reply

variable {peer : ProxyPeer} {buf : Buffer} {bs host : List UInt8} {port : UInt16}

theorem frames_within {α : Type} {a : Option α} {next : α → ProxyRun}
    (h : ∀ a, (next a).frames = []) : (ProxyRun.within a next).frames = [] := by
  rcases a with _ | a
  · rfl
  · exact h a

theorem frames_recvs {k : ℕ} {n : ℤ} {next : Buffer → ProxyRun}
    (h : ∀ buf, (next buf).frames = []) : (peer.recvs k buf n next).frames = [] := by
  unfold ProxyPeer.recvs
  rcases peer.recv[k]? with _ | ret | bytes
  · rfl
  · rfl
  · simp only
    split_ifs
    · rfl
    · exact frames_within h

theorem frames_socks5Reply (peer : ProxyPeer) (k : ℕ) (buf : Buffer) :
    (socks5Reply peer k buf).frames = [] := by
  refine frames_recvs fun buf => frames_within fun rep => ?_
  split_ifs
  · refine frames_within fun atyp => ?_
    split_ifs
    · exact frames_recvs fun _ => rfl
    · exact frames_recvs fun buf => frames_within fun len => frames_recvs fun _ => rfl
    · rfl
  · rfl

theorem getD_eq_iff {o : Option UInt8} {c d : UInt8} (h : d ≠ c) : o.getD d = c ↔ o = some c := by
  rcases o with _ | b
  · exact iff_of_false h nofun
  · exact ⟨congrArg some, Option.some.inj⟩

/-- A cell after a receive: what has come, or what has been there. -/
theorem charAt_overlay {bytes : List UInt8} {n k : ℕ} {c : UInt8}
    (h : Begins buf (overlay (bytes.take n) bs)) (hk : k < n) (hc : bs[k]? = some c) :
    charAt buf k = some (bytes[k]?.getD c) := by
  refine h.charAt ?_
  rw [getElem?_overlay, List.getElem?_take_of_lt hk, hc, Option.or_some]

/-- …and one that the receive has not reached. -/
theorem charAt_overlay_of_ge {bytes : List UInt8} {n k : ℕ} {c : UInt8}
    (h : Begins buf (overlay (bytes.take n) bs)) (hk : n ≤ k) (hc : bs[k]? = some c) :
    charAt buf k = some c := by
  refine h.charAt ?_
  rw [getElem?_overlay, List.getElem?_take_eq_none hk, hc, Option.none_or]

/-- What follows is the name of a length that is too large for a `char`, and more of it than the
buffer holds. -/
def ProxyPeer.BringsName (peer : ProxyPeer) (len : UInt8) : Prop :=
  128 ≤ len.toNat ∧ ∃ one name : List UInt8, peer.recv[3]? = some (.ok one) ∧ one ≠ [] ∧
    peer.recv[4]? = some (.ok name) ∧ 512 < name.length

/-- The request is answered by such a name. -/
def ProxyPeer.Overlong (peer : ProxyPeer) : Prop :=
  ∃ (reply : List UInt8) (len : UInt8), peer.recv[2]? = some (.ok reply) ∧ reply[1]? = some 0 ∧
    reply[3]? = some 3 ∧ reply[4]? = some len ∧ peer.BringsName len

/-- The size of the last receive. -/
theorem take_signedChar (len : UInt8) (name : List UInt8) :
    512 < (name.take (signedChar len % 2 ^ 64).toNat).length ↔
      128 ≤ len.toNat ∧ 512 < name.length := by
  have hlen := len.toNat_lt
  rw [List.length_take, signedChar]
  split_ifs <;> omega

/-- The receives of a name behind its length. -/
theorem undefined_boundName_iff {len : UInt8} (h : Begins buf bs) (hlen : bs[4]? = some len) :
    (peer.recvs 3 buf 1 fun buf => .within (charAt buf 4) fun len =>
        peer.recvs 4 buf (signedChar len) fun _ => .returned 0).ending = .undefined ↔
      peer.BringsName len := by
  have hlt : 4 < bs.length := (List.getElem?_eq_some_iff.mp hlen).1
  rcases @recvs_cases _ _ peer 3 1 1 (fun buf => .within (charAt buf 4) fun len =>
      peer.recvs 4 buf (signedChar len) fun _ => .returned 0) h rfl (by omega) with
    ⟨hidle, hno⟩ | ⟨one, buf', ⟨hrecv, hone⟩, h', hrun⟩
  · refine iff_of_false hidle.1 ?_
    rintro ⟨-, one, name, hrecv, hone, -⟩
    exact hno one
      ⟨hrecv, fun hnil => hone ((List.take_eq_nil_iff.mp hnil).resolve_left one_ne_zero)⟩
  · have hcell : charAt buf' 4 = some len := charAt_overlay_of_ge h' (by decide) hlen
    rw [hrun, hcell, ProxyRun.within_some, recvs_last peer 4 _ 0 h'.length]
    constructor
    · rintro ⟨name, hname, hlong⟩
      obtain ⟨h128, h512⟩ := (take_signedChar len name).mp hlong
      refine ⟨h128, one, name, hrecv, ?_, hname, h512⟩
      rintro rfl
      exact hone rfl
    · rintro ⟨h128, one, name, -, -, hname, h512⟩
      exact ⟨name, hname, (take_signedChar len name).mpr ⟨h128, h512⟩⟩

theorem overlong_iff {reply : List UInt8} (hrecv : peer.recv[2]? = some (.ok reply)) :
    peer.Overlong ↔ reply[1]? = some 0 ∧ reply[3]? = some 3 ∧
      ∃ len, reply[4]? = some len ∧ peer.BringsName len := by
  constructor
  · rintro ⟨bytes, len, hbytes, hrep, hatyp, hrest⟩
    cases hrecv.symm.trans hbytes
    exact ⟨hrep, hatyp, len, hrest⟩
  · rintro ⟨hrep, hatyp, len, hrest⟩
    exact ⟨reply, len, hrecv, hrep, hatyp, hrest⟩

/-- The byte in front of a name is the proxy's, or the length of the host. -/
theorem undefined_nameReply_iff {reply : List UInt8}
    (h : Begins buf (overlay (reply.take 6) (socks5NameFrame host port)))
    (hhost : host.length ≤ 127) (hatyp : reply[3]?.getD 3 = 3) :
    (peer.recvs 3 buf 1 fun buf => .within (charAt buf 4) fun len =>
        peer.recvs 4 buf (signedChar len) fun _ => .returned 0).ending = .undefined ↔
      reply[3]? = some 3 ∧ ∃ len, reply[4]? = some len ∧ peer.BringsName len := by
  have hlen : (overlay (reply.take 6) (socks5NameFrame host port))[4]?
      = some (reply[4]?.getD (UInt8.ofNat host.length)) := by
    rw [getElem?_overlay, List.getElem?_take_of_lt (by decide)]
    exact Option.or_some
  refine (undefined_boundName_iff h hlen).trans ⟨fun hname => ?_, ?_⟩
  · rcases hr : reply[4]? with _ | len
    · have h128 := hname.1
      rw [hr, Option.getD_none, UInt8.toNat_ofNat'] at h128
      omega
    · rw [hr, Option.getD_some] at hname
      have hlt : 4 < reply.length := (List.getElem?_eq_some_iff.mp hr).1
      rw [List.getElem?_eq_getElem (show 3 < reply.length by omega), Option.getD_some] at hatyp
      refine ⟨?_, len, rfl, hname⟩
      rw [List.getElem?_eq_getElem (by omega), hatyp]
  · rintro ⟨-, len, hr, hname⟩
    rwa [hr]

theorem undefined_socks5Reply_iff (h : Begins buf (socks5NameFrame host port))
    (hhost : host.length ≤ 127) : (socks5Reply peer 2 buf).ending = .undefined ↔ peer.Overlong := by
  have hlength := length_socks5NameFrame host port
  unfold socks5Reply
  rcases @recvs_cases _ _ peer 2 6 6 _ h rfl (by omega) with
    ⟨hidle, hno⟩ | ⟨reply, buf₁, ⟨hrecv, -⟩, h₁, hrun⟩
  · refine iff_of_false hidle.1 ?_
    rintro ⟨reply, len, hrecv, hrep, -⟩
    exact hno reply (.of_getElem? hrecv hrep (by decide))
  have hrep : charAt buf₁ 1 = some (reply[1]?.getD 1) := charAt_overlay h₁ (by decide) rfl
  have hatyp : charAt buf₁ 3 = some (reply[3]?.getD 3) := charAt_overlay h₁ (by decide) rfl
  rw [hrun, hrep, ProxyRun.within_some, overlong_iff hrecv,
    ← getD_eq_iff (by decide : (1 : UInt8) ≠ 0)]
  split_ifs with hrep0
  · rw [hatyp, ProxyRun.within_some, and_iff_right hrep0]
    split_ifs with hatyp1 hatyp3
    · -- an address, read in one piece
      rw [recvs_last peer 3 4 0 h₁.length]
      refine iff_of_false ?_ fun hover => ?_
      · rintro ⟨bytes, -, hlt⟩
        rw [List.length_take] at hlt
        omega
      · rw [hover.1] at hatyp1
        exact absurd hatyp1 (by decide)
    · exact undefined_nameReply_iff h₁ hhost hatyp3
    · exact iff_of_false nofun fun hover => hatyp3 (by rw [hover.1]; rfl)
  · exact iff_of_false nofun fun hover => hrep0 hover.1

end Reply

/-! ## The run -/

section Run

variable {peer : ProxyPeer} {buf : Buffer} {addr user pass : List UInt8} {sin : SockaddrIn}

/-- A frame is handed over whether or not it goes through. -/
theorem frames_sends (peer : ProxyPeer) (k : ℕ) (frame : List UInt8) (next : ProxyRun) :
    ∃ rest, (peer.sends k frame next).frames = frame :: rest := by
  unfold ProxyPeer.sends
  split_ifs
  · exact ⟨[], rfl⟩
  · exact ⟨next.frames, rfl⟩

/-- The run is defined, and these are its frames. -/
def ProxyRun.Sends (run : ProxyRun) (frames : List (List UInt8)) : Prop :=
  run.ending ≠ .undefined ∧ run.frames = frames

theorem not_sends_undefined (frames : List (List UInt8)) : ¬ ProxyRun.undefined.Sends frames :=
  fun h => h.1 rfl

theorem sends_iff_of_eq_zero {k : ℕ} {frame : List UInt8} {frames : List (List UInt8)}
    {next : ProxyRun} (h : peer.send k = 0) :
    (peer.sends k frame next).Sends (frame :: frames) ↔ next.Sends frames := by
  rw [ProxyPeer.sends, if_neg (not_not.mpr h)]
  simp [ProxyRun.Sends]

theorem sends_iff_of_ne_zero {k : ℕ} {frame : List UInt8} {frames : List (List UInt8)}
    {next : ProxyRun} (h : peer.send k ≠ 0) :
    (peer.sends k frame next).Sends (frame :: frames) ↔ frames = [] := by
  rw [ProxyPeer.sends, if_pos h]
  simp [ProxyRun.Sends, eq_comm]

/-- A frame of another length is another frame. -/
theorem not_sends_of_length {k : ℕ} {buf : Buffer} {j : ℤ} {frame : List UInt8}
    {frames : List (List UInt8)} {next : List UInt8 → ProxyRun} (h : j ≠ frame.length) :
    ¬ (ProxyRun.within (frameOf buf j) fun f => peer.sends k f (next f)).Sends
        (frame :: frames) := by
  rcases hf : frameOf buf j with _ | f
  · exact not_sends_undefined _
  · rintro ⟨-, hframes⟩
    obtain ⟨rest, hrest⟩ := frames_sends peer k f (next f)
    rw [ProxyRun.within_some, hrest] at hframes
    exact h ((length_frameOf hf).symm.trans (by rw [(List.cons.inj hframes).1]))

theorem socks5Connect_of_request {k : ℕ} {buf' : Buffer} {j : ℤ}
    (h : socks5Request buf addr sin = some (buf', j)) :
    socks5Connect peer k buf addr sin = .within (frameOf buf' j) fun frame =>
      peer.sends k frame ((socks5Reply peer k buf').asked frame) := by
  rw [socks5Connect, h]
  rfl

theorem socks5Authenticate_of_auth {buf' : Buffer} {j : ℤ} {user pass : Option (List UInt8)}
    (h : socks5Auth buf user pass = some (buf', j)) :
    socks5Authenticate peer buf addr sin user pass = .within (frameOf buf' j) fun frame =>
      peer.sends 1 frame <| peer.recvs 1 buf' 2 fun buf => .within (charAt buf 1) fun status =>
        if status ≠ 0 then .returned errTr50SockProxyAuthRejected
        else socks5Connect peer 2 buf addr sin := by
  rw [socks5Authenticate, h]
  rfl

/-- **The request goes out as it should** for a name of up to 127 bytes, and its answer is read
safely where that is not overlong. -/
theorem socks5Connect_sends_iff (hbuf : buf.length = 512) (haddr : 0 ∉ addr) :
    (socks5Connect peer 2 buf addr sin).Sends [socks5NameFrame (hostOf addr) sin.sinPort] ↔
      socketProxyUsesHostname addr = true ∧ (hostOf addr).length ≤ 127 ∧
        (peer.send 2 = 0 → ¬ peer.Overlong) := by
  rcases Bool.eq_false_or_eq_true (socketProxyUsesHostname addr) with hname | hname
  swap
  · refine iff_of_false ?_ fun h => nomatch hname.symm.trans h.1
    obtain ⟨buf', hrequest, hbuf'⟩ := socks5Request_address sin hbuf hname
    rw [socks5Connect_of_request hrequest, hbuf'.frameOf (by simp [sin.sinAddr.2]),
      ProxyRun.within_some]
    rintro ⟨-, hframes⟩
    obtain ⟨rest, hrest⟩ := frames_sends peer 2
      (0x05 :: 0x01 :: 0x00 :: 0x01 :: (sin.sinAddr.1 ++ be16 sin.sinPort))
      ((socks5Reply peer 2 buf').asked
        (0x05 :: 0x01 :: 0x00 :: 0x01 :: (sin.sinAddr.1 ++ be16 sin.sinPort)))
    rw [hrest] at hframes
    simp [socks5NameFrame] at hframes
  by_cases hlength : (hostOf addr).length ≤ 127
  swap
  · refine iff_of_false ?_ fun h => hlength h.2.1
    rcases hrequest : socks5Request buf addr sin with _ | ⟨buf', j⟩
    · rw [socks5Connect, hrequest]
      exact not_sends_undefined _
    · rw [socks5Connect_of_request hrequest]
      refine not_sends_of_length fun hj => hlength ?_
      rw [length_socks5NameFrame] at hj
      exact ((length_request_iff haddr hname hrequest).2.mp (by rw [hj]; push_cast; rfl))
  obtain ⟨buf', hrequest, hbuf'⟩ := socks5Request_of_le sin hbuf haddr hname hlength
  rw [socks5Connect_of_request hrequest,
    hbuf'.frameOf (by rw [length_socks5NameFrame]; push_cast; rfl), ProxyRun.within_some]
  by_cases hsend : peer.send 2 = 0
  · rw [sends_iff_of_eq_zero hsend, ← undefined_socks5Reply_iff hbuf' hlength]
    simp [ProxyRun.Sends, ProxyRun.asked, frames_socks5Reply, hname, hlength, hsend]
  · rw [sends_iff_of_ne_zero hsend]
    simp [hname, hlength, hsend]

/-- The proxy selects user name and password. -/
def ProxyPeer.Selects (peer : ProxyPeer) : Prop :=
  peer.send 0 = 0 ∧ ∃ bytes : List UInt8, peer.recv[0]? = some (.ok bytes) ∧ bytes[1]? = some 0x02

/-- …and accepts them. -/
def ProxyPeer.Accepts (peer : ProxyPeer) : Prop :=
  peer.send 1 = 0 ∧ ∃ bytes : List UInt8, peer.recv[1]? = some (.ok bytes) ∧ bytes[1]? = some 0x00

/-- Where only one byte comes, what has been there before is no acceptance. -/
theorem accepts_iff {bytes : List UInt8} {c : UInt8} (hsend : peer.send 1 = 0)
    (hrecv : peer.recv[1]? = some (.ok bytes)) (hc : c ≠ 0) :
    peer.Accepts ↔ bytes[1]?.getD c = 0 := by
  constructor
  · rintro ⟨-, bytes', hrecv', hstatus⟩
    cases hrecv.symm.trans hrecv'
    exact (getD_eq_iff hc).mpr hstatus
  · exact fun hstatus => ⟨hsend, bytes, hrecv, (getD_eq_iff hc).mp hstatus⟩

/-- The request goes out once the credentials are accepted, and nothing goes out before. -/
theorem socks5Accepted_sends_iff (sin : SockaddrIn) (hsend : peer.send 1 = 0)
    (hbuf : Begins buf (socks5AuthFrame user pass)) (haddr : 0 ∉ addr)
    (huser : UInt8.ofNat user.length ≠ 0) (frames : List (List UInt8))
    (hframes : peer.Accepts → frames = [socks5NameFrame (hostOf addr) sin.sinPort])
    (hnone : ¬ peer.Accepts → frames = []) :
    (peer.recvs 1 buf 2 fun buf => .within (charAt buf 1) fun status =>
        if status ≠ 0 then .returned errTr50SockProxyAuthRejected
        else socks5Connect peer 2 buf addr sin).Sends frames ↔
      (peer.Accepts → socketProxyUsesHostname addr = true ∧ (hostOf addr).length ≤ 127 ∧
        (peer.send 2 = 0 → ¬ peer.Overlong)) := by
  have hlength := length_socks5AuthFrame user pass
  rcases @recvs_cases _ _ peer 1 2 2 (fun buf => .within (charAt buf 1) fun status =>
      if status ≠ 0 then .returned errTr50SockProxyAuthRejected
      else socks5Connect peer 2 buf addr sin) hbuf rfl (by omega) with
    ⟨hidle, hnothing⟩ | ⟨bytes, buf', ⟨hrecv, -⟩, hbuf', hrun⟩
  · have hno : ¬ peer.Accepts := fun ⟨_, bytes, hrecv, hstatus⟩ =>
      hnothing bytes (.of_getElem? hrecv hstatus (by decide))
    rw [hnone hno]
    exact iff_of_true hidle fun h => absurd h hno
  have hstatus : charAt buf' 1 = some (bytes[1]?.getD (UInt8.ofNat user.length)) :=
    charAt_overlay hbuf' (by decide) rfl
  have haccepts := accepts_iff hsend hrecv huser
  rw [hrun, hstatus, ProxyRun.within_some]
  split_ifs with hrejected
  · have hno : ¬ peer.Accepts := fun h => hrejected (haccepts.mp h)
    rw [hnone hno]
    exact iff_of_true ⟨nofun, rfl⟩ fun h => absurd h hno
  · have hyes : peer.Accepts := haccepts.mpr (not_not.mp hrejected)
    rw [hframes hyes, socks5Connect_sends_iff hbuf'.length haddr]
    exact ⟨fun h _ => h, fun h => h hyes⟩

/-- The authentication goes out as it should, and the request behind it. -/
theorem socks5Authenticate_sends_iff (sin : SockaddrIn) (hbuf : buf.length = 512)
    (haddr : 0 ∉ addr) (huser : 0 ∉ user) (hpass : 0 ∉ pass) (huserLength : 1 ≤ user.length)
    (frames : List (List UInt8))
    (hframes : peer.Accepts → frames = [socks5NameFrame (hostOf addr) sin.sinPort])
    (hnone : ¬ peer.Accepts → frames = []) :
    (socks5Authenticate peer buf addr sin (some user) (some pass)).Sends
        (socks5AuthFrame user pass :: frames) ↔
      user.length ≤ 127 ∧ pass.length ≤ 127 ∧ (peer.Accepts →
        socketProxyUsesHostname addr = true ∧ (hostOf addr).length ≤ 127 ∧
          (peer.send 2 = 0 → ¬ peer.Overlong)) := by
  by_cases hshort : user.length ≤ 127 ∧ pass.length ≤ 127
  swap
  · refine iff_of_false ?_ fun h => hshort ⟨h.1, h.2.1⟩
    rcases hauth : socks5Auth buf (some user) (some pass) with _ | ⟨buf', j⟩
    · rw [socks5Authenticate, hauth]
      exact not_sends_undefined _
    · rw [socks5Authenticate_of_auth hauth]
      exact not_sends_of_length (mt (length_auth_iff huser hpass hauth).mp hshort)
  obtain ⟨buf', hauth, hbuf'⟩ := socks5Auth_of_le hbuf huser hpass hshort.1 hshort.2
  rw [socks5Authenticate_of_auth hauth,
    hbuf'.frameOf (by rw [length_socks5AuthFrame user pass]; push_cast; rfl), ProxyRun.within_some]
  simp only [hshort.1, hshort.2, true_and]
  by_cases hsend : peer.send 1 = 0
  · have hne : UInt8.ofNat user.length ≠ 0 := fun h0 => by
      have := congrArg UInt8.toNat h0
      rw [UInt8.toNat_ofNat', UInt8.toNat_zero] at this
      omega
    rw [sends_iff_of_eq_zero hsend]
    exact socks5Accepted_sends_iff sin hsend hbuf' haddr hne frames hframes hnone
  · have hno : ¬ peer.Accepts := fun h => hsend h.1
    rw [sends_iff_of_ne_zero hsend]
    exact iff_of_true (hnone hno) fun h => absurd h hno

/-- Up to the choice of the proxy. -/
theorem socks5_of_selects (user pass : Option (List UInt8)) {sinAddr : InAddr} (haddr : 0 ∉ addr)
    (hhost : (hostOf addr).length ≤ 254)
    (hresolves : peer.gethostbyname (hostOf addr) = some sinAddr) (hselects : peer.Selects) :
    ∃ buf : Buffer, buf.length = 512 ∧ socketProxySetupSocks5 peer addr user pass =
      peer.sends 0 socks5Greeting
        (socks5Authenticate peer buf addr ⟨sinAddr, sinPort addr⟩ user pass) := by
  obtain ⟨hsend, bytes, hrecv, hmethod⟩ := hselects
  obtain ⟨buf, hcopy, hbuf⟩ := @Begins.memcpy (Buffer.alloc 512) [] socks5Greeting 0
    (.nil List.length_replicate) rfl (by decide)
  rcases @recvs_cases _ _ peer 0 2 2 (fun buf => .within (charAt buf 1) fun method =>
      if method = 0xFF then .returned errTr50SockProxyAuthUnsup
      else if method = 0x02 then
        socks5Authenticate peer buf addr ⟨sinAddr, sinPort addr⟩ user pass
      else socks5Connect peer 1 buf addr ⟨sinAddr, sinPort addr⟩) hbuf rfl (by decide) with
    ⟨-, hnothing⟩ | ⟨bytes', buf', ⟨hrecv', -⟩, hbuf', hrun⟩
  · exact absurd (.of_getElem? hrecv hmethod (by decide)) (hnothing bytes)
  cases hrecv.symm.trans hrecv'
  have hcell : charAt buf' 1 = some 0x02 := by
    have := charAt_overlay (k := 1) hbuf' (by decide) rfl
    rwa [hmethod] at this
  refine ⟨buf', hbuf'.length, ?_⟩
  rw [socketProxySetupSocks5, proxyHost_of_le haddr hhost, ProxyRun.within_some, makeAddr,
    hresolves]
  change ProxyRun.within ((Buffer.alloc 512).memcpy 0 socks5Greeting) _ = _
  rw [hcopy, ProxyRun.within_some, hrun, hcell]
  rfl

/-- The purpose: the greeting, the authentication and, once that is accepted, the request, and
nothing stored outside the buffer. -/
def Negotiates (peer : ProxyPeer) (addr user pass : List UInt8) : Prop :=
  (socketProxySetupSocks5 peer addr (some user) (some pass)).ending ≠ .undefined ∧
    (peer.Accepts → (socketProxySetupSocks5 peer addr (some user) (some pass)).frames =
      [socks5Greeting, socks5AuthFrame user pass, socks5NameFrame (hostOf addr) (sinPort addr)]) ∧
    (¬ peer.Accepts → (socketProxySetupSocks5 peer addr (some user) (some pass)).frames =
      [socks5Greeting, socks5AuthFrame user pass])

/-- Where the host is copied whole. -/
theorem negotiates_iff_of_le {sinAddr : InAddr} (haddr : 0 ∉ addr) (huser : 0 ∉ user)
    (hpass : 0 ∉ pass) (huserLength : 1 ≤ user.length) (hhost : (hostOf addr).length ≤ 254)
    (hresolves : peer.gethostbyname (hostOf addr) = some sinAddr) (hselects : peer.Selects) :
    Negotiates peer addr user pass ↔
      user.length ≤ 127 ∧ pass.length ≤ 127 ∧ (peer.Accepts →
        socketProxyUsesHostname addr = true ∧ (hostOf addr).length ≤ 127 ∧
          (peer.send 2 = 0 → ¬ peer.Overlong)) := by
  obtain ⟨buf, hbuf, hrun⟩ := socks5_of_selects (some user) (some pass) haddr hhost hresolves
    hselects
  unfold Negotiates
  rw [hrun]
  by_cases haccepts : peer.Accepts
  · have hauth := socks5Authenticate_sends_iff ⟨sinAddr, sinPort addr⟩ hbuf haddr huser
      hpass huserLength [socks5NameFrame (hostOf addr) (sinPort addr)] (fun _ => rfl)
      fun hno => absurd haccepts hno
    refine Iff.trans ?_ ((@sends_iff_of_eq_zero peer 0 socks5Greeting _ _ hselects.1).trans hauth)
    exact ⟨fun h => ⟨h.1, h.2.1 haccepts⟩, fun h => ⟨h.1, fun _ => h.2, absurd haccepts⟩⟩
  · have hauth := socks5Authenticate_sends_iff ⟨sinAddr, sinPort addr⟩ hbuf haddr huser
      hpass huserLength [] (fun hyes => absurd hyes haccepts) fun _ => rfl
    refine Iff.trans ?_ ((@sends_iff_of_eq_zero peer 0 socks5Greeting _ _ hselects.1).trans hauth)
    exact ⟨fun h => ⟨h.1, h.2.2 haccepts⟩, fun h => ⟨h.1, fun hyes => absurd hyes haccepts,
      fun _ => h.2⟩⟩

/-- **The frames are the right ones exactly where the lengths are those of a signed `char`**: up to
127 bytes of user name and password and, once these are accepted, of a host that is a name. -/
theorem socketProxySetupSocks5_negotiates_iff {peer : ProxyPeer} {addr user pass : List UInt8}
    {sinAddr : InAddr} (haddr : 0 ∉ addr) (huser : 0 ∉ user) (hpass : 0 ∉ pass)
    (huserLength : 1 ≤ user.length) (hresolves : peer.gethostbyname (hostOf addr) = some sinAddr)
    (hselects : peer.Selects) :
    Negotiates peer addr user pass ↔
      user.length ≤ 127 ∧ pass.length ≤ 127 ∧ (hostOf addr).length ≤ 254 ∧ (peer.Accepts →
        socketProxyUsesHostname addr = true ∧ (hostOf addr).length ≤ 127 ∧
          (peer.send 2 = 0 → ¬ peer.Overlong)) := by
  by_cases hhost : (hostOf addr).length ≤ 254
  · rw [negotiates_iff_of_le haddr huser hpass huserLength hhost hresolves hselects]
    simp only [hhost, true_and]
  · refine iff_of_false (fun h => h.1 ?_) fun h => hhost h.2.2.1
    rw [socketProxySetupSocks5, proxyHost_of_ge haddr (by omega)]
    rfl

/-- A proxy that selects user name and password and accepts them and the request. -/
def willingPeer : ProxyPeer where
  gethostbyname := fun _ => some ⟨[10, 0, 0, 1], rfl⟩
  connect := 0
  send := fun _ => 0
  recv := [.ok [0x05, 0x02], .ok [0x01, 0x00], .ok [0x05, 0x00, 0x00, 0x01, 10, 0],
    .ok [0, 1, 0, 0]]

theorem willingPeer_selects : willingPeer.Selects := ⟨rfl, _, rfl, rfl⟩

/-- The user `u`, the password `p` and the host `h` on port 80. -/
theorem socketProxySetupSocks5_negotiates_short :
    Negotiates willingPeer [104, 58, 56, 48] [117] [112] := by
  refine (socketProxySetupSocks5_negotiates_iff (by decide) (by decide) (by decide) (by decide) rfl
    willingPeer_selects).mpr ⟨by decide, by decide, by decide, fun _ => ⟨by decide, by decide, ?_⟩⟩
  rintro - ⟨reply, len, hrecv, -, hatyp, -⟩
  have hreply : reply = [0x05, 0x00, 0x00, 0x01, 10, 0] := by
    injection (Option.some.inj hrecv).symm
  rw [hreply] at hatyp
  exact absurd hatyp (by decide)

/-- A user name of 128 bytes moves the index to `-126`, in front of the buffer. -/
theorem not_socketProxySetupSocks5_negotiates :
    ¬ ∀ (peer : ProxyPeer) (addr user pass : List UInt8), 0 ∉ addr → 0 ∉ user → 0 ∉ pass →
      1 ≤ user.length → user.length ≤ 255 → 1 ≤ pass.length → pass.length ≤ 255 →
      1 ≤ (hostOf addr).length → (hostOf addr).length ≤ 255 →
      socketProxyUsesHostname addr = true → (peer.gethostbyname (hostOf addr)).isSome →
      peer.Selects → Negotiates peer addr user pass := by
  intro h
  have huser : 0 ∉ List.replicate 128 (117 : UInt8) := by simp
  have hlength : (List.replicate 128 (117 : UInt8)).length = 128 := List.length_replicate
  have hnegotiates := h willingPeer [104] (List.replicate 128 117) [112] (by decide) huser
    (by decide) (by rw [hlength]; decide) (by rw [hlength]; decide) (by decide) (by decide)
    (by decide) (by decide) (by decide) rfl willingPeer_selects
  rw [negotiates_iff_of_le (by decide) huser (by decide) (by rw [hlength]; decide) (by decide) rfl
    willingPeer_selects, hlength] at hnegotiates
  exact absurd hnegotiates.1 (by decide)

end Run

end Tr50

import Tr50.Machinery.Bytes
import Tr50.Machinery.Decimal

/-!
# Machinery/Tunnel — what is asked of a proxy

The requests by which a client asks a proxy for a connection, as the proxies read them: the frames
of SOCKS 4, 4a and 5 and the line of an HTTP `CONNECT`.  `Request bytes target port` says that the
bytes are such a request, and for what.  A request says one port only (`Request.port_socks4`,
`Request.port_socks5`, `Request.authority`).
-/

namespace Tr50.Machinery

/-- Where a connection is to go. -/
inductive Target
  | address (bytes : List UInt8)
  | name (host : List UInt8)
deriving DecidableEq, Repr

/-- `CONNECT` and a space. -/
def connectMethod : List UInt8 := [67, 79, 78, 78, 69, 67, 84, 32]

/-- `host:port` in front of the first space. -/
def Authority (line host : List UInt8) (port : ℕ) : Prop :=
  ∃ digits, line.takeWhile (· ≠ 32) = host ++ 58 :: digits ∧ 58 ∉ host ∧ IsDecimal digits ∧
    decimalValue digits = port

/-- What comes behind a space does not matter. -/
theorem authority_append (line rest host : List UInt8) (port : ℕ) :
    Authority (line ++ 32 :: rest) host port ↔ Authority line host port := by
  have htake : (line ++ 32 :: rest).takeWhile (· ≠ 32) = line.takeWhile (· ≠ 32) := by
    induction line with
    | nil => simp
    | cons c line ih => simp only [List.cons_append, List.takeWhile_cons, ih]
  rw [Authority, Authority, htake]

/-- The requests. -/
inductive Request : List UInt8 → Target → ℕ → Prop
  | socks4 {port : UInt16} {address user : List UInt8} (haddress : address.length = 4)
      (huser : 0 ∉ user) :
      Request (4 :: 1 :: (be16 port ++ address ++ user ++ [0])) (.address address) port.toNat
  /-- No address but `0.0.0.x`: the name follows. -/
  | socks4a {port : UInt16} {x : UInt8} {user host : List UInt8} (hx : x ≠ 0) (huser : 0 ∉ user)
      (hhost : 0 ∉ host) :
      Request (4 :: 1 :: (be16 port ++ [0, 0, 0, x] ++ user ++ [0] ++ host ++ [0])) (.name host)
        port.toNat
  | socks5Address {port : UInt16} {address : List UInt8} (haddress : address.length = 4) :
      Request (5 :: 1 :: 0 :: 1 :: (address ++ be16 port)) (.address address) port.toNat
  | socks5Name {port : UInt16} {host : List UInt8} (hhost : host.length < 256) :
      Request (5 :: 1 :: 0 :: 3 :: UInt8.ofNat host.length :: (host ++ be16 port)) (.name host)
        port.toNat
  | connect {line host : List UInt8} {port : ℕ} (hline : Authority line host port) :
      Request (connectMethod ++ line) (.name host) port

/-! ## Reading a request -/

theorem be16_injective {m n : UInt16} (h : be16 m = be16 n) : m = n := by
  obtain ⟨hhi, hlo⟩ := List.cons.inj h
  rw [← word16_be16 m, ← word16_be16 n, hhi, (List.cons.inj hlo).1]

/-- **A SOCKS 4 request has its port in front.** -/
theorem Request.port_socks4 {port : UInt16} {rest : List UInt8} {target : Target} {n : ℕ}
    (h : Request (4 :: 1 :: (be16 port ++ rest)) target n) : n = port.toNat := by
  generalize hbytes : 4 :: 1 :: (be16 port ++ rest) = bytes at h
  cases h with
  | socks4 haddress huser | socks4a hx huser hhost =>
    simp only [List.append_assoc, List.cons.injEq, true_and] at hbytes
    rw [be16_injective (List.append_inj_left hbytes rfl)]
  | socks5Address haddress | socks5Name hhost => cases hbytes
  | connect hline => cases hbytes

/-- **…a SOCKS 5 request at its end.** -/
theorem Request.port_socks5 {port : UInt16} {rest : List UInt8} {target : Target} {n : ℕ}
    (h : Request (5 :: (rest ++ be16 port)) target n) : n = port.toNat := by
  generalize hbytes : 5 :: (rest ++ be16 port) = bytes at h
  cases h with
  | socks4 haddress huser | socks4a hx huser hhost => cases hbytes
  | @socks5Address port' address haddress =>
    have hend : rest ++ be16 port = 1 :: 0 :: 1 :: address ++ be16 port' := (List.cons.inj hbytes).2
    rw [be16_injective (List.append_inj_right' hend rfl)]
  | @socks5Name port' host hhost =>
    have hend : rest ++ be16 port = 1 :: 0 :: 3 :: UInt8.ofNat host.length :: host ++ be16 port' :=
      (List.cons.inj hbytes).2
    rw [be16_injective (List.append_inj_right' hend rfl)]
  | connect hline => cases hbytes

/-- A request has seven bytes at least. -/
theorem Request.length_le {bytes : List UInt8} {target : Target} {n : ℕ}
    (h : Request bytes target n) : 7 ≤ bytes.length := by
  cases h with
  | socks4 haddress huser =>
    simp [haddress]
    omega
  | socks4a hx huser hhost =>
    simp
    omega
  | socks5Address haddress => simp [haddress]
  | socks5Name hhost => simp
  | connect hline => simp [connectMethod]

/-- **A `CONNECT` says what is in front of its second space.** -/
theorem Request.authority {line : List UInt8} {target : Target} {n : ℕ}
    (h : Request (connectMethod ++ line) target n) :
    ∃ host, target = .name host ∧ Authority line host n := by
  generalize hbytes : connectMethod ++ line = bytes at h
  cases h with
  | socks4 haddress huser | socks4a hx huser hhost => cases hbytes
  | socks5Address haddress | socks5Name hhost => cases hbytes
  | connect hline => exact ⟨_, rfl, (List.append_right_injective _ hbytes) ▸ hline⟩

end Tr50.Machinery
